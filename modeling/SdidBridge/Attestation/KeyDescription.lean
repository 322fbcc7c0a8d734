import SdidBridge.Attestation.DerValues
import SdidBridge.Attestation.KeyAttestation
import SdidBridge.Attestation.Texts
import SdidBridge.Shared.JsText

/-!
# The readers of certificates and key descriptions

What `key-attestation.ts` and `x509.ts` read with the DER reader: the extensions of a certificate, the
description of a key, and the chain that a client sends. A reader answers the message that it throws.
-/

namespace SdidBridge.Attestation

/-! ## Nodes -/

/-- `SEQUENCE`. -/
def DER_SEQUENCE : ℕ := 16

/-- `SET`. -/
def DER_SET : ℕ := 17

/-- `derSequence`. -/
def derSequence (node : DerNode) (what : String) : Except DerError (List DerNode) := do
  derExpect node .universal DER_SEQUENCE what
  derCheck (node.constructed = true) s!"{what}: SEQUENCE must be constructed"
  pure node.children

/-- `derSet`. -/
def derSet (node : DerNode) (what : String) : Except DerError (List DerNode) := do
  derExpect node .universal DER_SET what
  derCheck (node.constructed = true) s!"{what}: SET must be constructed"
  pure node.children

/-- `derSmallInteger`. -/
def derSmallInteger (node : DerNode) (what : String) : Except DerError ℤ := do
  let value ← derInteger node what
  derCheck (-(MAX_SAFE_INTEGER : ℤ) ≤ value ∧ value ≤ MAX_SAFE_INTEGER) s!"{what}: integer out of range"
  pure value

/-- `derExplicit`. -/
def derExplicit (node : DerNode) (what : String) : Except DerError DerNode := do
  derCheck (node.tagClass = .context ∧ node.constructed = true)
    s!"{what}: expected a constructed context-specific tag"
  match node.children with
  | [child] => pure child
  | _ => throw (derError s!"{what}: EXPLICIT tag must wrap exactly one element")

/-- The node carries a context-specific tag. -/
def isContext (tagNumber : ℕ) (node : DerNode) : Bool :=
  decide (node.tagClass = .context ∧ node.tagNumber = tagNumber)

/-- `derFindContext`. -/
def derFindContext (children : List DerNode) (tagNumber : ℕ) : Except DerError (Option DerNode) :=
  match children.filter (isContext tagNumber) with
  | [] => pure none
  | [child] => pure (some child)
  | _ => throw (derError s!"duplicate context tag [{tagNumber}]")

/-- `parseDer` without limits of the caller's. What is too long for an array is over the limit on bytes. -/
def parseDerBytes (bytes : Bytes) : Except DerError DerNode :=
  if bound : bytes.length ≤ MAX_SAFE_INTEGER then
    match parseDer ⟨bytes, bound⟩ defaultDerLimits with
    | .ok node => .ok node
    | .error (.raised error) => .error error
    | .error .fault => .error (derError "unexpected end of input")
  else
    .error (derError s!"input of {bytes.length} bytes exceeds limit {DEFAULT_DER_LIMITS.maxBytes}")

/-- The message of an error. -/
def throwing {α : Type} (x : Except DerError α) : Except String α := x.mapError DerError.message

/-! ## Authorization lists -/

def TAG_PURPOSE : ℕ := 1

def TAG_ALL_APPLICATIONS : ℕ := 600

def TAG_ORIGIN : ℕ := 702

def TAG_ROOT_OF_TRUST : ℕ := 704

def TAG_OS_VERSION : ℕ := 705

def TAG_OS_PATCH_LEVEL : ℕ := 706

def TAG_ATTESTATION_APPLICATION_ID : ℕ := 709

/-- What the child with a tag holds, under the explicit tag, if there is such a child. -/
def readTagged {α : Type} (children : List DerNode) (tagNumber : ℕ) (what : String)
    (read : DerNode → Except DerError α) : Except DerError (Option α) := do
  match ← derFindContext children tagNumber with
  | none => pure none
  | some tag =>
    let inner ← derExplicit tag what
    let value ← read inner
    pure (some value)

/-- The purposes of a key. -/
def readPurposes (what : String) (node : DerNode) : Except DerError (List ℤ) := do
  let entries ← derSet node what
  entries.mapM fun entry => derSmallInteger entry what

/-- Whether the bootloader is locked, and the state of the boot. The key that verified the boot is not read. -/
def readRootOfTrust (what : String) (node : DerNode) : Except DerError (Bool × ℤ) := do
  let rot ← derSequence node s!"{what}.rootOfTrust"
  match rot with
  | _ :: locked :: state :: _ =>
    let deviceLocked ← derBoolean locked s!"{what}.deviceLocked"
    let verifiedBootState ← derEnumerated state s!"{what}.verifiedBootState"
    pure (deviceLocked, verifiedBootState)
  | _ => throw (derError s!"{what}.rootOfTrust: too few fields")

/-- `parseAuthorizationList`. -/
def parseAuthorizationList (node : DerNode) (what : String) : Except DerError AndroidAuthorizationList := do
  let children ← derSequence node what
  let purposes ← readTagged children TAG_PURPOSE s!"{what}.purpose" (readPurposes s!"{what}.purpose")
  let origin ← readTagged children TAG_ORIGIN s!"{what}.origin" fun inner =>
    derSmallInteger inner s!"{what}.origin"
  let marker ← derFindContext children TAG_ALL_APPLICATIONS
  let rootOfTrust ← readTagged children TAG_ROOT_OF_TRUST s!"{what}.rootOfTrust" (readRootOfTrust what)
  let attestationApplicationId ← readTagged children TAG_ATTESTATION_APPLICATION_ID
    s!"{what}.attestationApplicationId" fun inner => derOctetString inner s!"{what}.attestationApplicationId"
  let osVersion ← readTagged children TAG_OS_VERSION s!"{what}.osVersion" fun inner =>
    derSmallInteger inner s!"{what}.osVersion"
  let osPatchLevel ← readTagged children TAG_OS_PATCH_LEVEL s!"{what}.osPatchLevel" fun inner =>
    derSmallInteger inner s!"{what}.osPatchLevel"
  pure {
    present := decide (children ≠ [])
    purposes
    origin
    allApplications := marker.isSome
    rootOfTrust
    attestationApplicationId
    osVersion
    osPatchLevel }

/-! ## Key descriptions -/

/-- The fields of a key description. The sixth is an identifier of the device, which is not read. -/
def readKeyDescription (fields : List DerNode) : Except DerError KeyDescription :=
  match fields with
  | version :: level :: keymaster :: keymasterLevel :: challenge :: _ :: software :: hardware :: _ => do
    let attestationVersion ← derSmallInteger version "attestationVersion"
    let attestationSecurityLevel ← derEnumerated level "attestationSecurityLevel"
    let keymasterVersion ← derSmallInteger keymaster "keymasterVersion"
    let keymasterSecurityLevel ← derEnumerated keymasterLevel "keymasterSecurityLevel"
    let attestationChallenge ← derOctetString challenge "attestationChallenge"
    let softwareEnforced ← parseAuthorizationList software "softwareEnforced"
    let hardwareEnforced ← parseAuthorizationList hardware "hardwareEnforced"
    pure {
      attestationVersion
      attestationSecurityLevel
      keymasterVersion
      keymasterSecurityLevel
      attestationChallenge
      softwareEnforced
      hardwareEnforced }
  | _ => throw (derError s!"KeyDescription: expected 8 fields, got {fields.length}")

/-- `parseKeyDescription`. -/
def parseKeyDescription (der : Bytes) : Except DerError KeyDescription := do
  let node ← parseDerBytes der
  let fields ← derSequence node "KeyDescription"
  readKeyDescription fields

/-- The name of a package. -/
def readPackageName (info : DerNode) : Except DerError String := do
  let parts ← derSequence info "AttestationPackageInfo"
  match parts with
  | [] => throw (derError "packageName: missing")
  | name :: _ =>
    let octets ← derOctetString name "packageName"
    pure (bufferToString octets)

/-- The application of an identifier with two fields or more. -/
def readApplicationId (der : Bytes) : Except DerError (Option AttestationApplicationId) := do
  let node ← parseDerBytes der
  let fields ← derSequence node "AttestationApplicationId"
  match fields with
  | packages :: digests :: _ =>
    let infos ← derSet packages "packageInfos"
    let packageNames ← infos.mapM readPackageName
    let entries ← derSet digests "signatureDigests"
    let signatureDigests ← entries.mapM fun digest => do
      let octets ← derOctetString digest "signatureDigest"
      pure (toBase64 octets)
    pure (some { packageNames, signatureDigests })
  | _ => pure none

/-- `tryParseAttestationApplicationId`. -/
def tryParseAttestationApplicationId (der : Bytes) : Option AttestationApplicationId :=
  match readApplicationId der with
  | .ok appId => appId
  | .error _ => none

/-! ## Extensions -/

/-- The loop of `findCertificateExtension`. -/
def findExtension (oid : String) : List DerNode → Except DerError (Option Bytes)
  | [] => pure none
  | extension :: rest => do
    match ← derSequence extension "Extension" with
    | [] => findExtension oid rest
    | id :: parts =>
      let name ← derOid id "extnID"
      if name ≠ oid then findExtension oid rest
      else
        let value := parts.getLastD id
        if value.tagClass = .universal ∧ value.tagNumber = DER_OCTET_STRING then pure (some value.content)
        else pure none

/-- `findCertificateExtension`, in the bytes of a certificate. -/
def findCertificateExtension (raw : Bytes) (oid : String) : Except DerError (Option Bytes) := do
  let root ← parseDerBytes raw
  let certificate ← derSequence root "Certificate"
  match certificate with
  | [] => pure none
  | tbs :: _ =>
    let tbsChildren ← derSequence tbs "TBSCertificate"
    match ← derFindContext tbsChildren 3 with
    | none => pure none
    | some tag =>
      let inner ← derExplicit tag "extensions"
      let extensions ← derSequence inner "Extensions"
      findExtension oid extensions

/-! ## Chains -/

/-- The longest text of one certificate. -/
def MAX_ENCODED_CERT_CHARS : ℕ := 16 * 1024

/-- The start of a certificate in a PEM bundle. -/
def PEM_BEGIN : List Char := "-----BEGIN CERTIFICATE-----".toList

/-- Its end. -/
def PEM_END : List Char := "-----END CERTIFICATE-----".toList

/-- The texts of a JSON array of texts, without the white space around them. -/
def jsonTexts (cs : List Char) : Except String (List (List Char)) :=
  match jsonParse cs with
  | none => .error "key attestation chain is not valid JSON"
  | some (.arr items) =>
    match items.mapM fun | .str text => some (jsTrim text) | _ => none with
    | some texts => .ok texts
    | none => .error "key attestation chain must be an array of base64 strings"
  | some _ => .error "key attestation chain must be an array of base64 strings"

/-- The text of a PEM block after its start. -/
def pemText (block : List Char) : Except String (List Char) :=
  match breakAt PEM_END block with
  | none => .error "unterminated PEM block"
  | some (text, _) => .ok (text.filter fun c => !isJsSpace c)

/-- The texts of the certificates of a chain, from a JSON array, a PEM bundle, or a list. -/
def encodedCertificates (trimmed : List Char) : Except String (List (List Char)) :=
  if trimmed.head? = some '[' then jsonTexts trimmed
  else if (breakAt PEM_BEGIN trimmed).isSome then (jsSplit PEM_BEGIN trimmed).tail.mapM pemText
  else .ok (partsBetween (fun c => isJsSpace c || c == ',') trimmed)

/-- The certificates of the texts, from the certificate `index` on. -/
def decodeCertificates : ℕ → List (List Char) → Except String (List Bytes)
  | _, [] => .ok []
  | index, item :: rest => do
    if MAX_ENCODED_CERT_CHARS < utf16Length (String.ofList item) then
      throw ("certificate #" ++ toString index ++ " is implausibly large")
    let der ← decodeBase64Strict (String.ofList item) ("certificate #" ++ toString index)
    let ders ← decodeCertificates (index + 1) rest
    return der :: ders

/-- `parseCertificateChainInput`. -/
def parseCertificateChainInput (value : String) : Except String (List Bytes) := do
  if MAX_CHAIN_LENGTH * MAX_ENCODED_CERT_CHARS < utf16Length value then
    throw "key attestation chain is implausibly large"
  let trimmed := jsTrim value.toList
  if trimmed = [] then throw "key attestation chain is empty"
  let encoded ← encodedCertificates trimmed
  if encoded = [] then throw "key attestation chain is empty"
  if MAX_CHAIN_LENGTH < encoded.length then
    throw ("key attestation chain has more than " ++ toString MAX_CHAIN_LENGTH ++ " certificates")
  decodeCertificates 0 encoded

end SdidBridge.Attestation
