import SdidBridge.Attestation.Cbor
import SdidBridge.Broker.Enrolment

/-!
# The attestation of a device's key

`common.ts`, `x509.ts` and `key-attestation.ts` of the attestation package. Certificates are parsed and
their signatures checked by `node:crypto`, and the bytes inside them are read by the package's DER reader;
both are fields of `CertificateEngine`, and all that is decided on their answers is here.
-/

namespace SdidBridge.Attestation

/-- `bytesEqual`: nothing equals the empty string. -/
def bytesEqual (a b : Bytes) : Bool :=
  if a.length ≠ b.length ∨ a.length = 0 then false else decide (a = b)

/-- `stringsEqual`. -/
def stringsEqual (a b : String) : Bool := bytesEqual (utf8 a) (utf8 b)

theorem eq_of_bytesEqual {a b : Bytes} (h : bytesEqual a b = true) : a = b := by
  unfold bytesEqual at h
  split_ifs at h
  exact of_decide_eq_true h

theorem eq_of_stringsEqual {a b : String} (h : stringsEqual a b = true) : a = b :=
  utf8_injective (eq_of_bytesEqual h)

/-! ## Checks -/

/-- Why a verifier stops before its verdict. -/
inductive Stop where
  /-- It refuses what it was given. -/
  | rejected (code : AttestationRejectionCode) (detail : String)
  /-- An exception that no check catches. -/
  | fault (message : String)

/-- What a verifier computes, a check at a time. -/
abbrev Check := Except Stop

/-- `return reject(code, detail)`. -/
def reject {α : Type} (code : AttestationRejectionCode) (detail : String) : Check α :=
  .error (.rejected code detail)

/-- `if (c) return reject(code, detail)`. -/
def rejectIf (c : Prop) [Decidable c] (code : AttestationRejectionCode) (detail : String) : Check Unit :=
  if c then reject code detail else pure ()

/-- What a `try` reads, whose `catch` refuses it with the message of the exception. -/
def decoding {α : Type} (code : AttestationRejectionCode) (what : String) (x : Except String α) : Check α :=
  match x with
  | .ok a => pure a
  | .error message => reject code (what ++ message)

/-- What is read outside of any `try`. -/
def faulting {α : Type} (x : Except String α) : Check α :=
  match x with
  | .ok a => pure a
  | .error message => .error (.fault message)

/-- What is there, or the refusal without it. -/
def orReject {α : Type} (x : Option α) (code : AttestationRejectionCode) (detail : String) : Check α :=
  match x with
  | some a => pure a
  | none => reject code detail

section Check

variable {α β : Type}

/-- A check that goes on has passed its first part. -/
@[simp] theorem bind_eq_ok {x : Check α} {f : α → Check β} {b : β} :
    (x >>= f) = .ok b ↔ ∃ a, x = .ok a ∧ f a = .ok b := by
  cases x <;> simp [bind, Except.bind]

@[simp] theorem rejectIf_eq_ok {c : Prop} [Decidable c] {code : AttestationRejectionCode} {detail : String}
    {u : Unit} : rejectIf c code detail = .ok u ↔ ¬ c := by
  unfold rejectIf reject
  by_cases hc : c <;> simp [hc, pure, Except.pure]

@[simp] theorem decoding_eq_ok {code : AttestationRejectionCode} {what : String} {x : Except String α} {a : α} :
    decoding code what x = .ok a ↔ x = .ok a := by
  cases x <;> simp [decoding, reject, pure, Except.pure]

@[simp] theorem faulting_eq_ok {x : Except String α} {a : α} : faulting x = .ok a ↔ x = .ok a := by
  cases x <;> simp [faulting, pure, Except.pure]

@[simp] theorem orReject_eq_ok {x : Option α} {code : AttestationRejectionCode} {detail : String} {a : α} :
    orReject x code detail = .ok a ↔ x = some a := by
  cases x <;> simp [orReject, reject, pure, Except.pure]

end Check

/-! ## Certificates -/

/-- The entries of an authorization list that the package reads. -/
structure AndroidAuthorizationList where
  /-- Whether the list has an entry. -/
  present : Bool
  /-- What the key is for. -/
  purposes : Option (List ℤ) := none
  /-- Where the key comes from. -/
  origin : Option ℤ := none
  /-- Whether every application can use the key. -/
  allApplications : Bool := false
  /-- Whether the bootloader is locked, and how the boot was verified. -/
  rootOfTrust : Option (Bool × ℤ) := none
  /-- The application that the key was made for. -/
  attestationApplicationId : Option Bytes := none
  /-- The version of the system. -/
  osVersion : Option ℤ := none
  /-- Its patch level. -/
  osPatchLevel : Option ℤ := none
  deriving DecidableEq

/-- What a device says of a key that it made. -/
structure KeyDescription where
  attestationVersion : ℤ
  attestationSecurityLevel : ℤ
  keymasterVersion : ℤ
  keymasterSecurityLevel : ℤ
  attestationChallenge : Bytes
  softwareEnforced : AndroidAuthorizationList
  hardwareEnforced : AndroidAuthorizationList
  deriving DecidableEq

/-- The application that a key was made for. -/
structure AttestationApplicationId where
  packageNames : List String
  signatureDigests : List String
  deriving DecidableEq

/-- What `node:crypto` answers about certificates, and what the package's readers find in bytes. A reader
that throws answers its message. -/
structure CertificateEngine where
  /-- A parsed certificate. -/
  Certificate : Type
  /-- `new X509Certificate`. -/
  parse : Bytes → Except String Certificate
  /-- `raw`. -/
  raw : Certificate → Bytes
  /-- `validFromDate.getTime()`, if it is finite. -/
  validFrom : Certificate → Option ℤ
  /-- `validToDate.getTime()`, if it is finite. -/
  validTo : Certificate → Option ℤ
  /-- `ca`. -/
  ca : Certificate → Bool
  /-- `safeCheckIssued`. -/
  checkIssued : Certificate → Certificate → Bool
  /-- `safeVerify`. -/
  verify : Certificate → Certificate → Bool
  /-- `keyObjectToRawPoint` of the public key. -/
  rawPoint : Certificate → Except String (Option Bytes)
  /-- `findCertificateExtension`. -/
  findCertificateExtension : Certificate → String → Except String (Option Bytes)
  /-- `parseCertificateChainInput`. -/
  parseCertificateChainInput : String → Except String (List Bytes)
  /-- `parseKeyDescription`. -/
  parseKeyDescription : Bytes → Except String KeyDescription
  /-- `tryParseAttestationApplicationId`. -/
  tryParseAttestationApplicationId : Bytes → Option AttestationApplicationId
  /-- `decodeBase64UrlStrict`, without the name of what is decoded in its message. -/
  decodeBase64UrlStrict : String → Except String Bytes
  /-- SHA-256. -/
  sha256 : Bytes → Bytes

/-- The longest chain. -/
def MAX_CHAIN_LENGTH : ℕ := 8

section Chain

variable (E : CertificateEngine)

/-- The first loop of `verifyCertificateChain`, from the certificate `i` on: every certificate is valid now,
and all but the first are certificate authorities. -/
def checkValidity (now : ℤ) : ℕ → List E.Certificate → Except String Unit
  | _, [] => .ok ()
  | i, cert :: rest =>
    match E.validFrom cert, E.validTo cert with
    | some start, some stop =>
      if now < start then .error ("certificate #" ++ toString i ++ " is not yet valid")
      else if stop < now then .error ("certificate #" ++ toString i ++ " has expired")
      else if 0 < i ∧ E.ca cert = false then
        .error ("certificate #" ++ toString i ++ " signs others but is not a CA")
      else checkValidity now (i + 1) rest
    | _, _ => .error ("certificate #" ++ toString i ++ " has an unreadable validity period")

/-- The second loop: each certificate is issued by the next one. -/
def checkLinks : ℕ → List E.Certificate → Except String Unit
  | i, child :: parent :: rest =>
    if E.checkIssued child parent = false then
      .error ("certificate #" ++ toString i ++ " is not issued by certificate #" ++ toString (i + 1))
    else if E.verify child parent = false then
      .error ("certificate #" ++ toString i ++ " signature does not verify under #" ++ toString (i + 1))
    else checkLinks (i + 1) (parent :: rest)
  | _, _ => .ok ()

/-- The third loop: the last certificate is a pinned root, or is issued by one. -/
def checkAnchor (top : E.Certificate) : List E.Certificate → Except String String
  | [] => .error "chain does not terminate at a pinned platform root"
  | anchor :: rest =>
    if E.raw top = E.raw anchor then .ok "chain terminates at a pinned root"
    else if E.ca anchor = true ∧ E.checkIssued top anchor = true ∧ E.verify top anchor = true then
      .ok "chain verifies under a pinned root"
    else checkAnchor top rest

/-- `verifyCertificateChain`: the detail of a chain that holds, or of one that does not. -/
def verifyCertificateChain (chain anchors : List E.Certificate) (now : ℤ) : Except String String :=
  match chain.getLast? with
  | none => .error "empty certificate chain"
  | some top =>
    if MAX_CHAIN_LENGTH < chain.length then
      .error ("chain of " ++ toString chain.length ++ " exceeds max " ++ toString MAX_CHAIN_LENGTH)
    else if anchors = [] then .error "no trust anchors configured for this platform"
    else do
      checkValidity E now 0 chain
      checkLinks E 0 chain
      checkAnchor E top anchors

/-! ## Points -/

/-- `jwkToRawPoint`: the uncompressed point of a key. -/
def jwkToRawPoint (jwk : PublicKeyJwk) (what : String) : Except String Bytes := do
  if jwk.kty ≠ "EC" ∨ jwk.crv ≠ "P-256" then .error (what ++ ": only EC P-256 keys are supported")
  else
    let x ← (E.decodeBase64UrlStrict jwk.x).mapError ((what ++ ".x") ++ ·)
    let y ← (E.decodeBase64UrlStrict jwk.y).mapError ((what ++ ".y") ++ ·)
    if x.length ≠ 32 ∨ y.length ≠ 32 then .error (what ++ ": coordinates must be 32 bytes")
    else .ok (0x04 :: (x ++ y))

/-! ## The key attestation of Android -/

/-- The extension that holds the description of a key. -/
def ANDROID_KEY_ATTESTATION_OID : String := "1.3.6.1.4.1.11129.2.1.17"

def SECURITY_LEVEL_SOFTWARE : ℤ := 0

def SECURITY_LEVEL_TRUSTED_ENVIRONMENT : ℤ := 1

def SECURITY_LEVEL_STRONGBOX : ℤ := 2

/-- The origin of a key that was made inside the secure hardware. -/
def ORIGIN_GENERATED : ℤ := 0

/-- The state of a verified boot. -/
def VERIFIED_BOOT_VERIFIED : ℤ := 0

/-- `toKeySecurityLevel`: a level that is not known is the lowest one. -/
def toKeySecurityLevel (level : ℤ) : KeySecurityLevel :=
  if level = SECURITY_LEVEL_STRONGBOX then .strongbox
  else if level = SECURITY_LEVEL_TRUSTED_ENVIRONMENT then .trustedEnvironment
  else .software

/-- `securityLevelName`. -/
def securityLevelName (level : ℤ) : String :=
  if level = SECURITY_LEVEL_SOFTWARE then "Software"
  else if level = SECURITY_LEVEL_TRUSTED_ENVIRONMENT then "TrustedEnvironment"
  else if level = SECURITY_LEVEL_STRONGBOX then "StrongBox"
  else "Unknown(" ++ toString level ++ ")"

/-- What the attestation of a key is checked against. -/
structure AndroidKeyAttestationInput where
  keyAttestation : String
  expectedNonce : String
  devicePublicKeyJwk : PublicKeyJwk
  packageName : String
  certificateDigests : List String
  now : ℤ
  trustAnchors : List E.Certificate

/-- An integer as a value. -/
def intValue (n : ℤ) : JsValue :=
  match JsNumber.ofNat n.natAbs with
  | .finite _ coeff expo hc => .num (.finite (decide (n < 0)) coeff expo hc)
  | z => .num z

/-- A value that may be missing, as `x ?? null`. -/
def orNull {α : Type} (f : α → JsValue) : Option α → JsValue
  | some a => f a
  | none => .null

/-- The level of a described key, and why it is lower than the level that the description names. -/
def describedLevel (description : KeyDescription) : KeySecurityLevel × List String :=
  let rawLevel := min description.attestationSecurityLevel description.keymasterSecurityLevel
  let named := toKeySecurityLevel rawLevel
  let unbacked := named ≠ .software ∧ description.hardwareEnforced.present = false
  let level := if unbacked then .software else named
  let downgrades := if unbacked then ["empty hardware-enforced authorization list"] else []
  match description.hardwareEnforced.origin.or description.softwareEnforced.origin with
  | some origin =>
    if origin ≠ ORIGIN_GENERATED then
      (.software, downgrades ++ ["key origin " ++ toString origin ++ " is not hardware-generated"])
    else (level, downgrades)
  | none => (level, downgrades)

/-- The application that a description names is ours, as far as it names one. -/
def checkApplicationId (input : AndroidKeyAttestationInput E) (description : KeyDescription) : Check Unit :=
  let appIdBytes := description.softwareEnforced.attestationApplicationId.or
    description.hardwareEnforced.attestationApplicationId
  match appIdBytes.bind E.tryParseAttestationApplicationId with
  | none => pure ()
  | some appId => do
    rejectIf (appId.packageNames ≠ [] ∧ input.packageName ∉ appId.packageNames) .appMismatch
      ("key attestation names package(s) " ++ ", ".intercalate appId.packageNames ++ ", expected " ++
        input.packageName)
    rejectIf (appId.signatureDigests ≠ [] ∧ input.certificateDigests ≠ [] ∧
        ∀ digest ∈ appId.signatureDigests, digest ∉ input.certificateDigests) .appMismatch
      "key attestation signing digest is not one of ours"

/-- A root of trust that a description reports is locked and verified. -/
def checkRootOfTrust (rootOfTrust : Option (Bool × ℤ)) : Check Unit :=
  match rootOfTrust with
  | none => pure ()
  | some (deviceLocked, verifiedBootState) => do
    rejectIf (deviceLocked = false) .deviceIntegrity
      "attested root of trust reports an unlocked bootloader"
    rejectIf (verifiedBootState ≠ VERIFIED_BOOT_VERIFIED) .deviceIntegrity
      ("attested verified-boot state is " ++ toString verifiedBootState ++ ", expected Verified")

/-- `verifyAndroidKeyAttestation`: the level of the enrolled key, and what is kept of its description. -/
def verifyAndroidKeyAttestation (input : AndroidKeyAttestationInput E) :
    Check (KeySecurityLevel × List (String × JsValue)) := do
  let chain ← decoding .malformed "key attestation chain: "
    (E.parseCertificateChainInput input.keyAttestation >>= List.mapM E.parse)
  let _ ← decoding .chainInvalid "key attestation " (verifyCertificateChain E chain input.trustAnchors input.now)
  -- A chain that holds is not empty.
  let leaf ← faulting (chain.head?.elim (.error "no leaf") .ok)
  let extension ← decoding .malformed "key attestation extension: "
    (E.findCertificateExtension leaf ANDROID_KEY_ATTESTATION_OID)
  let extension ← orReject extension .malformed "leaf certificate carries no key attestation extension"
  let description ← decoding .malformed "key attestation extension: " (E.parseKeyDescription extension)
  rejectIf (bytesEqual description.attestationChallenge (utf8 input.expectedNonce) = false) .nonceMismatch
    "attestation challenge is not the issued nonce"
  let expectedPoint ← decoding .malformed "device public key: "
    (jwkToRawPoint E input.devicePublicKeyJwk "devicePublicKeyJwk")
  let attestedPoint ← faulting (E.rawPoint leaf)
  let attestedPoint ← orReject attestedPoint .keyMismatch "attested key is not an EC P-256 key"
  rejectIf (bytesEqual attestedPoint expectedPoint = false) .keyMismatch
    "key attestation does not cover the key being enrolled"
  let rootOfTrust := description.hardwareEnforced.rootOfTrust.or description.softwareEnforced.rootOfTrust
  checkRootOfTrust rootOfTrust
  checkApplicationId E input description
  let (level, downgrades) := describedLevel description
  return (level, [
    ("keyAttestationVersion", intValue description.attestationVersion),
    ("keymasterVersion", intValue description.keymasterVersion),
    ("attestationSecurityLevel", .str (securityLevelName description.attestationSecurityLevel)),
    ("keymasterSecurityLevel", .str (securityLevelName description.keymasterSecurityLevel)),
    ("keyChainLength", .nat chain.length),
    ("keyOrigin", orNull intValue (description.hardwareEnforced.origin.or description.softwareEnforced.origin)),
    ("deviceLocked", orNull (fun r => .bool r.1) rootOfTrust),
    ("verifiedBootState", orNull (fun r => intValue r.2) rootOfTrust),
    ("keyOsVersion", orNull intValue description.hardwareEnforced.osVersion),
    ("keyOsPatchLevel", orNull intValue description.hardwareEnforced.osPatchLevel),
    ("keyAllApplications", .bool description.hardwareEnforced.allApplications),
    ("keyPurposes", orNull (fun ps => .arr (ps.map intValue))
      (description.hardwareEnforced.purposes.or description.softwareEnforced.purposes))] ++
    if downgrades ≠ [] then [("keySecurityDowngrades", .strs downgrades)] else [])

end Chain

end SdidBridge.Attestation
