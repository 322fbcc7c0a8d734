import SdidBridge.Attestation.KeyAttestation
import SdidBridge.Shared.JsonText

/-!
# The platform verifiers

`assurance.ts`, `play-integrity.ts` and `app-attest.ts` of the attestation package. What Google's service
decodes a token to is an argument of the Android verifier, since the service may answer anything; the CBOR
reader is a field of `AppAttestReader`. `Verifiers.Answers` is what the verifiers of a configuration can
answer, and `Genuine` is what an acceptance says about the app and the device.
-/

namespace SdidBridge.Attestation

/-- `deriveAssuranceCap`. -/
def deriveAssuranceCap (appGenuine : Bool) (keySecurityLevel : KeySecurityLevel) (requireStrongBox : Bool) :
    AssuranceLevel :=
  if appGenuine = false then .AL1
  else if requireStrongBox = true then if keySecurityLevel = .strongbox then .AL2 else .AL1
  else if keySecurityLevel = .software then .AL1 else .AL2

/-- Attestation alone does not reach the highest level. -/
theorem deriveAssuranceCap_ne_AL3 (appGenuine : Bool) (level : KeySecurityLevel) (requireStrongBox : Bool) :
    deriveAssuranceCap appGenuine level requireStrongBox ≠ .AL3 := by
  unfold deriveAssuranceCap
  split_ifs <;> simp

/-- What the second level needs. -/
theorem deriveAssuranceCap_eq_AL2 {appGenuine : Bool} {level : KeySecurityLevel} {requireStrongBox : Bool} :
    deriveAssuranceCap appGenuine level requireStrongBox = .AL2 ↔
      appGenuine = true ∧ level ≠ .software ∧ (requireStrongBox = true → level = .strongbox) := by
  unfold deriveAssuranceCap
  cases appGenuine <;> cases requireStrongBox <;> cases level <;> simp

/-! ## Play Integrity -/

/-- The verdict on an app that is our build. -/
def APP_RECOGNITION_PLAY_RECOGNIZED : String := "PLAY_RECOGNIZED"

/-- The verdict on a device that is not modified. -/
def DEVICE_VERDICT_DEVICE_INTEGRITY : String := "MEETS_DEVICE_INTEGRITY"

/-- The verdict on a device whose boot is verified. -/
def DEVICE_VERDICT_STRONG_INTEGRITY : String := "MEETS_STRONG_INTEGRITY"

/-- How far ahead a device's clock can be. -/
def CLOCK_SKEW_TOLERANCE_MS : ℤ := 60 * 1000

/-- The longest token. -/
def MAX_TOKEN_CHARS : ℕ := 64 * 1024

/-- The fields of a decoded token. -/
structure IntegrityPayload where
  requestPackageName : String
  nonce : String
  timestampMillis : ℤ
  appRecognitionVerdict : String
  appPackageName : Option String
  certificateDigests : List String
  versionCode : Option String
  deviceVerdicts : List String
  appLicensingVerdict : Option String
  deriving DecidableEq

/-- A member of an object that is not `undefined`. -/
def defined (v : JsValue) (key : String) : Option JsValue :=
  match v.member key with
  | some .undefined => none
  | x => x

/-- `asObject`. -/
def asObject (value : Option JsValue) (what : String) : Except String JsValue :=
  match value with
  | some (.obj ms) => .ok (.obj ms)
  | _ => .error (what ++ " is not an object")

/-- `asString`. -/
def asString (value : Option JsValue) (what : String) : Except String String :=
  match value with
  | some (.str s) => if s = "" then .error (what ++ " is not a string") else .ok s
  | _ => .error (what ++ " is not a string")

/-- The entries of `optionalStringArray`, from the entry `i` on. -/
def asStrings (what : String) : ℕ → List JsValue → Except String (List String)
  | _, [] => .ok []
  | i, v :: vs => do
    let s ← asString (some v) (what ++ "[" ++ toString i ++ "]")
    let ss ← asStrings what (i + 1) vs
    return s :: ss

/-- `optionalStringArray`, with no entries for an array that is missing. -/
def optionalStringArray (value : Option JsValue) (what : String) : Except String (List String) :=
  match value with
  | none => .ok []
  | some .null => .ok []
  | some (.arr vs) =>
    if 64 < vs.length then .error (what ++ " has an implausible number of entries") else asStrings what 0 vs
  | _ => .error (what ++ " is not an array")

/-- A number that is a positive safe integer. -/
def positiveSafe : JsNumber → Option ℕ
  | .finite false coeff expo _ =>
    if 0 ≤ expo ∧ coeff * 10 ^ expo.toNat ≤ MAX_SAFE_INTEGER then some (coeff * 10 ^ expo.toNat) else none
  | _ => none

/-- The number that a text of decimal digits spells. -/
def digitsValue (s : String) : ℕ := s.toList.foldl (fun n c => 10 * n + (c.toNat - '0'.toNat)) 0

/-- `asEpochMillis`. -/
def asEpochMillis (value : Option JsValue) (what : String) : Except String ℤ :=
  let invalid := .error (what ++ " is not a valid timestamp")
  match value with
  | some (.num n) => (positiveSafe n).elim invalid fun m => .ok m
  | some (.str s) =>
    if 1 ≤ s.toList.length ∧ s.toList.length ≤ 15 ∧ (s.toList.all fun c => '0' ≤ c ∧ c ≤ '9') ∧
        0 < digitsValue s then .ok (digitsValue s)
    else invalid
  | _ => invalid

mutual

/-- `String(value)`. A member `toString` of an object is no function, so that such an object has no text. -/
def stringOf : JsValue → Except String String
  | .undefined => .ok "undefined"
  | .null => .ok "null"
  | .bool b => .ok (if b then "true" else "false")
  | .num n => .ok (String.ofList (numberText n))
  | .str s => .ok s
  | .arr vs => do
    let texts ← elementTexts vs
    return ",".intercalate texts
  | .obj ms =>
    if "toString" ∈ ms.map Prod.fst then .error "Cannot convert object to primitive value" else .ok "[object Object]"

/-- The texts of an array's entries, where what is missing has none. -/
def elementTexts : List JsValue → Except String (List String)
  | [] => .ok []
  | v :: vs => do
    let text ← match v with
      | .null => .ok ""
      | .undefined => .ok ""
      | v => stringOf v
    let texts ← elementTexts vs
    return text :: texts

end

/-- The verdict in a decoded token, which some wrap and some do not. -/
def payloadBody (root : JsValue) : Except String JsValue :=
  match root.member "tokenPayloadExternal" with
  | some inner => asObject (some inner) "tokenPayloadExternal"
  | none => .ok root

/-- What a member says, if it is there. -/
def ifDefined {α : Type} (value : Option JsValue) (read : JsValue → Except String α) : Except String (Option α) :=
  match value with
  | some v => (read v).map some
  | none => .ok none

/-- The verdict on the licence, in the details of the account. -/
def readLicensing (body : JsValue) : Except String (Option String) :=
  match defined body "accountDetails" with
  | some v => do
    let accountDetails ← asObject (some v) "accountDetails"
    ifDefined (defined accountDetails "appLicensingVerdict") fun v => asString (some v) "appLicensingVerdict"
  | none => .ok none

/-- `parseIntegrityPayload`. -/
def parseIntegrityPayload (decoded : JsValue) : Except String IntegrityPayload := do
  let root ← asObject (some decoded) "payload"
  let body ← payloadBody root
  let requestDetails ← asObject (defined body "requestDetails") "requestDetails"
  let appIntegrity ← asObject (defined body "appIntegrity") "appIntegrity"
  let deviceIntegrity ← asObject (defined body "deviceIntegrity") "deviceIntegrity"
  let certificateDigests ← optionalStringArray (defined appIntegrity "certificateSha256Digest")
    "certificateSha256Digest"
  let deviceVerdicts ← optionalStringArray (defined deviceIntegrity "deviceRecognitionVerdict")
    "deviceRecognitionVerdict"
  let requestPackageName ← asString (defined requestDetails "requestPackageName") "requestPackageName"
  let nonce ← asString (defined requestDetails "nonce") "nonce"
  let timestampMillis ← asEpochMillis (defined requestDetails "timestampMillis") "timestampMillis"
  let appRecognitionVerdict ← asString (defined appIntegrity "appRecognitionVerdict") "appRecognitionVerdict"
  let appPackageName ← ifDefined (defined appIntegrity "packageName") fun v =>
    asString (some v) "appIntegrity.packageName"
  let versionCode ← ifDefined (defined appIntegrity "versionCode") stringOf
  let appLicensingVerdict ← readLicensing body
  return ⟨requestPackageName, nonce, timestampMillis, appRecognitionVerdict, appPackageName,
    certificateDigests, versionCode, deviceVerdicts, appLicensingVerdict⟩

/-- The configuration of the Android verifier. -/
structure AndroidVerifierConfig where
  /-- Our app. -/
  packageName : String
  /-- The certificates that sign it. -/
  certificateDigests : List String
  /-- Whether the second level needs a secure element. -/
  requireStrongBox : Bool := false

/-- The token is not empty and not too long, and a nonce was issued: what both verifiers check first. -/
def checkRequest (request : AttestationRequest) (what : String) : Check Unit := do
  rejectIf (request.token = "") .malformed (what ++ " is missing")
  rejectIf (MAX_TOKEN_CHARS < utf16Length request.token) .malformed (what ++ " is implausibly large")
  rejectIf (request.expectedNonce = "") .nonceMismatch "no expected nonce was supplied"

section PlayIntegrity

variable (E : CertificateEngine) (config : AndroidVerifierConfig)

/-- The checks on a decoded token: it is about our app and our nonce, it is recent, and the app and the device
are sound. Returns its age. -/
def checkPayload (maxTokenAgeMs : ℤ) (request : AttestationRequest) (payload : IntegrityPayload) : Check ℤ := do
  rejectIf (payload.requestPackageName ≠ config.packageName) .appMismatch
    ("token was issued for package " ++ payload.requestPackageName ++ ", expected " ++ config.packageName)
  rejectIf (stringsEqual payload.nonce request.expectedNonce = false) .nonceMismatch
    "token nonce is not the nonce we issued"
  let age := request.now - payload.timestampMillis
  rejectIf (age < -CLOCK_SKEW_TOLERANCE_MS) .stale
    ("token timestamp is " ++ toString (-age) ++ "ms in the future")
  rejectIf (maxTokenAgeMs < age) .stale
    ("token is " ++ toString age ++ "ms old, limit " ++ toString maxTokenAgeMs ++ "ms")
  rejectIf (payload.appRecognitionVerdict ≠ APP_RECOGNITION_PLAY_RECOGNIZED) .appIntegrity
    ("app recognition verdict is " ++ payload.appRecognitionVerdict ++ ", expected " ++
      APP_RECOGNITION_PLAY_RECOGNIZED)
  rejectIf (payload.appPackageName.any (· ≠ config.packageName)) .appMismatch
    ("appIntegrity names package " ++ payload.appPackageName.getD "" ++ ", expected " ++ config.packageName)
  rejectIf (∀ digest ∈ payload.certificateDigests, digest ∉ config.certificateDigests) .appMismatch
    "app signing certificate digest is not one of ours"
  rejectIf (DEVICE_VERDICT_DEVICE_INTEGRITY ∉ payload.deviceVerdicts ∧
      DEVICE_VERDICT_STRONG_INTEGRITY ∉ payload.deviceVerdicts) .deviceIntegrity
    ("device verdicts [" ++ ", ".intercalate payload.deviceVerdicts ++ "] do not include " ++
      DEVICE_VERDICT_DEVICE_INTEGRITY)
  return age

/-- The level of the enrolled key: without an attestation it is the lowest one. -/
def androidKeyLevel (trustAnchors : List E.Certificate) (request : AttestationRequest) :
    Check (KeySecurityLevel × List (String × JsValue)) :=
  match request.keyAttestation.filter (· ≠ "") with
  | none => pure (.software, [("keyAttestationPresent", .bool false)])
  | some keyAttestation => do
    let (level, evidence) ← verifyAndroidKeyAttestation E {
      keyAttestation
      expectedNonce := request.expectedNonce
      devicePublicKeyJwk := request.devicePublicKeyJwk
      packageName := config.packageName
      certificateDigests := config.certificateDigests
      now := request.now
      trustAnchors }
    return (level, ("keyAttestationPresent", .bool true) :: evidence)

/-- `PlayIntegrityVerifier.verifyInner`. `decoded` is what Google's service decodes the token to. -/
def verifyPlayIntegrity (maxTokenAgeMs : ℤ) (trustAnchors : List E.Certificate)
    (decoded : Except String JsValue) (request : AttestationRequest) : Check AttestationResult := do
  checkRequest request "play integrity token"
  let decoded ← decoding .verifierUnavailable "play integrity decode failed: " decoded
  let payload ← decoding .malformed "play integrity payload: " (parseIntegrityPayload decoded)
  let age ← checkPayload config maxTokenAgeMs request payload
  let (keySecurityLevel, keyEvidence) ← androidKeyLevel E config trustAnchors request
  return .ok .android keySecurityLevel true
    (deriveAssuranceCap true keySecurityLevel config.requireStrongBox)
    (.obj ([("appRecognitionVerdict", .str payload.appRecognitionVerdict),
      ("deviceRecognitionVerdict", .strs payload.deviceVerdicts),
      ("appLicensingVerdict", orNull .str payload.appLicensingVerdict),
      ("packageName", .str payload.requestPackageName),
      ("appVersionCode", orNull .str payload.versionCode),
      ("tokenAgeMs", intValue age),
      ("keySecurityLevel", .str keySecurityLevel.text)] ++ keyEvidence))

end PlayIntegrity

/-! ## App Attest -/

/-- The extension that holds the certified nonce. -/
def APPLE_APP_ATTEST_NONCE_OID : String := "1.2.840.113635.100.8.2"

/-- The environment of production keys. -/
def AAGUID_PRODUCTION : Bytes := utf8 "appattest" ++ List.replicate 7 0

/-- The environment of development keys. -/
def AAGUID_DEVELOPMENT : Bytes := utf8 "appattestdevelop"

/-- What an attestation object holds. -/
structure AttestationObject where
  x5c : List Bytes
  receipt : Option Bytes
  authData : Bytes
  deriving DecidableEq

/-- What the package's readers find in the bytes of an attestation object. -/
structure AppAttestReader where
  /-- `decodeAttestationObject` of `decodeBase64Strict`. -/
  decodeAttestationObject : String → Except String AttestationObject
  /-- `parseNonceExtension`. -/
  parseNonceExtension : Bytes → Except String Bytes
  /-- `coseKeyToRawPoint`. -/
  coseKeyToRawPoint : Bytes → Except String Bytes

/-- The parts of an authenticator's data. -/
structure AuthenticatorData where
  rpIdHash : Bytes
  flags : UInt8
  signCount : ℕ
  aaguid : Bytes
  credentialId : Bytes
  credentialPublicKey : Option Bytes
  deriving DecidableEq

/-- The number that some bytes spell, the highest first. -/
def bigEndian (bs : Bytes) : ℕ := bs.foldl (fun n b => 256 * n + b.toNat) 0

/-- `parseAuthenticatorData`. -/
def parseAuthenticatorData (bytes : Bytes) : Except String AuthenticatorData := do
  if bytes.length < 37 then throw "authData is too short"
  let flags := bytes.getD 32 0
  if flags &&& 0x40 = 0 then throw "authData has no attested credential data"
  if bytes.length < 37 + 16 + 2 then throw "authData is truncated"
  let credentialIdLength := bigEndian ((bytes.drop 53).take 2)
  if credentialIdLength = 0 ∨ bytes.length < 55 + credentialIdLength then
    throw "credentialId length is out of range"
  let rest := bytes.drop (55 + credentialIdLength)
  return {
    rpIdHash := bytes.take 32
    flags
    signCount := bigEndian ((bytes.drop 33).take 4)
    aaguid := (bytes.drop 37).take 16
    credentialId := (bytes.drop 55).take credentialIdLength
    credentialPublicKey := if rest = [] then none else some rest }

/-- The configuration of the iOS verifier. -/
structure IosVerifierConfig where
  /-- Our app. -/
  appId : String
  /-- Whether development builds are refused. -/
  production : Bool

section AppAttest

variable (E : CertificateEngine) (R : AppAttestReader) (config : IosVerifierConfig)

/-- The nonce that the first certificate of a chain certifies is the one over the authenticator's data, the issued
nonce, and the enrolled key. -/
def checkCertifiedNonce (credCert : E.Certificate) (authData : Bytes) (request : AttestationRequest) :
    Check Unit := do
  let expectedPoint ← decoding .malformed "device public key: "
    (jwkToRawPoint E request.devicePublicKeyJwk "devicePublicKeyJwk")
  let clientDataHash := E.sha256 (utf8 request.expectedNonce ++ expectedPoint)
  let expectedNonceDigest := E.sha256 (authData ++ clientDataHash)
  let extension ← decoding .malformed "app attest nonce extension: "
    (E.findCertificateExtension credCert APPLE_APP_ATTEST_NONCE_OID)
  let extension ← orReject extension .malformed "credCert carries no app attest nonce extension"
  let certifiedNonce ← decoding .malformed "app attest nonce extension: " (R.parseNonceExtension extension)
  rejectIf (bytesEqual certifiedNonce expectedNonceDigest = false) .nonceMismatch
    "credCert nonce is not SHA256(authData ‖ SHA256(nonce))"

/-- The key that an authenticator's data holds, if it holds one, is the certified one. -/
def checkCredentialKey (authData : AuthenticatorData) (credCertPoint : Bytes) : Check Unit :=
  match authData.credentialPublicKey with
  | none => pure ()
  | some key => do
    let cosePoint ← decoding .malformed "app attest credential public key: " (R.coseKeyToRawPoint key)
    rejectIf (bytesEqual cosePoint credCertPoint = false) .keyMismatch
      "authData credential key differs from the credCert key"

/-- The authenticator's data names the certified key and our app, and is of a new key of the right
environment. -/
def checkAuthData (authData : AuthenticatorData) (credCertPoint : Bytes) : Check Unit := do
  rejectIf (bytesEqual authData.credentialId (E.sha256 credCertPoint) = false) .keyMismatch
    "credentialId is not SHA256 of the certified public key"
  rejectIf (bytesEqual authData.rpIdHash (E.sha256 (utf8 config.appId)) = false) .appMismatch
    "rpIdHash does not match SHA256(appId)"
  rejectIf (authData.signCount ≠ 0) .malformed
    ("signCount is " ++ toString authData.signCount ++ ", expected 0 for an attestation")
  rejectIf (authData.aaguid ≠ AAGUID_PRODUCTION ∧ authData.aaguid ≠ AAGUID_DEVELOPMENT) .malformed
    "aaguid is not an App Attest aaguid"
  rejectIf (authData.aaguid = AAGUID_DEVELOPMENT ∧ config.production = true) .appIntegrity
    "development aaguid presented to a production deployment"
  checkCredentialKey R authData credCertPoint

/-- `AppAttestVerifier.verifyInner`. -/
def verifyAppAttest (anchors : List E.Certificate) (request : AttestationRequest) : Check AttestationResult := do
  checkRequest request "app attest object"
  let attestation ← decoding .malformed "app attest object: " (R.decodeAttestationObject request.token)
  let chain ← decoding .malformed "app attest x5c: " (attestation.x5c.mapM E.parse)
  let _ ← decoding .chainInvalid "app attest " (verifyCertificateChain E chain anchors request.now)
  -- A chain that holds is not empty.
  let credCert ← faulting (chain.head?.elim (.error "no leaf") .ok)
  checkCertifiedNonce E R credCert attestation.authData request
  let authData ← decoding .malformed "app attest authData: " (parseAuthenticatorData attestation.authData)
  let credCertPoint ← faulting (E.rawPoint credCert)
  let credCertPoint ← orReject credCertPoint .keyMismatch "credCert key is not an EC P-256 key"
  checkAuthData E R config authData credCertPoint
  return .ok .ios .trustedEnvironment true (deriveAssuranceCap true .trustedEnvironment false)
    (.obj [("appId", .str config.appId),
      ("environment", .str (if authData.aaguid = AAGUID_PRODUCTION then "production" else "development")),
      ("keySecurityLevel", .str KeySecurityLevel.trustedEnvironment.text),
      ("credentialIdLength", .nat authData.credentialId.length),
      ("signCount", .nat authData.signCount),
      ("chainLength", .nat chain.length),
      ("receiptPresent", .bool attestation.receipt.isSome),
      ("receiptBytes", .nat (attestation.receipt.elim 0 List.length))])

end AppAttest

/-! ## The verifiers of a configuration -/

/-- The verdict of a verifier: an exception refuses, as an outage. -/
def verdict (platform : String) : Check AttestationResult → AttestationResult
  | .ok result => result
  | .error (.rejected code detail) => .rejected code detail
  | .error (.fault message) => .rejected .verifierUnavailable (platform ++ " verifier fault: " ++ message)

/-- What `createAttestationVerifiers` builds. -/
structure Verifiers where
  /-- The certificates. -/
  engine : CertificateEngine
  /-- The readers of App Attest. -/
  reader : AppAttestReader
  /-- The Android configuration. -/
  android : AndroidVerifierConfig
  /-- The iOS configuration. -/
  ios : IosVerifierConfig
  /-- How old a token can be. -/
  maxTokenAgeMs : ℤ
  /-- Google's roots. -/
  androidAnchors : List engine.Certificate
  /-- Apple's roots. -/
  iosAnchors : List engine.Certificate

/-- The Android verifier. -/
def Verifiers.verifyAndroid (V : Verifiers) (decoded : Except String JsValue) (request : AttestationRequest) :
    AttestationResult :=
  verdict "android" (verifyPlayIntegrity V.engine V.android V.maxTokenAgeMs V.androidAnchors decoded request)

/-- The iOS verifier. -/
def Verifiers.verifyIos (V : Verifiers) (request : AttestationRequest) : AttestationResult :=
  verdict "ios" (verifyAppAttest V.engine V.reader V.ios V.iosAnchors request)

/-- What the verifiers can answer: Google's service decodes a token to anything, or fails. -/
def Verifiers.Answers (V : Verifiers) (platform : DevicePlatform) (request : AttestationRequest)
    (result : AttestationResult) : Prop :=
  match platform with
  | .android => ∃ decoded, result = V.verifyAndroid decoded request
  | .ios => result = V.verifyIos request
  | .sim => False

/-! ## What an acceptance says -/

/-- A chain that ends in a pinned root certifies the enrolled key, and describes it as one of a level. -/
def Verifiers.KeyAttested (V : Verifiers) (request : AttestationRequest) (level : KeySecurityLevel) : Prop :=
  ∃ chain leaf detail extension description point,
    verifyCertificateChain V.engine chain V.androidAnchors request.now = .ok detail ∧ chain.head? = some leaf ∧
    V.engine.findCertificateExtension leaf ANDROID_KEY_ATTESTATION_OID = .ok (some extension) ∧
    V.engine.parseKeyDescription extension = .ok description ∧
    description.attestationChallenge = utf8 request.expectedNonce ∧
    jwkToRawPoint V.engine request.devicePublicKeyJwk "devicePublicKeyJwk" = .ok point ∧
    V.engine.rawPoint leaf = .ok (some point) ∧ (describedLevel description).1 = level

/-- What an acceptance on Android rests on. -/
structure Verifiers.AndroidAccepted (V : Verifiers) (request : AttestationRequest) (level : KeySecurityLevel)
    (payload : IntegrityPayload) : Prop where
  /-- The token is over the issued nonce. -/
  nonce : payload.nonce = request.expectedNonce
  /-- The token is about our app. -/
  package : payload.requestPackageName = V.android.packageName
  /-- The app is the recognised build. -/
  recognized : payload.appRecognitionVerdict = APP_RECOGNITION_PLAY_RECOGNIZED
  /-- One of our certificates signs it. -/
  signed : ∃ digest ∈ payload.certificateDigests, digest ∈ V.android.certificateDigests
  /-- The device is not modified. -/
  device : DEVICE_VERDICT_DEVICE_INTEGRITY ∈ payload.deviceVerdicts ∨
    DEVICE_VERDICT_STRONG_INTEGRITY ∈ payload.deviceVerdicts
  /-- A level above the lowest one is attested for the enrolled key. -/
  key : level ≠ .software → V.KeyAttested request level

/-- What an acceptance on iOS rests on. -/
structure Verifiers.IosAccepted (V : Verifiers) (request : AttestationRequest) (level : KeySecurityLevel)
    (object : AttestationObject) (authData : AuthenticatorData) : Prop where
  /-- The data is the one of the object. -/
  parsed : parseAuthenticatorData object.authData = .ok authData
  /-- A chain that ends in a pinned root certifies the data, the issued nonce and the enrolled key together. -/
  key : ∃ chain credCert detail extension certified point,
    verifyCertificateChain V.engine chain V.iosAnchors request.now = .ok detail ∧ chain.head? = some credCert ∧
    V.engine.findCertificateExtension credCert APPLE_APP_ATTEST_NONCE_OID = .ok (some extension) ∧
    V.reader.parseNonceExtension extension = .ok certified ∧
    jwkToRawPoint V.engine request.devicePublicKeyJwk "devicePublicKeyJwk" = .ok point ∧
    certified = V.engine.sha256 (object.authData ++ V.engine.sha256 (utf8 request.expectedNonce ++ point))
  /-- The data names our app. -/
  app : authData.rpIdHash = V.engine.sha256 (utf8 V.ios.appId)
  /-- The key of the app is one of Apple's hardware, and of production where that is asked for. -/
  environment : authData.aaguid = AAGUID_PRODUCTION ∨
    authData.aaguid = AAGUID_DEVELOPMENT ∧ V.ios.production = false
  /-- The level is that of the Secure Enclave. -/
  enclave : level = .trustedEnvironment

/-- A genuine app on a sound device was attested, with the enrolled key at a level. -/
def Verifiers.Accepted (V : Verifiers) (platform : DevicePlatform) (request : AttestationRequest)
    (level : KeySecurityLevel) : Prop :=
  match platform with
  | .android => ∃ decoded payload, parseIntegrityPayload decoded = .ok payload ∧
      V.AndroidAccepted request level payload
  | .ios => ∃ object authData, V.reader.decodeAttestationObject request.token = .ok object ∧
      V.IosAccepted request level object authData
  | .sim => False

/-- Whether the second level needs a secure element. -/
def Verifiers.requiresStrongBox (V : Verifiers) : DevicePlatform → Bool
  | .android => V.android.requireStrongBox
  | _ => false

section Accepted

variable {V : Verifiers} {request : AttestationRequest} {level : KeySecurityLevel}

/-- An acceptance is no exception. -/
theorem eq_ok_of_verdict {name : String} {x : Check AttestationResult} {platform : DevicePlatform}
    {genuine : Bool} {cap : AssuranceLevel} {evidence : JsValue}
    (h : verdict name x = .ok platform level genuine cap evidence) :
    x = .ok (.ok platform level genuine cap evidence) := by
  unfold verdict at h
  split at h <;> simp_all

/-- A first certificate that was found is the first one. -/
theorem head_of_elim {α : Type} {x : Option α} {message : String} {a : α}
    (h : x.elim (Except.error message) Except.ok = .ok a) : x = some a := by
  cases x with
  | none => simp at h
  | some b => simpa using h

/-- A key attestation that verifies is about the enrolled key. -/
theorem keyAttested_of_verify {keyAttestation : String} {evidence : List (String × JsValue)}
    (h : verifyAndroidKeyAttestation V.engine {
      keyAttestation
      expectedNonce := request.expectedNonce
      devicePublicKeyJwk := request.devicePublicKeyJwk
      packageName := V.android.packageName
      certificateDigests := V.android.certificateDigests
      now := request.now
      trustAnchors := V.androidAnchors } = .ok (level, evidence)) : V.KeyAttested request level := by
  simp only [verifyAndroidKeyAttestation, bind_eq_ok, decoding_eq_ok, faulting_eq_ok, orReject_eq_ok,
    rejectIf_eq_ok, Bool.not_eq_false] at h
  obtain ⟨chain, -, detail, hchain, leaf, hleaf, found, hfound, extension, rfl, description, hdescription, -,
    hnonce, point, hpoint, found', hfound', attested, rfl, -, hsame, -, -, -, -, hresult⟩ := h
  have hpoints : attested = point := eq_of_bytesEqual hsame
  subst hpoints
  have hlevel : (describedLevel description).1 = level := by
    simp only [pure, Except.pure, Except.ok.injEq, Prod.mk.injEq] at hresult
    exact hresult.1
  exact ⟨chain, leaf, detail, extension, description, attested, hchain, head_of_elim hleaf, hfound, hdescription,
    eq_of_bytesEqual hnonce, hpoint, hfound', hlevel⟩

/-- The checks of a token that passes them all. -/
theorem accepted_of_checkPayload {payload : IntegrityPayload} {age : ℤ}
    (h : checkPayload V.android V.maxTokenAgeMs request payload = .ok age)
    (hkey : level ≠ .software → V.KeyAttested request level) : V.AndroidAccepted request level payload := by
  simp only [checkPayload, bind_eq_ok, rejectIf_eq_ok, not_not, Bool.not_eq_false, not_forall, not_and_or] at h
  obtain ⟨-, hpackage, -, hnonce, -, -, -, -, -, hrecognized, -, -, -, ⟨digest, hdigest, hours⟩, -, hdevice, -⟩ := h
  exact ⟨eq_of_stringsEqual hnonce, hpackage, hrecognized, ⟨digest, hdigest, hours⟩, hdevice, hkey⟩

/-- An acceptance on Android rests on a genuine app and a sound device. -/
theorem accepted_android {decoded : Except String JsValue} {platform : DevicePlatform} {genuine : Bool}
    {cap : AssuranceLevel} {evidence : JsValue}
    (h : V.verifyAndroid decoded request = .ok platform level genuine cap evidence) :
    platform = .android ∧ genuine = true ∧ cap = deriveAssuranceCap true level V.android.requireStrongBox ∧
      V.Accepted .android request level := by
  replace h := eq_ok_of_verdict h
  simp only [verifyPlayIntegrity, bind_eq_ok, decoding_eq_ok] at h
  obtain ⟨-, -, value, rfl, payload, hpayload, age, hage, ⟨level', keyEvidence⟩, hlevel, hresult⟩ := h
  simp only [pure, Except.pure, Except.ok.injEq, AttestationResult.ok.injEq] at hresult
  obtain ⟨rfl, rfl, rfl, rfl, -⟩ := hresult
  refine ⟨rfl, rfl, rfl, value, payload, hpayload, accepted_of_checkPayload hage fun hhardware => ?_⟩
  unfold androidKeyLevel at hlevel
  split at hlevel
  · -- Without an attestation the level is the lowest one.
    simp only [pure, Except.pure, Except.ok.injEq, Prod.mk.injEq] at hlevel
    exact absurd hlevel.1.symm hhardware
  · simp only [bind_eq_ok] at hlevel
    obtain ⟨⟨level₀, evidence₀⟩, hverified, hsame⟩ := hlevel
    simp only [pure, Except.pure, Except.ok.injEq, Prod.mk.injEq] at hsame
    obtain ⟨rfl, -⟩ := hsame
    exact keyAttested_of_verify hverified

/-- An acceptance on iOS rests on a genuine app and a sound device. -/
theorem accepted_ios {platform : DevicePlatform} {genuine : Bool} {cap : AssuranceLevel} {evidence : JsValue}
    (h : V.verifyIos request = .ok platform level genuine cap evidence) :
    platform = .ios ∧ genuine = true ∧ cap = deriveAssuranceCap true level false ∧
      V.Accepted .ios request level := by
  replace h := eq_ok_of_verdict h
  simp only [verifyAppAttest, checkCertifiedNonce, checkAuthData, bind_eq_ok, decoding_eq_ok, faulting_eq_ok,
    orReject_eq_ok, rejectIf_eq_ok, Bool.not_eq_false] at h
  obtain ⟨-, -, object, hobject, chain, -, detail, hchain, credCert, hleaf, -, ⟨point, hpoint, found, hfound,
    extension, rfl, certified, hcertified, hnonce⟩, authData, hparsed, -, -, credCertPoint, -, -,
    ⟨-, -, -, happ, -, -, -, haaguid, -, hproduction, -⟩, hresult⟩ := h
  simp only [pure, Except.pure, Except.ok.injEq, AttestationResult.ok.injEq] at hresult
  obtain ⟨rfl, rfl, rfl, rfl, -⟩ := hresult
  have henvironment : authData.aaguid = AAGUID_PRODUCTION ∨
      authData.aaguid = AAGUID_DEVELOPMENT ∧ V.ios.production = false := by
    by_cases hprod : authData.aaguid = AAGUID_PRODUCTION
    · exact .inl hprod
    · have hdev : authData.aaguid = AAGUID_DEVELOPMENT := by
        by_contra hdev
        exact haaguid ⟨hprod, hdev⟩
      refine .inr ⟨hdev, ?_⟩
      by_contra hp
      exact hproduction ⟨hdev, by simpa using hp⟩
  exact ⟨rfl, rfl, rfl, object, authData, hobject, hparsed,
    ⟨chain, credCert, detail, extension, certified, point, hchain, head_of_elim hleaf, hfound, hcertified, hpoint,
      eq_of_bytesEqual hnonce⟩, eq_of_bytesEqual happ, henvironment, rfl⟩

/-- What the verifiers accept is a genuine app on a sound device, and the cap is derived from the level of the
key. -/
theorem Verifiers.Answers.accepted {platform platform' : DevicePlatform} {genuine : Bool} {cap : AssuranceLevel}
    {evidence : JsValue} (h : V.Answers platform request (.ok platform' level genuine cap evidence)) :
    platform' = platform ∧ genuine = true ∧
      cap = deriveAssuranceCap true level (V.requiresStrongBox platform) ∧ V.Accepted platform request level := by
  cases platform with
  | android =>
    obtain ⟨decoded, h⟩ := h
    exact accepted_android h.symm
  | ios => exact accepted_ios h.symm
  | sim => exact h.elim

end Accepted

end SdidBridge.Attestation
