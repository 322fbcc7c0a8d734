import SdidBridge.Broker.Signals

/-!
# Attestation and enrolment

`attestation.service.ts` and `enrolment.service.ts`. The bytes of a biometric sample are passed on as
a text that nothing looks into.
-/

namespace SdidBridge

open Concurrent Prog

/-- What a request that its schema refuses is answered. -/
def invalidBody : Failure := .bridge ⟨.invalid_request, "Request validation failed", 400⟩

/-- The length of a text in UTF-16 code units. -/
def utf16Length (s : String) : ℕ := (s.toList.map fun c => if c.toNat < 0x10000 then 1 else 2).sum

/-- `z.string().min(lo).max(hi)`. -/
def lengthWithin (lo hi : ℕ) (s : String) : Bool :=
  decide (lo ≤ utf16Length s) && decide (utf16Length s ≤ hi)

/-! ## Attestation -/

/-- The attestation of a request. -/
structure AttestationInput where
  /-- The platform. -/
  platform : DevicePlatform
  /-- The platform's token. -/
  token : String
  /-- The attestation of the key. -/
  keyAttestation : Option String := none
  /-- The id of the nonce that the token carries. -/
  nonceId : Option String := none

/-- `attestationSchema`. -/
def AttestationInput.valid (a : AttestationInput) : Bool :=
  lengthWithin 1 16384 a.token && a.keyAttestation.all (lengthWithin 0 16384) &&
    a.nonceId.all (lengthWithin 1 256)

/-- What the attestation service decides about a device. -/
structure AttestationVerdict where
  /-- Whether the key is kept in hardware. -/
  hardwareBacked : Bool
  /-- The platform. -/
  platform : DevicePlatform
  /-- The highest assurance level that the device can carry. -/
  assuranceCap : AssuranceLevel
  /-- What the decision rests on. -/
  detail : JsValue
  /-- What the verifier found. -/
  evidence : Option JsValue

/-- What is thrown when a verifier cannot be asked. -/
def attestationUnavailable : Failure :=
  .bridge ⟨.attestation_unavailable,
    "Attestation verification is temporarily unavailable; retry shortly", 503⟩

section Attestation

variable (D : Deployment)

/-- The strict mode: a nonce is consumed, and the platform's verifier decides. -/
def verifyStrict (a : AttestationInput) (jwk : PublicKeyJwk) : H AttestationVerdict := do
  throwIf (a.platform = .sim)
    (.attestation .appMismatch ("unsupported platform '" ++ a.platform.text ++ "' in strict mode"))
  let nonceId ← orThrow (a.nonceId.filter (· ≠ ""))
    (.attestation .nonceMismatch "attestation.nonceId is required in strict mode")
  let expectedNonce ← (consumeAttestationNonce nonceId).recover fun _ =>
    throwing (.attestation .nonceMismatch "unknown, expired, or already-used attestation nonce")
  let now ← newDate
  let request : AttestationRequest := ⟨a.token, a.keyAttestation, expectedNonce, jwk, now⟩
  let result ← (await (.service (.verifyAttestation a.platform request))).recover fun _ =>
    throwing attestationUnavailable
  match result with
  | .rejected .verifierUnavailable _ => throwing attestationUnavailable
  | .rejected code detail => throwing (.attestation code detail)
  | .ok platform keySecurityLevel appGenuine assuranceCap evidence =>
    let hardwareBacked := decide (keySecurityLevel ≠ .software)
    return {
      hardwareBacked
      platform
      assuranceCap
      detail := .obj [("mode", .str "strict"), ("keySecurityLevel", .str keySecurityLevel.text),
        ("appGenuine", .bool appGenuine), ("hardwareBacked", .bool hardwareBacked)]
      evidence := some evidence }

/-- Consume a nonce if there is one, whether or not it can be consumed. -/
def burnNonce (nonceId : Option String) : H Unit :=
  match nonceId.filter (· ≠ "") with
  | some nonceId =>
    (do
      let _ ← consumeAttestationNonce nonceId
      pure ()).recover fun _ => pure ()
  | none => pure ()

/-- Reading a member of `null` is a `TypeError`. -/
def assertNotNull (claims : JsValue) : H Unit :=
  match claims with
  | .null => throwing .internal
  | _ => pure ()

/-- The mock mode: the token itself says what the device is. -/
def verifyMock (a : AttestationInput) : H AttestationVerdict := do
  burnNonce a.nonceId
  let claims ← orThrow (D.parseToken a.token)
    (.bridge ⟨.attestation_rejected, "Malformed attestation token", 400⟩)
  assertNotNull claims
  throwIf (claims.memberIsTrue "mock" = false)
    (.bridge ⟨.attestation_rejected, "Not a mock attestation token", 400⟩)
  let deviceIntegrity := claims.memberIsTrue "deviceIntegrity"
  let appIntegrity := claims.memberIsTrue "appIntegrity"
  let hardwareBacked := claims.memberIsTrue "hardwareBackedKey"
  throwIf (deviceIntegrity = false ∨ appIntegrity = false)
    (.bridge ⟨.attestation_rejected, "Device failed integrity checks", 403⟩)
  return {
    hardwareBacked
    platform := a.platform
    assuranceCap :=
      if hardwareBacked = true ∧ (a.keyAttestation.filter (· ≠ "")).isSome then .AL2 else .AL1
    detail := .obj [("deviceIntegrity", .bool deviceIntegrity), ("appIntegrity", .bool appIntegrity),
      ("hardwareBacked", .bool hardwareBacked), ("mode", .str "mock")]
    evidence := none }

/-- Verify a device. -/
def verifyAttestation (a : AttestationInput) (jwk : PublicKeyJwk) : H AttestationVerdict :=
  match D.config.ATTESTATION_MODE with
  | .strict => verifyStrict a jwk
  | .mock => verifyMock D a

end Attestation

/-! ## Enrolment -/

/-- How many bindings a citizen can have that are not revoked. -/
def MAX_ACTIVE_BINDINGS : ℕ := 5

/-- How many failures lock an enrolment out. -/
def ENROL_MAX_FAILURES : ℕ := 5

/-- The window of these failures. -/
def ENROL_FAILURE_WINDOW_SECONDS : ℕ := 900

/-- How many nonces an address can ask for in an hour. -/
def ATTESTATION_NONCE_IP_LIMIT : ℕ := 60

/-- A biometric sample. -/
structure SampleDto where
  /-- The modality. -/
  modality : Modality
  /-- The bytes in base64. -/
  data : String

/-- A request to enrol a device. -/
structure EnrolStartRequest where
  /-- The national id number. -/
  nid : String
  /-- The device's key. -/
  devicePublicKeyJwk : PublicKeyJwk
  /-- The device's attestation. -/
  attestation : AttestationInput
  /-- The citizen's name for the device. -/
  deviceLabel : String
  /-- The sample. -/
  sample : SampleDto

/-- `enrolStartRequestSchema`, as far as the model has its fields. -/
def EnrolStartRequest.valid (r : EnrolStartRequest) : Bool :=
  r.nid.toList.length == 16 && r.nid.toList.all (·.isDigit) &&
    r.devicePublicKeyJwk.kty == "EC" && r.devicePublicKeyJwk.crv == "P-256" &&
    r.attestation.valid && lengthWithin 1 120 r.deviceLabel && lengthWithin 1 2000000 r.sample.data

/-- The answer to a started enrolment. -/
structure EnrolStartResponse where
  /-- The new binding. -/
  bindingId : Uuid
  /-- Its assurance level. -/
  assuranceLevel : AssuranceLevel
  /-- The challenge of its activation. -/
  activationChallenge : IssuedChallenge

/-- A request to activate a binding. -/
structure EnrolActivateRequest where
  /-- The binding, as the device spells it. -/
  bindingId : String
  /-- The challenge. -/
  challengeId : String
  /-- The signature. -/
  signature : String

/-- `enrolActivateRequestSchema`. -/
def EnrolActivateRequest.valid (r : EnrolActivateRequest) : Bool :=
  Uuid.zodUuid r.bindingId && lengthWithin 1 512 r.signature

/-- The actor of a citizen who is not known yet. -/
def someCitizenActor : JsValue := .obj [("type", .str "citizen")]

/-- Why an enrolment fails after the attestation. -/
inductive EnrolmentFailureReason where
  | matchFailed
  | padFailed
  | sdidIdentityNotMatchable
  deriving DecidableEq

/-- The text of a reason. -/
def EnrolmentFailureReason.text : EnrolmentFailureReason → String
  | .matchFailed => "match_failed"
  | .padFailed => "pad_failed"
  | .sdidIdentityNotMatchable => "sdid_identity_not_matchable"

/-- The end of every enrolment that fails after the attestation. -/
def failEnrolment {α : Type} (pseudoNid : String) (reason : EnrolmentFailureReason)
    (sdidTxnRef : Option String) : H α := do
  auditAppend {
    actor := someCitizenActor
    action := .enrolmentFailed
    subjectRef := some pseudoNid
    sdidTxnRef := sdidTxnRef
    result := .failure
    context := some (.obj [("reason", .str reason.text)]) }
  recordFailure ("enrol:nid:" ++ pseudoNid) ENROL_MAX_FAILURES ENROL_FAILURE_WINDOW_SECONDS
  refuse .enrolment_failed "Enrolment could not be completed" 403

/-- The event of an enrolment that its attestation stopped. -/
def attestationFailedEvent (pseudoNid : String) (platform : DevicePlatform) (err : Failure) :
    AuditEventInput where
  actor := someCitizenActor
  action := .enrolmentFailed
  subjectRef := some pseudoNid
  result := .failure
  context := some (.obj ([("reason", .str "attestation_rejected"), ("platform", .str platform.text)] ++
    match err with
    | .attestation code detail => [("code", .str code.text), ("detail", .str detail)]
    | .bridge e => [("detail", .str e.message)]
    | .internal => [("detail", .str "attestation error")]))

/-- What a matched sample and the reference leave behind. -/
structure MatchOutcome where
  /-- The subject by which SDID knows the citizen. -/
  sdidSubject : String
  /-- The reference of the request at SDID. -/
  sdidTxnRef : String

section Enrolment

variable (D : Deployment)

/-- `EnrolmentService.attestationChallenge`. -/
def attestationChallenge (ip : String) : H IssuedNonce := do
  hit ("enrol:attest:ip:" ++ ip) ATTESTATION_NONCE_IP_LIMIT 3600
  let nonce ← issueAttestationNonce D
  auditAppend {
    actor := someCitizenActor
    action := .authChallengeIssued
    result := .success
    context := some (.obj [("purpose", .str "attestation"), ("nonceId", .str nonce.nonceId)]) }
  return nonce

/-- Count a refused attestation; an outage is not counted. -/
def countRejection (ip : String) (err : Failure) : H Unit :=
  match err with
  | .attestation code _ => recordAttestationRejection D ip code.text
  | _ => pure ()

/-- The gates before a sample is looked at: limits, lockout, and attestation. -/
def enrolmentGates (req : EnrolStartRequest) (ip pseudoNid : String) : H AttestationVerdict := do
  recordEnrolmentAttempt D ip pseudoNid
  hit ("enrol:nid:" ++ pseudoNid) 5 3600
  hit ("enrol:ip:" ++ ip) 20 3600
  assertNotLockedOut ("enrol:nid:" ++ pseudoNid) ENROL_MAX_FAILURES
  let verdict ← (verifyAttestation D req.attestation req.devicePublicKeyJwk).recover fun err => do
    auditAppend (attestationFailedEvent pseudoNid req.attestation.platform err)
    countRejection D ip err
    throwing err
  throwIf (req.sample.modality = .fingerprint)
    (.bridge ⟨.invalid_request, "Fingerprint enrolment is not supported; use face", 400⟩)
  return verdict

/-- The biometric match against the reference of SDID. -/
def matchAgainstReference (req : EnrolStartRequest) (pseudoNid : String) : H MatchOutcome := do
  let answer ← await (.service (.getReferenceBiometric req.nid req.sample.modality))
  match answer with
  | .unknownIdentity => failEnrolment pseudoNid .sdidIdentityNotMatchable none
  | .unavailable => refuse .sdid_unavailable "Identity authority unavailable" 503
  | .ok reference =>
    let result ← await (.service (.matchSample req.sample.data reference.data))
    auditAppend {
      actor := someCitizenActor
      action := .enrolmentMatchCompleted
      subjectRef := some pseudoNid
      matchResult := some (.obj [("matched", .bool result.matched),
        ("scoreBand", .str result.scoreBand.text), ("padPassed", .bool result.padPassed)])
      sdidTxnRef := some reference.txnRef
      result := if result.matched ∧ result.padPassed then .success else .failure }
    if result.matched = false ∨ result.padPassed = false then
      failEnrolment pseudoNid (if result.padPassed then .matchFailed else .padFailed)
        (some reference.txnRef)
    else return ⟨reference.sdidSubject, reference.txnRef⟩

/-- What is kept of a verdict with a binding. -/
def AttestationVerdict.stored (v : AttestationVerdict) : JsValue :=
  .obj ([("platform", .str v.platform.text), ("hardwareBacked", .bool v.hardwareBacked),
    ("assuranceCap", .str v.assuranceCap.text), ("detail", v.detail)] ++
    match v.evidence with
    | some e => [("evidence", e)]
    | none => [])

/-- The new binding of a citizen whose sample matched. -/
def bindDevice (req : EnrolStartRequest) (pseudoNid : String) (verdict : AttestationVerdict)
    (outcome : MatchOutcome) : H EnrolStartResponse := do
  let newId ← uuidv7
  let updatedAt ← newDate
  let citizenId ← await (.citizen (.upsert newId pseudoNid outcome.sdidSubject updatedAt))
  let count ← await (.binding (.countLive citizenId))
  if count ≥ MAX_ACTIVE_BINDINGS then
    auditAppend {
      actor := citizenActor citizenId.text
      action := .enrolmentFailed
      subjectRef := some citizenId.text
      result := .failure
      context := some (.obj [("reason", .str "device_limit_reached"),
        ("limit", .nat MAX_ACTIVE_BINDINGS)]) }
    refuse .invalid_request "Device limit reached" 409
  else
    let bindingId ← uuidv7
    let assuranceLevel := verdict.assuranceCap
    await (.binding (.insert bindingId citizenId req.devicePublicKeyJwk verdict.stored assuranceLevel
      req.deviceLabel))
    auditAppend {
      actor := citizenActor citizenId.text
      action := .enrolmentBindingCreated
      subjectRef := some citizenId.text
      deviceBindingId := some bindingId.text
      assurance := some assuranceLevel
      sdidTxnRef := some outcome.sdidTxnRef
      result := .success }
    let activationChallenge ← issue D .activation bindingId.text
    return ⟨bindingId, assuranceLevel, activationChallenge⟩

/-- `EnrolmentService.start`. -/
def start (req : EnrolStartRequest) (ip : String) : H EnrolStartResponse := do
  throwIf (req.valid = false) invalidBody
  let pseudoNid := D.pseudoNid req.nid
  let verdict ← enrolmentGates D req ip pseudoNid
  let outcome ← matchAgainstReference req pseudoNid
  bindDevice D req pseudoNid verdict outcome

/-- The event of an activation. -/
def bindingActivatedEvent (binding : DeviceBinding) : AuditEventInput where
  actor := citizenActor binding.citizenId.text
  action := .enrolmentBindingActivated
  subjectRef := some binding.citizenId.text
  deviceBindingId := some binding.id.text
  assurance := some binding.assuranceLevel
  result := .success

/-- `EnrolmentService.activate`: the update names the binding only, not the status that was read. -/
def activate (req : EnrolActivateRequest) : H Uuid := do
  throwIf (req.valid = false) invalidBody
  let row ← await (.binding (.select req.bindingId))
  let binding ← orThrow row (.bridge ⟨.binding_not_found, "Unknown device binding", 404⟩)
  throwIf (binding.status ≠ .pending)
    (.bridge ⟨.binding_not_active, "Binding is not awaiting activation", 409⟩)
  let payload ← consume req.challengeId .activation req.bindingId
  verifyDeviceSignature binding.devicePubkeyJwk payload req.signature
  let activatedAt ← newDate
  await (.binding (.activate req.bindingId activatedAt))
  auditAppend (bindingActivatedEvent binding)
  return binding.id

end Enrolment

end SdidBridge
