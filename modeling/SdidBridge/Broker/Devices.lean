import SdidBridge.Broker.Enrolment

/-!
# Devices and consents

Direct login and the device backchannel of `devices.service.ts`, and `consent.service.ts`. The lists
that a citizen can read (`listBindings`, `listGrants`, `recentActivity`) change nothing and are left
out.
-/

namespace SdidBridge

open Concurrent Prog

/-- How many failures lock a login out. -/
def LOGIN_MAX_FAILURES : ℕ := 5

/-- The window of these failures. -/
def LOGIN_FAILURE_WINDOW_SECONDS : ℕ := 900

/-- A login. -/
structure LoginRequest where
  /-- The binding, as the device spells it. -/
  bindingId : String
  /-- The challenge. -/
  challengeId : String
  /-- The signature. -/
  signature : String

/-- `loginRequestSchema`. -/
def LoginRequest.valid (r : LoginRequest) : Bool :=
  Uuid.zodUuid r.bindingId && lengthWithin 1 512 r.signature

/-- The answer to a login. -/
structure LoginResponse where
  /-- The session token. -/
  sessionToken : String
  /-- For how long it is valid, in seconds. -/
  expiresIn : ℕ

/-- The row of a binding. -/
def loadBinding (bindingId : String) : H DeviceBinding := do
  let row ← await (.binding (.select bindingId))
  orThrow row (.bridge ⟨.binding_not_found, "Unknown device binding", 404⟩)

/-- Refuse a binding that is not active. -/
def assertActive (binding : DeviceBinding) : H Unit :=
  throwIf (binding.status ≠ .active) (.bridge ⟨.binding_not_active, "Device binding is not active", 401⟩)

/-- The text of an error that `login` audits. -/
def Failure.reason (err : Failure) : String := (err.code.map (·.text)).getD "internal_error"

/-- The event of a login that failed. -/
def loginFailedEvent (binding : DeviceBinding) (err : Failure) : AuditEventInput where
  actor := citizenActor binding.citizenId.text
  action := .authLoginFailed
  subjectRef := some binding.citizenId.text
  deviceBindingId := some binding.id.text
  result := .failure
  context := some (.obj [("reason", .str err.reason)])

/-- The claims of a session token. -/
def sessionClaims (binding : DeviceBinding) : TokenClaims :=
  { sub := some binding.citizenId.text
    binding_id := some binding.id.text
    acr := some binding.assuranceLevel
    amr := ["hwk", "bio"] }

section Devices

variable (D : Deployment)

/-- `DevicesService.issueLoginChallenge`: the event carries the id as the request spelled it. -/
def issueLoginChallenge (bindingId : String) : H IssuedChallenge := do
  throwIf (Uuid.zodUuid bindingId = false) invalidBody
  let binding ← loadBinding bindingId
  assertActive binding
  assertNotLockedOut ("login:" ++ bindingId) LOGIN_MAX_FAILURES
  let challenge ← issue D .login bindingId
  auditAppend {
    actor := citizenActor binding.citizenId.text
    action := .authChallengeIssued
    subjectRef := some binding.citizenId.text
    deviceBindingId := some bindingId
    result := .success
    context := some (.obj [("purpose", .str "login")]) }
  return challenge

/-- The proof of a login: a challenge is consumed, and its signature checked. -/
def proveLogin (req : LoginRequest) (binding : DeviceBinding) : H Unit :=
  (do
    let payload ← consume req.challengeId .login req.bindingId
    verifyDeviceSignature binding.devicePubkeyJwk payload req.signature).recover fun err => do
      recordFailure ("login:" ++ req.bindingId) LOGIN_MAX_FAILURES LOGIN_FAILURE_WINDOW_SECONDS
      auditAppend (loginFailedEvent binding err)
      throwing err

/-- `DevicesService.login`. -/
def login (req : LoginRequest) : H LoginResponse := do
  throwIf (req.valid = false) invalidBody
  let binding ← loadBinding req.bindingId
  assertActive binding
  proveLogin req binding
  clearFailures ("login:" ++ req.bindingId)
  let _ ← reassertIfDue D binding.citizenId.text binding false "direct-login"
  let now ← newDate
  await (.binding (.setLastUsed binding.id now))
  auditAppend {
    actor := citizenActor binding.citizenId.text
    action := .authLoginSucceeded
    subjectRef := some binding.citizenId.text
    deviceBindingId := some binding.id.text
    assurance := some binding.assuranceLevel
    result := .success }
  let ttlSeconds := D.config.SESSION_TTL_SECONDS
  let sessionToken ← await (.jwt (.sign (sessionClaims binding) DEVICE_SESSION_AUDIENCE ttlSeconds))
  return ⟨sessionToken, ttlSeconds⟩

/-- The event of a binding that its citizen revoked. -/
def deviceRevokedEvent (citizenId bindingId revokeReason : String) : AuditEventInput where
  actor := citizenActor citizenId
  action := .deviceRevoked
  subjectRef := some citizenId
  deviceBindingId := some bindingId
  result := .success
  context := some (.obj [("reason", .str revokeReason)])

/-- `DevicesService.revokeBinding`, behind the session guard. A binding that is revoked already is
left alone, and nothing is audited. -/
def revokeBinding (bearer : Option String) (bindingId : String) (reason : Option String) : H Unit := do
  let session ← deviceSession bearer
  throwIf (Uuid.zodUuid bindingId = false ∨ reason.all (lengthWithin 0 240) = false) invalidBody
  let row ← await (.binding (.select bindingId))
  let binding ← orThrow row (.bridge ⟨.binding_not_found, "Unknown device binding", 404⟩)
  throwIf (binding.citizenId.text ≠ session.citizenId)
    (.bridge ⟨.binding_not_found, "Unknown device binding", 404⟩)
  if binding.status = .revoked then return ()
  let revokeReason := reason.getD "citizen-revoked"
  let now ← newDate
  await (.binding (.revoke bindingId now revokeReason))
  auditAppend (deviceRevokedEvent session.citizenId bindingId revokeReason)

/-- `DevicesService.registerPushToken`, behind the session guard. -/
def registerPushToken (bearer : Option String) (platform : PushPlatform) (token : String) : H Unit := do
  let session ← deviceSession bearer
  throwIf (lengthWithin 1 4096 token = false) invalidBody
  registerToken session.bindingId platform token

/-- `DevicesService.removePushToken`, behind the session guard. -/
def removePushToken (bearer : Option String) : H Unit := do
  let session ← deviceSession bearer
  clearToken session.bindingId

end Devices

/-! ## Consents -/

/-- The event of a grant. -/
def consentGrantedEvent (citizenId rpId : String) (context : JsValue) : AuditEventInput where
  actor := citizenActor citizenId
  action := .consentGranted
  subjectRef := some citizenId
  rpId := some rpId
  result := .success
  context := some context

/-- The event of a grant that its citizen revoked. -/
def consentRevokedEvent (citizenId rpId consentId : String) : AuditEventInput where
  actor := citizenActor citizenId
  action := .consentRevoked
  subjectRef := some citizenId
  rpId := some rpId
  result := .success
  context := some (.obj [("consentId", .str consentId)])

/-- `ConsentService.recordGrant`. -/
def recordGrant (citizenId rpId : String) (scopes : List String) (source : String) : H Uuid := do
  let id ← uuidv7
  await (.consent (.insert id citizenId rpId scopes source))
  auditAppend (consentGrantedEvent citizenId rpId
    (.obj [("consentId", .str id.text), ("scopes", .strs scopes), ("source", .str source)]))
  return id

/-- `ConsentService.revokeGrant`, behind the session guard. A grant that is revoked already is left
alone, and nothing is audited. -/
def revokeConsent (bearer : Option String) (consentId : String) : H Unit := do
  let session ← deviceSession bearer
  throwIf (Uuid.zodUuid consentId = false) invalidBody
  let row ← await (.consent (.selectOwn consentId session.citizenId))
  let grant ← orThrow row (.bridge ⟨.invalid_request, "Consent grant not found", 404⟩)
  if grant.revokedAt.isSome then return ()
  let now ← newDate
  await (.consent (.revoke consentId now))
  auditAppend (consentRevokedEvent session.citizenId grant.rpId.text consentId)

end SdidBridge
