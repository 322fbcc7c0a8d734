import SdidBridge.Broker.Store

/-!
# The services that the handlers share

The services under `trust/`, with client authentication of `rp.service.ts`: challenges, device
signatures, pairwise subjects, rate limits, device sessions, and re-verification. Each is a program
over the commands of the store, in the order in which the source awaits them.
-/

namespace SdidBridge

open Concurrent Prog

/-- What a handler throws. -/
inductive Failure where
  /-- A `BridgeError`. -/
  | bridge (e : BridgeError)
  /-- An `AttestationRejectionError`, with what only the audit trail is told. -/
  | attestation (code : AttestationRejectionCode) (detail : String)
  /-- Any other error: a store that failed, or a value of the wrong type. -/
  | internal
  deriving DecidableEq

/-- The code of a `BridgeError`. -/
def Failure.code : Failure → Option ErrorCode
  | .bridge e => some e.code
  | .attestation _ _ => some .attestation_rejected
  | .internal => none

/-- A handler's program. -/
abbrev H := Prog Op Op.Res Failure

/-- Throw a `BridgeError`. -/
def refuse {α : Type} (code : ErrorCode) (message : String) (httpStatus : ℕ) : H α :=
  throwing (.bridge ⟨code, message, httpStatus⟩)

/-- Await a command. -/
def await (o : Op) : H o.Res := perform .internal o

/-- `new Date()`. -/
def newDate : H Time := await (.ambient .now)

/-- `uuidv7()`. -/
def uuidv7 : H Uuid := await (.ambient .uuidv7)

/-- `randomBytes(n).toString(encoding)`. -/
def randomBytes (n : ℕ) (encoding : Encoding) : H String := await (.ambient (.randomBytes n encoding))

/-- `audit.append(event)`. -/
def auditAppend (event : AuditEventInput) : H Unit := await (.audit (.append event))

/-- `date.toISOString()`. -/
def isoText (t : Time) : String := String.ofList (toISOString t)

/-- The modes of the attestation service. -/
inductive AttestationMode where
  | mock
  | strict
  deriving DecidableEq

/-- The configuration, as far as the modelled code reads it. -/
structure BrokerConfig where
  ATTESTATION_MODE : AttestationMode
  ADMIN_API_TOKEN : String
  ATTESTATION_NONCE_TTL_SECONDS : ℕ := 300
  ID_TOKEN_TTL_SECONDS : ℕ := 300
  ACCESS_TOKEN_TTL_SECONDS : ℕ := 600
  SESSION_TTL_SECONDS : ℕ := 900
  CHALLENGE_TTL_SECONDS : ℕ := 120
  CIBA_REQUEST_TTL_SECONDS : ℕ := 180
  CIBA_POLL_INTERVAL_SECONDS : ℕ := 2
  AUTH_CODE_TTL_SECONDS : ℕ := 60
  REVERIFY_INTERVAL_SECONDS : ℕ := 90 * 24 * 60 * 60
  ANOMALY_ENABLED : Bool := true
  ANOMALY_ENROL_PROBE_DISTINCT_NIDS : ℕ := 10
  ANOMALY_ENROL_PROBE_WINDOW_SECONDS : ℕ := 900
  ANOMALY_ATTESTATION_REJECTION_THRESHOLD : ℕ := 10
  ANOMALY_ATTESTATION_REJECTION_WINDOW_SECONDS : ℕ := 900
  ANOMALY_CIBA_INITIATION_THRESHOLD : ℕ := 200
  ANOMALY_CIBA_INITIATION_WINDOW_SECONDS : ℕ := 300
  ANOMALY_SIGNATURE_FAILURE_THRESHOLD : ℕ := 5
  ANOMALY_SIGNATURE_FAILURE_WINDOW_SECONDS : ℕ := 900
  ANOMALY_SUSPICIOUS_DENIAL_THRESHOLD : ℕ := 3
  ANOMALY_SUSPICIOUS_DENIAL_WINDOW_SECONDS : ℕ := 3600

/-- What `decodeJwt` reads from a token without verifying it. -/
structure DecodedJwt where
  /-- The audiences. -/
  aud : List String
  /-- The id. -/
  jti : Option String
  /-- Until when it is valid, in seconds. -/
  exp : Option ℤ
  /-- The use of the token. -/
  token_use : Option JsValue

/-- A deployment of the broker: its configuration, and the functions of the libraries that it uses
with its secrets. -/
structure Deployment where
  /-- What the commands run on. -/
  engine : Engine
  /-- The configuration. -/
  config : BrokerConfig
  /-- `createHash('sha256').update(value).digest('base64url')`. -/
  base64urlSha256 : String → String
  /-- The keyed hash of a national id number. -/
  pseudoNid : String → String
  /-- The keyed hash of a citizen's id, from the salt in hexadecimal digits. -/
  deriveSubject : String → String → String
  /-- The keyed and truncated hash of a source address. -/
  sourceHandle : String → String
  /-- `jose.decodeJwt`. -/
  decodeJwt : String → Option DecodedJwt
  /-- `JSON.parse` of the text that a token encodes in base64url. -/
  parseToken : String → Option JsValue

/-- `sha256Hex` of `rp.service.ts`. -/
def Deployment.sha256Hex (D : Deployment) (value : String) : String := D.engine.audit.sha256 value

/-! ## Challenges and signatures -/

/-- An issued challenge. -/
structure IssuedChallenge where
  /-- The id. -/
  challengeId : String
  /-- The nonce. -/
  nonce : String
  /-- The text to sign. -/
  payload : String
  /-- Until when it can be used. -/
  expiresAt : String

/-- An issued CIBA challenge, which is signed in one of two ways. -/
structure IssuedCibaChallenge extends IssuedChallenge where
  /-- The text to sign for an approval. -/
  approvePayload : String
  /-- The text to sign for a denial. -/
  denyPayload : String

/-- An issued attestation nonce. -/
structure IssuedNonce where
  /-- The id. -/
  nonceId : String
  /-- The nonce. -/
  nonce : String
  /-- Until when it can be used. -/
  expiresAt : String

section ChallengeService

variable (D : Deployment)

/-- Issue a challenge for a purpose and a binding. -/
def issue (purpose : ChallengePurpose) (bindingId : String) : H IssuedChallenge := do
  let ttl := D.config.CHALLENGE_TTL_SECONDS
  let challengeId ← randomBytes 16 .base64url
  let nonce ← randomBytes 32 .base64url
  let payload := buildChallengePayload purpose challengeId nonce
  await (.challenge (.set challengeId ⟨purposeString purpose, nonce, bindingId⟩ ttl))
  let t ← newDate
  return ⟨challengeId, nonce, payload, isoText (t + ttl * 1000)⟩

/-- Consume a challenge: the text that the device must have signed. -/
def consume (challengeId : String) (expectedPurpose : ChallengePurpose) (bindingId : String) :
    H String := do
  let raw ← await (.challenge (.getdel challengeId))
  let record ← orThrow raw
    (.bridge ⟨.challenge_invalid, "Unknown, expired, or already-used challenge", 400⟩)
  throwIf (record.purpose ≠ purposeString expectedPurpose ∨ record.bindingId ≠ bindingId)
    (.bridge ⟨.challenge_invalid, "Challenge purpose/binding mismatch", 400⟩)
  return buildChallengePayload expectedPurpose challengeId record.nonce

/-- Issue an attestation nonce. -/
def issueAttestationNonce : H IssuedNonce := do
  let ttl := D.config.ATTESTATION_NONCE_TTL_SECONDS
  let nonceId ← randomBytes 16 .base64url
  let nonce ← randomBytes 32 .base64url
  await (.nonce (.set nonceId ⟨purposeString .attestation, nonce⟩ ttl))
  let t ← newDate
  return ⟨nonceId, nonce, isoText (t + ttl * 1000)⟩

/-- Consume an attestation nonce. -/
def consumeAttestationNonce (nonceId : String) : H String := do
  let raw ← await (.nonce (.getdel nonceId))
  let record ← orThrow raw
    (.bridge ⟨.challenge_invalid, "Unknown, expired, or already-used attestation nonce", 400⟩)
  throwIf (record.purpose ≠ purposeString .attestation)
    (.bridge ⟨.challenge_invalid, "Challenge purpose mismatch", 400⟩)
  return record.nonce

/-- Issue a CIBA challenge for a request and a binding. -/
def issueCiba (authReqId bindingId : String) : H IssuedCibaChallenge := do
  let ttl := D.config.CHALLENGE_TTL_SECONDS
  let challengeId ← randomBytes 16 .base64url
  let nonce ← randomBytes 32 .base64url
  await (.challenge (.set challengeId ⟨cibaPurpose authReqId, nonce, bindingId⟩ ttl))
  let approvePayload := buildChallengePayload (.cibaApprove authReqId) challengeId nonce
  let denyPayload := buildChallengePayload (.cibaDeny authReqId) challengeId nonce
  let t ← newDate
  return ⟨⟨challengeId, nonce, approvePayload, isoText (t + ttl * 1000)⟩, approvePayload, denyPayload⟩

/-- The purpose of the text that is signed for a decision. -/
def Decision.purpose (d : Decision) (authReqId : String) : ChallengePurpose :=
  match d with
  | .approve => .cibaApprove authReqId
  | .deny => .cibaDeny authReqId

/-- Consume a CIBA challenge: the text that the device must have signed for the decision. -/
def consumeCiba (challengeId authReqId bindingId : String) (decision : Decision) : H String := do
  let raw ← await (.challenge (.getdel challengeId))
  let record ← orThrow raw
    (.bridge ⟨.challenge_invalid, "Unknown, expired, or already-used challenge", 400⟩)
  throwIf (record.purpose ≠ cibaPurpose authReqId ∨ record.bindingId ≠ bindingId)
    (.bridge ⟨.challenge_invalid, "Challenge purpose/binding mismatch", 400⟩)
  return buildChallengePayload (decision.purpose authReqId) challengeId record.nonce

end ChallengeService

/-- Check a device's signature. -/
def verifyDeviceSignature (jwk : PublicKeyJwk) (payload signature : String) : H Unit := do
  throwIf (jwk.kty ≠ "EC" ∨ jwk.crv ≠ "P-256")
    (.bridge ⟨.signature_invalid, "Unsupported device key type", 400⟩)
  let ok ← (await (.service (.verifySignature jwk payload signature))).recover fun _ => pure false
  throwIf (ok = false) (.bridge ⟨.signature_invalid, "Device signature verification failed", 401⟩)

/-! ## Pairwise subjects and rate limits -/

/-- The pairwise subject of a citizen at a relying party, which is stored at its first use. -/
def subjectFor (D : Deployment) (citizenId rpId : Uuid) (pairwiseSaltHex : String) : H String := do
  let existing ← await (.subject (.select citizenId rpId))
  match existing with
  | some row => return row.subject
  | none =>
    let subject := D.deriveSubject pairwiseSaltHex citizenId.text
    await (.subject (.insert ⟨citizenId, rpId, subject⟩))
    return subject

/-- The citizen that a relying party knows by a subject. -/
def citizenForSubject (rpId : Uuid) (subject : String) : H (Option Uuid) := do
  let row ← await (.subject (.selectBySubject rpId subject))
  return row.map (·.citizenId)

/-- Count a hit, and refuse it above the limit. -/
def hit (key : String) (limit windowSeconds : ℕ) : H Unit := do
  let redisKey := "rl:" ++ key
  let count ← await (.counter (.incr redisKey))
  onlyIf (count = 1) (await (.counter (.expire redisKey windowSeconds)))
  throwIf (count > limit) (.bridge ⟨.rate_limited, "Too many requests", 429⟩)

/-- Record a failure; from the limit on, the lockout is extended. -/
def recordFailure (key : String) (maxFailures windowSeconds : ℕ) : H Unit := do
  let redisKey := "lockout:" ++ key
  let count ← await (.counter (.incr redisKey))
  onlyIf (count = 1) (await (.counter (.expire redisKey windowSeconds)))
  onlyIf (count ≥ maxFailures)
    (await (.counter (.expire redisKey (windowSeconds * 2 ^ min (count - maxFailures) 4))))

/-- Refuse while the failures are at the limit. -/
def assertNotLockedOut (key : String) (maxFailures : ℕ) : H Unit := do
  let count ← await (.counter (.get ("lockout:" ++ key)))
  throwIf (count.any (maxFailures ≤ ·)) (.bridge ⟨.locked_out, "Temporarily locked out", 429⟩)

/-- Forget the failures. -/
def clearFailures (key : String) : H Unit :=
  await (.counter (.del ("lockout:" ++ key)))

/-! ## The readiness of the keys -/

/-- The audience of a probe. -/
def PROBE_AUDIENCE : String := "readiness-probe"

/-- What a probe says. -/
def probeClaims : TokenClaims := { probe := true }

/-- `KeysService.probeSigning`, as far as tokens go: one is signed and verified, and nobody is given it. The custody
that it exercises is the subject of `Keys.Service`. Of all tokens a probe alone is signed without an id; here it has
one, which neither the guard of the sessions nor user info ever reads. -/
def probeSigning : H Unit := do
  let token ← await (.jwt (.sign probeClaims PROBE_AUDIENCE 60))
  let _ ← await (.jwt (.verify token (some PROBE_AUDIENCE)))

/-! ## Who calls -/

/-- The audience of a device's session token. -/
def DEVICE_SESSION_AUDIENCE : String := "device-backchannel"

/-- Who a session token stands for. -/
structure DeviceSession where
  /-- The citizen. -/
  citizenId : String
  /-- The binding. -/
  bindingId : String

/-- `DeviceSessionGuard`, on the bearer token of the request. -/
def deviceSession (bearer : Option String) : H DeviceSession := do
  let token ← orThrow (bearer.filter (· ≠ "")) (.bridge ⟨.access_denied, "Missing device session", 401⟩)
  let payload ← (await (.jwt (.verify token (some DEVICE_SESSION_AUDIENCE)))).recover
    fun _ => refuse .access_denied "Invalid device session" 401
  let citizenId ← orThrow payload.claims.sub (.bridge ⟨.access_denied, "Invalid device session", 401⟩)
  let bindingId ← orThrow payload.claims.binding_id
    (.bridge ⟨.access_denied, "Invalid device session", 401⟩)
  let row ← await (.binding (.select bindingId))
  let binding ← orThrow row (.bridge ⟨.binding_not_active, "Device binding is not active", 401⟩)
  throwIf (binding.status ≠ .active ∨ binding.citizenId.text ≠ citizenId)
    (.bridge ⟨.binding_not_active, "Device binding is not active", 401⟩)
  return ⟨citizenId, bindingId⟩

/-- `AdminGuard`, on the bearer token of the request. -/
def adminGuard (D : Deployment) (bearer : Option String) : H Unit :=
  throwIf (bearer.filter (· ≠ "") ≠ some D.config.ADMIN_API_TOKEN)
    (.bridge ⟨.access_denied, "Admin authentication required", 401⟩)

/-- The credentials of a client, as `extractCredentials` finds them. -/
structure Credentials where
  /-- The client id. -/
  clientId : String
  /-- The secret. -/
  clientSecret : String
  deriving DecidableEq

/-- `loadByClientId`. -/
def loadByClientId (clientId : String) : H (Option RelyingParty) :=
  await (.rp (.selectByClientId clientId))

/-- Authenticate a relying party. The digests are lower-case texts, so that comparing the bytes that
they spell is comparing them. -/
def authenticateClient (D : Deployment) (creds : Option Credentials) : H RelyingParty := do
  let creds ← orThrow creds (.bridge ⟨.invalid_client, "Client authentication required", 401⟩)
  let row ← loadByClientId creds.clientId
  let rp ← orThrow row (.bridge ⟨.invalid_client, "Client authentication failed", 401⟩)
  let digest ← orThrow rp.clientSecretHash
    (.bridge ⟨.invalid_client, "Client authentication failed", 401⟩)
  throwIf (D.sha256Hex creds.clientSecret ≠ digest)
    (.bridge ⟨.invalid_client, "Client authentication failed", 401⟩)
  throwIf (rp.status ≠ .active) (.bridge ⟨.invalid_client, "Client authentication failed", 401⟩)
  return rp

/-! ## Re-verification -/

/-- When SDID last saw the identity of a binding. -/
def lastSdidContact (b : DeviceBinding) : Time :=
  b.lastReassertedAt.getD (b.activatedAt.getD b.enrolledAt)

/-- Whether a binding has to be re-asserted. -/
def isDue (D : Deployment) (b : DeviceBinding) (now : Time) (force : Bool) : Bool :=
  force || decide (lastSdidContact b + D.config.REVERIFY_INTERVAL_SECONDS * 1000 ≤ now)

/-- What a re-assertion did. -/
structure ReassertOutcome where
  /-- Whether SDID was asked. -/
  reasserted : Bool
  /-- The assurance level that SDID answered. -/
  assurance : Option AssuranceLevel

/-- What re-verification throws. -/
def cannotReassert : Failure := .bridge ⟨.access_denied, "Identity cannot be re-asserted", 403⟩

/-- The actor of what the broker does by itself. -/
def systemActor : JsValue := .obj [("type", .str "system")]

/-- The actor of what a citizen does. -/
def citizenActor (citizenId : String) : JsValue :=
  .obj [("type", .str "citizen"), ("id", .str citizenId)]

/-- The event of a re-assertion that SDID answered with an invalid identity. -/
def reassertInvalidEvent (citizenId bindingId trigger txnRef : String) : AuditEventInput where
  actor := systemActor
  action := .sdidReassert
  subjectRef := some citizenId
  deviceBindingId := some bindingId
  sdidTxnRef := some txnRef
  result := .failure
  context := some (.obj [("trigger", .str trigger), ("reason", .str "identity-invalid"),
    ("effect", .str "citizen-suspended-bindings-revoked")])

/-- Ask SDID about a citizen and act on the verdict. -/
def reassertNow (citizenId bindingId trigger : String) (now : Time) : H ReassertOutcome := do
  let row ← await (.citizen (.select citizenId))
  let citizen ← orThrow row cannotReassert
  throwIf (citizen.status ≠ .active) cannotReassert
  let sdidSubject ← orThrow (citizen.sdidSubject.filter (· ≠ "")) cannotReassert
  let result ← await (.service (.reassert sdidSubject))
  if result.valid then
    await (.binding (.setLastReasserted citizenId now))
    auditAppend {
      actor := systemActor
      action := .sdidReassert
      subjectRef := some citizenId
      deviceBindingId := some bindingId
      assurance := some result.assurance
      sdidTxnRef := some result.txnRef
      result := .success
      context := some (.obj [("trigger", .str trigger)]) }
    return ⟨true, some result.assurance⟩
  else
    await (.citizen (.suspend citizenId now))
    await (.binding (.revokeActiveOf citizenId now "sdid-reassert-invalid"))
    auditAppend (reassertInvalidEvent citizenId bindingId trigger result.txnRef)
    throwing cannotReassert

/-- Re-assert a binding's identity if it is due. -/
def reassertIfDue (D : Deployment) (citizenId : String) (binding : DeviceBinding) (force : Bool)
    (trigger : String) : H ReassertOutcome := do
  let now ← newDate
  if isDue D binding now force then reassertNow citizenId binding.id.text trigger now
  else return ⟨false, none⟩

/-- The citizens with a binding that is due, each with the first such binding. -/
def dueCitizens (D : Deployment) (now : Time) : List DeviceBinding → List (Uuid × Uuid)
  | [] => []
  | b :: bs =>
    if isDue D b now false then
      (b.citizenId, b.id) :: (dueCitizens D now bs).filter fun p => p.1 ≠ b.citizenId
    else dueCitizens D now bs

/-- The summary of a sweep. -/
structure SweepSummary where
  /-- How many bindings are active. -/
  scanned : ℕ
  /-- How many citizens are due. -/
  due : ℕ
  /-- How many were re-asserted. -/
  reasserted : ℕ
  /-- How many were refused. -/
  revoked : ℕ
  deriving DecidableEq

/-- One citizen of a sweep: the outcome, or nothing when the identity was refused. -/
def sweepOne (citizenId bindingId : Uuid) : H (Option ReassertOutcome) :=
  (do
    let now ← newDate
    let outcome ← reassertNow citizenId.text bindingId.text "sweep" now
    return some outcome).recover fun err =>
      if err.code = some ErrorCode.access_denied then pure none else throwing err

/-- Re-assert the citizens that are due, at most `limit` of them. -/
def sweep (D : Deployment) (limit : ℕ) : H SweepSummary := do
  let now ← newDate
  let active ← await (.binding .selectActive)
  let due := dueCitizens D now active
  let outcomes ← forEach (fun p : Uuid × Uuid => sweepOne p.1 p.2) (due.take limit)
  return {
    scanned := active.length
    due := due.length
    reasserted := outcomes.countP fun o => o.any (·.reasserted)
    revoked := outcomes.countP fun o => o.isNone }

end SdidBridge
