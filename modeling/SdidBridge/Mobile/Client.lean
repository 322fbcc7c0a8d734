import Mathlib.Data.Rat.Floor
import SdidBridge.Concurrent.Prog
import SdidBridge.Mobile.Wire
import SdidBridge.Shared.IsoDate

/-!
# The mobile client

`ProtocolClient` of `apps/mobile/src/core/client.ts` with the retries of `transport.ts`. A method of the
client is a program over the seams that it is built from: the transport, the key store, the attestation and
capture modules, the binding store, the clock, and its own session variable. What each of them answers is
not said here, so that a path through a program is a run of the method against any broker, transport, key
store and clock.
-/

namespace SdidBridge.Mobile

open Concurrent Prog

/-! ## The seams -/

/-- Which secure element holds a key. -/
inductive KeySecurityLevel where
  | strongbox
  | tee
  | software
  deriving DecidableEq

/-- `SECURITY_RANK`. -/
def SECURITY_RANK : KeySecurityLevel → ℕ
  | .software => 0
  | .tee => 1
  | .strongbox => 2

/-- The text of a level. -/
def KeySecurityLevel.text : KeySecurityLevel → String
  | .strongbox => "strongbox"
  | .tee => "tee"
  | .software => "software"

/-- What the key store can do. -/
structure KeyStoreCapabilities where
  available : Bool
  securityLevel : KeySecurityLevel

/-- A public key. -/
structure PublicKeyJwk where
  kty : String
  crv : String
  x : String
  y : String
  deriving DecidableEq

/-- A key that the key store has generated. -/
structure GeneratedKey where
  publicJwk : PublicKeyJwk
  securityLevel : KeySecurityLevel
  keyAttestation : Option String

/-- What the device's biometry can do. -/
structure BiometricCapabilities where
  available : Bool
  enrolled : Bool
  strong : Bool

/-- What the platform's prompt says. -/
structure SignPromptSpec where
  title : String
  subtitle : String
  cancelLabel : String

/-- What the attestation binds. -/
structure AttestInput where
  nonce : String
  keyAlias : String
  publicJwk : PublicKeyJwk
  keyAttestation : Option String

/-- The attestation as the platform gives it. -/
structure AttestationPayload where
  platform : String
  token : String
  keyAttestation : Option String

/-- The captured sample, encoded for the wire. -/
structure BiometricSampleDto where
  modality : String
  data : String
  livenessMethod : String
  livenessScore : JsNumber

/-- What the app persists between launches. -/
structure PersistedBinding where
  bindingId : String
  keyAlias : String
  deviceLabel : String
  assuranceLevel : AssuranceLevel
  enrolledAt : String
  deriving DecidableEq

/-- The session, which is kept in memory only. -/
structure Session where
  token : String
  expiresAtMs : ℚ
  deriving DecidableEq

/-- The methods of requests. -/
inductive HttpMethod where
  | GET
  | POST
  deriving DecidableEq

/-- The text of a method. -/
def HttpMethod.text : HttpMethod → String
  | .GET => "GET"
  | .POST => "POST"

/-- Whether a request may be repeated. -/
inductive Idempotency where
  /-- No single-use state of the broker is consumed. -/
  | safe
  /-- The request consumes a single-use nonce or challenge. -/
  | consumesNonce
  deriving DecidableEq

/-- A request. Its URL is the base URL with the endpoint's path, and its `authorization` header is the
bearer token. -/
structure HttpRequest where
  method : HttpMethod
  endpoint : Endpoint
  bearer : Option String
  body : Option JsValue

/-- The text of a response, as `JSON.parse` reads it. -/
inductive ResponseBody where
  | empty
  | text (parsed : Option JsValue)

/-- A response. -/
structure HttpResponse where
  status : ℕ
  body : ResponseBody

/-- Why a request had no response. -/
inductive TransportFailureKind where
  | offline
  | timeout
  | unreachable
  deriving DecidableEq

/-- The text of a kind. -/
def TransportFailureKind.text : TransportFailureKind → String
  | .offline => "offline"
  | .timeout => "timeout"
  | .unreachable => "unreachable"

/-- How `transport.send` ends when it does not throw a foreign exception. -/
inductive SendResult where
  | response (r : HttpResponse)
  | failure (kind : TransportFailureKind) (message : String)
  | raised (e : MobileError)

/-- The calls that the client makes on its seams. -/
inductive Command where
  | keyStoreCapabilities
  | biometricCapabilities
  | generate (keyAlias attestationChallenge : String)
  | attest (input : AttestInput)
  | capture (instruction cancelLabel : String)
  | toDto
  | dispose
  /-- `transport.send`, with the mark that the request was given to `sendWithRetry` with. -/
  | send (idempotency : Idempotency) (request : HttpRequest)
  | random
  | sleep (ms : ℤ)
  | sign (keyAlias payload : String) (prompt : SignPromptSpec)
  | deleteKey (keyAlias : String)
  | now
  | load
  | save (binding : PersistedBinding)
  | clear
  /-- Read the session variable. -/
  | session
  /-- Assign the session variable. -/
  | setSession (s : Option Session)

/-- What a call on a seam answers. A promise of a native module can reject with an error of the core. -/
abbrev Answer : Command → Type
  | .keyStoreCapabilities => Except MobileError KeyStoreCapabilities
  | .biometricCapabilities => Except MobileError BiometricCapabilities
  | .generate _ _ => Except MobileError GeneratedKey
  | .attest _ => Except MobileError AttestationPayload
  | .capture _ _ => Except MobileError Unit
  | .toDto => Except MobileError BiometricSampleDto
  | .dispose => Unit
  | .send _ _ => SendResult
  | .random => ℚ
  | .sleep _ => Unit
  | .sign _ _ _ => Except MobileError String
  | .deleteKey _ => Except MobileError Unit
  | .now => ℚ
  | .load => Option PersistedBinding
  | .save _ => Unit
  | .clear => Unit
  | .session => Option Session
  | .setSession _ => Unit

/-- A method of the client. A call that is not answered throws an exception that is not the core's. -/
abbrev Client (α : Type) : Type := Prog Command Answer Thrown α

/-- One executed call with its answer. -/
abbrev Acted : Type := Act Command Answer

/-- `await` a call on a seam. -/
def await (o : Command) : Client (Answer o) := perform .other o

/-- A promise that may have been rejected. -/
def settle {α : Type} : Except MobileError α → Client α
  | .ok a => .ret a
  | .error e => .raise (.mobile e)

/-- `throw` an error of the core. -/
def throwMobile {α : Type} (e : MobileError) : Client α := .raise (.mobile e)

/-- `try { p } finally { cleanup }`. -/
def finallyDo {α : Type} (p : Client α) (cleanup : Client Unit) : Client α := do
  let a ← p.recover fun e => do
    cleanup
    throwing e
  cleanup
  return a

/-! ## The retries -/

/-- The retry policy. -/
structure RetryPolicy where
  maxAttempts : ℚ
  baseDelayMs : ℚ
  maxDelayMs : ℚ

/-- `backoffDelay`. -/
def backoffDelay (attempt : ℕ) (policy : RetryPolicy) : Client ℤ := do
  let ceiling := min policy.maxDelayMs (policy.baseDelayMs * 2 ^ (attempt - 1))
  let random ← await .random
  return ⌊random * ceiling⌋

/-- `isRetryableStatus`. -/
def isRetryableStatus (status : ℕ) : Bool := status = 502 ∨ status = 503 ∨ status = 504

/-- `transportFailureToError`. -/
def transportFailureToError (kind : TransportFailureKind) (message : String) : MobileError :=
  match kind with
  | .timeout => .local .network_timeout message
  | .offline => .local .network_unreachable message
  | .unreachable => .local .server_unreachable message

/-- The loop of `sendWithRetry` from the given attempt on, with `left` attempts left. -/
def sendAttempts (policy : RetryPolicy) (idempotency : Idempotency) (attempts : ℚ) (request : HttpRequest) :
    (left attempt : ℕ) → (lastFailure : Option MobileError) → Client HttpResponse
  | 0, _, lastFailure => throwMobile (lastFailure.getD (.local .unknown "retry loop exhausted"))
  | left + 1, attempt, lastFailure => do
    match ← await (.send idempotency request) with
    | .response response =>
      if (attempt : ℚ) < attempts ∧ isRetryableStatus response.status = true then
        let delay ← backoffDelay attempt policy
        await (.sleep delay)
        sendAttempts policy idempotency attempts request left (attempt + 1) lastFailure
      else
        return response
    | .failure kind message =>
      -- the broker may have consumed the nonce, so that the citizen has to start again
      if idempotency = .consumesNonce then
        throwMobile (.local .interrupted (request.method.text ++ " interrupted (" ++ kind.text ++ ")"))
      else if attempts ≤ attempt then
        throwMobile (transportFailureToError kind message)
      else
        let delay ← backoffDelay attempt policy
        await (.sleep delay)
        sendAttempts policy idempotency attempts request left (attempt + 1)
          (some (transportFailureToError kind message))
    | .raised e => throwMobile e

/-- How many attempts a request has. -/
def attemptsOf (policy : RetryPolicy) : Idempotency → ℚ
  | .safe => max 1 policy.maxAttempts
  | .consumesNonce => 1

/-- `sendWithRetry`. -/
def sendWithRetry (policy : RetryPolicy) (idempotency : Idempotency) (request : HttpRequest) :
    Client HttpResponse :=
  let attempts := attemptsOf policy idempotency
  sendAttempts policy idempotency attempts request ⌊attempts⌋₊ 1 none

/-! ## The client -/

/-- The options of the client. -/
structure ProtocolClientOptions where
  /-- The retry policy. -/
  retry : RetryPolicy
  /-- The alias of the device's key. -/
  keyAlias : String
  /-- The lowest acceptable key security level. -/
  minKeySecurityLevel : KeySecurityLevel
  /-- Whether the client is given the device's biometry. -/
  biometrics : Bool
  /-- The translator. -/
  t : String → String
  /-- `Date.parse`, which answers `NaN` for a text that is not a date. -/
  parseDate : String → Option ℚ

/-- Re-login so many milliseconds before the session expires. -/
def SESSION_SKEW_MS : ℚ := 30000

/-- What a method calls. -/
structure CallSpec (α : Type) where
  method : HttpMethod
  endpoint : Endpoint
  idempotency : Idempotency
  parse : JsValue → Option α
  body : Option JsValue := none
  bearer : Option String := none

/-- `safeJson`. -/
def safeJson : ResponseBody → JsValue
  | .empty => .undefined
  | .text parsed => parsed.getD .undefined

section Methods

variable (opts : ProtocolClientOptions)

/-- The request that a call sends. An empty bearer token is no header. -/
def CallSpec.request {α : Type} (spec : CallSpec α) : HttpRequest where
  method := spec.method
  endpoint := spec.endpoint
  bearer := spec.bearer.filter fun token => token ≠ ""
  body := spec.body

/-- What `call` makes of a response. -/
def readResponse {α : Type} (spec : CallSpec α) (response : HttpResponse) : Except MobileError α :=
  if response.status < 200 ∨ 300 ≤ response.status then
    .error (.fromBrokerBody (safeJson response.body) response.status)
  else
    let parsed := match response.body with
      | .empty => .obj []
      | body => safeJson body
    if parsed = .undefined then .error (.local .unexpected_response "non_json_body")
    else match spec.parse parsed with
      | some value => .ok value
      | none => .error (.local .unexpected_response ("schema:" ++ spec.endpoint.path))

/-- `call`. -/
def call {α : Type} (spec : CallSpec α) : Client α := do
  let response ← sendWithRetry opts.retry spec.idempotency spec.request
  settle (readResponse spec response)

/-- `requireBinding`. -/
def requireBinding : Client PersistedBinding := do
  match ← await .load with
  | some binding => return binding
  | none => throwMobile (.local .not_enrolled)

/-- `expectPayload`: rebuild the payload, and require the broker's to be the same. -/
def expectPayload (purpose : ChallengePurpose) (challengeId nonce given : String) : Client String :=
  let expected := buildChallengePayload purpose challengeId nonce
  if expected ≠ given then throwMobile (.local .unexpected_response "challenge_payload_mismatch")
  else .ret expected

/-- `sign`. An exception of the key store becomes an error of the core. -/
def sign (payload : String) (prompt : SignPromptSpec) : Client String :=
  Prog.recover (do settle (← await (.sign opts.keyAlias payload prompt))) fun e => throwMobile (toMobileError e)

/-! ### Enrolment -/

/-- `NID_PATTERN`: 16 digits. -/
def nidPattern (nid : String) : Bool := nid.toList.length = 16 ∧ nid.toList.all Char.isDigit

/-- `assertSecurityLevel`. -/
def assertSecurityLevel (level : KeySecurityLevel) : Client Unit :=
  if SECURITY_RANK level < SECURITY_RANK opts.minKeySecurityLevel then
    throwMobile (.local .secure_hardware_unavailable ("key_security_level=" ++ level.text))
  else .ret ()

/-- `assertDeviceCanEnrol`. -/
def assertDeviceCanEnrol : Client Unit := do
  let keyCaps ← settle (← await .keyStoreCapabilities)
  throwIf (keyCaps.available = false) (.mobile (.local .secure_hardware_unavailable "keystore_unavailable"))
  assertSecurityLevel opts keyCaps.securityLevel
  onlyIf (opts.biometrics = true) do
    let caps ← settle (← await .biometricCapabilities)
    throwIf (caps.available = false) (.mobile (.local .biometric_unavailable))
    throwIf (caps.enrolled = false) (.mobile (.local .biometric_not_enrolled))
    throwIf (caps.strong = false) (.mobile (.local .biometric_unavailable "weak_biometry"))

/-- What enrolment needs of the citizen. -/
structure EnrolInput where
  nid : String
  deviceLabel : String

/-- What enrolment results in. -/
structure EnrolResult where
  bindingId : String
  assuranceLevel : AssuranceLevel

/-- A public key on the wire. -/
def PublicKeyJwk.json (jwk : PublicKeyJwk) : JsValue :=
  .obj [("kty", .str jwk.kty), ("crv", .str jwk.crv), ("x", .str jwk.x), ("y", .str jwk.y)]

/-- An attestation on the wire, with the handle of its nonce. -/
def AttestationPayload.json (a : AttestationPayload) (nonceId : String) : JsValue :=
  .obj ([("platform", .str a.platform), ("token", .str a.token)] ++
    (a.keyAttestation.map fun k => ("keyAttestation", JsValue.str k)).toList ++ [("nonceId", .str nonceId)])

/-- A sample on the wire. -/
def BiometricSampleDto.json (sample : BiometricSampleDto) : JsValue :=
  .obj [("modality", .str sample.modality), ("data", .str sample.data),
    ("liveness", .obj [("method", .str sample.livenessMethod), ("score", .num sample.livenessScore)])]

/-- `POST enrol/attestation-challenge`. -/
def attestationChallengeCall : CallSpec AttestationChallengeResponse where
  method := .POST
  endpoint := .attestationChallenge
  idempotency := .safe
  parse := attestationChallengeResponseSchema

/-- `POST enrol/start`. -/
def enrolStartCall (input : EnrolInput) (jwk : PublicKeyJwk) (attestation : AttestationPayload)
    (nonceId : String) (sample : BiometricSampleDto) : CallSpec EnrolStartResponse where
  method := .POST
  endpoint := .enrolStart
  idempotency := .consumesNonce
  parse := enrolStartResponseSchema
  body := some (.obj [("nid", .str input.nid), ("devicePublicKeyJwk", jwk.json),
    ("attestation", attestation.json nonceId), ("deviceLabel", .str input.deviceLabel), ("sample", sample.json)])

/-- `POST enrol/activate`. -/
def enrolActivateCall (bindingId challengeId signature : String) : CallSpec EnrolActivateResponse where
  method := .POST
  endpoint := .enrolActivate
  idempotency := .consumesNonce
  parse := enrolActivateResponseSchema
  body := some (.obj [("bindingId", .str bindingId), ("challengeId", .str challengeId),
    ("signature", .str signature)])

/-- `new Date(ms).toISOString()`, which throws for a time that no date has. -/
def isoDate (ms : ℚ) : Client String :=
  if 8640000000000000 < |ms| then throwing .other
  else .ret (String.ofList (toISOString (ms.num.tdiv ms.den)))

/-- The prompt of an activation. -/
def activationPrompt : SignPromptSpec where
  title := opts.t "enrol.progress.activating"
  subtitle := opts.t "enrol.consent.point.deviceKey"
  cancelLabel := opts.t "common.cancel"

/-- `enrol`. -/
def enrol (input : EnrolInput) : Client EnrolResult := do
  throwIf (nidPattern input.nid = false)
    (.mobile { code := .protocol .invalid_request, source := .client, detail := some "nid_format" })
  assertDeviceCanEnrol opts
  let challenge ← call opts attestationChallengeCall
  let key ← settle (← await (.generate opts.keyAlias challenge.nonce))
  assertSecurityLevel opts key.securityLevel
  let attestation ← settle (← await (.attest
    { nonce := challenge.nonce, keyAlias := opts.keyAlias, publicJwk := key.publicJwk,
      keyAttestation := key.keyAttestation }))
  let _ ← settle (← await (.capture (opts.t "enrol.capture.instruction") (opts.t "common.cancel")))
  let start ← finallyDo (do
      let sample ← settle (← await .toDto)
      call opts (enrolStartCall input key.publicJwk attestation challenge.nonceId sample))
    (await .dispose)
  let payload ← expectPayload .activation start.activationChallenge.challengeId
    start.activationChallenge.nonce start.activationChallenge.payload
  let signature ← sign opts payload (activationPrompt opts)
  let activated ← call opts (enrolActivateCall start.bindingId start.activationChallenge.challengeId signature)
  let enrolledAt ← isoDate (← await .now)
  await (.save
    { bindingId := activated.bindingId, keyAlias := opts.keyAlias, deviceLabel := input.deviceLabel,
      assuranceLevel := start.assuranceLevel, enrolledAt := enrolledAt })
  return ⟨activated.bindingId, start.assuranceLevel⟩

/-! ### Login and the session -/

/-- `POST device/login/challenge`. -/
def loginChallengeCall (bindingId : String) : CallSpec IssuedChallenge where
  method := .POST
  endpoint := .loginChallenge
  idempotency := .safe
  parse := issuedChallengeSchema
  body := some (.obj [("bindingId", .str bindingId)])

/-- `POST device/login`. -/
def loginCall (bindingId challengeId signature : String) : CallSpec LoginResponse where
  method := .POST
  endpoint := .login
  idempotency := .consumesNonce
  parse := loginResponseSchema
  body := some (.obj [("bindingId", .str bindingId), ("challengeId", .str challengeId),
    ("signature", .str signature)])

/-- The prompt of a login. -/
def loginPrompt : SignPromptSpec where
  title := opts.t "onboarding.welcomeTitle"
  subtitle := opts.t "approval.approveHint"
  cancelLabel := opts.t "common.cancel"

/-- `login`. -/
def login : Client String := do
  let binding ← requireBinding
  let challenge ← call opts (loginChallengeCall binding.bindingId)
  let payload ← expectPayload .login challenge.challengeId challenge.nonce challenge.payload
  let signature ← sign opts payload (loginPrompt opts)
  let result ← call opts (loginCall binding.bindingId challenge.challengeId signature)
  let now ← await .now
  await (.setSession (some ⟨result.sessionToken, now + result.expiresIn * 1000⟩))
  return result.sessionToken

/-- `ensureSession`: reuse a live session, otherwise log in. -/
def ensureSession : Client String := do
  match ← await .session with
  | some live =>
    let now ← await .now
    if now < live.expiresAtMs - SESSION_SKEW_MS then
      return live.token
    else
      await (.setSession none)
      login opts
  | none =>
    await (.setSession none)
    login opts

/-- `reset`: drop the session, the stored binding and the key. A key store that cannot delete is no
failure. -/
def reset : Client Unit := do
  await (.setSession none)
  let current ← await .load
  await .clear
  Prog.recover (do settle (← await (.deleteKey ((current.map PersistedBinding.keyAlias).getD opts.keyAlias))))
    fun _ => .ret ()

/-- `authed`: a call under the session. -/
def authed {α : Type} (spec : CallSpec α) : Client α := do
  let token ← ensureSession opts
  (call opts { spec with bearer := some token }).recover fun error => do
    let err := toMobileError error
    if err.terminalForBinding = true then
      reset opts
      throwMobile err
    else if err.code = .protocol .access_denied ∧ err.httpStatus = some 401 ∧ spec.idempotency = .safe then
      await (.setSession none)
      let fresh ← ensureSession opts
      call opts { spec with bearer := some fresh }
    else
      throwMobile err

/-! ### Decisions -/

/-- The decisions of the citizen. -/
inductive Decision where
  | approve
  | deny
  deriving DecidableEq

/-- The text of a decision. -/
def Decision.text : Decision → String
  | .approve => "approve"
  | .deny => "deny"

/-- What the citizen signs for a decision. -/
def decisionPurpose (txn : PendingTransaction) : Decision → ChallengePurpose
  | .approve => .cibaApprove txn.authReqId
  | .deny => .cibaDeny txn.authReqId

/-- `GET device/ciba/pending`. -/
def cibaPendingCall : CallSpec (List PendingTransaction) where
  method := .GET
  endpoint := .cibaPending
  idempotency := .safe
  parse := pendingTransactionsResponseSchema

/-- `pullPending`. -/
def pullPending : Client (List PendingTransaction) := authed opts cibaPendingCall

/-- `POST device/ciba/decision`. -/
def cibaDecisionCall (txn : PendingTransaction) (bindingId : String) (decision : Decision) (signature : String)
    (reportSuspicious : Option Bool) : CallSpec DecisionStatus where
  method := .POST
  endpoint := .cibaDecision
  idempotency := .consumesNonce
  parse := cibaDecisionResponseSchema
  body := some (.obj ([("authReqId", .str txn.authReqId), ("bindingId", .str bindingId),
    ("challengeId", .str txn.challenge.challengeId), ("decision", .str decision.text),
    ("signature", .str signature)] ++
    (reportSuspicious.map fun b => ("reportSuspicious", JsValue.bool b)).toList))

/-- The prompt of a decision says who asks. An empty binding message is falsy, as a missing one is. -/
def decisionPrompt (txn : PendingTransaction) (decision : Decision) : SignPromptSpec where
  title :=
    match decision with
    | .approve => opts.t "approval.approve"
    | .deny => opts.t "approval.deny"
  subtitle := txn.rpName ++
    match txn.bindingMessage with
    | some message => if message = "" then "" else " · " ++ message
    | none => ""
  cancelLabel := opts.t "common.cancel"

/-- What the broker asks to be signed for a decision. -/
def TransactionChallenge.payload (challenge : TransactionChallenge) : Decision → String
  | .approve => challenge.approvePayload
  | .deny => challenge.denyPayload

/-- `decide`. The session comes first, so that its prompt is not raised in the middle of the approval. -/
def decide (txn : PendingTransaction) (decision : Decision) (reportSuspicious : Option Bool := none) :
    Client DecisionStatus := do
  let binding ← requireBinding
  let _ ← ensureSession opts
  let now ← await .now
  throwIf (∃ expiry ∈ opts.parseDate txn.challenge.expiresAt, expiry ≤ now)
    (.mobile { code := .protocol .challenge_invalid, source := .client, detail := some "challenge_expired" })
  let payload ← expectPayload (decisionPurpose txn decision) txn.challenge.challengeId txn.challenge.nonce
    (txn.challenge.payload decision)
  let signature ← sign opts payload (decisionPrompt opts txn decision)
  authed opts (cibaDecisionCall txn binding.bindingId decision signature reportSuspicious)

/-- `approve`. -/
def approve (txn : PendingTransaction) : Client DecisionStatus := decide opts txn .approve

/-- `deny`. -/
def deny (txn : PendingTransaction) (reportSuspicious : Option Bool := none) : Client DecisionStatus :=
  decide opts txn .deny reportSuspicious

/-- `reportNotMe`. -/
def reportNotMe (txn : PendingTransaction) : Client DecisionStatus := decide opts txn .deny (some true)

/-! ### Devices, consents, activity -/

/-- `GET device/bindings`. -/
def bindingsCall : CallSpec (List DeviceListItem) where
  method := .GET
  endpoint := .bindings
  idempotency := .safe
  parse := bindingsResponseSchema

/-- `listBindings`. -/
def listBindings : Client (List DeviceListItem) := authed opts bindingsCall

/-- `POST device/bindings/revoke`. -/
def revokeBindingCall (bindingId : String) (reason : Option String) : CallSpec Unit where
  method := .POST
  endpoint := .revokeBinding
  idempotency := .safe
  parse := revokedResponseSchema
  body := some (.obj (("bindingId", .str bindingId) ::
    (reason.map fun r => ("reason", JsValue.str r)).toList))

/-- `revokeBinding`. Revoking this device also wipes it. -/
def revokeBinding (bindingId : String) (reason : Option String := none) : Client Unit := do
  authed opts (revokeBindingCall bindingId reason)
  let current ← await .load
  onlyIf (current.map PersistedBinding.bindingId = some bindingId) (reset opts)

/-- `GET device/consents`. -/
def consentsCall : CallSpec (List ConsentListItem) where
  method := .GET
  endpoint := .consents
  idempotency := .safe
  parse := consentsResponseSchema

/-- `listConsents`. -/
def listConsents : Client (List ConsentListItem) := authed opts consentsCall

/-- `POST device/consents/revoke`. -/
def revokeConsentCall (consentId : String) : CallSpec Unit where
  method := .POST
  endpoint := .revokeConsent
  idempotency := .safe
  parse := revokedResponseSchema
  body := some (.obj [("consentId", .str consentId)])

/-- `revokeConsent`. -/
def revokeConsent (consentId : String) : Client Unit := authed opts (revokeConsentCall consentId)

/-- `GET device/activity`. -/
def activityCall : CallSpec (List ActivityItem) where
  method := .GET
  endpoint := .activity
  idempotency := .safe
  parse := activityResponseSchema

/-- `activity`. -/
def activity : Client (List ActivityItem) := authed opts activityCall

/-- `currentBinding`. -/
def currentBinding : Client (Option PersistedBinding) := await .load

/-- `isEnrolled`. -/
def isEnrolled : Client Bool := do
  let binding ← await .load
  return binding.isSome

end Methods

/-- The calls that the app makes on the client. -/
inductive ClientCall where
  | enrol (input : EnrolInput)
  | login
  | pullPending
  | decide (txn : PendingTransaction) (decision : Decision) (reportSuspicious : Option Bool)
  | listBindings
  | revokeBinding (bindingId : String) (reason : Option String)
  | listConsents
  | revokeConsent (consentId : String)
  | activity
  | currentBinding
  | isEnrolled
  | reset

/-- What the app makes of a call's result is not the client's concern. -/
def void {α : Type} (p : Client α) : Client Unit := do
  let _ ← p
  return ()

/-- The method that a call runs. -/
def ClientCall.method (opts : ProtocolClientOptions) : ClientCall → Client Unit
  | .enrol input => void (Mobile.enrol opts input)
  | .login => void (Mobile.login opts)
  | .pullPending => void (Mobile.pullPending opts)
  | .decide txn decision report => void (Mobile.decide opts txn decision report)
  | .listBindings => void (Mobile.listBindings opts)
  | .revokeBinding bindingId reason => Mobile.revokeBinding opts bindingId reason
  | .listConsents => void (Mobile.listConsents opts)
  | .revokeConsent consentId => Mobile.revokeConsent opts consentId
  | .activity => void (Mobile.activity opts)
  | .currentBinding => void Mobile.currentBinding
  | .isEnrolled => void Mobile.isEnrolled
  | .reset => Mobile.reset opts

end SdidBridge.Mobile
