import SdidBridge.Broker.Trust

/-!
# Wake-ups and anomaly detection

`push.service.ts` and `anomaly.service.ts`, which the handlers call on the way and which never make
a request fail: what they throw is caught. The deliveries of one wake-up are made one after the
other; they touch the push addresses of different bindings, so that their order shows nowhere else.
-/

namespace SdidBridge

open Concurrent Prog

/-! ## Wake-ups -/

/-- Drop the push address of a binding. -/
def clearToken (bindingId : String) : H Unit := do
  let now ← newDate
  await (.binding (.clearPushToken bindingId now))

/-- Set the push address of a binding. -/
def registerToken (bindingId : String) (platform : PushPlatform) (token : String) : H Unit := do
  let now ← newDate
  await (.binding (.setPushToken bindingId platform token now))

/-- Where a binding can be woken. -/
structure PushTarget where
  /-- The binding. -/
  id : Uuid
  /-- The service. -/
  platform : PushPlatform
  /-- The address. -/
  token : String

/-- The push address of a binding, if it has one. -/
def DeviceBinding.target (b : DeviceBinding) : Option PushTarget :=
  match b.pushPlatform, b.pushToken with
  | some platform, some token => if token = "" then none else some ⟨b.id, platform, token⟩
  | _, _ => none

/-- Deliver one wake-up; an address that the service does not know any more is dropped. -/
def deliver (target : PushTarget) : H Unit :=
  (do
    let outcome ← await (.service (.sendPush target.platform target.token))
    onlyIf (outcome = PushOutcome.unregistered) (clearToken target.id.text)).recover fun _ => pure ()

/-- Wake the devices of a citizen. -/
def wake (citizenId : Uuid) : H Unit := do
  let targets ← (await (.binding (.selectActiveOf citizenId))).recover fun _ => pure []
  let _ ← forEach deliver (targets.filterMap (·.target))

/-! ## Anomaly detection -/

/-- The patterns that are detected. -/
inductive AnomalyPattern where
  | enrolmentProbing
  | attestationRejectionBurst
  | cibaInitiationFlood
  | signatureFailureBurst
  | suspiciousDenialSpike
  deriving DecidableEq

/-- The text of a pattern. -/
def AnomalyPattern.text : AnomalyPattern → String
  | .enrolmentProbing => "enrolment_probing"
  | .attestationRejectionBurst => "attestation_rejection_burst"
  | .cibaInitiationFlood => "ciba_initiation_flood"
  | .signatureFailureBurst => "signature_failure_burst"
  | .suspiciousDenialSpike => "suspicious_denial_spike"

/-- A detection. -/
structure AnomalyDetection where
  /-- The pattern. -/
  pattern : AnomalyPattern
  /-- The source, never as an address. -/
  sourceHandle : String
  /-- What was counted. -/
  observed : ℕ
  /-- From which count on it is a detection. -/
  threshold : ℕ
  /-- The window of the count. -/
  windowSeconds : ℕ

/-- What a detection says about its event, besides the counts. -/
structure AnomalyContext where
  /-- The relying party. -/
  rpId : Option String := none
  /-- The device binding. -/
  deviceBindingId : Option String := none
  /-- The last reason of a refusal. -/
  lastRejectionCode : Option String := none

/-- A member of an object that is left out when there is no value. -/
def optionalMember (key : String) : Option String → List (String × JsValue)
  | some s => [(key, .str s)]
  | none => []

/-- The event of a detection. -/
def AnomalyDetection.event (d : AnomalyDetection) (ctx : AnomalyContext) : AuditEventInput where
  actor := systemActor
  action := .adminAction
  rpId := ctx.rpId
  deviceBindingId := ctx.deviceBindingId
  result := .failure
  context := some (.obj ([("op", .str "anomaly-detected"), ("pattern", .str d.pattern.text),
    ("observed", .nat d.observed), ("threshold", .nat d.threshold),
    ("windowSeconds", .nat d.windowSeconds), ("sourceHandle", .str d.sourceHandle),
    ("action", .str "none — detection only, human review required")] ++
    optionalMember "rpId" ctx.rpId ++ optionalMember "deviceBindingId" ctx.deviceBindingId ++
    optionalMember "lastRejectionCode" ctx.lastRejectionCode))

/-- Record a detection once per window. -/
def raiseDetection (d : AnomalyDetection) (ctx : AnomalyContext) : H Unit := do
  let first ← await (.flag
    (.setNx ("anom:alerted:" ++ d.pattern.text ++ ":" ++ d.sourceHandle) d.windowSeconds))
  onlyIf (first = true) (auditAppend (d.event ctx))

/-- The source of a scope: a hashed address stands without its prefix. -/
def scopeSource (scopeKey : String) : String :=
  if "src:".toList.isPrefixOf scopeKey.toList then String.ofList (scopeKey.toList.drop 4)
  else scopeKey

/-- Count an event, and raise a detection from the threshold on. -/
def countEvent (pattern : AnomalyPattern) (scopeKey : String) (threshold windowSeconds : ℕ)
    (ctx : AnomalyContext) : H Unit := do
  let key := "anom:" ++ pattern.text ++ ":" ++ scopeKey
  let observed ← await (.counter (.incr key))
  onlyIf (observed = 1) (await (.counter (.expire key windowSeconds)))
  onlyIf (threshold ≤ observed)
    (raiseDetection ⟨pattern, scopeSource scopeKey, observed, threshold, windowSeconds⟩ ctx)

/-- Count the identities that one source tries to enrol. -/
def recordEnrolmentAttempt (D : Deployment) (sourceIp pseudoNid : String) : H Unit :=
  if D.config.ANOMALY_ENABLED then
    let window := D.config.ANOMALY_ENROL_PROBE_WINDOW_SECONDS
    let threshold := D.config.ANOMALY_ENROL_PROBE_DISTINCT_NIDS
    let handle := D.sourceHandle sourceIp
    let key := "anom:enrol:src:" ++ handle
    (do
      await (.set (.sadd key pseudoNid))
      await (.set (.expire key window))
      let distinct ← await (.set (.scard key))
      onlyIf (threshold ≤ distinct)
        (raiseDetection ⟨.enrolmentProbing, handle, distinct, threshold, window⟩ {})).recover
      fun _ => pure ()
  else pure ()

/-- Count the refused attestations of one source. -/
def recordAttestationRejection (D : Deployment) (sourceIp rejectionCode : String) : H Unit :=
  if D.config.ANOMALY_ENABLED then
    (countEvent .attestationRejectionBurst ("src:" ++ D.sourceHandle sourceIp)
      D.config.ANOMALY_ATTESTATION_REJECTION_THRESHOLD
      D.config.ANOMALY_ATTESTATION_REJECTION_WINDOW_SECONDS
      { lastRejectionCode := some rejectionCode }).recover fun _ => pure ()
  else pure ()

/-- A member of a value, as `value?.[key]`. -/
def JsValue.member (key : String) : JsValue → Option JsValue
  | .obj ms => (ms.find? fun m => m.1 = key).map (·.2)
  | _ => none

/-- Whether a member of a value is the boolean `true`. -/
def JsValue.memberIsTrue (key : String) (v : JsValue) : Bool :=
  match v.member key with
  | some (.bool b) => b
  | _ => false

/-- Whether a member of a value is the text `s`. -/
def JsValue.memberIsText (key s : String) (v : JsValue) : Bool :=
  match v.member key with
  | some (.str s') => s' == s
  | _ => false

/-- What the observer of the audit stream counts an event as. -/
def countAuditEvent (D : Deployment) (event : AuditEventInput) : H Unit :=
  match event.action, event.rpId.filter (· ≠ ""), event.deviceBindingId.filter (· ≠ "") with
  | .cibaRequestCreated, some rpId, _ =>
    countEvent .cibaInitiationFlood ("rp:" ++ rpId) D.config.ANOMALY_CIBA_INITIATION_THRESHOLD
      D.config.ANOMALY_CIBA_INITIATION_WINDOW_SECONDS { rpId := some rpId }
  | .cibaRequestDenied, some rpId, _ =>
    if event.context.any (·.memberIsTrue "reportedSuspicious") then
      countEvent .suspiciousDenialSpike ("rp:" ++ rpId) D.config.ANOMALY_SUSPICIOUS_DENIAL_THRESHOLD
        D.config.ANOMALY_SUSPICIOUS_DENIAL_WINDOW_SECONDS { rpId := some rpId }
    else pure ()
  | .authLoginFailed, _, some bindingId =>
    if event.context.any (·.memberIsText "reason" "signature_invalid") then
      countEvent .signatureFailureBurst ("binding:" ++ bindingId)
        D.config.ANOMALY_SIGNATURE_FAILURE_THRESHOLD
        D.config.ANOMALY_SIGNATURE_FAILURE_WINDOW_SECONDS { deviceBindingId := some bindingId }
    else pure ()
  | _, _, _ => pure ()

/-- The observer of the audit stream. It runs beside the call whose event it was told of. -/
def onAuditEvent (D : Deployment) (event : AuditEventInput) : H Unit :=
  if D.config.ANOMALY_ENABLED then (countAuditEvent D event).recover fun _ => pure () else pure ()

end SdidBridge
