import SdidBridge.Broker.Devices

/-!
# The CIBA flow

A relying party starts a transaction (`ciba.controller.ts`); the citizen's device pulls it with a
challenge and decides it with a signature (`ciba-device.controller.ts`).
-/

namespace SdidBridge

open Concurrent Prog

/-- The words of a text that single spaces separate, after the characters `acc` of the word that has
been begun, newest first. -/
def words (acc : List Char) : List Char → List String
  | [] => if acc = [] then [] else [String.ofList acc.reverse]
  | c :: cs =>
    if c = ' ' then (if acc = [] then words [] cs else String.ofList acc.reverse :: words [] cs)
    else words (c :: acc) cs

/-- `scope.split(' ').filter(Boolean)`. -/
def splitScopes (scope : String) : List String := words [] scope.toList

/-! ## The relying party's side -/

/-- A request of a relying party to authenticate a citizen. -/
structure BcAuthorizeRequest where
  /-- The scopes. -/
  scope : String
  /-- The pairwise subject of the citizen. -/
  login_hint : String
  /-- The message that the device shows. -/
  binding_message : Option String := none
  /-- The assurance level asked for. -/
  requested_al : Option AssuranceLevel := none
  /-- For how long the request is open, in seconds. -/
  requested_expiry : Option ℕ := none

/-- `bcAuthorizeRequestSchema`. -/
def BcAuthorizeRequest.valid (r : BcAuthorizeRequest) : Bool :=
  r.scope != "" && r.login_hint != "" && r.binding_message.all (lengthWithin 0 140) &&
    r.requested_expiry.all fun n => decide (0 < n) && decide (n ≤ 600)

/-- The answer to it. -/
structure BcAuthorizeResponse where
  /-- The id of the transaction. -/
  auth_req_id : String
  /-- For how long it is open, in seconds. -/
  expires_in : ℕ
  /-- How often the relying party may ask, in seconds. -/
  interval : ℕ

/-- The actor of what a relying party does. -/
def rpActor (rpId : Uuid) : JsValue := .obj [("type", .str "rp"), ("id", .str rpId.text)]

/-- `CibaController.bcAuthorize`. -/
def bcAuthorize (D : Deployment) (creds : Option Credentials) (body : BcAuthorizeRequest) :
    H BcAuthorizeResponse := do
  throwIf (body.valid = false) invalidBody
  let rp ← authenticateClient D creds
  hit ("ciba:rp:" ++ rp.id.text) 60 60
  throwIf (.ciba ∉ rp.allowedFlows)
    (.bridge ⟨.unauthorized_client, "Client may not use CIBA", 400⟩)
  let scopes := splitScopes body.scope
  throwIf ("openid" ∉ scopes ∨ scopes.all (· ∈ rp.allowedScopes) = false)
    (.bridge ⟨.invalid_scope, "Requested scopes exceed the client grant", 400⟩)
  let requestedAl := body.requested_al.getD .AL2
  throwIf (alMeets rp.maxAssurance requestedAl = false)
    (.bridge ⟨.invalid_request, "Requested assurance exceeds client maximum", 400⟩)
  let resolved ← citizenForSubject rp.id body.login_hint
  let citizenId ← orThrow resolved (.bridge ⟨.unknown_user_id, "Unknown login_hint", 400⟩)
  let bindings ← await (.binding (.selectActiveOf citizenId))
  throwIf (bindings.any (fun b => alMeets b.assuranceLevel requestedAl) = false)
    (.bridge ⟨.unknown_user_id, "Unknown login_hint", 400⟩)
  let expiresIn := body.requested_expiry.getD D.config.CIBA_REQUEST_TTL_SECONDS
  let authReqId ← randomBytes 32 .base64url
  let id ← uuidv7
  let now ← newDate
  await (.txn (.insert id authReqId citizenId rp.id .ciba scopes requestedAl body.binding_message
    (now + expiresIn * 1000)))
  wake citizenId
  auditAppend {
    actor := rpActor rp.id
    action := .cibaRequestCreated
    subjectRef := some citizenId.text
    rpId := some rp.id.text
    result := .success
    context := some (.obj [("scopes", .strs scopes), ("requestedAl", .str requestedAl.text)]) }
  return ⟨authReqId, expiresIn, D.config.CIBA_POLL_INTERVAL_SECONDS⟩

/-! ## The device's side -/

/-- What a scope is called on the device. -/
def describeScope (scope : String) : String :=
  if scope = "openid" then "Confirm your identity"
  else if scope = "profile" then "Share your name and date of birth"
  else if scope = "address" then "Share your registered address"
  else scope

/-- A transaction as the device is shown it. -/
structure PendingTransaction where
  /-- The id. -/
  authReqId : String
  /-- The relying party's name. -/
  rpName : String
  /-- Its logo. -/
  rpLogoUri : Option String
  /-- The scopes. -/
  scopes : List String
  /-- What they are called. -/
  scopeDescriptions : List String
  /-- The relying party's message. -/
  bindingMessage : Option String
  /-- The assurance level asked for. -/
  requestedAssurance : AssuranceLevel
  /-- When it was started. -/
  createdAt : String
  /-- Until when it can be decided. -/
  expiresAt : String
  /-- The challenge to sign. -/
  challenge : IssuedCibaChallenge

/-- One open transaction with a new challenge. -/
def pendingOne (D : Deployment) (bindingId : String) (p : AuthTransaction × RelyingParty) :
    H PendingTransaction := do
  let challenge ← issueCiba D p.1.authReqId bindingId
  return {
    authReqId := p.1.authReqId
    rpName := p.2.name
    rpLogoUri := p.2.logoUri
    scopes := p.1.scopes
    scopeDescriptions := p.1.scopes.map describeScope
    bindingMessage := p.1.bindingMessage
    requestedAssurance := p.1.requestedAl
    createdAt := isoText p.1.createdAt
    expiresAt := isoText p.1.expiresAt
    challenge }

/-- The transactions whose relying party is known, with it. -/
def withRp (rps : List RelyingParty) (txns : List AuthTransaction) :
    List (AuthTransaction × RelyingParty) :=
  txns.filterMap fun txn => (rps.find? fun r => r.id = txn.rpId).map (txn, ·)

/-- `CibaDeviceController.pending`. -/
def pending (D : Deployment) (bearer : Option String) : H (List PendingTransaction) := do
  let session ← deviceSession bearer
  let now ← newDate
  let txns ← await (.txn (.selectPendingOf session.citizenId now))
  if txns.isEmpty then return []
  let rps ← await (.rp (.selectAmong (txns.map (·.rpId))))
  forEach (pendingOne D session.bindingId) (withRp rps txns)

/-- A decision of a device. -/
structure CibaDecisionRequest where
  /-- The transaction. -/
  authReqId : String
  /-- The binding, as the device spells it. -/
  bindingId : String
  /-- The challenge. -/
  challengeId : String
  /-- The decision. -/
  decision : Decision
  /-- The signature. -/
  signature : String
  /-- Whether the citizen reports the request. -/
  reportSuspicious : Option Bool := none

/-- `cibaDecisionRequestSchema`. -/
def CibaDecisionRequest.valid (r : CibaDecisionRequest) : Bool :=
  Uuid.zodUuid r.bindingId && lengthWithin 1 512 r.signature

/-- The event of a decision. -/
def decisionEvent (txn : AuthTransaction) (binding : DeviceBinding) (d : Decision)
    (reportSuspicious : Bool) : AuditEventInput where
  actor := citizenActor txn.citizenId.text
  action := match d with
    | .approve => .cibaRequestApproved
    | .deny => .cibaRequestDenied
  subjectRef := some txn.citizenId.text
  rpId := some txn.rpId.text
  deviceBindingId := some binding.id.text
  assurance := some binding.assuranceLevel
  result := match d with
    | .approve => .success
    | .deny => .denied
  context := some (.obj ([("flow", .str txn.flow.text), ("scopes", .strs txn.scopes)] ++
    if reportSuspicious then [("reportedSuspicious", .bool true)] else []))

/-- The identity check before an approval: every time at the highest level, else when it is due. -/
def reassertForApproval (D : Deployment) (txn : AuthTransaction) (binding : DeviceBinding) :
    H Unit := do
  let stepUp := decide (txn.requestedAl = .AL3)
  let _ ← reassertIfDue D txn.citizenId.text binding stepUp
    (if stepUp then "al3-step-up" else "ciba-approve")

/-- `CibaDeviceController.decision`: the answer of the update is not looked at. -/
def decision (D : Deployment) (bearer : Option String) (body : CibaDecisionRequest) : H TxnStatus := do
  let session ← deviceSession bearer
  throwIf (body.valid = false) invalidBody
  let now ← newDate
  let txnRow ← await (.txn (.select body.authReqId))
  let txn ← orThrow txnRow
    (.bridge ⟨.access_denied, "Transaction cannot be decided by this device", 403⟩)
  throwIf (txn.status ≠ .pending ∨ txn.expiresAt ≤ now ∨ txn.citizenId.text ≠ session.citizenId ∨
      body.bindingId ≠ session.bindingId)
    (.bridge ⟨.access_denied, "Transaction cannot be decided by this device", 403⟩)
  let bindingRow ← await (.binding (.select session.bindingId))
  let binding ← orThrow bindingRow
    (.bridge ⟨.binding_not_active, "Device binding is not active", 401⟩)
  throwIf (binding.status ≠ .active)
    (.bridge ⟨.binding_not_active, "Device binding is not active", 401⟩)
  throwIf (alMeets binding.assuranceLevel txn.requestedAl = false)
    (.bridge ⟨.assurance_insufficient, "Binding does not meet requested assurance", 403⟩)
  onlyIf (body.decision = .approve) (reassertForApproval D txn binding)
  let payload ← consumeCiba body.challengeId body.authReqId body.bindingId body.decision
  verifyDeviceSignature binding.devicePubkeyJwk payload body.signature
  let reportSuspicious := body.reportSuspicious.getD false
  let _ ← await (.txn (.resolve txn.id body.decision binding.id now reportSuspicious))
  auditAppend (decisionEvent txn binding body.decision reportSuspicious)
  await (.binding (.setLastUsed binding.id now))
  return body.decision.status

end SdidBridge
