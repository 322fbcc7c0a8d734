import Mathlib.Data.Rat.Defs
import SdidBridge.Mobile.Errors
import SdidBridge.Shared.Uuid

/-!
# The wire contract of the mobile app

The endpoint paths of `apps/mobile/src/core/wire.ts` and the schemas that every answer of the broker is
read with. A schema takes a parsed body to what the client keeps of it, and refuses it with `none`.
-/

namespace SdidBridge.Mobile

/-! ## Schemas -/

/-- `z.string()`. -/
def zString : JsValue → Option String
  | .str s => some s
  | _ => none

/-- `z.string().min(1)`. -/
def zNonempty (v : JsValue) : Option String := do
  let s ← zString v
  if s = "" then none else some s

/-- `z.string().uuid()`. -/
def zUuid (v : JsValue) : Option String := do
  let s ← zString v
  if Uuid.zodUuid s then some s else none

/-- The value of a number. -/
def numberValue : JsNumber → Option ℚ
  | .nonFinite => none
  | .zero => some 0
  | .finite neg coeff expo _ => some ((if neg then -1 else 1) * coeff * (10 : ℚ) ^ expo)

/-- `z.number()`. -/
def zNumber : JsValue → Option ℚ
  | .num n => numberValue n
  | _ => none

/-- `z.array`. -/
def zArray {α : Type} (schema : JsValue → Option α) : JsValue → Option (List α)
  | .arr vs => vs.mapM schema
  | _ => none

/-- `.nullable()`. -/
def zNullable {α : Type} (schema : JsValue → Option α) : JsValue → Option (Option α)
  | .null => some none
  | v => (schema v).map some

/-- `.optional()`. -/
def zOptional {α : Type} (schema : JsValue → Option α) : JsValue → Option (Option α)
  | .undefined => some none
  | v => (schema v).map some

/-- `z.literal`. -/
def zLiteral (text : String) (v : JsValue) : Option Unit := if v = .str text then some () else none

/-- `z.enum(ASSURANCE_LEVELS)`. -/
def zAssuranceLevel (v : JsValue) : Option AssuranceLevel := do
  let s ← zString v
  [AssuranceLevel.AL1, .AL2, .AL3].find? fun level => level.text == s

/-- `z.object`: its members are looked up by `f`. -/
def zObject {α : Type} (f : (String → JsValue) → Option α) : JsValue → Option α
  | .obj ms => f (member (.obj ms))
  | _ => none

/-! ## The answers of the broker -/

/-- The answer of `enrol/attestation-challenge`. -/
structure AttestationChallengeResponse where
  nonceId : String
  nonce : String
  expiresAt : String

def attestationChallengeResponseSchema : JsValue → Option AttestationChallengeResponse :=
  zObject fun get => do
    return ⟨← zString (get "nonceId"), ← zString (get "nonce"), ← zString (get "expiresAt")⟩

/-- A challenge that the broker has issued. -/
structure IssuedChallenge where
  challengeId : String
  nonce : String
  payload : String
  expiresAt : String

/-- The answer of `enrol/start`. -/
structure EnrolStartResponse where
  bindingId : String
  assuranceLevel : AssuranceLevel
  activationChallenge : IssuedChallenge

def enrolStartResponseSchema : JsValue → Option EnrolStartResponse :=
  zObject fun get => do
    let bindingId ← zUuid (get "bindingId")
    let assuranceLevel ← zAssuranceLevel (get "assuranceLevel")
    let activationChallenge ← zObject (fun get => do
      return ⟨← zString (get "challengeId"), ← zString (get "nonce"), ← zString (get "payload"),
        ← zString (get "expiresAt")⟩) (get "activationChallenge")
    return ⟨bindingId, assuranceLevel, activationChallenge⟩

/-- The answer of `enrol/activate`. -/
structure EnrolActivateResponse where
  bindingId : String

def enrolActivateResponseSchema : JsValue → Option EnrolActivateResponse :=
  zObject fun get => do
    let bindingId ← zUuid (get "bindingId")
    zLiteral "active" (get "status")
    return ⟨bindingId⟩

/-- The app checks a login challenge more strictly, since it is about to sign it. -/
def issuedChallengeSchema : JsValue → Option IssuedChallenge :=
  zObject fun get => do
    return ⟨← zNonempty (get "challengeId"), ← zNonempty (get "nonce"), ← zNonempty (get "payload"),
      ← zNonempty (get "expiresAt")⟩

/-- The answer of `device/login`. -/
structure LoginResponse where
  sessionToken : String
  expiresIn : ℚ

def loginResponseSchema : JsValue → Option LoginResponse :=
  zObject fun get => do
    return ⟨← zString (get "sessionToken"), ← zNumber (get "expiresIn")⟩

/-- The challenge of a pending transaction, with the text for each decision. -/
structure TransactionChallenge where
  challengeId : String
  nonce : String
  approvePayload : String
  denyPayload : String
  expiresAt : String

/-- A pending transaction, as the approval screen shows it. -/
structure PendingTransaction where
  authReqId : String
  rpName : String
  rpLogoUri : Option String
  scopes : List String
  scopeDescriptions : List String
  bindingMessage : Option String
  requestedAssurance : AssuranceLevel
  createdAt : String
  expiresAt : String
  challenge : TransactionChallenge

def pendingTransactionSchema : JsValue → Option PendingTransaction :=
  zObject fun get => do
    let authReqId ← zString (get "authReqId")
    let rpName ← zString (get "rpName")
    let rpLogoUri ← zNullable zString (get "rpLogoUri")
    let scopes ← zArray zString (get "scopes")
    let scopeDescriptions ← zArray zString (get "scopeDescriptions")
    let bindingMessage ← zNullable zString (get "bindingMessage")
    let requestedAssurance ← zAssuranceLevel (get "requestedAssurance")
    let createdAt ← zString (get "createdAt")
    let expiresAt ← zString (get "expiresAt")
    let challenge ← zObject (fun get => do
      return ⟨← zString (get "challengeId"), ← zString (get "nonce"), ← zString (get "approvePayload"),
        ← zString (get "denyPayload"), ← zString (get "expiresAt")⟩) (get "challenge")
    return ⟨authReqId, rpName, rpLogoUri, scopes, scopeDescriptions, bindingMessage, requestedAssurance,
      createdAt, expiresAt, challenge⟩

def pendingTransactionsResponseSchema : JsValue → Option (List PendingTransaction) :=
  zObject fun get => zArray pendingTransactionSchema (get "transactions")

/-- The decisions as the broker confirms them. -/
inductive DecisionStatus where
  | approved
  | denied
  deriving DecidableEq

def cibaDecisionResponseSchema : JsValue → Option DecisionStatus :=
  zObject fun get =>
    match get "status" with
    | .str "approved" => some .approved
    | .str "denied" => some .denied
    | _ => none

/-- The status of a device in the list of devices. -/
inductive DeviceStatus where
  | pending
  | active
  | revoked
  deriving DecidableEq

/-- A device in the list of devices. -/
structure DeviceListItem where
  bindingId : String
  deviceLabel : String
  assuranceLevel : AssuranceLevel
  status : DeviceStatus
  enrolledAt : String
  lastUsedAt : Option String

def deviceListItemSchema : JsValue → Option DeviceListItem :=
  zObject fun get => do
    let bindingId ← zUuid (get "bindingId")
    let deviceLabel ← zString (get "deviceLabel")
    let assuranceLevel ← zAssuranceLevel (get "assuranceLevel")
    let status ← match get "status" with
      | .str "pending" => some .pending
      | .str "active" => some .active
      | .str "revoked" => some .revoked
      | _ => none
    let enrolledAt ← zString (get "enrolledAt")
    let lastUsedAt ← zNullable zString (get "lastUsedAt")
    return ⟨bindingId, deviceLabel, assuranceLevel, status, enrolledAt, lastUsedAt⟩

def bindingsResponseSchema : JsValue → Option (List DeviceListItem) :=
  zObject fun get => zArray deviceListItemSchema (get "devices")

def revokedResponseSchema : JsValue → Option Unit :=
  zObject fun get => zLiteral "revoked" (get "status")

/-- A consent in the list of consents. -/
structure ConsentListItem where
  id : String
  rpName : String
  scopes : List String
  grantedAt : String
  revokedAt : Option String
  source : String

def consentListItemSchema : JsValue → Option ConsentListItem :=
  zObject fun get => do
    let id ← zString (get "id")
    let rpName ← zString (get "rpName")
    let scopes ← zArray zString (get "scopes")
    let grantedAt ← zString (get "grantedAt")
    let revokedAt ← zNullable zString (get "revokedAt")
    let source ← zString (get "source")
    return ⟨id, rpName, scopes, grantedAt, revokedAt, source⟩

def consentsResponseSchema : JsValue → Option (List ConsentListItem) :=
  zObject fun get => zArray consentListItemSchema (get "consents")

/-- An event in the list of events. -/
structure ActivityItem where
  ts : String
  action : String
  result : String
  rpName : Option String

def activityItemSchema : JsValue → Option ActivityItem :=
  zObject fun get => do
    return ⟨← zString (get "ts"), ← zString (get "action"), ← zString (get "result"),
      ← zOptional zString (get "rpName")⟩

def activityResponseSchema : JsValue → Option (List ActivityItem) :=
  zObject fun get => zArray activityItemSchema (get "events")

/-! ## The endpoints -/

/-- The endpoints that the client calls. -/
inductive Endpoint where
  | attestationChallenge
  | enrolStart
  | enrolActivate
  | loginChallenge
  | login
  | cibaPending
  | cibaDecision
  | bindings
  | revokeBinding
  | consents
  | revokeConsent
  | activity
  deriving DecidableEq

/-- `ENDPOINTS`. -/
def Endpoint.path : Endpoint → String
  | .attestationChallenge => "/v1/enrol/attestation-challenge"
  | .enrolStart => "/v1/enrol/start"
  | .enrolActivate => "/v1/enrol/activate"
  | .loginChallenge => "/v1/device/login/challenge"
  | .login => "/v1/device/login"
  | .cibaPending => "/v1/device/ciba/pending"
  | .cibaDecision => "/v1/device/ciba/decision"
  | .bindings => "/v1/device/bindings"
  | .revokeBinding => "/v1/device/bindings/revoke"
  | .consents => "/v1/device/consents"
  | .revokeConsent => "/v1/device/consents/revoke"
  | .activity => "/v1/device/activity"

/-- Different endpoints have different paths. -/
theorem Endpoint.path_injective : Function.Injective Endpoint.path := by
  intro e e' h
  cases e <;> cases e' <;> first
    | rfl
    | exact absurd h (by decide)

end SdidBridge.Mobile
