import SdidBridge.Broker.Oidc

/-!
# The admin endpoints

`admin.controller.ts`: registration and suspension of relying parties, provisioning of pairwise
subjects, the check of the audit chain, and the sweep.
-/

namespace SdidBridge

open Concurrent Prog

/-- The actor of what an administrator does. -/
def adminActor : JsValue := .obj [("type", .str "admin")]

/-- A request to register a relying party. -/
structure RegisterRpRequest where
  /-- The name. -/
  name : String
  /-- The address of the logo. -/
  logoUri : Option String := none
  /-- How it authenticates. -/
  authMethod : AuthMethod := .secret
  /-- The scopes it may ask for. -/
  allowedScopes : List String
  /-- The highest assurance level it may ask for. -/
  maxAssurance : AssuranceLevel := .AL2
  /-- The flows it may use. -/
  allowedFlows : List Flow
  /-- Where a code may be sent. -/
  redirectUris : List String := []

/-- `registerRpRequestSchema`. That the addresses are well formed is not modelled. -/
def RegisterRpRequest.valid (r : RegisterRpRequest) : Bool :=
  lengthWithin 1 120 r.name && !r.allowedScopes.isEmpty && !r.allowedFlows.isEmpty

/-- The answer to it. -/
structure RegisterRpResponse where
  /-- The id. -/
  rpId : Uuid
  /-- The client id. -/
  clientId : String
  /-- The client secret, of which only the digest is kept. -/
  clientSecret : String

/-- The row of a new relying party. The database sets when it was inserted. -/
def newRp (D : Deployment) (body : RegisterRpRequest) (id : Uuid) (clientId clientSecret salt : String) :
    RelyingParty where
  id := id
  clientId := clientId
  name := body.name
  logoUri := body.logoUri
  authMethod := body.authMethod
  clientSecretHash := some (D.sha256Hex clientSecret)
  allowedScopes := body.allowedScopes
  maxAssurance := body.maxAssurance
  allowedFlows := body.allowedFlows
  redirectUris := body.redirectUris
  status := .active
  pairwiseSalt := salt
  createdAt := 0

section Admin

variable (D : Deployment) (bearer : Option String)

/-- `AdminController.registerRp`. -/
def registerRp (body : RegisterRpRequest) : H RegisterRpResponse := do
  adminGuard D bearer
  throwIf (body.valid = false) invalidBody
  let rpId ← uuidv7
  let handle ← randomBytes 6 .hex
  let clientId := "rp_" ++ handle
  let clientSecret ← randomBytes 32 .base64url
  let pairwiseSalt ← randomBytes 32 .hex
  await (.rp (.insert (newRp D body rpId clientId clientSecret pairwiseSalt)))
  auditAppend {
    actor := adminActor
    action := .rpRegistered
    rpId := some rpId.text
    result := .success
    context := some (.obj [("name", .str body.name), ("clientId", .str clientId),
      ("allowedScopes", .strs body.allowedScopes),
      ("allowedFlows", .strs (body.allowedFlows.map (·.text))),
      ("maxAssurance", .str body.maxAssurance.text)]) }
  return ⟨rpId, clientId, clientSecret⟩

/-- The event of a suspended relying party. -/
def rpSuspendedEvent (rpId : String) : AuditEventInput where
  actor := adminActor
  action := .rpSuspended
  rpId := some rpId
  result := .success

/-- `AdminController.suspendRp`. -/
def suspendRp (rpId : String) : H Unit := do
  adminGuard D bearer
  let updated ← await (.rp (.suspend rpId))
  throwIf (updated = 0) (.bridge ⟨.invalid_request, "Unknown relying party", 404⟩)
  auditAppend (rpSuspendedEvent rpId)

/-- `AdminController.provisionPairwise`. -/
def provisionPairwise (rpId pseudoNid : String) : H String := do
  adminGuard D bearer
  throwIf (pseudoNid = "") invalidBody
  let rpRow ← await (.rp (.select rpId))
  let rp ← orThrow rpRow (.bridge ⟨.invalid_request, "Unknown relying party", 404⟩)
  let citizenRow ← await (.citizen (.selectByPseudoNid pseudoNid))
  let citizen ← orThrow citizenRow (.bridge ⟨.invalid_request, "Unknown citizen reference", 404⟩)
  let subject ← subjectFor D citizen.id rp.id rp.pairwiseSalt
  auditAppend {
    actor := adminActor
    action := .adminAction
    subjectRef := some citizen.id.text
    rpId := some rp.id.text
    result := .success
    context := some (.obj [("op", .str "provision-pairwise")]) }
  return subject

/-- `AdminController.verifyAudit`. -/
def verifyAudit : H AuditDeps.Verification := do
  adminGuard D bearer
  let rows ← await (.audit .select)
  return D.engine.audit.verifyChain rows

/-- `AdminController.reverifySweep`. -/
def reverifySweep (limit : Option ℕ) : H SweepSummary := do
  adminGuard D bearer
  throwIf (limit.all (fun n => decide (1 ≤ n) && decide (n ≤ 1000)) = false) invalidBody
  let summary ← sweep D (limit.getD 200)
  auditAppend {
    actor := adminActor
    action := .adminAction
    result := .success
    context := some (.obj [("op", .str "reverify-sweep"), ("scanned", .nat summary.scanned),
      ("due", .nat summary.due), ("reasserted", .nat summary.reasserted),
      ("revoked", .nat summary.revoked)]) }
  return summary

end Admin

end SdidBridge
