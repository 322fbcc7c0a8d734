import SdidBridge.Broker.Admin

/-!
# The broker as a machine

A request is one of an endpoint's, an event that the observer of the audit stream is told of, or a probe of
the signing key. The
environment sends any request at any time, and interleaves the calls at every command. Each part of
the store is an object with its own commands (`Concurrent.Object`).
-/

namespace SdidBridge

open Concurrent Prog

/-- What the broker serves. -/
inductive Request where
  | attestationChallenge (ip : String)
  | enrolStart (body : EnrolStartRequest) (ip : String)
  | enrolActivate (body : EnrolActivateRequest)
  | loginChallenge (bindingId : String)
  | login (body : LoginRequest)
  | revokeBinding (bearer : Option String) (bindingId : String) (reason : Option String)
  | registerPushToken (bearer : Option String) (platform : PushPlatform) (token : String)
  | removePushToken (bearer : Option String)
  | recordGrant (citizenId rpId : String) (scopes : List String) (source : String)
  | revokeConsent (bearer : Option String) (consentId : String)
  | bcAuthorize (creds : Option Credentials) (body : BcAuthorizeRequest)
  | pending (bearer : Option String)
  | decision (bearer : Option String) (body : CibaDecisionRequest)
  | token (creds : Option Credentials) (body : TokenRequest)
  | userinfo (bearer : Option String)
  | introspect (creds : Option Credentials) (token : Option String)
  | revoke (creds : Option Credentials) (token : Option String)
  | authorize (query : AuthorizeRequest)
  | authorizePoll (txn : Option String)
  | registerRp (bearer : Option String) (body : RegisterRpRequest)
  | suspendRp (bearer : Option String) (rpId : String)
  | provisionPairwise (bearer : Option String) (rpId pseudoNid : String)
  | verifyAudit (bearer : Option String)
  | reverifySweep (bearer : Option String) (limit : Option ℕ)
  | onAuditEvent (event : AuditEventInput)
  | probeSigning

/-- What a call returns. -/
inductive Reply where
  | done
  | nonce (n : IssuedNonce)
  | enrolled (r : EnrolStartResponse)
  | activated (bindingId : Uuid)
  | challenge (c : IssuedChallenge)
  | session (r : LoginResponse)
  | consent (id : Uuid)
  | started (r : BcAuthorizeResponse)
  | transactions (ts : List PendingTransaction)
  | decided (status : TxnStatus)
  | tokens (r : TokenResponse)
  | userinfo (u : UserInfo)
  | introspection (r : Option SignedJwt)
  | page (p : AuthorizePage)
  | poll (r : PollResult)
  | registered (r : RegisterRpResponse)
  | subject (s : String)
  | verification (v : AuditDeps.Verification)
  | swept (s : SweepSummary)

/-- Return the value of `p` as a reply. -/
def H.reply {α : Type} (p : H α) (f : α → Reply) : H Reply := do
  let a ← p
  return f a

/-- The program that serves a request. -/
def handler (D : Deployment) : Request → H Reply
  | .attestationChallenge ip => (attestationChallenge D ip).reply .nonce
  | .enrolStart body ip => (start D body ip).reply .enrolled
  | .enrolActivate body => (activate body).reply .activated
  | .loginChallenge bindingId => (issueLoginChallenge D bindingId).reply .challenge
  | .login body => (login D body).reply .session
  | .revokeBinding bearer bindingId reason => (revokeBinding bearer bindingId reason).reply fun _ => .done
  | .registerPushToken bearer platform token =>
    (registerPushToken bearer platform token).reply fun _ => .done
  | .removePushToken bearer => (removePushToken bearer).reply fun _ => .done
  | .recordGrant citizenId rpId scopes source => (recordGrant citizenId rpId scopes source).reply .consent
  | .revokeConsent bearer consentId => (revokeConsent bearer consentId).reply fun _ => .done
  | .bcAuthorize creds body => (bcAuthorize D creds body).reply .started
  | .pending bearer => (pending D bearer).reply .transactions
  | .decision bearer body => (decision D bearer body).reply .decided
  | .token creds body => (token D creds body).reply .tokens
  | .userinfo bearer => (userinfo bearer).reply .userinfo
  | .introspect creds token => (introspect D creds token).reply .introspection
  | .revoke creds token => (revoke D creds token).reply fun _ => .done
  | .authorize query => (authorize D query).reply .page
  | .authorizePoll txn => (authorizePoll D txn).reply .poll
  | .registerRp bearer body => (registerRp D bearer body).reply .registered
  | .suspendRp bearer rpId => (suspendRp D bearer rpId).reply fun _ => .done
  | .provisionPairwise bearer rpId pseudoNid => (provisionPairwise D bearer rpId pseudoNid).reply .subject
  | .verifyAudit bearer => (verifyAudit D bearer).reply .verification
  | .reverifySweep bearer limit => (reverifySweep D bearer limit).reply .swept
  | .onAuditEvent event => (onAuditEvent D event).reply fun _ => .done
  | .probeSigning => probeSigning.reply fun _ => .done

/-- The broker of a deployment. -/
def broker (D : Deployment) : Machine Op Op.Res Failure Reply Request Store Oracle where
  handler := handler D
  exec := Op.exec D.engine
  fallible := Op.fallible
  env := Store.elapse
  init := Store.empty

/-- Any programs over the broker's store and its commands. The broker is one such machine. -/
def served (D : Deployment) {Req ρ : Type} (handle : Req → H ρ) :
    Machine Op Op.Res Failure ρ Req Store Oracle where
  handler := handle
  exec := Op.exec D.engine
  fallible := Op.fallible
  env := Store.elapse
  init := Store.empty

/-- The commands do the same to the store under any programs. -/
theorem served_exec (D : Deployment) {Req ρ : Type} (handle : Req → H ρ) :
    (served D handle).exec = (broker D).exec := rfl

theorem served_env (D : Deployment) {Req ρ : Type} (handle : Req → H ρ) :
    (served D handle).env = (broker D).env := rfl

/-- An entry of a run of the broker. -/
abbrev Step := Entry Op Op.Res Request Store

/-- A run of the broker, newest entry first. -/
abbrev Run := List Step

/-- A state of the broker. -/
abbrev State := Config Op Op.Res Failure Reply Store

/-- A command with its answer. -/
abbrev Cmd := Act Op Op.Res

/-! ## A deployment to run

Runs from the empty store, for the theorems that are followed by one. The digests are abbreviated to
the texts themselves, and a device's signature to one word; no result depends on either. -/

/-- A deployment in mock mode. -/
def sampleDeployment : Deployment where
  engine := ⟨⟨id, fun v => ⟨toJson v, isJson_toJson v⟩⟩, fun _ _ signature => signature == "signed"⟩
  config := { ATTESTATION_MODE := .mock, ADMIN_API_TOKEN := "admin", ANOMALY_ENABLED := false }
  base64urlSha256 := id
  pseudoNid := id
  deriveSubject salt citizenId := salt ++ citizenId
  sourceHandle := id
  decodeJwt _ := none
  parseToken _ := some (.obj [("mock", .bool true), ("deviceIntegrity", .bool true),
    ("appIntegrity", .bool true), ("hardwareBackedKey", .bool true)])

/-- A uuid of version 7. -/
def sampleUuid (d : Fin 16) : Uuid :=
  ⟨List.replicate 12 0 ++ [7] ++ List.replicate 3 0 ++ [8] ++ List.replicate 14 0 ++ [d], rfl⟩

/-- A text of 16 random bytes in base64url. -/
def sampleId (c : Char) : String := String.ofList (List.replicate 22 c)

/-- A text of 32 random bytes in base64url. -/
def sampleSecret (c : Char) : String := String.ofList (List.replicate 43 c)

/-- The choices of a scheduler, oldest first. -/
abbrev Script := List (Move Request Oracle)

/-- The next commands of call `t`, each with what the environment decides. -/
def Script.go (t : ℕ) (is : List Oracle) : Script := is.map (Move.go t)

/-- An id of an audit row. -/
def sampleRowId : Oracle := .uuid (sampleUuid 0)

/-- Call `t` starts an enrolment of the citizen 1 with a new binding; `counts` are the commands that
count it. -/
def sampleEnrolment (t : ℕ) (counts : List Oracle) (binding : Fin 16) (k n : Char) : Script :=
  .arrive (.enrolStart {
    nid := "1199080012345678"
    devicePublicKeyJwk := ⟨"EC", "P-256", "x", "y"⟩
    attestation := { platform := .sim, token := "mock", keyAttestation := some "key", nonceId := none }
    deviceLabel := "phone"
    sample := ⟨.face, "face"⟩ } "10.0.0.1") ::
  Script.go t (counts ++ [.reference (.ok ⟨"face", "sdid-subject", "ref"⟩), .matched ⟨true, .high, true⟩,
    sampleRowId, .uuid (sampleUuid 1), .unit, .unit, .unit, .uuid (sampleUuid binding), .unit,
    sampleRowId, .text (sampleId k), .text (sampleSecret n), .unit, .unit])

/-- Call `t` activates a binding with the challenge `k`, up to its update. -/
def sampleActivation (t : ℕ) (binding : Fin 16) (k : Char) : Script :=
  .arrive (.enrolActivate ⟨(sampleUuid binding).text, sampleId k, "signed"⟩) ::
  Script.go t [.unit, .unit, .unit, .unit]

/-- The first enrolment of the citizen, with the binding 2: calls 0 and 1. -/
def sampleDevice : Script :=
  sampleEnrolment 0 [.unit, .unit, .unit, .unit, .unit] 2 'A' 'B' ++ sampleActivation 1 2 'A' ++
    Script.go 1 [.unit, sampleRowId]

/-- Calls `t` and `t + 1` log the binding 2 in, up to re-verification. -/
def sampleLogin (t : ℕ) (binding : Fin 16) (k n : Char) : Script :=
  .arrive (.loginChallenge (sampleUuid binding).text) ::
  Script.go t [.unit, .unit, .text (sampleId k), .text (sampleSecret n), .unit, .unit, sampleRowId] ++
  .arrive (.login ⟨(sampleUuid binding).text, sampleId k, "signed"⟩) ::
  Script.go (t + 1) [.unit, .unit, .unit, .unit, .unit]

/-- The first device and its session: calls 0 to 3. -/
def sampleSession : Script :=
  sampleDevice ++ sampleLogin 2 2 'C' 'D' ++
    Script.go 3 [.unit, .unit, sampleRowId, .token "session" "jti"]

end SdidBridge
