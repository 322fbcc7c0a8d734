import SdidBridge.Broker.Machine

/-!
# The paths of the handlers

What holds along every path through a handler, whatever the store answers: what a call has read and
checked before each command that matters (`Follows`), what comes right after a command that has to
be audited (`Next`), and how a call ends (`EndsOn`). The three are proved once for each handler;
everything that is later said about the calls of a run comes from `paths`.

Most commands are plain: nothing is said about what precedes or follows them. A program of plain
commands only adds to the path (`Only.calm`), which keeps the proofs of the handlers short.
-/

namespace SdidBridge

open Concurrent Prog

/-- The commands that a call has executed, newest first. -/
abbrev Path := List Cmd

/-! ## What precedes a command -/

/-- The guard has accepted a session of the citizen and the binding. -/
def SessionOn (h : Path) (citizenId bindingId : String) : Prop :=
  ∃ token j, (⟨.jwt (.verify token (some DEVICE_SESSION_AUDIENCE)), some j⟩ : Cmd) ∈ h ∧
    j.claims.sub = some citizenId ∧ j.claims.binding_id = some bindingId

/-- The call has read the row of a relying party. -/
def ReadsRp (h : Path) (rp : RelyingParty) : Prop :=
  (∃ clientId, (⟨.rp (.selectByClientId clientId), some (some rp)⟩ : Cmd) ∈ h) ∨
    ∃ id, (⟨.rp (.select id), some (some rp)⟩ : Cmd) ∈ h

/-- The call has read a row of a binding. -/
def ReadsBinding (h : Path) (id : String) (binding : DeviceBinding) : Prop :=
  (⟨.binding (.select id), some (some binding)⟩ : Cmd) ∈ h

/-- The call has read a row of a transaction. -/
def ReadsTxn (h : Path) (authReqId : String) (txn : AuthTransaction) : Prop :=
  (⟨.txn (.select authReqId), some (some txn)⟩ : Cmd) ∈ h

/-- The subject that `subjectFor` returns: the stored one, or the derived one. -/
def SubjectOn (D : Deployment) (h : Path) (citizenId : Uuid) (rp : RelyingParty) (sub : String) :
    Prop :=
  (∃ row, (⟨.subject (.select citizenId rp.id), some (some row)⟩ : Cmd) ∈ h ∧ row.subject = sub) ∨
    sub = D.deriveSubject rp.pairwiseSalt citizenId.text

/-- The call has consumed the approved transaction that it read, and has read its binding. -/
structure ConsumesOn (h : Path) (authReqId : String) (txn : AuthTransaction)
    (binding : DeviceBinding) : Prop where
  /-- The transaction was read. -/
  read : ReadsTxn h authReqId txn
  /-- It was approved. -/
  approved : txn.status = .approved
  /-- Its binding was read. -/
  binding : ∃ id, txn.deviceBindingId = some id ∧ ReadsBinding h id.text binding
  /-- It was consumed. -/
  consumed : ∃ n, n ≠ 0 ∧ (⟨.txn (.consume txn.id), some n⟩ : Cmd) ∈ h

/-- What a CIBA grant has done before it signs for `sub` at the level `acr`. -/
def CibaMintOn (D : Deployment) (h : Path) (body : TokenRequest) (sub : String)
    (acr : AssuranceLevel) : Prop :=
  body.grant_type = CIBA_GRANT_TYPE ∧ ∃ rp authReqId txn binding, ReadsRp h rp ∧
    body.auth_req_id = some authReqId ∧ ConsumesOn h authReqId txn binding ∧ txn.rpId = rp.id ∧
    acr = binding.assuranceLevel ∧ SubjectOn D h txn.citizenId rp sub

/-- What a redemption has done before it signs for `sub` at the level `acr`. -/
def CodeMintOn (D : Deployment) (h : Path) (body : TokenRequest) (sub : String)
    (acr : AssuranceLevel) : Prop :=
  body.grant_type = "authorization_code" ∧ ∃ rp code row, ReadsRp h rp ∧ body.code = some code ∧
    (⟨.code (.select (D.sha256Hex code)), some (some row)⟩ : Cmd) ∈ h ∧
    (∃ now n, n ≠ 0 ∧ (⟨.code (.consume row.codeHash now), some n⟩ : Cmd) ∈ h) ∧
    row.rpId = rp.id ∧ acr = row.assurance ∧ SubjectOn D h row.citizenId rp sub ∧
    body.redirect_uri = some row.redirectUri ∧
    ∃ verifier, body.code_verifier = some verifier ∧ D.base64urlSha256 verifier = row.codeChallenge

/-- What precedes a signature: a login signs a session, a grant signs one token of each use, and a probe signs one
that says nothing else. -/
def SignsOn (D : Deployment) (q : Request) (h : Path) (claims : TokenClaims) : Prop :=
  match q with
  | .login body => ∃ binding, ReadsBinding h body.bindingId binding ∧ claims = sessionClaims binding
  | .token _ body => claims.binding_id = none ∧
      (∀ claims' aud ttl r, (⟨.jwt (.sign claims' aud ttl), r⟩ : Cmd) ∈ h →
        claims'.token_use ≠ claims.token_use) ∧
      ∃ sub acr, claims.sub = some sub ∧ claims.acr = some acr ∧
        (CibaMintOn D h body sub acr ∨ CodeMintOn D h body sub acr)
  | .probeSigning => claims = probeClaims
  | _ => False

/-- What precedes a challenge: its id and its nonce are drawn, and one for a transaction is issued to
a session of the binding. -/
def IssuesOn (q : Request) (h : Path) (challengeId : String) (record : ChallengeRecord) : Prop :=
  (∃ h', h = ⟨.ambient (.randomBytes 32 .base64url), some record.nonce⟩ ::
    ⟨.ambient (.randomBytes 16 .base64url), some challengeId⟩ :: h') ∧
  ∀ authReqId, record.purpose = cibaPurpose authReqId →
    ∃ bearer citizenId, q = .pending bearer ∧ SessionOn h citizenId record.bindingId

/-- What a decision has read and checked before it updates its transaction. -/
structure DecisionOn (h : Path) (body : CibaDecisionRequest) (txn : AuthTransaction)
    (binding : DeviceBinding) : Prop where
  /-- The session is one of the transaction's citizen, and of the binding. -/
  session : SessionOn h txn.citizenId.text body.bindingId
  /-- The transaction was read. -/
  readTxn : ReadsTxn h body.authReqId txn
  /-- The binding was read. -/
  readBinding : ReadsBinding h body.bindingId binding
  /-- It was active. -/
  active : binding.status = .active
  /-- The binding meets the level asked for. -/
  meets : alMeets binding.assuranceLevel txn.requestedAl = true
  /-- A challenge of the transaction was consumed, and its signature accepted. -/
  signed : ∃ record, (⟨.challenge (.getdel body.challengeId), some (some record)⟩ : Cmd) ∈ h ∧
    record.purpose = cibaPurpose body.authReqId ∧ record.bindingId = body.bindingId ∧
    (⟨.service (.verifySignature binding.devicePubkeyJwk (buildChallengePayload
      (body.decision.purpose body.authReqId) body.challengeId record.nonce) body.signature),
      some true⟩ : Cmd) ∈ h

/-- What precedes the update of a decision. -/
def ResolvesOn (q : Request) (h : Path) (id : Uuid) (d : Decision) (bindingId : Uuid) : Prop :=
  ∃ bearer body txn binding, q = .decision bearer body ∧ DecisionOn h body txn binding ∧
    id = txn.id ∧ d = body.decision ∧ bindingId = binding.id

/-- The path has no code on it. -/
def NoCode (h : Path) : Prop := ∀ row r, (⟨.code (.insert row), r⟩ : Cmd) ∉ h

/-- What precedes an authorization code. -/
def IssuesCodeOn (q : Request) (h : Path) (row : AuthorizationCode) : Prop :=
  NoCode h ∧
  ∃ authReqId txn binding, q = .authorizePoll (some authReqId) ∧
    ConsumesOn h authReqId txn binding ∧ row.citizenId = txn.citizenId ∧ row.rpId = txn.rpId ∧
    row.assurance = binding.assuranceLevel ∧ row.scopes = txn.scopes ∧ txn.flow = .code ∧
    ∃ stash, (⟨.stash (.get authReqId), some (some stash)⟩ : Cmd) ∈ h ∧
      row.redirectUri = stash.redirectUri ∧ row.codeChallenge = stash.codeChallenge

/-- What precedes a transaction: its request id was drawn, and the row of its relying party was read
and admits it. An authorization request without a level asks for `AL2`, which is not compared. -/
def StartsOn (q : Request) (h : Path) (authReqId : String) (rpId : Uuid) (flow : Flow)
    (scopes : List String) (al : AssuranceLevel) : Prop :=
  (⟨.ambient (.randomBytes 32 .base64url), some authReqId⟩ : Cmd) ∈ h ∧
  ∃ rp, ReadsRp h rp ∧ rp.id = rpId ∧ rp.status = .active ∧ flow ∈ rp.allowedFlows ∧
    scopes.all (· ∈ rp.allowedScopes) = true ∧
    match q with
    | .bcAuthorize _ body =>
      flow = .ciba ∧ scopes = splitScopes body.scope ∧ alMeets rp.maxAssurance al = true
    | .authorize query => flow = .code ∧ scopes = splitScopes query.scope ∧
        query.redirect_uri ∈ rp.redirectUris ∧ (query.acr_values = none ∧ al = .AL2 ∨
          query.acr_values ≠ none ∧ alMeets rp.maxAssurance al = true)
    | _ => False

/-- What precedes a stash: the transaction of the same authorization request. -/
def StashesOn (q : Request) (h : Path) (authReqId : String) (stash : CodeFlowStash) : Prop :=
  ∃ query, q = .authorize query ∧ stash.redirectUri = query.redirect_uri ∧
    stash.codeChallenge = query.code_challenge ∧
    (⟨.ambient (.randomBytes 32 .base64url), some authReqId⟩ : Cmd) ∈ h

/-- What precedes a binding: its id was drawn, after the live bindings of its citizen were counted. -/
def CountsOn (h : Path) (id citizenId : Uuid) : Prop :=
  ∃ n h', h = [⟨.ambient .uuidv7, some id⟩] ++ ⟨.binding (.countLive citizenId), some n⟩ :: h' ∧
    n < MAX_ACTIVE_BINDINGS

/-- What precedes an entry of the denylist: a relying party revokes a text that names it as an
audience, whoever signed it. -/
def DeniesOn (D : Deployment) (q : Request) (h : Path) (key : String) (ttl : ℕ) : Prop :=
  ∃ creds token payload rp jti now h', q = .revoke (some creds) token ∧
    (truthy token).bind D.decodeJwt = some payload ∧
    (⟨.rp (.selectByClientId creds.clientId), some (some rp)⟩ : Cmd) ∈ h ∧ payload.jti = some jti ∧
    rp.clientId ∈ payload.aud ∧ key = "revoked:" ++ jti ∧ h = ⟨.ambient .now, some now⟩ :: h' ∧
    ttl = (max (payload.exp.getD 0 - (now / 1000 : ℕ)) 1).toNat

/-- What precedes a stored subject: the row of the relying party that it is derived for. -/
def DerivesOn (D : Deployment) (h : Path) (row : PairwiseSubject) : Prop :=
  ∃ rp, ReadsRp h rp ∧ row.rpId = rp.id ∧
    row.subject = D.deriveSubject rp.pairwiseSalt row.citizenId.text

/-- Who a login or a decision re-verifies: the citizen of its binding. -/
def ReverifiesOn (q : Request) (h : Path) (citizenId : String) : Prop :=
  match q with
  | .login body => ∃ binding, ReadsBinding h body.bindingId binding ∧ citizenId = binding.citizenId.text
  | .decision _ body => SessionOn h citizenId body.bindingId
  | _ => True

/-- SDID has just answered that an identity is invalid. -/
def RefutedOn (h : Path) : Prop :=
  ∃ subject result h', h = ⟨.service (.reassert subject), some result⟩ :: h' ∧ result.valid = false

/-- The citizen has just been suspended, after SDID answered that the identity is invalid. -/
def SuspendedOn (h : Path) (citizenId : String) : Prop :=
  ∃ now h', h = ⟨.citizen (.suspend citizenId now), some ()⟩ :: h' ∧ RefutedOn h'

/-- The action that a decision is audited as. -/
def Decision.action : Decision → AuditAction
  | .approve => .cibaRequestApproved
  | .deny => .cibaRequestDenied

/-- What precedes the event of a decision: the update of that decision, which was answered. -/
def AuditsOn (q : Request) (h : Path) (event : AuditEventInput) : Prop :=
  event.action = .cibaRequestApproved ∨ event.action = .cibaRequestDenied →
    ∃ bearer body id bindingId now suspicious n h', q = .decision bearer body ∧
      event.action = body.decision.action ∧
      h = ⟨.txn (.resolve id body.decision bindingId now suspicious), some n⟩ :: h'

/-- What precedes a command on the path of a request. -/
def Follows (D : Deployment) (q : Request) (h : Path) : Op → Prop
  | .jwt (.sign claims _ _) => SignsOn D q h claims
  | .challenge (.set challengeId record _) => IssuesOn q h challengeId record
  | .stash (.set authReqId stash _) => StashesOn q h authReqId stash
  | .flag (.set key ttl) => DeniesOn D q h key ttl
  | .citizen (.select citizenId) => ReverifiesOn q h citizenId
  | .citizen (.suspend _ _) => RefutedOn h
  | .binding (.insert id citizenId _ _ _ _) => CountsOn h id citizenId
  | .binding (.revokeActiveOf citizenId _ _) => SuspendedOn h citizenId
  | .rp (.insert row) => row.status = .active
  | .subject (.insert row) => DerivesOn D h row
  | .txn (.insert _ authReqId _ rpId flow scopes al _ _) => StartsOn q h authReqId rpId flow scopes al
  | .txn (.resolve id d bindingId _ _) => ResolvesOn q h id d bindingId
  | .code (.insert row) => IssuesCodeOn q h row
  | .audit (.append event) => AuditsOn q h event
  | _ => True

/-! ## What comes right after a command -/

/-- Whether a request is one whose re-verification refuses it. -/
def Request.reverifies : Request → Bool
  | .login _ => true
  | .decision _ _ => true
  | _ => false

/-- What the command right after a command is: a change that has to be audited is followed by its
event, an invalid identity by the suspension of the citizen that was read and the revocation of their
bindings, and a login or a decision of a citizen who is not active issues no further command. -/
def Next (q : Request) (a : Cmd) (h : Path) (o : Op) : Prop :=
  match a with
  | ⟨.service (.reassert _), some result⟩ => result.valid = false →
      ∃ citizenId c h' now, h = ⟨.citizen (.select citizenId), some (some c)⟩ :: h' ∧
        o = .citizen (.suspend citizenId now)
  | ⟨.citizen (.suspend citizenId _), some _⟩ =>
    ∃ now reason, o = .binding (.revokeActiveOf citizenId now reason)
  | ⟨.citizen (.select _), some (some c)⟩ => q.reverifies = true → c.status = .active
  | ⟨.binding (.activate id _), some _⟩ =>
    ∃ b, ReadsBinding h id b ∧ o = .audit (.append (bindingActivatedEvent b))
  | ⟨.binding (.revoke id _ reason), some _⟩ =>
    ∃ citizenId, o = .audit (.append (deviceRevokedEvent citizenId id reason))
  | ⟨.binding (.revokeActiveOf citizenId _ _), some _⟩ =>
    ∃ bindingId trigger ref, o = .audit (.append (reassertInvalidEvent citizenId bindingId trigger ref))
  | ⟨.rp (.suspend id), some n⟩ => n ≠ 0 → o = .audit (.append (rpSuspendedEvent id))
  | ⟨.txn (.resolve id d bindingId _ suspicious), some _⟩ => ∃ authReqId txn b, ReadsTxn h authReqId txn ∧
      txn.id = id ∧ b.id = bindingId ∧ o = .audit (.append (decisionEvent txn b d suspicious))
  | ⟨.txn (.expire id), some n⟩ => n ≠ 0 → ∃ authReqId rp txn, ReadsTxn h authReqId txn ∧ txn.id = id ∧
      txn.rpId = rp.id ∧ o = .audit (.append (requestExpiredEvent rp txn))
  | ⟨.consent (.insert _ citizenId rpId _ _), some _⟩ =>
    ∃ context, o = .audit (.append (consentGrantedEvent citizenId rpId context))
  | ⟨.consent (.revoke id _), some _⟩ =>
    ∃ citizenId rpId, o = .audit (.append (consentRevokedEvent citizenId rpId id))
  | _ => True

/-- `Next` at the head of a path. -/
def After (q : Request) (h : Path) (o : Op) : Prop :=
  match h with
  | [] => True
  | a :: h => Next q a h o

/-! ## How a call ends -/

/-- How a call ends right after a command: never on a change that has to be audited, nor between the
steps of a suspension, and with the refusal of re-verification after a citizen who is not active. -/
def Last (q : Request) (a : Cmd) (r : Except Failure Reply) : Prop :=
  match a with
  | ⟨.service (.reassert _), some result⟩ => result.valid = true
  | ⟨.citizen (.suspend _ _), some _⟩ => False
  | ⟨.citizen (.select _), some (some c)⟩ =>
    q.reverifies = true → c.status = .active ∨ r = .error cannotReassert
  | ⟨.binding (.activate _ _), some _⟩ => False
  | ⟨.binding (.revoke _ _ _), some _⟩ => False
  | ⟨.binding (.revokeActiveOf _ _ _), some _⟩ => False
  | ⟨.rp (.suspend _), some n⟩ => n = 0
  | ⟨.txn (.resolve _ _ _ _ _), some _⟩ => False
  | ⟨.txn (.expire _), some n⟩ => n = 0
  | ⟨.consent (.insert _ _ _ _ _), some _⟩ => False
  | ⟨.consent (.revoke _ _), some _⟩ => False
  | _ => True

/-- `Last` at the head of a path. -/
def LastOn (q : Request) (h : Path) (r : Except Failure Reply) : Prop :=
  match h with
  | [] => True
  | a :: _ => Last q a r

/-- A decision that returns has been stored, as far as its update was answered. -/
def Decided (h : Path) (q : Request) : Except Failure Reply → Prop
  | .ok (.decided status) => ∃ bearer body id bindingId now suspicious n, q = .decision bearer body ∧
      status = body.decision.status ∧
      (⟨.txn (.resolve id body.decision bindingId now suspicious), some n⟩ : Cmd) ∈ h
  | _ => True

/-- How a call ends. -/
def EndsOn (q : Request) (h : Path) (r : Except Failure Reply) : Prop := LastOn q h r ∧ Decided h q r

/-- What holds at each command of a path. -/
def OnPath (D : Deployment) (q : Request) (h : Path) (o : Op) : Prop := Follows D q h o ∧ After q h o

/-! ## Plain commands -/

/-- The commands after which any command can come, and the call can end. -/
@[reducible] def Op.settles : Op → Bool
  | .service (.reassert _) => false
  | .citizen (.suspend _ _) => false
  | .citizen (.select _) => false
  | .binding (.activate _ _) => false
  | .binding (.revoke _ _ _) => false
  | .binding (.revokeActiveOf _ _ _) => false
  | .rp (.suspend _) => false
  | .txn (.resolve _ _ _ _ _) => false
  | .txn (.expire _) => false
  | .consent (.insert _ _ _ _ _) => false
  | .consent (.revoke _ _) => false
  | _ => true

/-- The commands of which nothing is said. -/
@[reducible] def Op.plain : Op → Bool
  | .jwt (.sign _ _ _) => false
  | .service (.reassert _) => false
  | .challenge (.set _ _ _) => false
  | .stash (.set _ _ _) => false
  | .flag (.set _ _) => false
  | .citizen (.select _) => false
  | .citizen (.suspend _ _) => false
  | .binding (.insert _ _ _ _ _ _) => false
  | .binding (.activate _ _) => false
  | .binding (.revoke _ _ _) => false
  | .binding (.revokeActiveOf _ _ _) => false
  | .rp (.insert row) => row.status == .active
  | .rp (.suspend _) => false
  | .subject (.insert _) => false
  | .txn (.insert _ _ _ _ _ _ _ _ _) => false
  | .txn (.resolve _ _ _ _ _) => false
  | .txn (.expire _) => false
  | .code (.insert _) => false
  | .consent (.insert _ _ _ _ _) => false
  | .consent (.revoke _ _) => false
  | .audit (.append event) =>
    event.action != .cibaRequestApproved && event.action != .cibaRequestDenied
  | _ => true

theorem Op.plain_follows {o : Op} (ho : o.plain = true) (D : Deployment) (q : Request) (h : Path) :
    Follows D q h o := by
  unfold Follows
  split <;> simp_all [Op.plain, AuditsOn]

theorem Op.plain_settles {o : Op} (ho : o.plain = true) : o.settles = true := by
  unfold Op.plain at ho
  unfold Op.settles
  split <;> simp_all

theorem Op.settles_next {o : Op} (ho : o.settles = true) (q : Request) (r : Option o.Res) (h : Path)
    (o' : Op) : Next q ⟨o, r⟩ h o' := by
  unfold Next
  split <;> simp_all [Op.settles]

theorem Op.settles_last {o : Op} (ho : o.settles = true) (q : Request) (r : Option o.Res)
    (r' : Except Failure Reply) : Last q ⟨o, r⟩ r' := by
  unfold Last
  split <;> simp_all [Op.settles]

/-- A path after which any command can come, and the call can end. -/
structure Calm (q : Request) (h : Path) : Prop where
  /-- Any command can come. -/
  after : ∀ o, After q h o
  /-- The call can end. -/
  last : ∀ r, LastOn q h r

@[simp] theorem calm_nil {q : Request} : Calm q [] := ⟨fun _ => trivial, fun _ => trivial⟩

/-- A path is calm after a command that settles. -/
@[simp] theorem calm_cons {q : Request} {o : Op} {r : Option o.Res} {h : Path}
    (ho : o.settles = true) : Calm q (⟨o, r⟩ :: h) :=
  ⟨fun o' => o.settles_next ho q r h o', fun r' => o.settles_last ho q r r'⟩

/-- A path is calm after a command that failed. -/
@[simp] theorem calm_failed {q : Request} {o : Op} {h : Path} : Calm q (⟨o, none⟩ :: h) :=
  ⟨fun o' => by simp [After, Next], fun r' => by simp [LastOn, Last]⟩

/-- Where a call that does not re-verify can end, it can also go on. -/
theorem calm_of_last {q : Request} {h : Path} {r : Except Failure Reply} (hq : q.reverifies = false)
    (hl : LastOn q h r) : Calm q h := by
  cases h with
  | nil => exact calm_nil
  | cons a h =>
    refine ⟨fun o => ?_, fun r' => ?_⟩
    · simp only [LastOn, After] at hl ⊢
      unfold Last at hl
      unfold Next
      split at hl <;> simp_all
    · simp only [LastOn] at hl ⊢
      unfold Last at hl ⊢
      split at hl <;> simp_all

theorem Calm.throws {q : Request} {h : Path} (hc : Calm q h) (e : Failure) :
    EndsOn q h (.error e) := ⟨hc.last _, trivial⟩

/-! ## What a program returns

Of a call that throws nothing has to be said here: `Yields` is about the paths that return. -/

/-- `Φ` holds at each command of the program `p` after `h`, and `Q` of what `p` returns. -/
def Yields {α : Type} (Φ : Path → Op → Prop) (h : Path) (p : H α) (Q : α → Path → Prop) : Prop :=
  Along Φ (fun h' r => match r with
    | .ok a => Q a h'
    | .error _ => True) h p

section Yields

variable {α β : Type} {Φ : Path → Op → Prop} {h : Path} {Q : α → Path → Prop}

theorem Yields.mono {Q' : α → Path → Prop} {p : H α} (hp : Yields Φ h p Q)
    (hQ : ∀ a h', Q a h' → Q' a h') : Yields Φ h p Q' := by
  refine Along.mono hp (fun _ _ h => h) fun h' r hr => ?_
  cases r with
  | ok a => exact hQ a h' hr
  | error e => trivial

theorem Yields.and {Q' : α → Path → Prop} {p : H α} (hp : Yields Φ h p Q) (hp' : Yields Φ h p Q') :
    Yields Φ h p fun a h' => Q a h' ∧ Q' a h' := by
  refine (Along.and hp hp').mono (fun _ _ h => h.1) fun h' r hr => ?_
  cases r with
  | ok a => exact hr
  | error e => trivial

@[simp] theorem yields_pure (a : α) : Yields Φ h (pure a : H α) Q ↔ Q a h := Iff.rfl

@[simp] theorem yields_throwing (e : Failure) : Yields Φ h (throwing e : H α) Q := trivial

@[simp] theorem yields_refuse (code : ErrorCode) (message : String) (httpStatus : ℕ) :
    Yields Φ h (refuse code message httpStatus : H α) Q := trivial

@[simp] theorem yields_bind {R : β → Path → Prop} (p : H α) (f : α → H β) :
    Yields Φ h (p >>= f) R ↔ Yields Φ h p fun a h' => Yields Φ h' (f a) R := by
  unfold Yields
  rw [along_bind]
  constructor <;> intro hp <;> refine Along.mono hp (fun _ _ h => h) fun h' r hr => ?_ <;>
    cases r <;> exact hr

/-- What a handler replies with. -/
theorem Yields.reply {p : H α} {f : α → Reply} (hp : Yields Φ h p Q) :
    Yields Φ h (p.reply f) fun r h' => ∃ a, r = f a ∧ Q a h' := by
  rw [H.reply, yields_bind]
  exact hp.mono fun a h' hQ => ⟨a, rfl, hQ⟩

@[simp] theorem yields_throwIf {Q : Unit → Path → Prop} (c : Prop) [Decidable c] (e : Failure) :
    Yields Φ h (throwIf c e) Q ↔ (¬ c → Q () h) := by
  simp [Yields]

@[simp] theorem yields_orThrow (x : Option α) (e : Failure) :
    Yields Φ h (orThrow x e) Q ↔ ∀ a, x = some a → Q a h := by
  simp [Yields]

@[simp] theorem yields_ite (c : Prop) [Decidable c] (p p' : H α) :
    Yields Φ h (if c then p else p') Q ↔ (c → Yields Φ h p Q) ∧ (¬ c → Yields Φ h p' Q) := by
  simp [Yields]

@[simp] theorem yields_onlyIf {Q : Unit → Path → Prop} (c : Prop) [Decidable c] (p : H Unit) :
    Yields Φ h (onlyIf c p) Q ↔ (c → Yields Φ h p Q) ∧ (¬ c → Q () h) := by
  simp [Yields]

@[simp] theorem yields_await {o : Op} {Q : o.Res → Path → Prop} :
    Yields (α := no_index o.Res) Φ h (await o) Q ↔ Φ h o ∧ ∀ r, Q r (⟨o, some r⟩ :: h) := by
  simp [Yields, await]

@[simp] theorem yields_newDate {Q : Time → Path → Prop} :
    Yields Φ h newDate Q ↔ Φ h (.ambient .now) ∧ ∀ t, Q t (⟨.ambient .now, some t⟩ :: h) :=
  yields_await (o := .ambient .now)

@[simp] theorem yields_uuidv7 {Q : Uuid → Path → Prop} :
    Yields Φ h uuidv7 Q ↔ Φ h (.ambient .uuidv7) ∧ ∀ u, Q u (⟨.ambient .uuidv7, some u⟩ :: h) :=
  yields_await (o := .ambient .uuidv7)

@[simp] theorem yields_randomBytes {Q : String → Path → Prop} {n : ℕ} {e : Encoding} :
    Yields Φ h (randomBytes n e) Q ↔ Φ h (.ambient (.randomBytes n e)) ∧
      ∀ x, Q x (⟨.ambient (.randomBytes n e), some x⟩ :: h) :=
  yields_await (o := .ambient (.randomBytes n e))

@[simp] theorem yields_auditAppend {Q : Unit → Path → Prop} {event : AuditEventInput} :
    Yields Φ h (auditAppend event) Q ↔ Φ h (.audit (.append event)) ∧
      Q () (⟨.audit (.append event), some ()⟩ :: h) := by
  unfold auditAppend
  rw [yields_await]
  exact and_congr_right fun _ => ⟨fun hQ => hQ (), fun hQ _ => hQ⟩

/-- A command whose failure is caught. -/
@[simp] theorem yields_await_recover {o : Op} {Q : o.Res → Path → Prop} {f : Failure → H o.Res} :
    Yields (α := no_index o.Res) Φ h ((await o).recover f) Q ↔ Φ h o ∧
      Yields Φ (⟨o, none⟩ :: h) (f .internal) Q ∧ ∀ r, Q r (⟨o, some r⟩ :: h) := by
  simp [Yields, await]

/-- A program whose failure is answered by another one. -/
theorem yields_recover_throwing {p : H α} {f : Failure → Failure} :
    Yields Φ h (p.recover fun e => throwing (f e)) Q ↔ Yields Φ h p Q := by
  unfold Yields
  rw [along_recover]
  constructor <;> intro hp <;> refine Along.mono hp (fun _ _ h => h) fun h' r hr => ?_ <;>
    cases r <;> first | exact hr | trivial

/-- A program only adds to the path. -/
theorem yields_suffix (p : H α) : Yields (fun _ _ => True) h p fun _ h' => h <:+ h' := by
  unfold Yields
  have hp : Along (fun _ _ => True) (fun h' _ => h <:+ h') h p := by
    suffices hs : ∀ h', h <:+ h' → Along (fun _ _ => True) (fun h' _ => h <:+ h') h' p from
      hs h List.suffix_rfl
    induction p with
    | ret a => exact fun _ hs => hs
    | raise e => exact fun _ hs => hs
    | call o k ih => exact fun h' hs => ⟨trivial, fun r => ih r _ (hs.trans (List.suffix_cons _ _))⟩
  refine hp.mono (fun _ _ h => h) fun h' r hs => ?_
  cases r with
  | ok a => exact hs
  | error e => trivial

/-- A program whose commands all meet `C` keeps what such commands keep. -/
theorem Only.yields {C : Op → Prop} {J : Path → Prop} {p : H α} (hp : p.Only C)
    (hJ : ∀ h o, J h → C o → Φ h o ∧ ∀ r, J (⟨o, r⟩ :: h)) (h₀ : J h) :
    Yields Φ h p fun _ h' => J h' := by
  refine (hp.along hJ h₀).mono (fun _ _ h => h) fun h' r hr => ?_
  cases r with
  | ok a => exact hr
  | error e => trivial

/-- A program's commands and what it returns, as a path through it. -/
theorem Yields.along {p : H α} (hp : Yields Φ h p Q) :
    Along Φ (fun h' r => ∀ a, r = .ok a → Q a h') h p := by
  refine Along.mono hp (fun _ _ h => h) fun h' r hr a ha => ?_
  subst ha
  exact hr

end Yields

/-! ## Where a program throws

`Throws` is about the paths on which a program throws one failure; of its other failures nothing is
said. -/

/-- `E` holds where the program `p` throws `e` after `h`, and `Q` of what `p` returns. -/
def Throws {α : Type} (e : Failure) (h : Path) (p : H α) (E : Path → Prop) (Q : α → Path → Prop) : Prop :=
  Along (fun _ _ => True) (fun h' r => match r with
    | .ok a => Q a h'
    | .error e' => e' = e → E h') h p

section Throws

variable {α β : Type} {e e' : Failure} {h : Path} {E : Path → Prop} {Q : α → Path → Prop}

@[simp] theorem throws_pure (a : α) : Throws e h (pure a : H α) E Q ↔ Q a h := Iff.rfl

@[simp] theorem throws_bind {R : β → Path → Prop} (p : H α) (f : α → H β) :
    Throws e h (p >>= f) E R ↔ Throws e h p E fun a h' => Throws e h' (f a) E R := by
  unfold Throws
  rw [along_bind]
  constructor <;> intro hp <;> refine Along.mono hp (fun _ _ h => h) fun h' r hr => ?_ <;>
    cases r <;> exact hr

theorem throws_throwing (he : e' ≠ e) : Throws e h (throwing e' : H α) E Q :=
  fun heq => absurd heq he

theorem throws_throwIf {Q : Unit → Path → Prop} (c : Prop) [Decidable c] :
    Throws e h (throwIf c e') E Q ↔ (c → e' = e → E h) ∧ (¬ c → Q () h) := by
  simp [Throws]

theorem throws_orThrow {x : Option α} (he : e' ≠ e) :
    Throws e h (orThrow x e') E Q ↔ ∀ a, x = some a → Q a h := by
  simp [Throws, he]

theorem throws_await {o : Op} {Q : o.Res → Path → Prop} (he : .internal ≠ e) :
    Throws (α := no_index o.Res) e h (await o) E Q ↔ ∀ r, Q r (⟨o, some r⟩ :: h) := by
  simp [Throws, await, he]

theorem throws_await_recover {o : Op} {Q : o.Res → Path → Prop} {f : Failure → H o.Res} :
    Throws (α := no_index o.Res) e h ((await o).recover f) E Q ↔
      Throws e (⟨o, none⟩ :: h) (f .internal) E Q ∧ ∀ r, Q r (⟨o, some r⟩ :: h) := by
  simp [Throws, await]

/-- Where a program throws, as a path through it. -/
theorem Throws.along {p : H α} (hp : Throws e h p E Q) :
    Along (fun _ _ => True) (fun h' r => r = .error e → E h') h p := by
  refine Along.mono hp (fun _ _ h => h) fun h' r hr heq => ?_
  subst heq
  exact hr rfl

end Throws

/-! ## The calculus of the paths -/

/-- The paths of the request `q` through the program `p`, after `h`: they are as they have to be, and
`Q` holds of what `p` returns. -/
def Thread {α : Type} (D : Deployment) (q : Request) (h : Path) (p : H α) (Q : α → Path → Prop) :
    Prop :=
  Along (OnPath D q) (fun h' r => match r with
    | .ok a => Q a h'
    | .error e => EndsOn q h' (.error e)) h p

section Thread

variable {α β : Type} {D : Deployment} {q : Request} {h : Path} {Q : α → Path → Prop}

theorem Thread.mono {Q' : α → Path → Prop} {p : H α} (hp : Thread D q h p Q)
    (hQ : ∀ a h', Q a h' → Q' a h') : Thread D q h p Q' := by
  refine Along.mono hp (fun _ _ h => h) fun h' r hr => ?_
  cases r with
  | ok a => exact hQ a h' hr
  | error e => exact hr

@[simp] theorem thread_pure (a : α) : Thread D q h (pure a : H α) Q ↔ Q a h := Iff.rfl

@[simp] theorem thread_bind {R : β → Path → Prop} (p : H α) (f : α → H β) :
    Thread D q h (p >>= f) R ↔ Thread D q h p fun a h' => Thread D q h' (f a) R := by
  unfold Thread
  rw [along_bind]
  constructor <;> intro hp <;> refine Along.mono hp (fun _ _ h => h) fun h' r hr => ?_ <;>
    cases r <;> exact hr

@[simp] theorem thread_throwing (e : Failure) (hc : Calm q h) :
    Thread D q h (throwing e : H α) Q := hc.throws e

theorem thread_throwIf_of {Q : Unit → Path → Prop} {c : Prop} [Decidable c] {e : Failure}
    (he : EndsOn q h (.error e)) : Thread D q h (throwIf c e) Q ↔ (¬ c → Q () h) := by
  simp [Thread, he]

theorem thread_orThrow_of {x : Option α} {e : Failure} (he : EndsOn q h (.error e)) :
    Thread D q h (orThrow x e) Q ↔ ∀ a, x = some a → Q a h := by
  simp [Thread, he]

@[simp] theorem thread_throwIf {Q : Unit → Path → Prop} (c : Prop) [Decidable c] (e : Failure)
    (hc : Calm q h) : Thread D q h (throwIf c e) Q ↔ (¬ c → Q () h) :=
  thread_throwIf_of (hc.throws e)

@[simp] theorem thread_orThrow (x : Option α) (e : Failure) (hc : Calm q h) :
    Thread D q h (orThrow x e) Q ↔ ∀ a, x = some a → Q a h :=
  thread_orThrow_of (hc.throws e)

@[simp] theorem thread_ite (c : Prop) [Decidable c] (p p' : H α) :
    Thread D q h (if c then p else p') Q ↔
      (c → Thread D q h p Q) ∧ (¬ c → Thread D q h p' Q) := by
  simp [Thread]

@[simp] theorem thread_onlyIf {Q : Unit → Path → Prop} (c : Prop) [Decidable c] (p : H Unit) :
    Thread D q h (onlyIf c p) Q ↔ (c → Thread D q h p Q) ∧ (¬ c → Q () h) := by
  simp [Thread]

/-- Any command. -/
theorem thread_await {o : Op} {Q : o.Res → Path → Prop} : Thread D q h (await o) Q ↔
    OnPath D q h o ∧ ∀ r, Q r (⟨o, some r⟩ :: h) := by
  simp [Thread, await, calm_failed.throws]

/-- A plain command. -/
@[simp] theorem thread_plain {o : Op} {Q : o.Res → Path → Prop} (ho : o.plain = true)
    (hc : Calm q h) :
    Thread (α := no_index o.Res) D q h (await o) Q ↔ ∀ r, Q r (⟨o, some r⟩ :: h) := by
  rw [thread_await]
  exact and_iff_right ⟨o.plain_follows ho D q h, hc.after o⟩

/-- A program of plain commands adds to the path. -/
theorem Only.thread {p : H α} (hp : p.Only fun o => o.plain = true) (hc : Calm q h)
    (hQ : ∀ a h', Calm q h' → h <:+ h' → Q a h') : Thread D q h p Q := by
  have hcalm : Along (OnPath D q) (fun h' _ => Calm q h' ∧ h <:+ h') h p := by
    refine hp.along (J := fun h' => Calm q h' ∧ h <:+ h') ?_ ⟨hc, List.suffix_rfl⟩
    rintro h' o ⟨hc', hs⟩ ho
    exact ⟨⟨o.plain_follows ho D q h', hc'.after o⟩,
      fun r => ⟨calm_cons (o.plain_settles ho), hs.trans (List.suffix_cons _ _)⟩⟩
  refine hcalm.mono (fun _ _ h => h) fun h' r hr => ?_
  cases r with
  | ok a => exact hQ a h' hr.1 hr.2
  | error e => exact hr.1.throws e

@[simp] theorem thread_newDate {Q : Time → Path → Prop} (hc : Calm q h) :
    Thread D q h newDate Q ↔ ∀ t, Q t (⟨.ambient .now, some t⟩ :: h) :=
  thread_plain (o := .ambient .now) rfl hc

@[simp] theorem thread_uuidv7 {Q : Uuid → Path → Prop} (hc : Calm q h) :
    Thread D q h uuidv7 Q ↔ ∀ u, Q u (⟨.ambient .uuidv7, some u⟩ :: h) :=
  thread_plain (o := .ambient .uuidv7) rfl hc

@[simp] theorem thread_randomBytes {Q : String → Path → Prop} {n : ℕ} {e : Encoding}
    (hc : Calm q h) : Thread D q h (randomBytes n e) Q ↔
      ∀ x, Q x (⟨.ambient (.randomBytes n e), some x⟩ :: h) :=
  thread_plain (o := .ambient (.randomBytes n e)) rfl hc

/-- The event of a change that is not a decision. -/
theorem thread_auditAppend {Q : Unit → Path → Prop} {event : AuditEventInput} :
    Thread D q h (auditAppend event) Q ↔
      OnPath D q h (.audit (.append event)) ∧ Q () (⟨.audit (.append event), some ()⟩ :: h) := by
  unfold auditAppend
  rw [thread_await]
  exact and_congr_right fun _ => ⟨fun hQ => hQ (), fun hQ _ => hQ⟩

/-- The event of anything but a decision, when no other event is due. -/
@[simp] theorem thread_auditAppend_plain {Q : Unit → Path → Prop} {event : AuditEventInput}
    (he : event.action ≠ .cibaRequestApproved ∧ event.action ≠ .cibaRequestDenied)
    (hc : Calm q h) : Thread D q h (auditAppend event) Q ↔
      Q () (⟨.audit (.append event), some ()⟩ :: h) := by
  rw [thread_auditAppend]
  refine and_iff_right ⟨Op.plain_follows ?_ D q h, hc.after _⟩
  simp [Op.plain, he]

/-- A call that does not re-verify goes on from wherever its body threw. -/
theorem thread_recover {p : H α} {f : Failure → H α} (hq : q.reverifies = false)
    (hp : Thread D q h p Q) (hf : ∀ e h', Calm q h' → Thread D q h' (f e) Q) :
    Thread D q h (p.recover f) Q := by
  unfold Thread
  rw [along_recover]
  refine Along.mono hp (fun _ _ h => h) fun h' r hr => ?_
  cases r with
  | ok a => exact hr
  | error e => exact hf e h' (calm_of_last hq hr.1)

/-- A loop that keeps `I`. -/
theorem thread_forEach {p : β → H α} {bs : List β} {I : Path → Prop}
    (hp : ∀ b ∈ bs, ∀ h, I h → Thread D q h (p b) fun _ h' => I h') (h₀ : I h) :
    Thread D q h (forEach p bs) fun _ h' => I h' := by
  refine (along_forEach (E := fun h e => EndsOn q h (.error e)) (fun b hb h hI => ?_) h₀).mono
    (fun _ _ h => h) fun h' r hr => ?_
  · refine Along.mono (hp b hb h hI) (fun _ _ h => h) fun h' r hr => ?_
    cases r <;> exact hr
  · cases r <;> exact hr

/-- A command whose failure is caught. -/
theorem thread_await_recover {o : Op} {Q : o.Res → Path → Prop} {f : Failure → H o.Res} :
    Thread (α := no_index o.Res) D q h ((await o).recover f) Q ↔ OnPath D q h o ∧
      Thread D q (⟨o, none⟩ :: h) (f .internal) Q ∧ ∀ r, Q r (⟨o, some r⟩ :: h) := by
  simp [Thread, await]

end Thread

end SdidBridge
