import SdidBridge.Broker.Disclosure
import SdidBridge.Concurrent.Cleanup

/-!
# The kinds of tokens

One key signs the sessions of devices, the id tokens and access tokens of relying parties, and the tokens of
the probe, and one method verifies them. What tells them apart are their claims: only a session names a binding
(`SignsOn.session`), only an access token names a use, and each is signed on a path of its own.

The guard of the device endpoints is the first part of their handlers (`guarded_pending` and the others), and the
checks of user info are the first part of it (`userinfo_eq`), so that a call has passed them when its oldest
commands are a path through that part that returns (`Passes`). Then the bearer token was signed by a login for the
citizen and the binding of the session, and by a grant for the citizen of the answer (`token_kinds_apart`).
-/

namespace SdidBridge

open Concurrent Machine Prog

variable {D : Deployment} {tr l₁ l₂ : Run} {c : State} {s : Store} {t u : ℕ}

/-! ## The first part of a call -/

/-- The call `t` starts with the program `p`, which has returned `a`. -/
structure Passes {α : Type} (D : Deployment) (tr : Run) (t : ℕ) (p : H α) (a : α) : Prop where
  /-- The handler of the call starts with the program. -/
  starts : ∃ q f, Arrived tr t q ∧ handler D q = p >>= f
  /-- The oldest commands of the call are a path through the program that returns. -/
  returned : ∃ h, h <:+ own t tr ∧ Residue p h (.ret a)

/-- A call that has returned has passed what it starts with. -/
theorem passes_of_returned {α : Type} {p : H α} {q : Request} {f : α → H Reply} {r : Reply}
    (hr : (broker D).Reach tr c) (harrived : Arrived tr t q) (hq : handler D q = p >>= f)
    (hret : c.calls[t]? = some (.ret r)) : ∃ a, Passes D tr t p a := by
  obtain ⟨q', harrived', hres⟩ := hr.residue hret
  obtain rfl := hr.arrived_unique harrived' harrived
  rw [show (broker D).handler q' = handler D q' from rfl, hq] at hres
  obtain ⟨a, h₁, h₂, hown, hp, -⟩ := hres.of_bind_ret
  exact ⟨a, ⟨q', f, harrived, hq⟩, h₁, hown ▸ List.suffix_append _ _, hp⟩

/-- What holds at the end of every path through a program that returns holds of a call that has passed it. -/
theorem Passes.yields {α : Type} {p : H α} {a : α} {Q : α → Path → Prop} (h : Passes D tr t p a)
    (hp : Yields (fun _ _ => True) [] p Q) : ∃ h, h <:+ own t tr ∧ Q a h := by
  obtain ⟨h, hs, hres⟩ := h.returned
  exact ⟨h, hs, hres.along hp⟩

/-! ## The guard of the device endpoints -/

section Guarded

variable (D : Deployment) (bearer : Option String)

theorem guarded_revokeBinding (bindingId : String) (reason : Option String) :
    ∃ f, handler D (.revokeBinding bearer bindingId reason) = deviceSession bearer >>= f :=
  ⟨_, bind_bind _ _ _⟩

theorem guarded_registerPushToken (platform : PushPlatform) (token : String) :
    ∃ f, handler D (.registerPushToken bearer platform token) = deviceSession bearer >>= f :=
  ⟨_, bind_bind _ _ _⟩

theorem guarded_removePushToken :
    ∃ f, handler D (.removePushToken bearer) = deviceSession bearer >>= f :=
  ⟨_, bind_bind _ _ _⟩

theorem guarded_revokeConsent (consentId : String) :
    ∃ f, handler D (.revokeConsent bearer consentId) = deviceSession bearer >>= f :=
  ⟨_, bind_bind _ _ _⟩

theorem guarded_pending : ∃ f, handler D (.pending bearer) = deviceSession bearer >>= f :=
  ⟨_, bind_bind _ _ _⟩

theorem guarded_decision (body : CibaDecisionRequest) :
    ∃ f, handler D (.decision bearer body) = deviceSession bearer >>= f :=
  ⟨_, bind_bind _ _ _⟩

end Guarded

/-- What the guard has verified when it admits a session. -/
theorem yields_deviceSession_verified {bearer : Option String} {h : Path} :
    Yields (fun _ _ => True) h (deviceSession bearer) fun session h' => ∃ token j, bearer = some token ∧
      (⟨.jwt (.verify token (some DEVICE_SESSION_AUDIENCE)), some j⟩ : Cmd) ∈ h' ∧
      j.claims.sub = some session.citizenId ∧ j.claims.binding_id = some session.bindingId := by
  simp only [deviceSession, yields_bind, yields_orThrow]
  intro token htoken
  rw [yields_await_recover]
  refine ⟨trivial, yields_refuse _ _ _, ?_⟩
  simp only [yields_await, yields_throwIf, yields_pure, true_and]
  intro j citizenId hsub bindingId hbinding row binding _ _
  exact ⟨token, j, (Option.filter_eq_some_iff.mp htoken).1, by simp, hsub, hbinding⟩

/-- A token that verifies for an audience is for it. -/
theorem aud_of_verified {token aud : String} {j : SignedJwt} (hr : (broker D).Reach tr c)
    (hd : Did tr t ⟨.jwt (.verify token (some aud)), some j⟩) : j.token = token ∧ j.aud = aud := by
  obtain ⟨l₁, s, l₂, rfl⟩ := hd.split
  obtain ⟨x, ⟨i, now, hx⟩ | ⟨hnone, -⟩⟩ := (jwts D).step_at ⟨.verify token (some aud), some j⟩ hr
  · simp only [JwtOp.exec, Option.some.injEq, Prod.mk.injEq] at hx
    have hfound := List.find?_some hx.1
    simp only [Bool.and_eq_true, beq_iff_eq, Option.all_some] at hfound
    exact ⟨hfound.1.1, hfound.1.2.symm⟩
  · simp at hnone

/-- The token is the session that a login has signed for the citizen and the binding. -/
def IsSession (tr : Run) (token : String) (session : DeviceSession) : Prop :=
  ∃ u body b ttl, Arrived tr u (.login body) ∧ ReadsBinding (own u tr) body.bindingId b ∧
    Did tr u ⟨.jwt (.sign (sessionClaims b) DEVICE_SESSION_AUDIENCE ttl), some token⟩ ∧
    b.citizenId.text = session.citizenId ∧ b.id.text = session.bindingId

/-- What the guard admits is such a session. -/
theorem isSession_of_admitted (hr : (broker D).Reach tr c) {bearer : Option String} {session : DeviceSession}
    (h : Passes D tr t (deviceSession bearer) session) :
    ∃ token, bearer = some token ∧ IsSession tr token session := by
  obtain ⟨h', hs, token, j, rfl, hverified, hsub, hbinding⟩ := h.yields yields_deviceSession_verified
  have hd := mem_own.mp (hs.mem hverified)
  obtain ⟨htoken, haud⟩ := aud_of_verified hr hd
  obtain ⟨u, ttl, hsigned⟩ := signed_of_verify hr hd
  rw [haud, htoken] at hsigned
  obtain ⟨l₁, s, l₂, htr⟩ := hsigned.split
  -- A token that names a binding is signed by a login.
  have hr' := hr
  rw [htr] at hr'
  obtain ⟨q, harrived, hsigns, -⟩ := onPath hr'
  obtain ⟨body, b, rfl, hread, hclaims⟩ := SignsOn.session hsigns (by simp [hbinding])
  have hread' : ReadsBinding (own u tr) body.bindingId b := by
    rw [htr]
    exact mem_own.mpr ((mem_own.mp hread).mono (older_subset _ _))
  rw [hclaims] at hsub hbinding hsigned
  refine ⟨token, rfl, u, body, b, ttl, ?_, hread', hsigned, Option.some.inj hsub, Option.some.inj hbinding⟩
  rw [htr]
  exact harrived.mono (older_subset _ _)

/-! ## The checks of user info -/

/-- What user info has found out about a token when it gets past its checks. -/
structure CheckedToken where
  /-- The payload of the token. -/
  payload : SignedJwt
  /-- The pairwise subject. -/
  sub : String
  /-- The relying party that it is for. -/
  rp : RelyingParty
  /-- The citizen whose subject it is. -/
  citizen : Citizen

/-- `OidcController.userinfo` up to the citizen. -/
def userinfoChecks (bearer : Option String) : H CheckedToken := do
  let token ← orThrow (truthy bearer) (.bridge ⟨.access_denied, "Bearer access token required", 401⟩)
  let payload ← (await (.jwt (.verify token none))).recover fun _ => throwing invalidAccessToken
  throwIf (payload.claims.token_use ≠ some "access") invalidAccessToken
  let revoked ← await (.flag (.get ("revoked:" ++ payload.jti)))
  throwIf (revoked = true) (.bridge ⟨.access_denied, "Token revoked", 401⟩)
  let clientId ← orThrow payload.claims.client_id invalidAccessToken
  let sub ← orThrow payload.claims.sub invalidAccessToken
  let rpRow ← loadByClientId clientId
  let rp ← orThrow rpRow invalidAccessToken
  let resolved ← citizenForSubject rp.id sub
  let citizenId ← orThrow resolved invalidAccessToken
  let citizenRow ← await (.citizen (.select citizenId.text))
  let citizen ← orThrow citizenRow invalidAccessToken
  return ⟨payload, sub, rp, citizen⟩

/-- `OidcController.userinfo` from there on. -/
def userinfoAnswer (checked : CheckedToken) : H UserInfo := do
  let scopes := splitScopes (checked.payload.claims.scope.getD "")
  let grants ← await (.consent (.selectLive checked.citizen.id checked.rp.id))
  throwIf (grants.any (fun g => scopes.all (· ∈ g.scopes)) = false)
    (.bridge ⟨.access_denied, "No active consent for requested scopes", 403⟩)
  let attributes ← releasedAttributes checked.citizen scopes
  return ⟨checked.sub, checked.payload.claims.acr, attributes⟩

/-- User info is its checks and its answer. -/
theorem userinfo_eq (bearer : Option String) : userinfo bearer = userinfoChecks bearer >>= userinfoAnswer := by
  simp only [userinfo, userinfoChecks, bind_bind]
  rfl

theorem checked_userinfo (bearer : Option String) :
    ∃ f, handler D (.userinfo bearer) = userinfoChecks bearer >>= f := by
  refine ⟨fun checked => (userinfoAnswer checked).reply .userinfo, ?_⟩
  rw [handler, userinfo_eq]
  exact bind_bind _ _ _

/-- What user info has verified and read when it gets past its checks. -/
structure ChecksOn (h : Path) (token : String) (checked : CheckedToken) : Prop where
  /-- The token verified. -/
  verified : (⟨.jwt (.verify token none), some checked.payload⟩ : Cmd) ∈ h
  /-- It is an access token. -/
  use : checked.payload.claims.token_use = some "access"
  /-- The relying party is its client. -/
  client : ∃ clientId, checked.payload.claims.client_id = some clientId ∧
    (⟨.rp (.selectByClientId clientId), some (some checked.rp)⟩ : Cmd) ∈ h
  /-- The subject is its subject. -/
  sub : checked.payload.claims.sub = some checked.sub
  /-- The citizen is the one of the subject. -/
  citizen : ∃ row, (⟨.subject (.selectBySubject checked.rp.id checked.sub), some (some row)⟩ : Cmd) ∈ h ∧
    (⟨.citizen (.select row.citizenId.text), some (some checked.citizen)⟩ : Cmd) ∈ h

theorem yields_userinfoChecks {bearer : Option String} :
    Yields (fun _ _ => True) [] (userinfoChecks bearer) fun checked h' =>
      ∃ token, bearer = some token ∧ ChecksOn h' token checked := by
  simp only [userinfoChecks, yields_bind, yields_orThrow, yields_throwIf, yields_await, loadByClientId,
    citizenForSubject, yields_pure, true_and]
  intro token htoken
  rw [yields_await_recover]
  refine ⟨trivial, yields_throwing _, ?_⟩
  intro j huse revoked _ clientId hclient sub hsub _ rp rfl found citizenId hcitizen _ citizen rfl
  obtain ⟨row, rfl, rfl⟩ := Option.map_eq_some_iff.mp hcitizen
  exact ⟨token, truthy_eq_some htoken, by simp, by simpa using huse, ⟨clientId, hclient, by simp⟩, hsub, row,
    by simp, by simp⟩

/-! ## What a grant mints -/

/-- What a grant has consumed: an approved transaction of the relying party, or an authorization code of it. -/
def GrantsOn (D : Deployment) (h : Path) (body : TokenRequest) (rp : RelyingParty) (citizenId : Uuid)
    (scopes : List String) (acr : AssuranceLevel) : Prop :=
  (∃ authReqId txn binding, body.auth_req_id = some authReqId ∧ ConsumesOn h authReqId txn binding ∧
    txn.rpId = rp.id ∧ txn.citizenId = citizenId ∧ txn.scopes = scopes ∧ binding.assuranceLevel = acr) ∨
  ∃ code row now n, body.code = some code ∧
    (⟨.code (.select (D.sha256Hex code)), some (some row)⟩ : Cmd) ∈ h ∧
    (⟨.code (.consume row.codeHash now), some n⟩ : Cmd) ∈ h ∧ n ≠ 0 ∧
    row.rpId = rp.id ∧ row.citizenId = citizenId ∧ row.scopes = scopes ∧ row.assurance = acr

/-- What precedes a signature of the token endpoint: `mint` was called for the relying party, the citizen, the
scopes and the level of what was consumed, and signs one of its two tokens. -/
structure MintsOn (D : Deployment) (h : Path) (body : TokenRequest) (claims : TokenClaims) (aud : String)
    (rp : RelyingParty) (citizenId : Uuid) (scopes : List String) (acr : AssuranceLevel) (sub : String) : Prop where
  /-- The relying party was read. -/
  readRp : ReadsRp h rp
  /-- What it mints for was consumed. -/
  granted : GrantsOn D h body rp citizenId scopes acr
  /-- The subject is the citizen's. -/
  subject : SubjectOn D h citizenId rp sub
  /-- The audience is the client. -/
  aud : aud = rp.clientId
  /-- The claims are those of an id token or of an access token. -/
  claims : (∃ authTime nonce, claims = idTokenClaims sub acr authTime nonce) ∨
    claims = accessTokenClaims sub acr scopes rp.clientId

/-- What holds at each command of the token endpoint. -/
def MintsOnPath (D : Deployment) (body : TokenRequest) (h : Path) : Op → Prop
  | .jwt (.sign claims aud _) => ∃ rp citizenId scopes acr sub,
      MintsOn D h body claims aud rp citizenId scopes acr sub
  | _ => True

section Minted

variable {h h' : Path} {body : TokenRequest} {rp : RelyingParty} {citizenId : Uuid} {scopes : List String}
  {acr : AssuranceLevel}

theorem GrantsOn.mono (hs : h <:+ h') (hg : GrantsOn D h body rp citizenId scopes acr) :
    GrantsOn D h' body rp citizenId scopes acr := by
  rcases hg with ⟨authReqId, txn, binding, hbody, ⟨hread, happroved, ⟨id, hid, hb⟩, n, hn, hconsumed⟩, hrest⟩ |
    ⟨code, row, now, n, hbody, hselect, hconsume, hrest⟩
  · exact .inl ⟨authReqId, txn, binding, hbody,
      ⟨hs.mem hread, happroved, ⟨id, hid, hs.mem hb⟩, n, hn, hs.mem hconsumed⟩, hrest⟩
  · exact .inr ⟨code, row, now, n, hbody, hs.mem hselect, hs.mem hconsume, hrest⟩

theorem yields_mint_signs {authTime : Time} {nonce : Option String} (hrp : ReadsRp h rp)
    (hg : GrantsOn D h body rp citizenId scopes acr) :
    Yields (MintsOnPath D body) h (mint D rp citizenId scopes acr authTime nonce) fun _ _ => True := by
  have hsubject : Yields (MintsOnPath D body) h (subjectFor D citizenId rp.id rp.pairwiseSalt) fun sub h' =>
      h <:+ h' ∧ SubjectOn D h' citizenId rp sub := by
    simp only [subjectFor, yields_bind, yields_await]
    refine ⟨trivial, fun row => ?_⟩
    cases row with
    | some row => exact ⟨List.suffix_cons _ _, .inl ⟨row, List.mem_cons_self, rfl⟩⟩
    | none =>
      simp only [yields_bind, yields_await, yields_pure]
      exact ⟨trivial, fun _ => ⟨by simp [List.suffix_cons_iff], .inr rfl⟩⟩
  rw [mint, yields_bind]
  refine hsubject.mono fun sub h₁ hgiven => ?_
  obtain ⟨hs₁, hsub⟩ := hgiven
  simp only [yields_bind, yields_await, yields_pure, implies_true, and_true]
  refine ⟨⟨rp, citizenId, scopes, acr, sub, hrp.mono hs₁, hg.mono hs₁, hsub, rfl, .inl ⟨_, _, rfl⟩⟩,
    fun idToken => ?_⟩
  have hs₂ := List.suffix_cons (⟨.jwt (.sign (idTokenClaims sub acr authTime nonce) rp.clientId
    D.config.ID_TOKEN_TTL_SECONDS), some idToken⟩ : Cmd) h₁
  exact ⟨rp, citizenId, scopes, acr, sub, hrp.mono (hs₁.trans hs₂), hg.mono (hs₁.trans hs₂), hsub.mono hs₂, rfl,
    .inr rfl⟩

theorem yields_cibaGrant_signs (hrp : ReadsRp h rp) :
    Yields (MintsOnPath D body) h (cibaGrant D rp body) fun _ _ => True := by
  simp only [cibaGrant, yields_bind, yields_orThrow, yields_await, yields_throwIf]
  rintro authReqId hreq
  refine ⟨trivial, ?_⟩
  rintro row txn rfl hown
  rw [cibaGrantOf, yields_bind, yields_newDate]
  refine ⟨trivial, fun now => ?_⟩
  rw [yields_ite]
  refine ⟨fun _ => by simp [markExpired, MintsOnPath], fun _ => ?_⟩
  simp only [yields_bind, yields_throwIf]
  intro _ _ _ happroved
  simp only [not_not] at happroved hown
  -- The transaction is consumed with the binding that approved it, and the tokens are minted for it.
  have hbinding : Yields (MintsOnPath D body) (⟨.ambient .now, some now⟩ :: ⟨.txn (.select authReqId), some (some txn)⟩ :: h)
      (approvingBinding txn.deviceBindingId) fun found h' =>
        (⟨.ambient .now, some now⟩ :: ⟨.txn (.select authReqId), some (some txn)⟩ :: h) <:+ h' ∧
        ∀ b, found = some b → ∃ id, txn.deviceBindingId = some id ∧ ReadsBinding h' id.text b := by
    unfold approvingBinding
    split
    · rename_i id hid
      simp only [yields_await]
      refine ⟨trivial, fun found => ⟨List.suffix_cons _ _, fun b hb => ⟨id, hid, ?_⟩⟩⟩
      rw [hb]
      exact List.mem_cons_self
    · simp
  refine hbinding.mono fun found h₁ hread => ?_
  obtain ⟨hs₁, hfound⟩ := hread
  simp only [yields_orThrow, yields_await]
  rintro binding rfl
  refine ⟨trivial, fun n hn => ?_⟩
  obtain ⟨id, hid, hread⟩ := hfound binding rfl
  have hs₂ : h₁ <:+ (⟨.txn (.consume txn.id), some n⟩ : Cmd) :: h₁ := List.suffix_cons _ _
  have hgrants : GrantsOn D ((⟨.txn (.consume txn.id), some n⟩ : Cmd) :: h₁) body rp txn.citizenId txn.scopes
      binding.assuranceLevel := by
    refine .inl ⟨authReqId, txn, binding, truthy_eq_some hreq, ⟨?_, happroved, ⟨id, hid, hs₂.mem hread⟩, n, hn,
      List.mem_cons_self⟩, hown, rfl, rfl, rfl⟩
    exact (hs₁.trans hs₂).mem (by simp)
  have hrp₂ : ReadsRp ((⟨.txn (.consume txn.id), some n⟩ : Cmd) :: h₁) rp :=
    hrp.mono ((((List.suffix_cons _ _).trans (List.suffix_cons _ _)).trans hs₁).trans hs₂)
  refine (yields_mint_signs hrp₂ hgrants).mono fun resp h₂ _ => ?_
  simp [yields_uuidv7, yields_auditAppend, MintsOnPath]

theorem yields_codeGrant_signs (hrp : ReadsRp h rp) :
    Yields (MintsOnPath D body) h (codeGrant D rp body) fun _ _ => True := by
  simp only [codeGrant, yields_bind, yields_orThrow, yields_await, yields_newDate, yields_throwIf]
  intro code hcode redirectUri _ verifier _
  refine ⟨trivial, fun found => ⟨trivial, fun now => ?_⟩⟩
  rintro row rfl hvalid
  refine ⟨trivial, fun n hn => ?_⟩
  simp only [not_or, not_not] at hvalid
  have hgrants : GrantsOn D (⟨.code (.consume row.codeHash now), some n⟩ :: ⟨.ambient .now, some now⟩ ::
      ⟨.code (.select (D.sha256Hex code)), some (some row)⟩ :: h) body rp row.citizenId row.scopes row.assurance :=
    .inr ⟨code, row, now, n, truthy_eq_some hcode, by simp, by simp, hn, hvalid.1, rfl, rfl, rfl⟩
  refine (yields_mint_signs (hrp.mono (by simp [List.suffix_cons_iff])) hgrants).mono fun resp h₂ _ => ?_
  simp [yields_auditAppend, MintsOnPath]

/-- Every token that the token endpoint signs is minted for what was granted. -/
theorem yields_token_signs (creds : Option Credentials) :
    Yields (MintsOnPath D body) [] (token D creds body) fun _ _ => True := by
  rw [token, yields_bind]
  refine (yields_authenticateClient fun _ _ => trivial).mono ?_
  rintro rp h ⟨cr, -, hread, -⟩
  have hrp : ReadsRp h rp := .inl ⟨cr.clientId, hread⟩
  rw [yields_ite]
  refine ⟨fun _ => yields_cibaGrant_signs hrp, fun _ => ?_⟩
  rw [yields_ite]
  exact ⟨fun _ => yields_codeGrant_signs hrp, fun _ => yields_refuse _ _ _⟩

end Minted

/-- The token is the access token that `mint` has signed for the citizen and the relying party. -/
def IsAccess (D : Deployment) (tr : Run) (token : String) (citizenId : Uuid) (rpId : Uuid) : Prop :=
  ∃ l₁ s u l₂ creds body rp scopes acr sub ttl,
    tr = l₁ ++ ⟨s, .act u ⟨.jwt (.sign (accessTokenClaims sub acr scopes rp.clientId) rp.clientId ttl), some token⟩⟩ ::
      l₂ ∧
    Arrived l₂ u (.token creds body) ∧ rp.id = rpId ∧
    MintsOn D (own u l₂) body (accessTokenClaims sub acr scopes rp.clientId) rp.clientId rp citizenId scopes acr sub

/-- A token that names a use is signed by a grant. -/
theorem SignsOn.access {q : Request} {h : Path} {claims : TokenClaims} (hs : SignsOn D q h claims)
    (huse : claims.token_use ≠ none) : ∃ creds body, q = .token creds body := by
  unfold SignsOn at hs
  split at hs
  · obtain ⟨b, -, hclaims⟩ := hs
    rw [hclaims] at huse
    exact absurd rfl huse
  · exact ⟨_, _, rfl⟩
  · rw [hs] at huse
    exact absurd rfl huse
  · exact hs.elim

/-- What user info accepts is such a token. -/
theorem isAccess_of_checked (hderive : ∀ salt, Function.Injective (D.deriveSubject salt))
    (hr : (broker D).Reach tr c) {bearer : Option String} {checked : CheckedToken}
    (h : Passes D tr t (userinfoChecks bearer) checked) :
    ∃ token, bearer = some token ∧ IsAccess D tr token checked.citizen.id checked.rp.id := by
  obtain ⟨h', hs, token, rfl, hon⟩ := h.yields yields_userinfoChecks
  obtain ⟨clientId, hclient, hrp'⟩ := hon.client
  obtain ⟨row, hrow, hcitizen⟩ := hon.citizen
  have hd := mem_own.mp (hs.mem hon.verified)
  have htoken : checked.payload.token = token := (stored_of_verified hr hd).2
  obtain ⟨u, ttl, hsigned⟩ := signed_of_verify hr hd
  obtain ⟨l₁, s, l₂, htr⟩ := hsigned.split
  -- The token names a use, so that it is one of the two that a grant signs, and not the id token.
  have hr' := hr
  rw [htr] at hr'
  obtain ⟨q, harrived, hsigns, -⟩ := onPath hr'
  obtain ⟨creds, body, rfl⟩ := SignsOn.access hsigns (by simp [hon.use])
  obtain ⟨rp, citizenId, scopes, acr, sub, hmints⟩ := hr'.act_of_arrived (harrived.mono (older_subset _ _))
    (yields_token_signs creds).reply
  rcases hmints.claims with ⟨authTime, nonce, hid⟩ | haccess
  · have huse := hon.use
    rw [hid] at huse
    simp [idTokenClaims] at huse
  have hsub := hon.sub
  rw [haccess] at hsub hclient
  obtain rfl : sub = checked.sub := Option.some.inj hsub
  obtain rfl : rp.clientId = clientId := Option.some.inj hclient
  have hsuffix : own u l₂ <:+ own u tr := by
    rw [htr, ← List.singleton_append, ← List.append_assoc, own_append]
    exact List.suffix_append _ _
  -- The relying party and the citizen are those that the token was minted for.
  have hrpread : ReadsRp (own t tr) checked.rp := .inl ⟨_, hs.mem hrp'⟩
  have hrpid : checked.rp.id = rp.id := by
    have hclient' : checked.rp.clientId = rp.clientId := by
      obtain ⟨m₁, s', m₂, hsplit⟩ := (mem_own.mp (hs.mem hrp')).split
      rw [hsplit] at hr
      exact (mem_of_selectByClientId hr).2
    exact congrArg (·.id) (rp_agree hr hrpread (hmints.readRp.mono hsuffix) hclient')
  have hcitizenId : row.citizenId = citizenId := by
    have hresolved := pairwiseFor_of_resolved hr (mem_own.mp (hs.mem hrow))
    rw [hrpid] at hresolved
    exact hresolved.citizen_unique hr hderive
      (pairwiseFor_of_subjectOn hr (hmints.readRp.mono hsuffix) (hmints.subject.mono hsuffix))
  have hcid : checked.citizen.id = citizenId := by
    obtain ⟨m₁, s', m₂, hsplit⟩ := (mem_own.mp (hs.mem hcitizen)).split
    rw [hsplit] at hr
    have hid := (mem_of_select_citizen hr).2
    rw [Uuid.ofText_text, Option.some.injEq] at hid
    rw [← hid, hcitizenId]
  refine ⟨token, rfl, l₁, s, u, l₂, creds, body, rp, scopes, acr, checked.sub, ttl, ?_, harrived, hrpid.symm, ?_⟩
  · rw [htr, haccess, hmints.aud, htoken]
  · rw [hcid, ← haccess, ← hmints.aud]
    exact hmints

/-- The kinds of tokens do not cross: the guard of the device endpoints admits only a session, for the citizen and
the binding that a login signed it for, and user info gets past its checks only with an access token that was
minted, and resolves it to the citizen that it was minted for. -/
theorem token_kinds_apart (hderive : ∀ salt, Function.Injective (D.deriveSubject salt))
    (hr : (broker D).Reach tr c) :
    (∀ t bearer session, Passes D tr t (deviceSession bearer) session →
      ∃ token, bearer = some token ∧ IsSession tr token session) ∧
    ∀ t bearer checked, Passes D tr t (userinfoChecks bearer) checked →
      ∃ token, bearer = some token ∧ IsAccess D tr token checked.citizen.id checked.rp.id :=
  ⟨fun _ _ _ h => isSession_of_admitted hr h, fun _ _ _ h => isAccess_of_checked hderive hr h⟩

/-- The entry is the arrival of a pull with a session as call `t`. -/
def pullArrives (t : ℕ) (token : String) (e : Step) : Bool :=
  match e.event with
  | .arrive t' (.pending bearer) => t' == t && bearer == some token
  | _ => false

theorem arrived_of_pullArrives {token : String} (h : ∃ e ∈ tr, pullArrives t token e = true) :
    Arrived tr t (.pending (some token)) := by
  obtain ⟨e, he, hs⟩ := h
  unfold pullArrives at hs
  split at hs
  · rename_i t' bearer hev
    simp only [Bool.and_eq_true, beq_iff_eq] at hs
    rw [hs.1, hs.2] at hev
    exact ⟨e, he, hev⟩
  · simp at hs

/-- The transactions that call `t` has returned. -/
def pulledOf (c : State) (t : ℕ) : Option (List PendingTransaction) :=
  match c.calls[t]? with
  | some (Prog.ret (Reply.transactions ts)) => some ts
  | _ => none

theorem ret_of_pulledOf {ts : List PendingTransaction} (h : pulledOf c t = some ts) :
    c.calls[t]? = some (.ret (.transactions ts)) := by
  unfold pulledOf at h
  split at h
  · rename_i ts' hcall
    rw [hcall, Option.some.inj h]
  · simp at h

/-- The device pulls with the session of its login, and the relying party asks with the access token of its
grant. -/
theorem token_kinds_apart_sampleUserinfo : ∃ tr c, (broker sampleDeployment).Reach tr c ∧
    (∃ session, Passes sampleDeployment tr 7 (deviceSession (some "session")) session ∧
      ∃ token, some "session" = some token ∧ IsSession tr token session) ∧
    ∃ checked, Passes sampleDeployment tr 10 (userinfoChecks (some "access-token")) checked ∧
      ∃ token, some "access-token" = some token ∧
        IsAccess sampleDeployment tr token checked.citizen.id checked.rp.id := by
  obtain ⟨tr, c, hr, hrun⟩ := (broker sampleDeployment).exists_of_play sampleUserinfo.reverse
    (p := fun run => run.1.any (pullArrives 7 "session") && (pulledOf run.2 7).isSome &&
      run.1.any (bearerArrives 10 "access-token") && (infoOf run.2 10).isSome) (by decide +kernel)
  simp only [Bool.and_eq_true, List.any_eq_true, Option.isSome_iff_exists] at hrun
  obtain ⟨⟨⟨hpull, ts, hts⟩, hbearer⟩, info, hinfo⟩ := hrun
  obtain ⟨f, hf⟩ := guarded_pending sampleDeployment (some "session")
  obtain ⟨g, hg⟩ := checked_userinfo (D := sampleDeployment) (some "access-token")
  obtain ⟨session, hsession⟩ := passes_of_returned hr (arrived_of_pullArrives hpull) hf (ret_of_pulledOf hts)
  obtain ⟨checked, hchecked⟩ := passes_of_returned hr (arrived_of_bearerArrives hbearer) hg (ret_of_infoOf hinfo)
  have hapart := token_kinds_apart sampleDeployment_deriveSubject hr
  exact ⟨tr, c, hr, ⟨session, hsession, hapart.1 _ _ _ hsession⟩, checked, hchecked, hapart.2 _ _ _ hchecked⟩

end SdidBridge
