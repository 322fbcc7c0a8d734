import SdidBridge.Broker.Clients

/-!
# Consents

A CIBA grant records the citizen's consent before it returns, and user info asks for a live consent that
covers the scopes of the token. The two agree (`consent_backs_iff`): the subject of the token leads back to
the citizen, its client id to the relying party, and its scopes, written as one text, are split into the same
scopes again.

A redemption of an authorization code records no consent, so that its tokens are backed by none.
-/

namespace SdidBridge

open Concurrent Machine

variable {D : Deployment} {tr l₁ l₂ : Run} {c : State} {s : Store} {t u : ℕ}

/-! ## Scopes -/

/-- A scope as `splitScopes` finds them: not empty, and without a space. -/
def IsScope (w : String) : Prop := w ≠ "" ∧ ' ' ∉ w.toList

theorem isScope_of_words {acc cs : List Char} (hacc : ' ' ∉ acc) : ∀ w ∈ words acc cs, IsScope w := by
  have hword : ∀ acc : List Char, ' ' ∉ acc → acc ≠ [] → IsScope (String.ofList acc.reverse) := by
    intro acc hacc hne
    refine ⟨?_, by simpa using hacc⟩
    rw [ne_eq, ← String.toList_inj]
    simpa using hne
  induction cs generalizing acc with
  | nil =>
    intro w hw
    simp only [words] at hw
    split_ifs at hw with hne
    · simp at hw
    · rw [List.mem_singleton.mp hw]
      exact hword acc hacc hne
  | cons x xs ih =>
    intro w hw
    simp only [words] at hw
    split_ifs at hw with hx hne
    · exact ih (by simp) w hw
    · rcases List.mem_cons.mp hw with rfl | hw
      · exact hword acc hacc hne
      · exact ih (by simp) w hw
    · exact ih (by simpa [hacc] using Ne.symm hx) w hw

theorem isScope_of_splitScopes {scope w : String} (hw : w ∈ splitScopes scope) : IsScope w :=
  isScope_of_words (by simp) w hw

/-- A word is read up to the end of the text, or up to a space. -/
theorem words_append {acc w cs : List Char} (hw : ' ' ∉ w) :
    words acc (w ++ cs) = words (w.reverse ++ acc) cs := by
  induction w generalizing acc with
  | nil => rfl
  | cons x xs ih =>
    simp only [List.mem_cons, not_or] at hw
    rw [List.cons_append, words, if_neg (Ne.symm hw.1), ih hw.2, List.reverse_cons, List.append_assoc,
      List.singleton_append]

/-- The scopes of a text that was made of them. -/
theorem splitScopes_intercalate {ws : List String} (hws : ∀ w ∈ ws, IsScope w) :
    splitScopes (" ".intercalate ws) = ws := by
  unfold splitScopes
  rw [String.toList_intercalate, show " ".toList = [' '] from rfl]
  induction ws with
  | nil => rfl
  | cons w ws ih =>
    obtain ⟨hne, hspace⟩ := hws w List.mem_cons_self
    cases ws with
    | nil =>
      simp only [List.map_cons, List.map_nil, List.intercalate_singleton]
      rw [← List.append_nil w.toList, words_append hspace]
      simp [words, hne]
    | cons w' ws =>
      rw [List.map_cons, List.map_cons, List.intercalate_cons_cons, List.append_assoc,
        words_append hspace]
      have := ih fun w hw => hws w (List.mem_cons_of_mem _ hw)
      rw [List.map_cons] at this
      simp [words, hne, this]

/-! ## The table -/

/-- A consent as it was granted: no command changes anything else of it. -/
def ConsentGrant.granted (g : ConsentGrant) : ConsentGrant := { g with revokedAt := none }

/-- What a command can do to the row of a consent. -/
inductive ConsentChange : Act ConsentOp ConsentOp.Res → ConsentGrant → ConsentGrant → Prop
  /-- The consent is revoked. -/
  | revoked {id now g} (hid : Uuid.ofText id = some g.id) :
      ConsentChange ⟨.revoke id now, some ()⟩ g { g with revokedAt := some now }

/-- The row that a command inserts. -/
def NewConsent (a : Act ConsentOp ConsentOp.Res) (g : ConsentGrant) : Prop :=
  ∃ id citizenId rpId scopes source citizen rp now,
    a = ⟨.insert id citizenId rpId scopes source, some ()⟩ ∧ Uuid.ofText citizenId = some citizen ∧
    Uuid.ofText rpId = some rp ∧ g = ConsentGrant.made id citizen rp scopes source now

/-- What a command does to the consents. -/
theorem consents_writes (x : List ConsentGrant) (a : Act ConsentOp ConsentOp.Res) (x' : List ConsentGrant)
    (hs : (consents D).Step x a x') : Writes (·.id) (NewConsent a) (ConsentChange a) x x' := by
  obtain ⟨o, r⟩ := a
  rcases hs with ⟨now, hx⟩ | ⟨-, rfl⟩
  swap
  · exact .read _
  cases o with
  | selectOwn id citizenId =>
    obtain ⟨v, -, hv⟩ | ⟨rfl, rfl⟩ := withUuid_eq hx
    · obtain ⟨w, -, ⟨⟩⟩ | ⟨rfl, rfl⟩ := withUuid_eq hv <;> exact .read _
    · exact .read _
  | selectLive citizenId rpId => cases hx; exact .read _
  | insert id citizenId rpId scopes source =>
    obtain ⟨v, hv, hx⟩ | ⟨rfl, rfl⟩ := withUuid_eq hx
    · obtain ⟨w, hw, hx⟩ | ⟨rfl, rfl⟩ := withUuid_eq hx
      · simp only at hx
        split at hx
        · rename_i rows' hrows
          obtain ⟨hfree, rfl⟩ := Table.insert_eq_some.mp hrows
          cases hx
          exact .insert (fun g hg hid => of_decide_eq_false (hfree g hg) hid)
            ⟨id, citizenId, rpId, scopes, source, v, w, now, rfl, hv, hw, rfl⟩
        · cases hx
          exact .read _
      · exact .read _
    · exact .read _
  | revoke id now' =>
    obtain ⟨v, hv, ⟨⟩⟩ | ⟨rfl, rfl⟩ := withUuid_eq hx
    · refine .update _ _ fun g _ hg => .revoked ?_
      rw [hv, ← of_decide_eq_true hg]
    · exact .read _

theorem ConsentChange.granted {a : Act ConsentOp ConsentOp.Res} {g g' : ConsentGrant}
    (h : ConsentChange a g g') : g'.granted = g.granted := by
  cases h
  rfl

/-- A consent that was recorded is stored, and is live until it is revoked. -/
theorem consent_of_insert (hr : (broker D).Reach tr c) {id : Uuid} {citizenId rpId : String}
    {scopes : List String} {source : String}
    (hd : Did tr t ⟨.consent (.insert id citizenId rpId scopes source), some ()⟩) :
    ∃ g ∈ c.store.consents, g.id = id ∧ Uuid.ofText citizenId = some g.citizenId ∧
      Uuid.ofText rpId = some g.rpId ∧ g.scopes = scopes ∧ g.source = source ∧
      (g.revokedAt ≠ none → ∃ v id' now, Did tr v ⟨.consent (.revoke id' now), some ()⟩ ∧
        Uuid.ofText id' = some id) := by
  obtain ⟨l₁, s, l₂, rfl⟩ := hd.split
  generalize htr : l₁ ++ ⟨s, .act t ⟨.consent (.insert id citizenId rpId scopes source), some ()⟩⟩ :: l₂ = tr
  refine hr.since (P := fun s => ∃ g ∈ s.consents, g.id = id ∧ Uuid.ofText citizenId = some g.citizenId ∧
    Uuid.ofText rpId = some g.rpId ∧ g.scopes = scopes ∧ g.source = source ∧
    (g.revokedAt ≠ none → ∃ v id' now, Did tr v ⟨.consent (.revoke id' now), some ()⟩ ∧
      Uuid.ofText id' = some id)) ?_ ?_
  · intro s' hl
    have hstep := (consents D).leads_act ⟨.insert id citizenId rpId scopes source, some ()⟩ hl
    rcases hstep with ⟨now, hx⟩ | ⟨hnone, -⟩
    swap
    · simp at hnone
    obtain ⟨v, hv, hx⟩ | ⟨hnone, -⟩ := withUuid_eq hx
    swap
    · simp at hnone
    obtain ⟨w, hw, hx⟩ | ⟨hnone, -⟩ := withUuid_eq hx
    swap
    · simp at hnone
    simp only at hx
    split at hx
    · rename_i rows' hrows
      obtain ⟨-, rfl⟩ := Table.insert_eq_some.mp hrows
      have hmem : ConsentGrant.made id v w scopes source now ∈ (consents D).get s' := by
        rw [← (Prod.mk.inj hx).2]
        exact List.mem_append_right _ List.mem_cons_self
      exact ⟨_, hmem, rfl, hv, hw, rfl, rfl, fun h => absurd rfl h⟩
    · simp at hx
  · rintro e he s' hl ⟨g, hg, rfl, hcitizen, hrp, hscopes, hsource, hrevoked⟩
    obtain ⟨g', hg', rfl | ⟨v, a, hev, hc⟩⟩ := (consents D).row_step consents_writes hl hg
    · exact ⟨g', hg', rfl, hcitizen, hrp, hscopes, hsource, hrevoked⟩
    · cases hc with
      | @revoked id' now _ hid =>
        refine ⟨_, hg', rfl, hcitizen, hrp, hscopes, hsource, fun _ => ⟨v, id', now, ⟨e, ?_, hev⟩, hid⟩⟩
        rw [← htr]
        exact List.mem_append_left _ he

/-! ## What a grant records -/

section Paths

variable {h : Path}

theorem yields_subjectFor {citizenId : Uuid} {rp : RelyingParty} :
    Yields (fun _ _ => True) h (subjectFor D citizenId rp.id rp.pairwiseSalt) fun sub h' =>
      SubjectOn D h' citizenId rp sub := by
  simp only [subjectFor, yields_bind, yields_await, true_and]
  intro row
  cases row with
  | some row => exact .inl ⟨row, List.mem_cons_self, rfl⟩
  | none =>
    simp only [yields_bind, yields_await, yields_pure, true_and]
    exact fun _ => .inr rfl

theorem SubjectOn.mono {h' : Path} {citizenId : Uuid} {rp : RelyingParty} {sub : String} (hs : h <:+ h')
    (hm : SubjectOn D h citizenId rp sub) : SubjectOn D h' citizenId rp sub :=
  hm.imp_left fun ⟨row, hrow, hsub⟩ => ⟨row, hs.mem hrow, hsub⟩

/-- The access token that a call has signed, and whose it is. -/
structure SignsAccess (D : Deployment) (h : Path) (access : String) (citizenId : Uuid) (rp : RelyingParty)
    (scopes : List String) (sub : String) : Prop where
  /-- The subject is the citizen's. -/
  subject : SubjectOn D h citizenId rp sub
  /-- The token was signed. -/
  signed : ∃ acr, (⟨.jwt (.sign (accessTokenClaims sub acr scopes rp.clientId) rp.clientId
    D.config.ACCESS_TOKEN_TTL_SECONDS), some access⟩ : Cmd) ∈ h

theorem SignsAccess.mono {h' : Path} {access sub : String} {citizenId : Uuid} {rp : RelyingParty}
    {scopes : List String} (hs : h <:+ h') (hm : SignsAccess D h access citizenId rp scopes sub) :
    SignsAccess D h' access citizenId rp scopes sub := by
  obtain ⟨hsub, acr, hsigned⟩ := hm
  exact ⟨hsub.mono hs, acr, hs.mem hsigned⟩

theorem yields_mint {rp : RelyingParty} {citizenId : Uuid} {scopes : List String} {acr : AssuranceLevel}
    {authTime : Time} {nonce : Option String} :
    Yields (fun _ _ => True) h (mint D rp citizenId scopes acr authTime nonce) fun resp h' =>
      ∃ sub, SignsAccess D h' resp.access_token citizenId rp scopes sub := by
  simp only [mint, yields_bind, yields_await, yields_pure, true_and]
  refine yields_subjectFor.mono fun sub h' hsub idToken accessToken => ⟨sub, ?_, acr, List.mem_cons_self⟩
  exact (hsub.mono (List.suffix_cons _ _)).mono (List.suffix_cons _ _)

/-- A grant leaves the transaction's consent on the path, and the token for its scopes. -/
theorem yields_cibaGrantOf {rp : RelyingParty} {txn : AuthTransaction} :
    Yields (fun _ _ => True) h (cibaGrantOf D rp txn) fun resp h' =>
      (∃ sub, SignsAccess D h' resp.access_token txn.citizenId rp txn.scopes sub) ∧
      ∃ id, (⟨.consent (.insert id txn.citizenId.text rp.id.text txn.scopes "ciba-approval"), some ()⟩ :
        Cmd) ∈ h' := by
  rw [cibaGrantOf, yields_bind, yields_newDate]
  refine ⟨trivial, fun now => ?_⟩
  rw [yields_ite]
  refine ⟨fun _ => by simp [markExpired], fun _ => ?_⟩
  simp only [yields_bind, yields_throwIf]
  intro _ _ _ _
  refine (yields_suffix _).mono fun bindingRow h₁ _ => ?_
  simp only [yields_orThrow, yields_await, yields_throwIf, true_and]
  intro binding _ consumed _
  refine yields_mint.mono ?_
  rintro resp h₂ ⟨sub, haccess⟩
  simp only [yields_uuidv7, yields_await, yields_auditAppend, yields_pure, true_and]
  intro consentId _
  exact ⟨⟨sub, haccess.mono (by simp [List.suffix_cons_iff])⟩, consentId, by simp⟩

/-- What a CIBA grant has done when it returns. -/
structure GrantedOn (D : Deployment) (h : Path) (access : String) (rp : RelyingParty)
    (txn : AuthTransaction) : Prop where
  /-- It has read the relying party. -/
  readRp : ReadsRp h rp
  /-- It has read the transaction. -/
  readTxn : ∃ authReqId, ReadsTxn h authReqId txn
  /-- It has signed the token. -/
  minted : ∃ sub, SignsAccess D h access txn.citizenId rp txn.scopes sub
  /-- It has recorded the consent. -/
  recorded : ∃ id, (⟨.consent (.insert id txn.citizenId.text rp.id.text txn.scopes "ciba-approval"),
    some ()⟩ : Cmd) ∈ h

/-- A grant that returns has recorded the consent, if it is a CIBA grant. -/
theorem yields_token_granted {creds : Option Credentials} {body : TokenRequest} :
    Yields (fun _ _ => True) [] (token D creds body) fun resp h' => body.grant_type = CIBA_GRANT_TYPE →
      ∃ rp txn, GrantedOn D h' resp.access_token rp txn := by
  rw [token, yields_bind]
  refine (yields_authenticateClient fun _ _ => trivial).mono ?_
  rintro rp h ⟨cr, -, hread⟩
  rw [yields_ite]
  refine ⟨fun _ => ?_, fun hgrant => (yields_suffix _).mono fun _ _ _ h => absurd h hgrant⟩
  simp only [cibaGrant, yields_bind, yields_orThrow, yields_await, yields_throwIf, true_and]
  rintro authReqId - row txn rfl -
  refine (yields_cibaGrantOf.and (yields_suffix _)).mono ?_
  rintro resp h' ⟨⟨hminted, hrecorded⟩, hs⟩ -
  refine ⟨rp, txn, ?_, ⟨authReqId, hs.mem List.mem_cons_self⟩, hminted, hrecorded⟩
  exact .inl ⟨cr.clientId, hs.mem (List.mem_cons_of_mem _ hread.1)⟩

/-- What a consent on the path of a grant says about the grant. -/
def RecordsByCiba (body : TokenRequest) : Op → Prop
  | .consent (.insert _ _ _ _ _) => body.grant_type = CIBA_GRANT_TYPE
  | _ => True

/-- A redemption of a code records no consent. -/
theorem Op.Redeems.records {clientId : String} {body : TokenRequest} {o : Op} (h : o.Redeems clientId) :
    RecordsByCiba body o := by
  unfold Op.Redeems at h
  split at h <;> first | trivial | exact h.elim

theorem yields_token_records {creds : Option Credentials} {body : TokenRequest} :
    Yields (fun _ o => RecordsByCiba body o) [] (token D creds body) fun _ _ => True := by
  rw [token, yields_bind]
  refine (yields_authenticateClient fun _ _ => trivial).mono fun rp h _ => ?_
  rw [yields_ite]
  refine ⟨fun hgrant => ?_, fun _ => ?_⟩
  · refine Prog.Along.mono (yields_suffix _) (fun _ o _ => ?_) fun _ r _ => by cases r <;> trivial
    unfold RecordsByCiba
    split
    · exact hgrant
    · trivial
  · have honly : ((if body.grant_type = "authorization_code" then codeGrant D rp body
        else refuse .invalid_request "Unsupported grant_type" 400) : H TokenResponse).Only
          (Op.Redeems rp.clientId) := .ite only_codeGrant (Prog.only_throwing _)
    exact Only.yields honly (J := fun _ => True) (fun _ _ _ ho => ⟨ho.records, fun _ => trivial⟩) trivial

end Paths

/-! ## What user info asks for -/

/-- What user info throws without a live consent for the scopes. -/
def noActiveConsent : Failure := .bridge ⟨.access_denied, "No active consent for requested scopes", 403⟩

/-- What user info has read before it finds no live consent for the scopes of the token. -/
structure UncoveredOn (h : Path) (j : SignedJwt) (sub : String) (rp : RelyingParty) (citizenId : Uuid)
    (grants : List ConsentGrant) : Prop where
  /-- The token is of the subject. -/
  subject : j.claims.sub = some sub
  /-- The relying party is the token's client. -/
  client : ∃ clientId, j.claims.client_id = some clientId ∧
    (⟨.rp (.selectByClientId clientId), some (some rp)⟩ : Cmd) ∈ h
  /-- The citizen is the one of the subject. -/
  citizen : ∃ row, (⟨.subject (.selectBySubject rp.id sub), some (some row)⟩ : Cmd) ∈ h ∧
    row.citizenId = citizenId
  /-- The row of the citizen. -/
  row : ∃ citizen, (⟨.citizen (.select citizenId.text), some (some citizen)⟩ : Cmd) ∈ h ∧
    (⟨.consent (.selectLive citizen.id rp.id), some grants⟩ : Cmd) ∈ h
  /-- No consent covers the scopes. -/
  uncovered : grants.any (fun g => (splitScopes (j.claims.scope.getD "")).all (· ∈ g.scopes)) = false

theorem throws_releasedAttributes {citizen : Citizen} {scopes : List String} {h : Path} {E : Path → Prop} :
    Throws noActiveConsent h (releasedAttributes citizen scopes) E fun _ _ => True := by
  unfold releasedAttributes
  split
  · split_ifs
    · rw [throws_bind, throws_await_recover]
      refine ⟨throws_throwing (by decide), fun answer => ?_⟩
      cases answer with
      | ok attrs => trivial
      | unknownIdentity => trivial
      | unavailable => exact throws_throwing (by decide)
    · trivial
  · trivial

/-- Where user info finds no live consent. -/
theorem throws_userinfo {bearer : Option String} {h : Path} :
    Throws noActiveConsent h (userinfo bearer) (fun h' => ∃ token j sub rp citizenId grants,
      bearer = some token ∧ (⟨.jwt (.verify token none), some j⟩ : Cmd) ∈ h' ∧
        UncoveredOn h' j sub rp citizenId grants) fun _ _ => True := by
  have hinternal : Failure.internal ≠ noActiveConsent := by decide
  have hinvalid : invalidAccessToken ≠ noActiveConsent := by decide
  have hbearer : Failure.bridge ⟨.access_denied, "Bearer access token required", 401⟩ ≠ noActiveConsent := by
    decide
  have hrevoked : Failure.bridge ⟨.access_denied, "Token revoked", 401⟩ ≠ noActiveConsent := by decide
  simp only [userinfo, loadByClientId, citizenForSubject, throws_bind, throws_orThrow hbearer,
    throws_orThrow hinvalid, throws_throwIf, throws_await hinternal, throws_pure, hinvalid, hrevoked,
    IsEmpty.forall_iff, implies_true, true_and]
  intro token htoken
  rw [throws_await_recover]
  refine ⟨throws_throwing hinvalid, ?_⟩
  rintro j - revoked - clientId hclient sub hsub _ rp rfl row citizenId hcitizen _ citizen rfl grants
  obtain ⟨row, rfl, rfl⟩ := Option.map_eq_some_iff.mp hcitizen
  refine ⟨fun huncovered _ => ?_, fun _ => ?_⟩
  · exact ⟨token, j, sub, rp, row.citizenId, grants, truthy_eq_some htoken, by simp,
      hsub, ⟨clientId, hclient, by simp⟩, ⟨row, by simp, rfl⟩, ⟨citizen, by simp, by simp⟩, huncovered⟩
  · exact throws_releasedAttributes

theorem throws_userinfo_reply {bearer : Option String} :
    Throws noActiveConsent [] ((userinfo bearer).reply .userinfo) (fun h' => ∃ token j sub rp citizenId grants,
      bearer = some token ∧ (⟨.jwt (.verify token none), some j⟩ : Cmd) ∈ h' ∧
        UncoveredOn h' j sub rp citizenId grants) fun _ _ => True := by
  rw [H.reply, throws_bind]
  exact throws_userinfo

/-- The consents that are live for a citizen and a relying party when they are read. -/
theorem mem_of_selectLive {citizenId rpId : Uuid} {grants : List ConsentGrant} {g : ConsentGrant}
    (hr : (broker D).Reach
      (l₁ ++ ⟨s, .act t ⟨.consent (.selectLive citizenId rpId), some grants⟩⟩ :: l₂) c) :
    g ∈ grants ↔ g ∈ s.consents ∧ g.citizenId = citizenId ∧ g.rpId = rpId ∧ g.revokedAt = none := by
  obtain ⟨x, hstep⟩ := (consents D).step_at ⟨.selectLive citizenId rpId, some grants⟩ hr
  rcases hstep with ⟨now, hx⟩ | ⟨hnone, -⟩
  · simp only [ConsentOp.exec, Prod.mk.injEq, Option.some.injEq] at hx
    rw [← hx.1]
    simp [consents, part]
  · simp at hnone

/-! ## Tokens and consents -/

/-- The scopes of a transaction that was read are scopes. -/
theorem isScope_of_read (hr : (broker D).Reach tr c) {authReqId : String} {T : AuthTransaction}
    (hd : Did tr t ⟨.txn (.select authReqId), some (some T)⟩) : ∀ w ∈ T.scopes, IsScope w := by
  obtain ⟨-, T', hT', hsame⟩ := opened_of_read hr hd
  obtain ⟨v, q, -, ⟨-, rp, -, -, -, -, -, hrequest⟩, -⟩ := startsOn_of_stored hr hT'
  rw [show T'.scopes = T.scopes from congrArg (·.scopes) hsame] at hrequest
  cases q with
  | bcAuthorize creds body =>
    rw [hrequest.2.1]
    exact fun w hw => isScope_of_splitScopes hw
  | authorize query =>
    rw [hrequest.2.1]
    exact fun w hw => isScope_of_splitScopes hw
  | _ => exact hrequest.elim

/-- The consent `g` backs the access token that call `t` returned. -/
structure ConsentBacks (D : Deployment) (tr : Run) (c : State) (t : ℕ) (access : String) (citizenId : Uuid)
    (rp : RelyingParty) (scopes : List String) (g : ConsentGrant) : Prop where
  /-- The token is for the citizen, the relying party, and the scopes. -/
  minted : ReadsRp (own t tr) rp ∧ ∃ sub, SignsAccess D (own t tr) access citizenId rp scopes sub
  /-- The consent is stored. -/
  stored : g ∈ c.store.consents
  /-- It is the citizen's. -/
  citizen : g.citizenId = citizenId
  /-- It is given to the relying party. -/
  rp : g.rpId = rp.id
  /-- It includes the scopes of the token. -/
  scopes : scopes ⊆ g.scopes
  /-- The call recorded it. -/
  recorded : ∃ source, Did tr t
    ⟨.consent (.insert g.id g.citizenId.text g.rpId.text g.scopes source), some ()⟩
  /-- Unless it is revoked, user info finds it for the token, in every call that arrives once the grant
  has returned. -/
  released : ∀ l₁ l₂ u, tr = l₁ ++ l₂ → own t l₁ = [] → Arrived l₁ u (.userinfo (some access)) →
    (∀ v id now, Did tr v ⟨.consent (.revoke id now), some ()⟩ → Uuid.ofText id ≠ some g.id) →
      c.calls[u]? ≠ some (.raise noActiveConsent)

/-- User info finds the consent that a call has recorded for the token that it signed. -/
theorem released_of_recorded (hderive : ∀ salt, Function.Injective (D.deriveSubject salt))
    (hr : (broker D).Reach (l₁ ++ l₂) c) {access : String} {rp : RelyingParty} {txn : AuthTransaction}
    (hgranted : GrantedOn D (own t (l₁ ++ l₂)) access rp txn) {id : Uuid} {source : String}
    (hins : Did l₂ t ⟨.consent (.insert id txn.citizenId.text rp.id.text txn.scopes source), some ()⟩)
    (harrived : Arrived l₁ u (.userinfo (some access)))
    (hlive : ∀ v id' now, Did (l₁ ++ l₂) v ⟨.consent (.revoke id' now), some ()⟩ →
      Uuid.ofText id' ≠ some id) : c.calls[u]? ≠ some (.raise noActiveConsent) := by
  intro hraise
  obtain ⟨hrp, ⟨authReqId, htxn⟩, ⟨sub, hsubject, acr, hsigned⟩, -⟩ := hgranted
  have hrefuses := hr.raise_of_arrived (harrived.mono (List.subset_append_left _ _)) hraise
    throws_userinfo_reply rfl
  obtain ⟨token, j, sub', rp', citizenId, grants, htoken, hverified, hsub', ⟨clientId, hclient, hrp'⟩,
    ⟨row, hrow, rfl⟩, ⟨citizen, hcitizen, hgrants⟩, huncovered⟩ := hrefuses
  obtain rfl := Option.some.inj htoken
  -- The token is the one that was signed, so that its claims are the grant's.
  obtain ⟨hclaims, -⟩ := claims_of_verified hr (mem_own.mp hsigned) (mem_own.mp hverified)
  rw [hclaims] at hsub' hclient huncovered
  obtain rfl : sub = sub' := Option.some.inj hsub'
  obtain rfl : rp.clientId = clientId := Option.some.inj hclient
  have hrpid : rp'.id = rp.id := by
    have hclient' : rp'.clientId = rp.clientId := by
      obtain ⟨m₁, s', m₂, htr⟩ := (mem_own.mp hrp').split
      rw [htr] at hr
      exact (mem_of_selectByClientId hr).2
    exact congrArg (·.id) (rp_agree hr (.inl ⟨_, hrp'⟩) hrp hclient')
  rw [hrpid] at hrow hgrants
  -- The subject leads back to the citizen.
  have hcitizenId : row.citizenId = txn.citizenId :=
    (pairwiseFor_of_resolved hr (mem_own.mp hrow)).citizen_unique hr hderive
      (pairwiseFor_of_subjectOn hr hrp hsubject)
  have hid : citizen.id = txn.citizenId := by
    obtain ⟨m₁, s', m₂, htr⟩ := (mem_own.mp hcitizen).split
    rw [htr] at hr
    have hid := (mem_of_select_citizen hr).2
    rw [Uuid.ofText_text, Option.some.injEq] at hid
    rw [← hid, hcitizenId]
  rw [hid, hr.own_of_arrived harrived] at hgrants
  have hscopes := isScope_of_read hr (mem_own.mp htxn)
  obtain ⟨m₁, s', m₂, rfl⟩ := (mem_own.mp hgrants).split
  rw [List.append_assoc, List.cons_append] at hr hlive
  -- When the consents are read, the one that was recorded is among them.
  obtain ⟨c₀, -, -, hr₀, hb, -⟩ := hr.entry
  obtain ⟨g, hg, rfl, hgcitizen, hgrp, hgscopes, -, hrevoked⟩ :=
    consent_of_insert hr₀ (hins.mono (List.subset_append_right _ _))
  have hnone : g.revokedAt = none := by
    by_contra hsome
    obtain ⟨v, id', now, hd, hid'⟩ := hrevoked hsome
    exact hlive v id' now (hd.mono (older_subset _ _)) hid'
  rw [Uuid.ofText_text, Option.some.injEq] at hgcitizen hgrp
  have hmem : g ∈ grants :=
    (mem_of_selectLive hr).mpr ⟨by rw [← show c₀.store = s' from hb]; exact hg, hgcitizen.symm, hgrp.symm, hnone⟩
  have hcovers : (splitScopes (" ".intercalate txn.scopes)).all (· ∈ g.scopes) = true := by
    rw [splitScopes_intercalate hscopes, hgscopes]
    simp
  have hnot := List.any_eq_false.mp huncovered g hmem
  exact hnot hcovers

/-- The access token that a grant returned is backed by a consent if and only if it is a CIBA grant. -/
theorem consent_backs_iff (hderive : ∀ salt, Function.Injective (D.deriveSubject salt))
    (hr : (broker D).Reach tr c) {creds : Option Credentials} {body : TokenRequest} {resp : TokenResponse}
    (harrived : Arrived tr t (.token creds body)) (hret : c.calls[t]? = some (.ret (.tokens resp))) :
    (∃ citizenId rp scopes g, ConsentBacks D tr c t resp.access_token citizenId rp scopes g) ↔
      body.grant_type = CIBA_GRANT_TYPE := by
  constructor
  · rintro ⟨citizenId, rp, scopes, g, hbacks⟩
    obtain ⟨source, hd⟩ := hbacks.recorded
    obtain ⟨l₁, s, l₂, rfl⟩ := hd.split
    exact hr.act_of_arrived harrived yields_token_records.reply
  · intro hgrant
    obtain ⟨resp', heq, hgranted⟩ := hr.ret_of_arrived harrived hret yields_token_granted.reply
    obtain rfl := Reply.tokens.inj heq
    obtain ⟨rp, txn, hgranted⟩ := hgranted hgrant
    obtain ⟨id, hins⟩ := hgranted.recorded
    obtain ⟨g, hg, rfl, hcitizen, hrp, hscopes, -, -⟩ := consent_of_insert hr (mem_own.mp hins)
    rw [Uuid.ofText_text, Option.some.injEq] at hcitizen hrp
    refine ⟨txn.citizenId, rp, txn.scopes, g, ⟨hgranted.readRp, hgranted.minted⟩, hg, hcitizen.symm, hrp.symm,
      by rw [hscopes]; exact List.Subset.refl _, ⟨"ciba-approval", ?_⟩, ?_⟩
    · rw [← hcitizen, ← hrp, hscopes]
      exact mem_own.mp hins
    · rintro l₁ l₂ u rfl hown harrived' hlive
      rw [own_append, hown, List.nil_append] at hins
      exact released_of_recorded hderive hr hgranted (mem_own.mp hins) harrived' hlive

/-- The texts of the sample deployment have no collisions. -/
theorem sampleDeployment_deriveSubject (salt : String) :
    Function.Injective (sampleDeployment.deriveSubject salt) := by
  intro x y hxy
  have htext := congrArg String.toList hxy
  rw [← String.toList_inj]
  simpa [sampleDeployment] using htext

/-- The tokens that call `t` has returned. -/
def tokensOf (c : State) (t : ℕ) : Option TokenResponse :=
  match c.calls[t]? with
  | some (Prog.ret (Reply.tokens resp)) => some resp
  | _ => none

theorem ret_of_tokensOf {resp : TokenResponse} (h : tokensOf c t = some resp) :
    c.calls[t]? = some (.ret (.tokens resp)) := by
  unfold tokensOf at h
  split at h
  · rename_i resp' hcall
    rw [hcall, Option.some.inj h]
  · simp at h

/-- The tokens of the CIBA grant are backed by the consent that it recorded. -/
theorem consent_backs_iff_sampleGrant : ∃ tr c resp, (broker sampleDeployment).Reach tr c ∧
    c.calls[9]? = some (.ret (.tokens resp)) ∧
    ∃ citizenId rp scopes g, ConsentBacks sampleDeployment tr c 9 resp.access_token citizenId rp scopes g := by
  obtain ⟨tr, c, hr, hrun⟩ := (broker sampleDeployment).exists_of_play sampleGrant.reverse
    (p := fun run => run.1.any (grantArrives 9) && (tokensOf run.2 9).isSome) (by decide +kernel)
  simp only [Bool.and_eq_true, List.any_eq_true, Option.isSome_iff_exists] at hrun
  obtain ⟨⟨e, he, harrives⟩, resp, hresp⟩ := hrun
  obtain ⟨creds, body, hev, hgrant, -⟩ := exists_of_grantArrives harrives
  have harrived : Arrived tr 9 (.token creds body) := ⟨e, he, hev⟩
  have hret := ret_of_tokensOf hresp
  exact ⟨tr, c, resp, hr, hret,
    (consent_backs_iff sampleDeployment_deriveSubject hr harrived hret).mpr hgrant⟩

/-- An approved transaction of the code flow is polled for by call 9, its code is redeemed by call 10, and
call 11 asks for user info with the token. -/
def sampleRedemption : Script :=
  sampleCodeApproval ++ .arrive (.authorizePoll (some (sampleSecret 'r'))) ::
  Script.go 9 [.unit, .unit, .unit, .unit, .unit, .text (sampleSecret 'k'), .unit, .unit, sampleRowId] ++
  .arrive (.token (some ⟨"rp_aaaaaaaaaaaa", sampleSecret 's'⟩) {
    grant_type := "authorization_code"
    code := some (sampleSecret 'k')
    redirect_uri := some "https://shop/cb"
    code_verifier := some (sampleSecret 'v') }) ::
  Script.go 10 [.unit, .unit, .unit, .unit, .unit, .token "id-token" "jti-1", .token "access-token" "jti-2",
    sampleRowId] ++
  .arrive (.userinfo (some "access-token")) :: Script.go 11 [.unit, .unit, .unit, .unit, .unit, .unit]

/-- Whether call `t` was refused for lack of consent. -/
def uncovered (c : State) (t : ℕ) : Bool :=
  match c.calls[t]? with
  | some (Prog.raise e) => e == noActiveConsent
  | _ => false

/-- The entry is the arrival of a request for user info with a token as call `t`. -/
def bearerArrives (t : ℕ) (token : String) (e : Step) : Bool :=
  match e.event with
  | .arrive t' (.userinfo bearer) => t' == t && bearer == some token
  | _ => false

theorem arrived_of_bearerArrives {token : String} (h : ∃ e ∈ tr, bearerArrives t token e = true) :
    Arrived tr t (.userinfo (some token)) := by
  obtain ⟨e, he, hs⟩ := h
  unfold bearerArrives at hs
  split at hs
  · rename_i t' bearer hev
    simp only [Bool.and_eq_true, beq_iff_eq] at hs
    rw [hs.1, hs.2] at hev
    exact ⟨e, he, hev⟩
  · simp at hs

/-- The tokens of a redeemed code are backed by no consent: none is stored, none was revoked, and user info is
refused. -/
theorem redeemed_without_consent_sampleRedemption : ∃ tr c resp, (broker sampleDeployment).Reach tr c ∧
    c.calls[10]? = some (.ret (.tokens resp)) ∧ c.store.consents = [] ∧
    (¬ ∃ citizenId rp scopes g, ConsentBacks sampleDeployment tr c 10 resp.access_token citizenId rp scopes g) ∧
    Arrived tr 11 (.userinfo (some resp.access_token)) ∧ c.calls[11]? = some (.raise noActiveConsent) := by
  obtain ⟨tr, c, hr, hrun⟩ := (broker sampleDeployment).exists_of_play sampleRedemption.reverse
    (p := fun run => run.2.store.consents.isEmpty && uncovered run.2 11 && (tokensOf run.2 10).any fun resp =>
      run.1.any (bearerArrives 11 resp.access_token)) (by decide +kernel)
  simp only [Bool.and_eq_true, List.isEmpty_iff, Option.any_eq_true, List.any_eq_true] at hrun
  obtain ⟨⟨hnone, huncovered⟩, resp, hresp, harrives⟩ := hrun
  have hraise : c.calls[11]? = some (.raise noActiveConsent) := by
    unfold uncovered at huncovered
    split at huncovered
    · rename_i e hcall
      rw [hcall, beq_iff_eq.mp huncovered]
    · simp at huncovered
  refine ⟨tr, c, resp, hr, ret_of_tokensOf hresp, hnone, ?_, arrived_of_bearerArrives harrives, hraise⟩
  rintro ⟨citizenId, rp, scopes, g, hbacks⟩
  have hstored := hbacks.stored
  simp [hnone] at hstored

end SdidBridge
