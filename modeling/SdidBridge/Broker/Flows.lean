import SdidBridge.Broker.Origins

/-!
# The two flows

A transaction is of the flow of the endpoint that started it. A transaction of the code flow is redeemed
through the poll of the authorization page, which looks at the flow, and then with the code, the address,
and the verifier (`mints_by_code`). A CIBA grant does not look at the flow: the flows are apart in every
run in which no CIBA grant reads a transaction of the code flow (`flows_separate`).

The address and the PKCE challenge of a code come from the stash of its request id, and only the
authorization request that drew this id has set one.
-/

namespace SdidBridge

open Concurrent Machine

variable {D : Deployment} {tr l₁ l₂ : Run} {c : State} {s : Store} {t u v : ℕ}

/-! ## Stashes -/

/-- Every stored stash was set. -/
theorem set_of_stash {h : List (ℕ × Act StashOp StashOp.Res)} {x : List (Timed CodeFlowStash)}
    (hh : History (stashes D).Step [] h x) {e : Timed CodeFlowStash} (he : e ∈ x) :
    ∃ t ttl, (t, ⟨.set e.key e.value ttl, some ()⟩) ∈ h := by
  induction hh with
  | nil => simp at he
  | @cons h x x' t a hh hs ih =>
    have hold : e ∈ x → ∃ u ttl, (u, ⟨.set e.key e.value ttl, some ()⟩) ∈ (t, a) :: h := by
      intro he
      obtain ⟨u, ttl, hu⟩ := ih he
      exact ⟨u, ttl, List.mem_cons_of_mem _ hu⟩
    obtain ⟨o, r⟩ := a
    rcases hs with ⟨now, hx⟩ | ⟨-, rfl⟩
    swap
    · exact hold he
    cases o with
    | set k stash ttl =>
      simp only [StashOp.exec, Prod.mk.injEq] at hx
      obtain ⟨rfl, rfl⟩ := hx
      rcases List.mem_cons.mp he with rfl | he
      · exact ⟨t, ttl, List.mem_cons_self⟩
      · exact hold (List.mem_of_mem_filter he)
    | get k =>
      simp only [StashOp.exec, Prod.mk.injEq] at hx
      rw [← hx.2] at he
      exact hold he
    | del k =>
      simp only [StashOp.exec, Prod.mk.injEq] at hx
      rw [← hx.2] at he
      exact hold (List.mem_of_mem_filter he)

/-- A stash that was read was set by the authorization request that drew its id. -/
theorem stash_origin (hr : (broker D).Reach tr c) {authReqId : String} {stash : CodeFlowStash}
    (hd : Did tr u ⟨.stash (.get authReqId), some (some stash)⟩) :
    ∃ v query, Arrived tr v (.authorize query) ∧ stash.redirectUri = query.redirect_uri ∧
      stash.codeChallenge = query.code_challenge ∧
      Did tr v ⟨.ambient (.randomBytes 32 .base64url), some authReqId⟩ := by
  obtain ⟨l₁, s, l₂, rfl⟩ := hd.split
  obtain ⟨c₀, -, -, hr₀, hb, -⟩ := hr.entry
  obtain ⟨x, hstep⟩ := (stashes D).step_at ⟨.get authReqId, some (some stash)⟩ hr
  rcases hstep with ⟨now, hx⟩ | ⟨hnone, -⟩
  swap
  · simp at hnone
  simp only [StashOp.exec, Prod.mk.injEq, Option.some.injEq] at hx
  obtain ⟨e, he, rfl, rfl⟩ := holds_of_lookup hx.1
  obtain ⟨v, ttl, hset⟩ := set_of_stash ((stashes D).history_before hr) he
  have hdid : Did l₂ v ⟨.stash (.set e.key e.value ttl), some ()⟩ := (stashes D).mem_acts.mp hset
  obtain ⟨m₁, s', m₂, rfl⟩ := hdid.split
  obtain ⟨q, harrived, ⟨query, rfl, huri, hchallenge, hdrawn⟩, -⟩ := onPath hr₀
  have hold : m₂ ⊆ l₁ ++ ⟨s, .act u ⟨.stash (.get e.key), some (some e.value)⟩⟩ ::
      (m₁ ++ ⟨s', .act v ⟨.stash (.set e.key e.value ttl), some ()⟩⟩ :: m₂) :=
    List.Subset.trans (older_subset _ _) (older_subset _ _)
  exact ⟨v, query, harrived.mono hold, huri, hchallenge, (mem_own.mp hdrawn).mono hold⟩

/-! ## Who started a transaction -/

/-- Call `v` serves the request `q` and started the transaction `T`. -/
def StartedBy (tr : Run) (v : ℕ) (q : Request) (T : AuthTransaction) : Prop :=
  Arrived tr v q ∧ Did tr v ⟨.txn (.insert T.id T.authReqId T.citizenId T.rpId T.flow T.scopes
    T.requestedAl T.bindingMessage T.expiresAt), some ()⟩

/-- A transaction of the CIBA flow was started at the backchannel endpoint, for a relying party that may
use it. -/
theorem started_of_ciba (hr : (broker D).Reach tr c) {T : AuthTransaction} (hT : T ∈ c.store.txns)
    (hflow : T.flow = .ciba) : ∃ v creds body rp, StartedBy tr v (.bcAuthorize creds body) T ∧
      ReadsRp (own v tr) rp ∧ rp.id = T.rpId ∧ .ciba ∈ rp.allowedFlows := by
  obtain ⟨v, q, harrived, ⟨-, rp, hread, hid, -, hallowed, -, hrequest⟩, hins⟩ := startsOn_of_stored hr hT
  rw [hflow] at hallowed hrequest
  cases q with
  | bcAuthorize creds body => exact ⟨v, creds, body, rp, ⟨harrived, hins⟩, hread, hid, hallowed⟩
  | authorize query => exact absurd hrequest.1 (by simp)
  | _ => exact hrequest.elim

/-- A transaction of the code flow was started at the authorization endpoint, with an address of its
relying party, by the call that drew its request id. -/
theorem started_of_code (hr : (broker D).Reach tr c) {T : AuthTransaction} (hT : T ∈ c.store.txns)
    (hflow : T.flow = .code) : ∃ v query rp, StartedBy tr v (.authorize query) T ∧
      ReadsRp (own v tr) rp ∧ rp.id = T.rpId ∧ query.redirect_uri ∈ rp.redirectUris ∧
      Did tr v ⟨.ambient (.randomBytes 32 .base64url), some T.authReqId⟩ := by
  obtain ⟨v, q, harrived, ⟨hdrawn, rp, hread, hid, -, -, -, hrequest⟩, hins⟩ := startsOn_of_stored hr hT
  rw [hflow] at hrequest
  cases q with
  | authorize query =>
    exact ⟨v, query, rp, ⟨harrived, hins⟩, hread, hid, hrequest.2.2.1, mem_own.mp hdrawn⟩
  | bcAuthorize creds body => exact absurd hrequest.1 (by simp)
  | _ => exact hrequest.elim

/-- A transaction as it was started. -/
def AuthTransaction.opened (T : AuthTransaction) : AuthTransaction :=
  { T with status := .pending, deviceBindingId := none, suspiciousReport := none, resolvedAt := none }

/-- The rows of a transaction agree on what it was started with. -/
theorem txn_opened_later (hr : (broker D).Reach tr c) {e : Step} (he : e ∈ tr) {T : AuthTransaction}
    (hT : T ∈ e.before.txns) : ∃ T' ∈ c.store.txns, T'.opened = T.opened := by
  obtain ⟨T', hT', -, hsame⟩ := (txns D).row_later (txns_writes fun _ _ h => .inl h)
    AuthTransaction.opened (fun _ _ _ h => ⟨congrArg Prod.fst h.identity, by cases h <;> rfl⟩) hr he hT
  exact ⟨T', hT', hsame⟩

/-- A transaction that was read is stored, with what it was started with. -/
theorem opened_of_read (hr : (broker D).Reach tr c) {authReqId : String} {T : AuthTransaction}
    (hd : Did tr t ⟨.txn (.select authReqId), some (some T)⟩) :
    T.authReqId = authReqId ∧ ∃ T' ∈ c.store.txns, T'.opened = T.opened := by
  obtain ⟨l₁, s, l₂, rfl⟩ := hd.split
  obtain ⟨hT, hreq⟩ := mem_of_select_txn hr
  exact ⟨hreq, txn_opened_later hr (List.mem_append_right _ List.mem_cons_self) hT⟩

theorem StartedBy.later {e : Step} {q : Request} {T T' : AuthTransaction} (h : StartedBy l₂ v q T)
    (hsame : T'.opened = T.opened) : StartedBy (l₁ ++ e :: l₂) v q T' := by
  have hopened : StartedBy (l₁ ++ e :: l₂) v q T.opened :=
    ⟨h.1.mono (older_subset _ _), h.2.mono (older_subset _ _)⟩
  rw [← hsame] at hopened
  exact hopened

/-! ## What a grant mints for -/

/-- What a redemption was given is what the authorization request of its transaction asked for: the
address, which is one of the relying party's, and the challenge, which the verifier answers. -/
structure MintsByCode (D : Deployment) (tr : Run) (s : Store) (body : TokenRequest)
    (T : AuthTransaction) : Prop where
  /-- The transaction is stored. -/
  txn : T ∈ s.txns
  /-- It is one of the code flow. -/
  flow : T.flow = .code
  /-- A poll for it inserted the code. -/
  poll : ∃ u row, Arrived tr u (.authorizePoll (some T.authReqId)) ∧
    Did tr u ⟨.code (.insert row), some ()⟩ ∧ body.code.map D.sha256Hex = some row.codeHash
  /-- The address and the verifier are those of the request that started it. -/
  pkce : ∃ v query rp verifier, StartedBy tr v (.authorize query) T ∧ ReadsRp (own v tr) rp ∧
    rp.id = T.rpId ∧ query.redirect_uri ∈ rp.redirectUris ∧
    body.redirect_uri = some query.redirect_uri ∧ body.code_verifier = some verifier ∧
    D.base64urlSha256 verifier = query.code_challenge

/-- A poll inserts a code for a transaction of the code flow, with the address and the challenge of the
request that started it. -/
theorem code_issued_for {row : AuthorizationCode} {r : Option Unit}
    (hr : (broker D).Reach (l₁ ++ ⟨s, .act u ⟨.code (.insert row), r⟩⟩ :: l₂) c) :
    ∃ T ∈ s.txns, T.flow = .code ∧ Arrived l₂ u (.authorizePoll (some T.authReqId)) ∧
      ∃ v query rp, StartedBy l₂ v (.authorize query) T ∧ ReadsRp (own v l₂) rp ∧ rp.id = T.rpId ∧
        query.redirect_uri ∈ rp.redirectUris ∧ row.redirectUri = query.redirect_uri ∧
        row.codeChallenge = query.code_challenge := by
  obtain ⟨c₀, -, -, hr₀, hb, -⟩ := hr.entry
  obtain ⟨q, harrived, ⟨-, authReqId, txn, binding, rfl, hconsumes, -, -, -, -, hflow, stash, hstash,
    huri, hchallenge⟩, -⟩ := onPath hr
  -- The transaction that it read, and the request that started it.
  obtain ⟨hreq, T, hT, hsame⟩ := opened_of_read hr₀ (mem_own.mp hconsumes.read)
  have hTreq : T.authReqId = authReqId := (congrArg (·.authReqId) hsame).trans hreq
  have hTflow : T.flow = .code := (congrArg (·.flow) hsame).trans hflow
  obtain ⟨v, query, rp, hstarted, hrp, hid, hregistered, hdrawn⟩ := started_of_code hr₀ hT hTflow
  -- The stash is of the same authorization request, since both drew the request id.
  obtain ⟨w, query', harrived', huri', hchallenge', hdrawn'⟩ := stash_origin hr₀ (mem_own.mp hstash)
  rw [hTreq] at hdrawn
  obtain ⟨rfl, -⟩ := draw_unique hr₀ hdrawn hdrawn'
  have hquery : query' = query := by
    have := hr₀.arrived_unique harrived' hstarted.1
    simpa using this
  subst hquery
  refine ⟨T, by rwa [← show c₀.store = s from hb], hTflow, by rwa [hTreq], v, query', rp, hstarted, hrp,
    hid, hregistered, ?_, ?_⟩
  · rw [huri, huri']
  · rw [hchallenge, hchallenge']

/-- The code that a redemption has read was inserted for such a transaction. -/
theorem code_origin (hr : (broker D).Reach tr c) {k : AuthorizationCode} (hk : k ∈ c.store.codes) :
    ∃ T ∈ c.store.txns, T.flow = .code ∧
      (∃ u row, Arrived tr u (.authorizePoll (some T.authReqId)) ∧
        Did tr u ⟨.code (.insert row), some ()⟩ ∧ row.codeHash = k.codeHash) ∧
      ∃ v query rp, StartedBy tr v (.authorize query) T ∧ ReadsRp (own v tr) rp ∧ rp.id = T.rpId ∧
        query.redirect_uri ∈ rp.redirectUris ∧ k.redirectUri = query.redirect_uri ∧
        k.codeChallenge = query.code_challenge := by
  obtain ⟨u, row, hins, hissued⟩ := inserted_of_stored hr hk
  obtain ⟨l₁, s, l₂, rfl⟩ := hins.split
  obtain ⟨T₀, hT₀, hflow, hpoll, v, query, rp, hstarted, hrp, hid, hregistered, huri, hchallenge⟩ :=
    code_issued_for hr
  obtain ⟨T, hT, hsame⟩ := txn_opened_later hr (List.mem_append_right _ List.mem_cons_self) hT₀
  have hreq : T.authReqId = T₀.authReqId := congrArg (·.authReqId) hsame
  have hrpId : T.rpId = T₀.rpId := congrArg (·.rpId) hsame
  refine ⟨T, hT, (congrArg (·.flow) hsame).trans hflow, ⟨u, row, ?_, hins, congrArg (·.codeHash) hissued⟩,
    v, query, rp, hstarted.later hsame, hrp.mono own_suffix, by rw [hrpId, hid], hregistered, ?_, ?_⟩
  · rw [hreq]
    exact hpoll.mono (older_subset _ _)
  · exact (congrArg (·.redirectUri) hissued).symm.trans huri
  · exact (congrArg (·.codeChallenge) hissued).symm.trans hchallenge

/-- A code that was read is stored, with what it was issued with. -/
theorem code_issued_of_read (hr : (broker D).Reach tr c) {codeHash : String} {k : AuthorizationCode}
    (hd : Did tr t ⟨.code (.select codeHash), some (some k)⟩) :
    k.codeHash = codeHash ∧ ∃ k' ∈ c.store.codes, k'.issued = k.issued := by
  obtain ⟨l₁, s, l₂, rfl⟩ := hd.split
  obtain ⟨hk, hhash⟩ := mem_of_select_code hr
  obtain ⟨k', hk', -, hsame⟩ := (codes D).row_later codes_writes AuthorizationCode.issued
    (fun _ _ _ h => ⟨congrArg Prod.fst h.identity, h.issued⟩) hr
    (List.mem_append_right _ List.mem_cons_self) hk
  exact ⟨hhash, k', hk', hsame⟩

/-- What a redemption signs is for a transaction of the code flow, with its address and its verifier. -/
theorem mints_by_code {claims : TokenClaims} {aud : String} {ttl : ℕ} {r : Option String}
    {creds : Option Credentials} {body : TokenRequest}
    (hr : (broker D).Reach (l₁ ++ ⟨s, .act t ⟨.jwt (.sign claims aud ttl), r⟩⟩ :: l₂) c)
    (harrived : Arrived l₂ t (.token creds body)) (hgrant : body.grant_type = "authorization_code") :
    ∃ T, MintsByCode D l₂ s body T := by
  have hgrants : CIBA_GRANT_TYPE ≠ "authorization_code" := by decide
  obtain ⟨q, hq, hsigns, -⟩ := onPath hr
  obtain ⟨c₀, -, -, hr₀, hb, -⟩ := hr.entry
  obtain rfl := hr₀.arrived_unique hq harrived
  obtain ⟨-, -, sub, acr, -, -, hmint⟩ := hsigns
  obtain ⟨-, rp₀, code, k, -, hcode, hselect, -, -, -, -, huri, verifier, hverifier, hpkce⟩ :=
    hmint.resolve_left fun h => hgrants (h.1.symm.trans hgrant)
  obtain ⟨hhash, k', hk', hissued⟩ := code_issued_of_read hr₀ (mem_own.mp hselect)
  obtain ⟨T, hT, hflow, ⟨u, row, hpoll, hins, hrow⟩, v, query, rp, hstarted, hrp, hrpid, hregistered, huriK,
    hchallengeK⟩ := code_origin hr₀ hk'
  rw [show c₀.store = s from hb] at hT
  refine ⟨T, hT, hflow, ⟨u, row, hpoll, hins, ?_⟩, v, query, rp, verifier, hstarted, hrp, hrpid,
    hregistered, ?_, hverifier, ?_⟩
  · rw [hcode, Option.map_some, hrow, ← hhash]
    exact congrArg some (congrArg (·.codeHash) hissued).symm
  · rw [huri, ← huriK]
    exact congrArg some (congrArg (·.redirectUri) hissued).symm
  · rw [hpkce, ← hchallengeK]
    exact (congrArg (·.codeChallenge) hissued).symm

/-- No CIBA grant reads a transaction of the code flow. -/
def CibaReadsCiba (tr : Run) : Prop :=
  ∀ l₁ s t authReqId r l₂ creds body, tr = l₁ ++ ⟨s, .act t ⟨.txn (.select authReqId), r⟩⟩ :: l₂ →
    Arrived l₂ t (.token creds body) → body.grant_type = CIBA_GRANT_TYPE →
      ∀ T ∈ s.txns, T.authReqId = authReqId → T.flow = .ciba

/-- What a CIBA grant signs for, when it reads transactions of its own flow. -/
theorem mints_by_ciba (hciba : CibaReadsCiba tr) (hr : (broker D).Reach tr c) {claims : TokenClaims}
    {aud : String} {ttl : ℕ} {r : Option String} {creds : Option Credentials} {body : TokenRequest}
    (htr : tr = l₁ ++ ⟨s, .act t ⟨.jwt (.sign claims aud ttl), r⟩⟩ :: l₂)
    (harrived : Arrived l₂ t (.token creds body)) (hgrant : body.grant_type = CIBA_GRANT_TYPE) :
    ∃ T ∈ s.txns, body.auth_req_id = some T.authReqId ∧ T.flow = .ciba := by
  subst htr
  have hgrants : CIBA_GRANT_TYPE ≠ "authorization_code" := by decide
  obtain ⟨q, hq, hsigns, -⟩ := onPath hr
  obtain ⟨c₀, -, -, hr₀, hb, -⟩ := hr.entry
  obtain rfl := hr₀.arrived_unique hq harrived
  obtain ⟨-, -, sub, acr, -, -, hmint⟩ := hsigns
  obtain ⟨-, rp, authReqId, txn, binding, -, hreq, hconsumes, -⟩ :=
    hmint.resolve_right fun h => hgrants (hgrant.symm.trans h.1)
  -- The transaction that it read is still stored, with the flow that it had.
  obtain ⟨hreqT, T, hT, hsame⟩ := opened_of_read hr₀ (mem_own.mp hconsumes.read)
  have hTreq : T.authReqId = txn.authReqId := congrArg (·.authReqId) hsame
  have hTflow : T.flow = txn.flow := congrArg (·.flow) hsame
  obtain ⟨n₁, s₁, n₂, rfl⟩ := (mem_own.mp hconsumes.read).split
  obtain ⟨hread, -⟩ := mem_of_select_txn hr₀
  have harrived₁ : Arrived n₂ t (.token creds body) := by
    obtain ⟨q', k', hq', -⟩ := hr₀.act_residue
    obtain rfl := hr₀.arrived_unique (hq'.mono (older_subset _ _)) harrived
    exact hq'
  have hflow := hciba (l₁ ++ ⟨s, .act t ⟨.jwt (.sign claims aud ttl), r⟩⟩ :: n₁) s₁ t authReqId _ n₂ creds
    body (by rw [List.append_assoc, List.cons_append]) harrived₁ hgrant txn hread hreqT
  rw [show c₀.store = s from hb] at hT
  refine ⟨T, hT, ?_, hTflow.trans hflow⟩
  rw [hreq, hTreq, hreqT]

/-- The flows of a run are apart. -/
structure FlowsSeparate (D : Deployment) (tr : Run) : Prop where
  /-- What a redemption signs is for a transaction of the code flow, with its address and its
  verifier. -/
  code : ∀ l₁ s t claims aud ttl r l₂ creds body, tr = l₁ ++ ⟨s, .act t ⟨.jwt (.sign claims aud ttl), r⟩⟩ :: l₂ →
    Arrived l₂ t (.token creds body) → body.grant_type = "authorization_code" →
      ∃ T, MintsByCode D l₂ s body T
  /-- What a CIBA grant signs is for a transaction that was started at the backchannel endpoint for a
  relying party that may use it. -/
  ciba : ∀ l₁ s t claims aud ttl r l₂ creds body, tr = l₁ ++ ⟨s, .act t ⟨.jwt (.sign claims aud ttl), r⟩⟩ :: l₂ →
    Arrived l₂ t (.token creds body) → body.grant_type = CIBA_GRANT_TYPE →
      ∃ T ∈ s.txns, body.auth_req_id = some T.authReqId ∧ ∃ v creds' body' rp,
        StartedBy l₂ v (.bcAuthorize creds' body') T ∧ ReadsRp (own v l₂) rp ∧ rp.id = T.rpId ∧
        .ciba ∈ rp.allowedFlows
  /-- Whatever is signed for a transaction of the code flow is signed by a redemption. -/
  codeOnly : ∀ l₁ s t claims aud ttl r l₂ creds body, tr = l₁ ++ ⟨s, .act t ⟨.jwt (.sign claims aud ttl), r⟩⟩ :: l₂ →
    Arrived l₂ t (.token creds body) → ∀ T ∈ s.txns, T.flow = .code → AsksFor D tr t T.authReqId →
      body.grant_type = "authorization_code"

/-- The flows are apart in every run in which no CIBA grant reads a transaction of the code flow. -/
theorem flows_separate (hr : (broker D).Reach tr c) (hciba : CibaReadsCiba tr) : FlowsSeparate D tr := by
  refine ⟨?_, ?_, ?_⟩
  · rintro l₁ s t claims aud ttl r l₂ creds body rfl harrived hgrant
    exact mints_by_code hr harrived hgrant
  · rintro l₁ s t claims aud ttl r l₂ creds body htr harrived hgrant
    obtain ⟨T, hT, hreq, hflow⟩ := mints_by_ciba hciba hr htr harrived hgrant
    subst htr
    obtain ⟨c₀, -, -, hr₀, hb, -⟩ := hr.entry
    rw [← show c₀.store = s from hb] at hT
    obtain ⟨v, creds', body', rp, hstarted, hrp, hid, hallowed⟩ := started_of_ciba hr₀ hT hflow
    exact ⟨T, by rwa [← show c₀.store = s from hb], hreq, v, creds', body', rp, hstarted, hrp, hid, hallowed⟩
  · rintro l₁ s t claims aud ttl r l₂ creds body htr harrived T hT hcode ⟨creds', body', harrived', hasks⟩
    have hbody : body' = body := by
      subst htr
      have := hr.arrived_unique harrived' (harrived.mono (older_subset _ _))
      simp only [Request.token.injEq] at this
      exact this.2
    subst hbody
    rcases hasks with ⟨hgrant, hreq⟩ | ⟨hgrant, -⟩
    swap
    · exact hgrant
    -- A CIBA grant by that request id would have read a transaction of the other flow.
    obtain ⟨T', hT', hreq', hflow⟩ := mints_by_ciba hciba hr htr harrived hgrant
    subst htr
    obtain ⟨c₀, -, -, hr₀, hb, -⟩ := hr.entry
    rw [← show c₀.store = s from hb] at hT hT'
    have hTT : T' = T := by
      refine List.inj_on_of_nodup_map (txns_nodup_authReqId hr₀) hT' hT ?_
      rw [hreq, Option.some.injEq] at hreq'
      exact hreq'.symm
    rw [hTT, hcode] at hflow
    simp at hflow

theorem cibaReadsCiba_of_all (h : ∀ e ∈ tr, ∀ T ∈ e.before.txns, T.flow = .ciba) : CibaReadsCiba tr := by
  rintro l₁ s t authReqId r l₂ creds body rfl - - T hT -
  exact h _ (List.mem_append_right _ List.mem_cons_self) T hT

/-- What a CIBA grant of the run signs is for a transaction of the backchannel endpoint. -/
theorem flows_separate_sampleGrant : ∃ l₁ s claims aud ttl r l₂ c, (broker sampleDeployment).Reach
      (l₁ ++ ⟨s, .act 9 ⟨.jwt (.sign claims aud ttl), r⟩⟩ :: l₂) c ∧
    ∃ T ∈ s.txns, ∃ v creds body rp, StartedBy l₂ v (.bcAuthorize creds body) T ∧
      ReadsRp (own v l₂) rp ∧ rp.id = T.rpId ∧ .ciba ∈ rp.allowedFlows := by
  obtain ⟨tr, c, hr, hrun⟩ := (broker sampleDeployment).exists_of_play sampleGrant.reverse
    (p := fun run => run.1.any (signsIn 9) && run.1.any (grantArrives 9) &&
      run.1.all fun e => e.before.txns.all fun T => T.flow == .ciba) (by decide +kernel)
  simp only [Bool.and_eq_true, List.any_eq_true, List.all_eq_true, beq_iff_eq] at hrun
  obtain ⟨⟨⟨⟨s, ev⟩, he, hsigns⟩, e', he', harrives⟩, hflows⟩ := hrun
  obtain ⟨claims, aud, ttl, r, rfl⟩ := exists_of_signsIn hsigns
  obtain ⟨creds, body, hev', hgrant, -⟩ := exists_of_grantArrives harrives
  obtain ⟨l₁, l₂, rfl⟩ := List.append_of_mem he
  -- The call that signs arrived before, with the request of the grant.
  obtain ⟨q, k, harrived, -⟩ := hr.act_residue
  obtain rfl := hr.arrived_unique (harrived.mono (older_subset _ _)) ⟨e', he', hev'⟩
  obtain ⟨T, hT, -, v, creds', body', rp, hstarted⟩ := (flows_separate hr (cibaReadsCiba_of_all hflows)).ciba
    l₁ s 9 claims aud ttl r l₂ creds body rfl harrived hgrant
  exact ⟨l₁, s, claims, aud, ttl, r, l₂, c, hr, T, hT, v, creds', body', rp, hstarted⟩

/-- A transaction of the code flow is approved by call 8. -/
def sampleCodeApproval : Script :=
  sampleSession ++ sampleCodeRequest .AL2 none ++ samplePull 7 'E' 'F' ++
    sampleDecision 8 .approve [.unit] 'E' ++ Script.go 8 [.unit, sampleRowId, .unit]

/-- Call 9 asks for its tokens by a CIBA grant. -/
def sampleCrossing : Script :=
  sampleCodeApproval ++ .arrive (.token (some ⟨"rp_aaaaaaaaaaaa", sampleSecret 's'⟩)
    { grant_type := CIBA_GRANT_TYPE, auth_req_id := some (sampleSecret 'r') }) ::
  Script.go 9 [.unit, .unit, .unit, .unit, .unit, .unit, .token "id-token" "jti-1",
    .token "access-token" "jti-2", .uuid (sampleUuid 5), .unit, sampleRowId, sampleRowId]

/-- It is given them without a code, an address, or a verifier. -/
theorem not_flows_separate_sampleCrossing : ∃ tr c, (broker sampleDeployment).Reach tr c ∧
    ¬ FlowsSeparate sampleDeployment tr := by
  obtain ⟨tr, c, hr, hrun⟩ := (broker sampleDeployment).exists_of_play sampleCrossing.reverse
    (p := fun run => (run.1.any fun e => signsIn 9 e && e.before.txns.any fun T =>
      T.flow == .code && T.authReqId == sampleSecret 'r') && run.1.any (grantArrives 9))
    (by decide +kernel)
  simp only [Bool.and_eq_true, List.any_eq_true, beq_iff_eq] at hrun
  obtain ⟨⟨⟨s, ev⟩, he, hsigns, T, hT, hcode, hreqT⟩, e', he', harrives⟩ := hrun
  obtain ⟨claims, aud, ttl, r, rfl⟩ := exists_of_signsIn hsigns
  obtain ⟨creds, body, hev', hgrant, hreq⟩ := exists_of_grantArrives harrives
  refine ⟨tr, c, hr, fun hseparate => ?_⟩
  obtain ⟨l₁, l₂, htr⟩ := List.append_of_mem he
  have harrived : Arrived l₂ 9 (.token creds body) := by
    subst htr
    obtain ⟨q, k, harrived, -⟩ := hr.act_residue
    obtain rfl := hr.arrived_unique (harrived.mono (older_subset _ _)) ⟨e', he', hev'⟩
    exact harrived
  have hasks : AsksFor sampleDeployment tr 9 T.authReqId :=
    ⟨creds, body, ⟨e', he', hev'⟩, .inl ⟨hgrant, by rw [hreqT, hreq]⟩⟩
  have hby := hseparate.codeOnly l₁ s 9 claims aud ttl r l₂ creds body htr harrived T hT hcode hasks
  rw [hgrant] at hby
  exact absurd hby (by decide)

end SdidBridge
