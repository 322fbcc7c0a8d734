import SdidBridge.Broker.Approval

/-!
# One token set for a transaction

A transaction moves from pending to a decision or to expiry, and from approved to consumed, and in no
other way. Whoever mints for it has consumed it: a CIBA grant by itself, a redemption through the
poll that inserted its code. As a transaction is consumed by one call, and a code by one call, at most
one call mints, and it signs one token of each use.
-/

namespace SdidBridge

open Concurrent Machine

variable {D : Deployment} {tr l₁ l₂ : Run} {c : State} {s : Store} {t u : ℕ}

/-- The moves of a transaction's status. -/
inductive TxnStatus.Moves : TxnStatus → TxnStatus → Prop
  | approve : Moves .pending .approved
  | deny : Moves .pending .denied
  | expire : Moves .pending .expired
  | consume : Moves .approved .consumed

theorem TxnChange.moves {a : Act TxnOp TxnOp.Res} {T T' : AuthTransaction} (h : TxnChange a T T') :
    T.status.Moves T'.status := by
  cases h with
  | @resolved d _ _ _ _ _ hs _ =>
    rw [hs]
    cases d with
    | approve => exact .approve
    | deny => exact .deny
  | expired hs _ =>
    rw [hs]
    exact .expire
  | consumed hs _ =>
    rw [hs]
    exact .consume

/-- One step of a run leaves the status of a transaction, or moves it. -/
theorem status_moves {e : Step} (hr : (broker D).Reach (e :: tr) c) {T : AuthTransaction}
    (hT : T ∈ e.before.txns) :
    ∃ T' ∈ c.store.txns, T'.id = T.id ∧ (T'.status = T.status ∨ T.status.Moves T'.status) := by
  cases hr with
  | @step _ c₀ m ev _ hr hs =>
    rcases (txns D).leads (step_leads hs) with ⟨t, a, -, hstep⟩ | ⟨-, hsame⟩
    · obtain ⟨T', hT', rfl | hc⟩ :=
        (@txns_writes D _ (·.id) (fun _ _ h => .inl h) _ _ _ hstep).later hT
      · exact ⟨T', hT', rfl, .inl rfl⟩
      · exact ⟨T', hT', congrArg Prod.fst hc.identity, .inr hc.moves⟩
    · have hsame' : c.store.txns = c₀.store.txns := hsame
      exact ⟨T, by rw [hsame']; exact hT, rfl, .inl rfl⟩

/-! ## Who consumes -/

/-- A call that has consumed what it read under a request id has consumed the transaction of that
id. -/
theorem consumes_txn (hr : (broker D).Reach tr c) {authReqId : String} {txn : AuthTransaction}
    {binding : DeviceBinding} (h : ConsumesOn (own t tr) authReqId txn binding) :
    ∃ T ∈ c.store.txns, T.authReqId = authReqId ∧
      ∃ n, n ≠ 0 ∧ Did tr t ⟨.txn (.consume T.id), some n⟩ := by
  obtain ⟨hreq, T, hT, hid⟩ := txn_of_read hr (mem_own.mp h.read)
  obtain ⟨n, hn, hconsumed⟩ := h.consumed
  simp only [AuthTransaction.identity, Prod.mk.injEq] at hid
  refine ⟨T, hT, hid.2.1.trans hreq, n, hn, ?_⟩
  rw [hid.1]
  exact mem_own.mp hconsumed

/-- Two calls that have consumed the transaction of one request id are one call. -/
theorem consumer_unique (hr : (broker D).Reach tr c) {authReqId : String}
    {txn txn' : AuthTransaction} {binding binding' : DeviceBinding}
    (h : ConsumesOn (own t tr) authReqId txn binding)
    (h' : ConsumesOn (own u tr) authReqId txn' binding') : t = u := by
  obtain ⟨T, hT, hreq, n, hn, hd⟩ := consumes_txn hr h
  obtain ⟨T', hT', hreq', n', hn', hd'⟩ := consumes_txn hr h'
  have hTT : T = T' :=
    List.inj_on_of_nodup_map (txns_nodup_authReqId hr) hT hT' (hreq.trans hreq'.symm)
  subst hTT
  exact txn_consumer_unique hr hd hn hd' hn'

/-- The path of a call in an earlier part of a run is part of its path. -/
theorem own_suffix {e : Step} : own t l₂ <:+ own t (l₁ ++ e :: l₂) := by
  rw [List.append_cons, own_append]
  exact List.suffix_append _ _

/-- A poll that has inserted a code has consumed its transaction. -/
theorem consumes_of_inserts (hr : (broker D).Reach tr c) {authReqId : String}
    {row : AuthorizationCode} {r : Option Unit} (harrived : Arrived tr u (.authorizePoll (some authReqId)))
    (hd : Did tr u ⟨.code (.insert row), r⟩) :
    ∃ txn binding, ConsumesOn (own u tr) authReqId txn binding := by
  obtain ⟨l₁, s, l₂, rfl⟩ := hd.split
  obtain ⟨q, hq, ⟨-, authReqId', txn, binding, rfl, hconsumes, -⟩, -⟩ := onPath hr
  have hsame := hr.arrived_unique (hq.mono (older_subset _ _)) harrived
  simp only [Request.authorizePoll.injEq, Option.some.injEq] at hsame
  rw [← hsame]
  exact ⟨txn, binding, hconsumes.mono own_suffix⟩

/-- A call inserts at most one code. -/
theorem insert_unique (hr : (broker D).Reach tr c) {row row' : AuthorizationCode}
    {r r' : Option Unit} (hd : Did tr u ⟨.code (.insert row), r⟩)
    (hd' : Did tr u ⟨.code (.insert row'), r'⟩) : row = row' := by
  have hunique := hr.unique (P := fun v a => v = u ∧ ∃ row r, a = ⟨.code (.insert row), r⟩) ?_ hd
    ⟨rfl, row, r, rfl⟩ hd' ⟨rfl, row', r', rfl⟩
  · simpa using congrArg Act.op hunique.2
  · rintro l₁ s v a l₂ c hr ⟨rfl, row, r, rfl⟩ w b hb ⟨rfl, row', r', rfl⟩
    obtain ⟨q, -, ⟨hno, -⟩, -⟩ := onPath hr
    exact hno row' r' (mem_own.mpr hb)

/-- Polls that have inserted a code for one request id are one call, and inserted one code. -/
theorem code_unique (hr : (broker D).Reach tr c) {authReqId : String} {row row' : AuthorizationCode}
    {r r' : Option Unit} (harrived : Arrived tr t (.authorizePoll (some authReqId)))
    (harrived' : Arrived tr u (.authorizePoll (some authReqId)))
    (hd : Did tr t ⟨.code (.insert row), r⟩) (hd' : Did tr u ⟨.code (.insert row'), r'⟩) :
    t = u ∧ row = row' := by
  obtain ⟨txn, binding, h⟩ := consumes_of_inserts hr harrived hd
  obtain ⟨txn', binding', h'⟩ := consumes_of_inserts hr harrived' hd'
  obtain rfl := consumer_unique hr h h'
  exact ⟨rfl, insert_unique hr hd hd'⟩

/-! ## Who mints -/

/-- Call `t` asks for the tokens of a transaction: by its request id, or with a code that a poll
inserted for it. -/
def AsksFor (D : Deployment) (tr : Run) (t : ℕ) (authReqId : String) : Prop :=
  ∃ creds body, Arrived tr t (.token creds body) ∧
    ((body.grant_type = CIBA_GRANT_TYPE ∧ body.auth_req_id = some authReqId) ∨
    (body.grant_type = "authorization_code" ∧ ∃ u row, Arrived tr u (.authorizePoll (some authReqId)) ∧
      Did tr u ⟨.code (.insert row), some ()⟩ ∧ body.code.map D.sha256Hex = some row.codeHash))

/-- What a call that has signed for a transaction has consumed: the transaction, or the code that a
poll inserted for it. -/
theorem consumes_of_signs (hr : (broker D).Reach tr c) {authReqId : String} {claims : TokenClaims}
    {aud : String} {ttl : ℕ} {r : Option String} (hasks : AsksFor D tr t authReqId)
    (hd : Did tr t ⟨.jwt (.sign claims aud ttl), r⟩) :
    (∃ creds body, Arrived tr t (.token creds body) ∧
      ∃ txn binding, ConsumesOn (own t tr) authReqId txn binding) ∨
    ∃ u row now n, n ≠ 0 ∧ Arrived tr u (.authorizePoll (some authReqId)) ∧
      Did tr u ⟨.code (.insert row), some ()⟩ ∧
      Did tr t ⟨.code (.consume row.codeHash now), some n⟩ := by
  obtain ⟨creds, body, harrived, hasks⟩ := hasks
  obtain ⟨l₁, s, l₂, rfl⟩ := hd.split
  obtain ⟨q, hq, hsigns, -⟩ := onPath hr
  obtain rfl := hr.arrived_unique (hq.mono (older_subset _ _)) harrived
  obtain ⟨c₀, -, -, hr₀, -, -⟩ := hr.entry
  have hgrants : CIBA_GRANT_TYPE ≠ "authorization_code" := by decide
  obtain ⟨-, -, sub, acr, -, -, hmint⟩ := hsigns
  rcases hasks with ⟨hgrant, hreq⟩ | ⟨hgrant, u, row, hpoll, hins, hhash⟩
  · obtain ⟨-, rp, authReqId', txn, binding, -, hreq', hconsumes, -⟩ :=
      hmint.resolve_right fun h => hgrants (hgrant.symm.trans h.1)
    rw [hreq, Option.some.injEq] at hreq'
    subst hreq'
    exact .inl ⟨creds, body, harrived, txn, binding, hconsumes.mono own_suffix⟩
  · obtain ⟨-, rp, code, k, -, hcode, hselect, ⟨now, n, hn, hconsumed⟩, -⟩ :=
      hmint.resolve_left fun h => hgrants (h.1.symm.trans hgrant)
    obtain ⟨hkhash, -⟩ := code_of_read hr₀ (mem_own.mp hselect)
    rw [hcode, Option.map_some, Option.some.injEq] at hhash
    refine .inr ⟨u, row, now, n, hn, hpoll, hins, ?_⟩
    rw [← hhash, ← hkhash]
    exact (mem_own.mp hconsumed).mono (older_subset _ _)

/-- Calls that have signed for one transaction are one call. -/
theorem minter_unique (hr : (broker D).Reach tr c) {authReqId : String} {claims claims' : TokenClaims}
    {aud aud' : String} {ttl ttl' : ℕ} {r r' : Option String} (hasks : AsksFor D tr t authReqId)
    (hasks' : AsksFor D tr u authReqId) (hd : Did tr t ⟨.jwt (.sign claims aud ttl), r⟩)
    (hd' : Did tr u ⟨.jwt (.sign claims' aud' ttl'), r'⟩) : t = u := by
  -- A grant and a poll cannot both have consumed the transaction.
  have hclash : ∀ {v w : ℕ} {creds body txn binding row},
      Arrived tr v (.token creds body) → ConsumesOn (own v tr) authReqId txn binding →
      Arrived tr w (.authorizePoll (some authReqId)) → ¬ Did tr w ⟨.code (.insert row), some ()⟩ := by
    intro v w creds body txn binding row hv hconsumes hw hins
    obtain ⟨txn', binding', hconsumes'⟩ := consumes_of_inserts hr hw hins
    obtain rfl := consumer_unique hr hconsumes hconsumes'
    simpa using hr.arrived_unique hv hw
  rcases consumes_of_signs hr hasks hd with ⟨creds, body, harrived, txn, binding, h⟩ |
      ⟨v, row, now, n, hn, hpoll, hins, hredeem⟩ <;>
    rcases consumes_of_signs hr hasks' hd' with ⟨creds', body', harrived', txn', binding', h'⟩ |
      ⟨v', row', now', n', hn', hpoll', hins', hredeem'⟩
  · exact consumer_unique hr h h'
  · exact (hclash harrived h hpoll' hins').elim
  · exact (hclash harrived' h' hpoll hins).elim
  · -- Both redeemed the one code of the transaction.
    obtain ⟨-, rfl⟩ := code_unique hr hpoll hpoll' hins hins'
    exact code_consumer_unique hr hredeem hn hredeem' hn'

/-- The lifecycle of a transaction, and its one token set. In every run, the last step leaves the status
of each transaction or moves it along an edge; at most one code is inserted for a transaction; and
whatever is signed for a transaction, by its request id or with its code, is signed by one call and
has different uses. -/
theorem lifecycle_and_single_mint (hr : (broker D).Reach tr c) :
    (∀ e l, tr = e :: l → ∀ T ∈ e.before.txns, ∃ T' ∈ c.store.txns, T'.id = T.id ∧
      (T'.status = T.status ∨ T.status.Moves T'.status)) ∧
    (c.store.txns.map (·.id)).Nodup ∧ (c.store.txns.map (·.authReqId)).Nodup ∧
    (∀ authReqId l₁ s t row r l₂, tr = l₁ ++ ⟨s, .act t ⟨.code (.insert row), r⟩⟩ :: l₂ →
      Arrived tr t (.authorizePoll (some authReqId)) →
      ∀ u row' r', Arrived tr u (.authorizePoll (some authReqId)) →
        ¬ Did l₂ u ⟨.code (.insert row'), r'⟩) ∧
    (∀ authReqId l₁ s t claims aud ttl r l₂,
      tr = l₁ ++ ⟨s, .act t ⟨.jwt (.sign claims aud ttl), r⟩⟩ :: l₂ → AsksFor D tr t authReqId →
      ∀ u claims' aud' ttl' r', AsksFor D tr u authReqId →
        Did l₂ u ⟨.jwt (.sign claims' aud' ttl'), r'⟩ →
          u = t ∧ claims'.token_use ≠ claims.token_use) := by
  refine ⟨?_, txns_nodup hr, txns_nodup_authReqId hr, ?_, ?_⟩
  · rintro e l rfl T hT
    exact status_moves hr hT
  · rintro authReqId l₁ s t row r l₂ rfl harrived u row' r' harrived' hd
    obtain ⟨rfl, -⟩ := code_unique hr harrived harrived'
      ⟨_, List.mem_append_right _ List.mem_cons_self, rfl⟩ (hd.mono (older_subset _ _))
    obtain ⟨q, -, ⟨hno, -⟩, -⟩ := onPath hr
    exact hno row' r' (mem_own.mpr hd)
  · rintro authReqId l₁ s t claims aud ttl r l₂ rfl hasks u claims' aud' ttl' r' hasks' hd
    obtain rfl := minter_unique hr hasks' hasks (hd.mono (older_subset _ _))
      ⟨_, List.mem_append_right _ List.mem_cons_self, rfl⟩
    refine ⟨rfl, ?_⟩
    obtain ⟨creds, body, harrived, -⟩ := hasks
    obtain ⟨q, hq, hsigns, -⟩ := onPath hr
    obtain rfl := hr.arrived_unique (hq.mono (older_subset _ _)) harrived
    exact hsigns.2.1 claims' aud' ttl' r' (mem_own.mpr hd)

/-- The two tokens of a grant are of different uses. -/
theorem lifecycle_and_single_mint_sampleGrant :
    ∃ l₁ s claims aud ttl r l₂ c claims' aud' ttl' r', (broker sampleDeployment).Reach
        (l₁ ++ ⟨s, .act 9 ⟨.jwt (.sign claims aud ttl), r⟩⟩ :: l₂) c ∧
      Did l₂ 9 ⟨.jwt (.sign claims' aud' ttl'), r'⟩ ∧ claims'.token_use ≠ claims.token_use := by
  obtain ⟨tr, c, hr, ⟨l₁, ⟨s, ev⟩, l₂, e₁, rfl, hsigns, he₁, hsigns'⟩, e', he', harrives⟩ :=
    sampleGrant_reach
  obtain ⟨claims, aud, ttl, r, rfl⟩ := exists_of_signsIn hsigns
  obtain ⟨claims', aud', ttl', r', hev⟩ := exists_of_signsIn hsigns'
  obtain ⟨creds, body, hev', hgrant, hreq⟩ := exists_of_grantArrives harrives
  have hasks : AsksFor sampleDeployment _ 9 (sampleSecret 'r') :=
    ⟨creds, body, ⟨e', he', hev'⟩, .inl ⟨hgrant, hreq⟩⟩
  have hdid : Did l₂ 9 ⟨.jwt (.sign claims' aud' ttl'), r'⟩ := ⟨e₁, he₁, hev⟩
  obtain ⟨-, -, -, -, hmint⟩ := lifecycle_and_single_mint hr
  obtain ⟨-, huse⟩ := hmint _ l₁ s 9 claims aud ttl r l₂ rfl hasks 9 claims' aud' ttl' r' hasks hdid
  exact ⟨l₁, s, claims, aud, ttl, r, l₂, c, claims', aud', ttl', r', hr, hdid, huse⟩

end SdidBridge
