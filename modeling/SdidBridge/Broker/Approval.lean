import SdidBridge.Broker.Transactions

/-!
# No token without a signed approval

A transaction that is approved or consumed was approved by a decision call, and that call had checked
a signature of one of the citizen's devices on the approval of that transaction (`backed_of_approved`).
The argument goes back through the run. The status comes from an update, the update from a decision
call; the session of that call comes from a login, and so names the binding as the store prints it; the
challenge of that call comes from a `pending` call, and has not been used before. A grant that mints
for a transaction has consumed it, and a redemption has consumed a code that a poll inserted for it.
-/

namespace SdidBridge

open Concurrent Machine

variable {D : Deployment} {tr l₁ l₂ : Run} {c : State} {s : Store} {t u : ℕ}

/-! ## Sessions -/

/-- What a session token with a binding says was read by the login that signed it. -/
theorem binding_of_signed {claims : TokenClaims} {aud bindingId : String} {ttl : ℕ}
    {r : Option String} (hr : (broker D).Reach tr c)
    (hd : Did tr t ⟨.jwt (.sign claims aud ttl), r⟩) (hb : claims.binding_id = some bindingId) :
    ∃ id b, Did tr t ⟨.binding (.select id), some (some b)⟩ ∧ claims = sessionClaims b := by
  obtain ⟨l₁, s, l₂, rfl⟩ := hd.split
  obtain ⟨q, -, hsigns, -⟩ := onPath hr
  have hne : claims.binding_id ≠ none := by simp [hb]
  obtain ⟨body, b, -, hread, hclaims⟩ := SignsOn.session hsigns hne
  exact ⟨_, b, (mem_own.mp hread).mono (older_subset _ _), hclaims⟩

/-- A session names a binding and its citizen as the store prints them. -/
theorem binding_of_session (hr : (broker D).Reach tr c) {citizenId bindingId : String}
    (h : SessionOn (own t tr) citizenId bindingId) :
    ∃ u id b, Did tr u ⟨.binding (.select id), some (some b)⟩ ∧ citizenId = b.citizenId.text ∧
      bindingId = b.id.text := by
  obtain ⟨token, j, hj, hsub, hbinding⟩ := h
  obtain ⟨l₁, s, l₂, rfl⟩ := (mem_own.mp hj).split
  obtain ⟨u, ttl, hsigned⟩ := signed_of_verified hr
  obtain ⟨c₀, -, -, hr₀, -, -⟩ := hr.entry
  obtain ⟨id, b, hread, hclaims⟩ := binding_of_signed hr₀ hsigned hbinding
  rw [hclaims] at hsub hbinding
  simp only [sessionClaims, Option.some.injEq] at hsub hbinding
  exact ⟨u, id, b, hread.mono (older_subset _ _), hsub.symm, hbinding.symm⟩

/-! ## The decision behind an approval -/

/-- Call `u` consumed the challenge `k`, which a `pending` call had issued, and which had not been
consumed before. -/
def FirstUse (tr : Run) (u : ℕ) (k : String) (record : ChallengeRecord) : Prop :=
  ∃ l₁ s l₂, tr = l₁ ++ ⟨s, .act u ⟨.challenge (.getdel k), some (some record)⟩⟩ :: l₂ ∧
    (∃ v bearer ttl, Arrived l₂ v (.pending bearer) ∧
      Did l₂ v ⟨.challenge (.set k record ttl), some ()⟩) ∧
    ∀ v record', ¬ Did l₂ v ⟨.challenge (.getdel k), some (some record')⟩

/-- A decision call approved `T`: it checked, under the key of `b`, a signature on the approval of `T`
with a challenge that was issued for `T` and `b` and was not used before. -/
def SignedApproval (tr : Run) (T : AuthTransaction) (b : DeviceBinding) : Prop :=
  ∃ u bearer body nonce, Arrived tr u (.decision bearer body) ∧ body.decision = .approve ∧
    Did tr u ⟨.service (.verifySignature b.devicePubkeyJwk (buildChallengePayload
      (.cibaApprove T.authReqId) body.challengeId nonce) body.signature), some true⟩ ∧
    FirstUse tr u body.challengeId ⟨cibaPurpose T.authReqId, nonce, b.id.text⟩

/-- The transaction `T` of the store was approved with a signature of its citizen's binding `b`, whose
level meets the one asked for. -/
structure Backed (tr : Run) (s : Store) (T : AuthTransaction) (b : DeviceBinding) : Prop where
  /-- The transaction is stored. -/
  txn : T ∈ s.txns
  /-- The binding is stored. -/
  binding : b ∈ s.bindings
  /-- They are of one citizen. -/
  citizen : b.citizenId = T.citizenId
  /-- The level of the binding meets the one asked for. -/
  meets : alMeets b.assuranceLevel T.requestedAl = true
  /-- The approval was signed. -/
  signed : SignedApproval tr T b

/-- A challenge of a transaction that a call has consumed was issued by a `pending` call, and had not
been consumed before. -/
theorem firstUse_of_consumed (hr : (broker D).Reach tr c) {k authReqId : String}
    {record : ChallengeRecord} (hd : Did tr u ⟨.challenge (.getdel k), some (some record)⟩)
    (hpurpose : record.purpose = cibaPurpose authReqId) : FirstUse tr u k record := by
  obtain ⟨l₁, s, l₂, rfl⟩ := hd.split
  obtain ⟨⟨v, ttl, hset⟩, hfirst⟩ := consumed_once hr
  refine ⟨l₁, s, l₂, rfl, ?_, hfirst⟩
  obtain ⟨c₀, -, -, hr₀, -, -⟩ := hr.entry
  obtain ⟨m₁, s₁, m₂, rfl⟩ := hset.split
  obtain ⟨q, harrived, hissues, -⟩ := onPath hr₀
  obtain ⟨bearer, citizenId, rfl, -⟩ := hissues.2 authReqId hpurpose
  exact ⟨v, bearer, ttl, harrived.mono (older_subset _ _), hset⟩

/-- The binding whose id a decision's session spells is of the transaction's citizen. -/
theorem citizen_of_decision (hr : (broker D).Reach tr c) {body : CibaDecisionRequest}
    {txn : AuthTransaction} {binding : DeviceBinding} (h : DecisionOn (own u tr) body txn binding) :
    binding.citizenId = txn.citizenId ∧ body.bindingId = binding.id.text := by
  obtain ⟨v, id, b, hread, hcitizen, hbinding⟩ := binding_of_session hr h.session
  have hread' := mem_own.mp h.readBinding
  obtain ⟨hid, -⟩ := binding_of_read hr hread'
  -- The session's binding and the one that was read have the same id.
  have hids : b.id = binding.id := by
    rw [hbinding, Uuid.ofText_text, Option.some.injEq] at hid
    exact hid
  have hagree := binding_agree hr hread hread' hids
  simp only [DeviceBinding.identity, Prod.mk.injEq] at hagree
  exact ⟨hagree.2.1 ▸ Uuid.text_injective hcitizen.symm, hids ▸ hbinding⟩

/-- A transaction that is approved or consumed was approved with a signature of a binding of its
citizen, whose level meets the one asked for. -/
theorem backed_of_approved (hr : (broker D).Reach tr c) {T : AuthTransaction}
    (hT : T ∈ c.store.txns) (hs : T.status = .approved ∨ T.status = .consumed) :
    ∃ b, T.deviceBindingId = some b.id ∧ Backed tr c.store T b := by
  -- The update that approved the transaction, and the decision call that it is of.
  obtain ⟨u, bid, now, suspicious, n, hn, hbid, hmem⟩ := (past_of_stored hr hT).1 hs
  have hdid : Did tr u ⟨.txn (.resolve T.id .approve bid now suspicious), some n⟩ :=
    (txns D).mem_acts.mp hmem
  obtain ⟨l₁, s, l₂, rfl⟩ := hdid.split
  have hold := older_subset (e := (⟨s, .act u ⟨.txn (.resolve T.id .approve bid now suspicious),
    some n⟩⟩ : Step)) l₁ l₂
  obtain ⟨c₀, -, -, hr₀, -, -⟩ := hr.entry
  obtain ⟨q, harrived, hresolves, -⟩ := onPath hr
  obtain ⟨bearer, body, txn, binding, rfl, hdecision, hid, happrove, rfl⟩ := hresolves
  -- What that call read is still there, and the transaction is the one that it read.
  obtain ⟨hreq, T', hT', hTid⟩ := txn_of_read hr ((mem_own.mp hdecision.readTxn).mono hold)
  obtain ⟨-, b, hb, hbind⟩ := binding_of_read hr ((mem_own.mp hdecision.readBinding).mono hold)
  have hTT : T' = T :=
    List.inj_on_of_nodup_map (txns_nodup hr) hT' hT ((congrArg Prod.fst hTid).trans hid.symm)
  subst hTT
  simp only [AuthTransaction.identity, Prod.mk.injEq] at hTid
  simp only [DeviceBinding.identity, Prod.mk.injEq] at hbind
  obtain ⟨-, hTreq, hTcitizen, -, hTal⟩ := hTid
  obtain ⟨hbId, hbCitizen, hbKey, hbAl⟩ := hbind
  obtain ⟨hcitizen, hspelled⟩ := citizen_of_decision hr₀ hdecision
  obtain ⟨record, hconsumed, hpurpose, hrecord, hsigned⟩ := hdecision.signed
  refine ⟨b, by rw [hbid, hbId], hT, hb, by rw [hbCitizen, hcitizen, hTcitizen], ?_, ?_⟩
  · rw [hbAl, hTal]
    exact hdecision.meets
  · have hrecord' : record = ⟨cibaPurpose T'.authReqId, record.nonce, b.id.text⟩ := by
      rw [hTreq, hreq, ← hpurpose, hbId, ← hspelled, ← hrecord]
    refine ⟨u, bearer, body, record.nonce, harrived.mono hold, happrove.symm, ?_, ?_⟩
    · rw [hbKey, hTreq, hreq]
      rw [← happrove] at hsigned
      exact (mem_own.mp hsigned).mono hold
    · rw [← hrecord']
      exact firstUse_of_consumed hr ((mem_own.mp hconsumed).mono hold) hpurpose

/-- What happened before an entry of a run has happened in the run. -/
theorem SignedApproval.later {T T' : AuthTransaction} {b b' : DeviceBinding} {l : Run}
    (h : SignedApproval l₂ T b) (hl : ∃ l', l = l' ++ l₂) (hT : T'.identity = T.identity)
    (hb : b'.identity = b.identity) : SignedApproval l T' b' := by
  obtain ⟨l', rfl⟩ := hl
  obtain ⟨u, bearer, body, nonce, harrived, happrove, hsigned, k₁, s, k₂, hsplit, hissued, hfirst⟩ := h
  have hold := List.subset_append_right l' l₂
  simp only [AuthTransaction.identity, Prod.mk.injEq] at hT
  simp only [DeviceBinding.identity, Prod.mk.injEq] at hb
  refine ⟨u, bearer, body, nonce, harrived.mono hold, happrove, ?_, l' ++ k₁, s, k₂, ?_, ?_, hfirst⟩
  · rw [hT.2.1, hb.2.2.1]
    exact hsigned.mono hold
  · rw [hsplit, List.append_assoc, hT.2.1, hb.1]
  · rw [hT.2.1, hb.1]
    exact hissued

/-- A transaction that was backed is still backed. -/
theorem Backed.later {e : Step} (hr : (broker D).Reach (l₁ ++ e :: l₂) c) {T : AuthTransaction}
    {b : DeviceBinding} (h : Backed l₂ e.before T b) :
    ∃ T' b', Backed (l₁ ++ e :: l₂) c.store T' b' ∧ T'.identity = T.identity ∧
      b'.identity = b.identity := by
  have hentry : e ∈ l₁ ++ e :: l₂ := List.mem_append_right _ List.mem_cons_self
  obtain ⟨T', hT', hTid⟩ := txn_later hr hentry h.txn
  obtain ⟨b', hb', hbid⟩ := binding_later hr hentry h.binding
  have hsigned := h.signed.later ⟨l₁ ++ [e], (List.append_cons l₁ e l₂)⟩ hTid hbid
  refine ⟨T', b', ⟨hT', hb', ?_, ?_, hsigned⟩, hTid, hbid⟩
  · simp only [AuthTransaction.identity, DeviceBinding.identity, Prod.mk.injEq] at hTid hbid
    rw [hbid.2.1, hTid.2.2.1, h.citizen]
  · simp only [AuthTransaction.identity, DeviceBinding.identity, Prod.mk.injEq] at hTid hbid
    rw [hbid.2.2.2, hTid.2.2.2.2]
    exact h.meets

/-- What a call consumes is backed by a signed approval. -/
theorem backed_of_consumes (hr : (broker D).Reach tr c) {authReqId : String}
    {txn : AuthTransaction} {binding : DeviceBinding}
    (h : ConsumesOn (own t tr) authReqId txn binding) :
    ∃ T b, Backed tr c.store T b ∧ T.identity = txn.identity ∧ T.authReqId = authReqId ∧
      b.assuranceLevel = binding.assuranceLevel := by
  obtain ⟨id, hid, hread⟩ := h.binding
  -- The transaction was approved when the call read it, and is still backed.
  obtain ⟨k₁, s₁, k₂, rfl⟩ := (mem_own.mp h.read).split
  obtain ⟨hmem, hreq⟩ := mem_of_select_txn hr
  obtain ⟨c₁, -, -, hr₁, hb₁, -⟩ := hr.entry
  rw [← show c₁.store = s₁ from hb₁] at hmem
  obtain ⟨b₁, hbid, hbacked₁⟩ := backed_of_approved hr₁ hmem (.inl h.approved)
  rw [hb₁] at hbacked₁
  obtain ⟨T, b, hbacked, hTid, hbident⟩ := hbacked₁.later hr
  have hreq' : T.authReqId = txn.authReqId := congrArg (fun i => i.2.1) hTid
  refine ⟨T, b, hbacked, hTid, hreq'.trans hreq, ?_⟩
  -- The binding that the call read is the one that approved.
  obtain ⟨hspelled, b₂, hb₂, hb₂ident⟩ := binding_of_read hr (mem_own.mp hread)
  have hsame : b₂ = b := by
    refine List.inj_on_of_nodup_map (bindings_nodup hr) hb₂ hbacked.binding ?_
    rw [hid, Option.some.injEq] at hbid
    rw [Uuid.ofText_text, Option.some.injEq] at hspelled
    calc b₂.id = binding.id := congrArg Prod.fst hb₂ident
      _ = id := hspelled.symm
      _ = b₁.id := hbid
      _ = b.id := (congrArg Prod.fst hbident).symm
  subst hsame
  exact congrArg (fun i => i.2.2.2) hb₂ident

/-! ## Tokens and codes -/

/-- What a poll has consumed before it inserts a code. -/
theorem backed_of_inserts {row : AuthorizationCode} {r : Option Unit}
    (hr : (broker D).Reach (l₁ ++ ⟨s, .act t ⟨.code (.insert row), r⟩⟩ :: l₂) c) :
    ∃ T b, Backed l₂ s T b ∧ Arrived l₂ t (.authorizePoll (some T.authReqId)) ∧
      row.assurance = b.assuranceLevel ∧ row.citizenId = T.citizenId ∧ row.rpId = T.rpId := by
  obtain ⟨q, harrived, ⟨-, authReqId, txn, binding, rfl, hconsumes, hcitizen, hrp, hal, -⟩, -⟩ := onPath hr
  obtain ⟨c₀, -, -, hr₀, hb, -⟩ := hr.entry
  obtain ⟨T, b, hbacked, hTid, rfl, hbal⟩ := backed_of_consumes hr₀ hconsumes
  simp only [AuthTransaction.identity, Prod.mk.injEq] at hTid
  rw [show c₀.store = s from hb] at hbacked
  exact ⟨T, b, hbacked, harrived, hal.trans hbal.symm, hcitizen.trans hTid.2.2.1.symm,
    hrp.trans hTid.2.2.2.1.symm⟩

/-- A stored code was inserted by a poll for a transaction that is backed by a signed approval. -/
theorem backed_of_code (hr : (broker D).Reach tr c) {k : AuthorizationCode}
    (hk : k ∈ c.store.codes) :
    ∃ T b u row, Backed tr c.store T b ∧ Arrived tr u (.authorizePoll (some T.authReqId)) ∧
      Did tr u ⟨.code (.insert row), some ()⟩ ∧ row.codeHash = k.codeHash ∧
      k.assurance = b.assuranceLevel ∧ k.citizenId = T.citizenId ∧ k.rpId = T.rpId := by
  obtain ⟨u, row, hins, hissued⟩ := inserted_of_stored hr hk
  have hid : row.issued.identity = k.issued.identity := by rw [hissued]
  obtain ⟨l₁, s, l₂, rfl⟩ := hins.split
  obtain ⟨T, b, hbacked, harrived, hal, hcitizen, hrp⟩ := backed_of_inserts hr
  obtain ⟨T', b', hbacked', hTid, hbid⟩ := Backed.later hr hbacked
  simp only [AuthTransaction.identity, DeviceBinding.identity, AuthorizationCode.identity,
    AuthorizationCode.issued, Prod.mk.injEq] at hTid hbid hid
  refine ⟨T', b', u, row, hbacked', ?_, hins, hid.1, ?_, ?_, ?_⟩
  · rw [hTid.2.1]
    exact harrived.mono (older_subset _ _)
  · rw [← hid.2.2.2, hal, hbid.2.2.2]
  · rw [← hid.2.1, hcitizen, hTid.2.2.1]
  · rw [← hid.2.2.1, hrp, hTid.2.2.2.1]

/-- What a CIBA grant signs is for a transaction that is backed by a signed approval. -/
theorem backed_of_cibaMint (hr : (broker D).Reach tr c) {body : TokenRequest} {sub : String}
    {acr : AssuranceLevel} (h : CibaMintOn D (own t tr) body sub acr) :
    ∃ T b, Backed tr c.store T b ∧ body.auth_req_id = some T.authReqId ∧ acr = b.assuranceLevel ∧
      PairwiseFor D c.store T.citizenId T.rpId sub := by
  obtain ⟨-, rp, authReqId, txn, binding, hrp, hreq, hconsumes, hown, rfl, hsubject⟩ := h
  obtain ⟨T, b, hbacked, hTid, rfl, hbal⟩ := backed_of_consumes hr hconsumes
  have hpairwise := pairwiseFor_of_subjectOn hr hrp hsubject
  simp only [AuthTransaction.identity, Prod.mk.injEq] at hTid
  rw [← hown, ← hTid.2.2.1, ← hTid.2.2.2.1] at hpairwise
  exact ⟨T, b, hbacked, hreq, hbal.symm, hpairwise⟩

/-- What a redemption signs is for the transaction of the poll that inserted its code. -/
theorem backed_of_codeMint (hr : (broker D).Reach tr c) {body : TokenRequest} {sub : String}
    {acr : AssuranceLevel} (h : CodeMintOn D (own t tr) body sub acr) :
    ∃ T b u row, Backed tr c.store T b ∧ Arrived tr u (.authorizePoll (some T.authReqId)) ∧
      Did tr u ⟨.code (.insert row), some ()⟩ ∧ body.code.map D.sha256Hex = some row.codeHash ∧
      acr = b.assuranceLevel ∧ PairwiseFor D c.store T.citizenId T.rpId sub := by
  obtain ⟨-, rp, code, row, hrp, hcode, hselect, -, hown, rfl, hsubject, -⟩ := h
  -- The code that was redeemed was inserted by a poll, and keeps what it was inserted with.
  obtain ⟨hhash, k, hk, hkid⟩ := code_of_read hr (mem_own.mp hselect)
  obtain ⟨T, b, u, row', hbacked, hpoll, hins, hhash', hal, hcitizen, hrpId⟩ := backed_of_code hr hk
  have hpairwise := pairwiseFor_of_subjectOn hr hrp hsubject
  simp only [AuthorizationCode.identity, Prod.mk.injEq] at hkid
  rw [← hown, ← hkid.2.1, hcitizen, ← hkid.2.2.1, hrpId] at hpairwise
  refine ⟨T, b, u, row', hbacked, hpoll, hins, ?_, ?_, hpairwise⟩
  · rw [hcode, Option.map_some, hhash', hkid.1, hhash]
  · rw [← hkid.2.2.2, hal]

/-- No token without a signed approval. What a CIBA grant signs, and the code that a poll inserts, and
what a redemption signs, is for a transaction that a decision call approved with a signature of a
binding of its citizen; the level is the binding's, which meets the one asked for, and the subject is
the citizen's pairwise one at the relying party. -/
theorem minted_with_signed_approval {a : Cmd}
    (hr : (broker D).Reach (l₁ ++ ⟨s, .act t a⟩ :: l₂) c) :
    (∀ creds body claims aud ttl r, Arrived l₂ t (.token creds body) →
      body.grant_type = CIBA_GRANT_TYPE → a = ⟨.jwt (.sign claims aud ttl), r⟩ →
      ∃ T b sub, Backed l₂ s T b ∧ body.auth_req_id = some T.authReqId ∧
        claims.acr = some b.assuranceLevel ∧ claims.sub = some sub ∧
        PairwiseFor D s T.citizenId T.rpId sub) ∧
    (∀ row r, a = ⟨.code (.insert row), r⟩ →
      ∃ T b, Backed l₂ s T b ∧ Arrived l₂ t (.authorizePoll (some T.authReqId)) ∧
        row.assurance = b.assuranceLevel ∧ row.citizenId = T.citizenId ∧ row.rpId = T.rpId) ∧
    (∀ creds body claims aud ttl r, Arrived l₂ t (.token creds body) →
      body.grant_type = "authorization_code" → a = ⟨.jwt (.sign claims aud ttl), r⟩ →
      ∃ T b sub u row, Backed l₂ s T b ∧ Arrived l₂ u (.authorizePoll (some T.authReqId)) ∧
        Did l₂ u ⟨.code (.insert row), some ()⟩ ∧ body.code.map D.sha256Hex = some row.codeHash ∧
        claims.acr = some b.assuranceLevel ∧ claims.sub = some sub ∧
        PairwiseFor D s T.citizenId T.rpId sub) := by
  obtain ⟨c₀, -, -, hr₀, hb, -⟩ := hr.entry
  have hstore : c₀.store = s := hb
  have hgrants : CIBA_GRANT_TYPE ≠ "authorization_code" := by decide
  refine ⟨?_, ?_, ?_⟩
  · rintro creds body claims aud ttl r harrived hgrant rfl
    obtain ⟨q, hq, hsigns, -⟩ := onPath hr
    obtain rfl := hr₀.arrived_unique hq harrived
    obtain ⟨-, -, sub, acr, hsub, hacr, hmint⟩ := hsigns
    obtain ⟨T, b, hbacked, hreq, hal, hpairwise⟩ :=
      backed_of_cibaMint hr₀ (hmint.resolve_right fun h => hgrants (hgrant.symm.trans h.1))
    rw [hstore] at hbacked hpairwise
    exact ⟨T, b, sub, hbacked, hreq, by rw [hacr, hal], hsub, hpairwise⟩
  · rintro row r rfl
    exact backed_of_inserts hr
  · rintro creds body claims aud ttl r harrived hgrant rfl
    obtain ⟨q, hq, hsigns, -⟩ := onPath hr
    obtain rfl := hr₀.arrived_unique hq harrived
    obtain ⟨-, -, sub, acr, hsub, hacr, hmint⟩ := hsigns
    obtain ⟨T, b, u, row, hbacked, hpoll, hins, hcode, hal, hpairwise⟩ :=
      backed_of_codeMint hr₀ (hmint.resolve_left fun h => hgrants (h.1.symm.trans hgrant))
    rw [hstore] at hbacked hpairwise
    exact ⟨T, b, sub, u, row, hbacked, hpoll, hins, hcode, by rw [hacr, hal], hsub, hpairwise⟩

/-! ## A run -/

/-- A relying party is registered, is told a subject, and starts a transaction: calls 4 to 6. -/
def sampleRequest : Script :=
  .arrive (.registerRp (some "admin")
    { name := "Bank", allowedScopes := ["openid"], allowedFlows := [.ciba] }) ::
  Script.go 4 [.uuid (sampleUuid 3), .text "aaaaaaaaaaaa", .text (sampleSecret 's'),
    .text (String.ofList (List.replicate 64 'b')), .unit, sampleRowId] ++
  .arrive (.provisionPairwise (some "admin") (sampleUuid 3).text "1199080012345678") ::
  Script.go 5 [.unit, .unit, .unit, .unit, sampleRowId] ++
  .arrive (.bcAuthorize (some ⟨"rp_aaaaaaaaaaaa", sampleSecret 's'⟩) {
    scope := "openid"
    login_hint := String.ofList (List.replicate 64 'b') ++ (sampleUuid 1).text }) ::
  Script.go 6 [.unit, .unit, .unit, .unit, .unit, .text (sampleSecret 'r'), .uuid (sampleUuid 4), .unit,
    .unit, .unit, sampleRowId]

/-- Call `t` pulls the transaction with the challenge `k`. -/
def samplePull (t : ℕ) (k n : Char) : Script :=
  .arrive (.pending (some "session")) ::
  Script.go t [.unit, .unit, .unit, .unit, .unit, .text (sampleId k), .text (sampleSecret n), .unit, .unit]

/-- Call `t` decides the transaction with the challenge `k`, up to its update; `checks` are the commands
of the checks that only an approval makes. -/
def sampleDecision (t : ℕ) (d : Decision) (checks : List Oracle) (k : Char) : Script :=
  .arrive (.decision (some "session") {
    authReqId := sampleSecret 'r'
    bindingId := (sampleUuid 2).text
    challengeId := sampleId k
    decision := d
    signature := "signed" }) ::
  Script.go t ([.unit, .unit, .unit, .unit, .unit] ++ checks ++ [.unit, .unit])

/-- A transaction is approved by call 8. -/
def sampleApproval : Script :=
  sampleSession ++ sampleRequest ++ samplePull 7 'E' 'F' ++ sampleDecision 8 .approve [.unit] 'E' ++
    Script.go 8 [.unit, sampleRowId, .unit]

/-- The relying party polls with call 9 and is given its tokens. -/
def sampleGrant : Script :=
  sampleApproval ++ .arrive (.token (some ⟨"rp_aaaaaaaaaaaa", sampleSecret 's'⟩)
    { grant_type := CIBA_GRANT_TYPE, auth_req_id := some (sampleSecret 'r') }) ::
  Script.go 9 [.unit, .unit, .unit, .unit, .unit, .unit, .token "id-token" "jti-1",
    .token "access-token" "jti-2", .uuid (sampleUuid 5), .unit, sampleRowId, sampleRowId]

/-- The entry signs a token in call `t`. -/
def signsIn (t : ℕ) (e : Step) : Bool :=
  match e.event with
  | .act t' ⟨.jwt (.sign _ _ _), _⟩ => t' == t
  | _ => false

/-- The entry is the arrival of a CIBA grant for the transaction as call `t`. -/
def grantArrives (t : ℕ) (e : Step) : Bool :=
  match e.event with
  | .arrive t' (.token _ body) =>
    t' == t && body.grant_type == CIBA_GRANT_TYPE && body.auth_req_id == some (sampleSecret 'r')
  | _ => false

theorem exists_of_signsIn {e : Step} (h : signsIn t e = true) :
    ∃ claims aud ttl r, e.event = .act t ⟨.jwt (.sign claims aud ttl), r⟩ := by
  unfold signsIn at h
  split at h
  · rename_i t' claims aud ttl r he
    rw [he, beq_iff_eq.mp h]
    exact ⟨claims, aud, ttl, r, rfl⟩
  · simp at h

theorem exists_of_grantArrives {e : Step} (h : grantArrives t e = true) :
    ∃ creds body, e.event = .arrive t (.token creds body) ∧ body.grant_type = CIBA_GRANT_TYPE ∧
      body.auth_req_id = some (sampleSecret 'r') := by
  unfold grantArrives at h
  split at h
  · rename_i t' creds body he
    simp only [Bool.and_eq_true, beq_iff_eq] at h
    rw [he, h.1.1]
    exact ⟨creds, body, rfl, h.1.2, h.2⟩
  · simp at h

/-- The grant of the run signs two tokens. -/
theorem sampleGrant_reach : ∃ tr c, (broker sampleDeployment).Reach tr c ∧
    (∃ l₁ e l₂ e', tr = l₁ ++ e :: l₂ ∧ signsIn 9 e = true ∧ e' ∈ l₂ ∧ signsIn 9 e' = true) ∧
    ∃ e ∈ tr, grantArrives 9 e = true := by
  obtain ⟨tr, c, hr, hp⟩ := (broker sampleDeployment).exists_of_play sampleGrant.reverse
    (p := fun run => (run.1.filter (signsIn 9)).length == 2 && run.1.any (grantArrives 9))
    (by decide +kernel)
  simp only [Bool.and_eq_true, beq_iff_eq, List.any_eq_true] at hp
  refine ⟨tr, c, hr, ?_, hp.2⟩
  obtain ⟨e, e', hfilter⟩ := List.length_eq_two.mp hp.1
  obtain ⟨l₁, l₂, rfl, -, hsigns, hl₂⟩ := List.filter_eq_cons_iff.mp hfilter
  have he' : e' ∈ l₂.filter (signsIn 9) := by
    rw [hl₂]
    exact List.mem_singleton_self e'
  obtain ⟨hmem, hsigns'⟩ := List.mem_filter.mp he'
  exact ⟨l₁, e, l₂, e', rfl, hsigns, hmem, hsigns'⟩

/-- The tokens of a grant after an approval are backed by that approval. -/
theorem minted_with_signed_approval_sampleGrant :
    ∃ l₁ s t claims aud ttl r l₂ c, (broker sampleDeployment).Reach
        (l₁ ++ ⟨s, .act t ⟨.jwt (.sign claims aud ttl), r⟩⟩ :: l₂) c ∧
      ∃ T b sub, Backed l₂ s T b ∧ claims.acr = some b.assuranceLevel ∧ claims.sub = some sub ∧
        PairwiseFor sampleDeployment s T.citizenId T.rpId sub := by
  obtain ⟨tr, c, hr, ⟨l₁, ⟨s, ev⟩, l₂, -, rfl, hsigns, -⟩, e', he', harrives⟩ := sampleGrant_reach
  obtain ⟨claims, aud, ttl, r, rfl⟩ := exists_of_signsIn hsigns
  obtain ⟨creds, body, hev', hgrant, -⟩ := exists_of_grantArrives harrives
  -- The call that signs arrived before, with the request of the grant.
  obtain ⟨q, k, harrived, -⟩ := hr.act_residue
  obtain rfl := hr.arrived_unique (harrived.mono (older_subset _ _)) ⟨e', he', hev'⟩
  obtain ⟨T, b, sub, hbacked, -, hacr, hsub, hpairwise⟩ :=
    (minted_with_signed_approval hr).1 creds body claims aud ttl r harrived hgrant rfl
  exact ⟨l₁, s, 9, claims, aud, ttl, r, l₂, c, hr, T, b, sub, hbacked, hacr, hsub, hpairwise⟩

end SdidBridge
