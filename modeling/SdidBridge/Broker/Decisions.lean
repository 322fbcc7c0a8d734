import SdidBridge.Broker.Approval

/-!
# The decision that is reported

A decision call checks that its transaction is pending, awaits several answers, and then updates the
transaction where it is still pending. It does not look at how many rows it updated: it audits its
decision and returns it either way. So what it reports is what it stored as long as the transaction is
still pending when the update comes (`reported_is_stored`), and is not when another device's decision
comes in between.
-/

namespace SdidBridge

open Concurrent Machine

variable {D : Deployment} {tr l₁ l₂ : Run} {c : State} {s : Store} {t u : ℕ}

/-- The transaction of a request id is stored with a status. -/
def HasStatus (s : Store) (authReqId : String) (status : TxnStatus) : Prop :=
  ∃ T ∈ s.txns, T.authReqId = authReqId ∧ T.status = status

instance (s : Store) (authReqId : String) (status : TxnStatus) :
    Decidable (HasStatus s authReqId status) :=
  inferInstanceAs (Decidable (∃ T ∈ s.txns, T.authReqId = authReqId ∧ T.status = status))

/-- A command of call `u` moved the transaction of a request id from pending to `status`. -/
def Moved (tr : Run) (c : State) (u : ℕ) (authReqId : String) (status : TxnStatus) : Prop :=
  ∃ p ∈ steps tr c.store, (∃ a, p.1.event = .act u a) ∧ HasStatus p.1.before authReqId .pending ∧
    HasStatus p.2 authReqId status

/-- The update of a decision, where it was answered, finds its transaction pending. -/
def findsPending (e : Step) : Bool :=
  match e.event with
  | .act _ ⟨.txn (.resolve id _ _ _ _), some _⟩ =>
    e.before.txns.any fun T => T.id = id ∧ T.status = .pending
  | _ => true

/-- Every update of a decision that was answered found its transaction pending. -/
def ResolvesPending (tr : Run) : Prop := ∀ e ∈ tr, findsPending e = true

/-- What the update of a decision does to a pending transaction. -/
theorem resolved_of_leads {id bindingId : Uuid} {d : Decision} {now : Time} {suspicious : Bool}
    {n : ℕ} {s' : Store}
    (hl : (broker D).Leads ⟨s, .act u ⟨.txn (.resolve id d bindingId now suspicious), some n⟩⟩ s')
    {T : AuthTransaction} (hT : T ∈ s.txns) (hid : T.id = id) (hs : T.status = .pending) :
    T.resolvedAs d bindingId now suspicious ∈ s'.txns := by
  have hstep := (txns D).leads_act ⟨.resolve id d bindingId now suspicious, some n⟩ hl
  rcases hstep with ⟨at', hx⟩ | ⟨hnone, -⟩
  · have hrows : s'.txns = Table.update (fun T => T.id = id ∧ T.status = .pending)
        (fun T => T.resolvedAs d bindingId now suspicious) s.txns := (congrArg Prod.snd hx).symm
    rw [hrows, Table.mem_update]
    exact ⟨T, hT, if_pos (by simp [hid, hs])⟩
  · simp at hnone

/-- An update that finds its transaction pending moves the transaction that its call was asked
about. -/
theorem moved_of_resolves {id bindingId : Uuid} {d : Decision} {now : Time} {suspicious : Bool}
    {n : ℕ} {bearer : Option String} {body : CibaDecisionRequest} (hr : (broker D).Reach tr c)
    (hp : ResolvesPending tr) (harrived : Arrived tr u (.decision bearer body))
    (hd : Did tr u ⟨.txn (.resolve id d bindingId now suspicious), some n⟩) :
    Moved tr c u body.authReqId d.status := by
  obtain ⟨⟨s, ev⟩, he, rfl⟩ := hd
  obtain ⟨T, hT, hid, hs⟩ : ∃ T ∈ s.txns, T.id = id ∧ T.status = .pending := by
    simpa [findsPending] using hp _ he
  obtain ⟨s', hstep⟩ := mem_steps he c.store
  have hres := resolved_of_leads (hr.steps_lead _ hstep) hT hid hs
  -- The transaction is the one that the call read under the request id.
  obtain ⟨l₁, l₂, rfl⟩ := List.append_of_mem he
  obtain ⟨q, hq, hresolves, -⟩ := onPath hr
  obtain ⟨bearer', body', txn, binding, rfl, hdecision, hid', -, -⟩ := hresolves
  have hsame := hr.arrived_unique (hq.mono (older_subset _ _)) harrived
  simp only [Request.decision.injEq] at hsame
  obtain ⟨rfl, rfl⟩ := hsame
  obtain ⟨c₀, -, -, hr₀, hb, -⟩ := hr.entry
  obtain ⟨hreq, T₀, hT₀, hT₀id⟩ := txn_of_read hr₀ (mem_own.mp hdecision.readTxn)
  rw [← show c₀.store = s from hb] at hT
  have hTT : T₀ = T := by
    refine List.inj_on_of_nodup_map (txns_nodup hr₀) hT₀ hT ?_
    calc T₀.id = txn.id := congrArg Prod.fst hT₀id
      _ = T.id := by rw [hid, hid']
  have hTreq : T.authReqId = body'.authReqId := by
    rw [← hTT, ← hreq]
    exact congrArg (fun i => i.2.1) hT₀id
  rw [hb] at hT
  exact ⟨_, hstep, ⟨_, rfl⟩, ⟨T, hT, hTreq, hs⟩, ⟨_, hres, hTreq, rfl⟩⟩

/-- A call that has returned has returned a value of its endpoint. -/
theorem along_reply {α : Type} (p : H α) (f : α → Reply) (h : Path) :
    Prog.Along (fun _ _ => True) (fun _ r => ∀ v, r = .ok v → ∃ a, v = f a) h (p.reply f) := by
  induction p generalizing h with
  | ret a =>
    intro v hv
    exact ⟨a, (Except.ok.inj hv).symm⟩
  | raise e =>
    intro v hv
    simp at hv
  | call o k ih => exact ⟨trivial, fun r => ih r _⟩

/-- A decision call that has returned has returned a decision. -/
theorem decided_of_returned (hr : (broker D).Reach tr c) {bearer : Option String}
    {body : CibaDecisionRequest} (harrived : Arrived tr u (.decision bearer body)) {v : Reply}
    (hv : c.calls[u]? = some (.ret v)) : ∃ status, v = .decided status := by
  obtain ⟨q, hq, hres⟩ := hr.residue hv
  obtain rfl := hr.arrived_unique hq harrived
  exact hres.along (along_reply (decision D bearer body) .decided []) v rfl

/-- What the decision calls of a run report is what they stored. -/
structure ReportsStored (tr : Run) (c : State) : Prop where
  /-- A call that returned a status moved its transaction to it. -/
  returned : ∀ u status, c.calls[u]? = some (.ret (.decided status)) →
    ∃ bearer body, Arrived tr u (.decision bearer body) ∧ Moved tr c u body.authReqId status
  /-- A call that audits a decision moved its transaction to it. -/
  audited : ∀ u event r (d : Decision), Did tr u ⟨.audit (.append event), r⟩ →
    event.action = d.action →
      ∃ bearer body, Arrived tr u (.decision bearer body) ∧ Moved tr c u body.authReqId d.status
  /-- A call that is over and moved nothing threw, and audited no decision. -/
  lost : ∀ u bearer body, Arrived tr u (.decision bearer body) → ¬ InProgress c u →
    (∀ status, ¬ Moved tr c u body.authReqId status) →
      (∃ e, c.calls[u]? = some (.raise e)) ∧
      ∀ event r (d : Decision), event.action = d.action → ¬ Did tr u ⟨.audit (.append event), r⟩

/-- A call that returned a status moved its transaction to it. -/
theorem moved_of_returned (hr : (broker D).Reach tr c) (hp : ResolvesPending tr) {status : TxnStatus}
    (hv : c.calls[u]? = some (.ret (.decided status))) :
    ∃ bearer body, Arrived tr u (.decision bearer body) ∧ Moved tr c u body.authReqId status := by
  obtain ⟨q, hq, -, hdecided⟩ := hr.ret_along (paths D) hv
  obtain ⟨bearer, body, id, bindingId, now, suspicious, n, rfl, rfl, hmem⟩ := hdecided
  exact ⟨bearer, body, hq, moved_of_resolves hr hp hq (mem_own.mp hmem)⟩

/-- A call that audits a decision moved its transaction to it. -/
theorem moved_of_audits (hr : (broker D).Reach tr c) (hp : ResolvesPending tr)
    {event : AuditEventInput} {r : Option Unit} {d : Decision}
    (hd : Did tr u ⟨.audit (.append event), r⟩) (haction : event.action = d.action) :
    ∃ bearer body, Arrived tr u (.decision bearer body) ∧ Moved tr c u body.authReqId d.status := by
  obtain ⟨l₁, s, l₂, rfl⟩ := hd.split
  obtain ⟨q, hq, haudits, -⟩ := onPath hr
  have hdecision : event.action = .cibaRequestApproved ∨ event.action = .cibaRequestDenied := by
    rw [haction]
    cases d with
    | approve => exact .inl rfl
    | deny => exact .inr rfl
  obtain ⟨bearer, body, id, bindingId, now, suspicious, n, h', rfl, haction', hpath⟩ :=
    haudits hdecision
  have hd' : d = body.decision := by
    have hactions : d.action = body.decision.action := haction.symm.trans haction'
    cases d <;> cases hb : body.decision <;> simp_all [Decision.action]
  have hresolve : Did l₂ u ⟨.txn (.resolve id body.decision bindingId now suspicious), some n⟩ := by
    rw [← mem_own, hpath]
    exact List.mem_cons_self
  refine ⟨bearer, body, hq.mono (older_subset _ _), ?_⟩
  rw [hd']
  exact moved_of_resolves hr hp (hq.mono (older_subset _ _)) (hresolve.mono (older_subset _ _))

/-- A reported decision is the stored decision, in every run in which each decision's update finds its
transaction pending. -/
theorem reported_is_stored (hr : (broker D).Reach tr c) (hp : ResolvesPending tr) :
    ReportsStored tr c := by
  refine ⟨fun u status hv => moved_of_returned hr hp hv,
    fun u event r d hd haction => moved_of_audits hr hp hd haction, ?_⟩
  intro u bearer body harrived hover hlost
  have hlt : u < c.calls.length := hr.arrived_lt harrived
  refine ⟨?_, ?_⟩
  · obtain ⟨p, hcall⟩ : ∃ p, c.calls[u]? = some p := ⟨_, List.getElem?_eq_getElem hlt⟩
    cases p with
    | raise e => exact ⟨e, hcall⟩
    | call o k => exact absurd ⟨o, k, hcall⟩ hover
    | ret v =>
      obtain ⟨status, rfl⟩ := decided_of_returned hr harrived hcall
      obtain ⟨bearer', body', harrived', hmoved⟩ := moved_of_returned hr hp hcall
      obtain ⟨rfl, rfl⟩ := Request.decision.inj (hr.arrived_unique harrived' harrived)
      exact absurd hmoved (hlost status)
  · intro event r d haction hd
    obtain ⟨bearer', body', harrived', hmoved⟩ := moved_of_audits hr hp hd haction
    obtain ⟨rfl, rfl⟩ := Request.decision.inj (hr.arrived_unique harrived' harrived)
    exact hlost d.status hmoved

/-! ## Runs -/

/-- Call `u` has returned a decision. -/
def returnsDecided (u : ℕ) (status : TxnStatus) (c : State) : Bool :=
  match c.calls[u]? with
  | some (.ret (.decided status')) => status' == status
  | _ => false

theorem returned_of_returnsDecided {status : TxnStatus} (h : returnsDecided u status c = true) :
    c.calls[u]? = some (.ret (.decided status)) := by
  unfold returnsDecided at h
  split at h
  · rename_i status' heq
    rw [heq, beq_iff_eq.mp h]
  · simp at h

/-- The approval of the run is stored. -/
theorem reported_is_stored_sampleApproval : ∃ tr c, (broker sampleDeployment).Reach tr c ∧
    ResolvesPending tr ∧ ∃ bearer body, Arrived tr 8 (.decision bearer body) ∧
      Moved tr c 8 body.authReqId .approved := by
  obtain ⟨tr, c, hr, hrun⟩ := (broker sampleDeployment).exists_of_play sampleApproval.reverse
    (p := fun run => run.1.all findsPending && returnsDecided 8 .approved run.2) (by decide +kernel)
  simp only [Bool.and_eq_true, List.all_eq_true] at hrun
  have hv := returned_of_returnsDecided hrun.2
  exact ⟨tr, c, hr, hrun.1, (reported_is_stored hr hrun.1).returned 8 .approved hv⟩

/-- Two devices decide: call 10 denies, after call 9 has approved, having read the transaction
before. -/
def sampleRace : Script :=
  sampleSession ++ sampleRequest ++ samplePull 7 'E' 'F' ++ samplePull 8 'G' 'H' ++
    sampleDecision 9 .approve [.unit] 'E' ++ sampleDecision 10 .deny [] 'G' ++
    Script.go 9 [.unit, sampleRowId, .unit] ++ Script.go 10 [.unit, sampleRowId, .unit]

/-- No command of call `u` moves a transaction from pending to `status`. -/
def movesNone (u : ℕ) (status : TxnStatus) (p : Step × Store) : Bool :=
  match p.1.event with
  | .act u' _ => u' != u || p.1.before.txns.all fun T => T.status != .pending ||
      p.2.txns.all fun T' => T'.authReqId != T.authReqId || T'.status != status
  | _ => true

theorem not_moved_of_movesNone {status : TxnStatus} {authReqId : String}
    (h : ∀ p ∈ steps tr c.store, movesNone u status p = true) :
    ¬ Moved tr c u authReqId status := by
  rintro ⟨p, hp, ⟨a, ha⟩, ⟨T, hT, hreq, hpending⟩, T', hT', hreq', hs⟩
  have hmoves := h p hp
  simp only [movesNone, ha, bne_self_eq_false, Bool.false_or, List.all_eq_true] at hmoves
  have hT₀ := hmoves T hT
  simp only [hpending, bne_self_eq_false, Bool.false_or, List.all_eq_true] at hT₀
  have hT₁ := hT₀ T' hT'
  rw [hreq', hreq, hs] at hT₁
  simp at hT₁

/-- A denial that lost the race is returned and audited as a denial, while the transaction is
approved. -/
theorem reported_not_stored_sampleRace : ∃ tr c, (broker sampleDeployment).Reach tr c ∧
    c.calls[10]? = some (.ret (.decided .denied)) ∧ HasStatus c.store (sampleSecret 'r') .approved ∧
    ¬ ReportsStored tr c := by
  obtain ⟨tr, c, hr, hrun⟩ := (broker sampleDeployment).exists_of_play sampleRace.reverse
    (p := fun run => returnsDecided 10 .denied run.2 &&
      decide (HasStatus run.2.store (sampleSecret 'r') .approved) &&
      (steps run.1 run.2.store).all (movesNone 10 .denied)) (by decide +kernel)
  simp only [Bool.and_eq_true, List.all_eq_true, decide_eq_true_eq] at hrun
  obtain ⟨⟨hreturns, hstatus⟩, hmoves⟩ := hrun
  have hv := returned_of_returnsDecided hreturns
  refine ⟨tr, c, hr, hv, hstatus, fun h => ?_⟩
  obtain ⟨bearer, body, -, hmoved⟩ := h.returned 10 .denied hv
  exact not_moved_of_movesNone hmoves hmoved

end SdidBridge
