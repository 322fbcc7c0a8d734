import SdidBridge.Broker.Approval

/-!
# Revoked devices

What a run can do to the status of a binding is said by `BindingChange`. An activation is the one
command that leads away from `revoked`, because its update names the binding and not the status that
was read: without such an activation, revocation is absorbing (`revoked_stays_revoked`).

A decision reads its binding as active and updates the transaction later. The binding is still active
then, unless it is revoked in between (`approves_while_active`).
-/

namespace SdidBridge

open Concurrent Machine

variable {D : Deployment} {tr l₁ l₂ : Run} {c : State} {s s' : Store} {t u : ℕ}

/-! ## Revocation -/

/-- The entry activates a binding that is revoked. -/
def revives (e : Step) : Bool :=
  match e.event with
  | .act _ ⟨.binding (.activate id _), some _⟩ =>
    e.before.bindings.any fun b => Uuid.ofText id = some b.id ∧ b.status = .revoked
  | _ => false

/-- The binding of an id is stored with a status. -/
def BindingHas (s : Store) (id : Uuid) (P : BindingStatus → Prop) : Prop :=
  ∃ b ∈ s.bindings, b.id = id ∧ P b.status

/-- What a binding has is what every row of its id has. -/
theorem BindingHas.all (hr : (broker D).Reach tr c) {id : Uuid} {P : BindingStatus → Prop}
    (h : BindingHas c.store id P) {b : DeviceBinding} (hb : b ∈ c.store.bindings) (hid : b.id = id) :
    P b.status := by
  obtain ⟨b', hb', hid', hP⟩ := h
  have hbb : b' = b := List.inj_on_of_nodup_map (bindings_nodup hr) hb' hb (hid'.trans hid.symm)
  rwa [hbb] at hP

/-- A step that does not activate a revoked binding leaves it revoked. -/
theorem revoked_kept {e : Step} (hl : (broker D).Leads e s') (he : revives e = false) {id : Uuid}
    (h : BindingHas e.before id (· = .revoked)) : BindingHas s' id (· = .revoked) := by
  obtain ⟨b, hb, rfl, hs⟩ := h
  obtain ⟨b', hb', rfl | ⟨t, a, hev, hc⟩⟩ := (bindings D).row_step bindings_writes hl hb
  · exact ⟨b', hb', rfl, hs⟩
  refine ⟨b', hb', hc.id_eq, ?_⟩
  cases hc with
  | kept _ hstatus _ => rw [hstatus, hs]
  | revoked _ => rfl
  | swept _ _ => rfl
  | @activated id now _ hid =>
    -- The activation would have found the binding revoked.
    have hrevives : revives e = true := by
      rw [revives, hev]
      exact List.any_eq_true.mpr ⟨b, hb, by simp [hid, hs]⟩
    rw [he] at hrevives
    simp at hrevives

/-- Revocation is absorbing in every run in which no activation finds its binding revoked. -/
theorem revoked_stays_revoked (hr : (broker D).Reach tr c) (hno : ∀ e ∈ tr, revives e = false) :
    ∀ e ∈ tr, ∀ b ∈ e.before.bindings, b.status = .revoked →
      ∀ b' ∈ c.store.bindings, b'.id = b.id → b'.status = .revoked := by
  intro e he b hb hs b' hb' hid
  have hend : BindingHas c.store b.id (· = .revoked) :=
    hr.stable (P := fun s => BindingHas s b.id (· = .revoked))
      (fun e he s hl => revoked_kept hl (hno e he)) e he ⟨b, hb, rfl, hs⟩
  exact hend.all hr hb' hid

/-- Call 5 activates the binding 3 up to its update, with the session of the first device open. -/
def sampleThird : Script :=
  sampleSession ++ sampleEnrolment 4 [.unit, .unit, .unit] 3 'E' 'F' ++ sampleActivation 5 3 'E'

/-- Call 6 revokes the binding 3 from the first device. -/
def sampleRevocation : Script :=
  .arrive (.revokeBinding (some "session") (sampleUuid 3).text none) ::
  Script.go 6 [.unit, .unit, .unit, .unit, .unit, sampleRowId]

/-- The last store has a binding active that an earlier one has revoked. -/
def backAgain (tr : Run) (s : Store) : Bool :=
  tr.any fun e => e.before.bindings.any fun b => b.status == .revoked &&
    s.bindings.any fun b' => b'.id == b.id && b'.status == .active

/-- A binding that is revoked after its activation stays revoked. -/
theorem revoked_stays_revoked_sampleRevocation : ∃ tr c, (broker sampleDeployment).Reach tr c ∧
    ∃ e ∈ tr, ∃ b ∈ e.before.bindings, b.status = .revoked ∧
      ∀ b' ∈ c.store.bindings, b'.id = b.id → b'.status = .revoked := by
  obtain ⟨tr, c, hr, hrun⟩ := (broker sampleDeployment).exists_of_play
    (sampleThird ++ Script.go 5 [.unit, sampleRowId] ++ sampleRevocation).reverse
    (p := fun run => run.1.all (fun e => !revives e) &&
      run.1.any fun e => e.before.bindings.any fun b => b.status == .revoked) (by decide +kernel)
  simp only [Bool.and_eq_true, List.all_eq_true, List.any_eq_true, Bool.not_eq_true', beq_iff_eq] at hrun
  obtain ⟨hno, e, he, b, hb, hs⟩ := hrun
  exact ⟨tr, c, hr, e, he, b, hb, hs, revoked_stays_revoked hr hno e he b hb hs⟩

/-- A binding that is revoked while its activation is under way becomes active. -/
theorem revoked_back_sampleRevocation : ∃ tr c, (broker sampleDeployment).Reach tr c ∧
    ∃ e ∈ tr, ∃ b ∈ e.before.bindings, b.status = .revoked ∧
      ∃ b' ∈ c.store.bindings, b'.id = b.id ∧ b'.status = .active := by
  obtain ⟨tr, c, hr, hrun⟩ := (broker sampleDeployment).exists_of_play
    (sampleThird ++ sampleRevocation ++ Script.go 5 [.unit, sampleRowId]).reverse
    (p := fun run => backAgain run.1 run.2.store) (by decide +kernel)
  simp only [backAgain, List.any_eq_true, Bool.and_eq_true, beq_iff_eq] at hrun
  exact ⟨tr, c, hr, hrun⟩

/-! ## The cut-off for approvals -/

/-- The entry revokes a binding. -/
def revokesBinding (b : DeviceBinding) (e : Step) : Bool :=
  match e.event with
  | .act _ ⟨.binding (.revoke id _ _), some _⟩ => Uuid.ofText id == some b.id
  | .act _ ⟨.binding (.revokeActiveOf citizenId _ _), some _⟩ => Uuid.ofText citizenId == some b.citizenId
  | _ => false

/-- The row of a binding, up to what can change, is stored as active. -/
def StoredActive (s : Store) (b : DeviceBinding) : Prop :=
  ∃ b' ∈ s.bindings, b'.identity = b.identity ∧ b'.status = .active

/-- A step that does not revoke a binding leaves it active. -/
theorem active_kept {e : Step} (hl : (broker D).Leads e s') {b : DeviceBinding}
    (he : revokesBinding b e = false) (h : StoredActive e.before b) : StoredActive s' b := by
  obtain ⟨b₀, hb₀, hident, hs⟩ := h
  obtain ⟨b', hb', rfl | ⟨t, a, hev, hc⟩⟩ := (bindings D).row_step bindings_writes hl hb₀
  · exact ⟨b', hb', hident, hs⟩
  refine ⟨b', hb', hc.identity.trans hident, ?_⟩
  simp only [DeviceBinding.identity, Prod.mk.injEq] at hident
  cases hc with
  | kept _ hstatus _ => rw [hstatus, hs]
  | activated _ => rfl
  | @revoked id now reason _ hid =>
    rw [hident.1] at hid
    simp [revokesBinding, hev, bindings, part, hid] at he
  | @swept citizenId now reason _ hid _ =>
    rw [hident.2.1] at hid
    simp [revokesBinding, hev, bindings, part, hid] at he

/-- No binding is revoked between a read of it by a decision call and the update by which that call
approves. -/
def ApprovesUninterrupted (tr : Run) : Prop :=
  ∀ l₁ s u id bindingId now suspicious n l₂,
    tr = l₁ ++ ⟨s, .act u ⟨.txn (.resolve id .approve bindingId now suspicious), some n⟩⟩ :: l₂ →
    ∀ m₁ s₀ k b m₂, l₂ = m₁ ++ ⟨s₀, .act u ⟨.binding (.select k), some (some b)⟩⟩ :: m₂ →
      b.id = bindingId → ∀ e ∈ m₁, revokesBinding b e = false

/-- The row of a binding that a command read. -/
theorem mem_of_select_binding {k : String} {b : DeviceBinding}
    (hr : (broker D).Reach (l₁ ++ ⟨s, .act t ⟨.binding (.select k), some (some b)⟩⟩ :: l₂) c) :
    b ∈ s.bindings := by
  obtain ⟨x, hstep⟩ := (bindings D).step_at ⟨.select k, some (some b)⟩ hr
  rcases hstep with ⟨now, hx⟩ | ⟨hnone, -⟩
  · obtain ⟨v, -, hx⟩ | ⟨hnone, -⟩ := withUuid_eq hx
    · simp only [Prod.mk.injEq, Option.some.injEq] at hx
      exact List.mem_of_find?_eq_some hx.1
    · simp at hnone
  · simp at hnone

/-- A binding that was read as active and was not revoked since is still active. -/
theorem storedActive_since_read {k : String} {b : DeviceBinding}
    (hr : (broker D).Reach (l₁ ++ ⟨s, .act t ⟨.binding (.select k), some (some b)⟩⟩ :: l₂) c)
    (hactive : b.status = .active) (hno : ∀ e ∈ l₁, revokesBinding b e = false) :
    StoredActive c.store b := by
  refine hr.since (P := fun s => StoredActive s b) ?_ fun e he s' hl h => active_kept hl (hno e he) h
  intro s' hl
  exact active_kept hl rfl ⟨b, mem_of_select_binding hr, rfl, hactive⟩

/-- An approval takes effect only while its binding is active, in every run in which no binding is
revoked between its decision call's read of it and that call's update. -/
theorem approves_while_active (hr : (broker D).Reach tr c) (hno : ApprovesUninterrupted tr) :
    ∀ l₁ s u id bindingId now suspicious n l₂,
      tr = l₁ ++ ⟨s, .act u ⟨.txn (.resolve id .approve bindingId now suspicious), some n⟩⟩ :: l₂ →
      ∃ b ∈ s.bindings, b.id = bindingId ∧ b.status = .active := by
  rintro l₁ s u id bindingId now suspicious n l₂ rfl
  -- The call has read the binding as active.
  obtain ⟨q, -, ⟨bearer, body, txn, b, -, hdecision, -, -, rfl⟩, -⟩ := onPath hr
  obtain ⟨c₀, -, -, hr₀, hbefore, -⟩ := hr.entry
  obtain ⟨m₁, s₀, m₂, rfl⟩ := (mem_own.mp hdecision.readBinding).split
  have hkept := hno l₁ s u id b.id now suspicious n _ rfl m₁ s₀ body.bindingId b m₂ rfl rfl
  -- It is active from there on.
  obtain ⟨b', hb', hident, hs⟩ := storedActive_since_read hr₀ hdecision.active hkept
  rw [show c₀.store = s from hbefore] at hb'
  exact ⟨b', hb', congrArg Prod.fst hident, hs⟩

/-- The entry revokes nothing. -/
def revokesNone (e : Step) : Bool :=
  match e.event with
  | .act _ ⟨.binding (.revoke _ _ _), _⟩ => false
  | .act _ ⟨.binding (.revokeActiveOf _ _ _), _⟩ => false
  | _ => true

theorem not_revokes_of_none {e : Step} (h : revokesNone e = true) (b : DeviceBinding) :
    revokesBinding b e = false := by
  unfold revokesNone at h
  unfold revokesBinding
  split at h <;> simp_all

/-- The entry approves with a binding. -/
def approvesWith (bindingId : Uuid) (e : Step) : Bool :=
  match e.event with
  | .act _ ⟨.txn (.resolve _ .approve id _ _), some n⟩ => id == bindingId && n != 0
  | _ => false

theorem exists_of_approvesWith {bindingId : Uuid} {e : Step} (h : approvesWith bindingId e = true) :
    ∃ s u id now suspicious n, n ≠ 0 ∧
      e = ⟨s, .act u ⟨.txn (.resolve id .approve bindingId now suspicious), some n⟩⟩ := by
  obtain ⟨s, ev⟩ := e
  unfold approvesWith at h
  split at h
  · rename_i u id bindingId' now suspicious n he
    simp only [Bool.and_eq_true, beq_iff_eq, bne_iff_ne, ne_eq] at h
    simp only at he
    rw [he, h.1]
    exact ⟨s, u, id, now, suspicious, n, h.2, rfl⟩
  · simp at h

/-- The approval of the run takes effect while its binding is active. -/
theorem approves_while_active_sampleApproval : ∃ l₁ s u id now suspicious n l₂ c,
    (broker sampleDeployment).Reach
      (l₁ ++ ⟨s, .act u ⟨.txn (.resolve id .approve (sampleUuid 2) now suspicious), some n⟩⟩ :: l₂) c ∧
    n ≠ 0 ∧ ∃ b ∈ s.bindings, b.id = sampleUuid 2 ∧ b.status = .active := by
  obtain ⟨tr, c, hr, hrun⟩ := (broker sampleDeployment).exists_of_play sampleApproval.reverse
    (p := fun run => run.1.all revokesNone && run.1.any (approvesWith (sampleUuid 2)))
    (by decide +kernel)
  simp only [Bool.and_eq_true, List.all_eq_true, List.any_eq_true] at hrun
  obtain ⟨hnone, e, he, happroves⟩ := hrun
  obtain ⟨s, u, id, now, suspicious, n, hn, rfl⟩ := exists_of_approvesWith happroves
  have hno : ApprovesUninterrupted tr := by
    rintro k₁ s₁ v id₁ bid now₁ susp n₁ k₂ rfl m₁ s₀ k b m₂ rfl - e' he'
    refine not_revokes_of_none (hnone e' ?_) b
    simp [he']
  obtain ⟨l₁, l₂, rfl⟩ := List.append_of_mem he
  exact ⟨l₁, s, u, id, now, suspicious, n, l₂, c, hr, hn,
    approves_while_active hr hno l₁ s u id _ now suspicious n l₂ rfl⟩

/-- Call 8 approves, and the binding is revoked by call 9 before the update of call 8. -/
def sampleLostPhone : Script :=
  sampleSession ++ sampleRequest ++ samplePull 7 'E' 'F' ++ sampleDecision 8 .approve [.unit] 'E' ++
  .arrive (.revokeBinding (some "session") (sampleUuid 2).text none) ::
  Script.go 9 [.unit, .unit, .unit, .unit, .unit, sampleRowId] ++ Script.go 8 [.unit]

/-- A transaction is approved with a binding that is revoked. -/
theorem approves_with_revoked_sampleLostPhone : ∃ l₁ s u id now suspicious n l₂ c,
    (broker sampleDeployment).Reach
      (l₁ ++ ⟨s, .act u ⟨.txn (.resolve id .approve (sampleUuid 2) now suspicious), some n⟩⟩ :: l₂) c ∧
    n ≠ 0 ∧ ¬ ∃ b ∈ s.bindings, b.id = sampleUuid 2 ∧ b.status = .active := by
  obtain ⟨tr, c, hr, hrun⟩ := (broker sampleDeployment).exists_of_play sampleLostPhone.reverse
    (p := fun run => run.1.any fun e => approvesWith (sampleUuid 2) e &&
      !e.before.bindings.any fun b => b.id == sampleUuid 2 && b.status == .active) (by decide +kernel)
  simp only [List.any_eq_true, Bool.and_eq_true, Bool.not_eq_true'] at hrun
  obtain ⟨e, he, happroves, hinactive⟩ := hrun
  obtain ⟨s, u, id, now, suspicious, n, hn, rfl⟩ := exists_of_approvesWith happroves
  obtain ⟨l₁, l₂, rfl⟩ := List.append_of_mem he
  refine ⟨l₁, s, u, id, now, suspicious, n, l₂, c, hr, hn, ?_⟩
  rintro ⟨b, hb, hid, hs⟩
  have := List.any_eq_false.mp hinactive b hb
  simp [hid, hs] at this

end SdidBridge
