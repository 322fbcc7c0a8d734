import SdidBridge.Broker.Suspension
import SdidBridge.Concurrent.Alone
import SdidBridge.Concurrent.Rounds

/-!
# What a sweep achieves

The citizens with a due binding are a roll, and a sweep over which nothing else runs is a round over it
(`round_of_sweep`). A citizen who cannot be re-asserted, because the row is not active or has no SDID subject, is
passed over and counted as revoked, stays due, and takes a place in the batch of every later sweep. A sweep
therefore makes the progress that it reports if and only if nobody in its batch is passed over
(`sweep_truthful_iff`).
-/

namespace SdidBridge

open Concurrent Machine

variable {D : Deployment} {tr : Run} {c : State} {s s' : Store} {h : Path}

/-! ## The roll of the citizens -/

/-- The row of a citizen. -/
def citizenOf (citizens : List Citizen) (id : Uuid) : Option Citizen := citizens.find? fun k => k.id = id

/-- SDID can be asked about the citizen. -/
def Citizen.Askable (k : Citizen) : Prop := k.status = .active ∧ (k.sdidSubject.filter (· ≠ "")).isSome = true

instance (k : Citizen) : Decidable k.Askable := inferInstanceAs (Decidable (_ ∧ _))

/-- The citizens with an active binding that is due, those who can be re-asserted, and those who are suspended. -/
def rollOf (D : Deployment) (now : Time) (citizens : List Citizen) (bindings : List DeviceBinding) :
    Roll Uuid where
  due := ((bindings.filter fun b => b.status = .active ∧ isDue D b now false = true).map (·.citizenId)).toFinset
  askable := (citizens.map (·.id)).toFinset.filter fun id => ∃ k ∈ citizenOf citizens id, k.Askable
  struck := (citizens.map (·.id)).toFinset.filter fun id => ∃ k ∈ citizenOf citizens id, k.status = .suspended
  apart := by
    rw [Finset.disjoint_filter]
    rintro id - ⟨k, hk, hask⟩ ⟨k', hk', hsuspended⟩
    obtain rfl : k = k' := Option.mem_unique hk hk'
    simp [Citizen.Askable, hsuspended] at hask

/-- The roll of a store. -/
def Store.roll (D : Deployment) (s : Store) : Roll Uuid := rollOf D s.now s.citizens s.bindings

/-- Whether a valid answer makes a binding current. -/
def Deployment.clears (D : Deployment) : Bool := 0 < D.config.REVERIFY_INTERVAL_SECONDS

section Roll

variable {now t : Time} {citizens : List Citizen} {bindings : List DeviceBinding} {id : Uuid}

theorem mem_due : id ∈ (rollOf D now citizens bindings).due ↔
    ∃ b ∈ bindings, b.status = .active ∧ isDue D b now false = true ∧ b.citizenId = id := by
  simp [rollOf, and_assoc]

theorem mem_ids_of_citizenOf {k : Citizen} (hk : k ∈ citizenOf citizens id) :
    id ∈ (citizens.map (·.id)).toFinset := by
  have hid : k.id = id := by simpa using List.find?_some hk
  rw [List.mem_toFinset, ← hid]
  exact List.mem_map_of_mem (List.mem_of_find?_eq_some hk)

theorem mem_askable : id ∈ (rollOf D now citizens bindings).askable ↔
    ∃ k ∈ citizenOf citizens id, k.Askable := by
  unfold rollOf
  rw [Finset.mem_filter, and_iff_right_iff_imp]
  rintro ⟨k, hk, -⟩
  exact mem_ids_of_citizenOf hk

theorem mem_struck : id ∈ (rollOf D now citizens bindings).struck ↔
    ∃ k ∈ citizenOf citizens id, k.status = .suspended := by
  unfold rollOf
  rw [Finset.mem_filter, and_iff_right_iff_imp]
  rintro ⟨k, hk, -⟩
  exact mem_ids_of_citizenOf hk

/-- The bindings of a citizen whom SDID found valid. -/
def reassertedOf (id : Uuid) (now : Time) (bindings : List DeviceBinding) : List DeviceBinding :=
  Table.update (fun b => b.citizenId = id ∧ b.status = .active) (fun b => { b with lastReassertedAt := some now })
    bindings

/-- The bindings of a citizen whom SDID found invalid. -/
def revokedOf (id : Uuid) (now : Time) (reason : String) (bindings : List DeviceBinding) : List DeviceBinding :=
  Table.update (fun b => b.citizenId = id ∧ b.status = .active) (fun b => b.revokedWith now reason) bindings

/-- The citizens once one of them is suspended. -/
def suspendedOf (id : Uuid) (now : Time) (citizens : List Citizen) : List Citizen :=
  Table.update (fun k => k.id = id) (fun k => { k with status := .suspended, updatedAt := now }) citizens

/-- A valid answer makes all bindings of the citizen current, unless everything is due at once. -/
theorem roll_reasserted (hdue : id ∈ (rollOf D now citizens bindings).due) :
    rollOf D now citizens (reassertedOf id now bindings) =
      (rollOf D now citizens bindings).enter D.clears id .valid := by
  have hfresh : ∀ b : DeviceBinding, isDue D { b with lastReassertedAt := some now } now false = !D.clears := by
    intro b
    simp [isDue, lastSdidContact, Deployment.clears, Nat.pos_iff_ne_zero]
  have hmem : ∀ j, j ∈ (rollOf D now citizens (reassertedOf id now bindings)).due ↔
      j ∈ (rollOf D now citizens bindings).due ∧ (j = id → D.clears = false) := by
    intro j
    rw [mem_due, mem_due]
    unfold reassertedOf
    constructor
    · rintro ⟨b', hb', hactive, hisDue, rfl⟩
      obtain ⟨b, hb, rfl⟩ := Table.mem_update.mp hb'
      split_ifs at hactive hisDue ⊢ with hp
      · simp only [decide_eq_true_eq] at hp
        rw [hfresh] at hisDue
        refine ⟨?_, fun _ => by simpa using hisDue⟩
        exact mem_due.mp (by simpa [hp.1] using hdue)
      · simp only [decide_eq_true_eq, not_and'] at hp
        exact ⟨⟨b, hb, hactive, hisDue, rfl⟩, fun heq => absurd heq (hp hactive)⟩
    · rintro ⟨⟨b, hb, hactive, hisDue, rfl⟩, hnot⟩
      have hmem := Table.update_mem (p := fun b => b.citizenId = id ∧ b.status = .active)
        (f := fun b => { b with lastReassertedAt := some now }) hb
      refine ⟨_, hmem, ?_, ?_, ?_⟩
      · split_ifs <;> exact hactive
      · split_ifs with hp
        · simp only [decide_eq_true_eq] at hp
          rw [hfresh, hnot hp.1]
          rfl
        · exact hisDue
      · split_ifs <;> rfl
  unfold Roll.enter
  ext j
  · simp only
    rw [hmem]
    cases hclears : D.clears with
    | false => simp
    | true => simp [and_comm]
  · cases D.clears <;> rfl
  · cases D.clears <;> rfl

/-- An invalid answer suspends the citizen, who has no active binding any more. -/
theorem roll_suspended {reason : String} (hrow : ∃ k, k ∈ citizenOf citizens id) :
    rollOf D now (suspendedOf id t citizens) (revokedOf id t reason bindings) =
      (rollOf D now citizens bindings).enter D.clears id .invalid := by
  have hfound : ∀ j, citizenOf (suspendedOf id t citizens) j = (citizenOf citizens j).map fun k =>
      if j = id then { k with status := .suspended, updatedAt := t } else k := by
    intro j
    have hkey : ∀ k : Citizen, ({ k with status := .suspended, updatedAt := t } : Citizen).id = k.id := fun _ => rfl
    exact Table.find_update hkey id j citizens
  unfold Roll.enter
  ext j
  · rw [Finset.mem_erase, mem_due, mem_due]
    unfold revokedOf
    constructor
    · rintro ⟨b', hb', hactive, hisDue, rfl⟩
      obtain ⟨b, hb, rfl⟩ := Table.mem_update.mp hb'
      split_ifs at hactive hisDue ⊢ with hp
      · simp [DeviceBinding.revokedWith] at hactive
      · simp only [decide_eq_true_eq, not_and'] at hp
        exact ⟨hp hactive, b, hb, hactive, hisDue, rfl⟩
    · rintro ⟨hne, b, hb, hactive, hisDue, rfl⟩
      have hmem := Table.update_mem (p := fun b => b.citizenId = id ∧ b.status = .active)
        (f := fun b => b.revokedWith t reason) hb
      rw [if_neg (by simp [hne])] at hmem
      exact ⟨b, hmem, hactive, hisDue, rfl⟩
  · rw [Finset.mem_erase, mem_askable, mem_askable, hfound]
    by_cases hj : j = id
    · simp [hj, Citizen.Askable]
    · simp [hj]
  · rw [Finset.mem_insert, mem_struck, mem_struck, hfound]
    by_cases hj : j = id
    · obtain ⟨k, hk⟩ := hrow
      simp only [hj, true_or, iff_true]
      exact ⟨_, Option.mem_map_of_mem _ hk, by simp⟩
    · simp [hj]

end Roll

/-! ## The batch -/

theorem mem_dueCitizens {now : Time} {bs : List DeviceBinding} {id : Uuid} :
    id ∈ (dueCitizens D now bs).map Prod.fst ↔ ∃ b ∈ bs, isDue D b now false = true ∧ b.citizenId = id := by
  induction bs with
  | nil => simp [dueCitizens]
  | cons b bs ih =>
    unfold dueCitizens
    split_ifs with hdue
    · by_cases hid : b.citizenId = id
      · simp [hid, hdue]
      · have hkept : id ∈ ((dueCitizens D now bs).filter fun p => p.1 ≠ b.citizenId).map Prod.fst ↔
            id ∈ (dueCitizens D now bs).map Prod.fst := by
          simp [Ne.symm hid]
        rw [List.map_cons, List.mem_cons, hkept, ih]
        simp [hid, Ne.symm hid]
    · simp [ih, hdue]

theorem nodup_dueCitizens {now : Time} (bs : List DeviceBinding) :
    ((dueCitizens D now bs).map Prod.fst).Nodup := by
  induction bs with
  | nil => exact List.nodup_nil
  | cons b bs ih =>
    unfold dueCitizens
    split_ifs with hdue
    · rw [List.map_cons, List.nodup_cons]
      refine ⟨by simp, ?_⟩
      exact ih.sublist (List.filter_sublist.map _)
    · exact ih

/-- The citizens of a sweep, each with a binding. -/
def sweepBatch (D : Deployment) (limit : ℕ) (s : Store) : List (Uuid × Uuid) :=
  (dueCitizens D s.now (s.bindings.filter fun b => b.status = .active)).take limit

/-- A sweep takes a batch of those who are due. -/
theorem batch_of_sweep (limit : ℕ) : (s.roll D).Batch limit ((sweepBatch D limit s).map Prod.fst) := by
  have hnodup : ((dueCitizens D s.now (s.bindings.filter fun b => b.status = .active)).map Prod.fst).Nodup :=
    nodup_dueCitizens _
  have hmem : ∀ id, id ∈ (dueCitizens D s.now (s.bindings.filter fun b => b.status = .active)).map Prod.fst ↔
      id ∈ (s.roll D).due := by
    intro id
    rw [mem_dueCitizens, Store.roll, mem_due]
    simp [and_assoc]
  have hdue : ((dueCitizens D s.now (s.bindings.filter fun b => b.status = .active)).map Prod.fst).toFinset =
      (s.roll D).due := by
    ext id
    rw [List.mem_toFinset, hmem]
  unfold sweepBatch
  rw [List.map_take]
  constructor
  · exact hnodup.sublist (List.take_sublist _ _)
  · intro id hid
    exact (hmem id).mp (List.mem_of_mem_take hid)
  · rw [List.length_take, ← hdue, List.toFinset_card_of_nodup hnodup]

/-! ## What the code does -/

/-- The answer of SDID to a command, if it re-asserts somebody. -/
def verdictOf : Cmd → Option ReassertResult
  | ⟨.service (.reassert _), some verdict⟩ => some verdict
  | _ => none

/-- How many citizens SDID has declared valid. -/
def declaredValid (h : Path) : ℕ := (h.filterMap verdictOf).countP (·.valid)

theorem declaredValid_append (h₁ h₂ : Path) : declaredValid (h₁ ++ h₂) = declaredValid h₁ + declaredValid h₂ := by
  unfold declaredValid
  rw [List.filterMap_append, List.countP_append]

/-- What a sweep does about a citizen: the finding is entered in the roll. -/
structure Enters (D : Deployment) (s : Store) (id : Uuid) (h : Path) (s' : Store) (f : Finding) : Prop where
  /-- The citizen is passed over if and only if SDID cannot be asked. -/
  passed : f = .passed ↔ id ∉ (s.roll D).askable
  /-- The roll has the finding. -/
  roll : s'.roll D = (s.roll D).enter D.clears id f
  /-- SDID has declared the citizen valid if and only if that is the finding. -/
  declared : declaredValid h = if f = .valid then 1 else 0
  /-- The clock has not moved. -/
  now : s'.now = s.now

section Alone

variable {id : Uuid} {x : Except Failure ReassertOutcome} {bindingId trigger : String}

/-- The row of a citizen is read. -/
theorem select_of_exec {i : Oracle} {r : Option Citizen} {s₁ : Store}
    (hx : Op.exec D.engine i s (.citizen (.select id.text)) = some (some r, s₁)) :
    r = citizenOf s.citizens id ∧ s = s₁ := by
  simp only [Op.exec, CitizenOp.exec, withUuid, Uuid.ofText_text, Option.some.injEq, Prod.mk.injEq] at hx
  exact ⟨hx.1.symm, hx.2⟩

/-- An event is appended, and nothing else changes. -/
theorem append_of_exec {i : Oracle} {event : AuditEventInput} {s₁ : Store} {r : Option Unit}
    (hx : Op.exec D.engine i s (.audit (.append event)) = some (r, s₁)) :
    s₁.roll D = s.roll D ∧ s₁.now = s.now := by
  obtain ⟨⟨r', rows⟩, -, heq⟩ := Option.map_eq_some_iff.mp hx
  obtain ⟨-, rfl⟩ := Prod.mk.inj heq
  exact ⟨rfl, rfl⟩

/-- What the re-assertion of a citizen does who is due. -/
theorem alone_reassertNow
    (hp : Alone (Op.exec D.engine) s (reassertNow id.text bindingId trigger s.now) h s' x) (hans : Answered h)
    (hdue : id ∈ (s.roll D).due) :
    ∃ f, Enters D s id h s' f ∧ ((∃ a, f = .valid ∧ x = .ok ⟨true, a⟩) ∨ (f ≠ .valid ∧ x = .error cannotReassert)) := by
  have hnever : id ∉ (s.roll D).askable →
      Enters D s id ([] ++ [⟨.citizen (.select id.text), some (citizenOf s.citizens id)⟩]) s .passed := by
    intro hnot
    exact ⟨by simp [hnot], rfl, rfl, rfl⟩
  have hask : id ∈ (s.roll D).askable ↔ ∃ k ∈ citizenOf s.citizens id, k.Askable := mem_askable
  unfold reassertNow at hp
  obtain ⟨i, row, s₁, h₁, hx, rfl, hans₁, hp⟩ := hp.of_perform_bind hans
  obtain ⟨rfl, rfl⟩ := select_of_exec hx
  rcases alone_orThrow_bind.mp hp with ⟨hnone, rfl, rfl, rfl⟩ | ⟨k, hk, hp⟩
  · -- There is no row.
    exact ⟨.passed, hnever (by simp [hask, hnone]), .inr ⟨by simp, rfl⟩⟩
  rcases alone_throwIf_bind.mp hp with ⟨hinactive, rfl, rfl, rfl⟩ | ⟨hactive, hp⟩
  · -- The citizen is not active.
    refine ⟨.passed, hnever ?_, .inr ⟨by simp, rfl⟩⟩
    simp [hask, hk, Citizen.Askable, hinactive]
  rcases alone_orThrow_bind.mp hp with ⟨hnone, rfl, rfl, rfl⟩ | ⟨subject, hsubject, hp⟩
  · -- SDID knows no subject of the citizen.
    refine ⟨.passed, hnever ?_, .inr ⟨by simp, rfl⟩⟩
    rw [hask]
    rintro ⟨k', hk', -, hsome⟩
    obtain rfl : k = k' := Option.some.inj (hk.symm.trans hk')
    rw [hnone] at hsome
    simp at hsome
  have hasked : id ∈ (s.roll D).askable := hask.mpr ⟨k, hk, not_not.mp hactive, by rw [hsubject]; rfl⟩
  obtain ⟨i, verdict, s₁, h₂, hx, rfl, hans₂, hp⟩ := hp.of_perform_bind hans₁
  obtain rfl : s = s₁ := by
    obtain ⟨r, -, heq⟩ := Option.map_eq_some_iff.mp hx
    exact (Prod.mk.inj heq).2
  split_ifs at hp with hvalid
  · -- The answer is valid.
    obtain ⟨i, _, s₂, h₃, hx₂, rfl, hans₃, hp⟩ := hp.of_perform_bind hans₂
    obtain ⟨i, _, s₃, h₄, hx₃, rfl, hans₄, hp⟩ := hp.of_perform_bind hans₃
    obtain ⟨rfl, rfl, rfl⟩ := alone_pure.mp hp
    obtain ⟨hroll, hnow⟩ := append_of_exec hx₃
    simp only [Op.exec, BindingOp.exec, withUuid, Uuid.ofText_text, Option.some.injEq, Prod.mk.injEq, true_and] at hx₂
    refine ⟨.valid, ⟨by simp [hasked], ?_, ?_, ?_⟩, .inl ⟨_, rfl, rfl⟩⟩
    · rw [hroll, ← hx₂]
      exact roll_reasserted hdue
    · change [verdict].countP (·.valid) = 1
      simp [hvalid]
    · rw [hnow, ← hx₂]
      rfl
  · -- It is invalid.
    obtain ⟨i, _, s₂, h₃, hx₂, rfl, hans₃, hp⟩ := hp.of_perform_bind hans₂
    obtain ⟨i, _, s₃, h₄, hx₃, rfl, hans₄, hp⟩ := hp.of_perform_bind hans₃
    obtain ⟨i, _, s₄, h₅, hx₄, rfl, -, hp⟩ := hp.of_perform_bind hans₄
    obtain ⟨rfl, rfl, rfl⟩ := alone_throwing.mp hp
    obtain ⟨hroll, hnow⟩ := append_of_exec hx₄
    simp only [Op.exec, CitizenOp.exec, BindingOp.exec, withUuid, Uuid.ofText_text, Option.some.injEq,
      Prod.mk.injEq, true_and] at hx₂ hx₃
    subst hx₂
    refine ⟨.invalid, ⟨by simp [hasked], ?_, ?_, ?_⟩, .inr ⟨by simp, rfl⟩⟩
    · rw [hroll, ← hx₃]
      exact roll_suspended ⟨k, hk⟩
    · change [verdict].countP (·.valid) = 0
      simp [hvalid]
    · rw [hnow, ← hx₃]
      rfl

/-- What the sweep does about one citizen of its batch. -/
theorem alone_sweepOne {binding : Uuid} {y : Except Failure (Option ReassertOutcome)}
    (hp : Alone (Op.exec D.engine) s (sweepOne id binding) h s' y) (hans : Answered h) (hdue : id ∈ (s.roll D).due) :
    ∃ f o, Enters D s id h s' f ∧ y = .ok o ∧ ((∃ a, f = .valid ∧ o = some ⟨true, a⟩) ∨ (f ≠ .valid ∧ o = none)) := by
  -- The clock is read first.
  have hbody : ∀ {h₁ s₁ z}, Alone (Op.exec D.engine) s (do
      let now ← newDate
      let outcome ← reassertNow id.text binding.text "sweep" now
      return some outcome) h₁ s₁ z → Answered h₁ → ∃ f, Enters D s id h₁ s₁ f ∧
        ((∃ a, f = .valid ∧ z = .ok (some ⟨true, a⟩)) ∨ (f ≠ .valid ∧ z = .error cannotReassert)) := by
    intro h₁ s₁ z hb hans₁
    obtain ⟨i, now, s₂, h₂, hx, rfl, hans₂, hb⟩ := hb.of_perform_bind hans₁
    simp only [Op.exec, AmbientOp.exec, Option.map_some, Option.some.injEq, Prod.mk.injEq] at hx
    obtain ⟨rfl, rfl⟩ := hx
    have hnil : declaredValid [(⟨.ambient .now, some s.ambient.now⟩ : Cmd)] = 0 := rfl
    rcases alone_bind.mp hb with ⟨e, rfl, hthrew⟩ | ⟨a, s₃, h₃, h₄, rfl, hdone, hret⟩
    · obtain ⟨f, hent, ⟨a, -, ha⟩ | ⟨hf, he⟩⟩ := alone_reassertNow hthrew hans₂ hdue
      · simp at ha
      · obtain rfl := Except.error.inj he
        refine ⟨f, ⟨hent.passed, hent.roll, ?_, hent.now⟩, .inr ⟨hf, rfl⟩⟩
        rw [declaredValid_append, hnil, hent.declared, Nat.add_zero]
    · obtain ⟨rfl, rfl, rfl⟩ := alone_pure.mp hret
      obtain ⟨f, hent, ⟨a', hf, ha⟩ | ⟨-, he⟩⟩ := alone_reassertNow hdone (answered_append.mp hans₂).2 hdue
      · obtain rfl := Except.ok.inj ha
        refine ⟨f, ⟨hent.passed, hent.roll, ?_, hent.now⟩, .inl ⟨a', hf, rfl⟩⟩
        rw [declaredValid_append, hnil, List.nil_append, hent.declared, Nat.add_zero]
      · simp at he
  unfold sweepOne at hp
  rcases alone_recover.mp hp with ⟨o, rfl, hok⟩ | ⟨e, s₁, h₁, h₂, rfl, hthrew, hrest⟩
  · obtain ⟨f, hent, ⟨a, hf, ho⟩ | ⟨-, ho⟩⟩ := hbody hok hans
    · obtain rfl := Except.ok.inj ho
      exact ⟨f, _, hent, rfl, .inl ⟨a, hf, rfl⟩⟩
    · simp at ho
  · obtain ⟨f, hent, ⟨a, -, ho⟩ | ⟨hf, ho⟩⟩ := hbody hthrew (answered_append.mp hans).2
    · simp at ho
    · obtain rfl := Except.error.inj ho
      have hcode : cannotReassert.code = some ErrorCode.access_denied := rfl
      rw [if_pos hcode] at hrest
      obtain ⟨rfl, rfl, rfl⟩ := alone_pure.mp hrest
      exact ⟨f, none, hent, rfl, .inr ⟨hf, rfl⟩⟩

/-- The findings of a batch, and how they are counted. -/
structure Counts (D : Deployment) (s : Store) (h : Path) (s' : Store) (findings : List (Uuid × Finding))
    (outcomes : List (Option ReassertOutcome)) : Prop where
  /-- The findings are a round. -/
  round : Round D.clears (s.roll D) findings (s'.roll D)
  /-- Who is found valid is counted as re-asserted. -/
  reasserted : outcomes.countP (fun o => o.any (·.reasserted)) = findings.countP (·.2 = .valid)
  /-- Everybody else is counted as revoked. -/
  revoked : outcomes.countP (fun o => o.isNone) = findings.countP (·.2 ≠ .valid)
  /-- SDID has declared valid who is found valid. -/
  declared : declaredValid h = findings.countP (·.2 = .valid)

/-- The loop of the sweep is a round. -/
theorem alone_forEach_sweepOne {ps : List (Uuid × Uuid)} {y : Except Failure (List (Option ReassertOutcome))}
    (hp : Alone (Op.exec D.engine) s (Prog.forEach (fun p : Uuid × Uuid => sweepOne p.1 p.2) ps) h s' y)
    (hans : Answered h) (hn : (ps.map Prod.fst).Nodup) (hdue : ∀ id ∈ ps.map Prod.fst, id ∈ (s.roll D).due) :
    ∃ findings outcomes, y = .ok outcomes ∧ findings.map Prod.fst = ps.map Prod.fst ∧
      Counts D s h s' findings outcomes := by
  induction ps generalizing s h y with
  | nil =>
    obtain ⟨rfl, rfl, rfl⟩ := alone_ret.mp hp
    exact ⟨[], [], rfl, rfl, ⟨.nil _, rfl, rfl, rfl⟩⟩
  | cons p ps ih =>
    obtain ⟨id, binding⟩ := p
    rw [List.map_cons, List.nodup_cons] at hn
    have hd : id ∈ (s.roll D).due := hdue id List.mem_cons_self
    rcases alone_bind.mp hp with ⟨e, rfl, hthrew⟩ | ⟨o, s₁, h₁, h₂, rfl, hfirst, hrest⟩
    · obtain ⟨f, o, -, ho, -⟩ := alone_sweepOne hthrew hans hd
      simp at ho
    obtain ⟨hans₂, hans₁⟩ := answered_append.mp hans
    obtain ⟨f, o', hent, ho, hfo⟩ := alone_sweepOne hfirst hans₁ hd
    obtain rfl := Except.ok.inj ho
    have hdue₁ : ∀ j ∈ ps.map Prod.fst, j ∈ (s₁.roll D).due := by
      intro j hj
      have hne : j ≠ id := fun heq => hn.1 (heq ▸ hj)
      rw [hent.roll]
      exact (Roll.mem_due_enter hne).mpr (hdue j (List.mem_cons_of_mem _ hj))
    rcases alone_bind.mp hrest with ⟨e, rfl, hthrew⟩ | ⟨os, s₂, h₃, h₄, rfl, hloop, hret⟩
    · obtain ⟨findings, outcomes, hos, -⟩ := ih hthrew hans₂ hn.2 hdue₁
      simp at hos
    obtain ⟨rfl, rfl, rfl⟩ := alone_ret.mp hret
    obtain ⟨findings, outcomes, hos, hids, hround, hreasserted, hrevoked, hdeclared⟩ :=
      ih hloop (answered_append.mp hans₂).2 hn.2 hdue₁
    obtain rfl := Except.ok.inj hos
    rw [hent.roll] at hround
    refine ⟨(id, f) :: findings, o :: os, rfl, by rw [List.map_cons, hids, List.map_cons], .cons hent.passed hround, ?_, ?_, ?_⟩
    · rcases hfo with ⟨a, rfl, rfl⟩ | ⟨hf, rfl⟩
      · simp [hreasserted]
      · simp [hreasserted, hf]
    · rcases hfo with ⟨a, rfl, rfl⟩ | ⟨hf, rfl⟩
      · simp [hrevoked]
      · simp [hrevoked, hf]
    · rw [List.nil_append, declaredValid_append, hdeclared, hent.declared, List.countP_cons]
      simp

/-- A sweep that runs alone is a round over a batch of those who are due. -/
theorem round_of_sweep {limit : ℕ} {y : Except Failure SweepSummary}
    (hp : Alone (Op.exec D.engine) s (sweep D limit) h s' y) (hans : Answered h) :
    ∃ findings outcomes summary, y = .ok summary ∧ findings.map Prod.fst = (sweepBatch D limit s).map Prod.fst ∧
      Counts D s h s' findings outcomes ∧ summary.reasserted = outcomes.countP (fun o => o.any (·.reasserted)) ∧
      summary.revoked = outcomes.countP (fun o => o.isNone) := by
  unfold sweep at hp
  obtain ⟨i, now, s₁, h₁, hx, rfl, hans₁, hp⟩ := hp.of_perform_bind hans
  simp only [Op.exec, AmbientOp.exec, Option.map_some, Option.some.injEq, Prod.mk.injEq] at hx
  obtain ⟨rfl, rfl⟩ := hx
  obtain ⟨i, active, s₁, h₂, hx, rfl, hans₂, hp⟩ := hp.of_perform_bind hans₁
  simp only [Op.exec, BindingOp.exec, Option.some.injEq, Prod.mk.injEq] at hx
  obtain ⟨rfl, rfl⟩ := hx
  obtain ⟨hnodup, hdue, -⟩ := batch_of_sweep (D := D) (s := s) limit
  rcases alone_bind.mp hp with ⟨e, rfl, hthrew⟩ | ⟨outcomes, s₂, h₃, h₄, rfl, hloop, hret⟩
  · obtain ⟨findings, outcomes, hos, -⟩ := alone_forEach_sweepOne hthrew hans₂ hnodup hdue
    simp at hos
  obtain ⟨rfl, rfl, rfl⟩ := alone_pure.mp hret
  obtain ⟨findings, outcomes, hos, hids, hround, hreasserted, hrevoked, hdeclared⟩ :=
    alone_forEach_sweepOne hloop (answered_append.mp hans₂).2 hnodup hdue
  obtain rfl := Except.ok.inj hos
  refine ⟨findings, _, _, rfl, hids, ⟨hround, hreasserted, hrevoked, ?_⟩, rfl, rfl⟩
  rw [List.nil_append, declaredValid_append, declaredValid_append, hdeclared]
  rfl

end Alone

/-! ## Progress -/

/-- The sweep has achieved what it reports. -/
structure SweepTruthful (D : Deployment) (limit : ℕ) (s : Store) (h : Path) (s' : Store) (summary : SweepSummary) :
    Prop where
  /-- As many citizens as the limit allows are not due any more. -/
  progress : (s'.roll D).due.card + min limit (s.roll D).due.card = (s.roll D).due.card
  /-- The re-asserted ones are those whom SDID declared valid. -/
  reasserted : summary.reasserted = declaredValid h
  /-- The revoked ones are those whom the sweep suspended. -/
  revoked : summary.revoked = ((s'.roll D).struck \ (s.roll D).struck).card

/-- So many sweeps, one after the other, with nothing in between. -/
inductive Sweeps (D : Deployment) (limit : ℕ) : ℕ → Store → Store → Prop
  | zero (s : Store) : Sweeps D limit 0 s s
  | succ {n s h s₁ y s'} (hp : Alone (Op.exec D.engine) s (sweep D limit) h s₁ y) (hans : Answered h)
    (hrest : Sweeps D limit n s₁ s') : Sweeps D limit (n + 1) s s'

theorem Sweeps.rounds {limit n : ℕ} (h : Sweeps D limit n s s') :
    Rounds D.clears limit n (s.roll D) (s'.roll D) := by
  induction h with
  | zero s => exact .zero _
  | succ hp hans hrest ih =>
    obtain ⟨findings, outcomes, summary, -, hids, hcounts, -⟩ := round_of_sweep hp hans
    refine .succ ?_ hcounts.round ih
    rw [hids]
    exact batch_of_sweep limit

/-- A count of those who are not valid. -/
theorem countP_not_valid {α : Type} (findings : List (α × Finding)) : findings.countP (·.2 ≠ .valid) =
    findings.countP (·.2 = .passed) + findings.countP (·.2 = .invalid) := by
  induction findings with
  | nil => rfl
  | cons p findings ih =>
    obtain ⟨i, f⟩ := p
    rw [List.countP_cons, List.countP_cons, List.countP_cons, ih]
    cases f with
    | passed => simp only [ne_eq, decide_not]; simp; omega
    | valid => simp
    | invalid => simp; omega

/-- A sweep achieves what it reports if and only if everybody in its batch can be re-asserted and a valid answer
makes a binding current; so many sweeps reach everybody who is due if and only if all of them can be. -/
theorem sweep_truthful_iff (limit : ℕ) (s : Store) :
    (∀ h s' y, Alone (Op.exec D.engine) s (sweep D limit) h s' y → Answered h → ∃ summary, y = .ok summary ∧
      (SweepTruthful D limit s h s' summary ↔
        (∀ p ∈ sweepBatch D limit s, p.1 ∈ (s.roll D).askable) ∧ (D.clears = true ∨ declaredValid h = 0))) ∧
    (D.clears = true → ∀ n s', Sweeps D limit n s s' → (s.roll D).due.card ≤ n * limit →
      ((s'.roll D).due = ∅ ↔ (s.roll D).due ⊆ (s.roll D).askable)) := by
  refine ⟨fun h s' y hp hans => ?_, fun hclears n s' hsweeps henough => ?_⟩
  · obtain ⟨findings, outcomes, summary, rfl, hids, hcounts, hreasserted, hrevoked⟩ := round_of_sweep hp hans
    have hbatch : (s.roll D).Batch limit (findings.map Prod.fst) := by
      rw [hids]
      exact batch_of_sweep limit
    have hprogress := hcounts.round.progress_iff hbatch
    have hpassed := hcounts.round.passed_iff hbatch.nodup
    -- The report is right about the suspensions if nobody was passed over.
    have hsuspended : summary.revoked = ((s'.roll D).struck \ (s.roll D).struck).card ↔
        ∀ p ∈ findings, p.2 ≠ .passed := by
      rw [hrevoked, hcounts.revoked, hcounts.round.card_struck_sdiff, countP_not_valid, Nat.add_eq_right,
        List.countP_eq_zero]
      simp
    have hask : (∀ p ∈ sweepBatch D limit s, p.1 ∈ (s.roll D).askable) ↔ ∀ p ∈ findings, p.2 ≠ .passed := by
      have hfirst : (∀ id ∈ findings.map Prod.fst, id ∈ (s.roll D).askable) ↔
          ∀ id ∈ (sweepBatch D limit s).map Prod.fst, id ∈ (s.roll D).askable := by rw [hids]
      rw [List.forall_mem_map, List.forall_mem_map] at hfirst
      rw [← hfirst]
      refine forall₂_congr fun p hp => ?_
      rw [ne_eq, hpassed p hp, not_not]
    have hvalid : declaredValid h = 0 ↔ ∀ p ∈ findings, p.2 ≠ .valid := by
      rw [hcounts.declared, List.countP_eq_zero]
      simp
    have hsettles : (∀ p ∈ findings, p.2.settles D.clears = true) ↔
        (∀ p ∈ findings, p.2 ≠ .passed) ∧ (D.clears = true ∨ ∀ p ∈ findings, p.2 ≠ .valid) := by
      cases hclears : D.clears with
      | true =>
        simp only [true_or, and_true]
        refine forall₂_congr fun p _ => ?_
        cases p.2 <;> simp [Finding.settles]
      | false =>
        simp only [Bool.false_eq_true, false_or, ← forall₂_and]
        refine forall₂_congr fun p _ => ?_
        cases p.2 <;> simp [Finding.settles]
    refine ⟨summary, rfl, ?_⟩
    rw [hask, hvalid, ← hsettles]
    constructor
    · intro ht
      exact hprogress.mp ht.progress
    · intro hall
      refine ⟨hprogress.mpr hall, by rw [hreasserted, hcounts.reasserted, hcounts.declared], ?_⟩
      exact hsuspended.mpr (hsettles.mp hall).1
  · have hrounds := hsweeps.rounds
    rw [hclears] at hrounds
    exact hrounds.done_iff henough

/-- Run a sweep alone after a run. -/
def sweepAfter (limit : ℕ) (is : List Oracle) (c : State) : Option (Path × Store × Except Failure SweepSummary) :=
  runAlone (Op.exec sampleDeployment.engine) (sweep sampleDeployment limit) is c.store

/-- Every command of a path was answered. -/
def isAnswered (h : Path) : Bool := h.all fun a => a.res.isSome

theorem answered_of_isAnswered (hall : isAnswered h = true) : Answered h := by
  intro a ha hnone
  have hsome := List.all_eq_true.mp hall a ha
  simp [hnone] at hsome

/-- Ninety days after its activation, a device is due. -/
def sampleDue : Script := sampleDevice ++ [.env (.elapse 7776000000)]

/-- The citizen of the device is re-asserted. -/
theorem sweep_truthful_iff_sampleDue : ∃ tr c h s' summary, (broker sampleDeployment).Reach tr c ∧
    Alone (Op.exec sampleDeployment.engine) c.store (sweep sampleDeployment 1) h s' (.ok summary) ∧
    Answered h ∧ summary.reasserted = 1 ∧ SweepTruthful sampleDeployment 1 c.store h s' summary := by
  obtain ⟨tr, c, hr, hrun⟩ := (broker sampleDeployment).exists_of_play sampleDue.reverse
    (p := fun run => (sweepAfter 1 [.unit, .unit, .unit, .unit, .reassert ⟨true, .AL1, "ref"⟩, .unit, sampleRowId]
      run.2).any fun (h, _, y) => isAnswered h && (sweepBatch sampleDeployment 1 run.2.store).all (fun p =>
        decide (p.1 ∈ (run.2.store.roll sampleDeployment).askable)) &&
      match y with
      | .ok summary => summary.reasserted == 1
      | .error _ => false) (by decide +kernel)
  obtain ⟨⟨h, s', y⟩, hsweep, hp⟩ := Option.any_eq_true .. |>.mp hrun
  simp only [Bool.and_eq_true, List.all_eq_true, decide_eq_true_eq] at hp
  obtain ⟨⟨hanswered, hask⟩, hone⟩ := hp
  have halone := alone_of_runAlone hsweep
  have hans := answered_of_isAnswered hanswered
  obtain ⟨summary, rfl, hiff⟩ := (sweep_truthful_iff 1 c.store).1 h s' y halone hans
  exact ⟨tr, c, h, s', summary, hr, halone, hans, by simpa using hone, hiff.mpr ⟨hask, .inl rfl⟩⟩

/-- The binding that was activated after the suspension of its citizen is due. -/
def sampleOverdue : Script :=
  sampleSweep ++ sampleActivation 4 3 'E' ++ Script.go 4 [.unit, sampleRowId] ++ [.env (.elapse 7776000000)]

/-- The sweep counts the citizen as revoked, whom it has not suspended, and who stays due. -/
theorem sweep_not_truthful_sampleOverdue : ∃ tr c h s' summary, (broker sampleDeployment).Reach tr c ∧
    Alone (Op.exec sampleDeployment.engine) c.store (sweep sampleDeployment 1) h s' (.ok summary) ∧
    Answered h ∧ summary.revoked = 1 ∧ (c.store.roll sampleDeployment).due.card = 1 ∧
    ¬ SweepTruthful sampleDeployment 1 c.store h s' summary := by
  obtain ⟨tr, c, hr, hrun⟩ := (broker sampleDeployment).exists_of_play sampleOverdue.reverse
    (p := fun run => (sweepAfter 1 [.unit, .unit, .unit, .unit] run.2).any fun (h, s', y) => isAnswered h &&
      decide ((run.2.store.roll sampleDeployment).due.card = 1) &&
      decide ((s'.roll sampleDeployment).due.card = 1) &&
      match y with
      | .ok summary => summary.revoked == 1
      | .error _ => false) (by decide +kernel)
  obtain ⟨⟨h, s', y⟩, hsweep, hp⟩ := Option.any_eq_true .. |>.mp hrun
  simp only [Bool.and_eq_true, decide_eq_true_eq] at hp
  obtain ⟨⟨⟨hanswered, hdue⟩, hdue'⟩, hone⟩ := hp
  have halone := alone_of_runAlone hsweep
  cases y with
  | error e => simp at hone
  | ok summary =>
    refine ⟨tr, c, h, s', summary, hr, halone, answered_of_isAnswered hanswered, by simpa using hone, hdue, ?_⟩
    intro ht
    have hprogress := ht.progress
    omega

end SdidBridge
