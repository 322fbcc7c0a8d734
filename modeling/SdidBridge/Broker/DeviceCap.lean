import SdidBridge.Broker.Revocation

/-!
# The cap on devices

An enrolment counts the bindings of its citizen that are not revoked, and then inserts a new one. The
two are separate statements: the cap holds as long as no other enrolment of the citizen inserts in
between, and no activation brings a revoked binding back (`at_most_max_bindings`).

The count of a citizen goes up with an insert of that citizen and with such an activation only
(`live_step`). So what an enrolment has counted still bounds the count when it inserts.
-/

namespace SdidBridge

open Concurrent Machine

variable {D : Deployment} {tr l₁ l₂ : Run} {c : State} {s s' : Store} {t u : ℕ}

/-- How many bindings of a citizen are not revoked. -/
def Store.liveOf (s : Store) (citizenId : Uuid) : ℕ :=
  Table.count (fun b => b.citizenId = citizenId ∧ b.status ≠ .revoked) s.bindings

/-- The entry inserts a binding of a citizen. -/
def insertsFor (citizenId : Uuid) (e : Step) : Bool :=
  match e.event with
  | .act _ ⟨.binding (.insert _ id _ _ _ _), some _⟩ => id == citizenId
  | _ => false

/-- Between the count of an enrolment and its insert, no other binding of the citizen is inserted. -/
def EnrolsUninterrupted (tr : Run) : Prop :=
  ∀ l₁ s t id citizenId jwk attestation al label l₂,
    tr = l₁ ++
      ⟨s, .act t ⟨.binding (.insert id citizenId jwk attestation al label), some ()⟩⟩ :: l₂ →
    ∀ m₁ s₀ n m₂, l₂ = m₁ ++ ⟨s₀, .act t ⟨.binding (.countLive citizenId), some n⟩⟩ :: m₂ →
      ∀ e ∈ m₁, insertsFor citizenId e = false

theorem EnrolsUninterrupted.tail {e : Step} (h : EnrolsUninterrupted (e :: tr)) :
    EnrolsUninterrupted tr := by
  rintro l₁ s t id citizenId jwk attestation al label l₂ rfl
  exact h (e :: l₁) s t id citizenId jwk attestation al label l₂ rfl

/-- What a step does to the count of a citizen: it adds at most one, and none unless it inserts a
binding of that citizen. -/
theorem live_step {e : Step} (hl : (broker D).Leads e s') (he : revives e = false) (citizenId : Uuid) :
    s'.liveOf citizenId ≤ e.before.liveOf citizenId + 1 ∧
    (insertsFor citizenId e = false → s'.liveOf citizenId ≤ e.before.liveOf citizenId) := by
  rcases (bindings D).leads hl with ⟨t, a, hev, hstep⟩ | ⟨-, hsame⟩
  swap
  · have hsame' : s'.bindings = e.before.bindings := hsame
    simp only [Store.liveOf, hsame']
    exact ⟨Nat.le_succ _, fun _ => le_refl _⟩
  have hwrites := bindings_writes _ _ _ hstep
  rw [show (bindings D).get e.before = e.before.bindings from rfl] at hwrites
  unfold Store.liveOf
  rw [show s'.bindings = (bindings D).get s' from rfl]
  generalize (bindings D).get s' = rows' at hwrites ⊢
  cases hwrites with
  | @insert r hfree hnew =>
    refine ⟨Table.count_append_le _ _ r, fun hno => ?_⟩
    obtain ⟨id, citizenId', jwk, attestation, al, label, now, rfl, rfl⟩ := hnew
    -- The new binding is of another citizen.
    have hother : citizenId' ≠ citizenId := by
      simpa [insertsFor, hev, bindings, part] using hno
    simp [Table.count, List.filter_append, DeviceBinding.enrolled, hother]
  | update p f hf =>
    have hle : Table.count (fun b => b.citizenId = citizenId ∧ b.status ≠ .revoked)
        (Table.update p f e.before.bindings) ≤
        Table.count (fun b => b.citizenId = citizenId ∧ b.status ≠ .revoked) e.before.bindings := by
      refine Table.count_update_le fun b hb hp hq => ?_
      obtain ⟨hcitizen, hlive⟩ := of_decide_eq_true hq
      have hc := hf b hb hp
      have hident := hc.identity
      simp only [DeviceBinding.identity, Prod.mk.injEq] at hident
      refine decide_eq_true ⟨hident.2.1.symm.trans hcitizen, fun hrevoked => ?_⟩
      -- A binding that was revoked is live after the step only if the step activates it.
      revert hlive
      generalize f b = b' at hc hident
      cases hc with
      | kept _ hs _ => exact fun hlive => hlive (hs.trans hrevoked)
      | revoked _ => exact fun hlive => hlive rfl
      | swept _ _ => exact fun hlive => hlive rfl
      | @activated id now _ hid =>
        have hrevives : revives e = true := by
          rw [revives, hev]
          exact List.any_eq_true.mpr ⟨b, hb, by simp [hid, hrevoked]⟩
        rw [he] at hrevives
        simp at hrevives
    exact ⟨hle.trans (Nat.le_succ _), fun _ => hle⟩

/-- What a command counted. -/
theorem counted {citizenId : Uuid} {n : ℕ}
    (hr : (broker D).Reach (l₁ ++ ⟨s, .act t ⟨.binding (.countLive citizenId), some n⟩⟩ :: l₂) c) :
    n = s.liveOf citizenId := by
  obtain ⟨x, hstep⟩ := (bindings D).step_at ⟨.countLive citizenId, some n⟩ hr
  rcases hstep with ⟨now, hx⟩ | ⟨hnone, -⟩
  · exact (Option.some.inj (congrArg Prod.fst hx)).symm
  · simp at hnone

/-- The count of a citizen does not go up where no binding of theirs is inserted. -/
theorem live_since {e : Step} (hr : (broker D).Reach (l₁ ++ e :: l₂) c) {citizenId : Uuid} {n : ℕ}
    (hn : e.before.liveOf citizenId ≤ n) (hno : ∀ e' ∈ l₁ ++ [e], revives e' = false)
    (hins : ∀ e' ∈ l₁ ++ [e], insertsFor citizenId e' = false) : c.store.liveOf citizenId ≤ n := by
  have hkeep : ∀ e' ∈ l₁ ++ [e], ∀ s', (broker D).Leads e' s' → e'.before.liveOf citizenId ≤ n →
      s'.liveOf citizenId ≤ n := by
    intro e' he' s' hl h
    exact ((live_step hl (hno e' he') citizenId).2 (hins e' he')).trans h
  refine hr.since (P := fun s => s.liveOf citizenId ≤ n) (fun s' hl => ?_) fun e' he' s' hl h => ?_
  · exact hkeep e (List.mem_append_right _ (List.mem_singleton_self e)) s' hl hn
  · exact hkeep e' (List.mem_append_left _ he') s' hl h

/-- No citizen has more bindings than the cap, in every run in which no other binding of the citizen is
inserted between the count and the insert of an enrolment, and no activation finds its binding
revoked. -/
theorem at_most_max_bindings (hr : (broker D).Reach tr c) (hno : ∀ e ∈ tr, revives e = false)
    (hcount : EnrolsUninterrupted tr) (citizenId : Uuid) :
    c.store.liveOf citizenId ≤ MAX_ACTIVE_BINDINGS := by
  induction hr with
  | init => simp [broker, Store.empty, Store.liveOf, Table.count]
  | @step tr c₀ m ev c' hr hs ih =>
    have ih' := ih (fun e he => hno e (List.mem_cons_of_mem _ he)) hcount.tail
    have hl := step_leads hs
    obtain ⟨hone, hnone⟩ := live_step hl (hno _ List.mem_cons_self) citizenId
    cases hins : insertsFor citizenId ⟨c₀.store, ev⟩ with
    | false => exact (hnone hins).trans ih'
    | true =>
      -- The enrolment has counted fewer than the cap, and the count has not gone up since.
      unfold insertsFor at hins
      split at hins
      swap
      · simp at hins
      rename_i t id citizenId' jwk attestation al label r hev
      simp only at hev
      obtain rfl := beq_iff_eq.mp hins
      subst hev
      have hr' : (broker D).Reach ([] ++ _ :: tr) c' := .step hr hs
      obtain ⟨q, -, ⟨n, h', hown, hlt⟩, -⟩ := onPath hr'
      obtain ⟨m₁, s₀, m₂, rfl, hm₁, -⟩ := exists_of_own_eq hown
      have hfree := hcount [] _ t id citizenId' jwk attestation al label _ rfl m₁ s₀ n m₂ rfl
      have hbound : c₀.store.liveOf citizenId' ≤ n := by
        refine live_since hr (counted hr).ge (fun e' he' => hno e' ?_) fun e' he' => ?_
        · simp only [List.mem_append, List.mem_singleton] at he'
          simp only [List.mem_cons, List.mem_append]
          tauto
        · rcases List.mem_append.mp he' with he' | he'
          · exact hfree e' he'
          · rw [List.mem_singleton.mp he']
            rfl
      calc c'.store.liveOf citizenId' ≤ c₀.store.liveOf citizenId' + 1 := hone
        _ ≤ n + 1 := Nat.succ_le_succ hbound
        _ ≤ MAX_ACTIVE_BINDINGS := hlt

/-- The entry inserts a binding. -/
def insertsBinding (e : Step) : Bool :=
  match e.event with
  | .act _ ⟨.binding (.insert _ _ _ _ _ _), some _⟩ => true
  | _ => false

theorem insertsBinding_of_for {citizenId : Uuid} {e : Step} (h : insertsFor citizenId e = true) :
    insertsBinding e = true := by
  unfold insertsFor at h
  unfold insertsBinding
  split at h
  · rename_i he
    rw [he]
  · simp at h

/-- A run with one insert is uninterrupted. -/
theorem enrolsUninterrupted_of_one (h : (tr.filter insertsBinding).length ≤ 1) :
    EnrolsUninterrupted tr := by
  rintro l₁ s t id citizenId jwk attestation al label l₂ rfl m₁ s₀ n m₂ rfl e he
  by_contra hne
  have hins := insertsBinding_of_for (Bool.not_eq_false _ ▸ hne)
  have hmem : e ∈ m₁.filter insertsBinding := List.mem_filter.mpr ⟨he, hins⟩
  have hpos := List.length_pos_of_mem hmem
  simp only [List.filter_append, List.filter_cons, List.length_append, insertsBinding, if_true,
    List.length_cons] at h
  omega

/-- The first enrolment stays within the cap. -/
theorem at_most_max_bindings_sampleDevice : ∃ tr c, (broker sampleDeployment).Reach tr c ∧
    c.store.liveOf (sampleUuid 1) = 1 ∧ c.store.liveOf (sampleUuid 1) ≤ MAX_ACTIVE_BINDINGS := by
  obtain ⟨tr, c, hr, hrun⟩ := (broker sampleDeployment).exists_of_play sampleDevice.reverse
    (p := fun run => run.1.all (fun e => !revives e) &&
      decide ((run.1.filter insertsBinding).length ≤ 1) &&
      run.2.store.liveOf (sampleUuid 1) == 1) (by decide +kernel)
  simp only [Bool.and_eq_true, List.all_eq_true, Bool.not_eq_true', decide_eq_true_eq,
    beq_iff_eq] at hrun
  obtain ⟨⟨hno, hone⟩, hlive⟩ := hrun
  exact ⟨tr, c, hr, hlive, at_most_max_bindings hr hno (enrolsUninterrupted_of_one hone) (sampleUuid 1)⟩

/-- Four bindings of the citizen in the first hour, by calls 0 to 3. In the next hour, calls 4 and 5 both
count them before either inserts. -/
def sampleCrowd : Script :=
  sampleEnrolment 0 [.unit, .unit, .unit, .unit, .unit] 2 'A' 'B' ++
  sampleEnrolment 1 [.unit, .unit, .unit] 3 'C' 'D' ++
  sampleEnrolment 2 [.unit, .unit, .unit] 4 'E' 'F' ++
  sampleEnrolment 3 [.unit, .unit, .unit] 5 'G' 'H' ++
  .env (.elapse 3600000) ::
  (sampleEnrolment 4 [.unit, .unit, .unit, .unit, .unit] 6 'I' 'J').take 13 ++
  (sampleEnrolment 5 [.unit, .unit, .unit] 7 'K' 'L').take 11 ++
  Script.go 4 [.uuid (sampleUuid 6), .unit] ++ Script.go 5 [.uuid (sampleUuid 7), .unit]

/-- Two enrolments at once exceed the cap. -/
theorem more_than_max_bindings_sampleCrowd : ∃ tr c, (broker sampleDeployment).Reach tr c ∧
    MAX_ACTIVE_BINDINGS < c.store.liveOf (sampleUuid 1) := by
  obtain ⟨tr, c, hr, hrun⟩ := (broker sampleDeployment).exists_of_play sampleCrowd.reverse
    (p := fun run => decide (MAX_ACTIVE_BINDINGS < run.2.store.liveOf (sampleUuid 1)))
    (by decide +kernel)
  exact ⟨tr, c, hr, of_decide_eq_true hrun⟩

end SdidBridge
