import SdidBridge.Sdid.Attempts

/-!
# One half-open probe

Attempts that were admitted before the circuit opened may end after it did, and what they report changes the
breaker. When every attempt ends within `timeoutMs`, and the circuit stays open for longer, none of them is still
under way when the first probe is admitted (`Guarded`), so that a probe has the breaker to itself until it ends
(`one_probe`).
-/

namespace SdidBridge.Sdid

open Concurrent Prog

variable {opts : ResilienceOptions} {tr l₁ l₂ : List Step} {c : Config Op Op.Res SdidError Reply Shared}
  {s s' : Shared} {t : ℕ}

/-- Time does not go back over the steps of a run that ended in the store `s`, and each attempt ends within
`timeoutMs` of its admission. -/
def Punctual (opts : ResilienceOptions) : List Step → Shared → Prop
  | [], _ => True
  | e :: tr, s => e.before.now ≤ s.now ∧ (∀ p ∈ underway (e :: tr), s.now ≤ p.2.now + opts.timeoutMs) ∧
      Punctual opts tr e.before

instance Punctual.decidable : ∀ (tr : List Step) (s : Shared), Decidable (Punctual opts tr s)
  | [], _ => inferInstanceAs (Decidable True)
  | e :: tr, _ =>
    have := Punctual.decidable tr e.before
    inferInstanceAs (Decidable (_ ∧ _ ∧ _))

/-- So it was in an earlier part of the run. -/
theorem Punctual.older {e : Step} (h : Punctual opts (l₁ ++ e :: l₂) s) : Punctual opts l₂ e.before := by
  induction l₁ generalizing s with
  | nil => exact h.2.2
  | cons e' l₁ ih => exact ih h.2.2

/-- No attempt under way is late. -/
theorem Punctual.late (h : Punctual opts tr s) : ∀ p ∈ underway tr, s.now ≤ p.2.now + opts.timeoutMs := by
  cases tr with
  | nil => exact fun p hp => absurd hp List.not_mem_nil
  | cons e tr => exact h.2.1

/-- What holds of the breaker and the attempts under way `us`. -/
structure Guarded (opts : ResilienceOptions) (us : List (ℕ × Shared)) (s : Shared) : Prop where
  resetMs : s.breaker.resetMs = opts.breakerResetMs
  past : ∀ p ∈ us, p.2.now ≤ s.now
  /-- The attempts were admitted before the circuit opened. -/
  opened : s.breaker.internal = .opened → ∀ p ∈ us, p.2.now ≤ s.breaker.openedAt
  flagged : s.breaker.internal = .halfOpen → s.breaker.probeInFlight = true
  /-- One call at most has an attempt under way in a half-open circuit. -/
  alone : s.breaker.internal = .halfOpen → ∀ p ∈ us, ∀ p' ∈ us, p.1 = p'.1
  /-- The circuit stays half-open while its probe is under way. -/
  probe : ∀ p ∈ us, p.2.breaker.state p.2.now = .halfOpen → s.breaker.internal = .halfOpen

namespace Guarded

variable {us us' : List (ℕ × Shared)}

/-- Fewer attempts are under way. -/
theorem fewer (h : Guarded opts us s) (hsub : ∀ p ∈ us', p ∈ us) : Guarded opts us' s where
  resetMs := h.resetMs
  past p hp := h.past p (hsub p hp)
  opened hi p hp := h.opened hi p (hsub p hp)
  flagged := h.flagged
  alone hi p hp p' hp' := h.alone hi p (hsub p hp) p' (hsub p' hp')
  probe p hp := h.probe p (hsub p hp)

/-- Time passes. -/
theorem later (h : Guarded opts us s) {now : ℕ} (hnow : s.now ≤ now) : Guarded opts us { s with now } :=
  { h with past := fun p hp => (h.past p hp).trans hnow }

/-- When the time of an open circuit is over, no attempt is under way. -/
theorem idle (h : Guarded opts us s) (hlate : ∀ p ∈ us, s.now ≤ p.2.now + opts.timeoutMs)
    (htimeout : opts.timeoutMs < opts.breakerResetMs) (hopen : s.breaker.internal = .opened)
    (hhalf : s.breaker.state s.now = .halfOpen) : us = [] := by
  have hover : s.breaker.openedAt + opts.breakerResetMs ≤ s.now := by
    unfold CircuitBreaker.state at hhalf
    split_ifs at hhalf with hc
    · rw [← h.resetMs]
      exact hc.2
    · rw [hopen] at hhalf
      cases hhalf
  refine List.eq_nil_iff_forall_not_mem.mpr fun p hp => ?_
  have hbefore := h.opened hopen p hp
  have hend := hlate p hp
  omega

/-- A circuit that admits an attempt is closed, or its time is over and its probe is the only attempt. -/
theorem admitted (h : Guarded opts us s) (hlate : ∀ p ∈ us, s.now ≤ p.2.now + opts.timeoutMs)
    (htimeout : opts.timeoutMs < opts.breakerResetMs) {b : CircuitBreaker}
    (hb : s.breaker.beforeAttempt s.now = some b) :
    (s.breaker.internal = .closed ∧ s.breaker.state s.now = .closed ∧ b = s.breaker) ∨
      (us = [] ∧ b.resetMs = s.breaker.resetMs ∧ b.internal = .halfOpen ∧ b.probeInFlight = true) := by
  unfold CircuitBreaker.beforeAttempt at hb
  split at hb
  · cases hb
  · rename_i hhalf
    split_ifs at hb with hflag
    obtain rfl := Option.some.inj hb
    refine .inr ⟨?_, rfl, rfl, rfl⟩
    -- A circuit that is half-open already has its flag set.
    have hopen : s.breaker.internal = .opened := by
      unfold CircuitBreaker.state at hhalf
      split_ifs at hhalf with hc
      · exact hc.1
      · exact absurd (h.flagged hhalf) hflag
    exact h.idle hlate htimeout hopen hhalf
  · rename_i hclosed
    obtain rfl := Option.some.inj hb
    refine .inl ⟨?_, hclosed, rfl⟩
    unfold CircuitBreaker.state at hclosed
    split_ifs at hclosed with hc
    exact hclosed

/-- An attempt is admitted. -/
theorem allow (h : Guarded opts us s) (hlate : ∀ p ∈ us, s.now ≤ p.2.now + opts.timeoutMs)
    (htimeout : opts.timeoutMs < opts.breakerResetMs) {b : CircuitBreaker}
    (hb : s.breaker.beforeAttempt s.now = some b) (hsub : ∀ p ∈ us', p = (t, s) ∨ p ∈ us) :
    Guarded opts us' { s with breaker := b } := by
  rcases h.admitted hlate htimeout hb with ⟨hclosed, hstate, rfl⟩ | ⟨rfl, hreset, hhalf, hflag⟩
  · refine ⟨h.resetMs, fun p hp => ?_, fun hi => ?_, h.flagged, fun hi => ?_, fun p hp hp' => ?_⟩
    · rcases hsub p hp with rfl | hold
      · exact le_refl s.now
      · exact h.past p hold
    · rw [hclosed] at hi
      cases hi
    · rw [hclosed] at hi
      cases hi
    · rcases hsub p hp with rfl | hold
      · rw [hstate] at hp'
        cases hp'
      · exact h.probe p hold hp'
  · have hnew : ∀ p ∈ us', p = (t, s) := by
      intro p hp
      rcases hsub p hp with heq | hold
      · exact heq
      · exact absurd hold List.not_mem_nil
    refine ⟨hreset.trans h.resetMs, fun p hp => ?_, fun hi => ?_, fun _ => hflag, fun _ p hp p' hp' => ?_,
      fun _ _ _ => hhalf⟩
    · rw [hnew p hp]
    · rw [hhalf] at hi
      cases hi
    · rw [hnew p hp, hnew p' hp']

/-- After the report of an attempt no probe is under way. -/
theorem no_probe (h : Guarded opts us s) (ht : ∃ s₁, (t, s₁) ∈ us) :
    ∀ p ∈ us, p.1 ≠ t → p.2.breaker.state p.2.now ≠ .halfOpen := by
  intro p hp hne hhalf
  obtain ⟨s₁, hmem⟩ := ht
  exact hne (h.alone (h.probe p hp hhalf) p hp (t, s₁) hmem)

/-- An attempt of `t` succeeded. -/
theorem succeed (h : Guarded opts us s) (ht : ∃ s₁, (t, s₁) ∈ us) (hsub : ∀ p ∈ us', p ∈ us ∧ p.1 ≠ t) :
    Guarded opts us' { s with breaker := s.breaker.onSuccess } where
  resetMs := h.resetMs
  past p hp := h.past p (hsub p hp).1
  opened hi := by cases hi
  flagged hi := by cases hi
  alone hi := by cases hi
  probe p hp hhalf := absurd hhalf (h.no_probe ht p (hsub p hp).1 (hsub p hp).2)

/-- An attempt of `t` failed. -/
theorem fail (h : Guarded opts us s) (ht : ∃ s₁, (t, s₁) ∈ us) (hsub : ∀ p ∈ us', p ∈ us ∧ p.1 ≠ t) :
    Guarded opts us' { s with breaker := s.breaker.onFailure s.now } := by
  have hpast : ∀ p ∈ us', p.2.now ≤ s.now := fun p hp => h.past p (hsub p hp).1
  have hprobe : ∀ p ∈ us', p.2.breaker.state p.2.now ≠ .halfOpen := fun p hp =>
    h.no_probe ht p (hsub p hp).1 (hsub p hp).2
  -- Whether its probe failed or there were too many failures, the circuit opens at this time.
  have htripped : ∀ failures, Guarded opts us'
      { s with breaker := { s.breaker with
          internal := .opened, openedAt := s.now, consecutiveFailures := failures, probeInFlight := false } } := by
    intro failures
    refine ⟨h.resetMs, hpast, fun _ => hpast, fun hi => ?_, fun hi => ?_, fun p hp hp' => absurd hp' (hprobe p hp)⟩
    · cases hi
    · cases hi
  unfold CircuitBreaker.onFailure
  dsimp only
  split_ifs with hhalf hmany
  · exact htripped _
  · exact htripped _
  · exact ⟨h.resetMs, hpast, fun hi p hp => h.opened hi p (hsub p hp).1, fun hi => absurd hi hhalf,
      fun hi => absurd hi hhalf, fun p hp hp' => absurd hp' (hprobe p hp)⟩

end Guarded

/-- The breaker is guarded in every punctual run. -/
theorem guarded_of_punctual (hr : (provider opts).Reach tr c) (hp : Punctual opts tr c.store)
    (htimeout : opts.timeoutMs < opts.breakerResetMs) : Guarded opts (underway tr) c.store := by
  induction hr with
  | init =>
    exact ⟨rfl, fun p hp => absurd hp List.not_mem_nil, fun _ p hp => absurd hp List.not_mem_nil,
      fun hi => (by cases hi), fun _ p hp => absurd hp List.not_mem_nil, fun p hp => absurd hp List.not_mem_nil⟩
  | @step tr c m e c' hr hs ih =>
    obtain ⟨hclock, hlate, hold⟩ := hp
    have hguarded := ih hold
    rcases step_cases hs with ⟨u, q, rfl, hstore⟩ | ⟨u, o, k, r, rfl, hk, hexec⟩ | ⟨rfl, now, hstore⟩
    · rw [hstore]
      exact hguarded
    · -- A command leaves no other attempt under way than those before it, and the one that it admits.
      have hsub : ∀ p ∈ underway (⟨c.store, .act u ⟨o, r⟩⟩ :: tr), p = (u, c.store) ∨ p ∈ underway tr := by
        intro p hp
        obtain ⟨rfl, -⟩ | ⟨hmem, -⟩ := mem_underway_cons.mp hp
        · exact .inl rfl
        · exact .inr hmem
      have hother : isAdmission ⟨o, r⟩ = false →
          ∀ p ∈ underway (⟨c.store, .act u ⟨o, r⟩⟩ :: tr), p ∈ underway tr ∧ (p.1 = u → isSettled ⟨o, r⟩ = true) := by
        intro hno p hp
        obtain ⟨-, hadmits⟩ | hmem := mem_underway_cons.mp hp
        · rw [hno] at hadmits
          cases hadmits
        · exact hmem
      generalize c'.store = s' at *
      cases hexec with
      | sleep n => exact hguarded.fewer fun p hp => (hother rfl p hp).1
      | allow hb => exact hguarded.allow hold.late htimeout hb hsub
      | refuse hb => exact hguarded.fewer fun p hp => (hother rfl p hp).1
      | attempt m answer => exact hguarded.fewer fun p hp => (hother rfl p hp).1
      | succeed =>
        obtain ⟨-, -, -, s₁, -, hunder, -⟩ := underway_of_report hr hk (.inl rfl)
        exact hguarded.succeed ⟨s₁, hunder⟩ fun p hp =>
          ⟨(hother rfl p hp).1, fun heq => absurd ((hother rfl p hp).2 heq) Bool.false_ne_true⟩
      | fail =>
        obtain ⟨-, -, -, s₁, -, hunder, -⟩ := underway_of_report hr hk (.inr rfl)
        exact hguarded.fail ⟨s₁, hunder⟩ fun p hp =>
          ⟨(hother rfl p hp).1, fun heq => absurd ((hother rfl p hp).2 heq) Bool.false_ne_true⟩
    · rw [hstore] at hclock ⊢
      exact hguarded.later hclock

/-- **At most one half-open probe.** In every punctual run, where attempts end sooner than a circuit is reset, an
attempt is admitted only while no attempt is under way that was admitted by the half-open circuit. -/
theorem one_probe {u : ℕ} (hr : (provider opts).Reach tr c) (hp : Punctual opts tr c.store)
    (htimeout : opts.timeoutMs < opts.breakerResetMs)
    (htr : tr = l₁ ++ ⟨s, .act u ⟨.beforeAttempt, some ()⟩⟩ :: l₂) :
    ∀ p ∈ underway l₂, p.2.breaker.state p.2.now ≠ .halfOpen := by
  subst htr
  intro p hmem hhalf
  obtain ⟨c₀, m, c₁, hr₀, hstore, hs⟩ := hr.entry
  have hpunctual : Punctual opts l₂ c₀.store := by
    rw [hstore]
    exact hp.older
  have hguarded := guarded_of_punctual hr₀ hpunctual htimeout
  have hinternal := hguarded.probe p hmem hhalf
  -- The circuit is half-open and its flag is set, so that it refuses.
  rcases step_cases hs with ⟨_, _, heq, -⟩ | ⟨u', o, k, r, heq, -, hexec⟩ | ⟨heq, -⟩
  · cases heq
  · cases heq
    generalize c₁.store = s' at hexec
    cases hexec with
    | allow hb =>
      rcases hguarded.admitted hpunctual.late htimeout hb with ⟨hclosed, -, -⟩ | ⟨hnone, -⟩
      · rw [hinternal] at hclosed
        cases hclosed
      · rw [hnone] at hmem
        exact absurd hmem List.not_mem_nil
  · cases heq

/-- Whether the newest step of a run admits a probe. -/
def admitsProbe : List Step → Bool
  | ⟨s, .act _ a⟩ :: _ => isAdmission a && s.breaker.state s.now == .halfOpen
  | _ => false

theorem exists_of_admitsProbe (h : admitsProbe tr = true) :
    ∃ s u l₂, tr = [] ++ ⟨s, .act u ⟨.beforeAttempt, some ()⟩⟩ :: l₂ ∧ s.breaker.state s.now = .halfOpen := by
  unfold admitsProbe at h
  split at h
  · rename_i s u a l₂
    rw [Bool.and_eq_true, isAdmission_iff, beq_iff_eq] at h
    obtain ⟨rfl, hhalf⟩ := h
    exact ⟨s, u, l₂, rfl, hhalf⟩
  · cases h

/-- After an outage a probe is admitted, and no other is under way. -/
theorem one_probe_sampleOutage :
    ∃ tr c s u l₂, (provider {}).Reach tr c ∧ tr = [] ++ ⟨s, .act u ⟨.beforeAttempt, some ()⟩⟩ :: l₂ ∧
      s.breaker.state s.now = .halfOpen ∧ ∀ p ∈ underway l₂, p.2.breaker.state p.2.now ≠ .halfOpen := by
  obtain ⟨tr, c, hr, hp⟩ := (provider {}).exists_of_play
    (.go 2 .unit :: .arrive (.getReferenceBiometric "1" "face") :: sampleOutage)
    (p := fun x => admitsProbe x.1 && decide (Punctual {} x.1 x.2.store)) (by decide)
  rw [Bool.and_eq_true, decide_eq_true_eq] at hp
  obtain ⟨hprobe, hpunctual⟩ := hp
  obtain ⟨s, u, l₂, htr, hhalf⟩ := exists_of_admitsProbe hprobe
  exact ⟨tr, c, s, u, l₂, hr, htr, hhalf, one_probe hr hpunctual (by decide) htr⟩

end SdidBridge.Sdid
