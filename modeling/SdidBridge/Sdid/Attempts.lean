import SdidBridge.Sdid.Resilience

/-!
# The attempts of a call

Where a call of the resilience wrapper stands is a matter of its newest commands (`stage`): it is ready for an
attempt, it was admitted, its attempt has an outcome, or it is over. Each stage permits few commands, and every call
keeps to them (`along_stage`). An attempt is under way from its admission until the breaker is told of its outcome
(`underway`).
-/

namespace SdidBridge.Sdid

open Concurrent Prog

/-! ## Outcomes -/

/-- The outcome of an attempt: its answer, once it is validated. -/
def outcome (m : Method) (answer : Except SdidError Reply) : Except SdidError Reply :=
  answer.bind (validateBoundary m.schema)

/-- Whether an outcome is a failed attempt. That SDID does not know an identity is an answer. -/
def failed : Except SdidError Reply → Bool
  | .ok _ => false
  | .error .unknownIdentity => false
  | .error _ => true

/-- The errors that no other attempt can mend. -/
def SdidError.Definitive : SdidError → Prop
  | .unknownIdentity => True
  | .configuration _ _ => True
  | _ => False

/-- A value has passed the schema of the method. -/
theorem schema_of_outcome {m : Method} {answer : Except SdidError Reply} {v : Reply}
    (h : outcome m answer = .ok v) : m.schema v = true := by
  cases answer with
  | error e => cases h
  | ok r =>
    have hvalid : validateBoundary m.schema r = .ok v := h
    unfold validateBoundary at hvalid
    split_ifs at hvalid with hschema
    rw [← Except.ok.inj hvalid]
    exact hschema

/-- An error of SDID is the outcome. -/
@[simp] theorem outcome_error (m : Method) (e : SdidError) : outcome m (.error e) = .error e := rfl

/-- Only SDID reports an error of the configuration. -/
theorem answer_of_configuration {m : Method} {answer : Except SdidError Reply} {p q : String}
    (h : outcome m answer = .error (.configuration p q)) : answer = .error (.configuration p q) := by
  cases answer with
  | error e => exact h
  | ok r =>
    have hvalid : validateBoundary m.schema r = .error (.configuration p q) := h
    unfold validateBoundary at hvalid
    split_ifs at hvalid
    cases hvalid

/-! ## Stages -/

/-- Where a call stands. -/
inductive Stage where
  /-- It may begin an attempt. -/
  | ready
  /-- The breaker admitted its attempt. -/
  | admitted
  /-- Its attempt has an outcome. -/
  | answered (x : Except SdidError Reply)
  /-- It has its result. -/
  | over (x : Except SdidError Reply)

/-- The stage of a call of `m` after the commands `h`, newest first. -/
def stage (m : Method) : List (Act Op Op.Res) → Stage
  | ⟨.beforeAttempt, some _⟩ :: _ => .admitted
  | ⟨.attempt _, some answer⟩ :: _ => .answered (outcome m answer)
  | ⟨.onSuccess, some _⟩ :: ⟨.attempt _, some answer⟩ :: _ => .over (outcome m answer)
  | ⟨_, none⟩ :: _ => .over (.error .circuitOpen)
  | _ => .ready

/-- The commands that a stage permits. -/
def Stage.Permits (m : Method) : Stage → Op → Prop
  | .ready, o => o = .beforeAttempt ∨ ∃ n, o = .sleep n
  | .admitted, o => o = .attempt m
  | .answered (.error (.configuration _ _)), _ => False
  | .answered x, o => o = if failed x then .onFailure else .onSuccess
  | .over _, _ => False

/-- The results that a stage allows. -/
def Stage.Concludes : Stage → Except SdidError Reply → Prop
  | .ready, x => ∃ e, x = .error e
  | .admitted, _ => False
  | .answered (.error (.configuration p q)), x => x = .error (.configuration p q)
  | .answered _, _ => False
  | .over x, y => y = x

/-- A call was admitted by its newest command. -/
theorem stage_eq_admitted {m : Method} {h : List (Act Op Op.Res)} (hh : stage m h = .admitted) :
    ∃ h', h = ⟨.beforeAttempt, some ()⟩ :: h' := by
  unfold stage at hh
  split at hh
  · exact ⟨_, rfl⟩
  all_goals cases hh

/-- An outcome is that of the newest command. -/
theorem stage_eq_answered {m : Method} {h : List (Act Op Op.Res)} {x : Except SdidError Reply}
    (hh : stage m h = .answered x) :
    ∃ m' answer h', h = ⟨.attempt m', some answer⟩ :: h' ∧ x = outcome m answer := by
  unfold stage at hh
  split at hh
  case h_2 m' answer h' => exact ⟨m', answer, h', rfl, (Stage.answered.inj hh).symm⟩
  all_goals cases hh

/-- A call that is over was refused, or its attempt succeeded. -/
theorem stage_eq_over {m : Method} {h : List (Act Op Op.Res)} {x : Except SdidError Reply}
    (hh : stage m h = .over x) : x = .error .circuitOpen ∨ ∃ answer, x = outcome m answer := by
  unfold stage at hh
  split at hh
  case h_3 answer h' => exact .inr ⟨answer, (Stage.over.inj hh).symm⟩
  case h_4 => exact .inl (Stage.over.inj hh).symm
  all_goals cases hh

/-- An attempt is made only by a call that was admitted. -/
theorem Stage.Permits.of_attempt {m m' : Method} {g : Stage} (h : g.Permits m (.attempt m')) :
    g = .admitted ∧ m' = m := by
  unfold Stage.Permits at h
  split at h
  · obtain h | ⟨n, h⟩ := h <;> cases h
  · cases h
    exact ⟨rfl, rfl⟩
  · cases h
  · split_ifs at h
  · cases h

/-- What is reported to the breaker is the outcome of an attempt. -/
theorem Stage.Permits.of_report {m : Method} {g : Stage} {o : Op} (h : g.Permits m o)
    (ho : o = .onSuccess ∨ o = .onFailure) :
    ∃ x, g = .answered x ∧ (∀ p q, x ≠ .error (.configuration p q)) ∧
      o = if failed x then .onFailure else .onSuccess := by
  unfold Stage.Permits at h
  split at h
  · obtain rfl | ⟨n, rfl⟩ := h <;> simp at ho
  · subst h
    simp at ho
  · cases h
  · rename_i x hconf
    exact ⟨x, rfl, hconf, h⟩
  · cases h

/-- The rest of a program keeps to the stages. -/
abbrev Staged (m : Method) (h : List (Act Op Op.Res)) (p : Call Reply) : Prop :=
  Along (fun h o => (stage m h).Permits m o) (fun h x => (stage m h).Concludes x) h p

/-- The rest of a call after its attempt has an outcome. -/
theorem staged_settled {m : Method} {answer : Except SdidError Reply} {h : List (Act Op Op.Res)}
    {retry : SdidError → Call Reply} (hretry : ∀ h' e, stage m h' = .ready → Staged m h' (retry e)) :
    Staged m (⟨.attempt m, some answer⟩ :: h) (settled m answer retry) := by
  have hstage : stage m (⟨.attempt m, some answer⟩ :: h) = .answered (outcome m answer) := rfl
  have hover : stage m (⟨.onSuccess, some ()⟩ :: ⟨.attempt m, some answer⟩ :: h) = .over (outcome m answer) := rfl
  unfold settled
  split
  · rename_i result heq
    have hok : outcome m answer = .ok result := heq
    refine along_perform_bind.mpr ⟨?_, rfl, fun _ => ?_⟩
    · rw [hstage, hok]
      rfl
    · rw [along_pure, hover, hok]
      rfl
  · rename_i p q heq
    have herror : outcome m answer = .error (.configuration p q) := heq
    show (stage m _).Concludes _
    rw [hstage, herror]
    rfl
  · rename_i heq
    have hunknown : outcome m answer = .error .unknownIdentity := heq
    refine along_perform_bind.mpr ⟨?_, rfl, fun _ => ?_⟩
    · rw [hstage, hunknown]
      rfl
    · rw [along_throwing, hover, hunknown]
      rfl
  · rename_i err hconf hunknown heq
    have herror : outcome m answer = .error err := heq
    refine along_perform_bind.mpr ⟨?_, rfl, fun _ => hretry _ _ rfl⟩
    rw [hstage, herror]
    cases err with
    | configuration p q => exact absurd rfl (hconf p q)
    | unknownIdentity => exact absurd rfl hunknown
    | _ => rfl

/-- The attempts of a call from the number `n` on. -/
theorem staged_attempts (m : Method) (left n : ℕ) (e : SdidError) {h : List (Act Op Op.Res)}
    (hh : stage m h = .ready) : Staged m h (attempts m left n e) := by
  induction left generalizing n e h with
  | zero =>
    show (stage m h).Concludes _
    rw [hh]
    exact ⟨e, rfl⟩
  | succ left ih =>
    have hgo : ∀ {h}, stage m h = .ready → Staged m h (do
        await .beforeAttempt
        let answer ← await (.attempt m)
        settled m answer (attempts m left (n + 1))) := by
      intro h hh
      refine along_perform_bind.mpr ⟨?_, rfl, fun _ => along_perform_bind.mpr ⟨rfl, rfl, fun answer => ?_⟩⟩
      · rw [hh]
        exact .inl rfl
      · exact staged_settled fun h' e hh' => ih (n + 1) e hh'
    unfold attempts
    rw [Staged, along_bind, along_onlyIf]
    refine ⟨fun _ => ?_, fun _ => hgo hh⟩
    have hsleep : (stage m h).Permits m (.sleep n) := by
      rw [hh]
      exact .inr ⟨n, rfl⟩
    have hready : ∀ r, Staged m (⟨.sleep n, some r⟩ :: h) (do
        await .beforeAttempt
        let answer ← await (.attempt m)
        settled m answer (attempts m left (n + 1))) := fun r => hgo rfl
    exact (along_perform _ _).mpr ⟨hsleep, rfl, fun r => hready r⟩

/-! ## Attempts under way -/

/-- Whether a command admits an attempt. -/
def isAdmission : Act Op Op.Res → Bool
  | ⟨.beforeAttempt, some _⟩ => true
  | _ => false

/-- Whether a command is an attempt with an answer that the breaker is told of. -/
def isSettled : Act Op Op.Res → Bool
  | ⟨.attempt _, some (.error (.configuration _ _))⟩ => false
  | ⟨.attempt _, some _⟩ => true
  | _ => false

/-- The attempts that are under way after the steps of a run, newest first: their calls, with the store that each was
admitted in. An attempt ends when the breaker is told of its outcome, or with an error of the configuration. -/
def underway : List Step → List (ℕ × Shared)
  | [] => []
  | ⟨s, .act t a⟩ :: tr =>
    (if isAdmission a then [(t, s)] else []) ++
      if isSettled a then underway tr else (underway tr).filter fun p => p.1 ≠ t
  | _ :: tr => underway tr

theorem isAdmission_iff {a : Act Op Op.Res} : isAdmission a = true ↔ a = ⟨.beforeAttempt, some ()⟩ := by
  constructor
  · intro h
    unfold isAdmission at h
    split at h
    · rfl
    · cases h
  · rintro rfl
    rfl

theorem isSettled_iff {a : Act Op Op.Res} : isSettled a = true ↔ Settles a := by
  constructor
  · intro h
    unfold isSettled at h
    split at h
    · cases h
    · rename_i m answer hconf
      exact ⟨m, answer, rfl, hconf⟩
    · cases h
  · rintro ⟨m, answer, rfl, hconf⟩
    unfold isSettled
    split
    · rename_i heq
      cases heq
      exact absurd rfl (hconf _ _)
    · rfl
    · rename_i hother
      exact absurd rfl (hother m answer)

/-- A command leaves the attempts of other calls under way, and those of its call only when it settles them. -/
theorem mem_underway_cons {p : ℕ × Shared} {s : Shared} {t : ℕ} {a : Act Op Op.Res} {tr : List Step} :
    p ∈ underway (⟨s, .act t a⟩ :: tr) ↔
      (p = (t, s) ∧ isAdmission a = true) ∨ (p ∈ underway tr ∧ (p.1 = t → isSettled a = true)) := by
  rw [underway, List.mem_append]
  by_cases hadmits : isAdmission a = true <;> by_cases hsettles : isSettled a = true <;>
    simp [hadmits, hsettles]

/-- An attempt is under way exactly when it was admitted and its call did nothing since but to settle it. -/
theorem mem_underway {p : ℕ × Shared} {tr : List Step} :
    p ∈ underway tr ↔ ∃ l₁ l₂, tr = l₁ ++ ⟨p.2, .act p.1 ⟨.beforeAttempt, some ()⟩⟩ :: l₂ ∧
      ∀ a ∈ own p.1 l₁, Settles a := by
  induction tr with
  | nil => simp [underway]
  | cons e tr ih =>
    -- The steps since the admission are this one and those of the run before it.
    have hcons : (∃ l₁ l₂, e :: tr = l₁ ++ ⟨p.2, .act p.1 ⟨.beforeAttempt, some ()⟩⟩ :: l₂ ∧
        ∀ a ∈ own p.1 l₁, Settles a) ↔ e = ⟨p.2, .act p.1 ⟨.beforeAttempt, some ()⟩⟩ ∨
          (p ∈ underway tr ∧ ∀ a, e.event = .act p.1 a → Settles a) := by
      constructor
      · rintro ⟨l₁, l₂, heq, hall⟩
        cases l₁ with
        | nil => exact .inl (List.cons.inj heq).1
        | cons e' l₁ =>
          obtain ⟨rfl, htr⟩ := List.cons.inj heq
          refine .inr ⟨ih.mpr ⟨l₁, l₂, htr, fun a ha => hall a ?_⟩, fun a hev => hall a ?_⟩
          · exact mem_own.mpr ((mem_own.mp ha).mono (List.subset_cons_self _ _))
          · exact mem_own.mpr ⟨e, List.mem_cons_self, hev⟩
      · rintro (rfl | ⟨hold, hnew⟩)
        · exact ⟨[], tr, rfl, fun a ha => absurd ha List.not_mem_nil⟩
        · obtain ⟨l₁, l₂, rfl, hall⟩ := ih.mp hold
          refine ⟨e :: l₁, l₂, rfl, fun a ha => ?_⟩
          obtain ⟨e', he', hev⟩ := mem_own.mp ha
          rcases List.mem_cons.mp he' with rfl | hold'
          · exact hnew a hev
          · exact hall a (mem_own.mpr ⟨e', hold', hev⟩)
    rw [hcons]
    obtain ⟨s, ev⟩ := e
    cases ev with
    | arrive t q => simp [underway]
    | env => simp [underway]
    | act t a =>
      rw [mem_underway_cons, isAdmission_iff, isSettled_iff]
      obtain ⟨u, s'⟩ := p
      constructor
      · rintro (⟨heq, rfl⟩ | ⟨hold, hnew⟩)
        · cases heq
          exact .inl rfl
        · refine .inr ⟨hold, fun a' hev => ?_⟩
          cases hev
          exact hnew rfl
      · rintro (heq | ⟨hold, hnew⟩)
        · cases heq
          exact .inl ⟨rfl, rfl⟩
        · refine .inr ⟨hold, ?_⟩
          rintro rfl
          exact hnew a rfl

/-! ## Steps -/

/-- What a command does to the store `s`, with its answer. -/
inductive Executes (s : Shared) : Act Op Op.Res → Shared → Prop
  | sleep (n : ℕ) : Executes s ⟨.sleep n, some ()⟩ s
  | allow {b : CircuitBreaker} (hb : s.breaker.beforeAttempt s.now = some b) :
    Executes s ⟨.beforeAttempt, some ()⟩ { s with breaker := b }
  | refuse (hb : s.breaker.beforeAttempt s.now = none) : Executes s ⟨.beforeAttempt, none⟩ s
  | attempt (m : Method) (answer : Except SdidError Reply) : Executes s ⟨.attempt m, some answer⟩ s
  | succeed : Executes s ⟨.onSuccess, some ()⟩ { s with breaker := s.breaker.onSuccess }
  | fail : Executes s ⟨.onFailure, some ()⟩ { s with breaker := s.breaker.onFailure s.now }

theorem executes_of_exec {i : Input} {o : Op} {r : Option o.Res} {s s' : Shared} (h : exec i s o = some (r, s')) :
    Executes s ⟨o, r⟩ s' := by
  cases o with
  | sleep n =>
    cases h
    exact .sleep n
  | beforeAttempt =>
    simp only [exec] at h
    split at h
    · rename_i b hb
      cases h
      exact .allow hb
    · rename_i hb
      cases h
      exact .refuse hb
  | attempt m =>
    simp only [exec] at h
    split at h
    · cases h
      exact .attempt m _
    · cases h
  | onSuccess =>
    cases h
    exact .succeed
  | onFailure =>
    cases h
    exact .fail

/-! ## Runs -/

/-- A provider whose breaker and clock start in `s₀`. -/
def providerFrom (opts : ResilienceOptions) (s₀ : Shared) :
    Machine Op Op.Res SdidError Reply Method Shared Input :=
  { provider opts with init := s₀ }

variable {opts : ResilienceOptions} {s₀ : Shared} {tr l₁ l₂ : List Step}
  {c : Config Op Op.Res SdidError Reply Shared} {s s' : Shared} {t : ℕ} {m : Method}

/-- A step of a run is an arrival, a command of a call in progress, or a step of the clock. -/
theorem step_cases {mv : Move Method Input} {e : Event Op Op.Res Method}
    {c' : Config Op Op.Res SdidError Reply Shared} (hs : (providerFrom opts s₀).step c mv = some (e, c')) :
    (∃ u q, e = .arrive u q ∧ c'.store = c.store) ∨
      (∃ u o k r, e = .act u ⟨o, r⟩ ∧ c.calls[u]? = some (.call o k) ∧ Executes c.store ⟨o, r⟩ c'.store) ∨
        (e = .env ∧ ∃ now, c'.store = { c.store with now }) := by
  have hlead := Machine.step_leads hs
  rcases Machine.step_calls hs with ⟨q, rfl, -⟩ | ⟨u, o, k, r, rfl, hk, -⟩ | ⟨rfl, -⟩
  · exact .inl ⟨_, q, rfl, hlead⟩
  · obtain ⟨i, hexec⟩ | ⟨-, hfallible, -⟩ := hlead
    · exact .inr (.inl ⟨u, o, k, r, rfl, hk, executes_of_exec hexec⟩)
    · cases hfallible
  · obtain ⟨i, henv⟩ := hlead
    refine .inr (.inr ⟨rfl, ?_⟩)
    cases i with
    | clock now => exact ⟨now, (Option.some.inj henv).symm⟩
    | unit => cases henv
    | answer a => cases henv

/-- Every call keeps to the stages. -/
theorem staged_handler (m : Method) : Staged m [] ((providerFrom opts s₀).handler m) :=
  staged_attempts m _ _ _ rfl

/-- So does what remains of a call in a run. -/
theorem staged_rest (hr : (providerFrom opts s₀).Reach tr c) (ha : Arrived tr t m) {p : Call Reply}
    (hp : c.calls[t]? = some p) : Staged m (own t tr) p := by
  obtain ⟨q, ha', hres⟩ := hr.residue hp
  obtain rfl := hr.arrived_unique ha' ha
  exact hres.along (staged_handler q)

/-- A command of a call is permitted where it is executed. -/
theorem permits_of_own (hr : (providerFrom opts s₀).Reach tr c) (ha : Arrived tr t m)
    {a : Act Op Op.Res} {h₁ h₂ : List (Act Op Op.Res)} (hown : own t tr = h₁ ++ a :: h₂) :
    (stage m h₂).Permits m a.op := by
  obtain ⟨l₁, s, l₂, rfl, -, rfl⟩ := exists_of_own_eq hown
  exact hr.act_of_arrived ha (staged_handler m)

/-- A call whose next command reports to the breaker has its attempt under way, which has the outcome that is
reported. -/
theorem underway_of_report (hr : (providerFrom opts s₀).Reach tr c) {o : Op} {k : Option o.Res → Call Reply}
    (hk : c.calls[t]? = some (.call o k)) (ho : o = .onSuccess ∨ o = .onFailure) :
    ∃ m answer h s, own t tr = ⟨.attempt m, some answer⟩ :: h ∧ (t, s) ∈ underway tr ∧
      o = if failed (outcome m answer) then .onFailure else .onSuccess := by
  obtain ⟨m, ha, -⟩ := hr.residue hk
  obtain ⟨x, hx, hconf, hreport⟩ := Stage.Permits.of_report (staged_rest hr ha hk).1 ho
  obtain ⟨m', answer, h, hown, rfl⟩ := stage_eq_answered hx
  -- The attempt follows its admission.
  have hattempt : (stage m h).Permits m (.attempt m') :=
    permits_of_own hr ha (hown.trans (List.nil_append _).symm)
  obtain ⟨hadmitted, rfl⟩ := hattempt.of_attempt
  obtain ⟨h', rfl⟩ := stage_eq_admitted hadmitted
  obtain ⟨l₁, s, l₂, htr, hnewer, -⟩ := exists_of_own_eq (hown.trans (List.singleton_append).symm)
  refine ⟨m', answer, _, s, hown, mem_underway.mpr ⟨l₁, l₂, htr, fun a hmem => ?_⟩, hreport⟩
  show Settles a
  rw [hnewer, List.mem_singleton] at hmem
  refine ⟨m', answer, hmem, ?_⟩
  rintro p q rfl
  exact hconf p q rfl

/-- A call with an attempt under way is in progress. -/
theorem inProgress_of_underway (hr : (providerFrom opts s₀).Reach tr c) (h : (t, s) ∈ underway tr) :
    InProgress c t := by
  obtain ⟨l₁, l₂, htr, hsettles⟩ := mem_underway.mp h
  have hdid : Did tr t ⟨.beforeAttempt, some ()⟩ := by
    rw [htr]
    exact did_here l₁ l₂
  obtain ⟨p, hp⟩ : ∃ p, c.calls[t]? = some p := ⟨_, List.getElem?_eq_getElem (hr.did_lt hdid)⟩
  obtain ⟨q, -, hres⟩ := hr.residue hp
  have hown : own t tr = own t l₁ ++ ⟨.beforeAttempt, some ()⟩ :: own t l₂ := by
    rw [htr, own_append, Machine.own_cons_self]
  have hends : Along Follows (fun h _ => Ends h) [] ((provider opts).handler q) := along_execute q
  obtain ⟨o, k, rfl, -⟩ := next_of_admitted (hres.along hends) hown hsettles
  exact ⟨o, k, hp⟩

end SdidBridge.Sdid
