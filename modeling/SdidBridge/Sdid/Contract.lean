import SdidBridge.Concurrent.Cost
import SdidBridge.Concurrent.InTurn
import SdidBridge.Sdid.Attempts

/-!
# The contract of the resilience wrapper

A call makes at most `retries + 1` attempts, each after the breaker admitted it, returns only a value that its schema
accepts, and throws a definitive error right after the attempt that met it (`Kept`). When calls are made one after
another, the breaker is the automaton `Reference`, which is stated without the breaker's fields: it counts the failed
attempts in a row, opens on the last that is allowed, and then admits one probe (`Mirrors`). `execute_contract` has
both.
-/

namespace SdidBridge.Sdid

open Concurrent Prog

/-! ## The reference automaton -/

/-- A circuit. -/
inductive Reference where
  /-- Closed, after so many failed attempts in a row. -/
  | closed (failures : ℕ)
  /-- Open since a time. -/
  | opened (since : ℕ)
  /-- Half-open, with a probe. -/
  | probing

namespace Reference

/-- The mode at the time `now`. -/
def mode (resetMs now : ℕ) : Reference → CircuitState
  | .closed _ => .closed
  | .opened since => if since + resetMs ≤ now then .halfOpen else .opened
  | .probing => .halfOpen

/-- Whether an attempt is admitted at the time `now`. -/
def admits (resetMs now : ℕ) : Reference → Bool
  | .closed _ => true
  | .opened since => decide (since + resetMs ≤ now)
  | .probing => false

/-- An attempt is asked for, which is the probe when the time of the open circuit is over. -/
def asked (resetMs now : ℕ) : Reference → Reference
  | .opened since => if since + resetMs ≤ now then .probing else .opened since
  | g => g

/-- An attempt ends. -/
def ended (threshold now : ℕ) (failed : Bool) : Reference → Reference
  | .closed failures =>
    if failed then if failures + 1 = threshold then .opened now else .closed (failures + 1) else .closed 0
  | .opened since => .opened since
  | .probing => if failed then .opened now else .closed 0

end Reference

/-- Whether a command reports to the breaker. -/
def isReport : Op → Bool
  | .onSuccess => true
  | .onFailure => true
  | _ => false

/-- The automaton after the steps of a run. An attempt ends when its call reports, with the outcome of the attempt. -/
def reference (opts : ResilienceOptions) : List Step → Reference
  | [] => .closed 0
  | ⟨s, .act t a⟩ :: tr =>
    match a.op, own t tr with
    | .beforeAttempt, _ => (reference opts tr).asked opts.breakerResetMs s.now
    | o, ⟨.attempt m, some answer⟩ :: _ =>
      if isReport o then
        (reference opts tr).ended opts.breakerFailureThreshold s.now (failed (outcome m answer))
      else reference opts tr
    | _, _ => reference opts tr
  | _ :: tr => reference opts tr

/-- The automaton that a breaker is. -/
def CircuitBreaker.reference (b : CircuitBreaker) : Reference :=
  match b.internal with
  | .closed => .closed b.consecutiveFailures
  | .opened => .opened b.openedAt
  | .halfOpen => .probing

/-- A breaker that was made with the settings, and whose fields go together. -/
structure CircuitBreaker.Sound (opts : ResilienceOptions) (b : CircuitBreaker) : Prop where
  threshold : b.threshold = opts.breakerFailureThreshold
  resetMs : b.resetMs = opts.breakerResetMs
  flag : b.probeInFlight = true ↔ b.internal = .halfOpen
  below : b.internal = .closed → b.consecutiveFailures < opts.breakerFailureThreshold

namespace CircuitBreaker.Sound

variable {opts : ResilienceOptions} {b b' : CircuitBreaker} {now : ℕ}

theorem state_eq (h : b.Sound opts) (now : ℕ) : b.state now = b.reference.mode opts.breakerResetMs now := by
  unfold CircuitBreaker.state CircuitBreaker.reference
  rw [h.resetMs]
  cases hi : b.internal with
  | closed => simp [Reference.mode]
  | opened => simp [Reference.mode]
  | halfOpen => simp [Reference.mode]

/-- The breaker admits what the automaton admits. -/
theorem admits_eq (h : b.Sound opts) (now : ℕ) :
    (b.beforeAttempt now).isSome = b.reference.admits opts.breakerResetMs now := by
  have hflag : b.probeInFlight = decide (b.internal = .halfOpen) := by
    rw [Bool.eq_iff_iff, decide_eq_true_eq]
    exact h.flag
  unfold CircuitBreaker.beforeAttempt
  rw [h.state_eq, hflag]
  unfold CircuitBreaker.reference
  cases hi : b.internal with
  | closed => rfl
  | halfOpen => rfl
  | opened =>
    by_cases hover : b.openedAt + opts.breakerResetMs ≤ now
    · simp [Reference.mode, Reference.admits, hover]
    · simp [Reference.mode, Reference.admits, hover]

/-- An attempt is admitted. -/
theorem allow (h : b.Sound opts) (hb : b.beforeAttempt now = some b') :
    b'.Sound opts ∧ b'.reference = b.reference.asked opts.breakerResetMs now ∧ b'.internal ≠ .opened := by
  unfold CircuitBreaker.beforeAttempt at hb
  split at hb
  · cases hb
  · rename_i hhalf
    split_ifs at hb with hflag
    obtain rfl := Option.some.inj hb
    refine ⟨⟨h.threshold, h.resetMs, ⟨fun _ => rfl, fun _ => rfl⟩, fun hi => (by cases hi)⟩, ?_,
      fun hi => (by cases hi)⟩
    -- The flag is not set, so that the circuit was open, and its time is over.
    have hnot : b.internal ≠ .halfOpen := fun hi => hflag (h.flag.mpr hi)
    unfold CircuitBreaker.state at hhalf
    split_ifs at hhalf with hover
    · obtain ⟨hopen, htime⟩ := hover
      rw [h.resetMs] at htime
      unfold CircuitBreaker.reference
      rw [hopen]
      exact (if_pos htime).symm
    · exact absurd hhalf hnot
  · rename_i hclosed
    obtain rfl := Option.some.inj hb
    have hi : b.internal = .closed := by
      unfold CircuitBreaker.state at hclosed
      split_ifs at hclosed
      exact hclosed
    refine ⟨h, ?_, fun hopen => ?_⟩
    · unfold CircuitBreaker.reference
      rw [hi]
      rfl
    · rw [hi] at hopen
      cases hopen

/-- An attempt is refused. -/
theorem refuse (h : b.Sound opts) (hb : b.beforeAttempt now = none) :
    b.reference.asked opts.breakerResetMs now = b.reference := by
  have hadmits := h.admits_eq now
  rw [hb] at hadmits
  cases hreference : b.reference with
  | closed failures => rfl
  | probing => rfl
  | opened since =>
    rw [hreference] at hadmits
    have hearly : ¬ since + opts.breakerResetMs ≤ now := of_decide_eq_false hadmits.symm
    exact if_neg hearly

/-- An attempt succeeded. -/
theorem succeed (h : b.Sound opts) (now : ℕ) (hthreshold : 1 ≤ opts.breakerFailureThreshold)
    (hopen : b.internal ≠ .opened) :
    b.onSuccess.Sound opts ∧ b.onSuccess.reference = b.reference.ended opts.breakerFailureThreshold now false := by
  refine ⟨⟨h.threshold, h.resetMs, ⟨fun hf => (by cases hf), fun hi => (by cases hi)⟩, fun _ => hthreshold⟩, ?_⟩
  unfold CircuitBreaker.reference
  cases hi : b.internal with
  | opened => exact absurd hi hopen
  | closed => rfl
  | halfOpen => rfl

/-- An attempt failed. -/
theorem fail (h : b.Sound opts) (now : ℕ) (hopen : b.internal ≠ .opened) :
    (b.onFailure now).Sound opts ∧
      (b.onFailure now).reference = b.reference.ended opts.breakerFailureThreshold now true := by
  unfold CircuitBreaker.onFailure
  dsimp only
  split_ifs with hhalf hmany
  · refine ⟨⟨h.threshold, h.resetMs, ⟨fun hf => (by cases hf), fun hi => (by cases hi)⟩, fun hi => (by cases hi)⟩, ?_⟩
    unfold CircuitBreaker.reference
    rw [hhalf]
    rfl
  all_goals
    have hclosed : b.internal = .closed := by
      cases hi : b.internal with
      | closed => rfl
      | opened => exact absurd hi hopen
      | halfOpen => exact absurd hi hhalf
    have hbelow := h.below hclosed
    rw [h.threshold] at hmany
  · refine ⟨⟨h.threshold, h.resetMs, ⟨fun hf => (by cases hf), fun hi => (by cases hi)⟩, fun hi => (by cases hi)⟩, ?_⟩
    have hlast : b.consecutiveFailures + 1 = opts.breakerFailureThreshold := by omega
    unfold CircuitBreaker.reference
    rw [hclosed]
    exact (if_pos hlast).symm
  · have hmore : b.consecutiveFailures + 1 ≠ opts.breakerFailureThreshold := by omega
    refine ⟨⟨h.threshold, h.resetMs, ⟨fun hf => (by cases hf), fun hi => absurd hi hhalf⟩, fun _ => ?_⟩, ?_⟩
    · show b.consecutiveFailures + 1 < _
      omega
    · unfold CircuitBreaker.reference
      dsimp only
      rw [hclosed]
      exact (if_neg hmore).symm

end CircuitBreaker.Sound

/-! ## Calls in turn -/

section InTurn

variable {opts : ResilienceOptions} {tr : List Step} {c : Config Op Op.Res SdidError Reply Shared} {s : Shared} {t : ℕ}

/-- A breaker is the automaton of the run. -/
structure Mirrors (opts : ResilienceOptions) (tr : List Step) (b : CircuitBreaker) : Prop where
  sound : b.Sound opts
  reference : b.reference = reference opts tr
  /-- No attempt is under way in an open circuit. -/
  idle : b.internal = .opened → underway tr = []

/-- The automaton over a report. -/
theorem reference_report {o : Op} {r : Option o.Res} {m : Method} {answer : Except SdidError Reply}
    {h : List (Act Op Op.Res)} (ho : isReport o = true) (hown : own t tr = ⟨.attempt m, some answer⟩ :: h) :
    reference opts (⟨s, .act t ⟨o, r⟩⟩ :: tr) =
      (reference opts tr).ended opts.breakerFailureThreshold s.now (failed (outcome m answer)) := by
  rw [SdidBridge.Sdid.reference, hown]
  cases o with
  | onSuccess => rfl
  | onFailure => rfl
  | sleep n => cases ho
  | beforeAttempt => cases ho
  | attempt m => cases ho

/-- The automaton over a command that neither asks nor reports. -/
theorem reference_other {a : Act Op Op.Res} (ha : a.op ≠ .beforeAttempt) (hr : isReport a.op = false) :
    reference opts (⟨s, .act t a⟩ :: tr) = reference opts tr := by
  obtain ⟨o, r⟩ := a
  rw [reference]
  split
  · rename_i heq
    exact absurd heq ha
  · rename_i heq
    rw [if_neg]
    exact fun htrue => Bool.false_ne_true (hr.symm.trans htrue)
  · rfl

/-- Fewer attempts are under way after a command that admits none. -/
theorem underway_nil {a : Act Op Op.Res} (ha : isAdmission a = false) (hnone : underway tr = []) :
    underway (⟨s, .act t a⟩ :: tr) = [] := by
  refine List.eq_nil_iff_forall_not_mem.mpr fun p hp => ?_
  rcases mem_underway_cons.mp hp with ⟨-, hadmits⟩ | ⟨hmem, -⟩
  · rw [ha] at hadmits
    cases hadmits
  · rw [hnone] at hmem
    exact List.not_mem_nil hmem

/-- After the report of a call, no attempt is under way. -/
theorem underway_report (hr : (provider opts).InTurn tr c) {s₁ : Shared} (hunder : (t, s₁) ∈ underway tr)
    {o : Op} {r : Option o.Res} (ho : isReport o = true) : underway (⟨s, .act t ⟨o, r⟩⟩ :: tr) = [] := by
  have hprogress : ∀ {u s'}, (u, s') ∈ underway tr → InProgress c u := fun hmem =>
    inProgress_of_underway hr.reach hmem
  refine List.eq_nil_iff_forall_not_mem.mpr fun p hp => ?_
  rcases mem_underway_cons.mp hp with ⟨-, hadmits⟩ | ⟨hmem, hsettled⟩
  · cases o <;> cases ho <;> cases hadmits
  · -- One call is in progress, and its attempt ends.
    have hone : p.1 = t := hr.one (hprogress hmem) (hprogress hunder)
    have hsettles := hsettled hone
    cases o <;> cases ho <;> cases hsettles

/-- The breaker is the automaton in every run of calls one after another. -/
theorem mirrors_of_inTurn (hr : (provider opts).InTurn tr c) (hthreshold : 1 ≤ opts.breakerFailureThreshold) :
    Mirrors opts tr c.store.breaker := by
  induction hr with
  | init =>
    exact ⟨⟨rfl, rfl, ⟨fun hf => (by cases hf), fun hi => (by cases hi)⟩, fun _ => hthreshold⟩, rfl,
      fun hi => (by cases hi)⟩
  | @step tr c m e c' hr hs hover ih =>
    obtain ⟨hsound, hreference, hidle⟩ := ih
    rcases step_cases hs with ⟨u, q, rfl, hstore⟩ | ⟨u, o, k, r, rfl, hk, hexec⟩ | ⟨rfl, now, hstore⟩
    · rw [hstore]
      exact ⟨hsound, hreference, hidle⟩
    · generalize c'.store = s' at hexec ⊢
      cases hexec with
      | sleep n => exact ⟨hsound, hreference.trans (reference_other (fun heq => by cases heq) rfl).symm,
          fun hi => underway_nil rfl (hidle hi)⟩
      | allow hb =>
        obtain ⟨hsound', hreference', hopen⟩ := hsound.allow hb
        refine ⟨hsound', ?_, fun hi => absurd hi hopen⟩
        rw [hreference', hreference]
        rfl
      | refuse hb =>
        refine ⟨hsound, ?_, fun hi => underway_nil rfl (hidle hi)⟩
        have hasked := hsound.refuse hb
        rw [hreference] at hasked ⊢
        exact hasked.symm
      | attempt m answer => exact ⟨hsound, hreference.trans (reference_other (fun heq => by cases heq) rfl).symm,
          fun hi => underway_nil rfl (hidle hi)⟩
      | succeed =>
        obtain ⟨m, answer, h, s₁, hown, hunder, hreport⟩ := underway_of_report hr.reach hk (.inl rfl)
        have hopen : c.store.breaker.internal ≠ .opened := by
          intro hi
          rw [hidle hi] at hunder
          exact List.not_mem_nil hunder
        have hsuccess : failed (outcome m answer) = false := by
          by_contra hfailed
          rw [Bool.not_eq_false] at hfailed
          rw [if_pos hfailed] at hreport
          cases hreport
        obtain ⟨hsound', hreference'⟩ := hsound.succeed c.store.now hthreshold hopen
        refine ⟨hsound', ?_, fun hi => (by cases hi)⟩
        rw [reference_report rfl hown, hsuccess, ← hreference]
        exact hreference'
      | fail =>
        obtain ⟨m, answer, h, s₁, hown, hunder, hreport⟩ := underway_of_report hr.reach hk (.inr rfl)
        have hopen : c.store.breaker.internal ≠ .opened := by
          intro hi
          rw [hidle hi] at hunder
          exact List.not_mem_nil hunder
        have hfailure : failed (outcome m answer) = true := by
          by_contra hfailed
          rw [if_neg hfailed] at hreport
          cases hreport
        obtain ⟨hsound', hreference'⟩ := hsound.fail c.store.now hopen
        refine ⟨hsound', ?_, fun _ => underway_report hr hunder rfl⟩
        rw [reference_report rfl hown, hfailure, ← hreference]
        exact hreference'
    · rw [hstore]
      exact ⟨hsound, hreference, hidle⟩

end InTurn

/-! ## One call -/

section Call

variable {opts : ResilienceOptions} {s₀ : Shared} {tr : List Step} {c : Config Op Op.Res SdidError Reply Shared}
  {t : ℕ} {m : Method} {h₁ h₂ : List (Act Op Op.Res)}

/-- The weight of an attempt. -/
def attempted : Op → ℕ
  | .attempt _ => 1
  | _ => 0

theorem atMost_attempts (m : Method) (left n : ℕ) (e : SdidError) : AtMost attempted left (attempts m left n e) := by
  induction left generalizing n e with
  | zero => exact atMost_throwing 0 e
  | succ left ih =>
    have hreport : ∀ {o : Op} {f : o.Res → Call Reply}, attempted o = 0 → (∀ r, AtMost attempted left (f r)) →
        AtMost attempted left (await o >>= f) := fun ho hf =>
      AtMost.bind_free (atMost_perform ho.le) hf
    have hsettled : ∀ answer, AtMost attempted left (settled m answer (attempts m left (n + 1))) := by
      intro answer
      unfold settled
      split
      · exact hreport rfl fun _ => atMost_pure _ _
      · exact atMost_throwing _ _
      · exact hreport rfl fun _ => atMost_throwing _ _
      · exact hreport rfl fun _ => ih _ _
    unfold attempts
    refine AtMost.bind_free (.ite (fun _ => atMost_perform (le_refl 0)) fun _ => atMost_pure _ _) fun _ => ?_
    refine AtMost.bind_free (atMost_perform (le_refl 0)) fun _ => ?_
    rw [Nat.add_comm]
    exact AtMost.bind (atMost_perform (le_refl 1)) hsettled

/-- The contract of a call of `m` that has executed `h`, newest first, and has `p` left to do. -/
structure Kept (opts : ResilienceOptions) (m : Method) (h : List (Act Op Op.Res)) (p : Call Reply) : Prop where
  attempts : spent attempted h ≤ opts.retries + 1
  /-- Each attempt is one of `m`, right after its admission. -/
  admitted : ∀ {h₁ h₂ m' r}, h = h₁ ++ ⟨.attempt m', r⟩ :: h₂ → m' = m ∧ ∃ h', h₂ = ⟨.beforeAttempt, some ()⟩ :: h'
  /-- A refusal is the end. -/
  refused : ⟨.beforeAttempt, none⟩ ∈ h → p = .raise .circuitOpen
  /-- A value that is returned has the form of the method's answers. -/
  valid : ∀ {v}, p = .ret v → m.schema v = true
  /-- A definitive error is thrown after the attempt that met it, but for the report to the breaker. -/
  definitive : ∀ {h₁ h₂ m' e}, e.Definitive → h = h₁ ++ ⟨.attempt m', some (.error e)⟩ :: h₂ →
    (h₁ = [] ∨ h₁ = [⟨.onSuccess, some ()⟩]) ∧
      (p = .raise e ∨ ∃ k, p = .call .onSuccess k ∧ k (some ()) = .raise e)

/-- What a command of a run does to the store. -/
theorem executes_of_mem (hr : (providerFrom opts s₀).Reach tr c) {s : Shared} {a : Act Op Op.Res}
    (he : ⟨s, .act t a⟩ ∈ tr) : ∃ s', Executes s a s' := by
  obtain ⟨l₁, l₂, rfl⟩ := List.append_of_mem he
  obtain ⟨c₀, mv, c₁, -, hstore, hs⟩ := hr.entry
  obtain rfl : c₀.store = s := hstore
  rcases step_cases hs with ⟨_, _, heq, -⟩ | ⟨u, o, k, r, heq, -, hexec⟩ | ⟨heq, -⟩
  · cases heq
  · cases heq
    exact ⟨_, hexec⟩
  · cases heq

/-- The breaker refuses an attempt exactly when it rejects it. -/
theorem refused_iff (hr : (providerFrom opts s₀).Reach tr c) {s : Shared} {r : Option Unit}
    (he : ⟨s, .act t ⟨.beforeAttempt, r⟩⟩ ∈ tr) : r = none ↔ s.breaker.beforeAttempt s.now = none := by
  obtain ⟨s', hexec⟩ := executes_of_mem hr he
  cases hexec with
  | allow hb => simp [hb]
  | refuse hb => simp [hb]

/-- No command comes after a stage that permits none. -/
theorem nil_of_final (hr : (providerFrom opts s₀).Reach tr c) (ha : Arrived tr t m) (hown : own t tr = h₁ ++ h₂)
    (hfinal : ∀ o, ¬ (stage m h₂).Permits m o) : h₁ = [] := by
  rcases List.eq_nil_or_concat h₁ with hnil | ⟨h, a, rfl⟩
  · exact hnil
  · rw [List.concat_eq_append, List.append_assoc] at hown
    exact absurd (permits_of_own hr ha hown) (hfinal a.op)

/-- The rest of a call that is over. -/
theorem rest_of_over {h : List (Act Op Op.Res)} {e : SdidError} {p : Call Reply} (hp : Staged m h p)
    (hh : stage m h = .over (.error e)) : p = .raise e := by
  cases p with
  | ret v =>
    have hconcludes : (stage m h).Concludes (.ok v) := hp
    rw [hh] at hconcludes
    cases hconcludes
  | raise e' =>
    have hconcludes : (stage m h).Concludes (.error e') := hp
    rw [hh] at hconcludes
    cases hconcludes
    rfl
  | call o k =>
    have hpermits : (stage m h).Permits m o := hp.1
    rw [hh] at hpermits
    cases hpermits

/-- Every call keeps the contract. -/
theorem kept_of_reach (hr : (providerFrom opts s₀).Reach tr c) (ha : Arrived tr t m) {p : Call Reply}
    (hp : c.calls[t]? = some p) : Kept opts m (own t tr) p where
  attempts := hr.spent_le ha (atMost_attempts m (opts.retries + 1) 0 (.other ""))
  admitted hown := by
    obtain ⟨hadmitted, rfl⟩ := (permits_of_own hr ha hown).of_attempt
    exact ⟨rfl, stage_eq_admitted hadmitted⟩
  refused hmem := by
    obtain ⟨h₁, h₂, hown⟩ := List.append_of_mem hmem
    obtain rfl := nil_of_final hr ha hown fun o ho => ho
    have hstaged := staged_rest hr ha hp
    rw [hown] at hstaged
    exact rest_of_over hstaged rfl
  valid := by
    rintro v rfl
    have hconcludes : (stage m (own t tr)).Concludes (.ok v) := staged_rest hr ha hp
    unfold Stage.Concludes at hconcludes
    split at hconcludes
    · obtain ⟨e, heq⟩ := hconcludes
      cases heq
    · cases hconcludes
    · cases hconcludes
    · cases hconcludes
    · rename_i x hx
      subst hconcludes
      rcases stage_eq_over hx with heq | ⟨answer, heq⟩
      · cases heq
      · exact schema_of_outcome heq.symm
  definitive := by
    intro h₁ h₂ m' e he hown
    have hstaged := staged_rest hr ha hp
    cases e with
    | configuration q q' =>
      -- The stage of the attempt permits no command.
      obtain rfl := nil_of_final hr ha hown fun o ho => ho
      rw [List.nil_append] at hown
      rw [hown] at hstaged
      refine ⟨.inl rfl, .inl ?_⟩
      cases p with
      | ret v => cases (hstaged : Except.ok v = _)
      | raise e =>
        cases (hstaged : Except.error e = _)
        rfl
      | call o k => exact absurd hstaged.1 id
    | unknownIdentity =>
      rcases List.eq_nil_or_concat h₁ with rfl | ⟨h, a, rfl⟩
      · rw [List.nil_append] at hown
        rw [hown] at hstaged
        refine ⟨.inl rfl, .inr ?_⟩
        cases p with
        | ret v => exact absurd hstaged id
        | raise e => exact absurd hstaged id
        | call o k =>
          obtain ⟨hnext, hrest⟩ := hstaged
          obtain rfl : o = .onSuccess := hnext
          exact ⟨k, rfl, rest_of_over (hrest (some ())) rfl⟩
      · rw [List.concat_eq_append, List.append_assoc] at hown
        -- The report comes next, and the call is over.
        have hreport : a.op = .onSuccess := permits_of_own hr ha hown
        have hmem : a ∈ own t tr := by
          rw [hown]
          exact List.mem_append_right _ List.mem_cons_self
        obtain ⟨⟨s, ev⟩, he', rfl⟩ := mem_own.mp hmem
        obtain ⟨s', hexec⟩ := executes_of_mem hr he'
        cases hexec with
        | succeed =>
          obtain rfl := nil_of_final hr ha hown fun o ho => ho
          rw [List.nil_append] at hown
          rw [hown] at hstaged
          exact ⟨.inr rfl, .inl (rest_of_over hstaged rfl)⟩
        | _ => cases hreport
    | _ => cases he

end Call

/-- **The contract of the resilience wrapper.** From any breaker, and however calls are interleaved, each call keeps its
contract, and an attempt is refused exactly when the breaker rejects it. When calls are made one after another, the
breaker is the reference automaton: it is in the same mode and admits the same attempts, at any time. -/
theorem execute_contract (opts : ResilienceOptions) (hthreshold : 1 ≤ opts.breakerFailureThreshold) :
    (∀ s₀ tr c t m p, (providerFrom opts s₀).Reach tr c → Arrived tr t m → c.calls[t]? = some p →
      Kept opts m (own t tr) p ∧
        ∀ s r, ⟨s, .act t ⟨.beforeAttempt, r⟩⟩ ∈ tr → (r = none ↔ s.breaker.beforeAttempt s.now = none)) ∧
      ∀ tr c, (provider opts).InTurn tr c → c.store.breaker.reference = reference opts tr ∧
        ∀ now, c.store.breaker.state now = (reference opts tr).mode opts.breakerResetMs now ∧
          (c.store.breaker.beforeAttempt now).isSome = (reference opts tr).admits opts.breakerResetMs now := by
  constructor
  · intro s₀ tr c t m p hr ha hp
    exact ⟨kept_of_reach hr ha hp, fun s r he => refused_iff hr he⟩
  · intro tr c hr
    obtain ⟨hsound, hreference, -⟩ := mirrors_of_inTurn hr hthreshold
    rw [← hreference]
    exact ⟨rfl, fun now => ⟨hsound.state_eq now, hsound.admits_eq now⟩⟩

/-- After an outage the circuit is open, as the automaton is, and the first call has kept its contract. -/
theorem execute_contract_sampleOutage :
    ∃ tr c, (provider {}).InTurn tr c ∧ c.store.breaker.internal = .opened ∧
      c.store.breaker.reference = reference {} tr ∧
        ∃ m p, Arrived tr 0 m ∧ c.calls[0]? = some p ∧ Kept {} m (own 0 tr) p := by
  obtain ⟨tr, c, hr, hp⟩ := (provider {}).exists_of_playInTurn sampleOutage
    (p := fun x => decide (x.2.store.breaker.internal = .opened) && decide (0 < x.2.calls.length)) (by decide)
  rw [Bool.and_eq_true, decide_eq_true_eq, decide_eq_true_eq] at hp
  obtain ⟨hopen, hlen⟩ := hp
  obtain ⟨hkept, hmirrors⟩ := execute_contract {} (by decide)
  have hget : c.calls[0]? = some c.calls[0] := List.getElem?_eq_getElem hlen
  obtain ⟨m, ha, -⟩ := hr.reach.residue hget
  exact ⟨tr, c, hr, hopen, (hmirrors tr c hr).1, m, c.calls[0], ha, hget, (hkept _ tr c 0 m _ hr.reach ha hget).1⟩

end SdidBridge.Sdid
