import SdidBridge.Concurrent.Prog

/-!
# Interleaved calls over a shared store

A `Machine` serves requests. Each request starts a call, which runs its handler's program; the
commands of all calls are executed one at a time on one store, in any order, and a fallible command
may fail. A run is the list of its entries, newest first, each with the store before it.

Two facts reduce a property of all runs to small ones. The commands of one call are a path through
its handler (`Reach.residue`), so that what holds along every path of the handlers holds in every
run (`Reach.act_along`, `Reach.ret_along`). And the store changes only by the commands executed, so
that a property of the store that each entry keeps is kept from any state on (`Reach.stable`).
-/

namespace SdidBridge.Concurrent

open Prog

variable {Op : Type} {Res : Op → Type} {ε ρ Req σ Inp : Type}

/-- A system of calls. `exec` runs one command on the store; its input `Inp` is what the
environment decides (random values, answers of other services), and `none` is an input that the
environment cannot give. `env` is a step of the environment alone, such as the clock's. -/
structure Machine (Op : Type) (Res : Op → Type) (ε ρ Req σ Inp : Type) where
  /-- The program that serves a request. -/
  handler : Req → Prog Op Res ε ρ
  /-- One command: its answer, and the store after it. -/
  exec : Inp → σ → (o : Op) → Option (Option (Res o) × σ)
  /-- Whether a command can fail for reasons of its own, a connection lost or a server down. -/
  fallible : Op → Bool
  /-- A step of the environment. -/
  env : Inp → σ → Option σ
  /-- The store at the start. -/
  init : σ

/-- What one step of a run does. Calls are numbered as they arrive. -/
inductive Event (Op : Type) (Res : Op → Type) (Req : Type) where
  /-- A request arrives and starts call `t`. -/
  | arrive (t : ℕ) (q : Req)
  /-- Call `t` executes a command. -/
  | act (t : ℕ) (a : Act Op Res)
  /-- The environment moves. -/
  | env

/-- One step of a run with the store before it. -/
structure Entry (Op : Type) (Res : Op → Type) (Req σ : Type) where
  /-- The store before the step. -/
  before : σ
  /-- The step. -/
  event : Event Op Res Req

/-- The store and what remains of each call. -/
structure Config (Op : Type) (Res : Op → Type) (ε ρ σ : Type) where
  /-- The shared store. -/
  store : σ
  /-- The rest of each call, by its number. -/
  calls : List (Prog Op Res ε ρ)

/-- A scheduler's choice of the next step. -/
inductive Move (Req Inp : Type) where
  /-- The request `q` arrives. -/
  | arrive (q : Req)
  /-- Call `t` executes its next command. -/
  | go (t : ℕ) (i : Inp)
  /-- The next command of call `t` fails. -/
  | fail (t : ℕ)
  /-- The environment moves. -/
  | env (i : Inp)

namespace Machine

variable (M : Machine Op Res ε ρ Req σ Inp)

/-- One step of the system, or `none` when the choice is not possible. -/
def step (c : Config Op Res ε ρ σ) :
    Move Req Inp → Option (Event Op Res Req × Config Op Res ε ρ σ)
  | .arrive q => some (.arrive c.calls.length q, ⟨c.store, c.calls ++ [M.handler q]⟩)
  | .go t i =>
    match c.calls[t]? with
    | some (.call o k) =>
      match M.exec i c.store o with
      | some (r, s) => some (.act t ⟨o, r⟩, ⟨s, c.calls.set t (k r)⟩)
      | none => none
    | _ => none
  | .fail t =>
    match c.calls[t]? with
    | some (.call o k) =>
      if M.fallible o then some (.act t ⟨o, none⟩, ⟨c.store, c.calls.set t (k none)⟩) else none
    | _ => none
  | .env i =>
    match M.env i c.store with
    | some s => some (.env, ⟨s, c.calls⟩)
    | none => none

/-- The runs of the system: `Reach M tr c` when the entries `tr`, newest first, lead to `c`. -/
inductive Reach : List (Entry Op Res Req σ) → Config Op Res ε ρ σ → Prop
  | init : Reach [] ⟨M.init, []⟩
  | step {tr c m e c'} (hr : Reach tr c) (hs : M.step c m = some (e, c')) :
    Reach (⟨c.store, e⟩ :: tr) c'

/-- Play a list of choices, newest first. -/
def play : List (Move Req Inp) → Option (List (Entry Op Res Req σ) × Config Op Res ε ρ σ)
  | [] => some ([], ⟨M.init, []⟩)
  | m :: ms =>
    match play ms with
    | some (tr, c) =>
      match M.step c m with
      | some (e, c') => some (⟨c.store, e⟩ :: tr, c')
      | none => none
    | none => none

/-- What is played is a run. -/
theorem play_reach {ms : List (Move Req Inp)} {tr : List (Entry Op Res Req σ)}
    {c : Config Op Res ε ρ σ} (h : M.play ms = some (tr, c)) : M.Reach tr c := by
  induction ms generalizing tr c with
  | nil =>
    simp only [play, Option.some.injEq, Prod.mk.injEq] at h
    obtain ⟨rfl, rfl⟩ := h
    exact .init
  | cons m ms ih =>
    simp only [play] at h
    split at h
    · rename_i tr₀ c₀ h₀
      split at h
      · rename_i e c' hs
        simp only [Option.some.injEq, Prod.mk.injEq] at h
        obtain ⟨rfl, rfl⟩ := h
        exact .step (ih h₀) hs
      · simp at h
    · simp at h

/-- What is played has been played up to each of its entries. -/
theorem play_older {ms : List (Move Req Inp)} {l₁ l₂ : List (Entry Op Res Req σ)} {e : Entry Op Res Req σ}
    {c : Config Op Res ε ρ σ} (h : M.play ms = some (l₁ ++ e :: l₂, c)) :
    ∃ ms' c', ms' <:+ ms ∧ M.play ms' = some (l₂, c') ∧ c'.store = e.before := by
  induction ms generalizing l₁ c with
  | nil => simp [play] at h
  | cons m ms ih =>
    simp only [play] at h
    split at h
    swap
    · simp at h
    rename_i tr₀ c₀ h₀
    split at h
    swap
    · simp at h
    simp only [Option.some.injEq, Prod.mk.injEq] at h
    obtain ⟨htr, -⟩ := h
    cases l₁ with
    | nil =>
      obtain ⟨rfl, rfl⟩ := List.cons.inj htr
      exact ⟨ms, c₀, List.suffix_cons _ _, h₀, rfl⟩
    | cons e' l₁ =>
      obtain ⟨rfl, rfl⟩ := List.cons.inj htr
      obtain ⟨ms', c', hsuffix, hplay, hstore⟩ := ih h₀
      exact ⟨ms', c', hsuffix.trans (List.suffix_cons _ _), hplay, hstore⟩

/-- A run with a property that can be computed, from the choices that lead to it. -/
theorem exists_of_play (ms : List (Move Req Inp))
    {p : List (Entry Op Res Req σ) × Config Op Res ε ρ σ → Bool} (h : (M.play ms).any p = true) :
    ∃ tr c, M.Reach tr c ∧ p (tr, c) = true := by
  obtain ⟨⟨tr, c⟩, hplay, hp⟩ := (Option.any_eq_true _ _).mp h
  exact ⟨tr, c, M.play_reach hplay, hp⟩

/-- The stores that an entry can lead to. -/
def Leads (e : Entry Op Res Req σ) (s : σ) : Prop :=
  match e.event with
  | .arrive _ _ => s = e.before
  | .act _ a => (∃ i, M.exec i e.before a.op = some (a.res, s)) ∨
      (a.res = none ∧ M.fallible a.op = true ∧ s = e.before)
  | .env => ∃ i, M.env i e.before = some s

end Machine

/-- The request `q` started call `t`. -/
def Arrived (tr : List (Entry Op Res Req σ)) (t : ℕ) (q : Req) : Prop :=
  ∃ e ∈ tr, e.event = .arrive t q

/-- Call `t` executed the command and answer `a`. -/
def Did (tr : List (Entry Op Res Req σ)) (t : ℕ) (a : Act Op Res) : Prop :=
  ∃ e ∈ tr, e.event = .act t a

/-- The commands of call `t`, newest first. -/
def own (t : ℕ) (tr : List (Entry Op Res Req σ)) : List (Act Op Res) :=
  tr.filterMap fun e => match e.event with
    | .act t' a => if t' = t then some a else none
    | _ => none

/-- Call `t` still has a command to execute. -/
def InProgress (c : Config Op Res ε ρ σ) (t : ℕ) : Prop :=
  ∃ o k, c.calls[t]? = some (.call o k)

/-- The entries of a run that ended in the store `s`, each with the store after it. -/
def steps : List (Entry Op Res Req σ) → σ → List (Entry Op Res Req σ × σ)
  | [], _ => []
  | e :: l, s => (e, s) :: steps l e.before

theorem mem_steps {tr : List (Entry Op Res Req σ)} {e : Entry Op Res Req σ} (he : e ∈ tr) (s : σ) :
    ∃ s', (e, s') ∈ steps tr s := by
  induction tr generalizing s with
  | nil => simp at he
  | cons e₀ l ih =>
    rcases List.mem_cons.mp he with rfl | he
    · exact ⟨s, List.mem_cons_self⟩
    · obtain ⟨s', hs'⟩ := ih he e₀.before
      exact ⟨s', List.mem_cons_of_mem _ hs'⟩

theorem mem_of_steps {tr : List (Entry Op Res Req σ)} {p : Entry Op Res Req σ × σ} {s : σ}
    (hp : p ∈ steps tr s) : p.1 ∈ tr := by
  induction tr generalizing s with
  | nil => simp [steps] at hp
  | cons e₀ l ih =>
    rcases List.mem_cons.mp hp with rfl | hp
    · exact List.mem_cons_self
    · exact List.mem_cons_of_mem _ (ih hp)

theorem mem_own {t : ℕ} {tr : List (Entry Op Res Req σ)} {a : Act Op Res} :
    a ∈ own t tr ↔ Did tr t a := by
  simp only [own, List.mem_filterMap, Did]
  constructor
  · rintro ⟨e, he, h⟩
    refine ⟨e, he, ?_⟩
    split at h
    · rename_i t' b hb
      split_ifs at h with ht
      simp only [Option.some.injEq] at h
      rw [hb, ht, h]
    · simp at h
  · rintro ⟨e, he, h⟩
    exact ⟨e, he, by simp [h]⟩

/-- What came before an entry of a run is in the run. -/
theorem older_subset {e : Entry Op Res Req σ} (l₁ l₂ : List (Entry Op Res Req σ)) :
    l₂ ⊆ l₁ ++ e :: l₂ :=
  List.subset_append_of_subset_right _ (List.subset_cons_self _ _)

theorem Arrived.mono {l l' : List (Entry Op Res Req σ)} {t : ℕ} {q : Req} (h : Arrived l t q)
    (hl : l ⊆ l') : Arrived l' t q := by
  obtain ⟨e, he, hq⟩ := h
  exact ⟨e, hl he, hq⟩

theorem Did.mono {l l' : List (Entry Op Res Req σ)} {t : ℕ} {a : Act Op Res} (h : Did l t a)
    (hl : l ⊆ l') : Did l' t a := by
  obtain ⟨e, he, ha⟩ := h
  exact ⟨e, hl he, ha⟩

/-- The command of an entry of a run. -/
theorem did_here {s : σ} {t : ℕ} {a : Act Op Res} (l₁ l₂ : List (Entry Op Res Req σ)) :
    Did (l₁ ++ ⟨s, .act t a⟩ :: l₂) t a :=
  ⟨_, List.mem_append_right _ List.mem_cons_self, rfl⟩

/-- Where in a run a command was executed. -/
theorem Did.split {tr : List (Entry Op Res Req σ)} {t : ℕ} {a : Act Op Res} (h : Did tr t a) :
    ∃ l₁ s l₂, tr = l₁ ++ ⟨s, .act t a⟩ :: l₂ := by
  obtain ⟨⟨s, ev⟩, he, rfl⟩ := h
  obtain ⟨l₁, l₂, htr⟩ := List.append_of_mem he
  exact ⟨l₁, s, l₂, htr⟩

theorem own_append {t : ℕ} {l₁ l₂ : List (Entry Op Res Req σ)} :
    own t (l₁ ++ l₂) = own t l₁ ++ own t l₂ :=
  List.filterMap_append

/-- The command that an entry adds to those of a call. -/
theorem entry_eq_of_own {t : ℕ} {e : Entry Op Res Req σ} {a : Act Op Res}
    (h : (match e.event with
      | .act t' b => if t' = t then some b else none
      | _ => none) = some a) : e = ⟨e.before, .act t a⟩ := by
  obtain ⟨s, ev⟩ := e
  cases ev with
  | act t' b =>
    simp only [Option.ite_none_right_eq_some, Option.some.injEq] at h
    obtain ⟨rfl, rfl⟩ := h
    rfl
  | arrive t' q => simp at h
  | env => simp at h

/-- Where in a run a call executed one of its commands, with what it executed before and after. -/
theorem exists_of_own_eq {t : ℕ} {tr : List (Entry Op Res Req σ)} {a : Act Op Res}
    {h₁ h₂ : List (Act Op Res)} (h : own t tr = h₁ ++ a :: h₂) :
    ∃ l₁ s l₂, tr = l₁ ++ ⟨s, .act t a⟩ :: l₂ ∧ own t l₁ = h₁ ∧ own t l₂ = h₂ := by
  obtain ⟨l₁, l', rfl, hl₁, hl'⟩ := List.filterMap_eq_append_iff.mp h
  obtain ⟨k₁, e, l₂, rfl, hk₁, he, hl₂⟩ := List.filterMap_eq_cons_iff.mp hl'
  refine ⟨l₁ ++ k₁, e.before, l₂, ?_, ?_, hl₂⟩
  · rw [List.append_assoc, ← entry_eq_of_own he]
  · have hnone : own t k₁ = [] := List.filterMap_eq_nil_iff.mpr hk₁
    rw [own_append, hnone, List.append_nil]
    exact hl₁

/-- What remains of the program `p` after the commands `h`, newest first. -/
inductive Residue (p : Prog Op Res ε ρ) : List (Act Op Res) → Prog Op Res ε ρ → Prop
  | start : Residue p [] p
  | step {h o k} (r : Option (Res o)) (hp : Residue p h (.call o k)) :
    Residue p (⟨o, r⟩ :: h) (k r)

/-- What holds along every path of a program holds from what remains of it on. -/
theorem Residue.along {Φ : List (Act Op Res) → Op → Prop}
    {Ψ : List (Act Op Res) → Except ε ρ → Prop} {p q : Prog Op Res ε ρ} {h : List (Act Op Res)}
    (hq : Residue p h q) (hp : Along Φ Ψ [] p) : Along Φ Ψ h q := by
  induction hq with
  | start => exact hp
  | step r _ ih => exact ih.2 r

/-- The commands of a program determine what remains of it. -/
theorem Residue.unique {p q q' : Prog Op Res ε ρ} {h : List (Act Op Res)} (hq : Residue p h q)
    (hq' : Residue p h q') : q = q' := by
  induction hq generalizing q' with
  | start =>
    cases hq'
    rfl
  | step r _ ih =>
    cases hq' with
    | step _ hq' =>
      have hcall := ih hq'
      simp only [Prog.call.injEq, heq_eq_eq, true_and] at hcall
      rw [hcall]

section Bind

variable {α β : Type} {p : Prog Op Res ε α} {f : α → Prog Op Res ε β} {r : Prog Op Res ε β} {h : List (Act Op Res)}

/-- What remains of a sequence: what remains of its first part with the second one to follow, or what remains of
the second one after a path through the first. -/
theorem Residue.of_bind (hr : Residue (p >>= f) h r) :
    (∃ p', Residue p h p' ∧ r = p' >>= f) ∨
      ∃ a h₁ h₂, h = h₂ ++ h₁ ∧ Residue p h₁ (.ret a) ∧ Residue (f a) h₂ r := by
  induction hr with
  | start => exact .inl ⟨p, .start, rfl⟩
  | @step h o k x _ ih =>
    rcases ih with ⟨p', hp', hcall⟩ | ⟨a, h₁, h₂, rfl, hp, hf⟩
    · cases p' with
      | ret a =>
        -- The first part has returned, and this is the first command of the second.
        have hstart : Residue (f a) [] (.call o k) := by
          rw [hcall]
          exact .start
        exact .inr ⟨a, h, [⟨o, x⟩], rfl, hp', hstart.step x⟩
      | raise e => cases hcall
      | call o' k' =>
        cases hcall
        exact .inl ⟨k' x, hp'.step x, rfl⟩
    · exact .inr ⟨a, h₁, ⟨o, x⟩ :: h₂, rfl, hp, hf.step x⟩

/-- A sequence that has returned has returned from its first part before. -/
theorem Residue.of_bind_ret {b : β} (hr : Residue (p >>= f) h (.ret b)) :
    ∃ a h₁ h₂, h = h₂ ++ h₁ ∧ Residue p h₁ (.ret a) ∧ Residue (f a) h₂ (.ret b) := by
  rcases hr.of_bind with ⟨p', hp', hret⟩ | hsplit
  · cases p' with
    | ret a =>
      refine ⟨a, h, [], rfl, hp', ?_⟩
      rw [hret]
      exact .start
    | raise e => cases hret
    | call o k => cases hret
  · exact hsplit

end Bind

namespace Machine

variable {M : Machine Op Res ε ρ Req σ Inp} {tr l₁ l₂ : List (Entry Op Res Req σ)}
  {c : Config Op Res ε ρ σ} {s : σ} {t : ℕ} {q q' : Req} {a : Act Op Res}

/-- A run has run through every earlier part of itself. -/
theorem Reach.prefix (hr : M.Reach (l₁ ++ l₂) c) : ∃ c', M.Reach l₂ c' := by
  induction l₁ generalizing c with
  | nil => exact ⟨c, hr⟩
  | cons e l ih =>
    cases hr with
    | step hr _ => exact ih hr

/-- The step that an entry records. -/
theorem Reach.entry {e : Entry Op Res Req σ} (hr : M.Reach (l₁ ++ e :: l₂) c) :
    ∃ c₀ m c₁, M.Reach l₂ c₀ ∧ c₀.store = e.before ∧ M.step c₀ m = some (e.event, c₁) := by
  obtain ⟨c', hr'⟩ := hr.prefix
  cases hr' with
  | step hr' hs => exact ⟨_, _, _, hr', rfl, hs⟩

/-- A step leads to the store that its entry says it can lead to. -/
theorem step_leads {c' : Config Op Res ε ρ σ} {m : Move Req Inp} {e : Event Op Res Req}
    (hs : M.step c m = some (e, c')) : M.Leads ⟨c.store, e⟩ c'.store := by
  cases m with
  | arrive q =>
    simp only [step, Option.some.injEq, Prod.mk.injEq] at hs
    obtain ⟨rfl, rfl⟩ := hs
    rfl
  | go t i =>
    simp only [step] at hs
    split at hs
    · split at hs
      · rename_i hx
        simp only [Option.some.injEq, Prod.mk.injEq] at hs
        obtain ⟨rfl, rfl⟩ := hs
        exact .inl ⟨i, hx⟩
      · simp at hs
    · simp at hs
  | fail t =>
    simp only [step] at hs
    split at hs
    · rename_i o k ht
      split_ifs at hs with hf
      simp only [Option.some.injEq, Prod.mk.injEq] at hs
      obtain ⟨rfl, rfl⟩ := hs
      exact .inr ⟨rfl, hf, rfl⟩
    · simp at hs
  | env i =>
    simp only [step] at hs
    split at hs
    · rename_i hx
      simp only [Option.some.injEq, Prod.mk.injEq] at hs
      obtain ⟨rfl, rfl⟩ := hs
      exact ⟨i, hx⟩
    · simp at hs

/-- Every step of a run leads to the store after it. -/
theorem Reach.steps_lead (hr : M.Reach tr c) : ∀ p ∈ steps tr c.store, M.Leads p.1 p.2 := by
  induction hr with
  | init => simp [steps]
  | step hr hs ih =>
    intro p hp
    rcases List.mem_cons.mp hp with rfl | hp
    · exact step_leads hs
    · exact ih p hp

/-- A property of the store that every entry of a run keeps holds at its end once it has held
anywhere in it. -/
theorem Reach.stable (hr : M.Reach tr c) {P : σ → Prop}
    (hP : ∀ e ∈ tr, ∀ s, M.Leads e s → P e.before → P s) :
    ∀ e ∈ tr, P e.before → P c.store := by
  induction hr with
  | init => simp
  | step hr hs ih =>
    intro e he hp
    have hlast := hP _ List.mem_cons_self _ (step_leads hs)
    rcases List.mem_cons.mp he with rfl | he
    · exact hlast hp
    · exact hlast (ih (fun e he => hP e (List.mem_cons_of_mem _ he)) e he hp)

/-- A property of the store that holds at the start and that every entry keeps holds at the end. -/
theorem Reach.invariant (hr : M.Reach tr c) {P : σ → Prop} (h₀ : P M.init)
    (hP : ∀ e ∈ tr, ∀ s, M.Leads e s → P e.before → P s) : P c.store := by
  induction hr with
  | init => exact h₀
  | step hr hs ih =>
    exact hP _ List.mem_cons_self _ (step_leads hs)
      (ih fun e he => hP e (List.mem_cons_of_mem _ he))

/-- What an entry brings about and every later entry keeps holds at the end. -/
theorem Reach.since {e : Entry Op Res Req σ} (hr : M.Reach (l₁ ++ e :: l₂) c) {P : σ → Prop}
    (hnew : ∀ s, M.Leads e s → P s) (hkeep : ∀ e' ∈ l₁, ∀ s, M.Leads e' s → P e'.before → P s) :
    P c.store := by
  induction l₁ generalizing c with
  | nil =>
    cases hr with
    | step hr hs => exact hnew _ (step_leads hs)
  | cons e' l ih =>
    cases hr with
    | step hr hs =>
      refine hkeep _ List.mem_cons_self _ (step_leads hs) (ih hr fun e' he' => ?_)
      exact hkeep e' (List.mem_cons_of_mem _ he')

/-- What the calls are after a step: a step of call `t` moves that call alone. -/
theorem step_calls {c' : Config Op Res ε ρ σ} {m : Move Req Inp} {e : Event Op Res Req}
    (hs : M.step c m = some (e, c')) :
    (∃ q, e = .arrive c.calls.length q ∧ c'.calls = c.calls ++ [M.handler q]) ∨
    (∃ t o k r, e = .act t ⟨o, r⟩ ∧ c.calls[t]? = some (.call o k) ∧
      c'.calls = c.calls.set t (k r)) ∨ (e = .env ∧ c'.calls = c.calls) := by
  cases m with
  | arrive q =>
    simp only [step, Option.some.injEq, Prod.mk.injEq] at hs
    obtain ⟨rfl, rfl⟩ := hs
    exact .inl ⟨q, rfl, rfl⟩
  | go t i =>
    simp only [step] at hs
    split at hs
    · rename_i o k ht
      split at hs
      · rename_i r s _
        simp only [Option.some.injEq, Prod.mk.injEq] at hs
        obtain ⟨rfl, rfl⟩ := hs
        exact .inr (.inl ⟨t, o, k, r, rfl, ht, rfl⟩)
      · simp at hs
    · simp at hs
  | fail t =>
    simp only [step] at hs
    split at hs
    · rename_i o k ht
      split_ifs at hs
      simp only [Option.some.injEq, Prod.mk.injEq] at hs
      obtain ⟨rfl, rfl⟩ := hs
      exact .inr (.inl ⟨t, o, k, none, rfl, ht, rfl⟩)
    · simp at hs
  | env i =>
    simp only [step] at hs
    split at hs
    · simp only [Option.some.injEq, Prod.mk.injEq] at hs
      obtain ⟨rfl, rfl⟩ := hs
      exact .inr (.inr ⟨rfl, rfl⟩)
    · simp at hs

/-- A request that arrived has a call. -/
theorem Reach.arrived_lt (hr : M.Reach tr c) (ha : Arrived tr t q) : t < c.calls.length := by
  induction hr with
  | init => obtain ⟨e, he, _⟩ := ha; simp at he
  | step hr hs ih =>
    obtain ⟨e, he, hq⟩ := ha
    rcases step_calls hs with ⟨q', rfl, hc⟩ | ⟨t', o, k, r, rfl, -, hc⟩ | ⟨rfl, hc⟩ <;>
      rw [hc] <;> rcases List.mem_cons.mp he with rfl | he
    · simp only [Event.arrive.injEq] at hq
      simp [← hq.1]
    · have := ih ⟨e, he, hq⟩
      simp only [List.length_append, List.length_singleton]
      omega
    · simp at hq
    · simpa using ih ⟨e, he, hq⟩
    · simp at hq
    · exact ih ⟨e, he, hq⟩

/-- The newest entry of a run, with nothing after it. -/
theorem Reach.newest {e : Entry Op Res Req σ} (hr : M.Reach (e :: l₂) c) : M.Reach ([] ++ e :: l₂) c := hr

/-- A request that arrives gets the next number. -/
theorem step_arrive {c' : Config Op Res ε ρ σ} {m : Move Req Inp}
    (hs : M.step c m = some (.arrive t q, c')) : t = c.calls.length := by
  rcases step_calls hs with ⟨q', h, -⟩ | ⟨_, _, _, _, h, -⟩ | ⟨h, -⟩
  · simp only [Event.arrive.injEq] at h
    exact h.1
  · simp at h
  · simp at h

/-- A call arrives once, in one store. -/
theorem Reach.arrival_unique (hr : M.Reach tr c) {s s' : σ} (ha : ⟨s, .arrive t q⟩ ∈ tr)
    (ha' : ⟨s', .arrive t q'⟩ ∈ tr) : s = s' ∧ q = q' := by
  induction hr with
  | init => simp at ha
  | step hr hs ih =>
    rcases List.mem_cons.mp ha with hnew | old <;> rcases List.mem_cons.mp ha' with hnew' | old'
    · simpa using hnew.trans hnew'.symm
    · -- The number of a new call is not the number of an older one.
      obtain ⟨-, rfl⟩ := Entry.mk.inj hnew
      have := hr.arrived_lt ⟨_, old', rfl⟩
      rw [step_arrive hs] at this
      omega
    · obtain ⟨-, rfl⟩ := Entry.mk.inj hnew'
      have := hr.arrived_lt ⟨_, old, rfl⟩
      rw [step_arrive hs] at this
      omega
    · exact ih old old'

/-- A call serves one request. -/
theorem Reach.arrived_unique (hr : M.Reach tr c) (ha : Arrived tr t q) (ha' : Arrived tr t q') :
    q = q' := by
  obtain ⟨⟨s, ev⟩, he, rfl⟩ := ha
  obtain ⟨⟨s', ev'⟩, he', rfl⟩ := ha'
  exact (hr.arrival_unique he he').2

/-- A call that executed a command has a number. -/
theorem Reach.did_lt (hr : M.Reach tr c) (hd : Did tr t a) : t < c.calls.length := by
  induction hr with
  | init => obtain ⟨e, he, _⟩ := hd; simp at he
  | step hr hs ih =>
    obtain ⟨e, he, hq⟩ := hd
    rcases step_calls hs with ⟨q', rfl, hc⟩ | ⟨t', o, k, r, rfl, hk, hc⟩ | ⟨rfl, hc⟩ <;>
      rw [hc] <;> rcases List.mem_cons.mp he with rfl | he
    · simp at hq
    · have := ih ⟨e, he, hq⟩
      simp only [List.length_append, List.length_singleton]
      omega
    · simp only [Event.act.injEq] at hq
      rw [List.length_set, ← hq.1]
      exact (List.getElem?_eq_some_iff.mp hk).1
    · simpa using ih ⟨e, he, hq⟩
    · simp at hq
    · exact ih ⟨e, he, hq⟩

/-- A call executes its commands after it has arrived. -/
theorem Reach.not_did_before (hr : M.Reach (l₁ ++ l₂) c) (ha : Arrived l₁ t q) : ¬ Did l₂ t a := by
  intro hd
  obtain ⟨⟨s, ev⟩, he, rfl⟩ := ha
  obtain ⟨m₁, m₂, rfl⟩ := List.append_of_mem he
  rw [List.append_assoc, List.cons_append] at hr
  obtain ⟨c₀, m, c₁, hr₀, -, hs⟩ := hr.entry
  have hlt := hr₀.did_lt (hd.mono (List.subset_append_right _ _))
  rw [step_arrive hs] at hlt
  omega

/-- The commands of a call that arrived later. -/
theorem Reach.own_of_arrived (hr : M.Reach (l₁ ++ l₂) c) (ha : Arrived l₁ t q) :
    own t (l₁ ++ l₂) = own t l₁ := by
  have hnone : own t l₂ = [] := by
    rw [List.eq_nil_iff_forall_not_mem]
    exact fun a hmem => hr.not_did_before ha (mem_own.mp hmem)
  rw [own_append, hnone, List.append_nil]

/-- A command of another call, or a step that is no command, leaves a call's commands alone. -/
theorem own_cons_of_ne {e : Event Op Res Req} (he : ∀ a, e ≠ .act t a) :
    own t (⟨s, e⟩ :: tr) = own t tr := by
  unfold own
  rw [List.filterMap_cons_none]
  cases e with
  | arrive t' q => rfl
  | env => rfl
  | act t' a =>
    have : t' ≠ t := fun h => he a (by rw [h])
    simp [this]

theorem own_cons_self : own t (⟨s, .act t a⟩ :: tr : List (Entry Op Res Req σ)) = a :: own t tr := by
  simp [own]

/-- The commands that a call executed are a path through its handler's program. -/
theorem Reach.residue (hr : M.Reach tr c) {p : Prog Op Res ε ρ} (ht : c.calls[t]? = some p) :
    ∃ q, Arrived tr t q ∧ Residue (M.handler q) (own t tr) p := by
  induction hr generalizing p with
  | init => simp at ht
  | @step tr c m e c' hr hs ih =>
    have keep : ∀ {q : Req}, Arrived tr t q → Arrived (⟨c.store, e⟩ :: tr) t q := by
      rintro q ⟨e', he', hq⟩
      exact ⟨e', List.mem_cons_of_mem _ he', hq⟩
    rcases step_calls hs with ⟨q, rfl, hc⟩ | ⟨t', o, k, r, rfl, hk, hc⟩ | ⟨rfl, hc⟩
    · rw [own_cons_of_ne (by simp)]
      rw [hc] at ht
      rcases lt_or_ge t c.calls.length with hlt | hge
      · rw [List.getElem?_append_left hlt] at ht
        obtain ⟨q', ha, hres⟩ := ih ht
        exact ⟨q', keep ha, hres⟩
      · -- The new call: none of its commands has been executed yet.
        have htl : t = c.calls.length := by
          have := (List.getElem?_eq_some_iff.mp ht).1
          simp only [List.length_append, List.length_singleton] at this
          omega
        subst htl
        simp only [List.getElem?_concat_length, Option.some.injEq] at ht
        subst ht
        refine ⟨q, ⟨_, List.mem_cons_self, rfl⟩, ?_⟩
        have hnone : own c.calls.length tr = [] := by
          by_contra hne
          obtain ⟨a, ha⟩ := List.exists_mem_of_ne_nil _ hne
          exact hr.did_lt (mem_own.mp ha) |>.false
        rw [hnone]
        exact .start
    · by_cases htt : t' = t
      · subst htt
        rw [own_cons_self]
        obtain ⟨q, ha, hres⟩ := ih hk
        have hlt := (List.getElem?_eq_some_iff.mp hk).1
        rw [hc, List.getElem?_set_self hlt, Option.some.injEq] at ht
        subst ht
        exact ⟨q, keep ha, hres.step r⟩
      · rw [own_cons_of_ne (by simp [htt])]
        rw [hc, List.getElem?_set_ne htt] at ht
        obtain ⟨q, ha, hres⟩ := ih ht
        exact ⟨q, keep ha, hres⟩
    · rw [own_cons_of_ne (by simp)]
      rw [hc] at ht
      obtain ⟨q, ha, hres⟩ := ih ht
      exact ⟨q, keep ha, hres⟩

/-- What a call is, before steps that are not its own. -/
theorem Reach.call_before (hr : M.Reach (l₁ ++ l₂) c) (hnone : own t l₁ = []) (ha : Arrived l₂ t q) :
    ∃ c₀, M.Reach l₂ c₀ ∧ c₀.calls[t]? = c.calls[t]? := by
  induction l₁ generalizing c with
  | nil => exact ⟨c, hr, rfl⟩
  | cons e l ih =>
    cases hr with
    | @step _ c' m ev _ hr hs =>
      have hlt : t < c'.calls.length := hr.arrived_lt (ha.mono (List.subset_append_right _ _))
      rcases step_calls hs with ⟨q', rfl, hc⟩ | ⟨t', o, k, r, rfl, -, hc⟩ | ⟨rfl, hc⟩
      · rw [own_cons_of_ne (by simp)] at hnone
        rw [hc, List.getElem?_append_left hlt]
        exact ih hr hnone
      · by_cases htt : t' = t
        · subst htt
          rw [own_cons_self] at hnone
          simp at hnone
        · rw [own_cons_of_ne (by simp [htt])] at hnone
          rw [hc, List.getElem?_set_ne htt]
          exact ih hr hnone
      · rw [own_cons_of_ne (by simp)] at hnone
        rw [hc]
        exact ih hr hnone

/-- A run determines what its calls are. -/
theorem Reach.call_unique {c' : Config Op Res ε ρ σ} (hr : M.Reach tr c) (hr' : M.Reach tr c')
    {p p' : Prog Op Res ε ρ} (ht : c.calls[t]? = some p) (ht' : c'.calls[t]? = some p') : p = p' := by
  obtain ⟨q, ha, hres⟩ := hr.residue ht
  obtain ⟨q', ha', hres'⟩ := hr'.residue ht'
  obtain rfl := hr.arrived_unique ha ha'
  exact hres.unique hres'

/-- A call that has changed since has executed a command since. -/
theorem Reach.own_ne_nil {c' : Config Op Res ε ρ σ} (hr : M.Reach (l₁ ++ l₂) c) (hr' : M.Reach l₂ c')
    (ha : Arrived l₂ t q) (hne : c'.calls[t]? ≠ c.calls[t]?) : own t l₁ ≠ [] := by
  intro hnil
  obtain ⟨c₀, hr₀, hcall⟩ := hr.call_before hnil ha
  obtain ⟨p, hp⟩ : ∃ p, c'.calls[t]? = some p := ⟨_, List.getElem?_eq_getElem (hr'.arrived_lt ha)⟩
  obtain ⟨p₀, hp₀⟩ : ∃ p, c₀.calls[t]? = some p := ⟨_, List.getElem?_eq_getElem (hr₀.arrived_lt ha)⟩
  refine hne ?_
  rw [← hcall, hp, hp₀, hr'.call_unique hr₀ hp hp₀]

/-- A call that executed a command had arrived before, and the command came next on a path through
its handler. -/
theorem Reach.act_residue (hr : M.Reach (l₁ ++ ⟨s, .act t a⟩ :: l₂) c) :
    ∃ q k, Arrived l₂ t q ∧ Residue (M.handler q) (own t l₂) (.call a.op k) := by
  obtain ⟨c₀, m, c₁, hr₀, -, hs⟩ := hr.entry
  rcases step_calls hs with ⟨q, h, -⟩ | ⟨t', o, k, r, h, hk, -⟩ | ⟨h, -⟩
  · simp at h
  · simp only [Event.act.injEq] at h
    obtain ⟨rfl, rfl⟩ := h
    obtain ⟨q, ha, hres⟩ := hr₀.residue hk
    exact ⟨q, k, ha, hres⟩
  · simp at h

/-- A call that executed a command had arrived. -/
theorem Reach.arrived_of_did (hr : M.Reach tr c) (hd : Did tr t a) : ∃ q, Arrived tr t q := by
  obtain ⟨l₁, s, l₂, rfl⟩ := hd.split
  obtain ⟨q, k, ha, -⟩ := hr.act_residue
  exact ⟨q, ha.mono (older_subset _ _)⟩

/-- Of a kind of commands that comes at most once, a run has at most one. -/
theorem Reach.unique {P : ℕ → Act Op Res → Prop}
    (hP : ∀ {l₁ s t a l₂ c}, M.Reach (l₁ ++ ⟨s, .act t a⟩ :: l₂) c → P t a →
      ∀ u b, Did l₂ u b → ¬ P u b)
    (hr : M.Reach tr c) {u : ℕ} {b : Act Op Res} (hd : Did tr t a) (ha : P t a) (hd' : Did tr u b)
    (hb : P u b) : t = u ∧ a = b := by
  obtain ⟨l₁, s, l₂, rfl⟩ := hd.split
  obtain ⟨⟨s', ev⟩, he, rfl⟩ := hd'
  -- The other command is after this one, is this one, or is before it.
  rcases List.mem_append.mp he with hnew | hold
  · obtain ⟨k₁, k₂, rfl⟩ := List.append_of_mem hnew
    rw [List.append_assoc, List.cons_append] at hr
    exact absurd ha (hP hr hb t a ⟨_, List.mem_append_right _ List.mem_cons_self, rfl⟩)
  · rcases List.mem_cons.mp hold with heq | hold
    · simp only [Entry.mk.injEq, Event.act.injEq] at heq
      exact ⟨heq.2.1.symm, heq.2.2.symm⟩
    · exact absurd hb (hP hr ha u b ⟨_, hold, rfl⟩)

section Arrived

variable {Φ : List (Act Op Res) → Op → Prop} {Ψ : List (Act Op Res) → Except ε ρ → Prop}

/-- What holds at the commands along every path of a request's handler holds at the commands of its
call. -/
theorem Reach.act_of_arrived (hr : M.Reach (l₁ ++ ⟨s, .act t a⟩ :: l₂) c)
    (ha : Arrived (l₁ ++ ⟨s, .act t a⟩ :: l₂) t q) (hA : Along Φ Ψ [] (M.handler q)) :
    Φ (own t l₂) a.op := by
  obtain ⟨q', k, ha', hres⟩ := hr.act_residue
  obtain rfl := hr.arrived_unique (ha'.mono (older_subset _ _)) ha
  exact (hres.along hA).1

/-- What holds at the end of every path of a request's handler holds of its call, if it has returned. -/
theorem Reach.ret_of_arrived (hr : M.Reach tr c) (ha : Arrived tr t q) {v : ρ}
    (ht : c.calls[t]? = some (.ret v)) (hA : Along Φ Ψ [] (M.handler q)) : Ψ (own t tr) (.ok v) := by
  obtain ⟨q', ha', hres⟩ := hr.residue ht
  obtain rfl := hr.arrived_unique ha' ha
  exact hres.along hA

/-- What holds at the end of every path of a request's handler holds of its call, if it has thrown. -/
theorem Reach.raise_of_arrived (hr : M.Reach tr c) (ha : Arrived tr t q) {e : ε}
    (ht : c.calls[t]? = some (.raise e)) (hA : Along Φ Ψ [] (M.handler q)) :
    Ψ (own t tr) (.error e) := by
  obtain ⟨q', ha', hres⟩ := hr.residue ht
  obtain rfl := hr.arrived_unique ha' ha
  exact hres.along hA

end Arrived

section Along

variable {Φ : Req → List (Act Op Res) → Op → Prop}
  {Ψ : Req → List (Act Op Res) → Except ε ρ → Prop}
  (hA : ∀ q, Along (Φ q) (Ψ q) [] (M.handler q))

include hA

/-- What holds at the commands along every path of the handlers holds at every command of a run. -/
theorem Reach.act_along (hr : M.Reach (l₁ ++ ⟨s, .act t a⟩ :: l₂) c) :
    ∃ q, Arrived l₂ t q ∧ Φ q (own t l₂) a.op := by
  obtain ⟨q, k, ha, hres⟩ := hr.act_residue
  exact ⟨q, ha, (hres.along (hA q)).1⟩

/-- What holds at the end of every path of the handlers holds of every call that has returned. -/
theorem Reach.ret_along (hr : M.Reach tr c) {v : ρ} (ht : c.calls[t]? = some (.ret v)) :
    ∃ q, Arrived tr t q ∧ Ψ q (own t tr) (.ok v) := by
  obtain ⟨q, ha, hres⟩ := hr.residue ht
  exact ⟨q, ha, hres.along (hA q)⟩

/-- What holds at the end of every path of the handlers holds of every call that has thrown. -/
theorem Reach.raise_along (hr : M.Reach tr c) {e : ε} (ht : c.calls[t]? = some (.raise e)) :
    ∃ q, Arrived tr t q ∧ Ψ q (own t tr) (.error e) := by
  obtain ⟨q, ha, hres⟩ := hr.residue ht
  exact ⟨q, ha, hres.along (hA q)⟩

/-- What follows a command of a call that is over: its next command, or its end. -/
theorem Reach.followed (hr : M.Reach (l₁ ++ ⟨s, .act t a⟩ :: l₂) c) (hover : ¬ InProgress c t) :
    ∃ q, Arrived l₂ t q ∧
      ((∃ m₁ s' a' m₂, l₁ = m₁ ++ ⟨s', .act t a'⟩ :: m₂ ∧ own t m₂ = [] ∧
        Φ q (a :: own t l₂) a'.op) ∨ ∃ r, Ψ q (a :: own t l₂) r) := by
  have hself : own t (⟨s, .act t a⟩ :: l₂ : List (Entry Op Res Req σ)) = a :: own t l₂ :=
    own_cons_self
  obtain ⟨q, k, harr, -⟩ := hr.act_residue
  refine ⟨q, harr, ?_⟩
  have harr' : Arrived (l₁ ++ ⟨s, .act t a⟩ :: l₂) t q := harr.mono (older_subset _ _)
  rcases List.eq_nil_or_concat (own t l₁) with hnil | ⟨h, a', hlast⟩
  · -- The command was the call's last one, so that the call has ended right after it.
    have hown : own t (l₁ ++ ⟨s, .act t a⟩ :: l₂) = a :: own t l₂ := by
      rw [own_append, hnil, hself, List.nil_append]
    have hlt : t < c.calls.length := hr.arrived_lt harr'
    obtain ⟨p, hp⟩ : ∃ p, c.calls[t]? = some p := ⟨_, List.getElem?_eq_getElem hlt⟩
    obtain ⟨q', hq', hres⟩ := hr.residue hp
    have hqq : q' = q := hr.arrived_unique hq' harr'
    subst hqq
    have hend := hres.along (hA q')
    rw [hown] at hend
    cases p with
    | ret v => exact .inr ⟨_, hend⟩
    | raise e => exact .inr ⟨_, hend⟩
    | call o k => exact absurd ⟨o, k, hp⟩ hover
  · -- The oldest of the later commands is the next one.
    obtain ⟨m₁, s', m₂, rfl, -, hm₂⟩ := exists_of_own_eq (hlast.trans (List.concat_eq_append ..))
    have hassoc : (m₁ ++ ⟨s', .act t a'⟩ :: m₂) ++ ⟨s, .act t a⟩ :: l₂ =
        m₁ ++ ⟨s', .act t a'⟩ :: (m₂ ++ ⟨s, .act t a⟩ :: l₂) := by
      rw [List.append_assoc, List.cons_append]
    rw [hassoc] at hr harr'
    obtain ⟨q', hq', hΦ⟩ := hr.act_along hA
    have hqq : q' = q := hr.arrived_unique (hq'.mono (older_subset _ _)) harr'
    subst hqq
    rw [own_append, hm₂, hself, List.nil_append] at hΦ
    exact .inl ⟨m₁, s', a', m₂, rfl, hm₂, hΦ⟩

end Along

end Machine

end SdidBridge.Concurrent
