import SdidBridge.Concurrent.System

/-!
# Programs that run alone

What a program does to a store while nothing else runs and no command fails for reasons of its own.
`Alone` relates the store before to the commands executed, the store after, and the result; it is
defined by the commands, and one rule for each way to build a program takes it apart.
-/

namespace SdidBridge.Concurrent

open Prog

variable {Op : Type} {Res : Op → Type} {ε α β σ Inp : Type}

/-- From the store `s`, the program executes the commands `h`, newest first, and ends with the
result `x` in the store `s'`. -/
inductive Alone (exec : Inp → σ → (o : Op) → Option (Option (Res o) × σ)) :
    σ → Prog Op Res ε α → List (Act Op Res) → σ → Except ε α → Prop
  | ret (s : σ) (a : α) : Alone exec s (.ret a) [] s (.ok a)
  | raise (s : σ) (e : ε) : Alone exec s (.raise e) [] s (.error e)
  | call {i s s₁ s' o r k h x} (hx : exec i s o = some (r, s₁)) (hk : Alone exec s₁ (k r) h s' x) :
    Alone exec s (.call o k) (h ++ [⟨o, r⟩]) s' x

section Rules

variable {exec : Inp → σ → (o : Op) → Option (Option (Res o) × σ)} {s s' : σ}
  {h : List (Act Op Res)}

@[simp] theorem alone_ret {a : α} {x : Except ε α} :
    Alone exec s (.ret a) h s' x ↔ h = [] ∧ s' = s ∧ x = .ok a := by
  constructor
  · intro hp
    cases hp
    exact ⟨rfl, rfl, rfl⟩
  · rintro ⟨rfl, rfl, rfl⟩
    exact .ret _ _

@[simp] theorem alone_pure {a : α} {x : Except ε α} :
    Alone exec s (pure a : Prog Op Res ε α) h s' x ↔ h = [] ∧ s' = s ∧ x = .ok a :=
  alone_ret

@[simp] theorem alone_raise {e : ε} {x : Except ε α} :
    Alone exec s (.raise e) h s' x ↔ h = [] ∧ s' = s ∧ x = .error e := by
  constructor
  · intro hp
    cases hp
    exact ⟨rfl, rfl, rfl⟩
  · rintro ⟨rfl, rfl, rfl⟩
    exact .raise _ _

@[simp] theorem alone_throwing {e : ε} {x : Except ε α} :
    Alone exec s (throwing e) h s' x ↔ h = [] ∧ s' = s ∧ x = .error e :=
  alone_raise

theorem alone_call {o : Op} {k : Option (Res o) → Prog Op Res ε α} {x : Except ε α} :
    Alone exec s (.call o k) h s' x ↔ ∃ i r s₁ h₁, exec i s o = some (r, s₁) ∧
      Alone exec s₁ (k r) h₁ s' x ∧ h = h₁ ++ [⟨o, r⟩] := by
  constructor
  · intro hp
    cases hp with
    | call hx hk => exact ⟨_, _, _, _, hx, hk, rfl⟩
  · rintro ⟨i, r, s₁, h₁, hx, hk, rfl⟩
    exact .call hx hk

/-- A command that throws `e` when it has no answer. -/
@[simp] theorem alone_perform {e : ε} {o : Op} {x : Except ε (Res o)} :
    Alone exec s (perform e o) h s' x ↔ ∃ i r, exec i s o = some (r, s') ∧ h = [⟨o, r⟩] ∧
      x = match r with
        | some v => .ok v
        | none => .error e := by
  unfold perform
  rw [alone_call]
  constructor
  · rintro ⟨i, r, s₁, h₁, hx, hk, rfl⟩
    refine ⟨i, r, ?_⟩
    cases r <;> obtain ⟨rfl, rfl, rfl⟩ := (by simpa using hk) <;> exact ⟨hx, rfl, rfl⟩
  · rintro ⟨i, r, hx, rfl, rfl⟩
    refine ⟨i, r, s', [], hx, ?_, rfl⟩
    cases r <;> simp

@[simp] theorem alone_throwIf {c : Prop} [Decidable c] {e : ε} {x : Except ε Unit} :
    Alone exec s (throwIf c e : Prog Op Res ε Unit) h s' x ↔
      h = [] ∧ s' = s ∧ x = if c then .error e else .ok () := by
  by_cases hc : c <;> simp [throwIf, hc]

@[simp] theorem alone_orThrow {y : Option α} {e : ε} {x : Except ε α} :
    Alone exec s (orThrow y e : Prog Op Res ε α) h s' x ↔
      h = [] ∧ s' = s ∧ x = match y with
        | some a => .ok a
        | none => .error e := by
  cases y <;> simp [orThrow]

/-- The rule for sequencing: the second part starts where the first one returned. -/
theorem alone_bind {p : Prog Op Res ε α} {f : α → Prog Op Res ε β} {x : Except ε β} :
    Alone exec s (p >>= f) h s' x ↔
      (∃ e, x = .error e ∧ Alone exec s p h s' (.error e)) ∨
      ∃ a s₁ h₁ h₂, h = h₂ ++ h₁ ∧ Alone exec s p h₁ s₁ (.ok a) ∧ Alone exec s₁ (f a) h₂ s' x := by
  change Alone exec s (p.bind f) h s' x ↔ _
  induction p generalizing s h with
  | ret a => simp [Prog.bind]
  | raise e =>
    simp [Prog.bind]
    tauto
  | call o k ih =>
    simp only [Prog.bind, alone_call, ih]
    constructor
    · rintro ⟨i, r, s₁, h₁, hx, ⟨e, rfl, hk⟩ | ⟨a, s₂, h₂, h₃, rfl, hk, hf⟩, rfl⟩
      · exact .inl ⟨e, rfl, i, r, s₁, h₁, hx, hk, rfl⟩
      · exact .inr ⟨a, s₂, h₂ ++ [⟨o, r⟩], h₃, by simp, ⟨i, r, s₁, h₂, hx, hk, rfl⟩, hf⟩
    · rintro (⟨e, rfl, i, r, s₁, h₁, hx, hk, rfl⟩ | ⟨a, s₂, _, h₃, rfl, ⟨i, r, s₁, h₁, hx, hk, rfl⟩, hf⟩)
      · exact ⟨i, r, s₁, h₁, hx, .inl ⟨e, rfl, hk⟩, rfl⟩
      · exact ⟨i, r, s₁, h₃ ++ h₁, hx, .inr ⟨a, s₂, h₁, h₃, rfl, hk, hf⟩, by simp⟩

/-- The rule for `catch`: the handler starts where the body threw. -/
theorem alone_recover {p : Prog Op Res ε α} {f : ε → Prog Op Res ε α} {x : Except ε α} :
    Alone exec s (p.recover f) h s' x ↔
      (∃ a, x = .ok a ∧ Alone exec s p h s' (.ok a)) ∨
      ∃ e s₁ h₁ h₂, h = h₂ ++ h₁ ∧ Alone exec s p h₁ s₁ (.error e) ∧ Alone exec s₁ (f e) h₂ s' x := by
  induction p generalizing s h with
  | ret a =>
    simp [recover]
    tauto
  | raise e => simp [recover]
  | call o k ih =>
    simp only [recover, alone_call, ih]
    constructor
    · rintro ⟨i, r, s₁, h₁, hx, ⟨a, rfl, hk⟩ | ⟨e, s₂, h₂, h₃, rfl, hk, hf⟩, rfl⟩
      · exact .inl ⟨a, rfl, i, r, s₁, h₁, hx, hk, rfl⟩
      · exact .inr ⟨e, s₂, h₂ ++ [⟨o, r⟩], h₃, by simp, ⟨i, r, s₁, h₂, hx, hk, rfl⟩, hf⟩
    · rintro (⟨a, rfl, i, r, s₁, h₁, hx, hk, rfl⟩ | ⟨e, s₂, _, h₃, rfl, ⟨i, r, s₁, h₁, hx, hk, rfl⟩, hf⟩)
      · exact ⟨i, r, s₁, h₁, hx, .inl ⟨a, rfl, hk⟩, rfl⟩
      · exact ⟨i, r, s₁, h₃ ++ h₁, hx, .inr ⟨e, s₂, h₁, h₃, rfl, hk, hf⟩, by simp⟩

/-- A program that goes on where its first part returned. -/
theorem Alone.bind {p : Prog Op Res ε α} {f : α → Prog Op Res ε β} {x : Except ε β} {a : α} {s₁ : σ}
    {h₁ h₂ : List (Act Op Res)} (hp : Alone exec s p h₁ s₁ (.ok a)) (hf : Alone exec s₁ (f a) h₂ s' x) :
    Alone exec s (p >>= f) (h₂ ++ h₁) s' x :=
  alone_bind.mpr (.inr ⟨a, s₁, h₁, h₂, rfl, hp, hf⟩)

/-- A command that is answered. -/
theorem Alone.perform {e : ε} {i : Inp} {o : Op} {v : Res o} (hx : exec i s o = some (some v, s')) :
    Alone exec s (perform e o) [⟨o, some v⟩] s' (.ok v) :=
  alone_perform.mpr ⟨i, some v, hx, rfl, rfl⟩

end Rules

/-! ## Answered commands -/

/-- Every command was answered. -/
def Answered (h : List (Act Op Res)) : Prop := ∀ a ∈ h, a.res ≠ none

@[simp] theorem answered_nil : Answered ([] : List (Act Op Res)) := by simp [Answered]

@[simp] theorem answered_append {h₁ h₂ : List (Act Op Res)} :
    Answered (h₁ ++ h₂) ↔ Answered h₁ ∧ Answered h₂ := by
  simp [Answered, or_imp, forall_and]

/-- What a command does that is answered. -/
theorem Alone.of_perform {exec : Inp → σ → (o : Op) → Option (Option (Res o) × σ)} {s s' : σ}
    {h : List (Act Op Res)} {e : ε} {o : Op} {x : Except ε (Res o)}
    (hp : Alone exec s (Prog.perform e o) h s' x) (hans : Answered h) :
    ∃ i v, exec i s o = some (some v, s') ∧ h = [⟨o, some v⟩] ∧ x = .ok v := by
  obtain ⟨i, r, hx, rfl, rfl⟩ := alone_perform.mp hp
  cases r with
  | none => exact absurd rfl (hans _ List.mem_cons_self)
  | some v => exact ⟨i, v, hx, rfl, rfl⟩

section Sequels

variable {exec : Inp → σ → (o : Op) → Option (Option (Res o) × σ)} {s s' : σ}
  {h : List (Act Op Res)} {x : Except ε β}

/-- What follows a command that is answered. -/
theorem Alone.of_perform_bind {e : ε} {o : Op} {f : Res o → Prog Op Res ε β}
    (hp : Alone exec s (Prog.perform e o >>= f) h s' x) (hans : Answered h) :
    ∃ i v s₁ h₁, exec i s o = some (some v, s₁) ∧ h = h₁ ++ [⟨o, some v⟩] ∧ Answered h₁ ∧
      Alone exec s₁ (f v) h₁ s' x := by
  rcases alone_bind.mp hp with ⟨e', -, hthrew⟩ | ⟨a, s₁, h₁, h₂, rfl, hfirst, hrest⟩
  · obtain ⟨i, v, -, -, hx⟩ := hthrew.of_perform hans
    simp at hx
  · obtain ⟨hans₂, hans₁⟩ := answered_append.mp hans
    obtain ⟨i, v, hx, rfl, hok⟩ := hfirst.of_perform hans₁
    obtain rfl := Except.ok.inj hok
    exact ⟨i, a, s₁, h₂, hx, rfl, hans₂, hrest⟩

/-- What follows a check. -/
theorem alone_throwIf_bind {c : Prop} [Decidable c] {e : ε} {f : Unit → Prog Op Res ε β} :
    Alone exec s (throwIf c e >>= f) h s' x ↔
      (c ∧ h = [] ∧ s' = s ∧ x = .error e) ∨ (¬ c ∧ Alone exec s (f ()) h s' x) := by
  rw [alone_bind]
  by_cases hc : c
  · simp [hc]
    tauto
  · simp only [alone_throwIf, if_neg hc]
    constructor
    · rintro (⟨e', -, -, -, he'⟩ | ⟨a, s₁, h₁, h₂, rfl, ⟨rfl, rfl, -⟩, hf⟩)
      · simp at he'
      · exact .inr ⟨hc, by simpa using hf⟩
    · rintro (⟨hc', -⟩ | ⟨-, hf⟩)
      · exact absurd hc' hc
      · exact .inr ⟨(), s, [], h, (List.append_nil h).symm, by simp, hf⟩

/-- What follows a value that has to be there. -/
theorem alone_orThrow_bind {y : Option α} {e : ε} {f : α → Prog Op Res ε β} :
    Alone exec s (orThrow y e >>= f) h s' x ↔
      (y = none ∧ h = [] ∧ s' = s ∧ x = .error e) ∨ ∃ a, y = some a ∧ Alone exec s (f a) h s' x := by
  rw [alone_bind]
  cases y with
  | none =>
    simp
    tauto
  | some a => simp

end Sequels

/-! ## Running a program -/

/-- Run a program on a list of choices: the commands, newest first, the store after them, and the
result. -/
def runAlone (exec : Inp → σ → (o : Op) → Option (Option (Res o) × σ)) :
    Prog Op Res ε α → List Inp → σ → Option (List (Act Op Res) × σ × Except ε α)
  | .ret a, _, s => some ([], s, .ok a)
  | .raise e, _, s => some ([], s, .error e)
  | .call _ _, [], _ => none
  | .call o k, i :: is, s =>
    match exec i s o with
    | some (r, s₁) => (runAlone exec (k r) is s₁).map fun (h, s', x) => (h ++ [⟨o, r⟩], s', x)
    | none => none

/-- What is run is what the program does alone. -/
theorem alone_of_runAlone {exec : Inp → σ → (o : Op) → Option (Option (Res o) × σ)}
    {p : Prog Op Res ε α} {is : List Inp} {s s' : σ} {h : List (Act Op Res)} {x : Except ε α}
    (hrun : runAlone exec p is s = some (h, s', x)) : Alone exec s p h s' x := by
  induction p generalizing is s h with
  | ret a =>
    simp only [runAlone, Option.some.injEq, Prod.mk.injEq] at hrun
    obtain ⟨rfl, rfl, rfl⟩ := hrun
    exact .ret _ _
  | raise e =>
    simp only [runAlone, Option.some.injEq, Prod.mk.injEq] at hrun
    obtain ⟨rfl, rfl, rfl⟩ := hrun
    exact .raise _ _
  | call o k ih =>
    cases is with
    | nil => simp [runAlone] at hrun
    | cons i is =>
      unfold runAlone at hrun
      split at hrun
      · rename_i r s₁ hx
        obtain ⟨⟨h₁, s₂, y⟩, hrest, heq⟩ := Option.map_eq_some_iff.mp hrun
        obtain ⟨rfl, rfl, rfl⟩ := Prod.mk.inj heq |>.imp_right Prod.mk.inj
        exact .call hx (ih r hrest)
      · simp at hrun

end SdidBridge.Concurrent
