import Mathlib.Data.List.Infix
import Mathlib.Tactic.Common

/-!
# Programs over atomic commands

A handler is a program that issues commands one after another, each of them awaited: a command is
executed by a shared store, answers, and the rest of the program depends on the answer. A command
that fails answers nothing, and a program may throw and catch.

`Along` is the calculus of such programs. It says what holds of every path through a program: at
each command, a property of the commands that the program executed before it, and at the end a
property of the whole path and of the result. It knows nothing of the store, so that it holds
however the program is interleaved with others; `System.lean` carries it to the runs of a system.
-/

namespace SdidBridge.Concurrent

/-- One executed command with its answer, which is `none` when the command failed. -/
structure Act (Op : Type) (Res : Op → Type) where
  /-- The command. -/
  op : Op
  /-- Its answer. -/
  res : Option (Res op)

/-- A program that issues the commands `Op`, throws `ε`, and returns `α`. -/
inductive Prog (Op : Type) (Res : Op → Type) (ε α : Type) : Type where
  /-- The program has returned. -/
  | ret (a : α)
  /-- The program has thrown. -/
  | raise (e : ε)
  /-- The program issues `o` and goes on with its answer. -/
  | call (o : Op) (k : Option (Res o) → Prog Op Res ε α)

namespace Prog

variable {Op : Type} {Res : Op → Type} {ε α β : Type}

/-- Run `p`, and go on with `f` when it returns. -/
def bind : Prog Op Res ε α → (α → Prog Op Res ε β) → Prog Op Res ε β
  | .ret a, f => f a
  | .raise e, _ => .raise e
  | .call o k, f => .call o fun r => (k r).bind f

/-- Run `p`, and go on with `f` when it throws. -/
def recover : Prog Op Res ε α → (ε → Prog Op Res ε α) → Prog Op Res ε α
  | .ret a, _ => .ret a
  | .raise e, f => f e
  | .call o k, f => .call o fun r => (k r).recover f

instance : Monad (Prog Op Res ε) where
  pure := .ret
  bind := bind

/-- Throw `e`. -/
def throwing (e : ε) : Prog Op Res ε α := .raise e

/-- Issue a command; `e` is thrown when it fails. -/
def perform (e : ε) (o : Op) : Prog Op Res ε (Res o) :=
  .call o fun
    | some r => .ret r
    | none => .raise e

/-- The statement `if (c) throw e`. -/
def throwIf (c : Prop) [Decidable c] (e : ε) : Prog Op Res ε Unit :=
  if c then .raise e else .ret ()

/-- A check that fails is the end. -/
theorem throwIf_bind {c : Prop} [Decidable c] (hc : c) (e : ε) (f : Unit → Prog Op Res ε α) :
    (throwIf c e >>= f) = .raise e := by
  rw [throwIf, if_pos hc]
  rfl

/-- The statement `if (c) await p`. -/
def onlyIf (c : Prop) [Decidable c] (p : Prog Op Res ε Unit) : Prog Op Res ε Unit :=
  if c then p else .ret ()

/-- The value of an optional row, or the exception that the caller throws without one. -/
def orThrow (x : Option α) (e : ε) : Prog Op Res ε α :=
  match x with
  | some a => .ret a
  | none => .raise e

/-- `p` once for each element of a list, in order, collecting what it returns. -/
def forEach (p : β → Prog Op Res ε α) : List β → Prog Op Res ε (List α)
  | [] => .ret []
  | b :: bs => (p b).bind fun a => (forEach p bs).bind fun as => .ret (a :: as)

/-- What holds along every path through a program that starts after the commands `h`, newest first:
`Φ h o` at each command `o` that the program issues after `h`, and `Ψ h r` at its end with the
result `r`. -/
def Along (Φ : List (Act Op Res) → Op → Prop)
    (Ψ : List (Act Op Res) → Except ε α → Prop) : List (Act Op Res) → Prog Op Res ε α → Prop
  | h, .ret a => Ψ h (.ok a)
  | h, .raise e => Ψ h (.error e)
  | h, .call o k => Φ h o ∧ ∀ r, Along Φ Ψ (⟨o, r⟩ :: h) (k r)

section Along

variable {Φ Φ' : List (Act Op Res) → Op → Prop} {Ψ Ψ' : List (Act Op Res) → Except ε α → Prop}
  {h : List (Act Op Res)}

@[simp] theorem along_ret (a : α) : Along Φ Ψ h (.ret a) ↔ Ψ h (.ok a) := Iff.rfl

@[simp] theorem along_pure (a : α) :
    Along Φ Ψ h (pure a : Prog Op Res ε α) ↔ Ψ h (.ok a) := Iff.rfl

@[simp] theorem along_raise (e : ε) : Along Φ Ψ h (.raise e) ↔ Ψ h (.error e) := Iff.rfl

@[simp] theorem along_throwing (e : ε) : Along Φ Ψ h (throwing e) ↔ Ψ h (.error e) := Iff.rfl

@[simp] theorem along_call (o : Op) (k : Option (Res o) → Prog Op Res ε α) :
    Along Φ Ψ h (.call o k) ↔ Φ h o ∧ ∀ r, Along Φ Ψ (⟨o, r⟩ :: h) (k r) := Iff.rfl

/-- The rule for sequencing: the rest of the program starts where its first part returned. -/
theorem along_bind' {Ψ : List (Act Op Res) → Except ε β → Prop} (p : Prog Op Res ε α)
    (f : α → Prog Op Res ε β) (h : List (Act Op Res)) :
    Along Φ Ψ h (p.bind f) ↔ Along Φ (fun h' r => match r with
      | .ok a => Along Φ Ψ h' (f a)
      | .error e => Ψ h' (.error e)) h p := by
  induction p generalizing h with
  | ret a => rfl
  | raise e => rfl
  | call o k ih => simp only [bind, along_call, ih]

@[simp] theorem along_bind {Ψ : List (Act Op Res) → Except ε β → Prop} (p : Prog Op Res ε α)
    (f : α → Prog Op Res ε β) :
    Along Φ Ψ h (p >>= f) ↔ Along Φ (fun h' r => match r with
      | .ok a => Along Φ Ψ h' (f a)
      | .error e => Ψ h' (.error e)) h p :=
  along_bind' p f h

/-- The rule for `catch`: the handler starts where the body threw. -/
@[simp] theorem along_recover (p : Prog Op Res ε α) (f : ε → Prog Op Res ε α)
    (h : List (Act Op Res)) :
    Along Φ Ψ h (p.recover f) ↔ Along Φ (fun h' r => match r with
      | .ok a => Ψ h' (.ok a)
      | .error e => Along Φ Ψ h' (f e)) h p := by
  induction p generalizing h with
  | ret a => rfl
  | raise e => rfl
  | call o k ih => simp only [recover, along_call, ih]

/-- A command that throws `e` on failure. -/
@[simp] theorem along_perform (e : ε) (o : Op) {Ψ : List (Act Op Res) → Except ε (Res o) → Prop} :
    Along Φ Ψ h (perform e o) ↔
      Φ h o ∧ Ψ (⟨o, none⟩ :: h) (.error e) ∧ ∀ r, Ψ (⟨o, some r⟩ :: h) (.ok r) := by
  simp [perform, Option.forall]

/-- A command that throws `e` on failure, and what follows it. -/
theorem along_perform_bind {Ψ : List (Act Op Res) → Except ε β → Prop} {e : ε} {o : Op}
    {f : Res o → Prog Op Res ε β} :
    Along Φ Ψ h (perform e o >>= f) ↔
      Φ h o ∧ Ψ (⟨o, none⟩ :: h) (.error e) ∧ ∀ r, Along Φ Ψ (⟨o, some r⟩ :: h) (f r) := by
  rw [along_bind, along_perform]

@[simp] theorem along_throwIf (c : Prop) [Decidable c] (e : ε)
    {Ψ : List (Act Op Res) → Except ε Unit → Prop} :
    Along Φ Ψ h (throwIf c e) ↔ (c → Ψ h (.error e)) ∧ (¬ c → Ψ h (.ok ())) := by
  by_cases hc : c <;> simp [throwIf, hc]

@[simp] theorem along_onlyIf (c : Prop) [Decidable c] (p : Prog Op Res ε Unit)
    {Ψ : List (Act Op Res) → Except ε Unit → Prop} :
    Along Φ Ψ h (onlyIf c p) ↔ (c → Along Φ Ψ h p) ∧ (¬ c → Ψ h (.ok ())) := by
  by_cases hc : c <;> simp [onlyIf, hc]

@[simp] theorem along_orThrow (x : Option α) (e : ε) :
    Along Φ Ψ h (orThrow x e) ↔ (x = none → Ψ h (.error e)) ∧ ∀ a, x = some a → Ψ h (.ok a) := by
  cases x <;> simp [orThrow]

@[simp] theorem along_ite (c : Prop) [Decidable c] (p q : Prog Op Res ε α) :
    Along Φ Ψ h (if c then p else q) ↔ (c → Along Φ Ψ h p) ∧ (¬ c → Along Φ Ψ h q) := by
  by_cases hc : c <;> simp [hc]

/-- Weaker properties hold along the same paths. -/
theorem Along.mono {p : Prog Op Res ε α} {h : List (Act Op Res)} (hp : Along Φ Ψ h p)
    (hΦ : ∀ h o, Φ h o → Φ' h o) (hΨ : ∀ h r, Ψ h r → Ψ' h r) : Along Φ' Ψ' h p := by
  induction p generalizing h with
  | ret a => exact hΨ _ _ hp
  | raise e => exact hΨ _ _ hp
  | call o k ih => exact ⟨hΦ _ _ hp.1, fun r => ih r (hp.2 r)⟩

/-- Two properties that hold along every path hold together. -/
theorem Along.and {p : Prog Op Res ε α} {h : List (Act Op Res)} (hp : Along Φ Ψ h p)
    (hp' : Along Φ' Ψ' h p) :
    Along (fun h o => Φ h o ∧ Φ' h o) (fun h r => Ψ h r ∧ Ψ' h r) h p := by
  induction p generalizing h with
  | ret a => exact ⟨hp, hp'⟩
  | raise e => exact ⟨hp, hp'⟩
  | call o k ih => exact ⟨⟨hp.1, hp'.1⟩, fun r => ih r (hp.2 r) (hp'.2 r)⟩

/-- The rule for sequencing with an assertion `Q` between the two parts. -/
theorem Along.bind {Ψ : List (Act Op Res) → Except ε β → Prop} {p : Prog Op Res ε α}
    {f : α → Prog Op Res ε β} {Q : α → List (Act Op Res) → Prop}
    (hp : Along Φ (fun h' r => match r with
      | .ok a => Q a h'
      | .error e => Ψ h' (.error e)) h p)
    (hf : ∀ a h', Q a h' → Along Φ Ψ h' (f a)) : Along Φ Ψ h (p >>= f) := by
  rw [along_bind]
  refine hp.mono (fun _ _ h => h) fun h' r hr => ?_
  cases r with
  | ok a => exact hf a h' hr
  | error e => exact hr

/-- The rule for loops: `I` holds between the rounds. -/
theorem along_forEach {p : β → Prog Op Res ε α} {bs : List β} {I : List (Act Op Res) → Prop}
    {E : List (Act Op Res) → ε → Prop}
    (hp : ∀ b ∈ bs, ∀ h, I h → Along Φ (fun h' r => match r with
      | .ok _ => I h'
      | .error e => E h' e) h (p b)) (h₀ : I h) :
    Along Φ (fun h' r => match r with
      | .ok _ => I h'
      | .error e => E h' e) h (forEach p bs) := by
  induction bs generalizing h with
  | nil => exact h₀
  | cons b bs ih =>
    rw [forEach, along_bind']
    refine (hp b List.mem_cons_self h h₀).mono (fun _ _ h => h) fun h' r hr => ?_
    cases r with
    | error e => exact hr
    | ok a =>
      simp only [along_bind', along_ret]
      refine (ih (fun b hb => hp b (List.mem_cons_of_mem _ hb)) hr).mono (fun _ _ h => h) ?_
      intro h'' r hr
      cases r <;> exact hr

end Along

/-- On every path through a program that starts after any commands, `Φ` holds at each command. -/
def Always (Φ : List (Act Op Res) → Op → Prop) (p : Prog Op Res ε α) : Prop :=
  ∀ h, Along Φ (fun _ _ => True) h p

section Always

variable {Φ Φ' : List (Act Op Res) → Op → Prop}

theorem Always.mono {p : Prog Op Res ε α} (hp : Always Φ p) (hΦ : ∀ h o, Φ h o → Φ' h o) : Always Φ' p :=
  fun h => (hp h).mono hΦ fun _ _ h => h

theorem always_perform {o : Op} (e : ε) (ho : ∀ h, Φ h o) : Always Φ (perform e o : Prog Op Res ε (Res o)) :=
  fun h => by simp [ho]

theorem Always.ite {c : Prop} [Decidable c] {p p' : Prog Op Res ε α} (hp : Always Φ p)
    (hp' : Always Φ p') : Always Φ (if c then p else p') := by
  split_ifs
  · exact hp
  · exact hp'

/-- After a part of a program, the rest holds wherever the part has returned. -/
theorem Along.then {p : Prog Op Res ε α} {f : α → Prog Op Res ε β} {h : List (Act Op Res)}
    {Q : α → List (Act Op Res) → Prop} (hp : Along Φ (fun h' r => ∀ a, r = .ok a → Q a h') h p)
    (hf : ∀ a h', Q a h' → Along Φ (fun _ _ => True) h' (f a)) : Along Φ (fun _ _ => True) h (p >>= f) := by
  refine Along.bind (Q := Q) (hp.mono (fun _ _ h => h) fun h' r hr => ?_) hf
  cases r with
  | ok a => exact hr a rfl
  | error e => trivial

theorem Always.bind {p : Prog Op Res ε α} {f : α → Prog Op Res ε β} (hp : Always Φ p)
    (hf : ∀ a, Always Φ (f a)) : Always Φ (p >>= f) := fun h =>
  Along.then (Q := fun _ _ => True) ((hp h).mono (fun _ _ h => h) fun _ _ _ _ _ => trivial) fun a h' _ => hf a h'

theorem Always.recover {p : Prog Op Res ε α} {f : ε → Prog Op Res ε α} (hp : Always Φ p)
    (hf : ∀ e, Always Φ (f e)) : Always Φ (p.recover f) := by
  intro h
  rw [along_recover]
  refine (hp h).mono (fun _ _ h => h) fun h' r _ => ?_
  cases r with
  | ok a => trivial
  | error e => exact hf e h'

end Always

/-- Every command of a program meets `C`. -/
def Only (C : Op → Prop) (p : Prog Op Res ε α) : Prop :=
  ∀ h, Along (fun _ o => C o) (fun _ _ => True) h p

section Only

variable {C : Op → Prop}

theorem Only.mono {C' : Op → Prop} {p : Prog Op Res ε α} (hp : Only C p) (hC : ∀ o, C o → C' o) :
    Only C' p :=
  Always.mono hp fun _ => hC

theorem only_pure (a : α) : Only C (pure a : Prog Op Res ε α) := fun _ => trivial

theorem only_throwing (e : ε) : Only C (throwing e : Prog Op Res ε α) := fun _ => trivial

theorem only_throwIf (c : Prop) [Decidable c] (e : ε) : Only C (throwIf c e : Prog Op Res ε Unit) :=
  fun h => by simp

theorem only_orThrow (x : Option α) (e : ε) : Only C (orThrow x e : Prog Op Res ε α) :=
  fun h => by simp

theorem only_perform {o : Op} (e : ε) (ho : C o) : Only C (perform e o : Prog Op Res ε (Res o)) :=
  always_perform e fun _ => ho

theorem Only.ite {c : Prop} [Decidable c] {p p' : Prog Op Res ε α} (hp : Only C p)
    (hp' : Only C p') : Only C (if c then p else p') :=
  Always.ite hp hp'

theorem Only.onlyIf {c : Prop} [Decidable c] {p : Prog Op Res ε Unit} (hp : Only C p) :
    Only C (onlyIf c p) :=
  .ite hp (only_pure ())

theorem Only.bind {p : Prog Op Res ε α} {f : α → Prog Op Res ε β} (hp : Only C p)
    (hf : ∀ a, Only C (f a)) : Only C (p >>= f) :=
  Always.bind hp hf

theorem Only.recover {p : Prog Op Res ε α} {f : ε → Prog Op Res ε α} (hp : Only C p)
    (hf : ∀ e, Only C (f e)) : Only C (p.recover f) :=
  Always.recover hp hf

/-- A program holds everywhere what each of its commands makes hold. -/
theorem Only.always {Φ : List (Act Op Res) → Op → Prop} {p : Prog Op Res ε α} (hp : Only C p)
    (hC : ∀ h o, C o → Φ h o) : Always Φ p :=
  Always.mono hp hC

theorem Only.forEach {p : β → Prog Op Res ε α} (hp : ∀ b, Only C (p b)) (bs : List β) :
    Only C (forEach p bs) := by
  intro h
  refine (along_forEach (I := fun _ => True) (E := fun _ _ => True) ?_ trivial).mono
    (fun _ _ h => h) fun _ _ _ => trivial
  refine fun b _ h _ => (hp b h).mono (fun _ _ h => h) fun h' r _ => ?_
  cases r <;> trivial

/-- A program whose commands all meet `C` keeps what such commands keep. -/
theorem Only.along {p : Prog Op Res ε α} {Φ : List (Act Op Res) → Op → Prop}
    {J : List (Act Op Res) → Prop} {h : List (Act Op Res)} (hp : Only C p)
    (hJ : ∀ h o, J h → C o → Φ h o ∧ ∀ r, J (⟨o, r⟩ :: h)) (h₀ : J h) :
    Along Φ (fun h' _ => J h') h p := by
  replace hp := hp h
  induction p generalizing h with
  | ret a => exact h₀
  | raise e => exact h₀
  | call o k ih =>
    obtain ⟨hΦ, hk⟩ := hJ h o h₀ hp.1
    exact ⟨hΦ, fun r => ih r (hk r) (hp.2 r)⟩

end Only

end Prog

end SdidBridge.Concurrent
