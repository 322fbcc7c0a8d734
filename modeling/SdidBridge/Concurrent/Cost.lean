import Mathlib.Algebra.GroupWithZero.Nat
import Mathlib.Algebra.BigOperators.Group.List.Basic
import SdidBridge.Concurrent.System

/-!
# How often a program issues its commands

`AtMost w n p` says that the commands on any path through the program `p` weigh at most `n` together, where
`w` weighs a command; with the weights one and zero it bounds how often a program issues the commands of a
kind. One rule for each way to build a program adds the bounds up, and `Reach.spent_le` carries a bound to
every call in every run, at every moment of it.
-/

namespace SdidBridge.Concurrent

open Prog

variable {Op : Type} {Res : Op → Type} {ε α β : Type} {w : Op → ℕ} {n m : ℕ}

/-- What the executed commands weigh together. -/
def spent (w : Op → ℕ) (h : List (Act Op Res)) : ℕ := (h.map fun a => w a.op).sum

@[simp] theorem spent_nil : spent w ([] : List (Act Op Res)) = 0 := rfl

@[simp] theorem spent_cons (a : Act Op Res) (h : List (Act Op Res)) : spent w (a :: h) = w a.op + spent w h := rfl

namespace Prog

/-- The commands on any path through a program weigh at most `n` together. -/
def AtMost (w : Op → ℕ) : ℕ → Prog Op Res ε α → Prop
  | _, .ret _ => True
  | _, .raise _ => True
  | n, .call o k => w o ≤ n ∧ ∀ r, AtMost w (n - w o) (k r)

theorem AtMost.mono {p : Prog Op Res ε α} (hp : AtMost w n p) (hnm : n ≤ m) : AtMost w m p := by
  induction p generalizing n m with
  | ret a => trivial
  | raise e => trivial
  | call o k ih => exact ⟨hp.1.trans hnm, fun r => ih r (hp.2 r) (Nat.sub_le_sub_right hnm _)⟩

theorem atMost_pure (n : ℕ) (a : α) : AtMost w n (pure a : Prog Op Res ε α) := trivial

theorem atMost_throwing (n : ℕ) (e : ε) : AtMost w n (throwing e : Prog Op Res ε α) := trivial

theorem atMost_perform {o : Op} {e : ε} (ho : w o ≤ n) : AtMost w n (perform e o : Prog Op Res ε (Res o)) := by
  refine ⟨ho, fun r => ?_⟩
  cases r <;> trivial

/-- The rule for sequencing. -/
theorem AtMost.bind {p : Prog Op Res ε α} {f : α → Prog Op Res ε β} (hp : AtMost w n p)
    (hf : ∀ a, AtMost w m (f a)) : AtMost w (n + m) (p >>= f) := by
  change AtMost w (n + m) (p.bind f)
  induction p generalizing n with
  | ret a => exact (hf a).mono (Nat.le_add_left m n)
  | raise e => trivial
  | call o k ih =>
    refine ⟨hp.1.trans (Nat.le_add_right n m), fun r => ?_⟩
    have hrest : n + m - w o = n - w o + m := Nat.sub_add_comm hp.1
    rw [hrest]
    exact ih r (hp.2 r)

/-- A part that weighs nothing. -/
theorem AtMost.bind_free {p : Prog Op Res ε α} {f : α → Prog Op Res ε β} (hp : AtMost w 0 p)
    (hf : ∀ a, AtMost w m (f a)) : AtMost w m (p >>= f) :=
  (hp.bind hf).mono (Nat.zero_add m).le

/-- The rule for `catch`. -/
theorem AtMost.recover {p : Prog Op Res ε α} {f : ε → Prog Op Res ε α} (hp : AtMost w n p)
    (hf : ∀ e, AtMost w m (f e)) : AtMost w (n + m) (p.recover f) := by
  induction p generalizing n with
  | ret a => trivial
  | raise e => exact (hf e).mono (Nat.le_add_left m n)
  | call o k ih =>
    refine ⟨hp.1.trans (Nat.le_add_right n m), fun r => ?_⟩
    have hrest : n + m - w o = n - w o + m := Nat.sub_add_comm hp.1
    rw [hrest]
    exact ih r (hp.2 r)

/-- The rule for a case distinction: one branch runs. -/
theorem AtMost.ite {c : Prop} [Decidable c] {p p' : Prog Op Res ε α} (hp : c → AtMost w n p)
    (hp' : ¬ c → AtMost w n p') : AtMost w n (if c then p else p') := by
  split_ifs with hc
  · exact hp hc
  · exact hp' hc

end Prog

/-- What a program has issued comes out of its bound. -/
theorem Residue.spent_le {p q : Prog Op Res ε α} {h : List (Act Op Res)} (hq : Residue p h q)
    (hp : AtMost w n p) : spent w h ≤ n ∧ AtMost w (n - spent w h) q := by
  induction hq with
  | start => exact ⟨Nat.zero_le n, hp⟩
  | @step h o k r hq ih =>
    obtain ⟨hle, ho, hk⟩ := ih
    simp only [spent_cons]
    have hrest : n - (w o + spent w h) = n - spent w h - w o := by omega
    refine ⟨by omega, ?_⟩
    rw [hrest]
    exact hk r

/-- The commands that a call has executed in a run weigh no more than its handler allows. -/
theorem Machine.Reach.spent_le {ρ Req σ Inp : Type} {M : Machine Op Res ε ρ Req σ Inp}
    {tr : List (Entry Op Res Req σ)} {c : Config Op Res ε ρ σ} {t : ℕ} {q : Req} (hr : M.Reach tr c)
    (ha : Arrived tr t q) (hp : AtMost w n (M.handler q)) : spent w (own t tr) ≤ n := by
  have hlt := hr.arrived_lt ha
  obtain ⟨q', ha', hres⟩ := hr.residue (List.getElem?_eq_getElem hlt)
  obtain rfl := hr.arrived_unique ha' ha
  exact (hres.spent_le hp).1

end SdidBridge.Concurrent
