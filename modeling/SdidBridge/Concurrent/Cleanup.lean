import SdidBridge.Concurrent.Alone

/-!
# Cleanup

`ensuring` runs a cleanup after a program, whether it returned or threw, as `finally` does (`alone_ensuring`). A program
over some commands is one over more of them (`embed`), and it leaves a store alone that none of its commands change
(`Alone.embed_store`).
-/

namespace SdidBridge.Concurrent

variable {Op Op' : Type} {Res : Op → Type} {Res' : Op' → Type} {ε α β σ Inp : Type}

namespace Prog

/-- Run `p`, and return its result, also when it throws. -/
def caught : Prog Op Res ε α → Prog Op Res ε (Except ε α)
  | .ret a => .ret (.ok a)
  | .raise e => .ret (.error e)
  | .call o k => .call o fun r => (k r).caught

/-- End with the result `x`. -/
def settle : Except ε α → Prog Op Res ε α
  | .ok a => .ret a
  | .error e => .raise e

/-- The statement `try { p } finally { cleanup }`. -/
def ensuring (cleanup : Prog Op Res ε Unit) (p : Prog Op Res ε α) : Prog Op Res ε α := do
  let x ← p.caught
  cleanup
  settle x

/-- A program whose commands are some of `Op'`. -/
def embed (f : Op → Op') : Prog Op (fun o => Res' (f o)) ε α → Prog Op' Res' ε α
  | .ret a => .ret a
  | .raise e => .raise e
  | .call o k => .call (f o) fun r => (k r).embed f

end Prog

open Prog

/-- A sequel to a sequence. -/
theorem bind_bind {γ : Type} (p : Prog Op Res ε α) (f : α → Prog Op Res ε β) (g : β → Prog Op Res ε γ) :
    (p >>= f) >>= g = p >>= fun a => f a >>= g := by
  change (p.bind f).bind g = p.bind fun a => (f a).bind g
  induction p with
  | ret a => rfl
  | raise e => rfl
  | call o k ih => simp only [Prog.bind, ih]

variable {exec : Inp → σ → (o : Op) → Option (Option (Res o) × σ)} {s s' : σ} {h : List (Act Op Res)}

/-- The commands that a program executes decide how it ends. -/
theorem Alone.agree {p : Prog Op Res ε α} {s₁ s₂ : σ} {h₁ h₂ : List (Act Op Res)} {x y : Except ε α}
    (hp : Alone exec s p h₁ s₁ x) (hq : Alone exec s' p (h₂ ++ h₁) s₂ y) : h₂ = [] ∧ x = y := by
  induction p generalizing s s' h₁ h₂ with
  | ret a =>
    obtain ⟨rfl, -, rfl⟩ := alone_ret.mp hp
    obtain ⟨hnil, -, rfl⟩ := alone_ret.mp hq
    exact ⟨(List.append_eq_nil_iff.mp hnil).1, rfl⟩
  | raise e =>
    obtain ⟨rfl, -, rfl⟩ := alone_raise.mp hp
    obtain ⟨hnil, -, rfl⟩ := alone_raise.mp hq
    exact ⟨(List.append_eq_nil_iff.mp hnil).1, rfl⟩
  | call o k ih =>
    obtain ⟨i, r, t, l, -, hk, rfl⟩ := alone_call.mp hp
    obtain ⟨i', r', t', l', -, hk', heq⟩ := alone_call.mp hq
    -- Both executed the same command first, with the same answer.
    rw [← List.append_assoc] at heq
    obtain ⟨rfl, hact⟩ := List.append_inj' heq rfl
    obtain rfl : r = r' := by simpa using hact
    exact ih r hk hk'

/-- The rule for a program whose result is returned. -/
theorem alone_caught {p : Prog Op Res ε α} {x : Except ε (Except ε α)} :
    Alone exec s p.caught h s' x ↔ ∃ y, x = .ok y ∧ Alone exec s p h s' y := by
  induction p generalizing s h with
  | ret a =>
    simp [caught]
    tauto
  | raise e =>
    simp [caught]
    tauto
  | call o k ih =>
    simp only [caught, alone_call, ih]
    constructor
    · rintro ⟨i, r, s₁, h₁, hx, ⟨y, rfl, hk⟩, rfl⟩
      exact ⟨y, rfl, i, r, s₁, h₁, hx, hk, rfl⟩
    · rintro ⟨y, rfl, i, r, s₁, h₁, hx, hk, rfl⟩
      exact ⟨i, r, s₁, h₁, hx, ⟨y, rfl, hk⟩, rfl⟩

@[simp] theorem alone_settle {x y : Except ε α} :
    Alone exec s (settle x) h s' y ↔ h = [] ∧ s' = s ∧ y = x := by
  cases x <;> simp [settle]

/-- The rule for `finally`: the cleanup starts where the body ended, however it did. -/
theorem alone_ensuring {cleanup : Prog Op Res ε Unit} {p : Prog Op Res ε α} {x : Except ε α} :
    Alone exec s (ensuring cleanup p) h s' x ↔ ∃ y s₁ h₁ h₂, h = h₂ ++ h₁ ∧ Alone exec s p h₁ s₁ y ∧
      ((∃ e, x = .error e ∧ Alone exec s₁ cleanup h₂ s' (.error e)) ∨
        (x = y ∧ Alone exec s₁ cleanup h₂ s' (.ok ()))) := by
  unfold ensuring
  rw [alone_bind]
  constructor
  · rintro (⟨e, -, hp⟩ | ⟨y, s₁, h₁, h₂, rfl, hp, hrest⟩)
    · obtain ⟨y, hy, -⟩ := alone_caught.mp hp
      cases hy
    · obtain ⟨y', hy, hp'⟩ := alone_caught.mp hp
      cases hy
      refine ⟨y, s₁, h₁, h₂, rfl, hp', ?_⟩
      rcases alone_bind.mp hrest with ⟨e, rfl, hcleanup⟩ | ⟨u, s₂, h₃, h₄, rfl, hcleanup, hend⟩
      · exact .inl ⟨e, rfl, hcleanup⟩
      · obtain ⟨rfl, rfl, rfl⟩ := alone_settle.mp hend
        exact .inr ⟨rfl, hcleanup⟩
  · rintro ⟨y, s₁, h₁, h₂, rfl, hp, hrest⟩
    refine .inr ⟨y, s₁, h₁, h₂, rfl, alone_caught.mpr ⟨y, rfl, hp⟩, alone_bind.mpr ?_⟩
    rcases hrest with ⟨e, rfl, hcleanup⟩ | ⟨rfl, hcleanup⟩
    · exact .inl ⟨e, rfl, hcleanup⟩
    · exact .inr ⟨(), s', h₂, [], rfl, hcleanup, alone_settle.mpr ⟨rfl, rfl, rfl⟩⟩

/-- A program leaves the store alone when its commands do. -/
theorem Alone.embed_store {exec : Inp → σ → (o : Op') → Option (Option (Res' o) × σ)} {f : Op → Op'}
    {p : Prog Op (fun o => Res' (f o)) ε α} {h : List (Act Op' Res')} {x : Except ε α}
    (hf : ∀ {i s o r s'}, exec i s (f o) = some (r, s') → s' = s) (hp : Alone exec s (p.embed f) h s' x) :
    s' = s := by
  induction p generalizing s h with
  | ret a => exact (alone_ret.mp hp).2.1
  | raise e => exact (alone_raise.mp hp).2.1
  | call o k ih =>
    obtain ⟨i, r, s₁, h₁, hx, hk, -⟩ := alone_call.mp hp
    rw [ih r hk, hf hx]

/-! ## Results -/

/-- Some answers to its commands, or their failures, make a program end in `x`. -/
def CanEnd : Prog Op Res ε α → Except ε α → Prop
  | .ret a, x => x = .ok a
  | .raise e, x => x = .error e
  | .call _ k, x => ∃ r, CanEnd (k r) x

/-- The rule for sequencing. -/
theorem canEnd_bind {p : Prog Op Res ε α} {f : α → Prog Op Res ε β} {x : Except ε β} :
    CanEnd (p >>= f) x ↔ (∃ e, x = .error e ∧ CanEnd p (.error e)) ∨ ∃ a, CanEnd p (.ok a) ∧ CanEnd (f a) x := by
  change CanEnd (p.bind f) x ↔ _
  induction p with
  | ret a => simp [Prog.bind, CanEnd]
  | raise e => simp [Prog.bind, CanEnd]
  | call o k ih =>
    simp only [Prog.bind, CanEnd, ih]
    constructor
    · rintro ⟨r, ⟨e, rfl, hk⟩ | ⟨a, hk, hf⟩⟩
      · exact .inl ⟨e, rfl, r, hk⟩
      · exact .inr ⟨a, ⟨r, hk⟩, hf⟩
    · rintro (⟨e, rfl, r, hk⟩ | ⟨a, ⟨r, hk⟩, hf⟩)
      · exact ⟨r, .inl ⟨e, rfl, hk⟩⟩
      · exact ⟨r, .inr ⟨a, hk, hf⟩⟩

/-- A program that goes on where its first part returned. -/
theorem CanEnd.bind {p : Prog Op Res ε α} {f : α → Prog Op Res ε β} {a : α} {x : Except ε β}
    (hp : CanEnd p (.ok a)) (hf : CanEnd (f a) x) : CanEnd (p >>= f) x :=
  canEnd_bind.mpr (.inr ⟨a, hp, hf⟩)

/-- A program whose first part threw. -/
theorem CanEnd.thrown {p : Prog Op Res ε α} {e : ε} (hp : CanEnd p (.error e)) (f : α → Prog Op Res ε β) :
    CanEnd (p >>= f) (.error e) :=
  canEnd_bind.mpr (.inl ⟨e, rfl, hp⟩)

/-- A command may have any answer. -/
theorem canEnd_answered (e : ε) (o : Op) (v : Res o) : CanEnd (perform e o : Prog Op Res ε (Res o)) (.ok v) :=
  ⟨some v, rfl⟩

/-- A command may fail. -/
theorem canEnd_failed (e : ε) (o : Op) : CanEnd (perform e o : Prog Op Res ε (Res o)) (.error e) :=
  ⟨none, rfl⟩

/-- A program that is embedded ends as it can end. -/
theorem Alone.canEnd {exec : Inp → σ → (o : Op') → Option (Option (Res' o) × σ)} {f : Op → Op'}
    {p : Prog Op (fun o => Res' (f o)) ε α} {h : List (Act Op' Res')} {x : Except ε α}
    (hp : Alone exec s (p.embed f) h s' x) : CanEnd p x := by
  induction p generalizing s h with
  | ret a => exact (alone_ret.mp hp).2.2
  | raise e => exact (alone_raise.mp hp).2.2
  | call o k ih =>
    obtain ⟨i, r, s₁, h₁, -, hk, -⟩ := alone_call.mp hp
    exact ⟨r, ih r hk⟩

end SdidBridge.Concurrent
