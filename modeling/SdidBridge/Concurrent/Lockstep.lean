import Mathlib.Data.List.Forall2
import SdidBridge.Concurrent.System

/-!
# Two machines in step

Programs are `Like` when they issue commands that `S` takes for each other, and go on alike from the same answers.
Two machines that serve their requests with such programs, and on whose stores such commands do the same, run in step:
each run of the one is a run of the other with the same stores, the same answers, and the same results
(`Machine.Reach.inStep`). What `S` does not tell apart is then nowhere in the stores and the results.
-/

namespace SdidBridge.Concurrent

open Prog

variable {Op : Type} {Res : Op → Type} {ε ρ α β Req σ Inp : Type} {S : Op → Op → Prop}

/-- The programs issue commands that `S` takes for each other, and end in the same result. -/
inductive Like (S : Op → Op → Prop) : Prog Op Res ε α → Prog Op Res ε α → Prop
  /-- Both have returned. -/
  | ret (a : α) : Like S (.ret a) (.ret a)
  /-- Both have thrown. -/
  | raise (e : ε) : Like S (.raise e) (.raise e)
  /-- Both issue a command, and go on alike from the same answer. -/
  | call {o o' : Op} {k : Option (Res o) → Prog Op Res ε α} {k' : Option (Res o') → Prog Op Res ε α} (ho : S o o')
    (hk : ∀ r r', HEq r r' → Like S (k r) (k' r')) : Like S (.call o k) (.call o' k')

/-- A program is like itself. -/
theorem Like.refl (hS : ∀ o, S o o) (p : Prog Op Res ε α) : Like S p p := by
  induction p with
  | ret a => exact .ret a
  | raise e => exact .raise e
  | call o k ih =>
    refine .call (hS o) fun r r' hr => ?_
    obtain rfl := eq_of_heq hr
    exact ih r

/-- The rule for sequencing. -/
theorem Like.bind {p p' : Prog Op Res ε α} {f f' : α → Prog Op Res ε β} (hp : Like S p p')
    (hf : ∀ a, Like S (f a) (f' a)) : Like S (p >>= f) (p' >>= f') := by
  induction hp with
  | ret a => exact hf a
  | raise e => exact .raise e
  | call ho _ ih => exact .call ho fun r r' hr => ih r r' hr

/-- The rule for a command that `S` takes for another one with the same answers. -/
theorem like_perform_bind {o o' : Op} {e : ε} {f : Res o → Prog Op Res ε α} {f' : Res o' → Prog Op Res ε α}
    (ho : S o o') (hres : Res o = Res o') (hf : ∀ v v', HEq v v' → Like S (f v) (f' v')) :
    Like S (perform e o >>= f) (perform e o' >>= f') := by
  have hcases : ∀ {A B : Type} (_ : A = B) (r : Option A) (r' : Option B), HEq r r' →
      (r = none ∧ r' = none) ∨ ∃ v v', r = some v ∧ r' = some v' ∧ HEq v v' := by
    rintro A _ rfl r r' hr
    obtain rfl := eq_of_heq hr
    cases r with
    | none => exact .inl ⟨rfl, rfl⟩
    | some v => exact .inr ⟨v, v, rfl, rfl, HEq.rfl⟩
  refine .call ho fun r r' hr => ?_
  rcases hcases hres r r' hr with ⟨rfl, rfl⟩ | ⟨v, v', rfl, rfl, hv⟩
  · exact .raise e
  · exact hf v v' hv

/-- The result of a program that has ended. -/
def Prog.result : Prog Op Res ε α → Option (Except ε α)
  | .ret a => some (.ok a)
  | .raise e => some (.error e)
  | .call _ _ => none

theorem Like.result_eq {p p' : Prog Op Res ε α} (h : Like S p p') : p.result = p'.result := by
  cases h <;> rfl

namespace Machine

variable {Req' : Type} {M : Machine Op Res ε ρ Req σ Inp} {M' : Machine Op Res ε ρ Req' σ Inp}
  {tr : List (Entry Op Res Req σ)} {c : Config Op Res ε ρ σ} {f : ℕ → Req → Req'}

/-- Commands that `S` takes for each other do the same on the stores of the two machines, and all else that is not a
handler is the same. -/
structure Indistinct (S : Op → Op → Prop) (M : Machine Op Res ε ρ Req σ Inp) (M' : Machine Op Res ε ρ Req' σ Inp) :
    Prop where
  res : ∀ {o o'}, S o o' → Res o = Res o'
  exec : ∀ {o o' i s r s₁}, S o o' → M.exec i s o = some (r, s₁) → ∃ r', HEq r r' ∧ M'.exec i s o' = some (r', s₁)
  fallible : ∀ {o o'}, S o o' → M.fallible o = M'.fallible o'
  env : M.env = M'.env
  init : M.init = M'.init

/-- The two events are the same, but for what `S` does not tell apart and for the requests that `f` changes. -/
inductive SameEvent (S : Op → Op → Prop) (f : ℕ → Req → Req') : Event Op Res Req → Event Op Res Req' → Prop
  | arrive (t : ℕ) (q : Req) : SameEvent S f (.arrive t q) (.arrive t (f t q))
  | act (t : ℕ) {o o' : Op} {r : Option (Res o)} {r' : Option (Res o')} (ho : S o o') (hr : HEq r r') :
    SameEvent S f (.act t ⟨o, r⟩) (.act t ⟨o', r'⟩)
  | env : SameEvent S f .env .env

/-- The two steps are the same from the same store. -/
def SameStep (S : Op → Op → Prop) (f : ℕ → Req → Req') (e : Entry Op Res Req σ) (e' : Entry Op Res Req' σ) : Prop :=
  e.before = e'.before ∧ SameEvent S f e.event e'.event

/-- The calls have the same stores, and programs that are like each other. -/
structure SameConfig (S : Op → Op → Prop) (c c' : Config Op Res ε ρ σ) : Prop where
  store : c.store = c'.store
  calls : List.Forall₂ (Like S) c.calls c'.calls

/-- What remains of a call in the one state is like what remains of it in the other. -/
theorem SameConfig.call {c c' : Config Op Res ε ρ σ} (h : SameConfig S c c') {t : ℕ} {p : Prog Op Res ε ρ}
    (ht : c.calls[t]? = some p) : ∃ p', c'.calls[t]? = some p' ∧ Like S p p' := by
  obtain ⟨hlt, rfl⟩ := List.getElem?_eq_some_iff.mp ht
  have hlt' : t < c'.calls.length := h.calls.length_eq ▸ hlt
  exact ⟨c'.calls[t], List.getElem?_eq_getElem hlt', h.calls.get hlt hlt'⟩

theorem SameConfig.set {c c' : Config Op Res ε ρ σ} (h : SameConfig S c c') (t : ℕ) {p p' : Prog Op Res ε ρ} (s : σ)
    (hp : Like S p p') : SameConfig S ⟨s, c.calls.set t p⟩ ⟨s, c'.calls.set t p'⟩ := by
  have hset : ∀ {l l' : List (Prog Op Res ε ρ)}, List.Forall₂ (Like S) l l' → ∀ t,
      List.Forall₂ (Like S) (l.set t p) (l'.set t p') := by
    intro l l' hl
    induction hl with
    | nil => exact fun t => .nil
    | cons hab hl ih =>
      intro t
      cases t with
      | zero => exact .cons hp hl
      | succ t => exact .cons hab (ih t)
  exact ⟨rfl, hset h.calls t⟩

/-- One step of the one machine is one of the other. -/
theorem step_inStep {c c' c₁ : Config Op Res ε ρ σ} {m : Move Req Inp} {e : Event Op Res Req}
    (hM : Indistinct S M M') (hf : ∀ t q, e = .arrive t q → Like S (M.handler q) (M'.handler (f t q)))
    (hc : SameConfig S c c') (hs : M.step c m = some (e, c₁)) :
    ∃ m' e' c₁', M'.step c' m' = some (e', c₁') ∧ SameEvent S f e e' ∧ SameConfig S c₁ c₁' := by
  have hstore : c'.store = c.store := hc.store.symm
  cases m with
  | arrive q =>
    simp only [step, Option.some.injEq, Prod.mk.injEq] at hs
    obtain ⟨rfl, rfl⟩ := hs
    refine ⟨.arrive (f c.calls.length q), _, _, rfl, ?_, hc.store, ?_⟩
    · rw [← hc.calls.length_eq]
      exact .arrive _ q
    · exact List.rel_append hc.calls (.cons (hf _ q rfl) .nil)
  | go t i =>
    simp only [step] at hs
    split at hs
    · rename_i o k ht
      split at hs
      · rename_i r s hx
        simp only [Option.some.injEq, Prod.mk.injEq] at hs
        obtain ⟨rfl, rfl⟩ := hs
        obtain ⟨p', ht', hlike⟩ := hc.call ht
        cases hlike with
        | call ho hk =>
          obtain ⟨r', hr, hx'⟩ := hM.exec ho hx
          refine ⟨.go t i, _, _, ?_, .act t ho hr, hc.set t s (hk r r' hr)⟩
          simp only [step, ht', hstore, hx']
      · simp at hs
    · simp at hs
  | fail t =>
    simp only [step] at hs
    split at hs
    · rename_i o k ht
      split_ifs at hs with hfallible
      simp only [Option.some.injEq, Prod.mk.injEq] at hs
      obtain ⟨rfl, rfl⟩ := hs
      obtain ⟨p', ht', hlike⟩ := hc.call ht
      cases hlike with
      | @call _ o' _ k' ho hk =>
        have hnone : HEq (none : Option (Res o)) (none : Option (Res o')) := by rw [hM.res ho]
        refine ⟨.fail t, _, _, ?_, .act t ho hnone, hc.set t c.store (hk none none hnone)⟩
        simp only [step, ht', hstore, ← hM.fallible ho, hfallible, if_true]
    · simp at hs
  | env i =>
    simp only [step] at hs
    split at hs
    · rename_i s hx
      simp only [Option.some.injEq, Prod.mk.injEq] at hs
      obtain ⟨rfl, rfl⟩ := hs
      refine ⟨.env i, _, ⟨s, c'.calls⟩, ?_, .env, rfl, hc.calls⟩
      simp only [step, hstore, ← hM.env, hx]
    · simp at hs

/-- A run of the one machine is a run of the other, in step. -/
theorem Reach.inStep (hM : Indistinct S M M')
    (hf : ∀ t q, Arrived tr t q → Like S (M.handler q) (M'.handler (f t q))) (hr : M.Reach tr c) :
    ∃ tr' c', M'.Reach tr' c' ∧ List.Forall₂ (SameStep S f) tr tr' ∧ SameConfig S c c' := by
  induction hr with
  | init => exact ⟨[], _, .init, .nil, hM.init, .nil⟩
  | @step tr c m e c₁ _ hs ih =>
    obtain ⟨tr', c', hr', htr, hc⟩ := ih fun t q hq => hf t q (hq.mono (List.subset_cons_self _ _))
    have hnew : ∀ t q, e = .arrive t q → Like S (M.handler q) (M'.handler (f t q)) :=
      fun t q he => hf t q ⟨_, List.mem_cons_self, he⟩
    obtain ⟨m', e', c₁', hs', he, hc₁⟩ := step_inStep hM hnew hc hs
    exact ⟨_, c₁', .step hr' hs', .cons ⟨hc.store, he⟩ htr, hc₁⟩

end Machine

end SdidBridge.Concurrent
