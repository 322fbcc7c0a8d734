import SdidBridge.Concurrent.Serial

/-!
# Calls in turn while the environment moves

`InTurn` are the runs of a machine in which a call arrives only when no call is in progress. Other than in the runs
`Serial`, the environment may move between two commands, and commands may fail. At every moment of such a run at most
one call is in progress (`InTurn.one`).
-/

namespace SdidBridge.Concurrent

open Prog

variable {Op : Type} {Res : Op → Type} {ε ρ Req σ Inp : Type}

namespace Machine

/-- The runs in which a call arrives only when no call is in progress. -/
inductive InTurn (M : Machine Op Res ε ρ Req σ Inp) : List (Entry Op Res Req σ) → Config Op Res ε ρ σ → Prop
  | init : InTurn M [] ⟨M.init, []⟩
  | step {tr c m e c'} (hr : InTurn M tr c) (hs : M.step c m = some (e, c'))
    (hover : ∀ u q, e = .arrive u q → ∀ t, ¬ InProgress c t) : InTurn M (⟨c.store, e⟩ :: tr) c'

variable {M : Machine Op Res ε ρ Req σ Inp} {tr : List (Entry Op Res Req σ)} {c : Config Op Res ε ρ σ} {t u : ℕ}

theorem InTurn.reach (hr : M.InTurn tr c) : M.Reach tr c := by
  induction hr with
  | init => exact .init
  | step hr hs hover ih => exact .step ih hs

/-- A call that is in progress after a step was so before, or has just arrived. -/
theorem inProgress_before {m : Move Req Inp} {e : Event Op Res Req} {c' : Config Op Res ε ρ σ}
    (hs : M.step c m = some (e, c')) (ht : InProgress c' t) :
    InProgress c t ∨ ∃ q, e = .arrive t q ∧ t = c.calls.length := by
  obtain ⟨o, k, hget⟩ := ht
  rcases step_calls hs with ⟨q, rfl, hcalls⟩ | ⟨v, o', k', r, rfl, hk, hcalls⟩ | ⟨rfl, hcalls⟩
  · rw [hcalls] at hget
    rcases Nat.lt_or_ge t c.calls.length with hlt | hge
    · rw [List.getElem?_append_left hlt] at hget
      exact .inl ⟨o, k, hget⟩
    · have hlt : t < (c.calls ++ [M.handler q]).length := (List.getElem?_eq_some_iff.mp hget).1
      rw [List.length_append, List.length_singleton] at hlt
      obtain rfl : t = c.calls.length := by omega
      exact .inr ⟨q, rfl, rfl⟩
  · refine .inl ?_
    by_cases heq : v = t
    · rw [← heq]
      exact ⟨o', k', hk⟩
    · rw [hcalls, List.getElem?_set_ne heq] at hget
      exact ⟨o, k, hget⟩
  · rw [hcalls] at hget
    exact .inl ⟨o, k, hget⟩

/-- At most one call is in progress. -/
theorem InTurn.one (hr : M.InTurn tr c) (ht : InProgress c t) (hu : InProgress c u) : t = u := by
  induction hr with
  | init =>
    obtain ⟨o, k, hget⟩ := ht
    cases hget
  | step hr hs hover ih =>
    rcases inProgress_before hs ht with hbefore | ⟨q, rfl, hlast⟩
    · rcases inProgress_before hs hu with hbefore' | ⟨q', rfl, -⟩
      · exact ih hbefore hbefore'
      · exact absurd hbefore (hover u q' rfl t)
    · rcases inProgress_before hs hu with hbefore' | ⟨q', -, hlast'⟩
      · exact absurd hbefore' (hover t q rfl u)
      · rw [hlast, hlast']

/-! ## Runs that are played -/

/-- Play a list of choices, newest first, in which a call arrives only when the others are over. -/
def playInTurn (M : Machine Op Res ε ρ Req σ Inp) :
    List (Move Req Inp) → Option (List (Entry Op Res Req σ) × Config Op Res ε ρ σ)
  | [] => some ([], ⟨M.init, []⟩)
  | m :: ms => do
    let (tr, c) ← playInTurn M ms
    let (e, c') ← M.step c m
    match e with
    | .arrive _ _ => if c.calls.all ended then some (⟨c.store, e⟩ :: tr, c') else none
    | _ => some (⟨c.store, e⟩ :: tr, c')

/-- What is played is a run. -/
theorem inTurn_of_playInTurn {ms : List (Move Req Inp)} (h : M.playInTurn ms = some (tr, c)) : M.InTurn tr c := by
  induction ms generalizing tr c with
  | nil =>
    cases h
    exact .init
  | cons m ms ih =>
    obtain ⟨⟨tr₀, c₀⟩, h₀, hrest⟩ := Option.bind_eq_some_iff.mp h
    obtain ⟨⟨e, c'⟩, hs, hlast⟩ := Option.bind_eq_some_iff.mp hrest
    cases e with
    | arrive t q =>
      dsimp only at hlast
      split_ifs at hlast with hall
      cases hlast
      exact .step (ih h₀) hs fun _ _ _ => not_inProgress_of_ended hall
    | act t a =>
      cases hlast
      exact .step (ih h₀) hs fun _ _ heq => by cases heq
    | env =>
      cases hlast
      exact .step (ih h₀) hs fun _ _ heq => by cases heq

/-- A run with a property that can be computed, from the choices that lead to it. -/
theorem exists_of_playInTurn (M : Machine Op Res ε ρ Req σ Inp) (ms : List (Move Req Inp))
    {p : List (Entry Op Res Req σ) × Config Op Res ε ρ σ → Bool} (h : (M.playInTurn ms).any p = true) :
    ∃ tr c, M.InTurn tr c ∧ p (tr, c) = true := by
  obtain ⟨⟨tr, c⟩, hplay, hp⟩ := (Option.any_eq_true _ _).mp h
  exact ⟨tr, c, inTurn_of_playInTurn hplay, hp⟩

end Machine

end SdidBridge.Concurrent
