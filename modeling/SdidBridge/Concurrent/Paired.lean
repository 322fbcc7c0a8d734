import SdidBridge.Concurrent.System

/-!
# Two runs side by side

What a call can tell of the store is what its answers can tell. Two runs serve the same request; around the
call each of them goes its own way, and where the call executes a command the two stores are related and the
environment decides alike (`Paired`). A program is blind to the relation when the answers that related stores
can give lead it on in one way (`Blind`). Then what remains of the call is the same in both runs at any time
(`Paired.same`), and so is its answer.
-/

namespace SdidBridge.Concurrent

variable {Op : Type} {Res : Op → Type} {ε ρ α β Req σ Inp : Type}

/-- Answers that `V` relates are answers that the program goes on from in one way; what it returns meets `Q`. -/
def Blind (V : (o : Op) → Option (Res o) → Option (Res o) → Prop) (Q : α → Prop) : Prog Op Res ε α → Prop
  | .ret a => Q a
  | .raise _ => True
  | .call o k => ∀ r r', V o r r' → k r = k r' ∧ Blind V Q (k r)

section Blind

variable {V : (o : Op) → Option (Res o) → Option (Res o) → Prop} {Q Q' : α → Prop}

theorem blind_pure {a : α} (h : Q a) : Blind V Q (pure a : Prog Op Res ε α) := h

theorem blind_throwing (e : ε) : Blind V Q (Prog.throwing e : Prog Op Res ε α) := trivial

theorem blind_throwIf {Q : Unit → Prop} {c : Prop} [Decidable c] (e : ε) (h : ¬ c → Q ()) :
    Blind V Q (Prog.throwIf c e : Prog Op Res ε Unit) := by
  unfold Prog.throwIf
  split_ifs with hc
  · trivial
  · exact h hc

theorem blind_orThrow {x : Option α} (e : ε) (h : ∀ a, x = some a → Q a) :
    Blind V Q (Prog.orThrow x e : Prog Op Res ε α) := by
  cases x with
  | some a => exact h a rfl
  | none => trivial

theorem Blind.mono {p : Prog Op Res ε α} (hp : Blind V Q p) (hQ : ∀ a, Q a → Q' a) : Blind V Q' p := by
  induction p with
  | ret a => exact hQ a hp
  | raise e => trivial
  | call o k ih => exact fun r r' hV => ⟨(hp r r' hV).1, ih r (hp r r' hV).2⟩

theorem Blind.bind {Q' : β → Prop} {p : Prog Op Res ε α} {f : α → Prog Op Res ε β} (hp : Blind V Q p)
    (hf : ∀ a, Q a → Blind V Q' (f a)) : Blind V Q' (p >>= f) := by
  induction p with
  | ret a => exact hf a hp
  | raise e => trivial
  | call o k ih =>
    intro r r' hV
    obtain ⟨hsame, hrest⟩ := hp r r' hV
    refine ⟨?_, ih r hrest⟩
    change (k r).bind f = (k r').bind f
    rw [hsame]

/-- The rule for a command: related answers are the same, or the program goes on from them in one way. -/
theorem blind_perform_bind {Q' : β → Prop} {o : Op} {e : ε} {f : Res o → Prog Op Res ε β}
    (hsame : ∀ x, V o (some x) (some x) → Blind V Q' (f x))
    (hV : ∀ r r', V o r r' → r = r' ∨ ∃ x x', r = some x ∧ r' = some x' ∧ f x = f x' ∧ Blind V Q' (f x)) :
    Blind V Q' (Prog.perform e o >>= f) := by
  intro r r' h
  obtain rfl | ⟨x, x', rfl, rfl, hf, hx⟩ := hV r r' h
  · refine ⟨rfl, ?_⟩
    cases r with
    | some x => exact hsame x h
    | none => trivial
  · exact ⟨hf, hx⟩

/-- A program whose commands are answered alike is blind. -/
theorem blind_of_only {C : Op → Prop} {p : Prog Op Res ε α} (hp : p.Only C)
    (hC : ∀ o, C o → ∀ r r', V o r r' → r = r') : Blind V (fun _ => True) p := by
  have halong : ∀ h, Prog.Along (fun _ o => C o) (fun _ _ => True) h p → Blind V (fun _ => True) p := by
    intro h hp
    clear * - hp hC
    induction p generalizing h with
    | ret a => trivial
    | raise e => trivial
    | call o k ih =>
      intro r r' hV
      obtain rfl := hC o hp.1 r r' hV
      exact ⟨rfl, ih r _ (hp.2 r)⟩
  exact halong [] (hp [])

end Blind

variable (M : Machine Op Res ε ρ Req σ Inp)

/-- Two runs that serve the request `q`, one as call `t₁` and one as call `t₂`. The two calls execute their
commands together, on stores that `R` relates, with the same input or both in vain. All other steps are each
run's own, and so are the commands of a call when the other one is over. -/
inductive Paired (R : Op → σ → σ → Prop) (q : Req) : List (Entry Op Res Req σ) → Config Op Res ε ρ σ → ℕ →
    List (Entry Op Res Req σ) → Config Op Res ε ρ σ → ℕ → Prop
  | arrive {tr₁ c₁ e₁ c₁' tr₂ c₂ e₂ c₂'} (hr₁ : M.Reach tr₁ c₁) (hr₂ : M.Reach tr₂ c₂)
      (hs₁ : M.step c₁ (.arrive q) = some (e₁, c₁')) (hs₂ : M.step c₂ (.arrive q) = some (e₂, c₂')) :
    Paired R q (⟨c₁.store, e₁⟩ :: tr₁) c₁' c₁.calls.length (⟨c₂.store, e₂⟩ :: tr₂) c₂' c₂.calls.length
  | left {tr₁ c₁ t₁ tr₂ c₂ t₂ m e c₁'} (h : Paired R q tr₁ c₁ t₁ tr₂ c₂ t₂)
      (hs : M.step c₁ m = some (e, c₁')) (hother : (∀ a, e ≠ .act t₁ a) ∨ ¬ InProgress c₂ t₂) :
    Paired R q (⟨c₁.store, e⟩ :: tr₁) c₁' t₁ tr₂ c₂ t₂
  | right {tr₁ c₁ t₁ tr₂ c₂ t₂ m e c₂'} (h : Paired R q tr₁ c₁ t₁ tr₂ c₂ t₂)
      (hs : M.step c₂ m = some (e, c₂')) (hother : (∀ a, e ≠ .act t₂ a) ∨ ¬ InProgress c₁ t₁) :
    Paired R q tr₁ c₁ t₁ (⟨c₂.store, e⟩ :: tr₂) c₂' t₂
  | both {tr₁ c₁ t₁ tr₂ c₂ t₂ a₁ c₁' a₂ c₂'} (i : Inp) (h : Paired R q tr₁ c₁ t₁ tr₂ c₂ t₂)
      (hR : R a₁.op c₁.store c₂.store) (hs₁ : M.step c₁ (.go t₁ i) = some (.act t₁ a₁, c₁'))
      (hs₂ : M.step c₂ (.go t₂ i) = some (.act t₂ a₂, c₂')) :
    Paired R q (⟨c₁.store, .act t₁ a₁⟩ :: tr₁) c₁' t₁ (⟨c₂.store, .act t₂ a₂⟩ :: tr₂) c₂' t₂
  | fail {tr₁ c₁ t₁ tr₂ c₂ t₂ a₁ c₁' a₂ c₂'} (h : Paired R q tr₁ c₁ t₁ tr₂ c₂ t₂)
      (hR : R a₁.op c₁.store c₂.store) (hs₁ : M.step c₁ (.fail t₁) = some (.act t₁ a₁, c₁'))
      (hs₂ : M.step c₂ (.fail t₂) = some (.act t₂ a₂, c₂')) :
    Paired R q (⟨c₁.store, .act t₁ a₁⟩ :: tr₁) c₁' t₁ (⟨c₂.store, .act t₂ a₂⟩ :: tr₂) c₂' t₂

/-- What a call has answered. -/
def answer (c : Config Op Res ε ρ σ) (t : ℕ) : Option (Except ε ρ) :=
  match c.calls[t]? with
  | some (.ret v) => some (.ok v)
  | some (.raise e) => some (.error e)
  | _ => none

variable {M} {R : Op → σ → σ → Prop} {q : Req} {tr₁ tr₂ : List (Entry Op Res Req σ)} {t₁ t₂ : ℕ}
  {c₁ c₂ : Config Op Res ε ρ σ}

namespace Machine

variable {c c' : Config Op Res ε ρ σ} {t : ℕ} {m : Move Req Inp} {e : Event Op Res Req}
  {p : Prog Op Res ε ρ}

/-- What a call is after a step of another one. -/
theorem step_other (hs : M.step c m = some (e, c')) (ht : c.calls[t]? = some p)
    (he : ∀ a, e ≠ .act t a) : c'.calls[t]? = some p := by
  have hlt : t < c.calls.length := (List.getElem?_eq_some_iff.mp ht).1
  rcases step_calls hs with ⟨q', -, hc⟩ | ⟨t', o, k, r, rfl, -, hc⟩ | ⟨-, hc⟩
  · rw [hc, List.getElem?_append_left hlt]
    exact ht
  · have hne : t' ≠ t := fun h => he ⟨o, r⟩ (by rw [h])
    rw [hc, List.getElem?_set_ne hne]
    exact ht
  · rw [hc]
    exact ht

/-- What a call is after a step of its own. -/
theorem step_own {a : Act Op Res} (hs : M.step c m = some (.act t a, c')) (ht : c.calls[t]? = some p) :
    ∃ k, p = .call a.op k ∧ c'.calls[t]? = some (k a.res) := by
  have hlt : t < c.calls.length := (List.getElem?_eq_some_iff.mp ht).1
  rcases step_calls hs with ⟨q', h, -⟩ | ⟨t', o, k, r, h, hk, hc⟩ | ⟨h, -⟩
  · simp at h
  · obtain ⟨rfl, rfl⟩ := Event.act.inj h
    rw [ht, Option.some.injEq] at hk
    refine ⟨k, hk, ?_⟩
    rw [hc, List.getElem?_set_self hlt]
  · simp at h

/-- What a command answers on an input. -/
theorem step_go {a : Act Op Res} {i : Inp} (hs : M.step c (.go t i) = some (.act t a, c')) :
    M.exec i c.store a.op = some (a.res, c'.store) := by
  simp only [step] at hs
  split at hs
  · split at hs
    · rename_i o k ht r s hx
      simp only [Option.some.injEq, Prod.mk.injEq, Event.act.injEq, true_and] at hs
      obtain ⟨rfl, rfl⟩ := hs
      exact hx
    · simp at hs
  · simp at hs

/-- A command in vain answers nothing. -/
theorem step_fail {a : Act Op Res} (hs : M.step c (.fail t) = some (.act t a, c')) : a.res = none := by
  simp only [step] at hs
  split at hs
  · split_ifs at hs
    simp only [Option.some.injEq, Prod.mk.injEq, Event.act.injEq, true_and] at hs
    rw [← hs.1]
  · simp at hs

end Machine

namespace Paired

/-- The first of the two runs is a run. -/
theorem reach_left (h : Paired M R q tr₁ c₁ t₁ tr₂ c₂ t₂) : M.Reach tr₁ c₁ := by
  induction h with
  | arrive hr₁ hr₂ hs₁ hs₂ => exact hr₁.step hs₁
  | left h hs hother ih => exact ih.step hs
  | right h hs hother ih => exact ih
  | both i h hR hs₁ hs₂ ih => exact ih.step hs₁
  | fail h hR hs₁ hs₂ ih => exact ih.step hs₁

/-- So is the second. -/
theorem reach_right (h : Paired M R q tr₁ c₁ t₁ tr₂ c₂ t₂) : M.Reach tr₂ c₂ := by
  induction h with
  | arrive hr₁ hr₂ hs₁ hs₂ => exact hr₂.step hs₂
  | left h hs hother ih => exact ih
  | right h hs hother ih => exact ih.step hs
  | both i h hR hs₁ hs₂ ih => exact ih.step hs₂
  | fail h hR hs₁ hs₂ ih => exact ih.step hs₂

/-- The request has arrived in the first run. -/
theorem arrived_left (h : Paired M R q tr₁ c₁ t₁ tr₂ c₂ t₂) : Arrived tr₁ t₁ q := by
  induction h with
  | arrive hr₁ hr₂ hs₁ hs₂ =>
    simp only [Machine.step, Option.some.injEq, Prod.mk.injEq] at hs₁
    exact ⟨_, List.mem_cons_self, hs₁.1.symm⟩
  | right h hs hother ih => exact ih
  | left h hs hother ih => exact ih.mono (List.subset_cons_self _ _)
  | both i h hR hs₁ hs₂ ih => exact ih.mono (List.subset_cons_self _ _)
  | fail h hR hs₁ hs₂ ih => exact ih.mono (List.subset_cons_self _ _)

/-- It has arrived in the second one. -/
theorem arrived_right (h : Paired M R q tr₁ c₁ t₁ tr₂ c₂ t₂) : Arrived tr₂ t₂ q := by
  induction h with
  | arrive hr₁ hr₂ hs₁ hs₂ =>
    simp only [Machine.step, Option.some.injEq, Prod.mk.injEq] at hs₂
    exact ⟨_, List.mem_cons_self, hs₂.1.symm⟩
  | left h hs hother ih => exact ih
  | right h hs hother ih => exact ih.mono (List.subset_cons_self _ _)
  | both i h hR hs₁ hs₂ ih => exact ih.mono (List.subset_cons_self _ _)
  | fail h hR hs₁ hs₂ ih => exact ih.mono (List.subset_cons_self _ _)

section Blind

variable {V : (o : Op) → Option (Res o) → Option (Res o) → Prop}

/-- Answers that the call goes on from in one way leave the two calls the same. -/
theorem same_call {a₁ a₂ : Act Op Res} {m₁ m₂ : Move Req Inp} {c₁' c₂' : Config Op Res ε ρ σ}
    {p : Prog Op Res ε ρ} (h₁ : c₁.calls[t₁]? = some p) (h₂ : c₂.calls[t₂]? = some p)
    (hs₁ : M.step c₁ m₁ = some (.act t₁ a₁, c₁')) (hs₂ : M.step c₂ m₂ = some (.act t₂ a₂, c₂'))
    (hblind : Blind V (fun _ => True) p)
    (hV : ∀ o r₁ r₂, a₁ = ⟨o, r₁⟩ → a₂ = ⟨o, r₂⟩ → V o r₁ r₂) :
    ∃ p, c₁'.calls[t₁]? = some p ∧ c₂'.calls[t₂]? = some p ∧ Blind V (fun _ => True) p := by
  obtain ⟨k₁, rfl, hk₁⟩ := Machine.step_own hs₁ h₁
  obtain ⟨k₂, hk, hk₂⟩ := Machine.step_own hs₂ h₂
  obtain ⟨o₁, r₁⟩ := a₁
  obtain ⟨o₂, r₂⟩ := a₂
  simp only [Prog.call.injEq] at hk
  obtain ⟨rfl, hk⟩ := hk
  obtain rfl := eq_of_heq hk
  obtain ⟨hsame, hrest⟩ := hblind r₁ r₂ (hV o₁ r₁ r₂ rfl rfl)
  rw [← hsame] at hk₂
  exact ⟨_, hk₁, hk₂, hrest⟩

/-- What remains of the call is the same in both runs, when its program is blind to what related stores
answer. -/
theorem same (h : Paired M R q tr₁ c₁ t₁ tr₂ c₂ t₂) (hblind : Blind V (fun _ => True) (M.handler q))
    (hnone : ∀ o, V o none none)
    (hV : ∀ l₁ s₁ o r₁ l₁' l₂ s₂ r₂ l₂' i s₁' s₂', tr₁ = l₁ ++ ⟨s₁, .act t₁ ⟨o, r₁⟩⟩ :: l₁' →
      tr₂ = l₂ ++ ⟨s₂, .act t₂ ⟨o, r₂⟩⟩ :: l₂' → R o s₁ s₂ → M.exec i s₁ o = some (r₁, s₁') →
      M.exec i s₂ o = some (r₂, s₂') → V o r₁ r₂) :
    ∃ p, c₁.calls[t₁]? = some p ∧ c₂.calls[t₂]? = some p ∧ Blind V (fun _ => True) p := by
  induction h with
  | arrive hr₁ hr₂ hs₁ hs₂ =>
    simp only [Machine.step, Option.some.injEq, Prod.mk.injEq] at hs₁ hs₂
    refine ⟨M.handler q, ?_, ?_, hblind⟩
    · rw [← hs₁.2]
      simp
    · rw [← hs₂.2]
      simp
  | @left _ c₁ t₁ _ c₂ t₂ _ e _ h hs hother ih =>
    obtain ⟨p, h₁, h₂, hp⟩ := ih fun l₁ s₁ o r₁ l₁' l₂ s₂ r₂ l₂' i s₁' s₂' htr₁ =>
      hV (_ :: l₁) s₁ o r₁ l₁' l₂ s₂ r₂ l₂' i s₁' s₂' (by rw [htr₁, List.cons_append])
    have hne : ∀ a, e ≠ .act t₁ a := by
      rcases hother with hne | hover
      · exact hne
      · rintro a rfl
        obtain ⟨k, rfl, -⟩ := Machine.step_own hs h₁
        exact hover ⟨a.op, k, h₂⟩
    exact ⟨p, Machine.step_other hs h₁ hne, h₂, hp⟩
  | @right _ c₁ t₁ _ c₂ t₂ _ e _ h hs hother ih =>
    obtain ⟨p, h₁, h₂, hp⟩ := ih fun l₁ s₁ o r₁ l₁' l₂ s₂ r₂ l₂' i s₁' s₂' htr₁ htr₂ =>
      hV l₁ s₁ o r₁ l₁' (_ :: l₂) s₂ r₂ l₂' i s₁' s₂' htr₁ (by rw [htr₂, List.cons_append])
    have hne : ∀ a, e ≠ .act t₂ a := by
      rcases hother with hne | hover
      · exact hne
      · rintro a rfl
        obtain ⟨k, rfl, -⟩ := Machine.step_own hs h₂
        exact hover ⟨a.op, k, h₁⟩
    exact ⟨p, h₁, Machine.step_other hs h₂ hne, hp⟩
  | both i h hR hs₁ hs₂ ih =>
    obtain ⟨p, h₁, h₂, hp⟩ := ih fun l₁ s₁ o r₁ l₁' l₂ s₂ r₂ l₂' i s₁' s₂' htr₁ htr₂ =>
      hV (_ :: l₁) s₁ o r₁ l₁' (_ :: l₂) s₂ r₂ l₂' i s₁' s₂' (by rw [htr₁, List.cons_append])
        (by rw [htr₂, List.cons_append])
    refine same_call h₁ h₂ hs₁ hs₂ hp ?_
    rintro o r₁ r₂ rfl rfl
    exact hV [] _ o r₁ _ [] _ r₂ _ i _ _ rfl rfl hR (Machine.step_go hs₁) (Machine.step_go hs₂)
  | fail h hR hs₁ hs₂ ih =>
    obtain ⟨p, h₁, h₂, hp⟩ := ih fun l₁ s₁ o r₁ l₁' l₂ s₂ r₂ l₂' i s₁' s₂' htr₁ htr₂ =>
      hV (_ :: l₁) s₁ o r₁ l₁' (_ :: l₂) s₂ r₂ l₂' i s₁' s₂' (by rw [htr₁, List.cons_append])
        (by rw [htr₂, List.cons_append])
    refine same_call h₁ h₂ hs₁ hs₂ hp ?_
    rintro o r₁ r₂ rfl rfl
    obtain rfl : r₁ = none := Machine.step_fail hs₁
    obtain rfl : r₂ = none := Machine.step_fail hs₂
    exact hnone o

end Blind

end Paired

/-- Calls of which the same remains have answered alike. -/
theorem answer_eq_of_same {p : Prog Op Res ε ρ} (h₁ : c₁.calls[t₁]? = some p) (h₂ : c₂.calls[t₂]? = some p) :
    answer c₁ t₁ = answer c₂ t₂ := by
  unfold answer
  rw [h₁, h₂]

/-! ## Playing two runs -/

/-- Play the next commands of the two calls together, as long as the stores pass the check `f`. -/
def playTogether (M : Machine Op Res ε ρ Req σ Inp) (f : Op → σ → σ → Bool) (t₁ t₂ : ℕ) : List Inp →
    (List (Entry Op Res Req σ) × Config Op Res ε ρ σ) × (List (Entry Op Res Req σ) × Config Op Res ε ρ σ) →
    Option ((List (Entry Op Res Req σ) × Config Op Res ε ρ σ) ×
      (List (Entry Op Res Req σ) × Config Op Res ε ρ σ))
  | [], runs => some runs
  | i :: is, ((tr₁, c₁), (tr₂, c₂)) =>
    match M.step c₁ (.go t₁ i), M.step c₂ (.go t₂ i) with
    | some (.act u₁ a₁, c₁'), some (.act u₂ a₂, c₂') =>
      if u₁ = t₁ ∧ u₂ = t₂ ∧ f a₁.op c₁.store c₂.store = true then
        playTogether M f t₁ t₂ is ((⟨c₁.store, .act u₁ a₁⟩ :: tr₁, c₁'), (⟨c₂.store, .act u₂ a₂⟩ :: tr₂, c₂'))
      else none
    | _, _ => none

/-- What is played together is a pair of runs. -/
theorem Paired.of_playTogether {f : Op → σ → σ → Bool} (hf : ∀ o s₁ s₂, f o s₁ s₂ = true → R o s₁ s₂)
    {is : List Inp} {runs : (List (Entry Op Res Req σ) × Config Op Res ε ρ σ) ×
      (List (Entry Op Res Req σ) × Config Op Res ε ρ σ)} (h : Paired M R q tr₁ c₁ t₁ tr₂ c₂ t₂)
    (hplay : playTogether M f t₁ t₂ is ((tr₁, c₁), (tr₂, c₂)) = some runs) :
    Paired M R q runs.1.1 runs.1.2 t₁ runs.2.1 runs.2.2 t₂ := by
  induction is generalizing tr₁ c₁ tr₂ c₂ with
  | nil =>
    obtain rfl := Option.some.inj hplay
    exact h
  | cons i is ih =>
    simp only [playTogether] at hplay
    split at hplay
    · rename_i u₁ a₁ c₁' u₂ a₂ c₂' hs₁ hs₂
      split_ifs at hplay with hcheck
      obtain ⟨rfl, rfl, hagree⟩ := hcheck
      exact ih (.both i h (hf _ _ _ hagree) hs₁ hs₂) hplay
    · simp at hplay

end SdidBridge.Concurrent
