import SdidBridge.Concurrent.Alone

/-!
# Two runs side by side

`Alike` compares what two programs do alone, each with its own way to execute commands: from related stores they end
in related stores, and their results are related too. A program whose commands are answered alike ends alike
(`Only.alike`), and the rules for a command on one side only relate programs that do not issue the same commands.
-/

namespace SdidBridge.Concurrent

open Prog

/-- The two results are the same exception, or values that `Q` relates. -/
inductive EndsAlike {ε α β : Type} (Q : α → β → Prop) : Except ε α → Except ε β → Prop
  /-- Both returned. -/
  | ok {a : α} {b : β} (hab : Q a b) : EndsAlike Q (.ok a) (.ok b)
  /-- Both threw the same. -/
  | error (e : ε) : EndsAlike Q (.error e) (.error e)

variable {Op : Type} {Res : Op → Type} {ε α α' β β' σ Inp : Type}

/-- Results that end alike with the same values are the same. -/
theorem EndsAlike.eq {x y : Except ε α} (h : EndsAlike (· = ·) x y) : x = y := by
  cases h with
  | ok hab => rw [hab]
  | error e => rfl

/-- Alone from stores that `R` relates, `p` and `q` end in stores that `R` relates, and their results in `Q`. -/
def Alike (exec exec' : Inp → σ → (o : Op) → Option (Option (Res o) × σ)) (R : σ → σ → Prop)
    (Q : α → β → Prop) (p : Prog Op Res ε α) (q : Prog Op Res ε β) : Prop :=
  ∀ ⦃s s' s₁ s₁' h h' x y⦄, R s s' → Alone exec s p h s₁ x → Alone exec' s' q h' s₁' y →
    R s₁ s₁' ∧ EndsAlike Q x y

/-- From related stores, both ways to execute the command answer the same and leave related stores. -/
def AnsweredAlike (exec exec' : Inp → σ → (o : Op) → Option (Option (Res o) × σ)) (R : σ → σ → Prop)
    (o : Op) : Prop :=
  ∀ ⦃i i' s s' r r' s₁ s₁'⦄, R s s' → exec i s o = some (r, s₁) → exec' i' s' o = some (r', s₁') →
    r = r' ∧ R s₁ s₁'

section Rules

variable {exec exec' : Inp → σ → (o : Op) → Option (Option (Res o) × σ)} {R : σ → σ → Prop}

theorem alike_pure {Q : α → β → Prop} {a : α} {b : β} (hab : Q a b) :
    Alike exec exec' R Q (pure a : Prog Op Res ε α) (pure b) := by
  intro s s' s₁ s₁' h h' x y hs hp hq
  obtain ⟨-, rfl, rfl⟩ := alone_pure.mp hp
  obtain ⟨-, rfl, rfl⟩ := alone_pure.mp hq
  exact ⟨hs, .ok hab⟩

theorem alike_throwing {Q : α → β → Prop} (e : ε) :
    Alike exec exec' R Q (throwing e : Prog Op Res ε α) (throwing e) := by
  intro s s' s₁ s₁' h h' x y hs hp hq
  obtain ⟨-, rfl, rfl⟩ := alone_throwing.mp hp
  obtain ⟨-, rfl, rfl⟩ := alone_throwing.mp hq
  exact ⟨hs, .error e⟩

/-- The rule for sequencing. -/
theorem Alike.bind {Q : α → β → Prop} {Q' : α' → β' → Prop} {p : Prog Op Res ε α} {q : Prog Op Res ε β}
    {f : α → Prog Op Res ε α'} {g : β → Prog Op Res ε β'} (hpq : Alike exec exec' R Q p q)
    (hfg : ∀ a b, Q a b → Alike exec exec' R Q' (f a) (g b)) :
    Alike exec exec' R Q' (p >>= f) (q >>= g) := by
  intro s s' s₁ s₁' h h' x y hs hp hq
  rcases alone_bind.mp hp with ⟨e, rfl, hthrew⟩ | ⟨a, t, l₁, l₂, -, hret, hrest⟩ <;>
    rcases alone_bind.mp hq with ⟨e', rfl, hthrew'⟩ | ⟨b, t', l₁', l₂', -, hret', hrest'⟩
  · obtain ⟨ht, hends⟩ := hpq hs hthrew hthrew'
    cases hends
    exact ⟨ht, .error e⟩
  · obtain ⟨-, hends⟩ := hpq hs hthrew hret'
    cases hends
  · obtain ⟨-, hends⟩ := hpq hs hret hthrew'
    cases hends
  · obtain ⟨ht, hends⟩ := hpq hs hret hret'
    cases hends with
    | ok hab => exact hfg a b hab ht hrest hrest'

/-- The rule for a command that is answered alike on both sides. -/
theorem alike_call {Q : α → β → Prop} {o : Op} {k : Option (Res o) → Prog Op Res ε α}
    {k' : Option (Res o) → Prog Op Res ε β} (ho : AnsweredAlike exec exec' R o)
    (hk : ∀ r, Alike exec exec' R Q (k r) (k' r)) : Alike exec exec' R Q (.call o k) (.call o k') := by
  intro s s' s₁ s₁' h h' x y hs hp hq
  obtain ⟨i, r, t, l, hx, hrest, -⟩ := alone_call.mp hp
  obtain ⟨i', r', t', l', hx', hrest', -⟩ := alone_call.mp hq
  obtain ⟨rfl, ht⟩ := ho hs hx hx'
  exact hk r ht hrest hrest'

/-- The rule for two commands whose answers `T` relates, unless both fail. -/
theorem alike_perform {Q : α → β → Prop} {e : ε} {o o' : Op} {f : Res o → Prog Op Res ε α}
    {g : Res o' → Prog Op Res ε β} {T : Res o → Res o' → Prop}
    (ho : ∀ ⦃i i' s s' r r' s₁ s₁'⦄, R s s' → exec i s o = some (r, s₁) → exec' i' s' o' = some (r', s₁') →
      R s₁ s₁' ∧ Option.Rel T r r')
    (hfg : ∀ v w, T v w → Alike exec exec' R Q (f v) (g w)) :
    Alike exec exec' R Q (perform e o >>= f) (perform e o' >>= g) := by
  refine Alike.bind ?_ hfg
  intro s s' s₁ s₁' h h' x y hs hp hq
  obtain ⟨i, r, hx, -, rfl⟩ := alone_perform.mp hp
  obtain ⟨i', r', hx', -, rfl⟩ := alone_perform.mp hq
  obtain ⟨ht, hrel⟩ := ho hs hx hx'
  refine ⟨ht, ?_⟩
  cases hrel with
  | some hvw => exact .ok hvw
  | none => exact .error e

/-- A program whose commands are all answered alike ends alike. -/
theorem Prog.Only.alike {C : Op → Prop} {p : Prog Op Res ε α} (hp : Only C p)
    (hC : ∀ o, C o → AnsweredAlike exec exec' R o) : Alike exec exec' R (· = ·) p p := by
  have hall : ∀ h : List (Act Op Res), Along (fun _ o => C o) (fun _ _ => True) h p →
      Alike exec exec' R (· = ·) p p := by
    clear hp
    induction p with
    | ret a => exact fun _ _ => alike_pure rfl
    | raise e => exact fun _ _ => alike_throwing e
    | call o k ih => exact fun h hp => alike_call (hC o hp.1) fun r => ih r _ (hp.2 r)
  exact hall [] (hp [])

/-- The rule for a command on one side only: it is answered, and leaves related stores. -/
theorem alike_perform_right {Q : α → β → Prop} {e : ε} {o : Op} {p : Prog Op Res ε α}
    {g : Res o → Prog Op Res ε β} {T : Res o → Prop}
    (ho : ∀ ⦃i s s' r s₁'⦄, R s s' → exec' i s' o = some (r, s₁') → R s s₁' ∧ ∃ v, r = some v ∧ T v)
    (hg : ∀ v, T v → Alike exec exec' R Q p (g v)) : Alike exec exec' R Q p (perform e o >>= g) := by
  intro s s' s₁ s₁' h h' x y hs hp hq
  rcases alone_bind.mp hq with ⟨e', rfl, hthrew⟩ | ⟨v, t, l₁, l₂, -, hret, hrest⟩
  · obtain ⟨i, r, hx, -, hres⟩ := alone_perform.mp hthrew
    obtain ⟨-, v, rfl, -⟩ := ho hs hx
    cases hres
  · obtain ⟨i, r, hx, -, hres⟩ := alone_perform.mp hret
    obtain ⟨ht, w, rfl, hw⟩ := ho hs hx
    cases hres
    exact hg v hw ht hp hrest

end Rules

/-! ## Programs that run -/

/-- A program runs alone when each of its commands can be executed in every store. -/
theorem Prog.Only.exists_alone {exec : Inp → σ → (o : Op) → Option (Option (Res o) × σ)} {C : Op → Prop}
    {p : Prog Op Res ε α} (hp : Only C p)
    (hC : ∀ o, C o → ∀ s, ∃ i r s', exec i s o = some (r, s')) (s : σ) :
    ∃ h s' x, Alone exec s p h s' x := by
  have hall : ∀ h : List (Act Op Res), Along (fun _ o => C o) (fun _ _ => True) h p →
      ∀ s, ∃ h s' x, Alone exec s p h s' x := by
    clear hp
    induction p with
    | ret a => exact fun _ _ s => ⟨[], s, .ok a, .ret s a⟩
    | raise e => exact fun _ _ s => ⟨[], s, .error e, .raise s e⟩
    | call o k ih =>
      intro h hp s
      obtain ⟨i, r, s₁, hx⟩ := hC o hp.1 s
      obtain ⟨h', s', x, hk⟩ := ih r _ (hp.2 r) s₁
      exact ⟨_, s', x, .call hx hk⟩
  exact hall [] (hp []) s

/-- A sequence runs when its first part does, and its second part wherever the first one returned. -/
theorem exists_alone_bind {exec : Inp → σ → (o : Op) → Option (Option (Res o) × σ)} {p : Prog Op Res ε α}
    {f : α → Prog Op Res ε β} {s : σ} (hp : ∃ h s' x, Alone exec s p h s' x)
    (hf : ∀ h s' a, Alone exec s p h s' (.ok a) → ∃ h' s'' y, Alone exec s' (f a) h' s'' y) :
    ∃ h s' x, Alone exec s (p >>= f) h s' x := by
  obtain ⟨h, s', x, hp⟩ := hp
  cases x with
  | error e => exact ⟨h, s', .error e, alone_bind.mpr (.inl ⟨e, rfl, hp⟩)⟩
  | ok a =>
    obtain ⟨h', s'', y, hrest⟩ := hf h s' a hp
    exact ⟨h' ++ h, s'', y, hp.bind hrest⟩

end SdidBridge.Concurrent
