import SdidBridge.Concurrent.Prog

/-!
# What a program ensures

`Ensures Φ h p Q` says that each command of the program `p`, which starts after the commands `h`, meets `Φ`, and that
`Q` holds of what `p` returns and of the commands up to there. Of a program that throws it says nothing at the end. There
is one rule for each way to build a program, so that a proof follows the program.
-/

namespace SdidBridge.Concurrent.Prog

variable {Op : Type} {Res : Op → Type} {ε α β : Type}

/-- The commands of a program meet `Φ`, and what it returns meets `Q`. -/
def Ensures (Φ : List (Act Op Res) → Op → Prop) (h : List (Act Op Res)) (p : Prog Op Res ε α)
    (Q : α → List (Act Op Res) → Prop) : Prop :=
  Along Φ (fun h' r => ∀ a, r = .ok a → Q a h') h p

variable {Φ : List (Act Op Res) → Op → Prop} {h : List (Act Op Res)} {Q Q' : α → List (Act Op Res) → Prop}

theorem Ensures.mono {p : Prog Op Res ε α} (hp : Ensures Φ h p Q) (hQ : ∀ a h', Q a h' → Q' a h') :
    Ensures Φ h p Q' :=
  Along.mono hp (fun _ _ hΦ => hΦ) fun _ _ hr a ha => hQ a _ (hr a ha)

@[simp] theorem ensures_pure (a : α) : Ensures Φ h (pure a : Prog Op Res ε α) Q ↔ Q a h := by
  simp [Ensures]

@[simp] theorem ensures_throwing (e : ε) : Ensures Φ h (throwing e : Prog Op Res ε α) Q := by
  simp [Ensures]

/-- The rule for sequencing. -/
@[simp] theorem ensures_bind {R : β → List (Act Op Res) → Prop} (p : Prog Op Res ε α) (f : α → Prog Op Res ε β) :
    Ensures Φ h (p >>= f) R ↔ Ensures Φ h p fun a h' => Ensures Φ h' (f a) R := by
  unfold Ensures
  rw [along_bind]
  constructor
  · intro hp
    refine Along.mono hp (fun _ _ h => h) fun h' r hr a ha => ?_
    subst ha
    exact hr
  · intro hp
    refine Along.mono hp (fun _ _ h => h) fun h' r hr => ?_
    cases r with
    | ok a => exact hr a rfl
    | error e => simp

@[simp] theorem ensures_throwIf {Q : Unit → List (Act Op Res) → Prop} (c : Prop) [Decidable c] (e : ε) :
    Ensures Φ h (throwIf c e) Q ↔ (¬ c → Q () h) := by
  simp only [Ensures, along_throwIf]
  exact ⟨fun hp hc => hp.2 hc () trivial, fun hQ => ⟨fun _ => by simp, fun hc _ _ => hQ hc⟩⟩

@[simp] theorem ensures_orThrow (x : Option α) (e : ε) :
    Ensures Φ h (orThrow x e) Q ↔ ∀ a, x = some a → Q a h := by
  simp [Ensures]

@[simp] theorem ensures_ite (c : Prop) [Decidable c] (p p' : Prog Op Res ε α) :
    Ensures Φ h (if c then p else p') Q ↔ (c → Ensures Φ h p Q) ∧ (¬ c → Ensures Φ h p' Q) := by
  simp [Ensures]

@[simp] theorem ensures_onlyIf {Q : Unit → List (Act Op Res) → Prop} (c : Prop) [Decidable c] (p : Prog Op Res ε Unit) :
    Ensures Φ h (onlyIf c p) Q ↔ (c → Ensures Φ h p Q) ∧ (¬ c → Q () h) := by
  simp only [Ensures, along_onlyIf]
  refine and_congr_right fun _ => ⟨fun hp hc => hp hc () trivial, fun hQ hc _ _ => hQ hc⟩

@[simp] theorem ensures_perform {o : Op} (e : ε) {Q : Res o → List (Act Op Res) → Prop} :
    Ensures Φ h (perform e o) Q ↔ Φ h o ∧ ∀ r, Q r (⟨o, some r⟩ :: h) := by
  simp [Ensures]

/-- The rule for `catch`: the handler starts where the body threw. -/
theorem Ensures.recover {p : Prog Op Res ε α} {f : ε → Prog Op Res ε α} (hp : Ensures Φ h p Q)
    (hf : ∀ e h', Ensures Φ h' (f e) Q) : Ensures Φ h (p.recover f) Q := by
  unfold Ensures
  rw [along_recover]
  refine Along.mono hp (fun _ _ h => h) fun h' r hr => ?_
  cases r with
  | ok a => exact fun a' ha => hr a' ha
  | error e => exact hf e h'

/-- A program only adds to the commands. -/
theorem ensures_suffix (p : Prog Op Res ε α) : Ensures (fun _ _ => True) h p fun _ h' => h <:+ h' := by
  suffices hs : ∀ h', h <:+ h' → Ensures (fun _ _ => True) h' p fun _ h'' => h <:+ h'' from hs h List.suffix_rfl
  unfold Ensures
  induction p with
  | ret a => exact fun h' hs a _ => hs
  | raise e => exact fun h' hs => by simp
  | call o k ih => exact fun h' hs => ⟨trivial, fun r => ih r _ (hs.trans (List.suffix_cons _ _))⟩

/-- What a program ensures, with the commands that it starts after. -/
theorem Ensures.after {p : Prog Op Res ε α} (hp : Ensures Φ h p Q) :
    Ensures Φ h p fun a h' => h <:+ h' ∧ Q a h' :=
  (Along.and (ensures_suffix p) hp).mono (fun _ _ hΦ => hΦ.2) fun _ _ hr a ha => ⟨hr.1 a ha, hr.2 a ha⟩

end SdidBridge.Concurrent.Prog
