import SdidBridge.Concurrent.System

/-!
# References that do not dangle

A store has things, which are never taken out of it, and refers to things. A call that stores a reference has been told
of the thing by an answer, and an answer tells of what the store has or refers to. Then every reference of the store is
to a thing that it has (`Reach.closed`), without any command that checks this: what a call was told stays true, however
many others write between the answer and the command that uses it.
-/

namespace SdidBridge.Concurrent.Machine

open Prog

variable {Op : Type} {Res : Op → Type} {ε ρ Req σ Inp κ : Type}

/-- Every thing that the store refers to is there. -/
def Closed (Has Refers : σ → κ → Prop) (s : σ) : Prop :=
  ∀ k, Refers s k → Has s k

/-- How the commands of a machine treat things and references. -/
structure KeepsReferences (M : Machine Op Res ε ρ Req σ Inp) (Has Refers : σ → κ → Prop)
    (Stores : Op → κ → Prop) (Names : Act Op Res → κ → Prop) : Prop where
  /-- At the start no reference dangles. -/
  init : Closed Has Refers M.init
  /-- A thing stays. -/
  has : ∀ {e s k}, M.Leads e s → Has e.before k → Has s k
  /-- A reference was there before, or the command has stored it. -/
  refers : ∀ {e s k}, M.Leads e s → Refers s k →
    Refers e.before k ∨ ∃ t a, e.event = .act t a ∧ Stores a.op k
  /-- An answer tells of a thing that is there, or that the store refers to. -/
  names : ∀ {s s' t a k}, M.Leads ⟨s, .act t a⟩ s' → Names a k → Has s' k ∨ Refers s k

/-- Each thing that a command stores a reference to is one that the request brings, or that the call has been told of. -/
def ToldOn (Stores : Op → κ → Prop) (Names : Act Op Res → κ → Prop) (Brings : κ → Prop) (h : List (Act Op Res))
    (o : Op) : Prop :=
  ∀ k, Stores o k → Brings k ∨ ∃ a ∈ h, Names a k

section Told

variable {Stores : Op → κ → Prop} {Names : Act Op Res → κ → Prop} {Brings : κ → Prop} {h : List (Act Op Res)} {o : Op}

theorem toldOn_of_storesNothing (ho : ∀ k, ¬ Stores o k) : ToldOn Stores Names Brings h o :=
  fun k hk => absurd hk (ho k)

end Told

variable {M : Machine Op Res ε ρ Req σ Inp} {Has Refers : σ → κ → Prop} {Stores : Op → κ → Prop}
  {Names : Act Op Res → κ → Prop} {Brings : Req → κ → Prop} {tr : List (Entry Op Res Req σ)} {c : Config Op Res ε ρ σ}

/-- When no reference dangled before a step, what the call was told of then is there after it. -/
theorem KeepsReferences.told (hM : M.KeepsReferences Has Refers Stores Names) {s s' : σ} {t : ℕ}
    {a : Act Op Res} {k : κ} (hl : M.Leads ⟨s, .act t a⟩ s') (hs : Closed Has Refers s) (ha : Names a k) :
    Has s' k := by
  rcases hM.names hl ha with hhas | hrefers
  · exact hhas
  · have hbefore : Has s k := hs k hrefers
    exact hM.has hl hbefore

/-- In every run whose handlers store only what they have been told of, and whose requests bring only what is there, no
reference dangles. -/
theorem Reach.closed (hM : M.KeepsReferences Has Refers Stores Names) (hr : M.Reach tr c)
    (hbrought : ∀ s t q k, ⟨s, .arrive t q⟩ ∈ tr → Brings q k → Has s k)
    (hA : ∀ q, Along (ToldOn Stores Names (Brings q)) (fun _ _ => True) [] (M.handler q)) :
    Closed Has Refers c.store := by
  -- Along with it: what any request has brought, and what any call was told of, is there.
  suffices h : Closed Has Refers c.store ∧ (∀ t q k, Arrived tr t q → Brings q k → Has c.store k) ∧
      ∀ t a k, Did tr t a → Names a k → Has c.store k from h.1
  induction hr with
  | init => exact ⟨hM.init, fun t q k ⟨e, he, _⟩ => absurd he (by simp), fun t a k ⟨e, he, _⟩ => absurd he (by simp)⟩
  | @step tr c m e c' hr hs ih =>
    have hl : M.Leads ⟨c.store, e⟩ c'.store := step_leads hs
    obtain ⟨hclosed, hgiven, htold⟩ := ih fun s t q k hq => hbrought s t q k (List.mem_cons_of_mem _ hq)
    refine ⟨fun k hk => ?_, ?_, ?_⟩
    · rcases hM.refers hl hk with hold | ⟨t, a, hact, hstores⟩
      · exact hM.has hl (hclosed k hold)
      · -- The call of a command that stores a reference was told of the thing before.
        replace hact : e = .act t a := hact
        subst hact
        obtain ⟨q, harrived, htoldOn⟩ := (Reach.step hr hs).newest.act_along hA
        rcases htoldOn k hstores with hbrings | ⟨a', ha', hnames⟩
        · exact hM.has hl (hgiven t q k harrived hbrings)
        · exact hM.has hl (htold t a' k (mem_own.mp ha') hnames)
    · rintro t q k ⟨e', he', harrive⟩ hbrings
      rcases List.mem_cons.mp he' with rfl | hold
      · replace harrive : e = .arrive t q := harrive
        subst harrive
        exact hM.has hl (hbrought c.store t q k List.mem_cons_self hbrings)
      · exact hM.has hl (hgiven t q k ⟨e', hold, harrive⟩ hbrings)
    · rintro t a k ⟨e', he', hact⟩ hnames
      rcases List.mem_cons.mp he' with rfl | hold
      · replace hact : e = .act t a := hact
        subst hact
        exact hM.told hl hclosed hnames
      · exact hM.has hl (htold t a k ⟨e', hold, hact⟩ hnames)

end SdidBridge.Concurrent.Machine
