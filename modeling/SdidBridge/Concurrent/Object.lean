import SdidBridge.Concurrent.System

/-!
# The objects of a store

A store is made of objects: a table, a key space of a cache, a clock. An object is changed by its
own commands only, so that its state is decided by their history, and a property of that history is
proved over the object's few commands and not over all those of the system. `Object.history` is the
link from a run of the system to the history of one of its objects.
-/

namespace SdidBridge.Concurrent

variable {Op : Type} {Res : Op → Type} {ε ρ Req σ Inp : Type}
  {Op' : Type} {Res' : Op' → Type} {τ : Type}

/-- The histories of an object with the steps `Step`: the commands executed on it, newest first,
each with the number of its call, and the state that they lead to from `s₀`. -/
inductive History (Step : τ → Act Op' Res' → τ → Prop) (s₀ : τ) :
    List (ℕ × Act Op' Res') → τ → Prop
  | nil : History Step s₀ [] s₀
  | cons {h s s'} (t : ℕ) (a : Act Op' Res') (hh : History Step s₀ h s) (hs : Step s a s') :
    History Step s₀ ((t, a) :: h) s'

namespace History

variable {Step : τ → Act Op' Res' → τ → Prop} {s₀ s : τ} {h h₁ h₂ : List (ℕ × Act Op' Res')}

/-- An object has been through every earlier part of its history, and has evolved from there. -/
theorem split {R : τ → τ → Prop} (hrefl : ∀ s, R s s)
    (htrans : ∀ s₁ s₂ s₃, R s₁ s₂ → R s₂ s₃ → R s₁ s₃)
    (hR : ∀ s a s', Step s a s' → R s s') (hh : History Step s₀ (h₁ ++ h₂) s) :
    ∃ s', History Step s₀ h₂ s' ∧ R s' s := by
  induction h₁ generalizing s with
  | nil => exact ⟨s, hh, hrefl s⟩
  | cons x l ih =>
    cases hh with
    | cons t a hh hs =>
      obtain ⟨s', hh', hr⟩ := ih hh
      exact ⟨s', hh', htrans _ _ _ hr (hR _ _ _ hs)⟩

/-- The step of one command of a history, and how the object evolved after it. -/
theorem at_act {R : τ → τ → Prop} (hrefl : ∀ s, R s s)
    (htrans : ∀ s₁ s₂ s₃, R s₁ s₂ → R s₂ s₃ → R s₁ s₃)
    (hR : ∀ s a s', Step s a s' → R s s') {t : ℕ} {a : Act Op' Res'}
    (hh : History Step s₀ (h₁ ++ (t, a) :: h₂) s) :
    ∃ s₁ s₂, History Step s₀ h₂ s₁ ∧ Step s₁ a s₂ ∧ R s₂ s := by
  obtain ⟨s', hh', hr⟩ := hh.split hrefl htrans hR
  cases hh' with
  | cons t a hh hs => exact ⟨_, _, hh, hs, hr⟩

/-- A property of the state that holds at the start and that every step keeps. -/
theorem invariant {P : τ → Prop} (h₀ : P s₀) (hP : ∀ s a s', Step s a s' → P s → P s')
    (hh : History Step s₀ h s) : P s := by
  induction hh with
  | nil => exact h₀
  | cons t a _ hs ih => exact hP _ _ _ hs ih

/-- What every command of a history has left behind, when later commands keep it. -/
theorem recorded {Q : Act Op' Res' → τ → Prop} (hnew : ∀ s a s', Step s a s' → Q a s')
    (hkeep : ∀ a s b s', Step s b s' → Q a s → Q a s') (hh : History Step s₀ h s) {t : ℕ}
    {a : Act Op' Res'} (ha : (t, a) ∈ h) : Q a s := by
  induction hh with
  | nil => simp at ha
  | cons u b _ hs ih =>
    rcases List.mem_cons.mp ha with heq | ha
    · simp only [Prod.mk.injEq] at heq
      rw [heq.2]
      exact hnew _ _ _ hs
    · exact hkeep _ _ _ _ hs (ih ha)

end History

/-- An object of a machine's store: the part `get` of the store, which only the commands that
`embed` makes from the object's own read and change. -/
structure Object (M : Machine Op Res ε ρ Req σ Inp) (Op' : Type) (Res' : Op' → Type)
    (τ : Type) where
  /-- The object's state. -/
  get : σ → τ
  /-- A command of the object as one of the machine. -/
  embed : Act Op' Res' → Act Op Res
  /-- The command of the object that a command of the machine is. -/
  view : Act Op Res → Option (Act Op' Res')
  /-- The two are inverse. -/
  view_eq : ∀ {a a'}, view a = some a' ↔ a = embed a'
  /-- What its commands do to it. -/
  Step : τ → Act Op' Res' → τ → Prop
  /-- A command of the object is one of its steps. -/
  exec_step : ∀ {i s o r s' a}, M.exec i s o = some (r, s') → view ⟨o, r⟩ = some a →
    Step (get s) a (get s')
  /-- Any other command leaves the object alone. -/
  exec_frame : ∀ {i s o r s'}, M.exec i s o = some (r, s') → view ⟨o, r⟩ = none →
    get s' = get s
  /-- A command that fails leaves the object alone. -/
  fail_step : ∀ {s o a}, view ⟨o, none⟩ = some a → Step (get s) a (get s)
  /-- The environment leaves the object alone. -/
  env_frame : ∀ {i s s'}, M.env i s = some s' → get s' = get s

namespace Object

variable {M : Machine Op Res ε ρ Req σ Inp} (X : Object M Op' Res' τ)
  {tr l₁ l₂ : List (Entry Op Res Req σ)} {c : Config Op Res ε ρ σ}

/-- The object in another machine with the same commands. -/
def onMachine {ε' ρ' Req' : Type} (M' : Machine Op Res ε' ρ' Req' σ Inp) (hexec : M'.exec = M.exec)
    (henv : M'.env = M.env) : Object M' Op' Res' τ where
  get := X.get
  embed := X.embed
  view := X.view
  view_eq := X.view_eq
  Step := X.Step
  exec_step hx := X.exec_step (hexec ▸ hx)
  exec_frame hx := X.exec_frame (hexec ▸ hx)
  fail_step := X.fail_step
  env_frame hx := X.env_frame (henv ▸ hx)

/-- The history of the object in a run. -/
def acts (tr : List (Entry Op Res Req σ)) : List (ℕ × Act Op' Res') :=
  tr.filterMap fun e => match e.event with
    | .act t a => (X.view a).map (t, ·)
    | _ => none

theorem acts_append : X.acts (l₁ ++ l₂) = X.acts l₁ ++ X.acts l₂ :=
  List.filterMap_append

theorem view_embed (a' : Act Op' Res') : X.view (X.embed a') = some a' := X.view_eq.mpr rfl

theorem acts_cons_act {s : σ} {t : ℕ} {a' : Act Op' Res'} :
    X.acts (⟨s, .act t (X.embed a')⟩ :: tr) = (t, a') :: X.acts tr := by
  simp [acts, X.view_embed]

theorem mem_acts {t : ℕ} {a' : Act Op' Res'} : (t, a') ∈ X.acts tr ↔ Did tr t (X.embed a') := by
  simp only [acts, List.mem_filterMap, Did]
  constructor
  · rintro ⟨e, he, h⟩
    split at h
    · rename_i t' a ha
      simp only [Option.map_eq_some_iff, Prod.mk.injEq] at h
      obtain ⟨b, hb, rfl, rfl⟩ := h
      exact ⟨e, he, by rw [ha, X.view_eq.mp hb]⟩
    · simp at h
  · rintro ⟨e, he, ha⟩
    exact ⟨e, he, by simp [ha, X.view_embed]⟩

/-- What an entry does to the object. -/
theorem leads {e : Entry Op Res Req σ} {s : σ} (hl : M.Leads e s) :
    (∃ t a', e.event = .act t (X.embed a') ∧ X.Step (X.get e.before) a' (X.get s)) ∨
    ((∀ t a, e.event = .act t a → X.view a = none) ∧ X.get s = X.get e.before) := by
  obtain ⟨s₀, ev⟩ := e
  cases ev with
  | arrive t q =>
    simp only [Machine.Leads] at hl
    exact .inr ⟨by simp, by rw [hl]⟩
  | env =>
    obtain ⟨i, hi⟩ := hl
    exact .inr ⟨by simp, X.env_frame hi⟩
  | act t a =>
    obtain ⟨o, r⟩ := a
    cases hv : X.view ⟨o, r⟩ with
    | some a' =>
      refine .inl ⟨t, a', by rw [X.view_eq.mp hv], ?_⟩
      rcases hl with ⟨i, hi⟩ | ⟨hnone, -, rfl⟩
      · exact X.exec_step hi hv
      · simp only at hnone
        subst hnone
        exact X.fail_step hv
    | none =>
      refine .inr ⟨?_, ?_⟩
      · intro t' a h
        simp only [Event.act.injEq] at h
        rw [← h.2, hv]
      · rcases hl with ⟨i, hi⟩ | ⟨-, -, rfl⟩
        · exact X.exec_frame hi hv
        · rfl

/-- The state of an object is the one that its history leads to. -/
theorem history (hr : M.Reach tr c) :
    History X.Step (X.get M.init) (X.acts tr) (X.get c.store) := by
  induction hr with
  | init => exact .nil
  | step hr hs ih =>
    rename_i tr c m e c'
    rcases X.leads (Machine.step_leads hs) with ⟨t, a', he, hst⟩ | ⟨hno, heq⟩
    · simp only at he
      subst he
      rw [X.acts_cons_act]
      exact .cons t a' ih hst
    · have : X.acts (⟨c.store, e⟩ :: tr) = X.acts tr := by
        unfold acts
        rw [List.filterMap_cons_none]
        cases e with
        | act t a => simp [hno t a rfl]
        | arrive t q => rfl
        | env => rfl
      rw [this, heq]
      exact ih

/-- The state of an object before an entry is the one that its history up to there leads to. -/
theorem history_before {e : Entry Op Res Req σ} (hr : M.Reach (l₁ ++ e :: l₂) c) :
    History X.Step (X.get M.init) (X.acts l₂) (X.get e.before) := by
  obtain ⟨c₀, m, c₁, hr₀, hb, -⟩ := hr.entry
  rw [← hb]
  exact X.history hr₀

/-- What a command of the object does to it. -/
theorem leads_act {s s' : σ} {t : ℕ} (a' : Act Op' Res')
    (hl : M.Leads ⟨s, .act t (X.embed a')⟩ s') : X.Step (X.get s) a' (X.get s') := by
  rcases X.leads hl with ⟨t', b', he, hst⟩ | ⟨hno, -⟩
  · simp only [Event.act.injEq] at he
    have hb' : a' = b' := by
      have := X.view_embed a'
      rw [he.2, X.view_embed, Option.some.injEq] at this
      exact this.symm
    rw [hb']
    exact hst
  · have := hno t _ rfl
    simp [X.view_embed] at this

/-- The step that a command of a run does on its object. -/
theorem step_at {s : σ} {t : ℕ} (a' : Act Op' Res')
    (hr : M.Reach (l₁ ++ ⟨s, .act t (X.embed a')⟩ :: l₂) c) : ∃ x, X.Step (X.get s) a' x := by
  obtain ⟨c₀, m, c₁, -, hb, hs⟩ := hr.entry
  have hl := Machine.step_leads hs
  rw [hb] at hl
  exact ⟨_, X.leads_act a' hl⟩

/-- How an object has evolved since an entry of a run. -/
theorem evolves {R : τ → τ → Prop} (hrefl : ∀ x, R x x)
    (htrans : ∀ x y z, R x y → R y z → R x z) (hR : ∀ x a y, X.Step x a y → R x y)
    (hr : M.Reach tr c) {e : Entry Op Res Req σ} (he : e ∈ tr) :
    R (X.get e.before) (X.get c.store) := by
  refine hr.stable (P := fun s => R (X.get e.before) (X.get s)) ?_ e he (hrefl _)
  intro e' _ s hl hR'
  rcases X.leads hl with ⟨t, a', -, hst⟩ | ⟨-, heq⟩
  · exact htrans _ _ _ hR' (hR _ _ _ hst)
  · rwa [heq]

/-- A property of an object that holds at the start and that each of its commands keeps. -/
theorem invariant {P : τ → Prop} (h₀ : P (X.get M.init)) (hP : ∀ x a y, X.Step x a y → P x → P y)
    (hr : M.Reach tr c) : P (X.get c.store) :=
  (X.history hr).invariant h₀ hP

/-- Where in a run the object executed one of its commands. -/
theorem acts_split {t : ℕ} {a' : Act Op' Res'} {h₁ h₂ : List (ℕ × Act Op' Res')}
    (h : X.acts tr = h₁ ++ (t, a') :: h₂) :
    ∃ l₁ s l₂, tr = l₁ ++ ⟨s, .act t (X.embed a')⟩ :: l₂ ∧ X.acts l₁ = h₁ ∧ X.acts l₂ = h₂ := by
  obtain ⟨l₁, l, rfl, hl₁, hl⟩ := List.filterMap_eq_append_iff.mp h
  obtain ⟨k₁, e, l₂, rfl, hk₁, he, hl₂⟩ := List.filterMap_eq_cons_iff.mp hl
  obtain ⟨s, ev⟩ := e
  cases ev with
  | arrive t' q => simp at he
  | env => simp at he
  | act t' a =>
    simp only [Option.map_eq_some_iff, Prod.mk.injEq] at he
    obtain ⟨b, hb, rfl, rfl⟩ := he
    refine ⟨l₁ ++ k₁, s, l₂, by rw [List.append_assoc, X.view_eq.mp hb], ?_, hl₂⟩
    have hnone : X.acts k₁ = [] := List.filterMap_eq_nil_iff.mpr hk₁
    rw [acts_append, hnone, List.append_nil]
    exact hl₁

end Object

end SdidBridge.Concurrent
