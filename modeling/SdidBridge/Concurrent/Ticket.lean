import SdidBridge.Concurrent.Object

/-!
# Tickets

A ticket is a value that is put into an object under a key and taken out of it by that key: a nonce,
a challenge, a one-time code. `Tickets` says what one command of the object can do to them. Then a
ticket that is taken was put there before, and nobody took it in between (`put_of_taken`). If a key
is never used twice, it is taken at most once (`taken_once`), and is never there again (`gone`).
-/

namespace SdidBridge.Concurrent

variable {Op Op' : Type} {Res : Op → Type} {Res' : Op' → Type} {ε ρ Req σ Inp τ κ α : Type}

/-- An object that keeps tickets: `Has x k v` when the ticket `v` is there under the key `k`, `Puts`
and `Takes` are the commands that put one there and take it, and `Drops` those after which there is
none. -/
structure Tickets (Step : τ → Act Op' Res' → τ → Prop) (Has : τ → κ → α → Prop)
    (Puts Takes : Act Op' Res' → κ → α → Prop) (Drops : Act Op' Res' → κ → Prop) : Prop where
  /-- Where a ticket comes from. -/
  origin : ∀ {x a x' k v}, Step x a x' → Has x' k v → Puts a k v ∨ (Has x k v ∧ ¬ Drops a k)
  /-- A ticket that is taken is there. -/
  taken : ∀ {x a x' k v}, Step x a x' → Takes a k v → Has x k v
  /-- A ticket that is taken is there no more. -/
  drops : ∀ {a k v}, Takes a k v → Drops a k
  /-- What puts a ticket there takes none. -/
  puts : ∀ {a k v}, Puts a k v → ¬ Drops a k

namespace Tickets

variable {Step : τ → Act Op' Res' → τ → Prop} {Has : τ → κ → α → Prop}
  {Puts Takes : Act Op' Res' → κ → α → Prop} {Drops : Act Op' Res' → κ → Prop}
  (T : Tickets Step Has Puts Takes Drops)

include T

/-- A ticket that is there was put there, and has not been dropped since. -/
theorem put_of_has {x₀ x : τ} {h : List (ℕ × Act Op' Res')} (hinit : ∀ k v, ¬ Has x₀ k v)
    (hh : History Step x₀ h x) {k : κ} {v : α} (hx : Has x k v) :
    ∃ h₁ t a h₂, h = h₁ ++ (t, a) :: h₂ ∧ Puts a k v ∧ ∀ p ∈ h₁, ¬ Drops p.2 k := by
  induction hh with
  | nil => exact absurd hx (hinit k v)
  | @cons h x x' t a hh hs ih =>
    rcases T.origin hs hx with hput | ⟨hold, hno⟩
    · exact ⟨[], t, a, h, rfl, hput, by simp⟩
    · obtain ⟨h₁, t', a', h₂, rfl, hput, hno'⟩ := ih hold
      refine ⟨(t, a) :: h₁, t', a', h₂, rfl, hput, ?_⟩
      intro p hp
      rcases List.mem_cons.mp hp with rfl | hp
      · exact hno
      · exact hno' p hp

variable {M : Machine Op Res ε ρ Req σ Inp} {X : Object M Op' Res' τ} (hX : X.Step = Step)
  (hinit : ∀ k v, ¬ Has (X.get M.init) k v) {l₁ l₂ : List (Entry Op Res Req σ)}
  {c : Config Op Res ε ρ σ} {s : σ} {t : ℕ} {a : Act Op' Res'} {k : κ} {v : α}

include hX hinit

/-- A ticket that is there at the end of a run was put there, and has not been dropped since. -/
theorem put_of_stored {tr : List (Entry Op Res Req σ)} (hr : M.Reach tr c)
    (hx : Has (X.get c.store) k v) :
    ∃ m₁ s₁ u b m₂, tr = m₁ ++ ⟨s₁, .act u (X.embed b)⟩ :: m₂ ∧ Puts b k v ∧
      ∀ w d, Did m₁ w (X.embed d) → ¬ Drops d k := by
  obtain ⟨h₁, u, b, h₂, hacts, hput, hno⟩ := T.put_of_has hinit (hX ▸ X.history hr) hx
  obtain ⟨m₁, s₁, m₂, rfl, rfl, -⟩ := X.acts_split hacts
  exact ⟨m₁, s₁, u, b, m₂, rfl, hput, fun w d hd => hno (w, d) (X.mem_acts.mpr hd)⟩

/-- A ticket that is taken was put there before, and has not been dropped since. -/
theorem put_of_taken (hr : M.Reach (l₁ ++ ⟨s, .act t (X.embed a)⟩ :: l₂) c) (ha : Takes a k v) :
    ∃ m₁ s₁ u b m₂, l₂ = m₁ ++ ⟨s₁, .act u (X.embed b)⟩ :: m₂ ∧ Puts b k v ∧
      ∀ w d, Did m₁ w (X.embed d) → ¬ Drops d k := by
  obtain ⟨x, hstep⟩ := X.step_at a hr
  obtain ⟨c₀, -, -, hr₀, hb, -⟩ := hr.entry
  have hx : Has (X.get s) k v := T.taken (hX ▸ hstep) ha
  rw [show s = c₀.store from hb.symm] at hx
  exact T.put_of_stored hX hinit hr₀ hx

section Once

variable (honce : ∀ {l₁ l₂ : List (Entry Op Res Req σ)} {c : Config Op Res ε ρ σ} {s : σ}
  {t u : ℕ} {a b : Act Op' Res'} {k : κ} {v w : α},
  M.Reach (l₁ ++ ⟨s, .act t (X.embed a)⟩ :: l₂) c → Puts a k v → Did l₂ u (X.embed b) → ¬ Puts b k w)

include honce

/-- Under a key that is used once, what was put there before a command is not put there after it. -/
theorem not_put_again {b : Act Op' Res'} (hr : M.Reach (l₁ ++ ⟨s, .act t (X.embed a)⟩ :: l₂) c)
    (ha : Takes a k v) {w : ℕ} {v' : α} (hd : Did l₁ w (X.embed b)) : ¬ Puts b k v' := by
  intro hb
  obtain ⟨m₁, s₁, u, d, m₂, hl₂, hput, -⟩ := T.put_of_taken hX hinit hr ha
  obtain ⟨k₁, s₂, k₂, rfl⟩ := hd.split
  rw [List.append_assoc, List.cons_append] at hr
  refine honce hr hb (u := u) (b := d) ?_ hput
  refine ⟨⟨s₁, .act u (X.embed d)⟩, ?_, rfl⟩
  rw [hl₂]
  simp

/-- A ticket is taken at most once. -/
theorem taken_once (hr : M.Reach (l₁ ++ ⟨s, .act t (X.embed a)⟩ :: l₂) c) (ha : Takes a k v)
    {u : ℕ} {b : Act Op' Res'} {w : α} (hd : Did l₂ u (X.embed b)) : ¬ Takes b k w := by
  intro hb
  obtain ⟨m₁, s₁, u', d, m₂, rfl, hput, hno⟩ := T.put_of_taken hX hinit hr ha
  obtain ⟨c₂, -, -, hr₂, -, -⟩ := hr.entry
  -- An earlier taking came before the ticket was put there, and had a putting of its own before it.
  obtain ⟨e, he, hev⟩ := hd
  rcases List.mem_append.mp he with hlate | he
  · exact hno u b ⟨e, hlate, hev⟩ (T.drops hb)
  rcases List.mem_cons.mp he with rfl | he
  · simp only [Event.act.injEq] at hev
    have heq : d = b := by
      have := X.view_embed b
      rw [← hev.2, X.view_embed, Option.some.injEq] at this
      exact this
    rw [heq] at hput
    exact T.puts hput (T.drops hb)
  obtain ⟨c₃, -, -, hr₃, -, -⟩ := hr₂.entry
  obtain ⟨n₁, s₂, n₂, rfl⟩ := Did.split ⟨e, he, hev⟩
  obtain ⟨k₁, s₃, w', d', k₂, rfl, hput', -⟩ := T.put_of_taken hX hinit hr₃ hb
  exact honce hr₂ hput ⟨⟨s₃, .act w' (X.embed d')⟩, by simp, rfl⟩ hput'

/-- Once it is taken, a ticket is never there again. -/
theorem gone (hr : M.Reach (l₁ ++ ⟨s, .act t (X.embed a)⟩ :: l₂) c) (ha : Takes a k v) {w : α} :
    ¬ Has (X.get c.store) k w := by
  refine hr.since (P := fun s => ∀ w, ¬ Has (X.get s) k w) ?_ ?_ w
  · intro s' hl w hx
    rcases T.origin (hX ▸ X.leads_act a hl) hx with hput | ⟨-, hno⟩
    · exact T.puts hput (T.drops ha)
    · exact hno (T.drops ha)
  · intro e he s' hl hnone w hx
    rcases X.leads hl with ⟨u, b, hev, hstep⟩ | ⟨-, hsame⟩
    · rcases T.origin (hX ▸ hstep) hx with hput | ⟨hold, -⟩
      · exact T.not_put_again hX hinit honce hr ha ⟨e, he, hev⟩ hput
      · exact hnone w hold
    · rw [hsame] at hx
      exact hnone w hx

end Once

end Tickets

end SdidBridge.Concurrent
