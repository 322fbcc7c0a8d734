import SdidBridge.Concurrent.Object
import Mathlib.Data.List.Nodup

/-!
# Tables of rows with keys

A table is a list of rows. `update` is `UPDATE ... SET ... WHERE ...`, which changes the rows that
meet a condition and reports how many they are (`count`); `insert` adds a row unless its key is taken.

`Writes` says what one command can do to a table, row by row. A table that is written so evolves by
`Evolves`: every row is still there, under its key and with the part of it that no command changes.
Two rows of one key that were seen at different times therefore agree on that part
(`agree_of_nodup`). And what a row says about its past is proved from the history of the table
(`History.rows`).
-/

namespace SdidBridge.Concurrent

variable {ρ κ σ : Type}

namespace Table

/-- Change the rows that meet `p` by `f`. -/
def update (p : ρ → Bool) (f : ρ → ρ) (rows : List ρ) : List ρ :=
  rows.map fun r => if p r then f r else r

/-- How many rows meet `p`. -/
def count (p : ρ → Bool) (rows : List ρ) : ℕ := (rows.filter p).length

/-- Add a row unless `taken` holds of a row that is there. -/
def insert (taken : ρ → Bool) (r : ρ) (rows : List ρ) : Option (List ρ) :=
  if rows.any taken then none else some (rows ++ [r])

theorem mem_update {p : ρ → Bool} {f : ρ → ρ} {rows : List ρ} {r : ρ} :
    r ∈ update p f rows ↔ ∃ r₀ ∈ rows, (if p r₀ then f r₀ else r₀) = r := by
  simp [update]

theorem update_mem {p : ρ → Bool} {f : ρ → ρ} {rows : List ρ} {r : ρ} (h : r ∈ rows) :
    (if p r then f r else r) ∈ update p f rows :=
  mem_update.mpr ⟨r, h, rfl⟩

/-- What is found under a key after the row of a key was changed. -/
theorem find_update {κ : Type} [DecidableEq κ] {key : ρ → κ} {f : ρ → ρ} (hf : ∀ r, key (f r) = key r)
    (k k' : κ) (rows : List ρ) : (update (fun r => key r = k) f rows).find? (fun r => key r = k') =
      (rows.find? fun r => key r = k').map fun r => if k' = k then f r else r := by
  unfold update
  induction rows with
  | nil => rfl
  | cons r rows ih =>
    have hkey : key (if key r = k then f r else r) = key r := by split_ifs <;> simp [hf]
    simp only [List.map_cons, List.find?_cons, decide_eq_true_eq, hkey]
    by_cases hk' : key r = k'
    · simp [hk']
    · simpa [hk'] using ih

/-- An update that no row meets. -/
@[simp] theorem update_false (f : ρ → ρ) (rows : List ρ) : update (fun _ => false) f rows = rows := by
  simp [update]

theorem insert_eq_some {taken : ρ → Bool} {r : ρ} {rows rows' : List ρ} :
    insert taken r rows = some rows' ↔ (∀ x ∈ rows, taken x = false) ∧ rows ++ [r] = rows' := by
  simp only [insert]
  split_ifs with h
  · simp only [List.any_eq_true] at h
    obtain ⟨x, hx, ht⟩ := h
    simp only [false_iff, not_and]
    intro hall
    simp [hall x hx] at ht
  · simp only [List.any_eq_true, not_exists, not_and, Bool.not_eq_true] at h
    simp only [Option.some.injEq, iff_and_self]
    exact fun _ => h

theorem insert_eq_none {taken : ρ → Bool} {r : ρ} {rows : List ρ} :
    insert taken r rows = none ↔ ∃ x ∈ rows, taken x = true := by
  simp [insert]

/-- A row that meets the condition is counted. -/
theorem count_ne_zero {p : ρ → Bool} {rows : List ρ} :
    count p rows ≠ 0 ↔ ∃ r ∈ rows, p r = true := by
  simp [count]

/-- An update after which no row newly meets `q` does not add to the rows that meet it. -/
theorem count_update_le {p q : ρ → Bool} {f : ρ → ρ} {rows : List ρ}
    (h : ∀ r ∈ rows, p r = true → q (f r) = true → q r = true) :
    count q (update p f rows) ≤ count q rows := by
  induction rows with
  | nil => simp [update, count]
  | cons r rows ih =>
    have ih' := ih fun r' hr' => h r' (List.mem_cons_of_mem _ hr')
    have hhead : q (if p r then f r else r) = true → q r = true := by
      split_ifs with hp
      · exact h r List.mem_cons_self hp
      · exact id
    simp only [update, count, List.map_cons] at ih' ⊢
    generalize (if p r then f r else r) = r' at hhead
    rw [List.filter_cons, List.filter_cons]
    split_ifs with h₁ h₂ h₂
    · simpa using ih'
    · exact absurd (hhead h₁) h₂
    · exact ih'.trans (Nat.le_succ _)
    · exact ih'

/-- A new row adds at most one. -/
theorem count_append_le (q : ρ → Bool) (rows : List ρ) (r : ρ) :
    count q (rows ++ [r]) ≤ count q rows + 1 := by
  simp only [count, List.filter_append, List.length_append]
  have : ([r].filter q).length ≤ 1 := List.length_filter_le q [r]
  omega

section Agree

variable {keep p : ρ → Bool} {rows rows' : List ρ} (h : rows.filter keep = rows'.filter keep)

include h

/-- Tables that agree on the rows to keep agree on those that meet a condition, where these are among them. -/
theorem filter_agree (hp : ∀ r ∈ rows, p r = true → keep r = true)
    (hp' : ∀ r ∈ rows', p r = true → keep r = true) : rows.filter p = rows'.filter p := by
  have hkept : ∀ l : List ρ, (∀ r ∈ l, p r = true → keep r = true) → (l.filter keep).filter p = l.filter p := by
    intro l hl
    rw [List.filter_filter]
    refine List.filter_congr fun r hr => ?_
    cases hpr : p r with
    | false => rfl
    | true => rw [hl r hr hpr, Bool.true_and]
  calc rows.filter p = (rows.filter keep).filter p := (hkept rows hp).symm
    _ = (rows'.filter keep).filter p := by rw [h]
    _ = rows'.filter p := hkept rows' hp'

theorem find_agree (hp : ∀ r ∈ rows, p r = true → keep r = true)
    (hp' : ∀ r ∈ rows', p r = true → keep r = true) : rows.find? p = rows'.find? p := by
  rw [← List.head?_filter, ← List.head?_filter, filter_agree h hp hp']

theorem count_agree (hp : ∀ r ∈ rows, p r = true → keep r = true)
    (hp' : ∀ r ∈ rows', p r = true → keep r = true) : count p rows = count p rows' := by
  unfold count
  rw [filter_agree h hp hp']

theorem insert_agree {r : ρ} (hp : ∀ r ∈ rows, p r = true → keep r = true)
    (hp' : ∀ r ∈ rows', p r = true → keep r = true) :
    (insert p r rows).isSome = (insert p r rows').isSome := by
  have hany : rows.any p = rows'.any p := by
    rw [← List.isSome_find?, ← List.isSome_find?, find_agree h hp hp']
  unfold insert
  rw [hany]
  split_ifs <;> rfl

/-- Tables that agree on the rows to keep find the same row under a key, or both none to keep. -/
theorem find_agree_or [DecidableEq κ] {key : ρ → κ} (hn : (rows.map key).Nodup) (hn' : (rows'.map key).Nodup)
    (k : κ) : rows.find? (fun r => key r = k) = rows'.find? (fun r => key r = k) ∨
      (∀ r, rows.find? (fun r => key r = k) = some r → keep r = false) ∧
      ∀ r, rows'.find? (fun r => key r = k) = some r → keep r = false := by
  -- The row to keep under the key, if there is one, is the one that is found.
  have hfound : ∀ l : List ρ, (l.map key).Nodup → ∀ r ∈ l.filter keep, key r = k →
      l.find? (fun r => key r = k) = some r := by
    intro l hl r hr hk
    have hmem : r ∈ l := List.mem_of_mem_filter hr
    cases hfind : l.find? (fun r => key r = k) with
    | none =>
      rw [List.find?_eq_none] at hfind
      exact absurd hk (by simpa using hfind r hmem)
    | some r' =>
      have hk' : key r' = k := by simpa using List.find?_some hfind
      rw [List.inj_on_of_nodup_map hl (List.mem_of_find?_eq_some hfind) hmem (hk'.trans hk.symm)]
  by_cases hex : ∃ r ∈ rows.filter keep, key r = k
  · obtain ⟨r, hr, hk⟩ := hex
    left
    rw [hfound rows hn r hr hk, hfound rows' hn' r (h ▸ hr) hk]
  · right
    have hnone : ∀ l : List ρ, l.filter keep = rows.filter keep → ∀ r,
        l.find? (fun r => key r = k) = some r → keep r = false := by
      intro l hl r hr
      rw [Bool.eq_false_iff]
      intro hkeep
      refine hex ⟨r, ?_, by simpa using List.find?_some hr⟩
      rw [← hl]
      exact List.mem_filter.mpr ⟨List.mem_of_find?_eq_some hr, hkeep⟩
    exact ⟨hnone rows rfl, hnone rows' h.symm⟩

end Agree

end Table

/-- How a table evolves: every row is still there, under its key and with its fixed part. -/
def Evolves (key : ρ → κ) (fixed : ρ → σ) (rows rows' : List ρ) : Prop :=
  ∀ r ∈ rows, ∃ r' ∈ rows', key r' = key r ∧ fixed r' = fixed r

namespace Evolves

variable {key : ρ → κ} {fixed : ρ → σ} {rows rows' rows'' : List ρ}

theorem refl (rows : List ρ) : Evolves key fixed rows rows := fun r hr => ⟨r, hr, rfl, rfl⟩

theorem trans (h : Evolves key fixed rows rows') (h' : Evolves key fixed rows' rows'') :
    Evolves key fixed rows rows'' := by
  intro r hr
  obtain ⟨r', hr', hk, hf⟩ := h r hr
  obtain ⟨r'', hr'', hk', hf'⟩ := h' r' hr'
  exact ⟨r'', hr'', hk'.trans hk, hf'.trans hf⟩

end Evolves

/-- Two rows of one key agree on their fixed part, when both are still in a table whose keys are
different. -/
theorem agree_of_nodup {key : ρ → κ} {fixed : ρ → σ} {k : σ → κ} (hk : ∀ r, k (fixed r) = key r)
    {rows : List ρ} (hn : (rows.map key).Nodup) {r r' : ρ} (h : ∃ x ∈ rows, fixed x = fixed r)
    (h' : ∃ x ∈ rows, fixed x = fixed r') (hkey : key r = key r') : fixed r = fixed r' := by
  obtain ⟨x, hx, hxr⟩ := h
  obtain ⟨y, hy, hyr⟩ := h'
  have hxy : key x = key y :=
    calc key x = key r := by rw [← hk, hxr, hk]
      _ = key r' := hkey
      _ = key y := by rw [← hk, ← hyr, hk]
  rw [← hxr, ← hyr, List.inj_on_of_nodup_map hn hx hy hxy]

/-- What one command can do to a table: it inserts a row that `New` allows under a key that is not
taken, or it changes some rows, each as `Change` allows. -/
inductive Writes (key : ρ → κ) (New : ρ → Prop) (Change : ρ → ρ → Prop) (rows : List ρ) :
    List ρ → Prop
  /-- A new row. -/
  | insert {r : ρ} (hfree : ∀ x ∈ rows, key x ≠ key r) (hnew : New r) :
    Writes key New Change rows (rows ++ [r])
  /-- Changed rows. -/
  | update (p : ρ → Bool) (f : ρ → ρ) (hf : ∀ r ∈ rows, p r = true → Change r (f r)) :
    Writes key New Change rows (Table.update p f rows)

namespace Writes

variable {key : ρ → κ} {fixed : ρ → σ} {New : ρ → Prop} {Change : ρ → ρ → Prop} {rows rows' : List ρ}

/-- A command that reads. -/
theorem read (rows : List ρ) : Writes key New Change rows rows := by
  have := @Writes.update _ _ key New Change rows (fun _ => false) id (by simp)
  rwa [Table.update_false] at this

/-- The same with less said about the changes. -/
theorem mono {Change' : ρ → ρ → Prop} (h : Writes key New Change rows rows')
    (hc : ∀ r r', Change r r' → Change' r r') : Writes key New Change' rows rows' := by
  cases h with
  | insert hfree hnew => exact .insert hfree hnew
  | update p f hf => exact .update p f fun r hr hp => hc _ _ (hf r hr hp)

/-- What becomes of a row. -/
theorem later (h : Writes key New Change rows rows') {r : ρ} (hr : r ∈ rows) :
    ∃ r' ∈ rows', r' = r ∨ Change r r' := by
  cases h with
  | insert _ _ => exact ⟨r, List.mem_append_left _ hr, .inl rfl⟩
  | update p f hf =>
    refine ⟨_, Table.update_mem hr, ?_⟩
    split_ifs with hp
    · exact .inr (hf r hr hp)
    · exact .inl rfl

/-- Where a row comes from. -/
theorem earlier (h : Writes key New Change rows rows') {r' : ρ} (hr : r' ∈ rows') :
    New r' ∨ ∃ r ∈ rows, r' = r ∨ Change r r' := by
  cases h with
  | insert _ hnew =>
    rcases List.mem_append.mp hr with hold | hnew'
    · exact .inr ⟨r', hold, .inl rfl⟩
    · rw [List.mem_singleton.mp hnew']
      exact .inl hnew
  | update p f hf =>
    obtain ⟨r, hold, rfl⟩ := Table.mem_update.mp hr
    refine .inr ⟨r, hold, ?_⟩
    split_ifs with hp
    · exact .inr (hf r hold hp)
    · exact .inl rfl

/-- The keys stay different. -/
theorem nodup (hkey : ∀ r r', Change r r' → key r' = key r) (h : Writes key New Change rows rows')
    (hn : (rows.map key).Nodup) : (rows'.map key).Nodup := by
  cases h with
  | insert hfree _ =>
    rw [List.map_append, List.nodup_append]
    refine ⟨hn, by simp, ?_⟩
    intro a ha b hb hab
    obtain ⟨x, hx, rfl⟩ := List.mem_map.mp ha
    simp only [List.map_cons, List.map_nil, List.mem_singleton] at hb
    exact hfree x hx (hab.trans hb)
  | update p f hf =>
    have hsame : (Table.update p f rows).map key = rows.map key := by
      simp only [Table.update, List.map_map]
      refine List.map_congr_left fun r hr => ?_
      simp only [Function.comp]
      split_ifs with hp
      · exact hkey _ _ (hf r hr hp)
      · rfl
    rwa [hsame]

/-- Every row is still there. -/
theorem evolves (hchange : ∀ r r', Change r r' → key r' = key r ∧ fixed r' = fixed r)
    (h : Writes key New Change rows rows') : Evolves key fixed rows rows' := by
  intro r hr
  obtain ⟨r', hr', rfl | hc⟩ := h.later hr
  · exact ⟨r', hr', rfl, rfl⟩
  · exact ⟨r', hr', hchange r r' hc⟩

end Writes

section History

variable {Op Op' : Type} {Res : Op → Type} {Res' : Op' → Type} {ε α Req τ Inp : Type}
  {Step : List ρ → Act Op' Res' → List ρ → Prop} {key : ρ → κ}
  {New : Act Op' Res' → ρ → Prop} {Change : Act Op' Res' → ρ → ρ → Prop}

/-- The rule for what rows say about their past: it holds of a new row, a change brings it about, and
a later command keeps it. -/
theorem History.rows {P : List (ℕ × Act Op' Res') → ρ → Prop} {h : List (ℕ × Act Op' Res')}
    {x : List ρ} (hwrites : ∀ x a x', Step x a x' → Writes key (New a) (Change a) x x')
    (hnew : ∀ t a h r, New a r → P ((t, a) :: h) r) (hkeep : ∀ p h r, P h r → P (p :: h) r)
    (hchange : ∀ t a h r r', Change a r r' → P h r → P ((t, a) :: h) r')
    (hh : History Step [] h x) : ∀ r ∈ x, P h r := by
  induction hh with
  | nil => simp
  | cons t a hh hs ih =>
    intro r' hr'
    rcases (hwrites _ _ _ hs).earlier hr' with hn | ⟨r, hr, rfl | hc⟩
    · exact hnew t a _ r' hn
    · exact hkeep _ _ _ (ih r' hr)
    · exact hchange t a _ r r' hc (ih r hr)

variable {M : Machine Op Res ε α Req τ Inp} (X : Object M Op' Res' (List ρ))
  {tr l₁ l₂ : List (Entry Op Res Req τ)} {c : Config Op Res ε α τ}
  (hwrites : ∀ x a x', X.Step x a x' → Writes key (New a) (Change a) x x')

include hwrites

/-- What becomes of a row in one step. -/
theorem Object.row_step {e : Entry Op Res Req τ} {s : τ} (hl : M.Leads e s) {r : ρ}
    (hr : r ∈ X.get e.before) :
    ∃ r' ∈ X.get s, r' = r ∨ ∃ t a, e.event = .act t (X.embed a) ∧ Change a r r' := by
  rcases X.leads hl with ⟨t, a, he, hstep⟩ | ⟨-, hsame⟩
  · obtain ⟨r', hr', rfl | hc⟩ := (hwrites _ _ _ hstep).later hr
    · exact ⟨r', hr', .inl rfl⟩
    · exact ⟨r', hr', .inr ⟨t, a, he, hc⟩⟩
  · rw [hsame]
    exact ⟨r, hr, .inl rfl⟩

/-- Where a row comes from in one step. -/
theorem Object.row_origin {e : Entry Op Res Req τ} {s : τ} (hl : M.Leads e s) {r' : ρ}
    (hr : r' ∈ X.get s) :
    (∃ t a, e.event = .act t (X.embed a) ∧ New a r') ∨
    ∃ r ∈ X.get e.before, r' = r ∨ ∃ t a, e.event = .act t (X.embed a) ∧ Change a r r' := by
  rcases X.leads hl with ⟨t, a, he, hstep⟩ | ⟨-, hsame⟩
  · rcases (hwrites _ _ _ hstep).earlier hr with hn | ⟨r, hr, rfl | hc⟩
    · exact .inl ⟨t, a, he, hn⟩
    · exact .inr ⟨r', hr, .inl rfl⟩
    · exact .inr ⟨r, hr, .inr ⟨t, a, he, hc⟩⟩
  · rw [hsame] at hr
    exact .inr ⟨r', hr, .inl rfl⟩

/-- The keys of a table are different in every state of a run. -/
theorem Object.nodup (hkey : ∀ a r r', Change a r r' → key r' = key r) (h₀ : X.get M.init = [])
    (hr : M.Reach tr c) : ((X.get c.store).map key).Nodup :=
  X.invariant (by rw [h₀]; exact List.nodup_nil)
    (fun x a x' hs => (hwrites x a x' hs).nodup (hkey a)) hr

/-- A row that was there at an entry of a run is still there, with its fixed part. -/
theorem Object.row_later (fixed : ρ → σ)
    (hchange : ∀ a r r', Change a r r' → key r' = key r ∧ fixed r' = fixed r)
    (hr : M.Reach tr c) {e : Entry Op Res Req τ} (he : e ∈ tr) {r : ρ} (hmem : r ∈ X.get e.before) :
    ∃ r' ∈ X.get c.store, key r' = key r ∧ fixed r' = fixed r :=
  X.evolves (R := Evolves key fixed) Evolves.refl (fun _ _ _ => Evolves.trans)
    (fun x a x' hs => (hwrites x a x' hs).evolves (hchange a)) hr he r hmem

end History

end SdidBridge.Concurrent
