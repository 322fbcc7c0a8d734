import Mathlib.Algebra.GroupWithZero.Nat
import Mathlib.Algebra.BigOperators.Group.List.Basic
import SdidBridge.Codec.Reader

/-!
# Readers of nested items

A layout says which bytes an item has, how many items it is made of and how deep it is. Items lie ahead of
a cursor when their bytes come next and they are within a limit on items and a number of levels. A reader
that reads the items that lie ahead and nothing else makes loops that do: a given number of times, or until
the buffer ends.
-/

namespace SdidBridge.Codec

variable {α β ε : Type}

/-- How items of the type `α` are laid out. -/
structure Layout (α : Type) where
  /-- The bytes of an item. -/
  encode : α → List UInt8
  /-- How many items an item is made of. -/
  size : α → ℕ
  /-- How deep it is. -/
  height : α → ℕ

namespace Layout

variable {L : Layout α} {Valid : α → Prop} {limit : ℤ} {levels : ℕ} {c : Cursor} {x : α} {xs : List α}

/-- Valid items that lie ahead of the cursor, within the limit and the levels. -/
structure Ahead (L : Layout α) (Valid : α → Prop) (limit : ℤ) (levels : ℕ) (c : Cursor) (xs : List α) :
    Prop where
  valid : ∀ x ∈ xs, Valid x
  rest : ∃ r, c.rest = xs.flatMap L.encode ++ r
  items : ((c.count + (xs.map L.size).sum : ℕ) : ℤ) ≤ limit
  depth : ∀ x ∈ xs, L.height x < levels

/-- The cursor after them. -/
def after (L : Layout α) (c : Cursor) (xs : List α) : Cursor :=
  (c.skip (xs.flatMap L.encode).length).counted (xs.map L.size).sum

@[simp] theorem after_nil (c : Cursor) : L.after c [] = c := rfl

@[simp] theorem after_buf (c : Cursor) (xs : List α) : (L.after c xs).buf = c.buf := rfl

theorem after_singleton (c : Cursor) (x : α) :
    L.after c [x] = (c.skip (L.encode x).length).counted (L.size x) := by
  simp [after]

theorem after_cons (c : Cursor) (x : α) (xs : List α) : L.after c (x :: xs) = L.after (L.after c [x]) xs := by
  simp [after]

theorem after_rest {r : List UInt8} (hr : c.rest = xs.flatMap L.encode ++ r) : (L.after c xs).rest = r := by
  unfold after
  rw [Cursor.counted_rest, Cursor.skip_rest_of_append hr]

theorem Ahead.after_inside (h : L.Ahead Valid limit levels c xs) (hc : c.Inside) : (L.after c xs).Inside := by
  obtain ⟨r, hr⟩ := h.rest
  unfold after
  rw [Cursor.counted_inside]
  exact Cursor.skip_inside_of_append hc hr

/-- The count stays within its limit. -/
theorem Ahead.after_count (h : L.Ahead Valid limit levels c xs) : ((L.after c xs).count : ℤ) ≤ limit :=
  h.items

theorem ahead_nil (hitems : (c.count : ℤ) ≤ limit) : L.Ahead Valid limit levels c [] where
  valid := by simp
  rest := ⟨c.rest, rfl⟩
  items := by simpa using hitems
  depth := by simp

/-- One item lies ahead. -/
theorem ahead_singleton {r : List UInt8} (hvalid : Valid x) (hrest : c.rest = L.encode x ++ r)
    (hitems : ((c.count + L.size x : ℕ) : ℤ) ≤ limit) (hdepth : L.height x < levels) :
    L.Ahead Valid limit levels c [x] where
  valid := by simpa using hvalid
  rest := ⟨r, by simpa using hrest⟩
  items := by simpa using hitems
  depth := by simpa using hdepth

theorem Ahead.rest_singleton (h : L.Ahead Valid limit levels c [x]) : ∃ r, c.rest = L.encode x ++ r := by
  simpa using h.rest

theorem Ahead.items_singleton (h : L.Ahead Valid limit levels c [x]) :
    ((c.count + L.size x : ℕ) : ℤ) ≤ limit := by
  simpa using h.items

theorem Ahead.valid_singleton (h : L.Ahead Valid limit levels c [x]) : Valid x :=
  h.valid x List.mem_cons_self

theorem Ahead.depth_singleton (h : L.Ahead Valid limit levels c [x]) : L.height x < levels :=
  h.depth x List.mem_cons_self

/-- Items lie ahead when the first does, and the others after it. -/
theorem ahead_cons : L.Ahead Valid limit levels c (x :: xs) ↔
    L.Ahead Valid limit levels c [x] ∧ L.Ahead Valid limit levels (L.after c [x]) xs := by
  constructor
  · intro h
    obtain ⟨r, hr⟩ := h.rest
    have hitems := h.items
    rw [List.flatMap_cons, List.append_assoc] at hr
    rw [List.map_cons, List.sum_cons] at hitems
    have hone : L.Ahead Valid limit levels c [x] :=
      ahead_singleton (h.valid x List.mem_cons_self) hr (by omega) (h.depth x List.mem_cons_self)
    refine ⟨hone, ?_, ?_, ?_, ?_⟩
    · exact fun y hy => h.valid y (List.mem_cons_of_mem _ hy)
    · exact ⟨r, after_rest (by simpa using hr)⟩
    · simp only [after, Cursor.counted_count, Cursor.skip_count, List.map_cons, List.map_nil, List.sum_cons,
        List.sum_nil]
      omega
    · exact fun y hy => h.depth y (List.mem_cons_of_mem _ hy)
  · rintro ⟨hone, hxs⟩
    obtain ⟨r₁, hr₁⟩ := hone.rest
    obtain ⟨r, hr⟩ := hxs.rest
    rw [after_rest hr₁] at hr
    have hitems := hxs.items
    simp only [after, Cursor.counted_count, Cursor.skip_count, List.map_cons, List.map_nil, List.sum_cons,
      List.sum_nil] at hitems
    constructor
    · intro y hy
      obtain rfl | hy := List.mem_cons.mp hy
      · exact hone.valid_singleton
      · exact hxs.valid y hy
    · refine ⟨r, ?_⟩
      rw [hr₁, hr]
      simp
    · simp only [List.map_cons, List.sum_cons]
      omega
    · intro y hy
      obtain rfl | hy := List.mem_cons.mp hy
      · exact hone.depth_singleton
      · exact hxs.depth y hy

/-! ## Readers of the items that lie ahead -/

/-- `item` reads the items that lie ahead and nothing else, in buffers of at most `bound` bytes. What it
returns is its own view of an item. -/
structure Reads (L : Layout α) (Valid : α → Prop) (limit : ℤ) (bound levels : ℕ) (view : α → β)
    (item : Reader ε β) : Prop where
  sound : ∀ {c c' : Cursor} {b : β}, c.Inside → item c = .ok (b, c') →
    ∃ x, L.Ahead Valid limit levels c [x] ∧ b = view x ∧ c' = L.after c [x]
  complete : ∀ {c : Cursor} {x : α}, c.Inside → c.buf.length ≤ bound → L.Ahead Valid limit levels c [x] →
    item c = .ok (view x, L.after c [x])

section Loops

variable {bound : ℕ} {view : α → β} {item : Reader ε β} {n : ℕ} {c' : Cursor} {bs : List β}

theorem times_sound (hitem : L.Reads Valid limit bound levels view item) (hc : c.Inside)
    (hcount : (c.count : ℤ) ≤ limit) (h : Reader.times item n c = .ok (bs, c')) :
    ∃ xs, xs.length = n ∧ L.Ahead Valid limit levels c xs ∧ bs = xs.map view ∧ c' = L.after c xs := by
  induction n generalizing c bs with
  | zero =>
    obtain ⟨rfl, rfl⟩ := Reader.pure_eq_ok.mp h
    exact ⟨[], rfl, ahead_nil hcount, rfl, rfl⟩
  | succ n ih =>
    unfold Reader.times at h
    obtain ⟨b, c₁, hb, h⟩ := Reader.bind_eq_ok.mp h
    obtain ⟨bs', c₂, hbs, h⟩ := Reader.bind_eq_ok.mp h
    obtain ⟨rfl, rfl⟩ := Reader.pure_eq_ok.mp h
    obtain ⟨x, hx, rfl, rfl⟩ := hitem.sound hc hb
    obtain ⟨xs, rfl, hxs, rfl, rfl⟩ := ih (hx.after_inside hc) hx.after_count hbs
    exact ⟨x :: xs, rfl, ahead_cons.mpr ⟨hx, hxs⟩, rfl, (after_cons c x xs).symm⟩

theorem times_complete (hitem : L.Reads Valid limit bound levels view item) (hc : c.Inside)
    (hbuf : c.buf.length ≤ bound) (h : L.Ahead Valid limit levels c xs) :
    Reader.times item xs.length c = .ok (xs.map view, L.after c xs) := by
  induction xs generalizing c with
  | nil => rfl
  | cons x xs ih =>
    obtain ⟨hx, hxs⟩ := ahead_cons.mp h
    have htail := ih (hx.after_inside hc) hbuf hxs
    rw [List.length_cons, Reader.times, Reader.bind_of_ok (hitem.complete hc hbuf hx), Reader.bind_of_ok htail,
      after_cons c x xs]
    rfl

/-- A loop that comes to the end of the buffer has read the items that lie ahead, with nothing left. -/
theorem untilEnd_sound (hitem : L.Reads Valid limit bound levels view item) (hc : c.Inside)
    (hcount : (c.count : ℤ) ≤ limit) (h : Reader.untilEnd item n c = .ok (bs, c')) :
    ∃ xs, L.Ahead Valid limit levels c xs ∧ c.rest = xs.flatMap L.encode ∧ bs = xs.map view ∧
      c' = L.after c xs := by
  have hend : ∀ c : Cursor, c.remaining = 0 → c.rest = [] := by
    intro c hc
    rw [← List.length_eq_zero_iff, Cursor.rest_length, hc]
  induction n generalizing c bs with
  | zero =>
    unfold Reader.untilEnd at h
    split_ifs at h with hleft
    · simp only [Except.ok.injEq, Prod.mk.injEq] at h
      obtain ⟨rfl, rfl⟩ := h
      exact ⟨[], ahead_nil hcount, hend c hleft, rfl, rfl⟩
  | succ n ih =>
    unfold Reader.untilEnd at h
    split_ifs at h with hleft
    · simp only [Except.ok.injEq, Prod.mk.injEq] at h
      obtain ⟨rfl, rfl⟩ := h
      exact ⟨[], ahead_nil hcount, hend c hleft, rfl, rfl⟩
    · obtain ⟨b, c₁, hb, h⟩ := Reader.bind_eq_ok.mp h
      obtain ⟨bs', c₂, hbs, h⟩ := Reader.bind_eq_ok.mp h
      obtain ⟨rfl, rfl⟩ := Reader.pure_eq_ok.mp h
      obtain ⟨x, hx, rfl, rfl⟩ := hitem.sound hc hb
      obtain ⟨xs, hxs, hrest, rfl, rfl⟩ := ih (hx.after_inside hc) hx.after_count hbs
      obtain ⟨r, hr⟩ := hx.rest
      refine ⟨x :: xs, ahead_cons.mpr ⟨hx, hxs⟩, ?_, rfl, (after_cons c x xs).symm⟩
      rw [after_rest hr] at hrest
      rw [hr, hrest]
      simp

/-- Items that each have a byte are read to the end of the buffer in as many turns as it has bytes. -/
theorem untilEnd_complete (hitem : L.Reads Valid limit bound levels view item)
    (hpos : ∀ x, 0 < (L.encode x).length) (hc : c.Inside) (hbuf : c.buf.length ≤ bound)
    (h : L.Ahead Valid limit levels c xs) (hrest : c.rest = xs.flatMap L.encode) (hn : c.remaining ≤ n) :
    Reader.untilEnd item n c = .ok (xs.map view, L.after c xs) := by
  induction xs generalizing c n with
  | nil =>
    have hleft : c.remaining = 0 := by
      rw [← Cursor.rest_length, hrest]
      rfl
    cases n with
    | zero =>
      unfold Reader.untilEnd
      rw [if_pos hleft]
      rfl
    | succ n =>
      unfold Reader.untilEnd
      rw [if_pos hleft]
      rfl
  | cons x xs ih =>
    obtain ⟨hx, hxs⟩ := ahead_cons.mp h
    have hlen := c.rest_length
    have hx0 := hpos x
    rw [hrest, List.flatMap_cons, List.length_append] at hlen
    have hrest₁ : (L.after c [x]).rest = xs.flatMap L.encode := by
      refine after_rest ?_
      rw [hrest]
      simp
    have hlen₁ := (L.after c [x]).rest_length
    rw [hrest₁] at hlen₁
    cases n with
    | zero => omega
    | succ n =>
      have htail := ih (n := n) (hx.after_inside hc) hbuf hxs hrest₁ (by omega)
      unfold Reader.untilEnd
      rw [if_neg (by omega), Reader.bind_of_ok (hitem.complete hc hbuf hx), Reader.bind_of_ok htail,
        after_cons c x xs]
      rfl

end Loops

end Layout

end SdidBridge.Codec
