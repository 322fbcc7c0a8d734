import Mathlib.Data.List.Nodup
import Mathlib.Tactic.Common

/-!
# Maps that remember the order of their keys

A map of JavaScript, and an object, lists its entries in the order in which their keys were first set: setting a key
that is there changes its value in place, and setting one that is not appends it. Here it is the list of its entries.
-/

namespace SdidBridge.JsMap

variable {κ α : Type} [DecidableEq κ]

/-- Set the value of a key. -/
def set (k : κ) (v : α) : List (κ × α) → List (κ × α)
  | [] => [(k, v)]
  | e :: es => if e.1 = k then (k, v) :: es else e :: set k v es

/-- The value of a key. -/
def get (k : κ) (es : List (κ × α)) : Option α := (es.find? fun e => e.1 = k).map (·.2)

/-- Delete a key. -/
def delete (k : κ) (es : List (κ × α)) : List (κ × α) := es.filter fun e => e.1 ≠ k

variable {k k' : κ} {v : α} {es : List (κ × α)}

@[simp] theorem get_nil : get k ([] : List (κ × α)) = none := rfl

theorem get_cons (e : κ × α) : get k (e :: es) = if e.1 = k then some e.2 else get k es := by
  unfold get
  rw [List.find?_cons]
  by_cases h : e.1 = k <;> simp [h]

@[simp] theorem get_set_self : get k (set k v es) = some v := by
  induction es with
  | nil => simp [set, get_cons]
  | cons e es ih =>
    unfold set
    split_ifs with h
    · simp [get_cons]
    · rw [get_cons, if_neg h, ih]

theorem get_set_of_ne (h : k' ≠ k) : get k' (set k v es) = get k' es := by
  induction es with
  | nil => simp [set, get_cons, h.symm]
  | cons e es ih =>
    unfold set
    split_ifs with he
    · have hne : e.1 ≠ k' := by rw [he]; exact h.symm
      rw [get_cons, get_cons, if_neg h.symm, if_neg hne]
    · rw [get_cons, get_cons, ih]

@[simp] theorem get_delete_self : get k (delete k es) = none := by
  unfold get delete
  rw [Option.map_eq_none_iff, List.find?_eq_none]
  intro e he
  simpa using (List.mem_filter.mp he).2

theorem get_delete_of_ne (h : k' ≠ k) : get k' (delete k es) = get k' es := by
  induction es with
  | nil => rfl
  | cons e es ih =>
    unfold delete at ih ⊢
    by_cases he : e.1 = k
    · have hne : e.1 ≠ k' := by rw [he]; exact h.symm
      rw [List.filter_cons_of_neg (by simpa using he), ih, get_cons, if_neg hne]
    · rw [List.filter_cons_of_pos (by simpa using he), get_cons, get_cons, ih]

/-- The keys after a key was set. -/
theorem mem_keys_set : k' ∈ (set k v es).map Prod.fst ↔ k' = k ∨ k' ∈ es.map Prod.fst := by
  induction es with
  | nil => simp [set]
  | cons e es ih =>
    unfold set
    split_ifs with h
    · simp [← h]
    · rw [List.map_cons, List.mem_cons, ih, List.map_cons, List.mem_cons]
      exact or_left_comm

/-- A key has one entry. -/
theorem nodup_set (h : (es.map Prod.fst).Nodup) : ((set k v es).map Prod.fst).Nodup := by
  induction es with
  | nil => simp [set]
  | cons e es ih =>
    rw [List.map_cons, List.nodup_cons] at h
    unfold set
    split_ifs with he
    · rw [List.map_cons, List.nodup_cons, ← he]
      exact h
    · rw [List.map_cons, List.nodup_cons, mem_keys_set, not_or]
      exact ⟨⟨he, h.1⟩, ih h.2⟩

/-- An entry after a key was set is that of the key, or was there. -/
theorem mem_set {e : κ × α} (he : e ∈ set k v es) : e = (k, v) ∨ e ∈ es := by
  induction es with
  | nil =>
    simp only [set, List.mem_singleton] at he
    exact .inl he
  | cons e' es ih =>
    unfold set at he
    split_ifs at he with h
    · rcases List.mem_cons.mp he with rfl | hold
      · exact .inl rfl
      · exact .inr (List.mem_cons_of_mem _ hold)
    · rcases List.mem_cons.mp he with rfl | hrest
      · exact .inr List.mem_cons_self
      · exact (ih hrest).imp_right (List.mem_cons_of_mem _)

end SdidBridge.JsMap
