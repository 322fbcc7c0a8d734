import SdidBridge.Logging.Walk

/-!
# Redactions that throw

A redaction is made of at most `MAX_DEPTH` levels of arrays and objects and the objects that stand for errors, and its
leaves have texts. The one leaf whose copy throws is an invalid date (`redact_total_iff`).
-/

namespace SdidBridge.Logging

open Shared

/-! ## Nesting -/

/-- A walk nests at most so deep. -/
def Within (levels : ℕ) (walked : Value → Seen → MetTree × Seen) : Prop :=
  ∀ v seen, (walked v seen).1.depth ≤ levels

section Bounds

variable {levels : ℕ} {walked : Value → Seen → MetTree × Seen}

theorem depth_walkItems (h : Within levels walked) (items : List Value) (seen : Seen) :
    ∀ t ∈ (walkItems walked items seen).1, t.depth ≤ levels := by
  induction items generalizing seen with
  | nil => exact fun t ht => absurd ht List.not_mem_nil
  | cons v items ih =>
    intro t ht
    rcases List.mem_cons.mp ht with rfl | ht
    · exact h v seen
    · exact ih _ t ht

theorem depth_walkArray (h : Within levels walked) (items : List Value) (seen : Seen) :
    (walkArray walked items seen).1.depth ≤ levels + 1 := by
  have hitems := depth_walkItems h (items.take MAX_ARRAY_ITEMS) seen
  unfold walkArray
  rw [Tree.depth_array_le]
  split
  · intro t ht
    rcases List.mem_append.mp ht with ht | ht
    · exact hitems t ht
    · rw [List.mem_singleton.mp ht]
      exact Nat.zero_le _
  · exact hitems

theorem depth_walkMembers (h : Within levels walked) (keys : ℕ) (members : List (JsString × Value)) (seen : Seen) :
    ∀ m ∈ (walkMembers walked keys members seen).1, m.2.depth ≤ levels := by
  induction members generalizing keys seen with
  | nil => exact fun m hm => absurd hm List.not_mem_nil
  | cons m members ih =>
    obtain ⟨k, v⟩ := m
    rw [walkMembers]
    split
    · intro m hm
      rw [List.mem_singleton.mp hm]
      exact Nat.zero_le _
    · split
      · intro m hm
        rcases List.mem_cons.mp hm with rfl | hm
        · exact Nat.zero_le _
        · exact ih _ _ m hm
      · intro m hm
        rcases List.mem_cons.mp hm with rfl | hm
        · exact h v seen
        · exact ih _ _ m hm

theorem depth_walkObject (h : Within levels walked) (members : List (JsString × Value)) (seen : Seen) :
    (walkObject walked members seen).1.depth ≤ levels + 1 :=
  Tree.depth_object_le.mpr (depth_walkMembers h 0 (ownOrder members) seen)

end Bounds

theorem depth_walkInner (heap : Heap) (levels : ℕ) : Within levels (walkInner heap levels) := by
  induction levels with
  | zero =>
    intro v seen
    cases v <;> exact Nat.le_refl 0
  | succ levels ih =>
    intro v seen
    cases v with
    | leaf l => exact Nat.zero_le _
    | ref r =>
      rw [walkInner]
      split
      · exact Nat.zero_le _
      · cases hnode : heap r with
        | array items => exact depth_walkArray ih items.val _
        | map entries => exact depth_walkObject ih (fromEntries entries) _
        | set items => exact depth_walkArray ih items.val _
        | object members => exact depth_walkObject ih members _

/-! ## Copies -/

/-- What a redaction holds has a text, or stands for nothing. -/
def HasText (p : Primitive) : Prop := ∃ text, stringifyPrimitive p = .ok text

theorem hasText_string (text : JsString) : HasText (.string text) := ⟨_, rfl⟩

theorem allLeaves_textLeaf (text : JsString) : (textLeaf text).AllLeaves HasText :=
  Tree.allLeaves_leaf.mpr (hasText_string text)

/-- The copy of a leaf is at most an object of texts. -/
theorem metTree_bounds (m : Met) : (metTree m).depth ≤ 1 ∧ (metTree m).AllLeaves HasText := by
  have hleaf : ∀ p, HasText p → (Tree.leaf p : JsTree).depth ≤ 1 ∧ (Tree.leaf p : JsTree).AllLeaves HasText :=
    fun p hp => ⟨Nat.zero_le _, Tree.allLeaves_leaf.mpr hp⟩
  have htext : ∀ text, (textLeaf text).depth ≤ 1 ∧ (textLeaf text).AllLeaves HasText := fun text =>
    hleaf _ (hasText_string text)
  cases m with
  | marker text => exact htext text
  | value l =>
    cases l with
    | primitive p =>
      cases p with
      | undefined => exact hleaf _ ⟨_, rfl⟩
      | null => exact hleaf _ ⟨_, rfl⟩
      | bool b => cases b <;> exact hleaf _ ⟨_, rfl⟩
      | number n =>
        by_cases hrun : Codec.HasRun isDigitUnit NID_LENGTH (numberUnits n)
        · have hcopy : metTree (.value (.primitive (.number n))) = textLeaf REDACTED_NID := if_pos hrun
          rw [hcopy]
          exact htext _
        · have hcopy : metTree (.value (.primitive (.number n))) = .leaf (.number n) := if_neg hrun
          rw [hcopy]
          exact hleaf _ ⟨_, rfl⟩
      | bigint n => exact htext _
      | string text => exact htext _
      | symbol => exact htext _
      | function => exact htext _
    | binary n => exact htext _
    | date time =>
      cases time <;> exact htext _
    | error name message stack =>
      have hstack : (stackLeaf stack).depth ≤ 0 ∧ (stackLeaf stack).AllLeaves HasText := by
        cases stack with
        | none => exact ⟨Nat.le_refl 0, Tree.allLeaves_leaf.mpr ⟨_, rfl⟩⟩
        | some stack =>
          cases stack with
          | nil => exact ⟨Nat.le_refl 0, Tree.allLeaves_leaf.mpr ⟨_, rfl⟩⟩
          | cons u stack => exact ⟨Nat.le_refl 0, allLeaves_textLeaf _⟩
      constructor
      · refine Tree.depth_object_le.mpr fun m hm => ?_
        simp only [List.mem_cons, List.not_mem_nil, or_false] at hm
        rcases hm with rfl | rfl | rfl
        exacts [Nat.le_refl 0, Nat.le_refl 0, hstack.1]
      · refine Tree.allLeaves_object.mpr fun m hm => ?_
        simp only [List.mem_cons, List.not_mem_nil, or_false] at hm
        rcases hm with rfl | rfl | rfl
        exacts [allLeaves_textLeaf _, allLeaves_textLeaf _, hstack.2]

/-- A redaction is copied into a text without an error, and nests at most one level more than the walk. -/
theorem copy_bounds {levels : ℕ} {t : MetTree} (h : t.depth ≤ levels) :
    (copy t).depth ≤ levels + 1 ∧ ∃ text, jsonStringify (copy t) = .ok text := by
  constructor
  · exact Tree.depth_bind_le (Tree.depth_settle_le h) fun m => (metTree_bounds m).1
  · exact stringify_eq_ok (Tree.AllLeaves.bind fun m _ => (metTree_bounds m).2)

/-- A value is redacted and printed without an error, nested at most seven deep, exactly when the walk meets no invalid
date. -/
theorem redact_total_iff (heap : Heap) (value : Value) :
    (∃ safe text, redact heap value = .ok safe ∧ jsonStringify safe = .ok text ∧ safe.depth ≤ 7) ↔
      (walk heap value).AllLeaves Met.IsValid := by
  have hwalk := redact_walk heap value
  constructor
  · rintro ⟨safe, text, hsafe, -, -⟩
    by_contra hvalid
    rw [hwalk.2 hvalid] at hsafe
    cases hsafe
  · intro hvalid
    obtain ⟨hdepth, text, htext⟩ := copy_bounds (depth_walkInner heap MAX_DEPTH value [])
    exact ⟨copy (walk heap value), text, hwalk.1 hvalid, htext, hdepth⟩

/-- An invalid date throws. -/
theorem not_redact_total :
    ¬∀ (heap : Heap) (value : Value),
      ∃ safe text, redact heap value = .ok safe ∧ jsonStringify safe = .ok text ∧ safe.depth ≤ 7 := by
  intro h
  obtain ⟨safe, text, hsafe, -, -⟩ := h (fun _ => .object []) (.leaf (.date none))
  cases hsafe

end SdidBridge.Logging
