import SdidBridge.Logging.Walk

/-!
# Denied fields

What stands under a denied field name does not influence a redaction (`redact_alike`). Two values may live in two heaps
with objects of their own; what relates them is a one-to-one relation of these objects, under which everything is alike
but the values under denied names. The walk never asks for those, so that it takes the same way through both.
-/

namespace SdidBridge.Logging

open Shared

/-! ## Spellings -/

theorem normalizeKey_append (before after : JsString) :
    normalizeKey (before ++ after) = normalizeKey before ++ normalizeKey after := by
  unfold normalizeKey
  rw [List.flatMap_append, List.filter_append]

/-- A hyphen, an underscore or white space in a name does not count. -/
theorem isDeniedField_skip (before after : JsString) {u : UInt16} (hu : u ∈ js "_- ") :
    isDeniedField (before ++ u :: after) = isDeniedField (before ++ after) := by
  have hnone : ∀ u ∈ js "_- ", normalizeKey [u] = [] := List.all_iff_forall_prop.mp (by decide)
  have hname : normalizeKey (before ++ u :: after) = normalizeKey (before ++ after) := by
    rw [normalizeKey_append, normalizeKey_append, ← List.singleton_append, normalizeKey_append, hnone u hu,
      List.nil_append]
  unfold isDeniedField
  rw [hname]

/-- Nor does the case of a letter. -/
theorem isDeniedField_upper (before after : JsString) {u : UInt16} (hu : u ∈ js "ABCDEFGHIJKLMNOPQRSTUVWXYZ") :
    isDeniedField (before ++ u :: after) = isDeniedField (before ++ (u + 0x20) :: after) := by
  have hlower : ∀ u ∈ js "ABCDEFGHIJKLMNOPQRSTUVWXYZ", normalizeKey [u] = normalizeKey [u + 0x20] :=
    List.all_iff_forall_prop.mp (by decide)
  have hname : normalizeKey (before ++ u :: after) = normalizeKey (before ++ (u + 0x20) :: after) := by
    have hcons : ∀ v : UInt16, normalizeKey (v :: after) = normalizeKey [v] ++ normalizeKey after := fun v =>
      normalizeKey_append [v] after
    rw [normalizeKey_append, normalizeKey_append, hcons, hcons, hlower u hu]
  unfold isDeniedField
  rw [hname]

/-! ## Values that are alike -/

section Alike

variable (R : Ref → Ref → Prop)

/-- Equal leaves, or related objects. -/
inductive ValueAlike : Value → Value → Prop
  | leaf (l : Leaf) : ValueAlike (.leaf l) (.leaf l)
  | ref {r s : Ref} (h : R r s) : ValueAlike (.ref r) (.ref s)

/-- Equal keys, and values that are alike unless the key is denied. -/
def MemberAlike (m m' : JsString × Value) : Prop :=
  m.1 = m'.1 ∧ (isDeniedField m.1 = false → ValueAlike R m.2 m'.2)

/-- Objects of one kind with contents that are alike. -/
inductive NodeAlike : Node → Node → Prop
  | array {items items' : Items} (h : List.Forall₂ (ValueAlike R) items.val items'.val) :
      NodeAlike (.array items) (.array items')
  | map {entries entries' : List (JsString × Value)} (h : List.Forall₂ (MemberAlike R) entries entries') :
      NodeAlike (.map entries) (.map entries')
  | set {items items' : Items} (h : List.Forall₂ (ValueAlike R) items.val items'.val) :
      NodeAlike (.set items) (.set items')
  | object {members members' : List (JsString × Value)} (h : List.Forall₂ (MemberAlike R) members members') :
      NodeAlike (.object members) (.object members')

/-- Two heaps in which related objects are alike, each related to one object only. -/
structure HeapsAlike (heap heap' : Heap) : Prop where
  /-- An object has one partner. -/
  left_unique : ∀ r s s', R r s → R r s' → s = s'
  /-- And is the partner of one. -/
  right_unique : ∀ r r' s, R r s → R r' s → r = r'
  nodes : ∀ r s, R r s → NodeAlike R (heap r) (heap' s)

/-- Two results of the walk: the same is met, and related objects have been seen. -/
def WalkAlike {α : Type} (x y : α × Seen) : Prop := x.1 = y.1 ∧ List.Forall₂ R x.2 y.2

end Alike

variable {R : Ref → Ref → Prop}

/-- Members with the same keys are one list with two values for each key. -/
theorem exists_pairs {members members' : List (JsString × Value)} (h : List.Forall₂ (MemberAlike R) members members') :
    ∃ pairs : List (JsString × Value × Value), members = pairs.map (fun m => (m.1, m.2.1)) ∧
      members' = pairs.map (fun m => (m.1, m.2.2)) ∧
        ∀ m ∈ pairs, isDeniedField m.1 = false → ValueAlike R m.2.1 m.2.2 := by
  induction h with
  | nil => exact ⟨[], rfl, rfl, fun m hm => absurd hm List.not_mem_nil⟩
  | @cons m m' members members' hm _ ih =>
    obtain ⟨pairs, rfl, rfl, hall⟩ := ih
    obtain ⟨k, v⟩ := m
    obtain ⟨k', v'⟩ := m'
    obtain ⟨rfl, hvalue⟩ := hm
    refine ⟨(k, v, v') :: pairs, rfl, rfl, fun other hother => ?_⟩
    rcases List.mem_cons.mp hother with rfl | hother
    · exact hvalue
    · exact hall other hother

/-- The order of the keys does not depend on the values. -/
theorem map_ownOrder {β γ : Type} (f : β → γ) (members : List (JsString × β)) :
    ownOrder (members.map fun m => (m.1, f m.2)) = (ownOrder members).map fun m => (m.1, f m.2) := by
  unfold ownOrder
  rw [List.map_append, List.filter_map, List.filter_map]
  congr 1
  have hsort := List.map_insertionSort (fun m m' : JsString × β => (arrayIndex m.1).getD 0 ≤ (arrayIndex m'.1).getD 0)
    (fun m m' : JsString × γ => (arrayIndex m.1).getD 0 ≤ (arrayIndex m'.1).getD 0) (fun m => (m.1, f m.2))
    (members.filter fun m => (arrayIndex m.1).isSome) fun _ _ _ _ => Iff.rfl
  exact hsort.symm

theorem map_fromEntries {β γ : Type} (f : β → γ) (entries : List (JsString × β)) :
    fromEntries (entries.map fun m => (m.1, f m.2)) = (fromEntries entries).map fun m => (m.1, f m.2) :=
  (map_assignFrom f _ [] entries).symm

/-! ## The walk through both -/

section Walks

variable {walked walked' : Value → Seen → MetTree × Seen}

/-- Two walks that meet the same from values that are alike. -/
def WalksAlike (R : Ref → Ref → Prop) (walked walked' : Value → Seen → MetTree × Seen) : Prop :=
  ∀ v v' seen seen', ValueAlike R v v' → List.Forall₂ R seen seen' → WalkAlike R (walked v seen) (walked' v' seen')

theorem walkItems_alike (h : WalksAlike R walked walked') {items items' : List Value} {seen seen' : Seen}
    (hitems : List.Forall₂ (ValueAlike R) items items') (hseen : List.Forall₂ R seen seen') :
    WalkAlike R (walkItems walked items seen) (walkItems walked' items' seen') := by
  induction hitems generalizing seen seen' with
  | nil => exact ⟨rfl, hseen⟩
  | @cons v v' items items' hv _ ih =>
    obtain ⟨hmet, hnext⟩ := h v v' seen seen' hv hseen
    obtain ⟨hrest, hlast⟩ := ih hnext
    refine ⟨?_, hlast⟩
    simp only [walkItems, hmet, hrest]

theorem walkArray_alike (h : WalksAlike R walked walked') {items items' : List Value} {seen seen' : Seen}
    (hitems : List.Forall₂ (ValueAlike R) items items') (hseen : List.Forall₂ R seen seen') :
    WalkAlike R (walkArray walked items seen) (walkArray walked' items' seen') := by
  have hlength : items.length = items'.length := hitems.length_eq
  obtain ⟨hmet, hnext⟩ := walkItems_alike h (List.forall₂_take MAX_ARRAY_ITEMS hitems) hseen
  refine ⟨?_, hnext⟩
  simp only [walkArray, hmet, hlength]

theorem walkMembers_alike (h : WalksAlike R walked walked') {pairs : List (JsString × Value × Value)}
    (hpairs : ∀ m ∈ pairs, isDeniedField m.1 = false → ValueAlike R m.2.1 m.2.2) (keys : ℕ) {seen seen' : Seen}
    (hseen : List.Forall₂ R seen seen') :
    WalkAlike R (walkMembers walked keys (pairs.map fun m => (m.1, m.2.1)) seen)
      (walkMembers walked' keys (pairs.map fun m => (m.1, m.2.2)) seen') := by
  induction pairs generalizing keys seen seen' with
  | nil => exact ⟨rfl, hseen⟩
  | cons m pairs ih =>
    obtain ⟨k, v, v'⟩ := m
    have hothers := fun other hother => hpairs other (List.mem_cons_of_mem _ hother)
    simp only [List.map_cons, walkMembers]
    by_cases hlimit : MAX_OBJECT_KEYS ≤ keys
    · rw [if_pos hlimit, if_pos hlimit]
      exact ⟨rfl, hseen⟩
    · rw [if_neg hlimit, if_neg hlimit]
      by_cases hdenied : isDeniedField k = true
      · -- The value under the key is not asked for.
        rw [if_pos hdenied, if_pos hdenied]
        obtain ⟨hmet, hnext⟩ := ih hothers (keys + 1) hseen
        exact ⟨by rw [hmet], hnext⟩
      · rw [if_neg hdenied, if_neg hdenied]
        have hv := hpairs (k, v, v') List.mem_cons_self (Bool.eq_false_iff.mpr hdenied)
        obtain ⟨hmet, hnext⟩ := h v v' seen seen' hv hseen
        obtain ⟨hrest, hlast⟩ := ih hothers (keys + 1) hnext
        exact ⟨by rw [hmet, hrest], hlast⟩

theorem walkObject_alike (h : WalksAlike R walked walked') {pairs : List (JsString × Value × Value)}
    (hpairs : ∀ m ∈ pairs, isDeniedField m.1 = false → ValueAlike R m.2.1 m.2.2) {seen seen' : Seen}
    (hseen : List.Forall₂ R seen seen') :
    WalkAlike R (walkObject walked (pairs.map fun m => (m.1, m.2.1)) seen)
      (walkObject walked' (pairs.map fun m => (m.1, m.2.2)) seen') := by
  have hordered : ∀ m ∈ ownOrder pairs, isDeniedField m.1 = false → ValueAlike R m.2.1 m.2.2 := fun m hm =>
    hpairs m (mem_ownOrder.mp hm)
  obtain ⟨hmet, hnext⟩ := walkMembers_alike h hordered 0 hseen
  unfold walkObject
  rw [map_ownOrder Prod.fst, map_ownOrder Prod.snd]
  exact ⟨congrArg Tree.object hmet, hnext⟩

theorem walkNode_alike (h : WalksAlike R walked walked') {node node' : Node} {seen seen' : Seen}
    (hnode : NodeAlike R node node') (hseen : List.Forall₂ R seen seen') :
    WalkAlike R (walkNode walked node seen) (walkNode walked' node' seen') := by
  cases hnode with
  | array hitems => exact walkArray_alike h hitems hseen
  | set hitems => exact walkArray_alike h hitems hseen
  | object hmembers =>
    obtain ⟨pairs, rfl, rfl, hpairs⟩ := exists_pairs hmembers
    exact walkObject_alike h hpairs hseen
  | map hentries =>
    obtain ⟨pairs, rfl, rfl, hpairs⟩ := exists_pairs hentries
    have hkept : ∀ m ∈ fromEntries pairs, isDeniedField m.1 = false → ValueAlike R m.2.1 m.2.2 := by
      intro m hm
      rcases mem_of_mem_assignFrom hm with hnil | hmem
      · exact absurd hnil List.not_mem_nil
      · exact hpairs m hmem
    simp only [walkNode]
    rw [map_fromEntries Prod.fst, map_fromEntries Prod.snd]
    exact walkObject_alike h hkept hseen

end Walks

/-- An object has been seen exactly when its partner has. -/
theorem mem_seen_iff {heap heap' : Heap} (h : HeapsAlike R heap heap') {r s : Ref} (hrs : R r s) {seen seen' : Seen}
    (hseen : List.Forall₂ R seen seen') : r ∈ seen ↔ s ∈ seen' := by
  induction hseen with
  | nil => exact iff_of_false List.not_mem_nil List.not_mem_nil
  | @cons r' s' seen seen' hfirst _ ih =>
    have hsame : r = r' ↔ s = s' := by
      constructor
      · rintro rfl
        exact h.left_unique r s s' hrs hfirst
      · rintro rfl
        exact h.right_unique r r' s hrs hfirst
    rw [List.mem_cons, List.mem_cons, hsame, ih]

/-- The induction is on the levels that are left. -/
theorem walkInner_alike {heap heap' : Heap} (h : HeapsAlike R heap heap') (levels : ℕ) :
    WalksAlike R (walkInner heap levels) (walkInner heap' levels) := by
  induction levels with
  | zero =>
    intro v v' seen seen' hv hseen
    cases hv with
    | leaf l => exact ⟨rfl, hseen⟩
    | ref hrs =>
      refine ⟨?_, hseen⟩
      simp only [walkInner, mem_seen_iff h hrs hseen]
  | succ levels ih =>
    intro v v' seen seen' hv hseen
    cases hv with
    | leaf l => exact ⟨rfl, hseen⟩
    | @ref r s hrs =>
      have hmem := mem_seen_iff h hrs hseen
      rw [walkInner, walkInner]
      by_cases hin : r ∈ seen
      · rw [if_pos hin, if_pos (hmem.mp hin)]
        exact ⟨rfl, hseen⟩
      · rw [if_neg hin, if_neg (fun hs => hin (hmem.mpr hs))]
        exact walkNode_alike ih (h.nodes r s hrs) (.cons hrs hseen)

/-- Values that are alike but for what is under denied names have one redaction. -/
theorem redact_alike (R : Ref → Ref → Prop) {heap heap' : Heap} {value value' : Value} (hheaps : HeapsAlike R heap heap')
    (hvalue : ValueAlike R value value') : redact heap value = redact heap' value' := by
  have hmet : walk heap value = walk heap' value' := (walkInner_alike hheaps MAX_DEPTH value value' [] [] hvalue .nil).1
  have hleft := redact_walk heap value
  have hright := redact_walk heap' value'
  rw [← hmet] at hright
  by_cases hvalid : (walk heap value).AllLeaves Met.IsValid
  · rw [hleft.1 hvalid, hright.1 hvalid]
  · rw [hleft.2 hvalid, hright.2 hvalid]

/-- An object with a value under a denied name, and itself under another. -/
def tokenHeap (hidden : Value) : Heap := fun _ => .object [(js "PUSH_token", hidden), (js "self", .ref 0)]

/-- A cycle and a date that would throw, both under a denied name. -/
theorem redact_alike_token :
    HeapsAlike (fun r s => r = 0 ∧ s = 0) (tokenHeap (.ref 0)) (tokenHeap (.leaf (.date none))) ∧
      redact (tokenHeap (.ref 0)) (.ref 0) = redact (tokenHeap (.leaf (.date none))) (.ref 0) := by
  have hheaps : HeapsAlike (fun r s => r = 0 ∧ s = 0) (tokenHeap (.ref 0)) (tokenHeap (.leaf (.date none))) := by
    constructor
    · rintro r s s' ⟨-, rfl⟩ ⟨-, rfl⟩
      rfl
    · rintro r r' s ⟨rfl, -⟩ ⟨rfl, -⟩
      rfl
    · intro r s _
      have hdenied : isDeniedField (js "PUSH_token") = true := by decide
      refine .object (.cons ⟨rfl, fun h => ?_⟩ (.cons ⟨rfl, fun _ => .ref ⟨rfl, rfl⟩⟩ .nil))
      rw [hdenied] at h
      cases h
  exact ⟨hheaps, redact_alike _ hheaps (.ref ⟨rfl, rfl⟩)⟩

end SdidBridge.Logging
