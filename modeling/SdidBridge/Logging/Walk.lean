import SdidBridge.Logging.Redact

/-!
# The walk of a redaction

What `redact` meets of a value, apart from how it copies what it meets. `walk` goes through the value under the same
limits and with the same set of seen objects, and keeps what it meets as it is. A redaction is the copy of the walk
(`redact_walk`): it throws when an invalid date is met, and otherwise every leaf that is met is copied on its own.
-/

namespace SdidBridge.Logging

open Codec Shared

/-- What the walk meets: a value that it does not enter, or what it puts in the place of one. -/
inductive Met where
  | value (l : Leaf)
  | marker (text : JsString)

abbrev MetTree := Tree JsString Met

def markerLeaf (text : JsString) : MetTree := .leaf (.marker text)

/-! ## Walking -/

section Steps

variable (inner : Value → Seen → MetTree × Seen)

def walkItems : List Value → Seen → List MetTree × Seen
  | [], seen => ([], seen)
  | v :: items, seen =>
    let (t, seen) := inner v seen
    let (ts, seen) := walkItems items seen
    (t :: ts, seen)

def walkArray (items : List Value) (seen : Seen) : MetTree × Seen :=
  let (ts, seen) := walkItems inner (items.take MAX_ARRAY_ITEMS) seen
  (.array (if MAX_ARRAY_ITEMS < items.length then ts ++ [markerLeaf (moreText items.length)] else ts), seen)

def walkMembers : ℕ → List (JsString × Value) → Seen → List (JsString × MetTree) × Seen
  | _, [], seen => ([], seen)
  | keys, (k, v) :: members, seen =>
    if MAX_OBJECT_KEYS ≤ keys then ([(ELLIPSIS, markerLeaf KEY_LIMIT)], seen)
    else if isDeniedField k then
      let (ts, seen) := walkMembers (keys + 1) members seen
      ((k, markerLeaf REDACTED) :: ts, seen)
    else
      let (t, seen) := inner v seen
      let (ts, seen) := walkMembers (keys + 1) members seen
      ((k, t) :: ts, seen)

def walkObject (members : List (JsString × Value)) (seen : Seen) : MetTree × Seen :=
  let (ts, seen) := walkMembers inner 0 (ownOrder members) seen
  (.object ts, seen)

def walkNode (node : Node) (seen : Seen) : MetTree × Seen :=
  match node with
  | .array items => walkArray inner items.val seen
  | .map entries => walkObject inner (fromEntries entries) seen
  | .set items => walkArray inner items.val seen
  | .object members => walkObject inner members seen

end Steps

/-- What is met from a value on, with so many levels left. -/
def walkInner (heap : Heap) : ℕ → Value → Seen → MetTree × Seen
  | _, .leaf l, seen => (.leaf (.value l), seen)
  | 0, .ref r, seen => (markerLeaf (if r ∈ seen then CIRCULAR else DEPTH_LIMIT), seen)
  | levels + 1, .ref r, seen =>
    if r ∈ seen then (markerLeaf CIRCULAR, seen) else walkNode (walkInner heap levels) (heap r) (r :: seen)

/-- What is met of a value. -/
def walk (heap : Heap) (value : Value) : MetTree := (walkInner heap MAX_DEPTH value []).1

/-! ## Copying -/

/-- No invalid date. -/
def Met.IsValid : Met → Prop
  | .value (.date none) => False
  | _ => True

/-- The copy of what is met. -/
def metTree : Met → JsTree
  | .marker text => textLeaf text
  | .value l =>
    match redactLeaf l with
    | .ok t => t
    | .error _ => textLeaf []

/-- The copy of a walk. -/
def copy (t : MetTree) : JsTree := (t.settle isProto).bind metTree

/-- A computation has a value when a condition holds, and throws a range error otherwise. -/
def Answers {α : Type} (P : Prop) (x : Except JsError α) (a : α) : Prop :=
  (P → x = .ok a) ∧ (¬P → x = .error .rangeError)

theorem answers_ok {α : Type} (a : α) : Answers True (.ok a) a := ⟨fun _ => rfl, fun h => absurd trivial h⟩

theorem Answers.congr {α : Type} {P Q : Prop} {x : Except JsError α} {a : α} (h : Answers P x a) (hPQ : P ↔ Q) :
    Answers Q x a := ⟨fun hQ => h.1 (hPQ.mpr hQ), fun hQ => h.2 fun hP => hQ (hPQ.mp hP)⟩

theorem Answers.bind {α β : Type} {P Q : Prop} {x : Except JsError α} {f : α → Except JsError β} {a : α} {b : β}
    (hx : Answers P x a) (hf : Answers Q (f a) b) : Answers (P ∧ Q) (x >>= f) b := by
  constructor
  · rintro ⟨hP, hQ⟩
    rw [hx.1 hP]
    exact hf.1 hQ
  · intro hnot
    by_cases hP : P
    · rw [hx.1 hP]
      exact hf.2 fun hQ => hnot ⟨hP, hQ⟩
    · rw [hx.2 hP]
      rfl

theorem Answers.map {α β : Type} {P : Prop} {x : Except JsError α} {f : α → Except JsError β} {a : α} {b : β}
    (hx : Answers P x a) (hf : f a = .ok b) : Answers P (x >>= f) b := by
  have hok : Answers True (f a) b := hf ▸ answers_ok b
  exact (hx.bind hok).congr ⟨fun h => h.1, fun h => ⟨h, trivial⟩⟩

theorem copy_leaf (m : Met) : copy (.leaf m) = metTree m := rfl

theorem copy_array (ts : List MetTree) : copy (.array ts) = .array (ts.map copy) := by
  unfold copy
  rw [Tree.settle, Tree.settleItems_eq, Tree.bind, Tree.bindItems_eq, List.map_map]
  rfl

/-- The members of the copy of an object. -/
def copyMembers (out : List (JsString × JsTree)) (ts : List (JsString × MetTree)) : List (JsString × JsTree) :=
  assignFrom isProto out (ts.map fun m => (m.1, copy m.2))

theorem copy_object (ts : List (JsString × MetTree)) : copy (.object ts) = .object (copyMembers [] ts) := by
  unfold copy copyMembers
  rw [Tree.settle, Tree.settleMembers_eq, Tree.bind, Tree.bindMembers_eq, map_assignFrom, List.map_map]
  rfl

theorem copyMembers_cons (out : List (JsString × JsTree)) (k : JsString) (t : MetTree) (ts : List (JsString × MetTree)) :
    copyMembers out ((k, t) :: ts) = copyMembers (setProperty k (copy t) out) ts := rfl

/-- A leaf is copied unless it is an invalid date. -/
theorem answers_leaf (l : Leaf) : Answers (Met.IsValid (.value l)) (redactLeaf l) (metTree (.value l)) := by
  have hok : ∀ t, redactLeaf l = .ok t → metTree (.value l) = t := by
    intro t h
    simp only [metTree, h]
  cases l with
  | primitive p => cases p <;> exact answers_ok _
  | binary n => exact answers_ok _
  | date time =>
    cases time with
    | none => exact ⟨fun h => h.elim, fun _ => rfl⟩
    | some time => exact answers_ok _
  | error name message stack => exact answers_ok _

/-- A copy agrees with a walk: it answers the copy of what the walk meets. -/
def Copies (inner : Value → Seen → Except JsError (JsTree × Seen)) (walked : Value → Seen → MetTree × Seen) : Prop :=
  ∀ v seen, Answers ((walked v seen).1.AllLeaves Met.IsValid) (inner v seen)
    (copy (walked v seen).1, (walked v seen).2)

section Agreement

variable {inner : Value → Seen → Except JsError (JsTree × Seen)} {walked : Value → Seen → MetTree × Seen}

theorem answers_items (h : Copies inner walked) (items : List Value) (seen : Seen) :
    Answers (∀ t ∈ (walkItems walked items seen).1, t.AllLeaves Met.IsValid) (redactItems inner items seen)
      ((walkItems walked items seen).1.map copy, (walkItems walked items seen).2) := by
  induction items generalizing seen with
  | nil => exact (answers_ok _).congr (iff_of_true trivial fun t ht => absurd ht List.not_mem_nil)
  | cons v items ih =>
    have hrest := (ih (walked v seen).2).map (f := fun x => .ok (copy (walked v seen).1 :: x.1, x.2)) rfl
    refine ((h v seen).bind hrest).congr ?_
    rw [walkItems, List.forall_mem_cons]

theorem answers_array (h : Copies inner walked) (items : List Value) (seen : Seen) :
    Answers ((walkArray walked items seen).1.AllLeaves Met.IsValid) (redactArray inner items seen)
      (copy (walkArray walked items seen).1, (walkArray walked items seen).2) := by
  have hmarker : Tree.AllLeaves Met.IsValid (markerLeaf (moreText items.length)) :=
    (Tree.allLeaves_leaf (P := Met.IsValid)).mpr trivial
  refine ((answers_items h (items.take MAX_ARRAY_ITEMS) seen).map ?_).congr ?_
  · unfold walkArray
    dsimp only
    rw [copy_array]
    by_cases hmore : MAX_ARRAY_ITEMS < items.length
    · rw [if_pos hmore, if_pos hmore, List.map_append]
      rfl
    · rw [if_neg hmore, if_neg hmore]
      rfl
  · unfold walkArray
    rw [Tree.allLeaves_array]
    split
    · constructor
      · intro hall t ht
        rcases List.mem_append.mp ht with ht | ht
        · exact hall t ht
        · rw [List.mem_singleton.mp ht]
          exact hmarker
      · exact fun hall t ht => hall t (List.mem_append_left _ ht)
    · exact Iff.rfl

theorem answers_members (h : Copies inner walked) (keys : ℕ) (members : List (JsString × Value))
    (out : List (JsString × JsTree)) (seen : Seen) :
    Answers (∀ m ∈ (walkMembers walked keys members seen).1, m.2.AllLeaves Met.IsValid)
      (redactMembers inner keys members out seen)
      (copyMembers out (walkMembers walked keys members seen).1, (walkMembers walked keys members seen).2) := by
  have hmarker : ∀ text, Tree.AllLeaves Met.IsValid (markerLeaf text : MetTree) := fun text =>
    (Tree.allLeaves_leaf (P := Met.IsValid)).mpr trivial
  induction members generalizing keys out seen with
  | nil => exact (answers_ok _).congr (iff_of_true trivial fun m hm => absurd hm List.not_mem_nil)
  | cons m members ih =>
    obtain ⟨k, v⟩ := m
    rw [redactMembers, walkMembers]
    split
    · refine (answers_ok _).congr (iff_of_true trivial fun m hm => ?_)
      rw [List.mem_singleton.mp hm]
      exact hmarker KEY_LIMIT
    · split
      · refine (ih (keys + 1) (setProperty k (textLeaf REDACTED) out) seen).congr ?_
        rw [List.forall_mem_cons, and_iff_right (hmarker REDACTED)]
      · have hrest := ih (keys + 1) (setProperty k (copy (walked v seen).1) out) (walked v seen).2
        refine ((h v seen).bind hrest).congr ?_
        rw [List.forall_mem_cons]

theorem answers_object (h : Copies inner walked) (members : List (JsString × Value)) (seen : Seen) :
    Answers ((walkObject walked members seen).1.AllLeaves Met.IsValid) (redactObject inner members seen)
      (copy (walkObject walked members seen).1, (walkObject walked members seen).2) := by
  refine ((answers_members h 0 (ownOrder members) [] seen).map ?_).congr ?_
  · unfold walkObject
    dsimp only
    rw [copy_object]
    rfl
  · unfold walkObject
    rw [Tree.allLeaves_object]

theorem answers_node (h : Copies inner walked) (node : Node) (seen : Seen) :
    Answers ((walkNode walked node seen).1.AllLeaves Met.IsValid) (redactNode inner node seen)
      (copy (walkNode walked node seen).1, (walkNode walked node seen).2) := by
  cases node with
  | array items => exact answers_array h items.val seen
  | map entries => exact answers_object h (fromEntries entries) seen
  | set items => exact answers_array h items.val seen
  | object members => exact answers_object h members seen

end Agreement

/-- The induction is on the levels that are left. -/
theorem redactInner_copies (heap : Heap) (levels : ℕ) : Copies (redactInner heap levels) (walkInner heap levels) := by
  have hleaf : ∀ levels l seen, Answers ((walkInner heap levels (.leaf l) seen).1.AllLeaves Met.IsValid)
      (redactInner heap levels (.leaf l) seen)
      (copy (walkInner heap levels (.leaf l) seen).1, (walkInner heap levels (.leaf l) seen).2) := by
    intro levels l seen
    have hcopied := (answers_leaf l).map (f := fun t => .ok (t, seen)) rfl
    have hvalid := (Tree.allLeaves_leaf (K := JsString) (P := Met.IsValid) (a := .value l)).symm
    cases levels <;> exact hcopied.congr hvalid
  have hmarker : ∀ text, True ↔ Tree.AllLeaves Met.IsValid (markerLeaf text : MetTree) := fun text =>
    (Tree.allLeaves_leaf (P := Met.IsValid) (a := .marker text)).symm
  induction levels with
  | zero =>
    intro v seen
    cases v with
    | leaf l => exact hleaf 0 l seen
    | ref r => exact (answers_ok _).congr (hmarker _)
  | succ levels ih =>
    intro v seen
    cases v with
    | leaf l => exact hleaf (levels + 1) l seen
    | ref r =>
      rw [redactInner, walkInner]
      split
      · exact (answers_ok _).congr (hmarker _)
      · exact answers_node ih (heap r) (r :: seen)

/-- A redaction is the copy of the walk, and throws when the walk meets an invalid date. -/
theorem redact_walk (heap : Heap) (value : Value) :
    Answers ((walk heap value).AllLeaves Met.IsValid) (redact heap value) (copy (walk heap value)) :=
  (redactInner_copies heap MAX_DEPTH value []).map rfl

end SdidBridge.Logging
