import Mathlib.Data.List.Basic
import Mathlib.Tactic.Common

/-!
# Trees of data

Data with the shape of JSON: leaves, arrays, and objects with their members in order. `bind` puts a tree in the place of
each leaf, and `settle` assigns the members of every object one by one, so that the last value of a key is kept where
the key was first.
-/

namespace SdidBridge

/-- A tree with keys in `K` and leaves in `α`. -/
inductive Tree (K α : Type) where
  | leaf (a : α)
  | array (items : List (Tree K α))
  | object (members : List (K × Tree K α))

/-! ## Assigning -/

section Assign

variable {K : Type} [DecidableEq K] {β γ : Type}

/-- The members after an assignment. A new key goes to the end. -/
def assign (key : K) (value : β) : List (K × β) → List (K × β)
  | [] => [(key, value)]
  | (k, v) :: members => if k = key then (key, value) :: members else (k, v) :: assign key value members

/-- The members after the assignments of a list, of which some keys are skipped. -/
def assignFrom (skips : K → Bool) : List (K × β) → List (K × β) → List (K × β)
  | out, [] => out
  | out, (key, value) :: members =>
    assignFrom skips (if skips key then out else assign key value out) members

theorem map_assign (f : β → γ) (key : K) (value : β) (members : List (K × β)) :
    (assign key value members).map (fun m => (m.1, f m.2)) = assign key (f value) (members.map fun m => (m.1, f m.2)) := by
  induction members with
  | nil => rfl
  | cons m members ih =>
    rw [assign, List.map_cons, assign]
    split
    · rfl
    · rw [List.map_cons, ih]

theorem map_assignFrom (f : β → γ) (skips : K → Bool) (out members : List (K × β)) :
    (assignFrom skips out members).map (fun m => (m.1, f m.2)) =
      assignFrom skips (out.map fun m => (m.1, f m.2)) (members.map fun m => (m.1, f m.2)) := by
  induction members generalizing out with
  | nil => rfl
  | cons m members ih =>
    rw [assignFrom, List.map_cons, assignFrom, ih]
    split
    · rfl
    · rw [map_assign]

theorem assignFrom_append (skips : K → Bool) (out members more : List (K × β)) :
    assignFrom skips out (members ++ more) = assignFrom skips (assignFrom skips out members) more := by
  induction members generalizing out with
  | nil => rfl
  | cons m members ih => rw [List.cons_append, assignFrom, assignFrom, ih]

theorem mem_of_mem_assign {key : K} {value : β} {members : List (K × β)} {m : K × β}
    (h : m ∈ assign key value members) : m = (key, value) ∨ m ∈ members := by
  induction members with
  | nil => exact .inl (List.mem_singleton.mp h)
  | cons other members ih =>
    rw [assign] at h
    split at h
    · rcases List.mem_cons.mp h with rfl | h
      · exact .inl rfl
      · exact .inr (List.mem_cons_of_mem _ h)
    · rcases List.mem_cons.mp h with rfl | h
      · exact .inr List.mem_cons_self
      · exact (ih h).imp_right (List.mem_cons_of_mem _)

/-- What is assigned is a member of the list. -/
theorem mem_of_mem_assignFrom {skips : K → Bool} {out members : List (K × β)} {m : K × β}
    (h : m ∈ assignFrom skips out members) : m ∈ out ∨ m ∈ members := by
  induction members generalizing out with
  | nil => exact .inl h
  | cons other members ih =>
    rw [assignFrom] at h
    rcases ih h with hout | hmem
    · split at hout
      · exact .inl hout
      · rcases mem_of_mem_assign hout with rfl | hout
        · exact .inr List.mem_cons_self
        · exact .inl hout
    · exact .inr (List.mem_cons_of_mem _ hmem)

/-- Members with keys of their own are assigned as they are. -/
theorem assign_of_notMem {key : K} {members : List (K × β)} (value : β) (h : key ∉ members.map Prod.fst) :
    assign key value members = members ++ [(key, value)] := by
  induction members with
  | nil => rfl
  | cons m members ih =>
    rw [List.map_cons, List.mem_cons, not_or] at h
    rw [assign, if_neg (Ne.symm h.1), ih h.2, List.cons_append]

/-- The keys after an assignment. -/
theorem keys_assign (key : K) (value : β) (members : List (K × β)) :
    (assign key value members).map Prod.fst =
      if key ∈ members.map Prod.fst then members.map Prod.fst else members.map Prod.fst ++ [key] := by
  induction members with
  | nil => rfl
  | cons m members ih =>
    rw [assign, List.map_cons]
    by_cases hkey : m.1 = key
    · rw [if_pos hkey, List.map_cons, if_pos (hkey ▸ List.mem_cons_self), hkey]
    · have hmem : key ∈ m.1 :: members.map Prod.fst ↔ key ∈ members.map Prod.fst := by
        rw [List.mem_cons, or_iff_right (Ne.symm hkey)]
      rw [if_neg hkey, List.map_cons, ih]
      by_cases hin : key ∈ members.map Prod.fst
      · rw [if_pos hin, if_pos (hmem.mpr hin)]
      · rw [if_neg hin, if_neg fun h => hin (hmem.mp h), List.cons_append]

/-- Assignments make no key twice. -/
theorem nodup_assignFrom {skips : K → Bool} {out : List (K × β)} (members : List (K × β))
    (h : (out.map Prod.fst).Nodup) : ((assignFrom skips out members).map Prod.fst).Nodup := by
  induction members generalizing out with
  | nil => exact h
  | cons m members ih =>
    rw [assignFrom]
    refine ih ?_
    split
    · exact h
    · rw [keys_assign]
      split
      · exact h
      · rename_i hnotMem
        exact List.nodup_append.mpr ⟨h, by simp, fun k hk k' hk' =>
          fun heq => hnotMem (by rw [List.mem_singleton] at hk'; rw [← hk', ← heq]; exact hk)⟩

/-- Keys of their own, apart from those that are there, are added as they are. -/
theorem assignFrom_of_disjoint {skips : K → Bool} {out members : List (K × β)}
    (hnodup : (members.map Prod.fst).Nodup)
    (hout : ∀ m ∈ members, skips m.1 = false → m.1 ∉ out.map Prod.fst) :
    assignFrom skips out members = out ++ members.filter fun m => !skips m.1 := by
  induction members generalizing out with
  | nil => rw [assignFrom, List.filter_nil, List.append_nil]
  | cons m members ih =>
    rw [List.map_cons, List.nodup_cons] at hnodup
    rw [assignFrom]
    cases hskip : skips m.1 with
    | true =>
      rw [if_pos rfl, List.filter_cons_of_neg (by simp [hskip])]
      exact ih hnodup.2 fun other hother => hout other (List.mem_cons_of_mem _ hother)
    | false =>
      rw [if_neg (by decide), List.filter_cons_of_pos (by simp [hskip]),
        assign_of_notMem m.2 (hout m List.mem_cons_self hskip), ih hnodup.2 ?_, List.append_assoc,
        List.singleton_append]
      intro other hother hskips hmem
      rw [List.map_append, List.mem_append] at hmem
      rcases hmem with hmem | hmem
      · exact hout other (List.mem_cons_of_mem _ hother) hskips hmem
      · rw [List.map_singleton, List.mem_singleton] at hmem
        exact hnodup.1 (hmem ▸ List.mem_map_of_mem hother)

end Assign

namespace Tree

variable {K α β : Type}

/-- What holds of the leaves, and of an array and an object when it holds of their parts, holds of every tree. -/
@[elab_as_elim]
theorem induction {motive : Tree K α → Prop} (leaf : ∀ a, motive (.leaf a))
    (array : ∀ items, (∀ t ∈ items, motive t) → motive (.array items))
    (object : ∀ members, (∀ m ∈ members, motive m.2) → motive (.object members)) (t : Tree K α) : motive t := by
  refine @Tree.rec K α motive (fun items => ∀ t ∈ items, motive t) (fun members => ∀ m ∈ members, motive m.2)
    (fun m => motive m.2) leaf array object ?_ ?_ ?_ ?_ ?_ t
  · exact fun t h => absurd h List.not_mem_nil
  · intro t items ht hitems other hother
    rcases List.mem_cons.mp hother with rfl | hother
    · exact ht
    · exact hitems other hother
  · exact fun m h => absurd h List.not_mem_nil
  · intro m members hm hmembers other hother
    rcases List.mem_cons.mp hother with rfl | hother
    · exact hm
    · exact hmembers other hother
  · exact fun _ _ h => h

/-! ## Leaves -/

mutual

/-- The tree with another tree in the place of each leaf. -/
def bind (f : α → Tree K β) : Tree K α → Tree K β
  | leaf a => f a
  | array items => array (bindItems f items)
  | object members => object (bindMembers f members)

def bindItems (f : α → Tree K β) : List (Tree K α) → List (Tree K β)
  | [] => []
  | t :: items => bind f t :: bindItems f items

def bindMembers (f : α → Tree K β) : List (K × Tree K α) → List (K × Tree K β)
  | [] => []
  | (key, t) :: members => (key, bind f t) :: bindMembers f members

end

@[simp] theorem bindItems_eq (f : α → Tree K β) (items : List (Tree K α)) : bindItems f items = items.map (bind f) := by
  induction items with
  | nil => rfl
  | cons t items ih => rw [bindItems, List.map_cons, ih]

@[simp] theorem bindMembers_eq (f : α → Tree K β) (members : List (K × Tree K α)) :
    bindMembers f members = members.map fun m => (m.1, bind f m.2) := by
  induction members with
  | nil => rfl
  | cons m members ih => rw [bindMembers, List.map_cons, ih]

/-- A leaf stands in a tree. -/
inductive HasLeaf : Tree K α → α → Prop
  | leaf (a : α) : HasLeaf (leaf a) a
  | item {t : Tree K α} {items : List (Tree K α)} {a : α} (hmem : t ∈ items) (h : HasLeaf t a) :
      HasLeaf (array items) a
  | member {key : K} {t : Tree K α} {members : List (K × Tree K α)} {a : α} (hmem : (key, t) ∈ members)
      (h : HasLeaf t a) : HasLeaf (object members) a

/-- Every leaf of a tree satisfies `P`. -/
def AllLeaves (P : α → Prop) (t : Tree K α) : Prop := ∀ a, t.HasLeaf a → P a

theorem allLeaves_leaf {P : α → Prop} {a : α} : AllLeaves P (leaf a : Tree K α) ↔ P a := by
  constructor
  · exact fun h => h a (.leaf a)
  · intro h b hb
    cases hb
    exact h

theorem allLeaves_array {P : α → Prop} {items : List (Tree K α)} :
    AllLeaves P (array items) ↔ ∀ t ∈ items, AllLeaves P t := by
  constructor
  · exact fun h t ht a ha => h a (.item ht ha)
  · intro h a ha
    cases ha with
    | item hmem ha => exact h _ hmem a ha

theorem allLeaves_object {P : α → Prop} {members : List (K × Tree K α)} :
    AllLeaves P (object members) ↔ ∀ m ∈ members, AllLeaves P m.2 := by
  constructor
  · exact fun h m hm a ha => h a (.member hm ha)
  · intro h a ha
    cases ha with
    | member hmem ha => exact h _ hmem a ha

/-- The leaves of a tree are those of the trees in their places. -/
theorem AllLeaves.bind {P : β → Prop} {f : α → Tree K β} {t : Tree K α} (h : ∀ a, t.HasLeaf a → AllLeaves P (f a)) :
    AllLeaves P (t.bind f) := by
  induction t using Tree.induction with
  | leaf a => exact h a (.leaf a)
  | array items ih =>
    rw [Tree.bind, bindItems_eq, allLeaves_array]
    intro t ht
    obtain ⟨t, hmem, rfl⟩ := List.mem_map.mp ht
    exact ih t hmem fun a ha => h a (.item hmem ha)
  | object members ih =>
    rw [Tree.bind, bindMembers_eq, allLeaves_object]
    intro m hm
    obtain ⟨m, hmem, rfl⟩ := List.mem_map.mp hm
    exact ih m hmem fun a ha => h a (.member hmem ha)

/-- The tree is a leaf that stands for nothing. -/
def isAbsent (absent : α → Bool) : Tree K α → Bool
  | leaf a => absent a
  | _ => false

/-- A key or a leaf is written, where members that stand for nothing are left out. -/
inductive Writes (absent : α → Bool) : Tree K α → K ⊕ α → Prop
  | leaf (a : α) : Writes absent (leaf a) (.inr a)
  | item {t : Tree K α} {items : List (Tree K α)} {x : K ⊕ α} (hmem : t ∈ items) (h : Writes absent t x) :
      Writes absent (array items) x
  | key {key : K} {t : Tree K α} {members : List (K × Tree K α)} (hmem : (key, t) ∈ members)
      (hpresent : t.isAbsent absent = false) : Writes absent (object members) (.inl key)
  | member {key : K} {t : Tree K α} {members : List (K × Tree K α)} {x : K ⊕ α} (hmem : (key, t) ∈ members)
      (hpresent : t.isAbsent absent = false) (h : Writes absent t x) : Writes absent (object members) x

theorem Writes.hasLeaf {absent : α → Bool} {t : Tree K α} {a : α} (h : t.Writes absent (.inr a)) : t.HasLeaf a := by
  generalize hx : (Sum.inr a : K ⊕ α) = x at h
  induction h with
  | leaf b =>
    obtain rfl : a = b := Sum.inr.inj hx
    exact .leaf a
  | item hmem _ ih => exact .item hmem (ih hx)
  | key hmem hpresent => cases hx
  | member hmem hpresent _ ih => exact .member hmem (ih hx)

/-- What is written of a tree with trees in the places of its leaves: its keys, and what is written of those trees. -/
theorem writes_bind {absent : β → Bool} {f : α → Tree K β} {t : Tree K α} {x : K ⊕ β} :
    (t.bind f).Writes absent x ↔
      (∃ key, x = .inl key ∧ t.Writes (fun a => (f a).isAbsent absent) (.inl key)) ∨
        ∃ a, t.Writes (fun a => (f a).isAbsent absent) (.inr a) ∧ (f a).Writes absent x := by
  have habsent : ∀ t : Tree K α, (t.bind f).isAbsent absent = t.isAbsent fun a => (f a).isAbsent absent := by
    intro t
    cases t <;> rfl
  induction t using Tree.induction with
  | leaf b =>
    constructor
    · exact fun h => .inr ⟨b, .leaf b, h⟩
    · rintro (⟨key, rfl, h⟩ | ⟨a, ha, h⟩)
      · cases h
      · cases ha
        exact h
  | array items ih =>
    rw [Tree.bind, bindItems_eq]
    constructor
    · intro h
      cases h with
      | item hmem h =>
        obtain ⟨t, ht, rfl⟩ := List.mem_map.mp hmem
        rcases (ih t ht).mp h with ⟨key, rfl, hkey⟩ | ⟨a, ha, h⟩
        · exact .inl ⟨key, rfl, .item ht hkey⟩
        · exact .inr ⟨a, .item ht ha, h⟩
    · rintro (⟨key, rfl, hkey⟩ | ⟨a, ha, h⟩)
      · cases hkey with
        | item ht hkey => exact .item (List.mem_map_of_mem ht) ((ih _ ht).mpr (.inl ⟨key, rfl, hkey⟩))
      · cases ha with
        | item ht ha => exact .item (List.mem_map_of_mem ht) ((ih _ ht).mpr (.inr ⟨a, ha, h⟩))
  | object members ih =>
    rw [Tree.bind, bindMembers_eq]
    constructor
    · intro h
      cases h with
      | key hmem hpresent =>
        obtain ⟨m, hm, heq⟩ := List.mem_map.mp hmem
        obtain ⟨rfl, rfl⟩ := Prod.mk.inj heq
        rw [habsent] at hpresent
        exact .inl ⟨m.1, rfl, .key hm hpresent⟩
      | member hmem hpresent h =>
        obtain ⟨m, hm, heq⟩ := List.mem_map.mp hmem
        obtain ⟨rfl, rfl⟩ := Prod.mk.inj heq
        rw [habsent] at hpresent
        rcases (ih m hm).mp h with ⟨key, rfl, hkey⟩ | ⟨a, ha, h⟩
        · exact .inl ⟨key, rfl, .member hm hpresent hkey⟩
        · exact .inr ⟨a, .member hm hpresent ha, h⟩
    · rintro (⟨key, rfl, hkey⟩ | ⟨a, ha, h⟩)
      · cases hkey with
        | key hm hpresent =>
          rw [← habsent] at hpresent
          exact .key (List.mem_map.mpr ⟨_, hm, rfl⟩) hpresent
        | member hm hpresent hkey =>
          rw [← habsent] at hpresent
          exact .member (List.mem_map.mpr ⟨_, hm, rfl⟩) hpresent ((ih _ hm).mpr (.inl ⟨key, rfl, hkey⟩))
      · cases ha with
        | member hm hpresent ha =>
          rw [← habsent] at hpresent
          exact .member (List.mem_map.mpr ⟨_, hm, rfl⟩) hpresent ((ih _ hm).mpr (.inr ⟨a, ha, h⟩))

/-! ## Nesting -/

mutual

/-- How deep arrays and objects are nested. -/
def depth : Tree K α → ℕ
  | leaf _ => 0
  | array items => depthItems items + 1
  | object members => depthMembers members + 1

def depthItems : List (Tree K α) → ℕ
  | [] => 0
  | t :: items => max (depth t) (depthItems items)

def depthMembers : List (K × Tree K α) → ℕ
  | [] => 0
  | (_, t) :: members => max (depth t) (depthMembers members)

end

theorem depthItems_le {n : ℕ} {items : List (Tree K α)} : depthItems items ≤ n ↔ ∀ t ∈ items, t.depth ≤ n := by
  induction items with
  | nil => simp [depthItems]
  | cons t items ih => rw [depthItems, Nat.max_le, ih, List.forall_mem_cons]

theorem depthMembers_le {n : ℕ} {members : List (K × Tree K α)} :
    depthMembers members ≤ n ↔ ∀ m ∈ members, m.2.depth ≤ n := by
  induction members with
  | nil => simp [depthMembers]
  | cons m members ih => rw [depthMembers, Nat.max_le, ih, List.forall_mem_cons]

theorem depth_array_le {n : ℕ} {items : List (Tree K α)} :
    (array items : Tree K α).depth ≤ n + 1 ↔ ∀ t ∈ items, t.depth ≤ n := by
  rw [depth, Nat.add_le_add_iff_right, depthItems_le]

theorem depth_object_le {n : ℕ} {members : List (K × Tree K α)} :
    (object members).depth ≤ n + 1 ↔ ∀ m ∈ members, m.2.depth ≤ n := by
  rw [depth, Nat.add_le_add_iff_right, depthMembers_le]

/-- The trees in the places of the leaves add their nesting. -/
theorem depth_bind_le {n k : ℕ} {f : α → Tree K β} {t : Tree K α} (ht : t.depth ≤ n) (hf : ∀ a, (f a).depth ≤ k) :
    (t.bind f).depth ≤ n + k := by
  induction t using Tree.induction generalizing n with
  | leaf a => exact Nat.le_trans (hf a) (Nat.le_add_left _ _)
  | array items ih =>
    obtain ⟨n, rfl⟩ : ∃ m, n = m + 1 := ⟨n - 1, by rw [depth] at ht; omega⟩
    have hitems := depth_array_le.mp ht
    rw [Tree.bind, bindItems_eq, Nat.add_right_comm, depth_array_le]
    intro t hmem
    obtain ⟨t, hin, rfl⟩ := List.mem_map.mp hmem
    exact ih t hin (hitems t hin)
  | object members ih =>
    obtain ⟨n, rfl⟩ : ∃ m, n = m + 1 := ⟨n - 1, by rw [depth] at ht; omega⟩
    have hmembers := depth_object_le.mp ht
    rw [Tree.bind, bindMembers_eq, Nat.add_right_comm, depth_object_le]
    intro m hmem
    obtain ⟨m, hin, rfl⟩ := List.mem_map.mp hmem
    exact ih m hin (hmembers m hin)

/-! ## Settling -/

variable [DecidableEq K]

mutual

/-- The tree with the members of its objects assigned one by one. -/
def settle (skips : K → Bool) : Tree K α → Tree K α
  | leaf a => leaf a
  | array items => array (settleItems skips items)
  | object members => object (assignFrom skips [] (settleMembers skips members))

def settleItems (skips : K → Bool) : List (Tree K α) → List (Tree K α)
  | [] => []
  | t :: items => settle skips t :: settleItems skips items

def settleMembers (skips : K → Bool) : List (K × Tree K α) → List (K × Tree K α)
  | [] => []
  | (key, t) :: members => (key, settle skips t) :: settleMembers skips members

end

@[simp] theorem settleItems_eq (skips : K → Bool) (items : List (Tree K α)) :
    settleItems skips items = items.map (settle skips) := by
  induction items with
  | nil => rfl
  | cons t items ih => rw [settleItems, List.map_cons, ih]

@[simp] theorem settleMembers_eq (skips : K → Bool) (members : List (K × Tree K α)) :
    settleMembers skips members = members.map fun m => (m.1, settle skips m.2) := by
  induction members with
  | nil => rfl
  | cons m members ih => rw [settleMembers, List.map_cons, ih]

/-- Settling adds no leaf. -/
theorem HasLeaf.of_settle {skips : K → Bool} {t : Tree K α} {a : α} (h : (t.settle skips).HasLeaf a) : t.HasLeaf a := by
  induction t using Tree.induction with
  | leaf b => exact h
  | array items ih =>
    rw [settle, settleItems_eq] at h
    cases h with
    | item hmem h =>
      obtain ⟨t, hin, rfl⟩ := List.mem_map.mp hmem
      exact .item hin (ih t hin h)
  | object members ih =>
    rw [settle, settleMembers_eq] at h
    cases h with
    | member hmem h =>
      rcases mem_of_mem_assignFrom hmem with hnil | hmem
      · exact absurd hnil List.not_mem_nil
      · obtain ⟨m, hm, heq⟩ := List.mem_map.mp hmem
        obtain ⟨rfl, rfl⟩ := Prod.mk.inj heq
        exact .member hm (ih m hm h)

/-- Nor nesting. -/
theorem depth_settle_le {skips : K → Bool} {n : ℕ} {t : Tree K α} (h : t.depth ≤ n) : (t.settle skips).depth ≤ n := by
  induction t using Tree.induction generalizing n with
  | leaf b => exact h
  | array items ih =>
    obtain ⟨n, rfl⟩ : ∃ m, n = m + 1 := ⟨n - 1, by rw [depth] at h; omega⟩
    have hitems := depth_array_le.mp h
    rw [settle, settleItems_eq, depth_array_le]
    intro t hmem
    obtain ⟨t, hin, rfl⟩ := List.mem_map.mp hmem
    exact ih t hin (hitems t hin)
  | object members ih =>
    obtain ⟨n, rfl⟩ : ∃ m, n = m + 1 := ⟨n - 1, by rw [depth] at h; omega⟩
    have hmembers := depth_object_le.mp h
    rw [settle, settleMembers_eq, depth_object_le]
    intro m hmem
    rcases mem_of_mem_assignFrom hmem with hnil | hmem
    · exact absurd hnil List.not_mem_nil
    · obtain ⟨m, hm, rfl⟩ := List.mem_map.mp hmem
      exact ih m hm (hmembers m hm)

end Tree

end SdidBridge
