import SdidBridge.Logging.Digits
import SdidBridge.Logging.Total

/-!
# Lines with 16 digits

A log line has 16 digits in a row exactly when its message, the id of its request or its fields show them
(`write_iff`). What the fields show is seen on the walk: its keys, and the leaves that are not left out.
-/

namespace SdidBridge.Logging

open Codec Shared

/-! ## What is met -/

/-- An undefined value, which is left out of objects. -/
def Met.isUndefined : Met → Bool
  | .value (.primitive .undefined) => true
  | _ => false

/-- What is met shows 16 digits. -/
def MetLeaks : Met → Prop
  | .value (.primitive (.string text)) => TextLeaks text
  | .value (.binary byteLength) => 10 ^ 15 ≤ byteLength
  | .value (.error name message stack) => KeyLeaks name ∨ TextLeaks message ∨ ∃ text ∈ stack, TextLeaks text
  | _ => False

/-- A key or a leaf of a walk shows 16 digits. -/
def Leaks : JsString ⊕ Met → Prop
  | .inl key => KeyLeaks key
  | .inr m => MetLeaks m

/-- The markers of a walk show no digits. -/
def Met.IsQuiet : Met → Prop
  | .marker text => ¬KeyLeaks text
  | _ => True

theorem keyLeaks_iff {text : JsString} : HasRun isDigitUnit NID_LENGTH (quoteFrom none text) ↔ KeyLeaks text :=
  hasRun_quoteFrom (by decide) none text

/-- What is written of a tree shows 16 digits. -/
def Shows (t : JsTree) : Prop := ∃ x, t.Writes Primitive.isAbsent x ∧ RunsIn NID_LENGTH x

theorem shows_leaf {p : Primitive} : Shows (.leaf p) ↔ RunsIn NID_LENGTH (.inr p) := by
  constructor
  · rintro ⟨x, hx, hrun⟩
    cases hx
    exact hrun
  · exact fun h => ⟨_, .leaf p, h⟩

theorem shows_text {text : JsString} : Shows (textLeaf text) ↔ KeyLeaks text := by
  unfold textLeaf
  rw [shows_leaf, ← keyLeaks_iff, ← hasRun_quoteJson (by decide)]
  constructor
  · rintro ⟨quoted, h, hrun⟩
    rwa [← Option.some.inj (Except.ok.inj h)] at hrun
  · exact fun h => ⟨_, rfl, h⟩

theorem shows_scrubbed {text : JsString} : Shows (textLeaf (scrubString text)) ↔ TextLeaks text := by
  rw [shows_text, ← keyLeaks_iff, hasRun_scrubString]

/-- A leaf with a text without digits. -/
theorem not_shows_leaf {p : Primitive} (h : ∀ text, stringifyPrimitive p = .ok (some text) → ∀ u ∈ text, isDigitUnit u = false) :
    ¬Shows (.leaf p) := by
  rw [shows_leaf]
  rintro ⟨text, htext, hrun⟩
  exact not_hasRun_of_forall (by decide) (h text htext) hrun

theorem shows_object {members : List (JsString × JsTree)} :
    Shows (.object members) ↔
      ∃ m ∈ members, m.2.isAbsent Primitive.isAbsent = false ∧ (KeyLeaks m.1 ∨ Shows m.2) := by
  constructor
  · rintro ⟨x, hx, hrun⟩
    cases hx with
    | key hm hpresent => exact ⟨_, hm, hpresent, .inl (keyLeaks_iff.mp hrun)⟩
    | member hm hpresent hx => exact ⟨_, hm, hpresent, .inr ⟨x, hx, hrun⟩⟩
  · rintro ⟨m, hm, hpresent, hkey | ⟨x, hx, hrun⟩⟩
    · exact ⟨.inl m.1, .key hm hpresent, keyLeaks_iff.mpr hkey⟩
    · exact ⟨x, .member hm hpresent hx, hrun⟩

/-- A text of plain units without digits. -/
theorem not_keyLeaks_of_digitless {text : JsString} (h : ∀ u ∈ text, isPlain u = true ∧ isDigitUnit u = false) :
    ¬KeyLeaks text :=
  not_keyLeaks_of_plain (fun u hu => (h u hu).1) (not_hasRun_of_forall (by decide) fun u hu => (h u hu).2)

/-- A number of up to 15 digits between texts. -/
theorem keyLeaks_framed {before after : JsString} {c d : UInt16} (n : ℕ)
    (hbefore : ∀ u ∈ before ++ [c], isPlain u = true ∧ isDigitUnit u = false)
    (hafter : ∀ u ∈ d :: after, isPlain u = true ∧ isDigitUnit u = false) :
    KeyLeaks (before ++ c :: (digitUnits n ++ d :: after)) ↔ 10 ^ 15 ≤ n := by
  have hnone : ∀ {text : JsString}, (∀ u ∈ text, isDigitUnit u = false) → ¬HasRun isDigitUnit NID_LENGTH text :=
    not_hasRun_of_forall (by decide)
  have hrun : HasRun isDigitUnit NID_LENGTH (before ++ c :: (digitUnits n ++ d :: after)) ↔ 10 ^ 15 ≤ n := by
    rw [hasRun_framed (hbefore c (by simp)).2 (hafter d List.mem_cons_self).2
      (hnone fun u hu => (hbefore u (List.mem_append_left _ hu)).2)
      (hnone fun u hu => (hafter u (List.mem_cons_of_mem _ hu)).2)]
    exact hasRun_digitUnits
  have hplain : ∀ u ∈ before ++ c :: (digitUnits n ++ d :: after), isPlain u = true := by
    intro u hu
    simp only [List.mem_append, List.mem_cons] at hu
    rcases hu with hu | hu | hu | hu
    · exact (hbefore u (List.mem_append_left _ hu)).1
    · exact (hbefore u (by simp [hu])).1
    · exact isPlain_digitUnits n u hu
    · exact (hafter u (List.mem_cons.mpr hu)).1
  constructor
  · intro h
    by_contra hsmall
    exact not_keyLeaks_of_plain hplain (fun hrunning => hsmall (hrun.mp hrunning)) h
  · exact fun h => .inl (hrun.mpr h)

/-- The copy of what is met shows 16 digits when it does. -/
theorem shows_metTree {m : Met} (hquiet : m.IsQuiet) (hvalid : m.IsValid) : Shows (metTree m) ↔ MetLeaks m := by
  have hnot : ∀ {t : JsTree}, ¬Shows t → (Shows t ↔ False) := fun h => iff_of_false h not_false
  have hredacted : ¬Shows (textLeaf REDACTED) := by
    rw [shows_text]
    exact not_keyLeaks_of_digitless (List.all_iff_forall_prop.mp (by decide))
  cases m with
  | marker text =>
    refine hnot ?_
    rw [metTree, shows_text]
    exact hquiet
  | value l =>
    cases l with
    | primitive p =>
      cases p with
      | undefined => exact hnot (not_shows_leaf fun text h => by cases h)
      | null => exact hnot (not_shows_leaf fun text h => by cases h; exact List.all_iff_forall_prop.mp (by decide))
      | bool b => exact hnot (not_shows_leaf fun text h => by cases b <;> (cases h; exact List.all_iff_forall_prop.mp (by decide)))
      | number n =>
        refine hnot ?_
        by_cases hrun : HasRun isDigitUnit NID_LENGTH (numberUnits n)
        · have hcopy : metTree (.value (.primitive (.number n))) = textLeaf REDACTED_NID := if_pos hrun
          rw [hcopy, shows_text]
          exact not_keyLeaks_of_digitless (List.all_iff_forall_prop.mp (by decide))
        · have hcopy : metTree (.value (.primitive (.number n))) = .leaf (.number n) := if_neg hrun
          rw [hcopy, shows_leaf]
          rintro ⟨text, htext, hdigits⟩
          obtain rfl : units (numberText n) = text := Option.some.inj (Except.ok.inj htext)
          cases n with
          | nonFinite => exact not_hasRun_of_forall (by decide) (List.all_iff_forall_prop.mp (by decide)) hdigits
          | zero => exact hrun hdigits
          | finite neg coeff expo hc => exact hrun hdigits
      | bigint n =>
        refine hnot ?_
        have hcopy : metTree (.value (.primitive (.bigint n))) = textLeaf (scrubString (bigintUnits n)) := rfl
        rw [hcopy, shows_scrubbed]
        refine not_textLeaks_of_plain fun u hu => ?_
        unfold bigintUnits at hu
        split at hu
        · rcases List.mem_cons.mp hu with rfl | hu
          · decide
          · exact isPlain_digitUnits _ u hu
        · exact isPlain_digitUnits _ u hu
      | string text => exact shows_scrubbed
      | symbol => exact hnot hredacted
      | function => exact hnot hredacted
    | binary n =>
      have htext : js "[binary " ++ digitUnits n ++ js " bytes]" =
          js "[binary" ++ 0x20 :: (digitUnits n ++ 0x20 :: js "bytes]") := by
        rw [List.append_assoc]
        rfl
      have hcopy : metTree (.value (.binary n)) = textLeaf (js "[binary " ++ digitUnits n ++ js " bytes]") := rfl
      rw [hcopy, shows_text, htext]
      exact keyLeaks_framed n (List.all_iff_forall_prop.mp (by decide))
        (List.all_iff_forall_prop.mp (by decide))
    | date time =>
      cases time with
      | none => exact hvalid.elim
      | some time =>
        refine hnot ?_
        have hcopy : metTree (.value (.date (some time))) = textLeaf (units (toISOString time.val)) := rfl
        rw [hcopy, shows_text]
        exact not_keyLeaks_of_plain (isPlain_toISOString time.val) (not_hasRun_toISOString time)
    | error name message stack =>
      have hname : ¬KeyLeaks (js "name") := not_keyLeaks_of_digitless (List.all_iff_forall_prop.mp (by decide))
      have hmessage : ¬KeyLeaks (js "message") := not_keyLeaks_of_digitless (List.all_iff_forall_prop.mp (by decide))
      have hstackKey : ¬KeyLeaks (js "stack") := not_keyLeaks_of_digitless (List.all_iff_forall_prop.mp (by decide))
      have hempty : ¬TextLeaks [] := not_textLeaks_of_plain fun u hu => absurd hu List.not_mem_nil
      have hstack : ((stackLeaf stack).isAbsent Primitive.isAbsent = false ∧
          (KeyLeaks (js "stack") ∨ Shows (stackLeaf stack))) ↔ ∃ text ∈ stack, TextLeaks text := by
        rw [or_iff_right hstackKey]
        cases stack with
        | none => simp [stackLeaf, Tree.isAbsent, Primitive.isAbsent]
        | some stack =>
          cases stack with
          | nil => simp [stackLeaf, Tree.isAbsent, Primitive.isAbsent, hempty]
          | cons u stack =>
            have hcopy : stackLeaf (some (u :: stack)) = textLeaf (scrubString (u :: stack)) := rfl
            rw [hcopy, shows_scrubbed]
            simp [textLeaf, Tree.isAbsent, Primitive.isAbsent]
      have hcopy : metTree (.value (.error name message stack)) =
          .object [(js "name", textLeaf name), (js "message", textLeaf (scrubString message)),
            (js "stack", stackLeaf stack)] := rfl
      rw [hcopy, shows_object]
      simp only [List.exists_mem_cons_iff, List.not_mem_nil, false_and, exists_false, or_false]
      rw [hstack, or_iff_right hname, or_iff_right hmessage, shows_text, shows_scrubbed]
      have hpresent : ∀ text, (textLeaf text).isAbsent Primitive.isAbsent = false := fun _ => rfl
      rw [hpresent, hpresent]
      simp only [true_and]
      exact Iff.rfl

/-! ## Markers -/

/-- A walk meets markers that show no digits. -/
def Quiet (walked : Value → Seen → MetTree × Seen) : Prop := ∀ v seen, (walked v seen).1.AllLeaves Met.IsQuiet

theorem quiet_marker {text : JsString} (h : ∀ u ∈ text, isPlain u = true ∧ isDigitUnit u = false) :
    Tree.AllLeaves Met.IsQuiet (markerLeaf text : MetTree) :=
  (Tree.allLeaves_leaf (P := Met.IsQuiet)).mpr (not_keyLeaks_of_digitless h)

/-- The number of items over the limit is short. -/
theorem quiet_more {n : ℕ} (hn : n < 2 ^ 32) : Tree.AllLeaves Met.IsQuiet (markerLeaf (moreText n) : MetTree) := by
  refine (Tree.allLeaves_leaf (P := Met.IsQuiet)).mpr ?_
  have htext : moreText n = js "[" ++ 0x2b :: (digitUnits (n - MAX_ARRAY_ITEMS) ++ 0x20 :: js "more]") := by
    unfold moreText
    rw [List.append_assoc]
    rfl
  have hsmall : ¬10 ^ 15 ≤ n - MAX_ARRAY_ITEMS := by omega
  change ¬KeyLeaks (moreText n)
  rw [htext, keyLeaks_framed _ (List.all_iff_forall_prop.mp (by decide))
    (List.all_iff_forall_prop.mp (by decide))]
  exact hsmall

section Markers

variable {walked : Value → Seen → MetTree × Seen}

theorem quiet_items (h : Quiet walked) (items : List Value) (seen : Seen) :
    ∀ t ∈ (walkItems walked items seen).1, t.AllLeaves Met.IsQuiet := by
  induction items generalizing seen with
  | nil => exact fun t ht => absurd ht List.not_mem_nil
  | cons v items ih =>
    intro t ht
    rcases List.mem_cons.mp ht with rfl | ht
    · exact h v seen
    · exact ih _ t ht

theorem quiet_array (h : Quiet walked) (items : Items) (seen : Seen) :
    (walkArray walked items.val seen).1.AllLeaves Met.IsQuiet := by
  have hitems := quiet_items h (items.val.take MAX_ARRAY_ITEMS) seen
  unfold walkArray
  rw [Tree.allLeaves_array]
  split
  · intro t ht
    rcases List.mem_append.mp ht with ht | ht
    · exact hitems t ht
    · rw [List.mem_singleton.mp ht]
      exact quiet_more items.property
  · exact hitems

theorem quiet_members (h : Quiet walked) (keys : ℕ) (members : List (JsString × Value)) (seen : Seen) :
    ∀ m ∈ (walkMembers walked keys members seen).1, m.2.AllLeaves Met.IsQuiet := by
  induction members generalizing keys seen with
  | nil => exact fun m hm => absurd hm List.not_mem_nil
  | cons m members ih =>
    obtain ⟨k, v⟩ := m
    rw [walkMembers]
    split
    · intro m hm
      rw [List.mem_singleton.mp hm]
      exact quiet_marker (List.all_iff_forall_prop.mp (by decide))
    · split
      · intro m hm
        rcases List.mem_cons.mp hm with rfl | hm
        · exact quiet_marker (List.all_iff_forall_prop.mp (by decide))
        · exact ih _ _ m hm
      · intro m hm
        rcases List.mem_cons.mp hm with rfl | hm
        · exact h v seen
        · exact ih _ _ m hm

theorem quiet_object (h : Quiet walked) (members : List (JsString × Value)) (seen : Seen) :
    (walkObject walked members seen).1.AllLeaves Met.IsQuiet :=
  Tree.allLeaves_object.mpr (quiet_members h 0 (ownOrder members) seen)

end Markers

theorem quiet_walkInner (heap : Heap) (levels : ℕ) : Quiet (walkInner heap levels) := by
  have hleaf : ∀ l, Tree.AllLeaves Met.IsQuiet (.leaf (.value l) : MetTree) := fun l =>
    (Tree.allLeaves_leaf (P := Met.IsQuiet)).mpr trivial
  induction levels with
  | zero =>
    intro v seen
    cases v with
    | leaf l => exact hleaf l
    | ref r =>
      rw [walkInner]
      split <;> exact quiet_marker (List.all_iff_forall_prop.mp (by decide))
  | succ levels ih =>
    intro v seen
    cases v with
    | leaf l => exact hleaf l
    | ref r =>
      rw [walkInner]
      split
      · exact quiet_marker (List.all_iff_forall_prop.mp (by decide))
      · cases heap r with
        | array items => exact quiet_array ih items _
        | map entries => exact quiet_object ih (fromEntries entries) _
        | set items => exact quiet_array ih items _
        | object members => exact quiet_object ih members _

/-! ## Fields -/

/-- The members of a tree without the reserved keys. -/
def withoutReserved {α : Type} : Tree JsString α → Tree JsString α
  | .object members => .object (members.filter fun m => !isReserved m.1)
  | t => t

/-- The fields show 16 digits: in a key, or in what is met under it. -/
def FieldsLeak (heap : Heap) (fields : Fields heap) : Prop :=
  ∃ x, (withoutReserved ((walk heap (.ref fields.ref)).settle isProto)).Writes Met.isUndefined x ∧ Leaks x

theorem absent_metTree {m : Met} : (metTree m).isAbsent Primitive.isAbsent = m.isUndefined := by
  cases m with
  | marker text => rfl
  | value l =>
    cases l with
    | primitive p =>
      cases p with
      | number n =>
        by_cases hrun : HasRun isDigitUnit NID_LENGTH (numberUnits n)
        · have hcopy : metTree (.value (.primitive (.number n))) = textLeaf REDACTED_NID := if_pos hrun
          rw [hcopy]
          rfl
        · have hcopy : metTree (.value (.primitive (.number n))) = .leaf (.number n) := if_neg hrun
          rw [hcopy]
          rfl
      | _ => rfl
    | binary n => rfl
    | date time => cases time <;> rfl
    | error name message stack => rfl

/-- What the copy of a tree shows is what the tree shows. -/
theorem shows_bind {t : MetTree} (hquiet : t.AllLeaves Met.IsQuiet) (hvalid : t.AllLeaves Met.IsValid) :
    Shows (t.bind metTree) ↔ ∃ x, t.Writes Met.isUndefined x ∧ Leaks x := by
  have habsent : (fun m => (metTree m).isAbsent Primitive.isAbsent) = Met.isUndefined := funext fun m => absent_metTree
  constructor
  · rintro ⟨x, hx, hrun⟩
    rcases Tree.writes_bind.mp hx with ⟨key, rfl, hkey⟩ | ⟨m, hm, hx⟩
    · rw [habsent] at hkey
      exact ⟨.inl key, hkey, keyLeaks_iff.mp hrun⟩
    · rw [habsent] at hm
      have hleaf := hm.hasLeaf
      exact ⟨.inr m, hm, (shows_metTree (hquiet m hleaf) (hvalid m hleaf)).mp ⟨x, hx, hrun⟩⟩
  · rintro ⟨x, hx, hleaks⟩
    cases x with
    | inl key =>
      rw [← habsent] at hx
      exact ⟨.inl key, Tree.writes_bind.mpr (.inl ⟨key, rfl, hx⟩), keyLeaks_iff.mpr hleaks⟩
    | inr m =>
      have hleaf := hx.hasLeaf
      obtain ⟨x, hwritten, hrun⟩ := (shows_metTree (hquiet m hleaf) (hvalid m hleaf)).mpr hleaks
      rw [← habsent] at hx
      exact ⟨x, Tree.writes_bind.mpr (.inr ⟨m, hx, hwritten⟩), hrun⟩

theorem allLeaves_withoutReserved {P : Met → Prop} {t : MetTree} (h : t.AllLeaves P) :
    (withoutReserved t).AllLeaves P := by
  cases t with
  | leaf m => exact h
  | array items => exact h
  | object members =>
    refine Tree.allLeaves_object.mpr fun m hm => ?_
    exact Tree.allLeaves_object.mp h m (List.mem_filter.mp hm).1

/-- The reserved keys are left out of the copy as they are of the walk. -/
theorem withoutReserved_bind (ts : List (JsString × MetTree)) :
    withoutReserved ((Tree.object ts).bind metTree) = (withoutReserved (.object ts)).bind metTree := by
  simp only [withoutReserved, Tree.bind, Tree.bindMembers_eq, List.filter_map]
  rfl

/-! ## Lines -/

/-- The keys of a record before its fields are reserved. -/
theorem reserved_baseRecord {now : TimeValue} {requestId : Option JsString} {level : BrokerLogLevel} {msg : JsString}
    {key : JsString} (h : key ∈ (baseRecord now requestId level msg).map Prod.fst) : isReserved key = true := by
  unfold baseRecord at h
  rw [List.map_append, List.mem_append] at h
  rcases h with h | h
  · simp only [List.map_cons, List.map_nil, List.mem_cons, List.not_mem_nil, or_false] at h
    rcases h with rfl | rfl | rfl <;> decide
  · unfold requestIdMember at h
    split at h
    · exact absurd h List.not_mem_nil
    · exact absurd h List.not_mem_nil
    · rw [List.map_singleton, List.mem_singleton] at h
      have hreserved : isReserved (js "requestId") = true := by decide
      rw [h]
      exact hreserved

theorem textLeaf_of_mem_baseRecord {now : TimeValue} {requestId : Option JsString} {level : BrokerLogLevel}
    {msg : JsString} {m : JsString × JsTree} (h : m ∈ baseRecord now requestId level msg) :
    ∃ text, m.2 = textLeaf text := by
  unfold baseRecord at h
  rcases List.mem_append.mp h with h | h
  · simp only [List.mem_cons, List.not_mem_nil, or_false] at h
    rcases h with rfl | rfl | rfl <;> exact ⟨_, rfl⟩
  · unfold requestIdMember at h
    split at h
    · exact absurd h List.not_mem_nil
    · exact absurd h List.not_mem_nil
    · rw [List.mem_singleton.mp h]
      exact ⟨_, rfl⟩

/-- A record before its fields shows the digits of its message and of its request. -/
theorem shows_baseRecord (now : TimeValue) (requestId : Option JsString) (level : BrokerLogLevel) (msg : JsString) :
    (∃ m ∈ baseRecord now requestId level msg,
      m.2.isAbsent Primitive.isAbsent = false ∧ (KeyLeaks m.1 ∨ Shows m.2)) ↔
      TextLeaks msg ∨ ∃ id ∈ requestId, KeyLeaks id := by
  have hkeys : ∀ key ∈ [js "ts", js "level", js "msg", js "requestId"], ¬KeyLeaks key := by
    intro key hkey
    have hall : ∀ key ∈ [js "ts", js "level", js "msg", js "requestId"],
        (key.all fun u => isPlain u = true ∧ isDigitUnit u = false) = true := by
      decide
    exact not_keyLeaks_of_digitless (List.all_iff_forall_prop.mp (hall key hkey))
  have hts : ¬KeyLeaks (units (toISOString now.val)) :=
    not_keyLeaks_of_plain (isPlain_toISOString now.val) (not_hasRun_toISOString now)
  have hlevel : ¬KeyLeaks (levelText level) := by
    have hall : ∀ u ∈ levelText level, isPlain u = true ∧ isDigitUnit u = false := by
      cases level <;> exact List.all_iff_forall_prop.mp (by decide)
    exact not_keyLeaks_of_digitless hall
  have hempty : ¬KeyLeaks [] := not_keyLeaks_of_digitless fun u hu => absurd hu List.not_mem_nil
  have hpresent : ∀ text, (textLeaf text).isAbsent Primitive.isAbsent = false := fun _ => rfl
  have hid : (∃ m ∈ requestIdMember requestId,
      m.2.isAbsent Primitive.isAbsent = false ∧ (KeyLeaks m.1 ∨ Shows m.2)) ↔ ∃ id ∈ requestId, KeyLeaks id := by
    cases requestId with
    | none => simp [requestIdMember]
    | some id =>
      cases id with
      | nil => simp [requestIdMember, hempty]
      | cons u id =>
        simp only [requestIdMember]
        simp only [List.exists_mem_cons_iff, List.not_mem_nil, false_and, exists_false, or_false, hpresent, shows_text,
          or_iff_right (hkeys (js "requestId") (by simp)), true_and, Option.mem_def, Option.some.injEq, exists_eq_left']
  unfold baseRecord
  simp only [List.mem_append, or_and_right, exists_or]
  rw [hid]
  simp only [List.exists_mem_cons_iff, List.not_mem_nil, false_and, exists_false, or_false, hpresent, true_and]
  rw [shows_text, shows_text, shows_scrubbed, or_iff_right (hkeys (js "ts") (by simp)),
    or_iff_right (hkeys (js "level") (by simp)), or_iff_right (hkeys (js "msg") (by simp)), or_iff_right hts,
    or_iff_right hlevel]

/-- The redaction of fields is an object whose members are copied one by one. -/
theorem copy_fields (heap : Heap) (fields : Fields heap) :
    ∃ ts, (walk heap (.ref fields.ref)).settle isProto = .object ts ∧ (ts.map Prod.fst).Nodup ∧
      copy (walk heap (.ref fields.ref)) = (Tree.object ts).bind metTree := by
  obtain ⟨members, hmembers⟩ := fields.isRecord
  have hwalk : walk heap (.ref fields.ref) =
      .object (walkMembers (walkInner heap 5) 0 (ownOrder members) [fields.ref]).1 := by
    change (walkInner heap (5 + 1) (.ref fields.ref) []).1 = _
    rw [walkInner, if_neg List.not_mem_nil, hmembers]
    rfl
  refine ⟨_, by rw [hwalk, Tree.settle], ?_, by rw [copy, hwalk, Tree.settle]⟩
  exact nodup_assignFrom _ List.nodup_nil

/-- The line of a record ends in a line feed, which is no digit. -/
theorem hasRun_line {record : List (JsString × JsTree)} {text : Option JsString}
    (h : jsonStringify (.object record) = .ok text) :
    ∃ cs, text = some cs ∧ (HasRun isDigitUnit NID_LENGTH (cs ++ [0x0a]) ↔ Shows (.object record)) := by
  have hsome : text.isNone = false := (stringify_eq_none h).symm
  cases text with
  | none => cases hsome
  | some cs =>
    have hruns := hasRun_stringify (n := NID_LENGTH) (by decide) (.object record) (some cs) h
    have hfeed := @hasRun_append_cons _ _ NID_LENGTH _ cs [] (by decide : isDigitUnit 0x0a = false)
    have hnil : ¬HasRun isDigitUnit NID_LENGTH [] := fun h => absurd (hasRun_nil.mp h) (by decide)
    refine ⟨cs, rfl, ?_⟩
    rw [hfeed, or_iff_left hnil]
    refine Iff.trans ?_ hruns
    simp

/-- What shows 16 digits in a line. -/
def LineLeaks (requestId : Option JsString) (heap : Heap) (msg : JsString) (fields : Option (Fields heap)) : Prop :=
  TextLeaks msg ∨ (∃ id ∈ requestId, KeyLeaks id) ∨ ∃ f ∈ fields, FieldsLeak heap f

/-- A line is written when the level passes and no invalid date is met, and it shows 16 digits exactly when one of its
parts does. -/
theorem exists_line {threshold : BrokerLogThreshold} (now : TimeValue) (requestId : Option JsString) {heap : Heap}
    {level : BrokerLogLevel} (msg : JsString) {fields : Option (Fields heap)}
    (hlevel : LEVEL_RANK threshold ≤ LEVEL_RANK (.level level))
    (hvalid : ∀ f ∈ fields, (walk heap (.ref f.ref)).AllLeaves Met.IsValid) :
    ∃ line, write threshold now requestId heap level msg fields = .ok (some line) ∧
      (HasRun isDigitUnit NID_LENGTH line ↔ LineLeaks requestId heap msg fields) := by
  have hbase := shows_baseRecord now requestId level msg
  have hbaseText : ∀ m ∈ baseRecord now requestId level msg, m.2.AllLeaves HasText := by
    intro m hm
    obtain ⟨text, htext⟩ := textLeaf_of_mem_baseRecord hm
    rw [htext]
    exact allLeaves_textLeaf text
  have hpass : ¬LEVEL_RANK (.level level) < LEVEL_RANK threshold := not_lt.mpr hlevel
  cases fields with
  | none =>
    obtain ⟨text, htext⟩ := stringify_eq_ok (Tree.allLeaves_object.mpr hbaseText)
    obtain ⟨cs, rfl, hrun⟩ := hasRun_line htext
    refine ⟨cs ++ [0x0a], ?_, ?_⟩
    · unfold write
      dsimp only
      rw [if_neg hpass]
      simp only [pure_bind, htext]
      rfl
    · rw [hrun, shows_object, hbase]
      unfold LineLeaks
      simp
  | some f =>
    have hvalidFields := hvalid f rfl
    obtain ⟨ts, hsettled, hnodup, hcopy⟩ := copy_fields heap f
    have hredact : redact heap (.ref f.ref) = .ok ((Tree.object ts).bind metTree) := by
      rw [← hcopy]
      exact (redact_walk heap (.ref f.ref)).1 hvalidFields
    have hquiet : (Tree.object ts).AllLeaves Met.IsQuiet := by
      rw [← hsettled]
      exact fun m hm => quiet_walkInner heap MAX_DEPTH (.ref f.ref) [] m hm.of_settle
    have hvalidTree : (Tree.object ts).AllLeaves Met.IsValid := by
      rw [← hsettled]
      exact fun m hm => hvalidFields m hm.of_settle
    have hcopies : (Tree.object ts).bind metTree = .object (ts.map fun m => (m.1, m.2.bind metTree)) := by
      rw [Tree.bind, Tree.bindMembers_eq]
    generalize hmembers : ts.map (fun m => (m.1, m.2.bind metTree)) = copies at hcopies
    have hkeys : ((ownOrder copies).map Prod.fst).Nodup := by
      refine ((ownOrder_perm copies).map Prod.fst).nodup_iff.mpr ?_
      rw [← hmembers, List.map_map]
      exact hnodup
    have hassigned : assignFrom isReserved (baseRecord now requestId level msg) (ownOrder copies) =
        baseRecord now requestId level msg ++ (ownOrder copies).filter fun m => !isReserved m.1 := by
      refine assignFrom_of_disjoint hkeys fun m _ hm hmem => ?_
      rw [reserved_baseRecord hmem] at hm
      cases hm
    have hcopiesText : ∀ m ∈ copies, m.2.AllLeaves HasText := by
      have hall : ((Tree.object ts).bind metTree).AllLeaves HasText :=
        Tree.AllLeaves.bind fun m _ => (metTree_bounds m).2
      rw [hcopies] at hall
      exact Tree.allLeaves_object.mp hall
    have hrecordText : ∀ m ∈ baseRecord now requestId level msg ++ (ownOrder copies).filter fun m => !isReserved m.1,
        m.2.AllLeaves HasText := by
      intro m hm
      rcases List.mem_append.mp hm with hm | hm
      · exact hbaseText m hm
      · exact hcopiesText m (mem_ownOrder.mp (List.mem_filter.mp hm).1)
    obtain ⟨text, htext⟩ := stringify_eq_ok (Tree.allLeaves_object.mpr hrecordText)
    obtain ⟨cs, rfl, hrun⟩ := hasRun_line htext
    have hline : (jsonStringify (.object (assignFrom isReserved (baseRecord now requestId level msg) (ownOrder copies))) >>=
        fun text => pure (text.map fun text => text ++ [0x0a])) =
          (.ok (some (cs ++ [0x0a])) : Except JsError (Option JsString)) := by
      rw [hassigned, htext]
      rfl
    refine ⟨cs ++ [0x0a], ?_, ?_⟩
    · unfold write
      dsimp only
      rw [if_neg hpass, hredact, hcopies]
      exact hline
    · have hfields : (∃ m ∈ (ownOrder copies).filter (fun m => !isReserved m.1),
          m.2.isAbsent Primitive.isAbsent = false ∧ (KeyLeaks m.1 ∨ Shows m.2)) ↔ FieldsLeak heap f := by
        have hshown := shows_bind (allLeaves_withoutReserved hquiet) (allLeaves_withoutReserved hvalidTree)
        rw [← withoutReserved_bind, hcopies, withoutReserved, shows_object] at hshown
        unfold FieldsLeak
        rw [hsettled, ← hshown]
        simp only [List.mem_filter, mem_ownOrder]
      rw [hrun, shows_object]
      simp only [List.mem_append, or_and_right, exists_or]
      rw [hbase, hfields]
      unfold LineLeaks
      simp only [Option.mem_def, Option.some.injEq, exists_eq_left', or_assoc]

/-- An id that a request carries shows the digits that it has, and a fresh one none. -/
theorem keyLeaks_sanitizeRequestId (raw : Option JsString) (fresh : Uuid) :
    KeyLeaks (sanitizeRequestId raw fresh) ↔
      ∃ id ∈ raw, isSafeRequestId id = true ∧ HasRun isDigitUnit NID_LENGTH id := by
  have hfresh : ¬KeyLeaks (units fresh.text.toList) := not_keyLeaks_of_plain (isPlain_uuid fresh) (not_hasRun_uuid fresh)
  cases raw with
  | none => simp [sanitizeRequestId, hfresh]
  | some id =>
    by_cases hsafe : isSafeRequestId id = true
    · have hplain : ∀ u ∈ id, isPlain u = true := by
        unfold isSafeRequestId at hsafe
        rw [Bool.and_eq_true, List.all_eq_true] at hsafe
        obtain ⟨-, hall⟩ := hsafe
        intro u hu
        have hunit := of_decide_eq_true (hall u hu)
        have hmarks : ∀ v ∈ js "_.:-", isPlain v = true := List.all_eq_true.mp (by decide)
        simp only [UInt16.le_iff_toNat_le] at hunit
        rcases hunit with ⟨hlower, hupper⟩ | ⟨hlower, hupper⟩ | ⟨hlower, hupper⟩ | hmark
        · exact isPlain_of_bounds (Nat.le_trans (by decide) hlower) (Nat.lt_of_le_of_lt hupper (by decide))
        · exact isPlain_of_bounds (Nat.le_trans (by decide) hlower) (Nat.lt_of_le_of_lt hupper (by decide))
        · exact isPlain_of_bounds (Nat.le_trans (by decide) hlower) (Nat.lt_of_le_of_lt hupper (by decide))
        · exact hmarks u hmark
      have hsame : sanitizeRequestId (some id) fresh = id := if_pos hsafe
      rw [hsame]
      constructor
      · intro h
        refine ⟨id, rfl, hsafe, ?_⟩
        by_contra hrun
        exact not_keyLeaks_of_plain hplain hrun h
      · rintro ⟨other, hother, -, hrun⟩
        rw [Option.some.inj hother]
        exact .inl hrun
    · have hother : sanitizeRequestId (some id) fresh = units fresh.text.toList := if_neg hsafe
      rw [hother]
      refine iff_of_false hfresh ?_
      rintro ⟨other, heq, hsafe', -⟩
      rw [← Option.some.inj heq] at hsafe'
      exact hsafe hsafe'

/-- No line has 16 digits in a row exactly when, of a line that is written, neither the message shows them, nor an id
that the request carries, nor the fields. -/
theorem write_iff (threshold : BrokerLogThreshold) (now : TimeValue) (context : Option (Option JsString × Uuid))
    (heap : Heap) (level : BrokerLogLevel) (msg : JsString) (fields : Option (Fields heap)) :
    (∀ line, write threshold now (context.map fun c => sanitizeRequestId c.1 c.2) heap level msg fields =
        .ok (some line) → ¬HasRun isDigitUnit NID_LENGTH line) ↔
      (LEVEL_RANK threshold ≤ LEVEL_RANK (.level level) →
        (∀ f ∈ fields, (walk heap (.ref f.ref)).AllLeaves Met.IsValid) →
          ¬TextLeaks msg ∧
            (∀ c ∈ context, ∀ id ∈ c.1, isSafeRequestId id = true → ¬HasRun isDigitUnit NID_LENGTH id) ∧
              ∀ f ∈ fields, ¬FieldsLeak heap f) := by
  have hleaks : LineLeaks (context.map fun c => sanitizeRequestId c.1 c.2) heap msg fields ↔
      TextLeaks msg ∨ (∃ c ∈ context, ∃ id ∈ c.1, isSafeRequestId id = true ∧ HasRun isDigitUnit NID_LENGTH id) ∨
        ∃ f ∈ fields, FieldsLeak heap f := by
    unfold LineLeaks
    cases context with
    | none => simp
    | some c =>
      simp only [Option.map_some, Option.mem_def, Option.some.injEq, exists_eq_left', keyLeaks_sanitizeRequestId]
  constructor
  · intro h hlevel hvalid
    obtain ⟨line, hline, hrun⟩ := exists_line now (context.map fun c => sanitizeRequestId c.1 c.2) msg hlevel hvalid
    have hnot := h line hline
    rw [hrun, hleaks] at hnot
    refine ⟨fun hmsg => hnot (.inl hmsg), fun c hc id hid hsafe hdigits => hnot (.inr (.inl ?_)),
      fun f hf hfields => hnot (.inr (.inr ⟨f, hf, hfields⟩))⟩
    exact ⟨c, hc, id, hid, hsafe, hdigits⟩
  · intro h line hline
    have hlevel : LEVEL_RANK threshold ≤ LEVEL_RANK (.level level) := by
      refine not_lt.mp fun hlow => ?_
      unfold write at hline
      dsimp only at hline
      rw [if_pos hlow] at hline
      cases hline
    have hvalid : ∀ f ∈ fields, (walk heap (.ref f.ref)).AllLeaves Met.IsValid := by
      intro f hf
      by_contra hinvalid
      obtain rfl : fields = some f := hf
      unfold write at hline
      dsimp only at hline
      rw [if_neg (not_lt.mpr hlevel), (redact_walk heap (.ref f.ref)).2 hinvalid] at hline
      cases hline
    obtain ⟨hmsg, hid, hfields⟩ := h hlevel hvalid
    obtain ⟨other, hother, hrun⟩ := exists_line now (context.map fun c => sanitizeRequestId c.1 c.2) msg hlevel hvalid
    rw [hline] at hother
    obtain rfl : line = other := Option.some.inj (Except.ok.inj hother)
    rw [hrun, hleaks]
    rintro (hleak | ⟨c, hc, id, hidMem, hsafe, hdigits⟩ | ⟨f, hf, hleak⟩)
    · exact hmsg hleak
    · exact hid c hc id hidMem hsafe hdigits
    · exact hfields f hf hleak

/-- The id of a request is written as its header carries it. -/
theorem not_write_digitless :
    ¬∀ (threshold : BrokerLogThreshold) (now : TimeValue) (context : Option (Option JsString × Uuid)) (heap : Heap)
        (level : BrokerLogLevel) (msg : JsString) (fields : Option (Fields heap)) (line : JsString),
      write threshold now (context.map fun c => sanitizeRequestId c.1 c.2) heap level msg fields = .ok (some line) →
        ¬HasRun isDigitUnit NID_LENGTH line := by
  intro h
  have fresh : Uuid := ⟨List.replicate 32 0, List.length_replicate⟩
  have hsafe : isSafeRequestId (js "1199880012345678") = true := by decide
  have hdigits : HasRun isDigitUnit NID_LENGTH (js "1199880012345678") :=
    hasRun_of_infix List.infix_rfl (List.all_eq_true.mp (by decide)) (by decide)
  have hleaks : KeyLeaks (sanitizeRequestId (some (js "1199880012345678")) fresh) :=
    (keyLeaks_sanitizeRequestId _ _).mpr ⟨_, rfl, hsafe, hdigits⟩
  have hnone : ∀ f ∈ (none : Option (Fields fun _ => .object [])), (walk (fun _ => .object []) (.ref f.ref)).AllLeaves
      Met.IsValid := fun f hf => by cases hf
  obtain ⟨line, hline, hrun⟩ := @exists_line (.level .info) ⟨0, by decide⟩
    (some (sanitizeRequestId (some (js "1199880012345678")) fresh)) _ .info (js "outside") none le_rfl hnone
  exact h (.level .info) ⟨0, by decide⟩ (some (some (js "1199880012345678"), fresh)) _ .info (js "outside") none line hline
    (hrun.mpr (.inr (.inl ⟨_, rfl, hleaks⟩)))

end SdidBridge.Logging
