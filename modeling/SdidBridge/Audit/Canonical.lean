import Mathlib.Data.List.Sort
import SdidBridge.Shared.JsonText

/-!
# The canonical text of a value

`stableStringify` of `audit.service.ts` writes a value with the members of every object in the order
of their keys, and without the members that are undefined. `canonical` is the value that it writes,
and `stringify` the plain text of a value, so that `stableStringify` is the plain text of the
canonical value (`stableStringify_eq`). The plain text determines the value (`stringify_inj`): each
text ends where it ends, and its first character tells the kind of the value. What a canonical text
says of a value is therefore the value up to the order of keys.
-/

namespace SdidBridge

/-- The UTF-16 code units of a character. -/
def utf16Units (c : Char) : List ℕ :=
  if c.toNat < 0x10000 then [c.toNat]
  else [0xD800 + (c.toNat - 0x10000) / 0x400, 0xDC00 + (c.toNat - 0x10000) % 0x400]

/-- The lexicographic order of code units. -/
def unitsLE : List ℕ → List ℕ → Bool
  | [], _ => true
  | _ :: _, [] => false
  | a :: as, b :: bs => a < b || (a == b && unitsLE as bs)

/-- The order of strings in JavaScript, by their UTF-16 code units. -/
def keyLE (a b : String) : Bool :=
  unitsLE (a.toList.flatMap utf16Units) (b.toList.flatMap utf16Units)

/-- Members in the order of their keys. -/
def sortKeys {α : Type} (ms : List (String × α)) : List (String × α) :=
  ms.insertionSort fun a b => keyLE a.1 b.1

/-- Texts with commas between them. -/
def join : List (List Char) → List Char
  | [] => []
  | x :: xs => x ++ xs.flatMap (',' :: ·)

/-- The text of a member of an object. -/
def memberText (m : String × List Char) : List Char := quote m.1 ++ ':' :: m.2

/-- Whether a value is `undefined`. -/
def JsValue.isUndefined : JsValue → Bool
  | .undefined => true
  | _ => false

mutual

/-- The canonical text of a value. In an array, `join` writes nothing for `undefined`. -/
def stableStringify : JsValue → List Char
  | .undefined => []
  | .null => ['n', 'u', 'l', 'l']
  | .bool true => ['t', 'r', 'u', 'e']
  | .bool false => ['f', 'a', 'l', 's', 'e']
  | .num n => numberText n
  | .str s => quote s
  | .arr vs => '[' :: (join (stableElements vs) ++ [']'])
  | .obj ms => '\x7b' :: (join ((sortKeys (stableEntries ms)).map memberText) ++ ['\x7d'])

/-- The canonical texts of the elements of an array. -/
def stableElements : List JsValue → List (List Char)
  | [] => []
  | v :: vs => stableStringify v :: stableElements vs

/-- The keys and the canonical texts of the members of an object that are not undefined. -/
def stableEntries : List (String × JsValue) → List (String × List Char)
  | [] => []
  | (k, v) :: ms =>
    if v.isUndefined then stableEntries ms else (k, stableStringify v) :: stableEntries ms

end

mutual

/-- The text of a value with the members of its objects as they stand. -/
def stringify : JsValue → List Char
  | .undefined => []
  | .null => ['n', 'u', 'l', 'l']
  | .bool true => ['t', 'r', 'u', 'e']
  | .bool false => ['f', 'a', 'l', 's', 'e']
  | .num n => numberText n
  | .str s => quote s
  | .arr vs => '[' :: (join (stringifyElements vs) ++ [']'])
  | .obj ms => '\x7b' :: (join ((stringifyMembers ms).map memberText) ++ ['\x7d'])

/-- The texts of the elements of an array. -/
def stringifyElements : List JsValue → List (List Char)
  | [] => []
  | v :: vs => stringify v :: stringifyElements vs

/-- The keys and the texts of the members of an object. -/
def stringifyMembers : List (String × JsValue) → List (String × List Char)
  | [] => []
  | (k, v) :: ms => (k, stringify v) :: stringifyMembers ms

end

mutual

/-- The value that is written: without undefined members, and with the keys of every object in
order. -/
def canonical : JsValue → JsValue
  | .arr vs => .arr (canonicalElements vs)
  | .obj ms => .obj (sortKeys (canonicalMembers ms))
  | .undefined => .undefined
  | .null => .null
  | .bool b => .bool b
  | .num n => .num n
  | .str s => .str s

/-- The canonical elements of an array. -/
def canonicalElements : List JsValue → List JsValue
  | [] => []
  | v :: vs => canonical v :: canonicalElements vs

/-- The canonical members of an object that are not undefined. -/
def canonicalMembers : List (String × JsValue) → List (String × JsValue)
  | [] => []
  | (k, v) :: ms => if v.isUndefined then canonicalMembers ms else (k, canonical v) :: canonicalMembers ms

end

mutual

/-- Whether a value is JSON: nothing in it is undefined, and its numbers are finite. -/
def JsValue.isJson : JsValue → Bool
  | .undefined => false
  | .null => true
  | .bool _ => true
  | .num n => n.isFinite
  | .str _ => true
  | .arr vs => elementsJson vs
  | .obj ms => membersJson ms

/-- Whether the elements of an array are JSON. -/
def elementsJson : List JsValue → Bool
  | [] => true
  | v :: vs => v.isJson && elementsJson vs

/-- Whether the members of an object are JSON. -/
def membersJson : List (String × JsValue) → Bool
  | [] => true
  | (_, v) :: ms => v.isJson && membersJson ms

end

example : String.ofList (stableStringify (.obj [("b", .nat 120), ("a", .arr [.null, .str "x"])])) =
    "\x7b\"a\":[null,\"x\"],\"b\":120\x7d" := by
  decide +kernel

/-! ## The lists of a value -/

theorem stringifyElements_eq (vs : List JsValue) : stringifyElements vs = vs.map stringify := by
  induction vs with
  | nil => rfl
  | cons v vs ih => rw [stringifyElements, ih, List.map_cons]

theorem stringifyMembers_eq (ms : List (String × JsValue)) :
    stringifyMembers ms = ms.map fun m => (m.1, stringify m.2) := by
  induction ms with
  | nil => rfl
  | cons m ms ih => rw [stringifyMembers, ih, List.map_cons]

theorem canonicalElements_eq (vs : List JsValue) : canonicalElements vs = vs.map canonical := by
  induction vs with
  | nil => rfl
  | cons v vs ih => rw [canonicalElements, ih, List.map_cons]

theorem elementsJson_iff {vs : List JsValue} :
    elementsJson vs = true ↔ ∀ v ∈ vs, v.isJson = true := by
  induction vs with
  | nil => simp [elementsJson]
  | cons v vs ih => simp [elementsJson, ih]

theorem membersJson_iff {ms : List (String × JsValue)} :
    membersJson ms = true ↔ ∀ m ∈ ms, m.2.isJson = true := by
  induction ms with
  | nil => simp [membersJson]
  | cons m ms ih => simp [membersJson, ih]

/-- Induction over a value: what holds of the elements of an array and of the members of an object
holds of the array and of the object. -/
theorem JsValue.induct {P : JsValue → Prop} (undefined : P .undefined) (null : P .null)
    (bool : ∀ b, P (.bool b)) (num : ∀ n, P (.num n)) (str : ∀ s, P (.str s))
    (arr : ∀ vs, (∀ v ∈ vs, P v) → P (.arr vs))
    (obj : ∀ ms, (∀ m ∈ ms, P m.2) → P (.obj ms)) : ∀ v, P v
  | .undefined => undefined
  | .null => null
  | .bool b => bool b
  | .num n => num n
  | .str s => str s
  | .arr vs => arr vs fun v _ => v.induct undefined null bool num str arr obj
  | .obj ms => obj ms fun m _ => m.2.induct undefined null bool num str arr obj
termination_by v => sizeOf v
decreasing_by
  · have := List.sizeOf_lt_of_mem ‹v ∈ vs›
    simp only [JsValue.arr.sizeOf_spec]
    omega
  · obtain ⟨k, v⟩ := m
    have := List.sizeOf_lt_of_mem ‹(k, v) ∈ ms›
    simp only [Prod.mk.sizeOf_spec, JsValue.obj.sizeOf_spec] at this ⊢
    omega

/-! ## The canonical text is the text of the canonical value -/

theorem isUndefined_canonical (v : JsValue) : (canonical v).isUndefined = v.isUndefined := by
  cases v <;> simp [canonical, JsValue.isUndefined]

/-- Sorting by keys does not look at the rest of the members. -/
theorem sortKeys_map {α β : Type} (f : α → β) (ms : List (String × α)) :
    sortKeys (ms.map fun m => (m.1, f m.2)) = (sortKeys ms).map fun m => (m.1, f m.2) := by
  unfold sortKeys
  exact (List.map_insertionSort _ _ _ _ (by simp)).symm

/-- `stableStringify` writes the canonical value. -/
theorem stableStringify_eq (v : JsValue) : stableStringify v = stringify (canonical v) := by
  induction v using JsValue.induct with
  | undefined => rfl
  | null => rfl
  | bool b => cases b <;> rfl
  | num n => rfl
  | str s => rfl
  | arr vs ih =>
    have h : stableElements vs = (vs.map canonical).map stringify := by
      induction vs with
      | nil => rfl
      | cons v vs ihs =>
        rw [stableElements, ih v List.mem_cons_self,
          ihs fun v hv => ih v (List.mem_cons_of_mem _ hv)]
        rfl
    rw [stableStringify, canonical, stringify, canonicalElements_eq, stringifyElements_eq, h]
  | obj ms ih =>
    have h : stableEntries ms = (canonicalMembers ms).map fun m => (m.1, stringify m.2) := by
      induction ms with
      | nil => rfl
      | cons m ms ihs =>
        obtain ⟨k, v⟩ := m
        rw [stableEntries, canonicalMembers, ih (k, v) List.mem_cons_self,
          ihs fun m hm => ih m (List.mem_cons_of_mem _ hm)]
        split_ifs <;> rfl
    rw [stableStringify, canonical, stringify, stringifyMembers_eq, h, sortKeys_map]

/-! ## The text determines the value -/

/-- What may follow a value: nothing that continues a number. -/
def Ends (r : List Char) : Prop := ∀ c cs, r = c :: cs → isNumberChar c = false

/-- The kind of a value by the first character of its text. -/
def kindOf (c : Char) : ℕ :=
  if c = 'n' then 1 else if c = 't' then 2 else if c = 'f' then 3 else if c = '"' then 4
  else if c = '[' then 5 else if c = '\x7b' then 6 else if isNumberChar c then 7 else 0

/-- The kind of a value. -/
def JsValue.kind : JsValue → ℕ
  | .undefined => 0
  | .null => 1
  | .bool true => 2
  | .bool false => 3
  | .str _ => 4
  | .arr _ => 5
  | .obj _ => 6
  | .num _ => 7

/-- The text of a value starts with a character of its kind. -/
theorem stringify_head {v : JsValue} (hv : v.isJson) :
    ∃ c cs, stringify v = c :: cs ∧ kindOf c = v.kind := by
  cases v with
  | undefined => simp [JsValue.isJson] at hv
  | null => exact ⟨_, _, rfl, by decide⟩
  | bool b => cases b <;> exact ⟨_, _, rfl, by decide⟩
  | str s => exact ⟨_, _, rfl, rfl⟩
  | arr vs => exact ⟨_, _, rfl, rfl⟩
  | obj ms => exact ⟨_, _, rfl, rfl⟩
  | num n =>
    obtain ⟨-, c, cs, hcs, hc⟩ := numberText_chars (by simpa [JsValue.isJson] using hv)
    refine ⟨c, cs, hcs, ?_⟩
    have hnum : isNumberChar c = true := by
      rcases hc with hc | rfl
      · simp [isNumberChar, hc]
      · decide
    have hne : ∀ d, isNumberChar d = false → c ≠ d := by
      rintro d hd rfl
      simp [hd] at hnum
    simp only [kindOf, hne 'n' (by decide), hne 't' (by decide), hne 'f' (by decide),
      hne '"' (by decide), hne '[' (by decide), hne '\x7b' (by decide), hnum, if_false, if_true,
      JsValue.kind]

/-- The text of a number ends where no character of a number follows. -/
theorem numberText_append_inj {m n : JsNumber} (hm : m.isFinite) (hn : n.isFinite)
    {r r' : List Char} (hr : Ends r) (hr' : Ends r')
    (h : numberText m ++ r = numberText n ++ r') : m = n ∧ r = r' := by
  have hspan : ∀ {n : JsNumber} {r : List Char}, n.isFinite → Ends r →
      (numberText n ++ r).takeWhile isNumberChar = numberText n ∧
      (numberText n ++ r).dropWhile isNumberChar = r := by
    intro n r hn hr
    have hall := (numberText_chars hn).1
    rw [List.takeWhile_append_of_pos hall, List.dropWhile_append_of_pos hall]
    cases r with
    | nil => simp
    | cons c cs => simp [hr c cs rfl]
  have hm' := hspan hm hr
  have hn' := hspan hn hr'
  rw [h] at hm'
  exact ⟨numberText_inj hm hn (hm'.1.symm.trans hn'.1), hm'.2.symm.trans hn'.2⟩

/-- Texts that determine what they are of, joined by commas and closed by a bracket that none of
them starts with, determine the list. -/
theorem join_inj {α : Type} {f : α → List Char} {close : Char} (hclose : isNumberChar close = false)
    (hcomma : close ≠ ',') {as bs : List α}
    (hhead : ∀ a, a ∈ as ∨ a ∈ bs → ∃ c cs, f a = c :: cs ∧ c ≠ close)
    (hf : ∀ a ∈ as, ∀ b ∈ bs, ∀ r r', Ends r → Ends r' → f a ++ r = f b ++ r' → a = b ∧ r = r')
    {r r' : List Char} (h : join (as.map f) ++ close :: r = join (bs.map f) ++ close :: r') :
    as = bs ∧ r = r' := by
  have hends : ∀ {cs : List α} {r}, Ends ((cs.map f).flatMap (',' :: ·) ++ close :: r) := by
    intro cs r c cs' hc
    cases cs with
    | nil =>
      simp only [List.map_nil, List.flatMap_nil, List.nil_append, List.cons.injEq] at hc
      rw [← hc.1, hclose]
    | cons b bs =>
      simp only [List.map_cons, List.flatMap_cons, List.cons_append, List.cons.injEq] at hc
      rw [← hc.1]
      decide
  -- The elements after the first, each with its comma.
  have htail : ∀ {as' bs' : List α}, (∀ a ∈ as', a ∈ as) → (∀ b ∈ bs', b ∈ bs) →
      (as'.map f).flatMap (',' :: ·) ++ close :: r = (bs'.map f).flatMap (',' :: ·) ++ close :: r' →
      as' = bs' ∧ r = r' := by
    intro as'
    induction as' with
    | nil =>
      intro bs' _ _ h
      cases bs' with
      | nil => simpa using h
      | cons b bs' =>
        simp only [List.map_nil, List.flatMap_nil, List.nil_append, List.map_cons,
          List.flatMap_cons, List.cons_append, List.cons.injEq] at h
        exact absurd h.1 hcomma
    | cons a as' ih =>
      intro bs' ha hb h
      cases bs' with
      | nil =>
        simp only [List.map_nil, List.flatMap_nil, List.nil_append, List.map_cons,
          List.flatMap_cons, List.cons_append, List.cons.injEq] at h
        exact absurd h.1.symm hcomma
      | cons b bs' =>
        simp only [List.map_cons, List.flatMap_cons, List.cons_append, List.cons.injEq, true_and,
          List.append_assoc] at h
        obtain ⟨rfl, hrest⟩ := hf a (ha a List.mem_cons_self) b (hb b List.mem_cons_self) _ _ hends
          hends h
        obtain ⟨rfl, rfl⟩ := ih (fun x hx => ha x (List.mem_cons_of_mem _ hx))
          (fun x hx => hb x (List.mem_cons_of_mem _ hx)) hrest
        exact ⟨rfl, rfl⟩
  cases as with
  | nil =>
    cases bs with
    | nil => simpa using h
    | cons b bs =>
      obtain ⟨c, cs, hcs, hne⟩ := hhead b (.inr List.mem_cons_self)
      simp only [List.map_nil, join, List.nil_append, List.map_cons, hcs, List.cons_append,
        List.cons.injEq] at h
      exact absurd h.1.symm hne
  | cons a as =>
    cases bs with
    | nil =>
      obtain ⟨c, cs, hcs, hne⟩ := hhead a (.inl List.mem_cons_self)
      simp only [List.map_nil, join, List.nil_append, List.map_cons, hcs, List.cons_append,
        List.cons.injEq] at h
      exact absurd h.1 hne
    | cons b bs =>
      simp only [List.map_cons, join, List.append_assoc] at h
      obtain ⟨rfl, hrest⟩ := hf a List.mem_cons_self b List.mem_cons_self _ _ hends hends h
      obtain ⟨rfl, rfl⟩ := htail (fun x hx => List.mem_cons_of_mem _ hx)
        (fun x hx => List.mem_cons_of_mem _ hx) hrest
      exact ⟨rfl, rfl⟩

/-- Values with a common text are of one kind. -/
theorem kind_eq {v w : JsValue} (hv : v.isJson) (hw : w.isJson) {r r' : List Char}
    (h : stringify v ++ r = stringify w ++ r') : v.kind = w.kind := by
  obtain ⟨c, cs, hcs, hc⟩ := stringify_head hv
  obtain ⟨d, ds, hds, hd⟩ := stringify_head hw
  rw [hcs, hds, List.cons_append, List.cons_append, List.cons.injEq] at h
  rw [← hc, ← hd, h.1]

/-- No value's text starts with a closing bracket. -/
theorem stringify_head_ne {v : JsValue} (hv : v.isJson) {close : Char} (hclose : kindOf close = 0) :
    ∃ c cs, stringify v = c :: cs ∧ c ≠ close := by
  obtain ⟨c, cs, hcs, hc⟩ := stringify_head hv
  refine ⟨c, cs, hcs, ?_⟩
  rintro rfl
  cases v with
  | undefined => simp [JsValue.isJson] at hv
  | bool b => cases b <;> simp [JsValue.kind, hclose] at hc
  | _ => simp [JsValue.kind, hclose] at hc

/-- The text of a JSON value ends where it ends, and determines the value. -/
theorem stringify_append_inj {v w : JsValue} (hv : v.isJson) (hw : w.isJson) {r r' : List Char}
    (hr : Ends r) (hr' : Ends r') (h : stringify v ++ r = stringify w ++ r') : v = w ∧ r = r' := by
  have hkind := kind_eq hv hw h
  induction v using JsValue.induct generalizing w r r' with
  | undefined => simp [JsValue.isJson] at hv
  | null =>
    cases w with
    | null => simpa [stringify] using h
    | bool b => cases b <;> simp [JsValue.kind] at hkind
    | _ => simp [JsValue.kind] at hkind
  | bool b =>
    cases w with
    | bool b' =>
      cases b <;> cases b' <;> simp [JsValue.kind] at hkind
      all_goals simpa [stringify] using h
    | _ => cases b <;> simp [JsValue.kind] at hkind
  | num n =>
    cases w with
    | num n' =>
      obtain ⟨rfl, hrr⟩ := numberText_append_inj (by simpa [JsValue.isJson] using hv)
        (by simpa [JsValue.isJson] using hw) hr hr' h
      exact ⟨rfl, hrr⟩
    | bool b => cases b <;> simp [JsValue.kind] at hkind
    | _ => simp [JsValue.kind] at hkind
  | str s =>
    cases w with
    | str s' =>
      obtain ⟨rfl, hrr⟩ := quote_inj h
      exact ⟨rfl, hrr⟩
    | bool b => cases b <;> simp [JsValue.kind] at hkind
    | _ => simp [JsValue.kind] at hkind
  | arr vs ih =>
    cases w with
    | arr ws =>
      simp only [JsValue.isJson, elementsJson_iff] at hv hw
      simp only [stringify, stringifyElements_eq, List.cons_append, List.append_assoc,
        List.nil_append, List.cons.injEq, true_and] at h
      obtain ⟨rfl, hrr⟩ := join_inj (by decide) (by decide)
        (fun a ha => stringify_head_ne (ha.elim (hv a) (hw a)) (by decide))
        (fun a ha b hb r r' hr hr' hab => ih a ha (hv a ha) (hw b hb) hr hr' hab
          (kind_eq (hv a ha) (hw b hb) hab)) h
      exact ⟨rfl, hrr⟩
    | bool b => cases b <;> simp [JsValue.kind] at hkind
    | _ => simp [JsValue.kind] at hkind
  | obj ms ih =>
    cases w with
    | obj ns =>
      simp only [JsValue.isJson, membersJson_iff] at hv hw
      simp only [stringify, stringifyMembers_eq, List.map_map, List.cons_append, List.append_assoc,
        List.nil_append, List.cons.injEq, true_and] at h
      -- A member's text is its key, a colon, and the text of its value.
      have hmember : ∀ a ∈ ms, ∀ b ∈ ns, ∀ r r', Ends r → Ends r' →
          memberText (a.1, stringify a.2) ++ r = memberText (b.1, stringify b.2) ++ r' →
          a = b ∧ r = r' := by
        intro a ha b hb r r' hr hr' hab
        simp only [memberText, List.append_assoc, List.cons_append] at hab
        obtain ⟨hkey, hval⟩ := quote_inj hab
        simp only [List.cons.injEq, true_and] at hval
        obtain ⟨hv₂, hrr⟩ := ih a ha (hv a ha) (hw b hb) hr hr' hval
          (kind_eq (hv a ha) (hw b hb) hval)
        exact ⟨Prod.ext hkey hv₂, hrr⟩
      have hhead : ∀ a : String × JsValue, a ∈ ms ∨ a ∈ ns →
          ∃ c cs, memberText (a.1, stringify a.2) = c :: cs ∧ c ≠ '\x7d' :=
        fun a _ => ⟨'"', _, rfl, by decide⟩
      obtain ⟨rfl, hrr⟩ := join_inj (by decide) (by decide) hhead hmember h
      exact ⟨rfl, hrr⟩
    | bool b => cases b <;> simp [JsValue.kind] at hkind
    | _ => simp [JsValue.kind] at hkind

/-- The text of a JSON value determines the value. -/
theorem stringify_inj {v w : JsValue} (hv : v.isJson) (hw : w.isJson)
    (h : stringify v = stringify w) : v = w := by
  have hnil : Ends [] := by simp [Ends]
  exact (stringify_append_inj hv hw hnil hnil (by rw [h])).1

/-- Sorting by keys keeps the members. -/
theorem mem_sortKeys {α : Type} {m : String × α} {ms : List (String × α)} :
    m ∈ sortKeys ms ↔ m ∈ ms :=
  List.mem_insertionSort _

/-- The canonical form of a JSON value is JSON. -/
theorem isJson_canonical {v : JsValue} (hv : v.isJson) : (canonical v).isJson := by
  induction v using JsValue.induct with
  | undefined => simp [JsValue.isJson] at hv
  | null => rfl
  | bool b => rfl
  | num n => exact hv
  | str s => rfl
  | arr vs ih =>
    simp only [JsValue.isJson, elementsJson_iff] at hv
    simp only [canonical, JsValue.isJson, elementsJson_iff, canonicalElements_eq, List.mem_map]
    rintro _ ⟨v, hmem, rfl⟩
    exact ih v hmem (hv v hmem)
  | obj ms ih =>
    simp only [JsValue.isJson, membersJson_iff] at hv
    have hall : ∀ m ∈ canonicalMembers ms, m.2.isJson = true := by
      induction ms with
      | nil => simp [canonicalMembers]
      | cons m ms ihs =>
        obtain ⟨k, v⟩ := m
        intro m hm
        rw [canonicalMembers] at hm
        have hrest := ihs (fun m hm => ih m (List.mem_cons_of_mem _ hm))
          fun m hm => hv m (List.mem_cons_of_mem _ hm)
        split_ifs at hm with hu
        · exact hrest m hm
        · rcases List.mem_cons.mp hm with rfl | hm
          · exact ih (k, v) List.mem_cons_self (hv (k, v) List.mem_cons_self)
          · exact hrest m hm
    simp only [canonical, JsValue.isJson, membersJson_iff]
    exact fun m hm => hall m (mem_sortKeys.mp hm)

/-- The canonical text of a JSON value determines it up to the order of keys. -/
theorem stableStringify_inj {v w : JsValue} (hv : v.isJson) (hw : w.isJson)
    (h : stableStringify v = stableStringify w) : canonical v = canonical w := by
  rw [stableStringify_eq, stableStringify_eq] at h
  exact stringify_inj (isJson_canonical hv) (isJson_canonical hw) h

end SdidBridge
