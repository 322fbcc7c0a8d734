import Mathlib.Data.Bool.AllAny
import Mathlib.Data.List.Sort
import SdidBridge.Codec.Runs
import SdidBridge.Shared.IsoDate
import SdidBridge.Shared.JsText
import SdidBridge.Shared.JsonText
import SdidBridge.Shared.Tree

/-!
# `JSON.stringify` in code units

The text of a tree of primitive values, as UTF-16 code units. What JSON puts around the texts of keys and leaves holds
no digit, so that a run of digits stands in a key or in a leaf (`hasRun_stringify`). An escape ends in hexadecimal
digits, which the digits after it prolong (`hasRun_quoteFrom`).
-/

namespace SdidBridge.Shared

open Codec

/-! ## Texts -/

/-- A text of the language, as its UTF-16 code units. -/
abbrev JsString := List UInt16

instance lawfulBEq_jsString : LawfulBEq JsString := inferInstance

/-- The text of characters. -/
def units (cs : List Char) : JsString := (cs.flatMap codeUnits).map UInt16.ofNat

/-- The text of a literal. -/
def js (text : String) : JsString := units text.toList

/-- `\d`. -/
def isDigitUnit (u : UInt16) : Bool := decide (0x30 ≤ u ∧ u ≤ 0x39)

/-! ## Values -/

/-- What a call throws. -/
inductive JsError where
  | typeError
  | rangeError
  deriving DecidableEq

/-- A value that is no object. -/
inductive Primitive where
  | undefined
  | null
  | bool (b : Bool)
  | number (n : JsNumber)
  | bigint (n : ℤ)
  | string (text : JsString)
  | symbol
  | function

/-- A value of fresh arrays and plain objects. -/
abbrev JsTree := Tree JsString Primitive

/-! ## Keys -/

/-- The number of a key that is an array index. -/
def arrayIndex (key : JsString) : Option ℕ :=
  let value := key.foldl (fun n u => 10 * n + (u.toNat - 0x30)) 0
  if key ≠ [] ∧ key.all isDigitUnit = true ∧ (key.head? ≠ some 0x30 ∨ key.length = 1) ∧ value < 2 ^ 32 - 1 then
    some value
  else none

/-- Members in the order of the own keys of an object: the array indices in their order, and then the others. -/
def ownOrder {β : Type} (members : List (JsString × β)) : List (JsString × β) :=
  ((members.filter fun m => (arrayIndex m.1).isSome).insertionSort fun m m' =>
    (arrayIndex m.1).getD 0 ≤ (arrayIndex m'.1).getD 0) ++ members.filter fun m => !(arrayIndex m.1).isSome

theorem mem_ownOrder {β : Type} {members : List (JsString × β)} {m : JsString × β} :
    m ∈ ownOrder members ↔ m ∈ members := by
  unfold ownOrder
  rw [List.mem_append, List.mem_insertionSort, List.mem_filter, List.mem_filter]
  cases (arrayIndex m.1).isSome <;> simp

/-- The order of the keys loses no member. -/
theorem ownOrder_perm {β : Type} (members : List (JsString × β)) : (ownOrder members).Perm members := by
  have hsorted := List.perm_insertionSort (fun m m' : JsString × β =>
    (arrayIndex m.1).getD 0 ≤ (arrayIndex m'.1).getD 0) (members.filter fun m => (arrayIndex m.1).isSome)
  exact (hsorted.append_right _).trans (List.filter_append_perm _ members)

/-! ## Strings -/

def isHighSurrogate (u : UInt16) : Bool := decide (0xd800 ≤ u ∧ u < 0xdc00)

def isLowSurrogate (u : UInt16) : Bool := decide (0xdc00 ≤ u ∧ u < 0xe000)

/-- The unit is half of a pair, by the units before and after it. -/
def isPaired (before after : Option UInt16) (u : UInt16) : Bool :=
  (isHighSurrogate u && after.any isLowSurrogate) || (isLowSurrogate u && before.any isHighSurrogate)

/-- The units that have an escape of two units, with the second of these: `\b`, `\t`, `\n`, `\f`, `\r`, the quote, and
the backslash. -/
def shortEscapes : List (UInt16 × UInt16) :=
  [(0x08, 0x62), (0x09, 0x74), (0x0a, 0x6e), (0x0c, 0x66), (0x0d, 0x72), (0x22, 0x22), (0x5c, 0x5c)]

/-- The escape of two units. -/
def shortEscape (u : UInt16) : Option JsString :=
  (shortEscapes.find? fun m => m.1 == u).map fun m => [0x5c, m.2]

/-- The four hexadecimal digits of a unit. -/
def hexUnits (u : UInt16) : JsString :=
  units ([u.toNat / 0x1000, u.toNat / 0x100, u.toNat / 0x10, u.toNat].map fun n => hexDigit (Fin.ofNat 16 n))

/-- The unit is escaped by its number: a control character, or a surrogate without its pair. -/
def isEscaped (before after : Option UInt16) (u : UInt16) : Bool :=
  (shortEscape u).isNone && (decide (u < 0x20) || ((isHighSurrogate u || isLowSurrogate u) && !isPaired before after u))

/-- `QuoteJSONString` for one unit. -/
def quoteUnit (before after : Option UInt16) (u : UInt16) : JsString :=
  match shortEscape u with
  | some text => text
  | none => if isEscaped before after u then js "\\u" ++ hexUnits u else [u]

/-- The units of a text between quotes, after the unit before it. -/
def quoteFrom : Option UInt16 → JsString → JsString
  | _, [] => []
  | before, u :: rest => quoteUnit before rest.head? u ++ quoteFrom (some u) rest

/-- `QuoteJSONString`. -/
def quoteJson (text : JsString) : JsString := 0x22 :: (quoteFrom none text ++ [0x22])

/-! ## `JSON.stringify` -/

/-- The text of a primitive value, if JSON has one. A bigint is an error. -/
def stringifyPrimitive : Primitive → Except JsError (Option JsString)
  | .undefined | .symbol | .function => .ok none
  | .null => .ok (some (js "null"))
  | .bool true => .ok (some (js "true"))
  | .bool false => .ok (some (js "false"))
  | .number n => .ok (some (units (numberText n)))
  | .bigint _ => .error .typeError
  | .string text => .ok (some (quoteJson text))

/-- Texts with commas between them, in brackets. -/
def enclose (left : UInt16) (texts : List JsString) (right : UInt16) : JsString :=
  left :: (List.intercalate [0x2c] texts ++ [right])

/-- The text of a member. -/
def entryText (member : JsString × JsString) : JsString := quoteJson member.1 ++ 0x3a :: member.2

mutual

/-- `JSON.stringify`, which is undefined for some values. -/
def jsonStringify : JsTree → Except JsError (Option JsString)
  | .leaf p => stringifyPrimitive p
  | .array items => do
    let texts ← stringifyItems items
    return some (enclose 0x5b texts 0x5d)
  | .object members => do
    let texts ← stringifyEntries members
    return some (enclose 0x7b ((ownOrder texts).map entryText) 0x7d)

/-- The texts of the items of an array. One without a text is `null`. -/
def stringifyItems : List JsTree → Except JsError (List JsString)
  | [] => .ok []
  | t :: items => do
    let text ← jsonStringify t
    let texts ← stringifyItems items
    return text.getD (js "null") :: texts

/-- The texts of the members of an object. One without a text is left out. -/
def stringifyEntries : List (JsString × JsTree) → Except JsError (List (JsString × JsString))
  | [] => .ok []
  | (key, t) :: members => do
    let text ← jsonStringify t
    let texts ← stringifyEntries members
    match text with
    | some text => return (key, text) :: texts
    | none => return texts

end

/-! ## Runs of digits -/

/-- How many decimal digits the escape of a unit ends in. -/
def escapedDigits (u : UInt16) : ℕ := endRun isDigitUnit (js "\\u" ++ hexUnits u)

/-- The escape of a unit and the digits after it are a run of `n`. -/
def SpillsFrom (n : ℕ) (first : Option UInt16) (text : JsString) : Prop :=
  ∃ before u rest, text = before ++ u :: rest ∧ isEscaped (before.getLast?.or first) rest.head? u = true ∧
    n ≤ escapedDigits u + startRun isDigitUnit rest

theorem spillsFrom_cons {n : ℕ} {first : Option UInt16} {u : UInt16} {rest : JsString} :
    SpillsFrom n first (u :: rest) ↔
      (isEscaped first rest.head? u = true ∧ n ≤ escapedDigits u + startRun isDigitUnit rest) ∨
        SpillsFrom n (some u) rest := by
  constructor
  · rintro ⟨before, v, after, heq, hescaped, hn⟩
    cases before with
    | nil =>
      obtain ⟨rfl, rfl⟩ := List.cons.inj heq
      exact .inl ⟨hescaped, hn⟩
    | cons w before =>
      obtain ⟨rfl, rfl⟩ := List.cons.inj heq
      refine .inr ⟨before, v, after, rfl, ?_, hn⟩
      cases before with
      | nil => exact hescaped
      | cons x before => rwa [List.getLast?_cons_cons] at hescaped
  · rintro (⟨hescaped, hn⟩ | ⟨before, v, after, rfl, hescaped, hn⟩)
    · exact ⟨[], u, rest, rfl, hescaped, hn⟩
    · refine ⟨u :: before, v, after, rfl, ?_, hn⟩
      cases before with
      | nil => exact hescaped
      | cons x before => rwa [List.getLast?_cons_cons]

theorem not_spillsFrom_nil {n : ℕ} {first : Option UInt16} : ¬SpillsFrom n first [] := by
  rintro ⟨before, u, rest, heq, -⟩
  cases before <;> cases heq

theorem isDigitUnit_iff {u : UInt16} : isDigitUnit u = true ↔ 0x30 ≤ u.toNat ∧ u.toNat ≤ 0x39 := by
  unfold isDigitUnit
  rw [decide_eq_true_iff, UInt16.le_iff_toNat_le, UInt16.le_iff_toNat_le]
  exact Iff.rfl

theorem isDigitUnit_backslash : isDigitUnit 0x5c = false := by decide

/-- A short escape is two units that are no digits, and stands for no digit. -/
theorem shortEscape_eq_some {u : UInt16} {text : JsString} (h : shortEscape u = some text) :
    ∃ e, text = [0x5c, e] ∧ isDigitUnit e = false ∧ isDigitUnit u = false := by
  have hall : ∀ m ∈ shortEscapes, isDigitUnit m.1 = false ∧ isDigitUnit m.2 = false :=
    List.all_iff_forall_prop.mp (by decide)
  obtain ⟨m, hm, rfl⟩ := Option.map_eq_some_iff.mp h
  have hkey : m.1 = u := by simpa using List.find?_some hm
  obtain ⟨hfirst, hsecond⟩ := hall m (List.mem_of_find?_eq_some hm)
  exact ⟨m.2, rfl, hsecond, hkey ▸ hfirst⟩

/-- A digit is not escaped. -/
theorem not_isEscaped_digit {before after : Option UInt16} {u : UInt16} (hu : isDigitUnit u = true) :
    isEscaped before after u = false := by
  obtain ⟨hlower, hupper⟩ := isDigitUnit_iff.mp hu
  have hcontrol : ¬u < 0x20 := by
    rw [UInt16.lt_iff_toNat_lt, not_lt]
    exact Nat.le_trans (by decide) hlower
  have hhigh : isHighSurrogate u = false := by
    refine decide_eq_false fun h => ?_
    have hle := UInt16.le_iff_toNat_le.mp h.1
    exact absurd (Nat.le_trans hle hupper) (by decide)
  have hlow : isLowSurrogate u = false := by
    refine decide_eq_false fun h => ?_
    have hle := UInt16.le_iff_toNat_le.mp h.1
    exact absurd (Nat.le_trans hle hupper) (by decide)
  unfold isEscaped
  rw [hhigh, hlow, decide_eq_false hcontrol]
  simp

theorem quoteUnit_of_escaped {before after : Option UInt16} {u : UInt16} (h : isEscaped before after u = true) :
    quoteUnit before after u = js "\\u" ++ hexUnits u := by
  have hshort : shortEscape u = none := by
    unfold isEscaped at h
    exact Option.isNone_iff_eq_none.mp (Bool.and_eq_true_iff.mp h).1
  unfold quoteUnit
  rw [hshort]
  exact if_pos h

theorem quoteUnit_digit {before after : Option UInt16} {u : UInt16} (hu : isDigitUnit u = true) :
    quoteUnit before after u = [u] := by
  have hescaped : isEscaped before after u = false := not_isEscaped_digit hu
  unfold quoteUnit
  split
  · rename_i text htext
    obtain ⟨e, -, -, hdigit⟩ := shortEscape_eq_some htext
    rw [hu] at hdigit
    cases hdigit
  · rw [hescaped]
    rfl

/-- What stands for a unit that is no digit starts with none, and ends with none unless it is an escape. -/
theorem quoteUnit_of_not_digit (before after : Option UInt16) {u : UInt16} (hu : isDigitUnit u = false) :
    (∃ c more, quoteUnit before after u = c :: more ∧ isDigitUnit c = false ∧ more.length ≤ 5) ∧
      (isEscaped before after u = false → endRun isDigitUnit (quoteUnit before after u) = 0) := by
  have hend : ∀ c d, isDigitUnit d = false → endRun isDigitUnit [c, d] = 0 := fun c d hd => startRun_cons_of_neg hd
  constructor
  · unfold quoteUnit
    split
    · rename_i text htext
      obtain ⟨e, rfl, -, -⟩ := shortEscape_eq_some htext
      exact ⟨0x5c, [e], rfl, isDigitUnit_backslash, by simp⟩
    · split
      · refine ⟨0x5c, 0x75 :: hexUnits u, rfl, isDigitUnit_backslash, ?_⟩
        have hunits : ∀ d : Fin 16, (codeUnits (hexDigit d)).length = 1 := by decide
        simp [hexUnits, units, hunits]
      · exact ⟨u, [], rfl, hu, by simp⟩
  · intro hescaped
    unfold quoteUnit
    split
    · rename_i text htext
      obtain ⟨e, rfl, he, -⟩ := shortEscape_eq_some htext
      exact hend _ _ he
    · rw [hescaped]
      exact startRun_cons_of_neg hu

/-- The digits at the start of a text are not escaped. -/
theorem startRun_quoteFrom (first : Option UInt16) (text : JsString) :
    startRun isDigitUnit (quoteFrom first text) = startRun isDigitUnit text := by
  induction text generalizing first with
  | nil => rfl
  | cons u rest ih =>
    rw [quoteFrom]
    by_cases hu : isDigitUnit u = true
    · rw [quoteUnit_digit hu, List.singleton_append, startRun_cons_of_pos hu, startRun_cons_of_pos hu, ih]
    · have hu' : isDigitUnit u = false := Bool.eq_false_iff.mpr hu
      obtain ⟨⟨c, more, hquote, hc, -⟩, -⟩ := quoteUnit_of_not_digit first rest.head? hu'
      rw [hquote, List.cons_append, startRun_cons_of_neg hc, startRun_cons_of_neg hu']

/-- A run of digits between quotes is one of the text, or an escape spills into it. -/
theorem hasRun_quoteFrom {n : ℕ} (hn : 6 < n) (first : Option UInt16) (text : JsString) :
    HasRun isDigitUnit n (quoteFrom first text) ↔ HasRun isDigitUnit n text ∨ SpillsFrom n first text := by
  induction text generalizing first with
  | nil => simp [quoteFrom, not_spillsFrom_nil]
  | cons u rest ih =>
    rw [quoteFrom, hasRun_append, ih, startRun_quoteFrom, spillsFrom_cons, hasRun_cons]
    by_cases hu : isDigitUnit u = true
    · have hnone : ¬HasRun isDigitUnit n [u] := fun h => absurd h.le_length (by simp; omega)
      have hend : endRun isDigitUnit [u] = 1 := startRun_cons_of_pos hu
      have hescaped : isEscaped first rest.head? u = false := not_isEscaped_digit hu
      rw [quoteUnit_digit hu, hend, hescaped, startRun_cons_of_pos hu, Nat.add_comm 1]
      constructor
      · rintro (h | (h | h) | h)
        · exact absurd h hnone
        · exact .inl (.inr h)
        · exact .inr (.inr h)
        · exact .inl (.inl h)
      · rintro ((h | h) | ⟨h, -⟩ | h)
        · exact .inr (.inr h)
        · exact .inr (.inl (.inl h))
        · cases h
        · exact .inr (.inl (.inr h))
    · have hu' : isDigitUnit u = false := Bool.eq_false_iff.mpr hu
      obtain ⟨⟨c, more, hquote, -, hlength⟩, hend⟩ :=
        quoteUnit_of_not_digit first rest.head? hu'
      have hnone : ¬HasRun isDigitUnit n (quoteUnit first rest.head? u) := by
        intro h
        have hle := h.le_length
        rw [hquote, List.length_cons] at hle
        omega
      rw [startRun_cons_of_neg hu']
      cases hescaped : isEscaped first rest.head? u with
      | true =>
        have hdigits : endRun isDigitUnit (quoteUnit first rest.head? u) = escapedDigits u := by
          rw [quoteUnit_of_escaped hescaped]
          rfl
        rw [hdigits]
        constructor
        · rintro (h | (h | h) | h)
          · exact absurd h hnone
          · exact .inl (.inr h)
          · exact .inr (.inr h)
          · exact .inr (.inl ⟨rfl, h⟩)
        · rintro ((h | h) | ⟨-, h⟩ | h)
          · omega
          · exact .inr (.inl (.inl h))
          · exact .inr (.inr h)
          · exact .inr (.inl (.inr h))
      | false =>
        rw [hend hescaped, Nat.zero_add]
        constructor
        · rintro (h | (h | h) | h)
          · exact absurd h hnone
          · exact .inl (.inr h)
          · exact .inr (.inr h)
          · exact .inl (.inr (hasRun_startRun h))
        · rintro ((h | h) | ⟨h, -⟩ | h)
          · omega
          · exact .inr (.inl (.inl h))
          · cases h
          · exact .inr (.inl (.inr h))

/-- A primitive value that JSON has no text for. -/
def Primitive.isAbsent : Primitive → Bool
  | .undefined | .symbol | .function => true
  | _ => false

/-- What is written has a run of digits. -/
def RunsIn (n : ℕ) : JsString ⊕ Primitive → Prop
  | .inl key => HasRun isDigitUnit n (quoteFrom none key)
  | .inr p => ∃ text, stringifyPrimitive p = .ok (some text) ∧ HasRun isDigitUnit n text

/-- Quotes add no run. -/
theorem hasRun_quoteJson {n : ℕ} (hn : 0 < n) (text : JsString) :
    HasRun isDigitUnit n (quoteJson text) ↔ HasRun isDigitUnit n (quoteFrom none text) := by
  have hquote : isDigitUnit 0x22 = false := by decide
  have hnil : ¬HasRun isDigitUnit n [] := fun h => absurd (hasRun_nil.mp h) hn.ne'
  have hfirst := @hasRun_append_cons _ _ n _ [] (quoteFrom none text ++ [0x22]) hquote
  have hlast := @hasRun_append_cons _ _ n _ (quoteFrom none text) [] hquote
  rw [List.nil_append] at hfirst
  unfold quoteJson
  rw [hfirst, hlast]
  tauto

/-- Nor does what stands between and around texts. -/
theorem hasRun_enclose {n : ℕ} (hn : 0 < n) {left right : UInt16} (hleft : isDigitUnit left = false)
    (hright : isDigitUnit right = false) (texts : List JsString) :
    HasRun isDigitUnit n (enclose left texts right) ↔ ∃ text ∈ texts, HasRun isDigitUnit n text := by
  have hcomma : isDigitUnit 0x2c = false := by decide
  have hnil : ¬HasRun isDigitUnit n [] := fun h => absurd (hasRun_nil.mp h) hn.ne'
  have hbetween : HasRun isDigitUnit n (List.intercalate [0x2c] texts) ↔ ∃ text ∈ texts, HasRun isDigitUnit n text := by
    induction texts with
    | nil => simp [List.intercalate, hnil]
    | cons text texts ih =>
      cases texts with
      | nil => simp [List.intercalate]
      | cons next texts =>
        have hcons : List.intercalate [0x2c] (text :: next :: texts) =
            text ++ 0x2c :: List.intercalate [0x2c] (next :: texts) := by
          simp [List.intercalate]
        rw [hcons, hasRun_append_cons hcomma, ih]
        simp only [List.exists_mem_cons_iff]
  have hfirst := @hasRun_append_cons _ _ n _ [] (List.intercalate [0x2c] texts ++ [right]) hleft
  have hlast := @hasRun_append_cons _ _ n _ (List.intercalate [0x2c] texts) [] hright
  rw [List.nil_append] at hfirst
  unfold enclose
  rw [hfirst, hlast, hbetween, or_iff_right hnil, or_iff_left hnil]

theorem hasRun_memberText {n : ℕ} (hn : 0 < n) (member : JsString × JsString) :
    HasRun isDigitUnit n (entryText member) ↔
      HasRun isDigitUnit n (quoteFrom none member.1) ∨ HasRun isDigitUnit n member.2 := by
  have hcolon : isDigitUnit 0x3a = false := by decide
  unfold entryText
  rw [hasRun_append_cons hcolon, hasRun_quoteJson hn]

/-- Only a leaf that stands for nothing has no text. -/
theorem stringify_eq_none {t : JsTree} {text : Option JsString} (h : jsonStringify t = .ok text) :
    t.isAbsent Primitive.isAbsent = text.isNone := by
  cases t with
  | leaf p =>
    rw [jsonStringify] at h
    cases p with
    | bool b => cases b <;> cases h <;> rfl
    | bigint n => cases h
    | _ => cases h; rfl
  | array items =>
    rw [jsonStringify] at h
    cases hitems : stringifyItems items with
    | error e =>
      rw [hitems] at h
      cases h
    | ok texts =>
      rw [hitems] at h
      cases h
      rfl
  | object members =>
    rw [jsonStringify] at h
    cases hmembers : stringifyEntries members with
    | error e =>
      rw [hmembers] at h
      cases h
    | ok texts =>
      rw [hmembers] at h
      cases h
      rfl

/-- The texts of items are those of the items one by one. -/
theorem stringifyItems_cons {t : JsTree} {items : List JsTree} {texts : List JsString}
    (h : stringifyItems (t :: items) = .ok texts) :
    ∃ text rest, jsonStringify t = .ok text ∧ stringifyItems items = .ok rest ∧ texts = text.getD (js "null") :: rest := by
  rw [stringifyItems] at h
  cases ht : jsonStringify t with
  | error e =>
    rw [ht] at h
    cases h
  | ok text =>
    cases hitems : stringifyItems items with
    | error e =>
      rw [ht, hitems] at h
      cases h
    | ok rest =>
      rw [ht, hitems] at h
      exact ⟨text, rest, rfl, rfl, (Except.ok.inj h).symm⟩

theorem stringifyMembers_cons {key : JsString} {t : JsTree} {members : List (JsString × JsTree)}
    {texts : List (JsString × JsString)} (h : stringifyEntries ((key, t) :: members) = .ok texts) :
    ∃ text rest, jsonStringify t = .ok text ∧ stringifyEntries members = .ok rest ∧
      texts = (text.map fun text => (key, text)).toList ++ rest := by
  rw [stringifyEntries] at h
  cases ht : jsonStringify t with
  | error e =>
    rw [ht] at h
    cases h
  | ok text =>
    cases hmembers : stringifyEntries members with
    | error e =>
      rw [ht, hmembers] at h
      cases h
    | ok rest =>
      rw [ht, hmembers] at h
      cases text with
      | none => exact ⟨none, rest, rfl, rfl, (Except.ok.inj h).symm⟩
      | some text => exact ⟨some text, rest, rfl, rfl, (Except.ok.inj h).symm⟩

/-- The text has a run exactly when something that is written has one. -/
def RunsAsWritten (n : ℕ) (t : JsTree) : Prop :=
  ∀ text, jsonStringify t = .ok text →
    ((∃ cs ∈ text, HasRun isDigitUnit n cs) ↔ ∃ x, t.Writes Primitive.isAbsent x ∧ RunsIn n x)

theorem runsAsWritten_items {n : ℕ} (hn : 0 < n) {items : List JsTree} {texts : List JsString}
    (hall : ∀ t ∈ items, RunsAsWritten n t) (h : stringifyItems items = .ok texts) :
    (∃ cs ∈ texts, HasRun isDigitUnit n cs) ↔ ∃ t ∈ items, ∃ x, t.Writes Primitive.isAbsent x ∧ RunsIn n x := by
  have hnull : ¬HasRun isDigitUnit n (js "null") := not_hasRun_of_forall hn (List.all_iff_forall_prop.mp (by decide))
  induction items generalizing texts with
  | nil =>
    cases h
    simp
  | cons t items ih =>
    obtain ⟨text, rest, ht, hrest, rfl⟩ := stringifyItems_cons h
    have hfirst : (∃ cs ∈ text, HasRun isDigitUnit n cs) ↔ ∃ x, t.Writes Primitive.isAbsent x ∧ RunsIn n x :=
      hall t List.mem_cons_self text ht
    have hothers : (∃ cs ∈ rest, HasRun isDigitUnit n cs) ↔
        ∃ t ∈ items, ∃ x, t.Writes Primitive.isAbsent x ∧ RunsIn n x :=
      ih (fun t ht => hall t (List.mem_cons_of_mem _ ht)) hrest
    have hitem : HasRun isDigitUnit n (text.getD (js "null")) ↔ ∃ cs ∈ text, HasRun isDigitUnit n cs := by
      cases text with
      | none => simp [hnull]
      | some text => simp
    simp only [List.exists_mem_cons_iff]
    rw [hitem, hfirst, hothers]

theorem runsAsWritten_members {n : ℕ} (hn : 0 < n) {members : List (JsString × JsTree)}
    {texts : List (JsString × JsString)} (hall : ∀ m ∈ members, RunsAsWritten n m.2)
    (h : stringifyEntries members = .ok texts) :
    (∃ m ∈ texts, HasRun isDigitUnit n (entryText m)) ↔
      ∃ m ∈ members, m.2.isAbsent Primitive.isAbsent = false ∧
        (RunsIn n (.inl m.1) ∨ ∃ x, m.2.Writes Primitive.isAbsent x ∧ RunsIn n x) := by
  induction members generalizing texts with
  | nil =>
    cases h
    simp
  | cons m members ih =>
    obtain ⟨key, t⟩ := m
    obtain ⟨text, rest, ht, hrest, rfl⟩ := stringifyMembers_cons h
    have hfirst : (∃ cs ∈ text, HasRun isDigitUnit n cs) ↔ ∃ x, t.Writes Primitive.isAbsent x ∧ RunsIn n x :=
      hall (key, t) List.mem_cons_self text ht
    have hothers := ih (fun m hm => hall m (List.mem_cons_of_mem _ hm)) hrest
    have habsent := stringify_eq_none ht
    simp only [List.exists_mem_cons_iff]
    rw [← hothers, habsent, ← hfirst]
    cases text with
    | none => simp
    | some text =>
      simp only [Option.map_some, Option.toList_some, List.singleton_append, List.exists_mem_cons_iff,
        hasRun_memberText hn, Option.isNone_some, true_and, Option.mem_def, Option.some.injEq, exists_eq_left', RunsIn]

/-- A run of digits in the text of a tree is one of a key or a leaf that is written. -/
theorem hasRun_stringify {n : ℕ} (hn : 0 < n) (t : JsTree) : RunsAsWritten n t := by
  induction t using Tree.induction with
  | leaf p =>
    intro text h
    rw [jsonStringify] at h
    constructor
    · rintro ⟨cs, hcs, hrun⟩
      obtain rfl : text = some cs := hcs
      exact ⟨.inr p, .leaf p, cs, h, hrun⟩
    · rintro ⟨x, hx, hrun⟩
      cases hx
      obtain ⟨cs, hcs, hrun⟩ := hrun
      rw [h] at hcs
      exact ⟨cs, Except.ok.inj hcs, hrun⟩
  | array items ih =>
    intro text h
    rw [jsonStringify] at h
    cases hitems : stringifyItems items with
    | error e =>
      rw [hitems] at h
      cases h
    | ok texts =>
      rw [hitems] at h
      obtain rfl : some (enclose 0x5b texts 0x5d) = text := Except.ok.inj h
      have htext : (∃ cs ∈ some (enclose 0x5b texts 0x5d), HasRun isDigitUnit n cs) ↔
          ∃ cs ∈ texts, HasRun isDigitUnit n cs := by
        simp only [Option.mem_def, Option.some.injEq, exists_eq_left']
        exact hasRun_enclose hn (by decide) (by decide) texts
      rw [htext, runsAsWritten_items hn ih hitems]
      constructor
      · rintro ⟨t, ht, x, hx, hrun⟩
        exact ⟨x, .item ht hx, hrun⟩
      · rintro ⟨x, hx, hrun⟩
        cases hx with
        | item ht hx => exact ⟨_, ht, x, hx, hrun⟩
  | object members ih =>
    intro text h
    rw [jsonStringify] at h
    cases hmembers : stringifyEntries members with
    | error e =>
      rw [hmembers] at h
      cases h
    | ok texts =>
      rw [hmembers] at h
      obtain rfl : some (enclose 0x7b ((ownOrder texts).map entryText) 0x7d) = text := Except.ok.inj h
      have htext : (∃ cs ∈ some (enclose 0x7b ((ownOrder texts).map entryText) 0x7d), HasRun isDigitUnit n cs) ↔
          ∃ m ∈ texts, HasRun isDigitUnit n (entryText m) := by
        simp only [Option.mem_def, Option.some.injEq, exists_eq_left']
        rw [hasRun_enclose hn (by decide) (by decide)]
        constructor
        · rintro ⟨cs, hcs, hrun⟩
          obtain ⟨m, hm, rfl⟩ := List.mem_map.mp hcs
          exact ⟨m, mem_ownOrder.mp hm, hrun⟩
        · rintro ⟨m, hm, hrun⟩
          exact ⟨_, List.mem_map_of_mem (mem_ownOrder.mpr hm), hrun⟩
      rw [htext, runsAsWritten_members hn ih hmembers]
      constructor
      · rintro ⟨m, hm, hpresent, hkey | ⟨x, hx, hrun⟩⟩
        · exact ⟨.inl m.1, .key hm hpresent, hkey⟩
        · exact ⟨x, .member hm hpresent hx, hrun⟩
      · rintro ⟨x, hx, hrun⟩
        cases hx with
        | key hm hpresent => exact ⟨_, hm, hpresent, .inl hrun⟩
        | member hm hpresent hx => exact ⟨_, hm, hpresent, .inr ⟨x, hx, hrun⟩⟩

/-- A tree without bigints has a text, or stands for nothing. -/
theorem stringify_eq_ok {t : JsTree} (h : t.AllLeaves fun p => ∃ text, stringifyPrimitive p = .ok text) :
    ∃ text, jsonStringify t = .ok text := by
  induction t using Tree.induction with
  | leaf p =>
    rw [jsonStringify]
    exact (Tree.allLeaves_leaf (P := fun p => ∃ text, stringifyPrimitive p = .ok text)).mp h
  | array items ih =>
    have hall := Tree.allLeaves_array.mp h
    have hitems : ∃ texts, stringifyItems items = .ok texts := by
      clear h
      induction items with
      | nil => exact ⟨[], rfl⟩
      | cons t items ihItems =>
        obtain ⟨text, ht⟩ := ih t List.mem_cons_self (hall t List.mem_cons_self)
        obtain ⟨texts, hrest⟩ := ihItems (fun t ht => ih t (List.mem_cons_of_mem _ ht))
          fun t ht => hall t (List.mem_cons_of_mem _ ht)
        refine ⟨text.getD (js "null") :: texts, ?_⟩
        rw [stringifyItems, ht, hrest]
        rfl
    obtain ⟨texts, hitems⟩ := hitems
    refine ⟨some (enclose 0x5b texts 0x5d), ?_⟩
    rw [jsonStringify, hitems]
    rfl
  | object members ih =>
    have hall := Tree.allLeaves_object.mp h
    have hmembers : ∃ texts, stringifyEntries members = .ok texts := by
      clear h
      induction members with
      | nil => exact ⟨[], rfl⟩
      | cons m members ihMembers =>
        obtain ⟨text, ht⟩ := ih m List.mem_cons_self (hall m List.mem_cons_self)
        obtain ⟨texts, hrest⟩ := ihMembers (fun m hm => ih m (List.mem_cons_of_mem _ hm))
          fun m hm => hall m (List.mem_cons_of_mem _ hm)
        cases text with
        | none =>
          refine ⟨texts, ?_⟩
          rw [stringifyEntries, ht, hrest]
          rfl
        | some text =>
          refine ⟨(m.1, text) :: texts, ?_⟩
          rw [stringifyEntries, ht, hrest]
          rfl
    obtain ⟨texts, hmembers⟩ := hmembers
    refine ⟨some (enclose 0x7b ((ownOrder texts).map entryText) 0x7d), ?_⟩
    rw [jsonStringify, hmembers]
    rfl

end SdidBridge.Shared
