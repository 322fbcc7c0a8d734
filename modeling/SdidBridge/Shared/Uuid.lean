import Mathlib.Data.List.Basic
import Mathlib.Tactic.Common

/-!
# Uuids and their spellings

A uuid column holds a value, and its text form has many spellings. `Uuid.ofText` is what Postgres
accepts as the text of a uuid, and `Uuid.text` what it prints: lower-case digits in groups of 8, 4,
4, 4, and 12. A request carries a spelling, which its schema checks with `zodUuid`; the two agree up
to the case of the digits, so that a spelling that passes both need not be the one that Postgres
prints.
-/

namespace SdidBridge

/-- A digit has a value. -/
instance neZero_sixteen : @NeZero ℕ Zero.ofOfNat0 16 := ⟨by decide⟩

/-- The value of a hexadecimal digit of either case. -/
def hexValue (c : Char) : Option (Fin 16) :=
  match c with
  | '0' => some 0 | '1' => some 1 | '2' => some 2 | '3' => some 3
  | '4' => some 4 | '5' => some 5 | '6' => some 6 | '7' => some 7
  | '8' => some 8 | '9' => some 9
  | 'a' => some 10 | 'b' => some 11 | 'c' => some 12 | 'd' => some 13 | 'e' => some 14
  | 'f' => some 15
  | 'A' => some 10 | 'B' => some 11 | 'C' => some 12 | 'D' => some 13 | 'E' => some 14
  | 'F' => some 15
  | _ => none

/-- The lower-case hexadecimal digit of a value. -/
def hexDigit (d : Fin 16) : Char :=
  match d.val with
  | 0 => '0' | 1 => '1' | 2 => '2' | 3 => '3' | 4 => '4' | 5 => '5' | 6 => '6' | 7 => '7'
  | 8 => '8' | 9 => '9' | 10 => 'a' | 11 => 'b' | 12 => 'c' | 13 => 'd' | 14 => 'e' | _ => 'f'

/-- A digit reads back as its value. -/
@[simp] theorem hexValue_hexDigit (d : Fin 16) : hexValue (hexDigit d) = some d := by
  revert d; decide

/-- A digit is no hyphen. -/
theorem hexDigit_ne_hyphen (d : Fin 16) : hexDigit d ≠ '-' := by
  revert d; decide

/-- A digit is no brace. -/
theorem hexDigit_ne_brace (d : Fin 16) : hexDigit d ≠ '\x7b' := by
  revert d; decide

/-- A uuid: the 32 digits of its value. -/
structure Uuid where
  /-- The digits. -/
  digits : List (Fin 16)
  /-- There are 32 of them. -/
  length_digits : digits.length = 32
  deriving DecidableEq

namespace Uuid

/-- The text of the digits from position `n` on, with a hyphen after the digits 8, 12, 16, and
20. -/
def print : ℕ → List (Fin 16) → List Char
  | _, [] => []
  | n, d :: ds =>
    if n + 1 = 8 ∨ n + 1 = 12 ∨ n + 1 = 16 ∨ n + 1 = 20 then hexDigit d :: '-' :: print (n + 1) ds
    else hexDigit d :: print (n + 1) ds

/-- The text that Postgres prints for a uuid. -/
def text (u : Uuid) : String := String.ofList (print 0 u.digits)

/-- The digits of a text from position `n` on, and what follows them. A hyphen is allowed after
every fourth digit but the last. -/
def parse (n : ℕ) : ℕ → List Char → Option (List (Fin 16) × List Char)
  | 0, cs => some ([], cs)
  | m + 1, c :: cs =>
    match hexValue c with
    | some d =>
      let cs := if (n + 1) % 4 = 0 ∧ m ≠ 0 ∧ cs.head? = some '-' then cs.tail else cs
      match parse (n + 1) m cs with
      | some (ds, rest) => some (d :: ds, rest)
      | none => none
    | none => none
  | _ + 1, [] => none

/-- The digits that a text spells, with or without braces around it. -/
def readDigits (cs : List Char) : Option (List (Fin 16)) :=
  match cs with
  | '\x7b' :: cs =>
    match parse 0 32 cs with
    | some (ds, ['\x7d']) => some ds
    | _ => none
  | cs =>
    match parse 0 32 cs with
    | some (ds, []) => some ds
    | _ => none

/-- The uuid that Postgres reads from a text, if it accepts the text. -/
def ofText (s : String) : Option Uuid :=
  match readDigits s.toList with
  | some ds => if h : ds.length = 32 then some ⟨ds, h⟩ else none
  | none => none

/-- What is printed is read back. -/
theorem parse_print (n m : ℕ) (ds : List (Fin 16)) (hm : ds.length = m) (hn : n + m = 32) :
    parse n m (print n ds) = some (ds, []) := by
  induction ds generalizing n m with
  | nil => subst hm; rfl
  | cons d ds ih =>
    subst hm
    have hnext := ih (n + 1) ds.length rfl (by simp only [List.length_cons] at hn; omega)
    have hhead : (print (n + 1) ds).head? ≠ some '-' := by
      cases ds with
      | nil => simp [print]
      | cons d' ds' => simp only [print]; split <;> simp [hexDigit_ne_hyphen]
    simp only [List.length_cons] at hn ⊢
    simp only [print]
    split_ifs with h
    · -- A hyphen is printed where one is allowed.
      have h4 : (n + 1) % 4 = 0 := by omega
      have hne : ds.length ≠ 0 := by omega
      have hdrop : (if (n + 1) % 4 = 0 ∧ ds.length ≠ 0 ∧
          ('-' :: print (n + 1) ds).head? = some '-' then ('-' :: print (n + 1) ds).tail
          else '-' :: print (n + 1) ds) = print (n + 1) ds := if_pos ⟨h4, hne, rfl⟩
      simp only [parse, hexValue_hexDigit, hdrop, hnext]
    · have hkeep : (if (n + 1) % 4 = 0 ∧ ds.length ≠ 0 ∧ (print (n + 1) ds).head? = some '-'
          then (print (n + 1) ds).tail else print (n + 1) ds) = print (n + 1) ds :=
        if_neg fun hc => hhead hc.2.2
      simp only [parse, hexValue_hexDigit, hkeep, hnext]

/-- Postgres reads back what it prints. -/
@[simp] theorem ofText_text (u : Uuid) : ofText u.text = some u := by
  obtain ⟨ds, hds⟩ := u
  have hp := parse_print 0 32 ds hds rfl
  have hr : readDigits (print 0 ds) = some ds := by
    cases ds with
    | nil => simp at hds
    | cons d ds =>
      have hcons : print 0 (d :: ds) = hexDigit d :: print 1 ds := by simp [print]
      rw [hcons] at hp ⊢
      unfold readDigits
      split
      · rename_i h
        simp only [List.cons.injEq] at h
        exact absurd h.1 (hexDigit_ne_brace d)
      · simp only [hp]
  simp [ofText, text, hr, hds]

/-- A uuid is determined by its text. -/
theorem text_injective : Function.Injective text := by
  intro u v h
  have := congrArg ofText h
  simpa using this

/-- The schema check `z.string().uuid()`: 36 characters, digits of either case with hyphens at the
positions 8, 13, 18, and 23. -/
def zodUuid (s : String) : Bool :=
  let cs := s.toList
  cs.length == 36 && cs.zipIdx.all fun (c, i) =>
    if i = 8 ∨ i = 13 ∨ i = 18 ∨ i = 23 then c == '-' else (hexValue c).isSome

/-- The uuid whose last digit is `d` and whose others are zero. -/
def ofDigit (d : Fin 16) : Uuid := ⟨List.replicate 31 0 ++ [d], rfl⟩

end Uuid

end SdidBridge
