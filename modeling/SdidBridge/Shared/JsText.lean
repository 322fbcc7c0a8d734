import Mathlib.Data.List.Basic
import Mathlib.Tactic.Common
import SdidBridge.Shared.Uuid

/-!
# What the language does with texts

`trim`, `split` and `JSON.parse`, on the characters of a text. `JSON.parse` reads the whole grammar; its
numbers are kept as they are written, since the program reads none of them.
-/

namespace SdidBridge

/-! ## White space and parts -/

/-- The white space and the line ends of the language, `\s`. -/
def isJsSpace (c : Char) : Bool :=
  decide (c.toNat ∈ [0x09, 0x0a, 0x0b, 0x0c, 0x0d, 0x20, 0xa0, 0x1680, 0x2028, 0x2029, 0x202f, 0x205f, 0x3000,
    0xfeff] ∨ (0x2000 ≤ c.toNat ∧ c.toNat ≤ 0x200a))

/-- `trim`. -/
def jsTrim (cs : List Char) : List Char :=
  ((cs.dropWhile isJsSpace).reverse.dropWhile isJsSpace).reverse

/-- What stands before the first occurrence of a part, and what stands after it. -/
def breakAt (part : List Char) : List Char → Option (List Char × List Char)
  | [] => if part = [] then some ([], []) else none
  | c :: cs =>
    if part.isPrefixOf (c :: cs) then some ([], (c :: cs).drop part.length)
    else (breakAt part cs).map fun (before, after) => (c :: before, after)

/-- The parts between the first `turns` occurrences of a separator. -/
def splitTurns (separator : List Char) : ℕ → List Char → List (List Char)
  | 0, cs => [cs]
  | turns + 1, cs =>
    match breakAt separator cs with
    | none => [cs]
    | some (before, after) => before :: splitTurns separator turns after

/-- `split(separator)`, for a separator with a character in it. -/
def jsSplit (separator cs : List Char) : List (List Char) := splitTurns separator cs.length cs

/-- `split(pattern)` for runs of the characters in a set, without the parts that are empty. -/
def partsBetween (separates : Char → Bool) (cs : List Char) : List (List Char) :=
  (cs.splitOnP separates).filter (· ≠ [])

/-! ## `JSON.parse` -/

/-- What a JSON text says. -/
inductive JsonTree where
  | null
  | bool (b : Bool)
  /-- A number, as it is written. -/
  | num (text : List Char)
  | str (cs : List Char)
  | arr (items : List JsonTree)
  | obj (members : List (List Char × JsonTree))

/-- The white space of JSON. -/
def isJsonSpace (c : Char) : Bool := c = ' ' || c = '\t' || c = '\n' || c = '\r'

/-- The text after its white space. -/
def afterSpace (cs : List Char) : List Char := cs.dropWhile isJsonSpace

/-- The text after one digit or more. -/
def afterDigits : List Char → Option (List Char)
  | [] => none
  | c :: cs => if c.isDigit then some (cs.dropWhile Char.isDigit) else none

/-- The text after the digits of an integer. -/
def afterInteger : List Char → Option (List Char)
  | '0' :: cs => some cs
  | cs => afterDigits cs

/-- The text after a fraction, if there is one. -/
def afterFraction : List Char → Option (List Char)
  | '.' :: cs => afterDigits cs
  | cs => some cs

/-- The text after an exponent, if there is one. -/
def afterExponent : List Char → Option (List Char)
  | c :: cs =>
    if c = 'e' ∨ c = 'E' then
      match cs with
      | '+' :: ds => afterDigits ds
      | '-' :: ds => afterDigits ds
      | ds => afterDigits ds
    else some (c :: cs)
  | [] => some []

/-- The text after a number. -/
def afterNumber : List Char → Option (List Char)
  | '-' :: cs => afterInteger cs >>= afterFraction >>= afterExponent
  | cs => afterInteger cs >>= afterFraction >>= afterExponent

/-- The UTF-16 code units of a character. -/
def codeUnits (c : Char) : List ℕ :=
  if c.toNat < 0x10000 then [c.toNat]
  else [0xd800 + (c.toNat - 0x10000) / 0x400, 0xdc00 + (c.toNat - 0x10000) % 0x400]

/-- The characters of code units. A surrogate without its pair has no character, and is replaced. -/
def ofCodeUnits : List ℕ → List Char
  | hi :: lo :: rest =>
    if 0xd800 ≤ hi ∧ hi < 0xdc00 ∧ 0xdc00 ≤ lo ∧ lo < 0xe000 then
      Char.ofNat (0x10000 + (hi - 0xd800) * 0x400 + (lo - 0xdc00)) :: ofCodeUnits rest
    else (if 0xd800 ≤ hi ∧ hi < 0xe000 then '\uFFFD' else Char.ofNat hi) :: ofCodeUnits (lo :: rest)
  | [unit] => [if 0xd800 ≤ unit ∧ unit < 0xe000 then '\uFFFD' else Char.ofNat unit]
  | [] => []

/-- The code unit of an escape of one character. -/
def escaped : Char → Option ℕ
  | '"' => some 0x22
  | '\\' => some 0x5c
  | '/' => some 0x2f
  | 'b' => some 0x08
  | 'f' => some 0x0c
  | 'n' => some 0x0a
  | 'r' => some 0x0d
  | 't' => some 0x09
  | _ => none

/-- The code units of a string after its opening quote, and the text after its closing quote. -/
def readJsonString : List Char → Option (List ℕ × List Char)
  | [] => none
  | '"' :: cs => some ([], cs)
  | '\\' :: 'u' :: a :: b :: c :: d :: cs => do
    let unit := (← hexValue a).val * 0x1000 + (← hexValue b).val * 0x100 + (← hexValue c).val * 0x10 +
      (← hexValue d).val
    let (units, rest) ← readJsonString cs
    return (unit :: units, rest)
  | '\\' :: c :: cs => do
    let unit ← escaped c
    let (units, rest) ← readJsonString cs
    return (unit :: units, rest)
  | c :: cs =>
    if c = '\\' ∨ c.toNat < 0x20 then none
    else (readJsonString cs).map fun (units, rest) => (codeUnits c ++ units, rest)

mutual

/-- A value, and the text after it. A value of a text of `n` characters takes at most `2 * n + 1` turns. -/
def readJson : ℕ → List Char → Option (JsonTree × List Char)
  | 0, _ => none
  | turns + 1, text =>
    match afterSpace text with
    | '"' :: cs => (readJsonString cs).map fun (units, rest) => (.str (ofCodeUnits units), rest)
    | '[' :: cs =>
      match afterSpace cs with
      | ']' :: rest => some (.arr [], rest)
      | _ => (readJsonItems turns cs).map fun (items, rest) => (.arr items, rest)
    | '{' :: cs =>
      match afterSpace cs with
      | '}' :: rest => some (.obj [], rest)
      | _ => (readJsonMembers turns cs).map fun (members, rest) => (.obj members, rest)
    | 't' :: 'r' :: 'u' :: 'e' :: rest => some (.bool true, rest)
    | 'f' :: 'a' :: 'l' :: 's' :: 'e' :: rest => some (.bool false, rest)
    | 'n' :: 'u' :: 'l' :: 'l' :: rest => some (.null, rest)
    | cs => (afterNumber cs).map fun rest => (.num (cs.take (cs.length - rest.length)), rest)

/-- The items of an array, up to its closing bracket. -/
def readJsonItems : ℕ → List Char → Option (List JsonTree × List Char)
  | 0, _ => none
  | turns + 1, text => do
    let (item, cs) ← readJson turns text
    match afterSpace cs with
    | ']' :: rest => some ([item], rest)
    | ',' :: more =>
      let (items, rest) ← readJsonItems turns more
      some (item :: items, rest)
    | _ => none

/-- The members of an object, up to its closing brace. -/
def readJsonMembers : ℕ → List Char → Option (List (List Char × JsonTree) × List Char)
  | 0, _ => none
  | turns + 1, text =>
    match afterSpace text with
    | '"' :: cs => do
      let (key, cs) ← readJsonString cs
      match afterSpace cs with
      | ':' :: cs =>
        let (value, cs) ← readJson turns cs
        match afterSpace cs with
        | '}' :: rest => some ([(ofCodeUnits key, value)], rest)
        | ',' :: more =>
          let (members, rest) ← readJsonMembers turns more
          some ((ofCodeUnits key, value) :: members, rest)
        | _ => none
      | _ => none
    | _ => none

end

/-- `JSON.parse`, which throws with `none`. -/
def jsonParse (text : List Char) : Option JsonTree := do
  let (tree, rest) ← readJson (2 * text.length + 1) text
  if afterSpace rest = [] then some tree else none

end SdidBridge
