import Mathlib.Data.Int.Notation
import Mathlib.Tactic.Common

/-!
# JavaScript values as JSON sees them

A finite number is kept as its shortest decimal, `± coeff * 10 ^ expo` with no factor of ten left in
the coefficient: that is all that its text shows of it, and all that JSON carries.
-/

namespace SdidBridge

/-- A JavaScript number. -/
inductive JsNumber where
  /-- `NaN` and the infinities, which JSON has no text for. -/
  | nonFinite
  /-- Zero of either sign. -/
  | zero
  /-- The number `coeff * 10 ^ expo`, negated when `neg` is set. -/
  | finite (neg : Bool) (coeff : ℕ) (expo : ℤ) (hc : coeff % 10 ≠ 0)
  deriving DecidableEq

/-- A JavaScript value built from plain data. An object lists its members in their order. -/
inductive JsValue where
  | undefined
  | null
  | bool (b : Bool)
  | num (n : JsNumber)
  | str (s : String)
  | arr (vs : List JsValue)
  | obj (ms : List (String × JsValue))

/-- A natural number with `e` factors of ten taken out, at most `fuel` more of which are still to be
taken out. -/
def JsNumber.strip : ℕ → ℕ → ℕ → JsNumber
  | 0, _, _ => .zero
  | fuel + 1, e, n =>
    if h : n % 10 ≠ 0 then .finite false n e h else strip fuel (e + 1) (n / 10)

/-- A natural number. -/
def JsNumber.ofNat (n : ℕ) : JsNumber := strip (n + 1) 0 n

/-- An array of texts. -/
def JsValue.strs (ss : List String) : JsValue := .arr (ss.map .str)

/-- A natural number as a value. -/
def JsValue.nat (n : ℕ) : JsValue := .num (.ofNat n)

/-! ## Equality -/

mutual

/-- Whether two values are the same. -/
def JsValue.same : JsValue → JsValue → Bool
  | .undefined, .undefined => true
  | .null, .null => true
  | .bool b, .bool b' => b == b'
  | .num n, .num n' => decide (n = n')
  | .str s, .str s' => s == s'
  | .arr vs, .arr vs' => JsValue.sameAll vs vs'
  | .obj ms, .obj ms' => JsValue.sameMembers ms ms'
  | _, _ => false

/-- Whether the entries of two arrays are the same. -/
def JsValue.sameAll : List JsValue → List JsValue → Bool
  | [], [] => true
  | v :: vs, v' :: vs' => v.same v' && JsValue.sameAll vs vs'
  | _, _ => false

/-- Whether the members of two objects are the same. -/
def JsValue.sameMembers : List (String × JsValue) → List (String × JsValue) → Bool
  | [], [] => true
  | (k, v) :: ms, (k', v') :: ms' => k == k' && v.same v' && JsValue.sameMembers ms ms'
  | _, _ => false

end

mutual

theorem JsValue.same_iff : ∀ v v' : JsValue, v.same v' = true ↔ v = v'
  | .undefined, v' => by cases v' <;> simp [JsValue.same]
  | .null, v' => by cases v' <;> simp [JsValue.same]
  | .bool b, v' => by cases v' <;> simp [JsValue.same]
  | .num n, v' => by cases v' <;> simp [JsValue.same]
  | .str s, v' => by cases v' <;> simp [JsValue.same]
  | .arr vs, v' => by cases v' <;> simp [JsValue.same, JsValue.sameAll_iff vs]
  | .obj ms, v' => by cases v' <;> simp [JsValue.same, JsValue.sameMembers_iff ms]

theorem JsValue.sameAll_iff : ∀ vs vs' : List JsValue, JsValue.sameAll vs vs' = true ↔ vs = vs'
  | [], vs' => by cases vs' <;> simp [JsValue.sameAll]
  | v :: vs, vs' => by cases vs' <;> simp [JsValue.sameAll, JsValue.same_iff v, JsValue.sameAll_iff vs]

theorem JsValue.sameMembers_iff : ∀ ms ms' : List (String × JsValue), JsValue.sameMembers ms ms' = true ↔ ms = ms'
  | [], ms' => by cases ms' <;> simp [JsValue.sameMembers]
  | (k, v) :: ms, ms' => by
    cases ms' <;> simp [JsValue.sameMembers, JsValue.same_iff v, JsValue.sameMembers_iff ms, Prod.ext_iff]

end

instance : DecidableEq JsValue := fun v v' => decidable_of_iff _ (JsValue.same_iff v v')

end SdidBridge
