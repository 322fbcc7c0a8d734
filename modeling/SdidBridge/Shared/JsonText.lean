import Mathlib.Data.List.TakeWhile
import Mathlib.Data.Nat.Init
import Mathlib.Tactic.Ring
import SdidBridge.Shared.Json
import SdidBridge.Shared.Uuid

/-!
# The texts of `JSON.stringify` for numbers and strings

`numberText` is the decimal text of a number, and `quote` the quoted text of a string, both as
characters. A text inside a larger one has to be found again, so that two facts are proved of each:
it determines what it is the text of, and it ends where it ends. A string ends at its closing quote,
and a number where no further character of a number follows.
-/

namespace SdidBridge

/-! ## Numbers -/

/-- The signed text of an exponent. -/
def exponentText (e : ℤ) : List Char :=
  (if 0 ≤ e then '+' else '-') :: Nat.toDigits 10 e.natAbs

/-- The text of `coeff * 10 ^ expo`, where `n` is the position of the decimal point in the digits of
the coefficient. -/
def decimalText (coeff : ℕ) (expo : ℤ) : List Char :=
  let ds := Nat.toDigits 10 coeff
  let n : ℤ := ds.length + expo
  if 0 ≤ expo ∧ n ≤ 21 then ds ++ List.replicate expo.toNat '0'
  else if 0 < n ∧ n ≤ 21 then ds.take n.toNat ++ '.' :: ds.drop n.toNat
  else if -6 < n ∧ n ≤ 0 then '0' :: '.' :: (List.replicate (-n).toNat '0' ++ ds)
  else if ds.length = 1 then ds ++ 'e' :: exponentText (n - 1)
  else ds.take 1 ++ '.' :: ds.drop 1 ++ 'e' :: exponentText (n - 1)

/-- The text of a number, `Number::toString`, and `null` for a number that JSON cannot carry. -/
def numberText : JsNumber → List Char
  | .nonFinite => ['n', 'u', 'l', 'l']
  | .zero => ['0']
  | .finite neg coeff expo _ => if neg then '-' :: decimalText coeff expo else decimalText coeff expo

/-- The characters that the text of a finite number is made of. -/
def isNumberChar (c : Char) : Bool :=
  c.isDigit || c == '.' || c == 'e' || c == '+' || c == '-'

/-- The number that the digits of a mantissa make, and how many of them follow the point. -/
def readMantissa (m : List Char) : ℕ × ℕ :=
  (Nat.ofDigitChars 10 (m.filter (· ≠ '.')) 0, ((m.dropWhile (· ≠ '.')).drop 1).length)

/-- The exponent of a decimal text. -/
def readExponent : List Char → ℤ
  | 'e' :: sign :: ds => if sign = '-' then -(Nat.ofDigitChars 10 ds 0 : ℤ) else Nat.ofDigitChars 10 ds 0
  | _ => 0

/-- The coefficient and the exponent that a decimal text denotes. -/
def readDecimal (cs : List Char) : ℕ × ℤ :=
  let (c, k) := readMantissa (cs.takeWhile (· ≠ 'e'))
  (c, readExponent (cs.dropWhile (· ≠ 'e')) - k)

theorem isDigit_toDigits {n : ℕ} {c : Char} (h : c ∈ Nat.toDigits 10 n) : c.isDigit :=
  Nat.isDigit_of_mem_toDigits (by decide) (by decide) h

/-- A digit is none of the other characters of a number. -/
theorem isDigit_ne {c : Char} (h : c.isDigit) : c ≠ 'e' ∧ c ≠ '.' ∧ c ≠ '-' ∧ c ≠ '+' := by
  refine ⟨?_, ?_, ?_, ?_⟩ <;> (rintro rfl; revert h; decide)

/-- A mantissa without a point. -/
theorem readMantissa_whole {ds : List Char} (h : ∀ c ∈ ds, c.isDigit) :
    readMantissa ds = (Nat.ofDigitChars 10 ds 0, 0) := by
  have hp : ∀ c ∈ ds, (decide (c ≠ '.')) = true := fun c hc => by simpa using (isDigit_ne (h c hc)).2.1
  simp only [readMantissa, List.filter_eq_self.mpr hp, List.dropWhile_eq_nil_iff.mpr hp]
  rfl

/-- A mantissa with a point. -/
theorem readMantissa_point {w f : List Char} (hw : ∀ c ∈ w, c.isDigit) (hf : ∀ c ∈ f, c.isDigit) :
    readMantissa (w ++ '.' :: f) = (Nat.ofDigitChars 10 (w ++ f) 0, f.length) := by
  have hpw : ∀ c ∈ w, (decide (c ≠ '.')) = true := fun c hc => by simpa using (isDigit_ne (hw c hc)).2.1
  have hpf : ∀ c ∈ f, (decide (c ≠ '.')) = true := fun c hc => by simpa using (isDigit_ne (hf c hc)).2.1
  simp only [readMantissa, List.filter_append, List.filter_eq_self.mpr hpw,
    List.filter_cons_of_neg (p := fun c : Char => decide (c ≠ '.')) (a := '.') (by decide),
    List.filter_eq_self.mpr hpf, List.dropWhile_append_of_pos hpw]
  simp

/-- A text without an exponent is read as its mantissa. -/
theorem readDecimal_plain {m : List Char} (h : ∀ c ∈ m, c ≠ 'e') :
    readDecimal m = ((readMantissa m).1, -((readMantissa m).2 : ℤ)) := by
  have hp : ∀ c ∈ m, (decide (c ≠ 'e')) = true := fun c hc => by simpa using h c hc
  simp only [readDecimal, List.takeWhile_eq_self_iff.mpr hp, List.dropWhile_eq_nil_iff.mpr hp,
    readExponent]
  simp

/-- A text with an exponent is read as its mantissa and its exponent. -/
theorem readDecimal_exponent {m es : List Char} (h : ∀ c ∈ m, c ≠ 'e') :
    readDecimal (m ++ 'e' :: es) =
      ((readMantissa m).1, readExponent ('e' :: es) - ((readMantissa m).2 : ℤ)) := by
  have hp : ∀ c ∈ m, (decide (c ≠ 'e')) = true := fun c hc => by simpa using h c hc
  simp only [readDecimal, List.takeWhile_append_of_pos hp, List.dropWhile_append_of_pos hp]
  simp

/-- The signed text of an exponent reads back. -/
theorem readExponent_exponentText (e : ℤ) : readExponent ('e' :: exponentText e) = e := by
  simp only [readExponent, exponentText, Nat.ofDigitChars_ten_toDigits]
  by_cases h : 0 ≤ e
  · simp only [h, if_true]
    rw [if_neg (by decide)]
    omega
  · simp only [h, if_false, if_true]
    omega

/-- The text of a decimal denotes it, up to factors of ten moved from the exponent to the
coefficient. -/
theorem readDecimal_decimalText (coeff : ℕ) (expo : ℤ) :
    ∃ j : ℕ, readDecimal (decimalText coeff expo) = (coeff * 10 ^ j, expo - j) := by
  have hds : ∀ c ∈ Nat.toDigits 10 coeff, c.isDigit := fun c hc => isDigit_toDigits hc
  have hne : ∀ c ∈ Nat.toDigits 10 coeff, c ≠ 'e' := fun c hc => (isDigit_ne (hds c hc)).1
  have hval : Nat.ofDigitChars 10 (Nat.toDigits 10 coeff) 0 = coeff := Nat.ofDigitChars_ten_toDigits
  have hlen : 0 < (Nat.toDigits 10 coeff).length := Nat.length_toDigits_pos
  unfold decimalText
  generalize Nat.toDigits 10 coeff = ds at hds hne hval hlen ⊢
  have htake : ∀ k, ∀ c ∈ ds.take k, c.isDigit := fun k c hc => hds c (List.mem_of_mem_take hc)
  have hdrop : ∀ k, ∀ c ∈ ds.drop k, c.isDigit := fun k c hc => hds c (List.mem_of_mem_drop hc)
  simp only
  split_ifs with h₁ h₂ h₃ h₄
  · -- An integer: the exponent is written as zeros.
    refine ⟨expo.toNat, ?_⟩
    have hzeros : ∀ c ∈ ds ++ List.replicate expo.toNat '0', c.isDigit := by
      intro c hc
      rcases List.mem_append.mp hc with hc | hc
      · exact hds c hc
      · rw [List.eq_of_mem_replicate hc]; decide
    rw [readDecimal_plain fun c hc => (isDigit_ne (hzeros c hc)).1, readMantissa_whole hzeros]
    simp only [Nat.ofDigitChars_append, hval, Nat.ofDigitChars_replicate_zero, Prod.mk.injEq]
    exact ⟨by ring, by omega⟩
  · -- The point stands among the digits.
    refine ⟨0, ?_⟩
    have hplain : ∀ c ∈ ds.take (ds.length + expo).toNat ++ '.' :: ds.drop (ds.length + expo).toNat,
        c ≠ 'e' := by
      intro c hc
      simp only [List.mem_append, List.mem_cons] at hc
      rcases hc with hc | rfl | hc
      · exact (isDigit_ne (htake _ c hc)).1
      · decide
      · exact (isDigit_ne (hdrop _ c hc)).1
    rw [readDecimal_plain hplain, readMantissa_point (htake _) (hdrop _), List.take_append_drop, hval]
    simp only [List.length_drop, pow_zero, mul_one, Prod.mk.injEq, true_and]
    omega
  · -- The point stands before the digits.
    refine ⟨0, ?_⟩
    have hfrac : ∀ c ∈ List.replicate (-(ds.length + expo)).toNat '0' ++ ds, c.isDigit := by
      intro c hc
      rcases List.mem_append.mp hc with hc | hc
      · rw [List.eq_of_mem_replicate hc]; decide
      · exact hds c hc
    have hzero : ∀ c ∈ ['0'], Char.isDigit c := List.all_eq_true.mp (by decide)
    have hplain : ∀ c ∈ ['0'] ++ '.' :: (List.replicate (-(ds.length + expo)).toNat '0' ++ ds),
        c ≠ 'e' := by
      intro c hc
      simp only [List.mem_append, List.mem_cons] at hc
      rcases hc with hc | rfl | hc
      · exact (isDigit_ne (hzero c (by simpa using hc))).1
      · decide
      · exact (isDigit_ne (hfrac c (by simpa using hc))).1
    have hread := readDecimal_plain hplain
    rw [readMantissa_point hzero hfrac, Nat.ofDigitChars_append, Nat.ofDigitChars_append] at hread
    rw [show '0' :: '.' :: (List.replicate (-(ds.length + expo)).toNat '0' ++ ds) =
      ['0'] ++ '.' :: (List.replicate (-(ds.length + expo)).toNat '0' ++ ds) from rfl, hread]
    have h0 : Nat.ofDigitChars 10 ['0'] 0 = 0 := by decide
    simp only [h0, Nat.ofDigitChars_replicate_zero, mul_zero, hval, List.length_append,
      List.length_replicate, pow_zero, mul_one, Prod.mk.injEq, true_and]
    omega
  · -- One digit and an exponent.
    refine ⟨0, ?_⟩
    rw [readDecimal_exponent hne, readMantissa_whole hds, readExponent_exponentText, hval, h₄]
    simp
  · -- Several digits and an exponent.
    refine ⟨0, ?_⟩
    have hplain : ∀ c ∈ ds.take 1 ++ '.' :: ds.drop 1, c ≠ 'e' := by
      intro c hc
      simp only [List.mem_append, List.mem_cons] at hc
      rcases hc with hc | rfl | hc
      · exact (isDigit_ne (htake _ c hc)).1
      · decide
      · exact (isDigit_ne (hdrop _ c hc)).1
    rw [readDecimal_exponent hplain, readMantissa_point (htake _) (hdrop _), readExponent_exponentText,
      List.take_append_drop, hval]
    simp only [List.length_drop, pow_zero, mul_one, Prod.mk.injEq, true_and]
    omega

/-- A coefficient that ten does not divide is determined by its product with a power of ten. -/
theorem mul_ten_pow_inj {a b i j : ℕ} (ha : a % 10 ≠ 0) (hb : b % 10 ≠ 0)
    (h : a * 10 ^ i = b * 10 ^ j) : a = b ∧ i = j := by
  induction i generalizing j with
  | zero =>
    cases j with
    | zero => simpa using h
    | succ j => exact absurd (by rw [show a = b * 10 ^ j * 10 by simpa [pow_succ, mul_assoc] using h]
                                 simp) ha
  | succ i ih =>
    cases j with
    | zero => exact absurd (by rw [show b = a * 10 ^ i * 10 by simpa [pow_succ, mul_assoc] using h.symm]
                               simp) hb
    | succ j =>
      have : a * 10 ^ i = b * 10 ^ j := by
        have := h
        rw [pow_succ, pow_succ, ← mul_assoc, ← mul_assoc] at this
        exact Nat.eq_of_mul_eq_mul_right (by decide) this
      obtain ⟨hab, hij⟩ := ih this
      exact ⟨hab, by rw [hij]⟩

/-- The characters of a decimal text. The first of them is a digit. -/
theorem decimalText_chars (coeff : ℕ) (expo : ℤ) :
    (∀ c ∈ decimalText coeff expo, isNumberChar c) ∧
      ∃ c cs, decimalText coeff expo = c :: cs ∧ c.isDigit := by
  have hds : ∀ c ∈ Nat.toDigits 10 coeff, c.isDigit := fun c hc => isDigit_toDigits hc
  have hexp : ∀ e c, c ∈ exponentText e → isNumberChar c := by
    intro e c hc
    simp only [exponentText, List.mem_cons] at hc
    rcases hc with rfl | hc
    · split_ifs <;> decide
    · simp [isNumberChar, isDigit_toDigits hc]
  have hlen : 0 < (Nat.toDigits 10 coeff).length := Nat.length_toDigits_pos
  unfold decimalText
  generalize Nat.toDigits 10 coeff = ds at hds hlen ⊢
  have hnum : ∀ c ∈ ds, isNumberChar c := fun c hc => by simp [isNumberChar, hds c hc]
  obtain ⟨d, ds', rfl⟩ := List.exists_cons_of_length_pos hlen
  have hd : d.isDigit := hds d (by simp)
  have hzero : ∀ n, ∀ c ∈ List.replicate n '0', isNumberChar c := fun n c hc => by
    rw [List.eq_of_mem_replicate hc]; decide
  simp only
  split_ifs with h₁ h₂ h₃ h₄
  · refine ⟨fun c hc => ?_, d, _, rfl, hd⟩
    rcases List.mem_append.mp hc with hc | hc
    · exact hnum c hc
    · exact hzero _ c hc
  · refine ⟨fun c hc => ?_, d, ?_⟩
    · simp only [List.mem_append, List.mem_cons] at hc
      rcases hc with hc | rfl | hc
      · exact hnum c (List.mem_of_mem_take hc)
      · decide
      · exact hnum c (List.mem_of_mem_drop hc)
    · obtain ⟨k, hk⟩ : ∃ k, (((d :: ds').length : ℤ) + expo).toNat = k + 1 :=
        ⟨(((d :: ds').length : ℤ) + expo).toNat - 1, by omega⟩
      exact ⟨_, by rw [hk, List.take_succ_cons, List.cons_append], hd⟩
  · refine ⟨fun c hc => ?_, '0', _, rfl, by decide⟩
    simp only [List.mem_append, List.mem_cons] at hc
    rcases hc with rfl | rfl | hc | hc
    · decide
    · decide
    · exact hzero _ c hc
    · exact hnum c (by simpa using hc)
  · refine ⟨fun c hc => ?_, d, _, rfl, hd⟩
    simp only [List.mem_append, List.mem_cons] at hc
    rcases hc with hc | rfl | hc
    · exact hnum c (by simpa using hc)
    · decide
    · exact hexp _ c hc
  · refine ⟨fun c hc => ?_, d, _, by rw [List.take_succ_cons, List.cons_append, List.cons_append], hd⟩
    simp only [List.mem_append, List.mem_cons] at hc
    rcases hc with (hc | rfl | hc) | rfl | hc
    · exact hnum c (List.mem_of_mem_take hc)
    · decide
    · exact hnum c (List.mem_of_mem_drop hc)
    · decide
    · exact hexp _ c hc

/-- A decimal text determines its coefficient and its exponent. -/
theorem decimalText_inj {c c' : ℕ} {x x' : ℤ} (hc : c % 10 ≠ 0) (hc' : c' % 10 ≠ 0)
    (h : decimalText c x = decimalText c' x') : c = c' ∧ x = x' := by
  obtain ⟨j, hj⟩ := readDecimal_decimalText c x
  obtain ⟨j', hj'⟩ := readDecimal_decimalText c' x'
  rw [h, hj', Prod.mk.injEq] at hj
  obtain ⟨hcc, rfl⟩ := mul_ten_pow_inj hc' hc hj.1
  exact ⟨hcc.symm, by omega⟩

/-- Whether JSON has a text for a number. -/
def JsNumber.isFinite : JsNumber → Bool
  | .nonFinite => false
  | _ => true

/-- The text of a finite number is made of the characters of a number, and starts with a digit or a
sign. -/
theorem numberText_chars {n : JsNumber} (hn : n.isFinite) :
    (∀ c ∈ numberText n, isNumberChar c) ∧
      ∃ c cs, numberText n = c :: cs ∧ (c.isDigit ∨ c = '-') := by
  cases n with
  | nonFinite => simp [JsNumber.isFinite] at hn
  | zero => exact ⟨by simp [numberText]; decide, '0', [], rfl, .inl (by decide)⟩
  | finite neg coeff expo hc =>
    obtain ⟨hall, c, cs, hcs, hd⟩ := decimalText_chars coeff expo
    cases neg with
    | false => exact ⟨hall, c, cs, hcs, .inl hd⟩
    | true =>
      refine ⟨?_, '-', _, rfl, .inr rfl⟩
      intro c hc
      simp only [numberText, if_true, List.mem_cons] at hc
      rcases hc with rfl | hc
      · decide
      · exact hall c hc

/-- Zero is written differently from every other number. -/
theorem decimalText_ne_zero {coeff : ℕ} {expo : ℤ} (hc : coeff % 10 ≠ 0) :
    decimalText coeff expo ≠ ['0'] := by
  intro h
  obtain ⟨j, hj⟩ := readDecimal_decimalText coeff expo
  rw [h, show readDecimal ['0'] = (0, 0) by decide, Prod.mk.injEq] at hj
  have : 0 < coeff * 10 ^ j := Nat.mul_pos (by omega) (Nat.pow_pos (by decide))
  omega

/-- The text of a finite number determines the number. -/
theorem numberText_inj {m n : JsNumber} (hm : m.isFinite) (hn : n.isFinite)
    (h : numberText m = numberText n) : m = n := by
  have hsign : ∀ {c x}, '-' :: decimalText c x ≠ ['0'] ∧
      ∀ {c' x'}, '-' :: decimalText c x ≠ decimalText c' x' := by
    intro c x
    refine ⟨by simp, fun {c' x'} heq => ?_⟩
    obtain ⟨-, d, ds, hds, hd⟩ := decimalText_chars c' x'
    rw [hds, List.cons.injEq] at heq
    exact (isDigit_ne hd).2.2.1 heq.1.symm
  cases m with
  | nonFinite => simp [JsNumber.isFinite] at hm
  | zero =>
    cases n with
    | nonFinite => simp [JsNumber.isFinite] at hn
    | zero => rfl
    | finite neg c x hc =>
      cases neg with
      | false => exact absurd h.symm (decimalText_ne_zero hc)
      | true => exact absurd h.symm hsign.1
  | finite neg c x hc =>
    cases n with
    | nonFinite => simp [JsNumber.isFinite] at hn
    | zero =>
      cases neg with
      | false => exact absurd h (decimalText_ne_zero hc)
      | true => exact absurd h hsign.1
    | finite neg' c' x' hc' =>
      cases neg <;> cases neg'
      · obtain ⟨rfl, rfl⟩ := decimalText_inj hc hc' h
        rfl
      · exact absurd h.symm hsign.2
      · exact absurd h hsign.2
      · simp only [numberText, if_true, List.cons.injEq, true_and] at h
        obtain ⟨rfl, rfl⟩ := decimalText_inj hc hc' h
        rfl

/-! ## Strings -/

/-- The text of one character inside quotes, `QuoteJSONString`. -/
def escapeChar (c : Char) : List Char :=
  if c = '"' then ['\\', '"']
  else if c = '\\' then ['\\', '\\']
  else if c = '\x08' then ['\\', 'b']
  else if c = '\x09' then ['\\', 't']
  else if c = '\x0a' then ['\\', 'n']
  else if c = '\x0c' then ['\\', 'f']
  else if c = '\x0d' then ['\\', 'r']
  else if h : c.toNat < 32 then
    ['\\', 'u', '0', '0', hexDigit ⟨c.toNat / 16, by omega⟩, hexDigit ⟨c.toNat % 16, by omega⟩]
  else [c]

/-- The quoted text of a string. -/
def quote (s : String) : List Char := '"' :: (s.toList.flatMap escapeChar ++ ['"'])

/-- The first character of a quoted text, and what follows it. -/
def unescape : List Char → Option (Char × List Char)
  | '\\' :: 'b' :: r => some ('\x08', r)
  | '\\' :: 't' :: r => some ('\x09', r)
  | '\\' :: 'n' :: r => some ('\x0a', r)
  | '\\' :: 'f' :: r => some ('\x0c', r)
  | '\\' :: 'r' :: r => some ('\x0d', r)
  | '\\' :: 'u' :: _ :: _ :: x :: y :: r =>
    match hexValue x, hexValue y with
    | some d, some e => some (Char.ofNat (16 * d.val + e.val), r)
    | _, _ => none
  | '\\' :: c :: r => some (c, r)
  | c :: r => some (c, r)
  | [] => none

/-- An escaped character reads back. -/
theorem unescape_escapeChar (c : Char) (r : List Char) :
    unescape (escapeChar c ++ r) = some (c, r) := by
  unfold escapeChar
  split_ifs with h₁ h₂ h₃ h₄ h₅ h₆ h₇ h₈
  · subst h₁; rfl
  · subst h₂; rfl
  · subst h₃; rfl
  · subst h₄; rfl
  · subst h₅; rfl
  · subst h₆; rfl
  · subst h₇; rfl
  · -- A control character: its number is put together from the two digits.
    simp only [List.cons_append, List.nil_append, unescape, hexValue_hexDigit, Option.some.injEq,
      Prod.mk.injEq, and_true]
    rw [Nat.div_add_mod]
    exact Char.ofNat_toNat c
  · simp only [List.cons_append, List.nil_append]
    unfold unescape
    split <;> simp_all

/-- The text of a character is not empty, and no character's text starts with a quote. -/
theorem escapeChar_head (c : Char) : ∃ d ds, escapeChar c = d :: ds ∧ d ≠ '"' := by
  unfold escapeChar
  split_ifs with h₁
  all_goals first
    | exact ⟨_, _, rfl, h₁⟩
    | exact ⟨_, _, rfl, by decide⟩

/-- A quoted text ends at its closing quote, and determines the string. -/
theorem escape_inj {s t : List Char} {r r' : List Char}
    (h : s.flatMap escapeChar ++ '"' :: r = t.flatMap escapeChar ++ '"' :: r') : s = t ∧ r = r' := by
  induction s generalizing t with
  | nil =>
    cases t with
    | nil => simpa using h
    | cons c t =>
      obtain ⟨d, ds, hd, hne⟩ := escapeChar_head c
      simp only [List.flatMap_nil, List.nil_append, List.flatMap_cons, hd, List.cons_append,
        List.cons.injEq] at h
      exact absurd h.1.symm hne
  | cons c s ih =>
    cases t with
    | nil =>
      obtain ⟨d, ds, hd, hne⟩ := escapeChar_head c
      simp only [List.flatMap_nil, List.nil_append, List.flatMap_cons, hd, List.cons_append,
        List.cons.injEq] at h
      exact absurd h.1 hne
    | cons c' t =>
      simp only [List.flatMap_cons, List.append_assoc] at h
      have hread := congrArg unescape h
      simp only [unescape_escapeChar, Option.some.injEq, Prod.mk.injEq] at hread
      obtain ⟨rfl, hrest⟩ := hread
      obtain ⟨rfl, rfl⟩ := ih hrest
      exact ⟨rfl, rfl⟩

theorem quote_inj {s t : String} {r r' : List Char} (h : quote s ++ r = quote t ++ r') :
    s = t ∧ r = r' := by
  simp only [quote, List.cons_append, List.append_assoc, List.nil_append, List.cons.injEq,
    true_and] at h
  obtain ⟨hst, rfl⟩ := escape_inj h
  exact ⟨String.toList_injective hst, rfl⟩

end SdidBridge
