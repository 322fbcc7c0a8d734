import Mathlib.Algebra.GroupWithZero.Nat
import Mathlib.Data.Int.Notation
import Mathlib.Data.List.Basic
import Mathlib.Tactic.Common

/-!
# The text of a time

`toISOString` is the text of a time given in milliseconds since 1970. The calendar is counted out:
the years of a cycle of 400 and the months of a year are passed one by one until the day that is
left lies in the current one. What has been passed is a function of the year, or of the month, so
that the fields of the calendar determine the day. The range of a JavaScript date is not enforced;
outside it the text has a longer year.
-/

namespace SdidBridge

/-- Decimal digits with zeros in front up to the width `k`. -/
def pad (k n : ℕ) : List Char :=
  List.replicate (k - (Nat.toDigits 10 n).length) '0' ++ Nat.toDigits 10 n

/-- The text of a year: four digits, or a sign and six digits for a year that does not fit. -/
def yearText (y : ℤ) : List Char :=
  if 0 ≤ y ∧ y ≤ 9999 then pad 4 y.natAbs
  else (if 0 ≤ y then '+' else '-') :: pad 6 y.natAbs

/-- The length of a year of the calendar's cycle of 400 years. -/
def yearLength (y : ℕ) : ℕ :=
  if y % 4 = 0 ∧ (y % 100 ≠ 0 ∨ y % 400 = 0) then 366 else 365

/-- The lengths of the months of a year. -/
def monthLengths (y : ℕ) : List ℕ :=
  [31, if yearLength y = 366 then 29 else 28, 31, 30, 31, 30, 31, 31, 30, 31, 30, 31]

/-- Pass years from `y` on until the day `d` lies in the year: that year, and the day in it. -/
def passYears : ℕ → ℕ → ℕ → ℕ × ℕ
  | 0, y, d => (y, d)
  | fuel + 1, y, d =>
    if d < yearLength y then (y, d) else passYears fuel (y + 1) (d - yearLength y)

/-- Pass months until the day `d` lies in the month: how many were passed, and the day in it. -/
def passMonths : List ℕ → ℕ → ℕ × ℕ
  | [], d => (0, d)
  | l :: ls, d =>
    if d < l then (0, d) else
      let (m, r) := passMonths ls (d - l)
      (m + 1, r)

/-- The days from the start of the year 0 to the start of 1970. -/
def epochDay : ℤ := 719528

/-- The days of 400 years. -/
def cycleDays : ℤ := 146097

/-- The year, the month, and the day of the month of a day counted from 1970. -/
def civil (day : ℤ) : ℤ × ℕ × ℕ :=
  let z := day + epochDay
  let (y, d) := passYears 400 0 (z % cycleDays).toNat
  let (m, r) := passMonths (monthLengths y) d
  (400 * (z / cycleDays) + y, m + 1, r + 1)

/-- The text of a time in milliseconds since 1970, `Date.prototype.toISOString`. -/
def toISOString (ms : ℤ) : List Char :=
  let (y, m, d) := civil (ms / 86400000)
  let r := (ms % 86400000).toNat
  yearText y ++ '-' :: (pad 2 m ++ '-' :: (pad 2 d ++ 'T' :: (pad 2 (r / 3600000) ++ ':' ::
    (pad 2 (r / 60000 % 60) ++ ':' :: (pad 2 (r / 1000 % 60) ++ '.' :: (pad 3 (r % 1000) ++ ['Z']))))))

example : String.ofList (toISOString 1767225599999) = "2025-12-31T23:59:59.999Z" := by
  decide

/-! ## Digits -/

/-- A padded number reads back. -/
@[simp] theorem ofDigitChars_pad (k n : ℕ) : Nat.ofDigitChars 10 (pad k n) 0 = n := by
  simp [pad, Nat.ofDigitChars_append]

/-- A padded number is made of digits. -/
theorem isDigit_pad {k n : ℕ} {c : Char} (h : c ∈ pad k n) : c.isDigit := by
  rcases List.mem_append.mp h with h | h
  · rw [List.eq_of_mem_replicate h]; decide
  · exact Nat.isDigit_of_mem_toDigits (by decide) (by decide) h

/-- A padded number before a separator ends at the separator, and its text determines it. -/
theorem pad_inj {k n n' : ℕ} {c : Char} {r r' : List Char} (hc : c.isDigit = false)
    (h : pad k n ++ c :: r = pad k n' ++ c :: r') : n = n' ∧ r = r' := by
  have hall : ∀ m, ∀ x ∈ pad k m, x.isDigit = true := fun m x hx => isDigit_pad hx
  have htake := congrArg (List.takeWhile Char.isDigit) h
  have hdrop := congrArg (List.dropWhile Char.isDigit) h
  simp only [List.takeWhile_append_of_pos (hall _), List.dropWhile_append_of_pos (hall _),
    List.takeWhile_cons, List.dropWhile_cons, hc, Bool.false_eq_true, if_false,
    List.append_nil] at htake hdrop
  have hval := congrArg (Nat.ofDigitChars 10 · 0) htake
  simp only [ofDigitChars_pad] at hval
  exact ⟨hval, by simpa using hdrop⟩

/-- A padded number starts with a digit. -/
theorem pad_head (k n : ℕ) : ∃ c cs, pad k n = c :: cs ∧ c.isDigit := by
  have hne : pad k n ≠ [] := by simp [pad, Nat.toDigits_ne_nil]
  obtain ⟨c, cs, hcs⟩ := List.exists_cons_of_ne_nil hne
  exact ⟨c, cs, hcs, isDigit_pad (by rw [hcs]; exact List.mem_cons_self)⟩

/-- The text of a year before a hyphen determines the year. -/
theorem yearText_inj {y y' : ℤ} {r r' : List Char}
    (h : yearText y ++ '-' :: r = yearText y' ++ '-' :: r') : y = y' ∧ r = r' := by
  have hsign : ∀ {k n k' n' c r r'}, c = '+' ∨ c = '-' →
      c :: pad k n ++ r ≠ pad k' n' ++ r' := by
    intro k n k' n' c r r' hc heq
    obtain ⟨d, ds, hds, hd⟩ := pad_head k' n'
    rw [hds, List.cons_append, List.cons_append, List.cons.injEq] at heq
    rw [← heq.1] at hd
    rcases hc with rfl | rfl <;> simp at hd
  unfold yearText at h
  split_ifs at h with h₁ h₂ h₃ h₄
  · obtain ⟨hy, hr⟩ := pad_inj (by decide) h
    exact ⟨by omega, hr⟩
  · exact absurd h.symm (hsign (.inl rfl))
  · exact absurd h.symm (hsign (.inr rfl))
  · exact absurd h (hsign (.inl rfl))
  · simp only [List.cons_append, List.cons.injEq, true_and] at h
    obtain ⟨hy, hr⟩ := pad_inj (by decide) h
    exact ⟨by omega, hr⟩
  · simp at h
  · exact absurd h (hsign (.inr rfl))
  · simp at h
  · simp only [List.cons_append, List.cons.injEq, true_and] at h
    obtain ⟨hy, hr⟩ := pad_inj (by decide) h
    exact ⟨by omega, hr⟩

/-! ## The calendar -/

/-- The days before a year of the cycle. -/
def daysBefore : ℕ → ℕ
  | 0 => 0
  | y + 1 => daysBefore y + yearLength y

/-- Passing years keeps count of the days. -/
theorem passYears_days (fuel y d : ℕ) :
    daysBefore y + d = daysBefore (passYears fuel y d).1 + (passYears fuel y d).2 := by
  induction fuel generalizing y d with
  | zero => rfl
  | succ fuel ih =>
    simp only [passYears]
    split_ifs with h
    · rfl
    · rw [← ih, daysBefore]
      omega

/-- Passing years stops within its fuel when the day lies in the years it may pass. -/
theorem passYears_lt {fuel y d : ℕ} (h : daysBefore y + d < daysBefore (y + fuel)) :
    (passYears fuel y d).1 < y + fuel := by
  induction fuel generalizing y d with
  | zero =>
    rw [Nat.add_zero] at h
    omega
  | succ fuel ih =>
    simp only [passYears]
    split_ifs with hd
    · simp
    · have := @ih (y + 1) (d - yearLength y) (by
        rw [show y + 1 + fuel = y + (fuel + 1) by omega, daysBefore]
        omega)
      omega

/-- Passing months keeps count of the days. -/
theorem passMonths_days (ls : List ℕ) (d : ℕ) :
    d = (ls.take (passMonths ls d).1).sum + (passMonths ls d).2 := by
  induction ls generalizing d with
  | nil => simp [passMonths]
  | cons l ls ih =>
    simp only [passMonths]
    split_ifs with h
    · simp
    · have := ih (d - l)
      simp only [List.take_succ_cons, List.sum_cons]
      omega

/-- The years of a cycle have the days of a cycle. -/
theorem daysBefore_cycle : daysBefore 400 = 146097 := by decide +kernel

/-- A date determines its day. -/
theorem civil_injective : Function.Injective civil := by
  intro a b h
  have hlt : ∀ z : ℤ, (passYears 400 0 (z % cycleDays).toNat).1 < 400 := by
    intro z
    have hz : (z % cycleDays).toNat < 146097 := by
      unfold cycleDays
      omega
    have hstop : daysBefore 0 + (z % cycleDays).toNat < daysBefore (0 + 400) := by
      rw [Nat.zero_add, daysBefore_cycle, daysBefore, Nat.zero_add]
      exact hz
    simpa using passYears_lt hstop
  simp only [civil, Prod.mk.injEq] at h
  obtain ⟨hy, hm, hd⟩ := h
  have ha := hlt (a + epochDay)
  have hb := hlt (b + epochDay)
  have dayA := passYears_days 400 0 ((a + epochDay) % cycleDays).toNat
  have dayB := passYears_days 400 0 ((b + epochDay) % cycleDays).toNat
  generalize passYears 400 0 ((a + epochDay) % cycleDays).toNat = pa at *
  generalize passYears 400 0 ((b + epochDay) % cycleDays).toNat = pb at *
  -- The year of the cycle and the number of the cycle are those of the year.
  have hyear : pa.1 = pb.1 := by omega
  have hcycle : (a + epochDay) / cycleDays = (b + epochDay) / cycleDays := by omega
  have monthA := passMonths_days (monthLengths pa.1) pa.2
  have monthB := passMonths_days (monthLengths pb.1) pb.2
  rw [hyear] at monthA dayA hm hd
  have hmonth : (passMonths (monthLengths pb.1) pa.2).1 = (passMonths (monthLengths pb.1) pb.2).1 := by
    omega
  rw [hmonth] at monthA
  unfold cycleDays epochDay at *
  omega

/-- The text of a time determines the time. -/
theorem toISOString_injective : Function.Injective toISOString := by
  intro a b h
  simp only [toISOString] at h
  obtain ⟨hy, h⟩ := yearText_inj h
  obtain ⟨hm, h⟩ := pad_inj (by decide) h
  obtain ⟨hd, h⟩ := pad_inj (by decide) h
  obtain ⟨hh, h⟩ := pad_inj (by decide) h
  obtain ⟨hmin, h⟩ := pad_inj (by decide) h
  obtain ⟨hs, h⟩ := pad_inj (by decide) h
  obtain ⟨hms, -⟩ := pad_inj (by decide) h
  have hday : a / 86400000 = b / 86400000 := civil_injective (by
    rw [Prod.ext_iff, Prod.ext_iff]
    exact ⟨hy, hm, hd⟩)
  omega

end SdidBridge
