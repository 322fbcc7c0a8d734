import SdidBridge.Logging.JsonLogger
import SdidBridge.Logging.Walk

/-!
# Digits in log lines

When a log line has 16 digits in a row (`write_iff`). A text that is scrubbed has no such run of its own, but the escape
of a control character, or of a surrogate without its pair, ends in digits that the digits after it prolong
(`hasRun_scrubString`). The keys of the fields, the names of errors and the id of the request are not scrubbed at all.
-/

namespace SdidBridge.Logging

open Codec Shared

/-! ## Digits of numbers -/

theorem units_append (cs ds : List Char) : units (cs ++ ds) = units cs ++ units ds := by
  unfold units
  rw [List.flatMap_append, List.map_append]

/-- The units of digits are digits. -/
theorem units_digits {cs : List Char} (h : ∀ c ∈ cs, c.isDigit = true) :
    (units cs).length = cs.length ∧ ∀ u ∈ units cs, isDigitUnit u = true := by
  induction cs with
  | nil => exact ⟨rfl, fun u hu => absurd hu List.not_mem_nil⟩
  | cons c cs ih =>
    obtain ⟨hlength, hall⟩ := ih fun d hd => h d (List.mem_cons_of_mem _ hd)
    have hc := h c List.mem_cons_self
    have hbounds : 48 ≤ c.toNat ∧ c.toNat ≤ 57 := by
      unfold Char.isDigit at hc
      rw [Bool.and_eq_true, decide_eq_true_iff, decide_eq_true_iff] at hc
      exact ⟨UInt32.le_iff_toNat_le.mp hc.1, UInt32.le_iff_toNat_le.mp hc.2⟩
    have hunits : units (c :: cs) = UInt16.ofNat c.toNat :: units cs := by
      have hsmall : c.toNat < 0x10000 := by omega
      simp only [units, List.flatMap_cons, codeUnits, if_pos hsmall, List.singleton_append, List.map_cons]
    have hdigit : isDigitUnit (UInt16.ofNat c.toNat) = true := by
      have hmod : c.toNat % 2 ^ 16 = c.toNat := Nat.mod_eq_of_lt (by omega)
      rw [isDigitUnit_iff, UInt16.toNat_ofNat', hmod]
      exact hbounds
    rw [hunits]
    refine ⟨by rw [List.length_cons, hlength, List.length_cons], fun u hu => ?_⟩
    rcases List.mem_cons.mp hu with rfl | hu
    · exact hdigit
    · exact hall u hu

theorem length_digitUnits_le {n k : ℕ} (hk : 0 < k) : (digitUnits n).length ≤ k ↔ n < 10 ^ k := by
  have hdigits : ∀ c ∈ Nat.toDigits 10 n, c.isDigit = true := fun c hc => isDigit_toDigits hc
  unfold digitUnits
  rw [(units_digits hdigits).1, Nat.length_toDigits_le_iff (by decide) hk]

theorem isDigitUnit_digitUnits {n : ℕ} {u : UInt16} (h : u ∈ digitUnits n) : isDigitUnit u = true :=
  (units_digits fun _ hc => isDigit_toDigits hc).2 u h

/-- The digits of a number are a run. -/
theorem hasRun_digitUnits {n k : ℕ} : HasRun isDigitUnit (k + 2) (digitUnits n) ↔ 10 ^ (k + 1) ≤ n := by
  rw [← not_lt, ← length_digitUnits_le (Nat.succ_pos k), not_le]
  constructor
  · exact fun h => h.le_length
  · exact fun h => hasRun_of_infix List.infix_rfl (fun u hu => isDigitUnit_digitUnits hu) h

theorem not_hasRun_pad {k n m : ℕ} (hk : k < m) (hm : 1 < m) (hn : n < 10 ^ (m - 1)) :
    ¬HasRun isDigitUnit m (units (pad k n)) := by
  intro h
  have hlength := h.le_length
  have hdigits : (Nat.toDigits 10 n).length ≤ m - 1 :=
    (Nat.length_toDigits_le_iff (by decide) (by omega)).mpr hn
  rw [(units_digits fun c hc => isDigit_pad hc).1, pad, List.length_append, List.length_replicate] at hlength
  omega

/-! ## Times and uuids -/

theorem passYears_bounds (fuel y d : ℕ) : (passYears fuel y d).1 ≤ y + fuel ∧ (passYears fuel y d).2 ≤ d := by
  induction fuel generalizing y d with
  | zero => exact ⟨Nat.le_refl _, Nat.le_refl _⟩
  | succ fuel ih =>
    rw [passYears]
    split
    · exact ⟨Nat.le_add_right _ _, Nat.le_refl _⟩
    · obtain ⟨hyear, hday⟩ := ih (y + 1) (d - yearLength y)
      exact ⟨by omega, by omega⟩

theorem passMonths_bounds (months : List ℕ) (d : ℕ) :
    (passMonths months d).1 ≤ months.length ∧ (passMonths months d).2 ≤ d := by
  induction months generalizing d with
  | nil => exact ⟨Nat.le_refl _, Nat.le_refl _⟩
  | cons l months ih =>
    rw [passMonths]
    split
    · exact ⟨Nat.zero_le _, Nat.le_refl _⟩
    · obtain ⟨hmonth, hday⟩ := ih (d - l)
      exact ⟨Nat.succ_le_succ hmonth, by dsimp only; omega⟩

/-- The fields of a time are short numbers. -/
theorem civil_bounds (time : TimeValue) :
    (civil (time.val / 86400000)).1.natAbs < 10 ^ 6 ∧ (civil (time.val / 86400000)).2.1 < 10 ^ 6 ∧
      (civil (time.val / 86400000)).2.2 < 10 ^ 6 := by
  obtain ⟨ms, hlower, hupper⟩ := time
  have hday : -100000000 ≤ ms / 86400000 ∧ ms / 86400000 ≤ 100000000 := by omega
  generalize ms / 86400000 = day at hday
  have hcycle : 0 ≤ (day + epochDay) % cycleDays ∧ (day + epochDay) % cycleDays < 146097 := by
    unfold cycleDays
    omega
  have hcycles : -1000 ≤ (day + epochDay) / cycleDays ∧ (day + epochDay) / cycleDays ≤ 1000 := by
    unfold cycleDays epochDay
    omega
  obtain ⟨hyear, hdays⟩ := passYears_bounds 400 0 ((day + epochDay) % cycleDays).toNat
  generalize hyears : passYears 400 0 ((day + epochDay) % cycleDays).toNat = years at hyear hdays
  obtain ⟨hmonth, hrest⟩ := passMonths_bounds (monthLengths years.1) years.2
  have hmonths : (monthLengths years.1).length = 12 := rfl
  generalize hpassed : passMonths (monthLengths years.1) years.2 = passed at hmonth hrest
  have hcivil : civil day = (400 * ((day + epochDay) / cycleDays) + years.1, passed.1 + 1, passed.2 + 1) := by
    unfold civil
    simp only [hyears, hpassed]
  rw [hcivil]
  dsimp only
  refine ⟨?_, ?_, ?_⟩ <;> omega

/-- The text of a time has no run of 16 digits. -/
theorem not_hasRun_toISOString (time : TimeValue) : ¬HasRun isDigitUnit NID_LENGTH (units (toISOString time.val)) := by
  obtain ⟨hyear, hmonth, hday⟩ := civil_bounds time
  have hpad : ∀ {k n : ℕ}, k < 16 → n < 10 ^ 15 → ¬HasRun isDigitUnit NID_LENGTH (units (pad k n)) := fun hk hn =>
    not_hasRun_pad hk (by decide) hn
  have hsign : ∀ u ∈ [('+' : Char), '-'], ∀ cs, ¬HasRun isDigitUnit NID_LENGTH (units cs) →
      ¬HasRun isDigitUnit NID_LENGTH (units (u :: cs)) := by
    intro u hu cs hcs
    have hunit : ∃ v, isDigitUnit v = false ∧ units (u :: cs) = [] ++ v :: units cs := by
      simp only [List.mem_cons, List.not_mem_nil, or_false] at hu
      rcases hu with rfl | rfl
      · exact ⟨0x2b, by decide, rfl⟩
      · exact ⟨0x2d, by decide, rfl⟩
    obtain ⟨v, hv, heq⟩ := hunit
    rw [heq, hasRun_append_cons hv]
    rintro (h | h)
    · exact absurd (hasRun_nil.mp h) (by decide)
    · exact hcs h
  have hyearText : ¬HasRun isDigitUnit NID_LENGTH (units (yearText (civil (time.val / 86400000)).1)) := by
    unfold yearText
    split
    · exact hpad (by decide) (by omega)
    · refine hsign _ ?_ _ (hpad (by decide) (by omega))
      split <;> simp
  have hjoin : ∀ (c : Char) (v : UInt16) (before after : List Char), codeUnits c = [v.toNat] → isDigitUnit v = false →
      ¬HasRun isDigitUnit NID_LENGTH (units before) → ¬HasRun isDigitUnit NID_LENGTH (units after) →
        ¬HasRun isDigitUnit NID_LENGTH (units (before ++ c :: after)) := by
    intro c v before after hc hv hbefore hafter
    have hunits : units (before ++ c :: after) = units before ++ v :: units after := by
      rw [units_append]
      congr 1
      simp [units, hc]
    rw [hunits, hasRun_append_cons hv]
    rintro (h | h)
    · exact hbefore h
    · exact hafter h
  have hrest : ∀ n : ℕ, n < 86400000 → n < 10 ^ 15 := fun n hn => by omega
  have htime : (time.val % 86400000).toNat < 86400000 := by omega
  have htext : toISOString time.val = yearText (civil (time.val / 86400000)).1 ++
      '-' :: (pad 2 (civil (time.val / 86400000)).2.1 ++ '-' :: (pad 2 (civil (time.val / 86400000)).2.2 ++
        'T' :: (pad 2 ((time.val % 86400000).toNat / 3600000) ++ ':' ::
          (pad 2 ((time.val % 86400000).toNat / 60000 % 60) ++ ':' ::
            (pad 2 ((time.val % 86400000).toNat / 1000 % 60) ++ '.' ::
              (pad 3 ((time.val % 86400000).toNat % 1000) ++ ['Z'])))))) := rfl
  rw [htext]
  refine hjoin '-' 0x2d _ _ rfl (by decide) hyearText ?_
  refine hjoin '-' 0x2d _ _ rfl (by decide) (hpad (by decide) (by omega)) ?_
  refine hjoin 'T' 0x54 _ _ rfl (by decide) (hpad (by decide) (by omega)) ?_
  refine hjoin ':' 0x3a _ _ rfl (by decide) (hpad (by decide) (by omega)) ?_
  refine hjoin ':' 0x3a _ _ rfl (by decide) (hpad (by decide) (by omega)) ?_
  refine hjoin '.' 0x2e _ _ rfl (by decide) (hpad (by decide) (by omega)) ?_
  refine hjoin 'Z' 0x5a _ _ rfl (by decide) (hpad (by decide) (by omega)) ?_
  exact fun h => absurd (hasRun_nil.mp h) (by decide)

/-- How many digits stand before the next hyphen of a uuid, or its end. -/
def room (n : ℕ) : ℕ :=
  (if n < 8 then 8 else if n < 12 then 12 else if n < 16 then 16 else if n < 20 then 20 else 32) - n

theorem startRun_cons_le (u : UInt16) (text : JsString) :
    startRun isDigitUnit (u :: text) ≤ startRun isDigitUnit text + 1 := by
  cases hu : isDigitUnit u with
  | true => rw [startRun_cons_of_pos hu]
  | false =>
    rw [startRun_cons_of_neg hu]
    exact Nat.zero_le _

/-- The text of a uuid has no run of 16 digits. -/
theorem not_hasRun_uuid (id : Uuid) : ¬HasRun isDigitUnit NID_LENGTH (units id.text.toList) := by
  have hunits : ∀ (d : Fin 16) (cs : List Char),
      units (hexDigit d :: cs) = UInt16.ofNat (hexDigit d).toNat :: units cs := by
    intro d cs
    have hd : codeUnits (hexDigit d) = [(hexDigit d).toNat] := by
      revert d
      decide
    simp only [units, List.flatMap_cons, hd, List.singleton_append, List.map_cons]
  have hhyphen : ∀ cs, units ('-' :: cs) = 0x2d :: units cs := fun cs => rfl
  have hkey : ∀ (ds : List (Fin 16)) (n : ℕ), n + ds.length = 32 →
      startRun isDigitUnit (units (Uuid.print n ds)) ≤ room n ∧
        ¬HasRun isDigitUnit NID_LENGTH (units (Uuid.print n ds)) := by
    intro ds
    induction ds with
    | nil => exact fun n _ => ⟨Nat.zero_le _, fun h => absurd (hasRun_nil.mp h) (by decide)⟩
    | cons d ds ih =>
      intro n hn
      rw [List.length_cons] at hn
      obtain ⟨hstart, hrun⟩ := ih (n + 1) (by omega)
      rw [Uuid.print]
      split
      · have hzero : startRun isDigitUnit (0x2d :: units (Uuid.print (n + 1) ds)) = 0 := startRun_cons_of_neg (by decide)
        have hone := startRun_cons_le (UInt16.ofNat (hexDigit d).toNat) (0x2d :: units (Uuid.print (n + 1) ds))
        rw [hzero] at hone
        rw [hunits, hhyphen, hasRun_cons, hasRun_cons, hzero]
        have hroom : 1 ≤ room n := by
          unfold room
          split_ifs <;> omega
        refine ⟨by omega, ?_⟩
        unfold NID_LENGTH at hrun ⊢
        rintro (h | h | h)
        · omega
        · omega
        · exact hrun h
      · rename_i hboundary
        have hstep := startRun_cons_le (UInt16.ofNat (hexDigit d).toNat) (units (Uuid.print (n + 1) ds))
        have hroom : room (n + 1) + 1 = room n ∧ room n ≤ 12 := by
          unfold room
          split_ifs <;> omega
        rw [hunits, hasRun_cons]
        refine ⟨by omega, ?_⟩
        unfold NID_LENGTH at hrun ⊢
        rintro (h | h)
        · omega
        · exact hrun h
  have htext : id.text.toList = Uuid.print 0 id.digits := String.toList_ofList
  rw [htext]
  exact (hkey id.digits 0 (by rw [id.length_digits])).2

/-! ## Texts -/

/-- A text that is not scrubbed shows 16 digits: they are its own, or an escape and the digits after it. -/
def KeyLeaks (text : JsString) : Prop := HasRun isDigitUnit NID_LENGTH text ∨ SpillsFrom NID_LENGTH none text

/-- A text that is scrubbed shows 16 digits: the escape of a unit and the digits after it, of which none count if they
are 16 or more and thus replaced, and otherwise those that stand within the length that is kept. -/
def TextLeaks (text : JsString) : Prop :=
  ∃ before u rest, text = before ++ u :: rest ∧ isEscaped before.getLast? rest.head? u = true ∧
    NID_LENGTH ≤ escapedDigits u +
      min (MAX_STRING_LENGTH - 1 - (replaceRuns isDigitUnit NID_LENGTH REDACTED_NID before).length)
        (keptRun NID_LENGTH (startRun isDigitUnit rest))

/-- A unit that is escaped is no digit, and stands in no text of the redaction. -/
theorem isEscaped_spec {before after : Option UInt16} {u : UInt16} (h : isEscaped before after u = true) :
    isDigitUnit u = false ∧ u ∉ REDACTED_NID ∧ u ∉ TRUNCATED := by
  have hother : ∀ v ∈ REDACTED_NID ++ TRUNCATED,
      ¬(decide (v < 0x20) || (isHighSurrogate v || isLowSurrogate v)) = true :=
    List.all_iff_forall_prop.mp (by decide)
  have hkind : (decide (u < 0x20) || (isHighSurrogate u || isLowSurrogate u)) = true := by
    unfold isEscaped at h
    simp only [Bool.and_eq_true, Bool.or_eq_true] at h ⊢
    exact h.2.imp_right And.left
  refine ⟨?_, fun hmem => hother u (List.mem_append_left _ hmem) hkind,
    fun hmem => hother u (List.mem_append_right _ hmem) hkind⟩
  cases hdigit : isDigitUnit u with
  | false => rfl
  | true =>
    rw [not_isEscaped_digit hdigit] at h
    cases h

/-- Whether a text ends in the first half of a pair. -/
def endsHigh (first : UInt16) (text : JsString) : Bool := isHighSurrogate (text.getLast?.getD first)

/-- Scrubbing does not change it. -/
theorem endsHigh_replaceFrom {n : ℕ} (hn : 0 < n) (first : UInt16) {run : JsString}
    (hrun : ∀ u ∈ run, isDigitUnit u = true) (text : JsString) :
    endsHigh first (replaceFrom isDigitUnit n REDACTED_NID run text) = endsHigh first (run ++ text) := by
  have hdigit : ∀ u, isDigitUnit u = true → isHighSurrogate u = false := by
    intro u hu
    obtain ⟨-, hupper⟩ := isDigitUnit_iff.mp hu
    refine decide_eq_false fun h => ?_
    exact absurd (Nat.le_trans (UInt16.le_iff_toNat_le.mp h.1) hupper) (by decide)
  have hclose : ∀ {run : JsString}, (∀ u ∈ run, isDigitUnit u = true) → ∀ first,
      endsHigh first (closeRun n REDACTED_NID run) = endsHigh first run := by
    intro run hrun first
    unfold closeRun
    split
    · rename_i hlong
      have hne : run ≠ [] := List.length_pos_iff.mp (Nat.lt_of_lt_of_le hn hlong)
      have hlast : run.getLast? = some (run.getLast hne) := List.getLast?_eq_some_getLast hne
      have hmarker : REDACTED_NID.getLast? = some 0x5d := by decide
      unfold endsHigh
      rw [hlast, hmarker, Option.getD_some, Option.getD_some, hdigit _ (hrun _ (List.getLast_mem hne))]
      decide
    · rfl
  have hcons : ∀ (start : JsString) (u : UInt16) (rest : JsString) (first : UInt16),
      endsHigh first (start ++ u :: rest) = endsHigh u rest := by
    intro start u rest first
    unfold endsHigh
    rw [List.getLast?_append_of_ne_nil _ (List.cons_ne_nil _ _), List.getLast?_cons, Option.getD_some]
  induction text generalizing run first with
  | nil => rw [replaceFrom_nil, hclose hrun, List.append_nil]
  | cons u text ih =>
    by_cases hu : isDigitUnit u = true
    · have hmore : ∀ v ∈ run ++ [u], isDigitUnit v = true := by
        intro v hv
        rcases List.mem_append.mp hv with hv | hv
        · exact hrun v hv
        · rw [List.mem_singleton.mp hv]
          exact hu
      rw [replaceFrom_cons_of_pos hu, ih first hmore, List.append_assoc, List.singleton_append]
    · have hnil : ∀ v ∈ ([] : JsString), isDigitUnit v = true := fun v hv => absurd hv List.not_mem_nil
      rw [replaceFrom_cons_of_neg (Bool.eq_false_iff.mpr hu), hcons, hcons, ih u hnil, List.nil_append]

theorem startRun_le_length (text : JsString) : startRun isDigitUnit text ≤ text.length :=
  (List.takeWhile_prefix _).length_le

/-- The text of an escape is six units long. -/
theorem escapedDigits_le (u : UInt16) : escapedDigits u ≤ 6 := by
  have hunits : ∀ d : Fin 16, (codeUnits (hexDigit d)).length = 1 := by decide
  have hlength : (js "\\u" ++ hexUnits u).reverse.length = 6 := by
    have hstart : (js "\\u").length = 2 := by decide
    rw [List.length_reverse, List.length_append, hstart]
    simp [hexUnits, units, hunits]
  rw [← hlength]
  exact startRun_le_length _

/-- The cut at the longest length. -/
theorem exists_of_scrubString_eq {text before after : JsString} {u : UInt16} (hu : u ∉ TRUNCATED)
    (h : scrubString text = before ++ u :: after) :
    ∃ rest, replaceRuns isDigitUnit NID_LENGTH REDACTED_NID text = before ++ u :: rest ∧
      startRun isDigitUnit after = min (MAX_STRING_LENGTH - 1 - before.length) (startRun isDigitUnit rest) := by
  unfold scrubString at h
  generalize replaceRuns isDigitUnit NID_LENGTH REDACTED_NID text = scrubbed at h ⊢
  dsimp only at h
  split at h
  · rename_i hlong
    rcases List.append_eq_append_iff.mp h with ⟨more, -, htruncated⟩ | ⟨kept, hkept, hafter⟩
    · exact absurd (htruncated ▸ List.mem_append_right _ List.mem_cons_self) hu
    · cases kept with
      | nil =>
        rw [List.nil_append] at hafter
        exact absurd (hafter ▸ List.mem_cons_self) hu
      | cons v kept =>
        rw [List.cons_append] at hafter
        obtain ⟨rfl, rfl⟩ := List.cons.inj hafter
        have hlength : before.length + (kept.length + 1) = MAX_STRING_LENGTH := by
          have htake := congrArg List.length hkept
          rw [List.length_take_of_le hlong.le, List.length_append, List.length_cons] at htake
          exact htake.symm
        have hwhole : scrubbed = before ++ u :: (kept ++ scrubbed.drop MAX_STRING_LENGTH) := by
          rw [← List.cons_append, ← List.append_assoc, ← hkept, List.take_append_drop]
        have hcut : kept = (kept ++ scrubbed.drop MAX_STRING_LENGTH).take (MAX_STRING_LENGTH - 1 - before.length) := by
          have hkeptLength : MAX_STRING_LENGTH - 1 - before.length = kept.length := by omega
          rw [hkeptLength, List.take_left]
        refine ⟨_, hwhole, ?_⟩
        have htruncated : TRUNCATED = 0x2026 :: js "[truncated]" := rfl
        rw [htruncated, startRun_append_cons _ _ (by decide), ← startRun_take, ← hcut]
  · rename_i hshort
    subst h
    refine ⟨after, rfl, (Nat.min_eq_right ?_).symm⟩
    have hlength := startRun_le_length after
    rw [List.length_append, List.length_cons] at hshort
    omega

/-- A unit within the longest length is kept, with the run after it up to that length. -/
theorem exists_scrubString_eq {text before rest : JsString} {u : UInt16}
    (h : replaceRuns isDigitUnit NID_LENGTH REDACTED_NID text = before ++ u :: rest)
    (hlength : before.length < MAX_STRING_LENGTH) :
    ∃ after, scrubString text = before ++ u :: after ∧
      startRun isDigitUnit after = min (MAX_STRING_LENGTH - 1 - before.length) (startRun isDigitUnit rest) := by
  unfold scrubString
  rw [h]
  dsimp only
  split
  · have htake : (before ++ u :: rest).take MAX_STRING_LENGTH =
        before ++ u :: rest.take (MAX_STRING_LENGTH - 1 - before.length) := by
      have hmore : MAX_STRING_LENGTH = before.length + (MAX_STRING_LENGTH - 1 - before.length + 1) := by omega
      rw [hmore, List.take_length_add_append, List.take_succ_cons]
      congr 3
      omega
    refine ⟨rest.take (MAX_STRING_LENGTH - 1 - before.length) ++ TRUNCATED, ?_, ?_⟩
    · rw [htake, List.append_assoc, List.cons_append]
    · have htruncated : TRUNCATED = 0x2026 :: js "[truncated]" := rfl
      rw [htruncated, startRun_append_cons _ _ (by decide), startRun_take]
  · rename_i hshort
    refine ⟨rest, rfl, (Nat.min_eq_right ?_).symm⟩
    have hrest := startRun_le_length rest
    rw [List.length_append, List.length_cons] at hshort
    omega

/-- Whether a unit is escaped depends on the halves of pairs around it. -/
theorem isEscaped_congr {before before' after after' : Option UInt16} (u : UInt16)
    (hbefore : before.any isHighSurrogate = before'.any isHighSurrogate)
    (hafter : after.any isLowSurrogate = after'.any isLowSurrogate) :
    isEscaped before after u = isEscaped before' after' u := by
  unfold isEscaped isPaired
  rw [hbefore, hafter]

theorem any_isHighSurrogate (before : Option UInt16) :
    before.any isHighSurrogate = isHighSurrogate (before.getD 0) := by
  cases before with
  | none => rfl
  | some u => rfl

/-- No half of a pair stands at the start of a run. -/
theorem any_isLowSurrogate {text : JsString} (h : 0 < startRun isDigitUnit text) :
    text.head?.any isLowSurrogate = false := by
  cases text with
  | nil => exact absurd h (by decide)
  | cons u text =>
    by_cases hu : isDigitUnit u = true
    · obtain ⟨-, hupper⟩ := isDigitUnit_iff.mp hu
      refine decide_eq_false fun hlow => ?_
      exact absurd (Nat.le_trans (UInt16.le_iff_toNat_le.mp hlow.1) hupper) (by decide)
    · rw [startRun_cons_of_neg (Bool.eq_false_iff.mpr hu)] at h
      exact absurd h (Nat.lt_irrefl 0)

/-- The escape of a unit is the same before and after scrubbing. -/
theorem isEscaped_scrubbed {before rest after : JsString} (u : UInt16) (hrest : 0 < startRun isDigitUnit rest)
    (hafter : 0 < startRun isDigitUnit after) :
    isEscaped (replaceRuns isDigitUnit NID_LENGTH REDACTED_NID before).getLast? after.head? u =
      isEscaped before.getLast? rest.head? u := by
  have hnil : ∀ v ∈ ([] : JsString), isDigitUnit v = true := fun v hv => absurd hv List.not_mem_nil
  have hhigh := endsHigh_replaceFrom (n := NID_LENGTH) (by decide) 0 hnil before
  refine isEscaped_congr u ?_ ?_
  · rw [any_isHighSurrogate, any_isHighSurrogate]
    exact hhigh
  · rw [any_isLowSurrogate hrest, any_isLowSurrogate hafter]

/-- A scrubbed text has no run of 16 digits. -/
theorem not_hasRun_scrubString (text : JsString) : ¬HasRun isDigitUnit NID_LENGTH (scrubString text) := by
  have hscrubbed : ¬HasRun isDigitUnit NID_LENGTH (replaceRuns isDigitUnit NID_LENGTH REDACTED_NID text) :=
    not_hasRun_replaceRuns (not_hasRun_of_forall (by decide) (List.all_iff_forall_prop.mp (by decide))) text
  have htruncated : ¬HasRun isDigitUnit NID_LENGTH (js "[truncated]") :=
    not_hasRun_of_forall (by decide) (List.all_iff_forall_prop.mp (by decide))
  unfold scrubString
  dsimp only
  split
  · have hcons : TRUNCATED = 0x2026 :: js "[truncated]" := rfl
    rw [hcons, hasRun_append_cons (by decide)]
    rintro (h | h)
    · exact hscrubbed (h.of_infix (List.take_prefix _ _).isInfix)
    · exact htruncated h
  · exact hscrubbed

/-- When a scrubbed text shows 16 digits between quotes. -/
theorem hasRun_scrubString (text : JsString) :
    HasRun isDigitUnit NID_LENGTH (quoteFrom none (scrubString text)) ↔ TextLeaks text := by
  rw [hasRun_quoteFrom (by decide), or_iff_right (not_hasRun_scrubString text)]
  have hmarker : REDACTED_NID = 0x5b :: js "redacted-nid]" := rfl
  have hkept : ∀ rest, startRun isDigitUnit (replaceRuns isDigitUnit NID_LENGTH REDACTED_NID rest) =
      keptRun NID_LENGTH (startRun isDigitUnit rest) := fun rest => startRun_replaceRuns (by decide) rest
  have hpositive : ∀ {n : ℕ}, 0 < keptRun NID_LENGTH n → 0 < n := by
    intro n hn
    unfold keptRun at hn
    split at hn <;> omega
  constructor
  · rintro ⟨scrubbed, u, after, heq, hescaped, hn⟩
    obtain ⟨hdigit, hnid, htruncated⟩ := isEscaped_spec hescaped
    obtain ⟨rest, hrest, hstart⟩ := exists_of_scrubString_eq htruncated heq
    obtain ⟨before, more, rfl, hbefore, hmore⟩ := exists_of_replaceFrom_eq hnid hdigit List.not_mem_nil hrest
    have hbefore' : replaceRuns isDigitUnit NID_LENGTH REDACTED_NID before = scrubbed := hbefore
    have hdigits := escapedDigits_le u
    have hafter : 0 < startRun isDigitUnit after := by
      unfold NID_LENGTH at hn
      omega
    rw [← hmore, hkept, ← hbefore'] at hstart
    have hpos : 0 < startRun isDigitUnit more := hpositive (by omega)
    refine ⟨before, u, more, rfl, ?_, ?_⟩
    · rw [Option.or_none, ← hbefore', isEscaped_scrubbed u hpos hafter] at hescaped
      exact hescaped
    · rwa [hstart] at hn
  · rintro ⟨before, u, rest, rfl, hescaped, hn⟩
    obtain ⟨hdigit, -, -⟩ := isEscaped_spec hescaped
    have hdigits := escapedDigits_le u
    have hscrubbed : replaceRuns isDigitUnit NID_LENGTH REDACTED_NID (before ++ u :: rest) =
        replaceRuns isDigitUnit NID_LENGTH REDACTED_NID before ++
          u :: replaceRuns isDigitUnit NID_LENGTH REDACTED_NID rest := replaceFrom_append_cons hdigit [] before rest
    have hlength : (replaceRuns isDigitUnit NID_LENGTH REDACTED_NID before).length < MAX_STRING_LENGTH := by
      unfold NID_LENGTH MAX_STRING_LENGTH at *
      omega
    obtain ⟨after, hafter, hstart⟩ := exists_scrubString_eq hscrubbed hlength
    rw [hkept] at hstart
    have hpos : 0 < startRun isDigitUnit after := by
      unfold NID_LENGTH at hn
      unfold NID_LENGTH at hstart
      omega
    have hrest : 0 < startRun isDigitUnit rest := hpositive (by omega)
    refine ⟨_, u, after, hafter, ?_, ?_⟩
    · rw [Option.or_none, isEscaped_scrubbed u hrest hpos]
      exact hescaped
    · rwa [hstart]

/-! ## Texts without escapes -/

/-- A unit that is not escaped by its number. -/
def isPlain (u : UInt16) : Bool := !(decide (u < 0x20) || (isHighSurrogate u || isLowSurrogate u))

theorem not_isEscaped_plain {before after : Option UInt16} {u : UInt16} (hu : isPlain u = true) :
    isEscaped before after u = false := by
  unfold isPlain at hu
  simp only [Bool.not_eq_true', Bool.or_eq_false_iff] at hu
  obtain ⟨hcontrol, hhigh, hlow⟩ := hu
  unfold isEscaped
  rw [hcontrol, hhigh, hlow]
  simp

/-- A text of plain units shows what it has. -/
theorem not_keyLeaks_of_plain {text : JsString} (hplain : ∀ u ∈ text, isPlain u = true)
    (hrun : ¬HasRun isDigitUnit NID_LENGTH text) : ¬KeyLeaks text := by
  rintro (h | ⟨before, u, rest, rfl, hescaped, -⟩)
  · exact hrun h
  · rw [not_isEscaped_plain (hplain u (List.mem_append_right _ List.mem_cons_self))] at hescaped
    cases hescaped

/-- And nothing once it is scrubbed. -/
theorem not_textLeaks_of_plain {text : JsString} (hplain : ∀ u ∈ text, isPlain u = true) : ¬TextLeaks text := by
  rintro ⟨before, u, rest, rfl, hescaped, -⟩
  rw [not_isEscaped_plain (hplain u (List.mem_append_right _ List.mem_cons_self))] at hescaped
  cases hescaped

/-- The units from the space up to the surrogates are plain. -/
theorem isPlain_of_bounds {u : UInt16} (hlower : 0x20 ≤ u.toNat) (hupper : u.toNat < 0xd800) : isPlain u = true := by
  have hcontrol : decide (u < 0x20) = false := by
    refine decide_eq_false fun hlt => ?_
    exact absurd (UInt16.lt_iff_toNat_lt.mp hlt) (not_lt.mpr hlower)
  have hhigh : isHighSurrogate u = false := by
    refine decide_eq_false fun hle => ?_
    exact absurd (UInt16.le_iff_toNat_le.mp hle.1) (not_le.mpr hupper)
  have hlow : isLowSurrogate u = false := by
    refine decide_eq_false fun hle => ?_
    have hnatLe : 0xdc00 ≤ u.toNat := UInt16.le_iff_toNat_le.mp hle.1
    omega
  unfold isPlain
  rw [hcontrol, hhigh, hlow]
  rfl

theorem isPlain_units {cs : List Char} (h : ∀ c ∈ cs, 0x20 ≤ c.toNat ∧ c.toNat < 0xd800) :
    ∀ u ∈ units cs, isPlain u = true := by
  intro u hu
  unfold units at hu
  obtain ⟨n, hn, rfl⟩ := List.mem_map.mp hu
  obtain ⟨c, hc, hn⟩ := List.mem_flatMap.mp hn
  obtain ⟨hlower, hupper⟩ := h c hc
  have hsmall : c.toNat < 0x10000 := by omega
  unfold codeUnits at hn
  rw [if_pos hsmall, List.mem_singleton] at hn
  have hnat : (UInt16.ofNat n).toNat = c.toNat := by
    rw [UInt16.toNat_ofNat', hn]
    exact Nat.mod_eq_of_lt hsmall
  exact isPlain_of_bounds (hnat ▸ hlower) (hnat ▸ hupper)

theorem isDigit_bounds {c : Char} (h : c.isDigit = true) : 0x20 ≤ c.toNat ∧ c.toNat < 0xd800 := by
  unfold Char.isDigit at h
  rw [Bool.and_eq_true, decide_eq_true_iff, decide_eq_true_iff] at h
  have hlower := UInt32.le_iff_toNat_le.mp h.1
  have hupper := UInt32.le_iff_toNat_le.mp h.2
  exact ⟨Nat.le_trans (by decide) hlower, Nat.lt_of_le_of_lt hupper (by decide)⟩

theorem isPlain_digitUnits (n : ℕ) : ∀ u ∈ digitUnits n, isPlain u = true :=
  isPlain_units fun _ hc => isDigit_bounds (isDigit_toDigits hc)

theorem isPlain_toISOString (ms : ℤ) : ∀ u ∈ units (toISOString ms), isPlain u = true := by
  refine isPlain_units fun c hc => ?_
  have hpad : ∀ {k n : ℕ}, c ∈ pad k n → 0x20 ≤ c.toNat ∧ c.toNat < 0xd800 := fun hc => isDigit_bounds (isDigit_pad hc)
  have hother : c ∈ ['+', '-', 'T', ':', '.', 'Z'] → 0x20 ≤ c.toNat ∧ c.toNat < 0xd800 := by
    have hall : ∀ d ∈ ['+', '-', 'T', ':', '.', 'Z'], 0x20 ≤ d.toNat ∧ d.toNat < 0xd800 :=
      List.all_iff_forall_prop.mp (by decide)
    exact hall c
  have hyear : c ∈ yearText (civil (ms / 86400000)).1 → 0x20 ≤ c.toNat ∧ c.toNat < 0xd800 := by
    unfold yearText
    split
    · exact hpad
    · intro hc
      rcases List.mem_cons.mp hc with rfl | hc
      · refine hother ?_
        split <;> simp
      · exact hpad hc
  unfold toISOString at hc
  simp only [List.mem_append, List.mem_cons, List.not_mem_nil, or_false] at hc
  rcases hc with hc | hc | hc | hc | hc | hc | hc | hc | hc | hc | hc | hc | hc | hc
  all_goals first
    | exact hyear hc
    | exact hpad hc
    | exact hother (by rw [hc]; decide)

theorem isPlain_uuid (id : Uuid) : ∀ u ∈ units id.text.toList, isPlain u = true := by
  have htext : id.text.toList = Uuid.print 0 id.digits := String.toList_ofList
  have hdigit : ∀ d : Fin 16, 0x20 ≤ (hexDigit d).toNat ∧ (hexDigit d).toNat < 0xd800 := by decide
  have hhyphen : 0x20 ≤ ('-' : Char).toNat ∧ ('-' : Char).toNat < 0xd800 := by decide
  have hprint : ∀ (ds : List (Fin 16)) (n : ℕ), ∀ c ∈ Uuid.print n ds, 0x20 ≤ c.toNat ∧ c.toNat < 0xd800 := by
    intro ds
    induction ds with
    | nil => exact fun n c hc => absurd hc List.not_mem_nil
    | cons d ds ih =>
      intro n c hc
      rw [Uuid.print] at hc
      split at hc
      · rcases List.mem_cons.mp hc with rfl | hc
        · exact hdigit d
        · rcases List.mem_cons.mp hc with rfl | hc
          · exact hhyphen
          · exact ih _ c hc
      · rcases List.mem_cons.mp hc with rfl | hc
        · exact hdigit d
        · exact ih _ c hc
  rw [htext]
  exact isPlain_units (hprint id.digits 0)

/-- The digits between two texts that have none at the seams. -/
theorem hasRun_framed {n : ℕ} {c d : UInt16} (hc : isDigitUnit c = false) (hd : isDigitUnit d = false)
    {before after : JsString} (hbefore : ¬HasRun isDigitUnit n before) (hafter : ¬HasRun isDigitUnit n after)
    (text : JsString) :
    HasRun isDigitUnit n (before ++ c :: (text ++ d :: after)) ↔ HasRun isDigitUnit n text := by
  rw [hasRun_append_cons hc, hasRun_append_cons hd, or_iff_right hbefore, or_iff_left hafter]

end SdidBridge.Logging
