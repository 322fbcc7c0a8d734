import SdidBridge.Attestation.DerValues

/-!
# Object identifiers are read exactly

`derOid` reads the sub-identifiers as integers of any size, but splits the first one as a double. The dotted form is
that of the content exactly if the double is written back as the number (`derOid_dotted_iff`), which it is below
`2 ^ 53`.
-/

namespace SdidBridge.Attestation

open Codec

/-! ## The dotted form -/

/-- The first two arcs in a first sub-identifier. -/
def topArcs (v : ℕ) : ℕ × ℕ :=
  if v < 40 then (0, v) else if v < 80 then (1, v - 40) else (2, v - 80)

/-- The dotted form of sub-identifiers. -/
def dottedForm (v : ℕ) (vs : List ℕ) : String :=
  ".".intercalate (((topArcs v).1 :: (topArcs v).2 :: vs).map toString)

/-- The text is the dotted form of the content. -/
def IsDottedForm (content : Bytes) (s : String) : Prop :=
  ∃ v vs, content = (v :: vs).flatMap varint ∧ s = dottedForm v vs

/-- A double is subtracted from without a loss, and the difference is written as the number that it stands for. -/
def WrittenBack (v : ℕ) : Prop :=
  toNumber (toNumber v - 80) = toNumber (v - 80) ∧ numberToString (toNumber (v - 80)) = toString (v - 80)

/-- The first sub-identifier is split as the number that it is. -/
def SplitExactly (v : ℕ) : Prop := v < 2 ^ 53 ∨ WrittenBack v

/-! ## Doubles -/

/-- What `toNumber` rounds to is a multiple of the unit in its last place. -/
theorem toNumber_of_dvd {n : ℕ} (h : 2 ^ (Nat.log 2 n - 52) ∣ n) : toNumber n = n := by
  unfold toNumber
  split_ifs with hsmall
  · rfl
  · obtain ⟨q, hq⟩ := h
    have hunit : 0 < 2 ^ (Nat.log 2 n - 52) := Nat.two_pow_pos _
    have hlog : 53 ≤ Nat.log 2 n := Nat.le_log_of_pow_le (by norm_num) (not_lt.mp hsmall)
    have hmod : n % 2 ^ (Nat.log 2 n - 52) = 0 := Nat.mod_eq_zero_of_dvd ⟨q, hq⟩
    have hhalf : 0 < 2 ^ (Nat.log 2 n - 52) / 2 := by
      have hexp : Nat.log 2 n - 52 = Nat.log 2 n - 53 + 1 := by omega
      rw [hexp, pow_succ, Nat.mul_div_cancel _ (by norm_num)]
      exact Nat.two_pow_pos _
    dsimp only
    rw [if_pos (.inl (by rw [hmod]; exact hhalf))]
    exact Nat.div_mul_cancel ⟨q, hq⟩

/-- A number that is rounded is one of the two multiples of its unit beside it. -/
theorem toNumber_cases {n : ℕ} (h : 2 ^ 53 ≤ n) :
    ∃ e q, e = Nat.log 2 n - 52 ∧ 1 ≤ e ∧ 2 ^ 52 ≤ q ∧ q ≤ 2 ^ 53 ∧ toNumber n = q * 2 ^ e := by
  have hlog : 53 ≤ Nat.log 2 n := Nat.le_log_of_pow_le (by norm_num) h
  have hne : n ≠ 0 := by
    have hpos : 0 < 2 ^ 53 := Nat.two_pow_pos _
    omega
  obtain ⟨e, he⟩ : ∃ e, Nat.log 2 n = e + 52 := ⟨Nat.log 2 n - 52, by omega⟩
  have hlow : 2 ^ 52 * 2 ^ e ≤ n := by
    rw [← pow_add, Nat.add_comm, ← he]
    exact Nat.pow_log_le_self 2 hne
  have hhigh : n < 2 ^ 53 * 2 ^ e := by
    have hlt := Nat.lt_pow_succ_log_self (by norm_num : 1 < 2) n
    rw [he] at hlt
    calc n < 2 ^ (e + 52 + 1) := hlt
      _ = 2 ^ 53 * 2 ^ e := by rw [← pow_add]; congr 1; omega
  have hq : 2 ^ 52 ≤ n / 2 ^ e := (Nat.le_div_iff_mul_le (Nat.two_pow_pos _)).mpr hlow
  have hq' : n / 2 ^ e < 2 ^ 53 := Nat.div_lt_of_lt_mul (by rwa [Nat.mul_comm])
  have hexp : Nat.log 2 n - 52 = e := by omega
  unfold toNumber
  rw [if_neg (not_lt.mpr h)]
  dsimp only
  rw [hexp]
  split_ifs
  · exact ⟨e, n / 2 ^ e, rfl, by omega, hq, hq'.le, rfl⟩
  · exact ⟨e, n / 2 ^ e + 1, rfl, by omega, by omega, hq', rfl⟩

/-- A double is converted to itself. -/
theorem toNumber_toNumber (n : ℕ) : toNumber (toNumber n) = toNumber n := by
  by_cases hsmall : n < 2 ^ 53
  · have hsame : toNumber n = n := by
      unfold toNumber
      rw [if_pos hsmall]
    rw [hsame, hsame]
  obtain ⟨e, q, -, -, hlow, hhigh, hn⟩ := toNumber_cases (not_lt.mp hsmall)
  rw [hn]
  apply toNumber_of_dvd
  have hpos : 0 < 2 ^ e := Nat.two_pow_pos _
  by_cases htop : q = 2 ^ 53
  · have hlog : Nat.log 2 (q * 2 ^ e) = e + 53 := by
      rw [htop, ← pow_add, Nat.log_pow (by norm_num), Nat.add_comm]
    rw [hlog, htop, ← pow_add]
    exact pow_dvd_pow 2 (by omega)
  · have hlog : Nat.log 2 (q * 2 ^ e) = e + 52 := by
      refine Nat.log_eq_of_pow_le_of_lt_pow ?_ ?_
      · rw [Nat.add_comm, pow_add]
        exact Nat.mul_le_mul_right _ hlow
      · have hlt : q < 2 ^ 53 := lt_of_le_of_ne hhigh htop
        calc q * 2 ^ e < 2 ^ 53 * 2 ^ e := Nat.mul_lt_mul_of_pos_right hlt hpos
          _ = 2 ^ (e + 52 + 1) := by rw [← pow_add]; congr 1; omega
    rw [hlog, Nat.add_sub_cancel]
    exact Dvd.intro_left q rfl

/-- A large number stays large. -/
theorem le_toNumber {n : ℕ} (h : 2 ^ 53 ≤ n) : 2 ^ 53 ≤ toNumber n := by
  obtain ⟨e, q, -, hone, hlow, -, hn⟩ := toNumber_cases h
  have htwo : 2 ≤ 2 ^ e := by
    calc 2 = 2 ^ 1 := rfl
      _ ≤ 2 ^ e := Nat.pow_le_pow_right (by norm_num) hone
  rw [hn]
  calc 2 ^ 53 = 2 ^ 52 * 2 := by norm_num
    _ ≤ q * 2 ^ e := Nat.mul_le_mul hlow htwo

/-! ## What is written -/

/-- What a double is written as is read back as it. -/
theorem toNumber_shortestDecimal {x : ℕ} (hx : toNumber x = x) (zeros : ℕ) :
    toNumber (shortestDecimal x zeros).1 = x := by
  induction zeros with
  | zero => exact hx
  | succ zeros ih =>
    unfold shortestDecimal
    split
    · rename_i y hy
      have hfound := List.find?_some hy
      simpa using hfound
    · exact ih

/-- No number has an exponent. -/
theorem e_notMem_toString (n : ℕ) : 'e' ∉ (toString n).toList := by
  rw [Nat.toString_eq_repr, Nat.toList_repr]
  intro h
  have hdigit := Nat.isDigit_of_mem_toDigits (by decide) (by decide) h
  exact absurd hdigit (by decide)

/-- A double that is written as a number is that to which the number is converted. -/
theorem toNumber_of_written {x n : ℕ} (hx : toNumber x = x) (h : numberToString x = toString n) :
    toNumber n = x := by
  unfold numberToString at h
  split_ifs at h with hsmall
  · rw [← toString_injective h, hx]
  · have hback := toNumber_shortestDecimal hx (Nat.log 10 x + 1)
    generalize shortestDecimal x (Nat.log 10 x + 1) = written at h hback
    obtain ⟨y, zeros⟩ := written
    dsimp only at h hback
    by_cases hplain : y < 10 ^ 21
    · rw [if_pos hplain] at h
      rw [← toString_injective h, hback]
    · rw [if_neg hplain] at h
      -- Its text has an exponent.
      refine absurd ?_ (e_notMem_toString n)
      rw [← h]
      have hexponent : 'e' ∈ (toString "e+").toList := by decide
      simp only [String.toList_append, List.mem_append]
      exact .inl (.inr hexponent)

/-- A double less eighty is written as a number exactly if the number is written back. -/
theorem written_iff {v : ℕ} : numberToString (toNumber (toNumber v - 80)) = toString (v - 80) ↔ WrittenBack v := by
  constructor
  · intro h
    have hsame := toNumber_of_written (toNumber_toNumber _) h
    exact ⟨hsame.symm, by rw [hsame]; exact h⟩
  · rintro ⟨hsame, hwritten⟩
    rw [hsame]
    exact hwritten

section Dotted

variable {v v' : ℕ} {vs vs' : List ℕ}

/-- The arcs of a first sub-identifier that is no safe integer. -/
theorem firstArcs_large (h : 2 ^ 53 ≤ v) :
    firstArcs v = [toString 2, numberToString (toNumber (toNumber v - 80))] ∧ topArcs v = (2, v - 80) := by
  have hnumber := le_toNumber h
  have hpow : 80 ≤ 2 ^ 53 := by norm_num
  unfold firstArcs topArcs
  dsimp only
  rw [if_pos (by omega), if_neg (by omega), if_neg (by omega)]
  exact ⟨rfl, rfl⟩

/-- The arcs of one that is. -/
theorem firstArcs_small (h : v < 2 ^ 53) : firstArcs v = [toString (topArcs v).1, toString (topArcs v).2] := by
  have hnumber : ∀ n < 2 ^ 53, toNumber n = n ∧ numberToString n = toString n := by
    intro n hn
    unfold toNumber numberToString
    exact ⟨if_pos hn, if_pos hn⟩
  unfold firstArcs topArcs
  dsimp only
  rw [(hnumber v h).1]
  by_cases h40 : v < 40
  · have hzero : v / 40 = 0 := by omega
    rw [if_neg (by omega), if_pos h40, hzero, Nat.zero_mul, Nat.sub_zero, (hnumber v h).1, (hnumber v h).2]
  by_cases h80 : v < 80
  · have hone : v / 40 = 1 := by omega
    rw [if_neg (by omega), if_neg h40, if_pos h80, hone, Nat.one_mul, (hnumber _ (by omega)).1,
      (hnumber _ (by omega)).2]
  · rw [if_pos (by omega), if_neg h40, if_neg h80, (hnumber _ (by omega)).1, (hnumber _ (by omega)).2]

/-- The first sub-identifier is split into its arcs exactly if it is split as the number that it is. -/
theorem firstArcs_eq_iff : firstArcs v = [toString (topArcs v).1, toString (topArcs v).2] ↔ SplitExactly v := by
  unfold SplitExactly
  by_cases hsafe : v < 2 ^ 53
  · exact iff_of_true (firstArcs_small hsafe) (.inl hsafe)
  · obtain ⟨hfirst, htop⟩ := firstArcs_large (not_lt.mp hsafe)
    rw [hfirst, htop]
    simp only [List.cons.injEq, and_true, true_and, hsafe, false_or]
    exact written_iff

/-! ## The identifiers -/

theorem dottedForm_eq : dottedForm v vs =
    ".".intercalate ([toString (topArcs v).1, toString (topArcs v).2] ++ vs.map toString) := rfl

/-- The text of sub-identifiers is their dotted form exactly if the first one is split as the number that it is. -/
theorem dottedParts_eq_iff : ".".intercalate (dottedParts (v :: vs)) = dottedForm v vs ↔ SplitExactly v := by
  rw [dottedForm_eq, dottedParts_cons, ← firstArcs_eq_iff]
  constructor
  · intro h
    by_cases hsafe : v < 2 ^ 53
    · exact firstArcs_small hsafe
    obtain ⟨hfirst, htop⟩ := firstArcs_large (not_lt.mp hsafe)
    rw [hfirst, htop] at h ⊢
    have hfront : ".".intercalate [toString 2, numberToString (toNumber (toNumber v - 80))] =
        ".".intercalate [toString 2, toString (v - 80)] := by
      cases vs with
      | nil => simpa using h
      | cons w ws =>
        rw [String.intercalate_append_of_ne_nil (by simp) (by simp),
          String.intercalate_append_of_ne_nil (by simp) (by simp)] at h
        exact (String.append_left_inj _).mp ((String.append_left_inj _).mp h)
    have hsecond := (String.append_right_inj _).mp hfront
    rw [hsecond]
  · intro h
    rw [h]

/-- An identifier is determined by its dotted form. -/
theorem dottedForm_injective (h : dottedForm v vs = dottedForm v' vs') : v = v' ∧ vs = vs' := by
  have hparts := dotted_injective (map_toString_dotless _) (map_toString_dotless _) (by simp) (by simp) h
  have harcs := List.map_injective_iff.mpr (fun m n => toString_injective) hparts
  obtain ⟨hfirst, hsecond, hrest⟩ : (topArcs v).1 = (topArcs v').1 ∧ (topArcs v).2 = (topArcs v').2 ∧ vs = vs' := by
    simpa only [List.cons.injEq] using harcs
  refine ⟨?_, hrest⟩
  unfold topArcs at hfirst hsecond
  split_ifs at hfirst hsecond <;> dsimp only at hfirst hsecond <;> omega

end Dotted

/-- Groups are of one list of numbers. -/
theorem flatMap_varint_injective {us us' : List ℕ} (h : us.flatMap varint = us'.flatMap varint) : us = us' := by
  have hne : ∀ (w : ℕ) (ws : List ℕ), (w :: ws).flatMap varint ≠ [] := by
    intro w ws hnil
    simp [varint] at hnil
  induction us generalizing us' with
  | nil =>
    cases us' with
    | nil => rfl
    | cons w ws => exact absurd h.symm (hne w ws)
  | cons u us ih =>
    cases us' with
    | nil => exact absurd h (hne u us)
    | cons w ws =>
      rw [List.flatMap_cons, List.flatMap_cons] at h
      have hleading := congrArg (leadingSubidentifier 0) h
      rw [leadingSubidentifier_varint, leadingSubidentifier_varint] at hleading
      subst hleading
      rw [ih (List.append_cancel_left h)]

section Accepted

variable {node node' : DerNode} {what what' s s' : String}

/-- Of an identifier that is read, the first sub-identifier is the one that its content starts with. -/
theorem derOid_dotted (h : derOid node what = .ok s) :
    IsDottedForm node.content s ↔ SplitExactly (leadingSubidentifier 0 node.content) := by
  obtain ⟨-, v, vs, hcontent, rfl⟩ := derOid_spec h
  have hleading : leadingSubidentifier 0 node.content = v := by
    rw [hcontent, List.flatMap_cons]
    exact leadingSubidentifier_varint v _
  rw [hleading, ← dottedParts_eq_iff]
  constructor
  · rintro ⟨u, us, hcontent', hform⟩
    obtain rfl : v = u := by
      rw [← hleading, hcontent', List.flatMap_cons]
      exact leadingSubidentifier_varint u _
    obtain rfl : vs = us := by
      rw [hcontent, List.flatMap_cons, List.flatMap_cons] at hcontent'
      exact flatMap_varint_injective (List.append_cancel_left hcontent')
    exact hform
  · intro hform
    exact ⟨v, vs, hcontent, hform⟩

/-- Two identifiers that are split exactly, and that have one text, have one content. -/
theorem derOid_injective (h : derOid node what = .ok s) (h' : derOid node' what' = .ok s')
    (hexact : SplitExactly (leadingSubidentifier 0 node.content))
    (hexact' : SplitExactly (leadingSubidentifier 0 node'.content)) (hsame : s = s') :
    node.content = node'.content := by
  obtain ⟨v, vs, hcontent, hform⟩ := (derOid_dotted h).mpr hexact
  obtain ⟨v', vs', hcontent', hform'⟩ := (derOid_dotted h').mpr hexact'
  rw [hform, hform'] at hsame
  obtain ⟨rfl, rfl⟩ := dottedForm_injective hsame
  rw [hcontent, hcontent']

end Accepted

/-- The text of an identifier is the dotted form of its content exactly if the first sub-identifier is below `2 ^ 53`,
or is written back by the conversions of the language; and identifiers for which it is have different texts. -/
theorem derOid_dotted_iff (node : DerNode) (what s : String) (h : derOid node what = .ok s) :
    (IsDottedForm node.content s ↔ SplitExactly (leadingSubidentifier 0 node.content)) ∧
    ∀ node' what', derOid node' what' = .ok s → SplitExactly (leadingSubidentifier 0 node.content) →
      SplitExactly (leadingSubidentifier 0 node'.content) → node.content = node'.content :=
  ⟨derOid_dotted h, fun _ _ h' hexact hexact' => derOid_injective h h' hexact hexact' rfl⟩

/-- An identifier with a content. -/
def oidNode (content : Bytes) : DerNode := .mk .universal false DER_OID content []

/-- The identifier of the extension with a key description. -/
theorem derOid_dotted_iff_keyDescription :
    IsDottedForm [0x2b, 0x06, 0x01, 0x04, 0x01, 0xd6, 0x79, 0x02, 0x01, 0x11] "1.3.6.1.4.1.11129.2.1.17" := by
  have hread : derOid (oidNode [0x2b, 0x06, 0x01, 0x04, 0x01, 0xd6, 0x79, 0x02, 0x01, 0x11]) "extnID" =
      .ok "1.3.6.1.4.1.11129.2.1.17" := by decide
  exact (derOid_dotted_iff _ _ _ hread).1.mpr (.inl (by decide))

/-- A first sub-identifier above `2 ^ 53` is rounded, and two of them have one text. -/
theorem derOid_not_dotted : ¬((∀ node what s, derOid node what = .ok s → IsDottedForm node.content s) ∧
    ∀ node node' what what' s, derOid node what = .ok s → derOid node' what' = .ok s →
      node.content = node'.content) := by
  rintro ⟨-, hinjective⟩
  have heven : derOid (oidNode [0x90, 0x80, 0x80, 0x80, 0x80, 0x80, 0x80, 0x00]) "extnID" =
      .ok "2.9007199254740912" := by decide
  have hodd : derOid (oidNode [0x90, 0x80, 0x80, 0x80, 0x80, 0x80, 0x80, 0x01]) "extnID" =
      .ok "2.9007199254740912" := by decide
  exact absurd (hinjective _ _ _ _ _ heven hodd) (by decide)

end SdidBridge.Attestation
