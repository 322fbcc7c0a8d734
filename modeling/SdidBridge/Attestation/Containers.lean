import Mathlib.Data.List.Infix
import SdidBridge.Attestation.KeyDescription

/-!
# The containers of a chain

A client sends a chain as a JSON array, as a PEM bundle, or as a list, and which of them it is is seen from the text.
All the renderings of a chain are read as the chain (`containers_agree`): the characters of base64 stand in no bracket,
in no mark of a bundle and in no separator, and white space is dropped wherever one of the three lets it stand.
-/

namespace SdidBridge.Attestation

/-! ## Trimming -/

/-- White space alone. -/
def Blank (cs : List Char) : Prop := ∀ c ∈ cs, isJsSpace c = true

instance (cs : List Char) : Decidable (Blank cs) := decidable_of_iff (cs.all isJsSpace = true) List.all_eq_true

/-- The white space at both ends is dropped, and nothing else. -/
theorem jsTrim_eq {before cs after : List Char} (hbefore : Blank before) (hafter : Blank after)
    (hhead : ∀ c ∈ cs.head?, isJsSpace c = false) (hlast : ∀ c ∈ cs.getLast?, isJsSpace c = false) (hne : cs ≠ []) :
    jsTrim (before ++ cs ++ after) = cs := by
  have hleft : (before ++ (cs ++ after)).dropWhile isJsSpace = cs ++ after := by
    rw [List.dropWhile_append_of_pos hbefore]
    cases cs with
    | nil => exact absurd rfl hne
    | cons c cs =>
      have hc : isJsSpace c = false := hhead c rfl
      simp [hc]
  have hright : (after.reverse ++ cs.reverse).dropWhile isJsSpace = cs.reverse := by
    rw [List.dropWhile_append_of_pos fun c hc => hafter c (List.mem_reverse.mp hc)]
    cases hrev : cs.reverse with
    | nil => rfl
    | cons d ds =>
      have hd : isJsSpace d = false := by
        refine hlast d ?_
        rw [List.getLast?_eq_head?_reverse, hrev]
        rfl
      simp [hd]
  unfold jsTrim
  rw [List.append_assoc, hleft, List.reverse_append, hright, List.reverse_reverse]

/-- A text is what is left of it, and white space. -/
theorem exists_jsTrim (cs : List Char) :
    ∃ before after, Blank before ∧ Blank after ∧ cs = before ++ (jsTrim cs ++ after) := by
  have hblank : ∀ ds : List Char, Blank (ds.takeWhile isJsSpace) := fun ds c hc => List.mem_takeWhile_imp hc
  refine ⟨cs.takeWhile isJsSpace, ((cs.dropWhile isJsSpace).reverse.takeWhile isJsSpace).reverse, hblank _, ?_, ?_⟩
  · intro c hc
    exact hblank _ c (List.mem_reverse.mp hc)
  · unfold jsTrim
    rw [← List.reverse_append, List.takeWhile_append_dropWhile, List.reverse_reverse, List.takeWhile_append_dropWhile]

/-- What is left of a text stands in it. -/
theorem mem_of_mem_jsTrim {cs : List Char} {c : Char} (h : c ∈ jsTrim cs) : c ∈ cs := by
  obtain ⟨before, after, -, -, hcs⟩ := exists_jsTrim cs
  rw [hcs]
  exact List.mem_append_right _ (List.mem_append_left _ h)

/-! ## Lists -/

/-- A character that stands between the parts of a list. -/
def isSeparator (c : Char) : Bool := isJsSpace c || c == ','

/-- A run of separators. -/
def Run (cs : List Char) : Prop := ∀ c ∈ cs, isSeparator c = true

instance (cs : List Char) : Decidable (Run cs) := decidable_of_iff (cs.all isSeparator = true) List.all_eq_true

/-- The parts with runs of separators after them, of which those between two parts are not empty. -/
inductive ListRendering : List (List Char) → List Char → Prop
  | last {part run : List Char} (hrun : Run run) : ListRendering [part] (part ++ run)
  | cons {part run rest : List Char} {parts : List (List Char)} (hrun : Run run) (hne : run ≠ [])
      (h : ListRendering parts rest) : ListRendering (part :: parts) (part ++ (run ++ rest))

theorem Blank.run {cs : List Char} (h : Blank cs) : Run cs := fun c hc => by simp [isSeparator, h c hc]

/-- A separator parts a text. -/
theorem partsBetween_append_cons {c : Char} (cs ds : List Char) (h : isSeparator c = true) :
    partsBetween isSeparator (cs ++ c :: ds) = partsBetween isSeparator cs ++ partsBetween isSeparator ds := by
  unfold partsBetween
  rw [List.splitOnP_append_cons cs ds h, List.filter_append]

theorem partsBetween_nil : partsBetween isSeparator [] = [] := rfl

/-- A run parts a text. -/
theorem partsBetween_append_run (cs : List Char) {run : List Char} (ds : List Char) (hrun : Run run) (hne : run ≠ []) :
    partsBetween isSeparator (cs ++ (run ++ ds)) = partsBetween isSeparator cs ++ partsBetween isSeparator ds := by
  induction run generalizing cs with
  | nil => exact absurd rfl hne
  | cons c run ih =>
    have hc : isSeparator c = true := hrun c List.mem_cons_self
    rw [List.cons_append, partsBetween_append_cons _ _ hc]
    by_cases hnil : run = []
    · rw [hnil, List.nil_append]
    · have hrest := ih [] (fun d hd => hrun d (List.mem_cons_of_mem _ hd)) hnil
      rw [partsBetween_nil, List.nil_append, List.nil_append] at hrest
      rw [hrest]

/-- A run before a text has no parts. -/
theorem partsBetween_run {run : List Char} (cs : List Char) (hrun : Run run) :
    partsBetween isSeparator (run ++ cs) = partsBetween isSeparator cs := by
  by_cases hnil : run = []
  · rw [hnil, List.nil_append]
  · exact partsBetween_append_run [] cs hrun hnil

/-- Nor has one after it. -/
theorem partsBetween_append {run : List Char} (cs : List Char) (hrun : Run run) :
    partsBetween isSeparator (cs ++ run) = partsBetween isSeparator cs := by
  by_cases hnil : run = []
  · rw [hnil, List.append_nil]
  · have hparts := partsBetween_append_run cs [] hrun hnil
    rwa [List.append_nil, partsBetween_nil, List.append_nil] at hparts

theorem partsBetween_jsTrim (cs : List Char) :
    partsBetween isSeparator (jsTrim cs) = partsBetween isSeparator cs := by
  obtain ⟨before, after, hbefore, hafter, hcs⟩ := exists_jsTrim cs
  calc partsBetween isSeparator (jsTrim cs) = partsBetween isSeparator (jsTrim cs ++ after) :=
        (partsBetween_append _ hafter.run).symm
    _ = partsBetween isSeparator (before ++ (jsTrim cs ++ after)) := (partsBetween_run _ hbefore.run).symm
    _ = partsBetween isSeparator cs := by rw [← hcs]

/-- A text without separators is its own part. -/
theorem partsBetween_part {part : List Char} (h : ∀ c ∈ part, isSeparator c = false) (hne : part ≠ []) :
    partsBetween isSeparator part = [part] := by
  unfold partsBetween
  rw [List.splitOnP_eq_singleton h]
  simp [hne]

/-- The parts of a list are found again. -/
theorem partsBetween_rendering {parts : List (List Char)} {text : List Char} (h : ListRendering parts text)
    (hparts : ∀ part ∈ parts, part ≠ [] ∧ ∀ c ∈ part, isSeparator c = false) :
    partsBetween isSeparator text = parts := by
  induction h with
  | last hrun =>
    obtain ⟨hne, hpart⟩ := hparts _ List.mem_cons_self
    rw [partsBetween_append _ hrun, partsBetween_part hpart hne]
  | cons hrun hrunNe _ ih =>
    obtain ⟨hne, hpart⟩ := hparts _ List.mem_cons_self
    rw [partsBetween_append_run _ _ hrun hrunNe, partsBetween_part hpart hne,
      ih fun other hother => hparts other (List.mem_cons_of_mem _ hother), List.singleton_append]

/-- A character of a list stands in a part or in a run. -/
theorem mem_rendering {parts : List (List Char)} {text : List Char} (h : ListRendering parts text) {c : Char}
    (hc : c ∈ text) : (∃ part ∈ parts, c ∈ part) ∨ isSeparator c = true := by
  induction h with
  | last hrun =>
    rcases List.mem_append.mp hc with hc | hc
    · exact .inl ⟨_, List.mem_cons_self, hc⟩
    · exact .inr (hrun c hc)
  | cons hrun _ _ ih =>
    rcases List.mem_append.mp hc with hc | hc
    · exact .inl ⟨_, List.mem_cons_self, hc⟩
    · rcases List.mem_append.mp hc with hc | hc
      · exact .inr (hrun c hc)
      · rcases ih hc with ⟨part, hpart, hmem⟩ | hsep
        · exact .inl ⟨part, List.mem_cons_of_mem _ hpart, hmem⟩
        · exact .inr hsep

/-! ## PEM bundles -/

/-- Blocks with white space before each and after the last, in which white space stands anywhere. -/
inductive PemRendering : List (List Char) → List Char → Prop
  | nil {blank : List Char} (hblank : Blank blank) : PemRendering [] blank
  | cons {blank body rest part : List Char} {parts : List (List Char)} (hblank : Blank blank)
      (hbody : body.filter (fun c => !isJsSpace c) = part) (h : PemRendering parts rest) :
      PemRendering (part :: parts) (blank ++ (PEM_BEGIN ++ (body ++ (PEM_END ++ rest))))

/-- A part does not occur where its first character does not. -/
theorem breakAt_eq_none {c : Char} {part cs : List Char} (h : c ∉ cs) : breakAt (c :: part) cs = none := by
  induction cs with
  | nil => rfl
  | cons d cs ih =>
    have hne : c ≠ d := fun heq => h (heq ▸ List.mem_cons_self)
    have hrest : breakAt (c :: part) cs = none := ih fun hmem => h (List.mem_cons_of_mem _ hmem)
    have hnot : (c :: part).isPrefixOf (d :: cs) = false := by simp [List.isPrefixOf, hne]
    rw [breakAt, if_neg (by simp [hnot]), hrest]
    rfl

/-- A text in which no occurrence starts is passed over. -/
theorem breakAt_append {part before cs : List Char}
    (h : ∀ s ∈ before.tails, s ≠ [] → ¬part <+: s ++ cs) :
    breakAt part (before ++ cs) = (breakAt part cs).map fun x => (before ++ x.1, x.2) := by
  induction before with
  | nil => simp
  | cons c before ih =>
    have hnot : ¬part <+: c :: (before ++ cs) := h (c :: before) ((List.mem_tails _ _).mpr (List.suffix_refl _)) (by simp)
    have hrest := ih fun s hs => h s
      ((List.mem_tails _ _).mpr (((List.mem_tails _ _).mp hs).trans (List.suffix_cons c before)))
    rw [List.cons_append, breakAt, if_neg (by rwa [List.isPrefixOf_iff_prefix]), hrest, Option.map_map]
    rfl

/-- Its first character does not stand in a text that is passed over. -/
theorem breakAt_append_of_notMem {c : Char} {part before cs : List Char} (h : c ∉ before) :
    breakAt (c :: part) (before ++ cs) = (breakAt (c :: part) cs).map fun x => (before ++ x.1, x.2) := by
  refine breakAt_append fun s hs hne hprefix => ?_
  cases s with
  | nil => exact hne rfl
  | cons d s =>
    obtain ⟨rfl, -⟩ := List.cons_prefix_cons.mp hprefix
    exact h (((List.mem_tails _ _).mp hs).subset List.mem_cons_self)

/-- An occurrence at the start. -/
theorem breakAt_self {c : Char} {part : List Char} (cs : List Char) :
    breakAt (c :: part) (c :: part ++ cs) = some ([], cs) := by
  have hprefix : (c :: part).isPrefixOf (c :: (part ++ cs)) = true :=
    List.isPrefixOf_iff_prefix.mpr (List.prefix_append (c :: part) cs)
  rw [List.cons_append, breakAt, if_pos hprefix]
  simp

/-- A text without dashes before a start is passed over. -/
theorem breakAt_begin {before : List Char} (h : '-' ∉ before) (cs : List Char) :
    breakAt PEM_BEGIN (before ++ cs) = (breakAt PEM_BEGIN cs).map fun x => (before ++ x.1, x.2) :=
  breakAt_append_of_notMem h

theorem breakAt_begin_self (cs : List Char) : breakAt PEM_BEGIN (PEM_BEGIN ++ cs) = some ([], cs) :=
  breakAt_self cs

/-- A body has no dashes but those of its base64. -/
theorem dashless_body {body part : List Char} (hbody : body.filter (fun c => !isJsSpace c) = part) (h : '-' ∉ part) :
    '-' ∉ body := by
  intro hmem
  refine h ?_
  rw [← hbody]
  exact List.mem_filter.mpr ⟨hmem, by decide⟩

theorem Blank.dashless {cs : List Char} (h : Blank cs) : '-' ∉ cs := fun hmem => absurd (h _ hmem) (by decide)

/-- No start of a block begins within an end before a text that does not go on with it. -/
theorem begin_not_prefix {cs s : List Char} (hcs : ∀ c ∈ cs.head?, c ≠ '-' ∧ c ≠ 'B') (hs : s ∈ PEM_END.tails)
    (hne : s ≠ []) : ¬PEM_BEGIN <+: s ++ cs := by
  rintro ⟨more, hmore⟩
  have hends : ∀ s ∈ PEM_END.tails, s ≠ [] → s.length < PEM_BEGIN.length ∧ (s = PEM_BEGIN.take s.length →
      (PEM_BEGIN.drop s.length).head? = some '-' ∨ (PEM_BEGIN.drop s.length).head? = some 'B') := by
    decide
  obtain ⟨hshort, hnext⟩ := hends s hs hne
  have htake : s = PEM_BEGIN.take s.length := by
    have hcut := congrArg (List.take s.length) hmore
    rwa [List.take_append_of_le_length hshort.le, List.take_left, eq_comm] at hcut
  have hdrop : cs = PEM_BEGIN.drop s.length ++ more := by
    have hcut := congrArg (List.drop s.length) hmore
    rwa [List.drop_append_of_le_length hshort.le, List.drop_left, eq_comm] at hcut
  rcases hnext htake with hhead | hhead
  · exact (hcs '-' (by rw [hdrop, List.head?_append, hhead]; rfl)).1 rfl
  · exact (hcs 'B' (by rw [hdrop, List.head?_append, hhead]; rfl)).2 rfl

/-- Nor before the start of the next one. -/
theorem begin_not_prefix_begin {cs s : List Char} (hs : s ∈ PEM_END.tails) (hne : s ≠ []) :
    ¬PEM_BEGIN <+: s ++ (PEM_BEGIN ++ cs) := by
  intro hprefix
  have hends : ∀ s ∈ PEM_END.tails, s ≠ [] → ¬PEM_BEGIN <+: s ++ PEM_BEGIN := by decide
  rw [← List.append_assoc] at hprefix
  refine hends s hs hne (List.prefix_of_prefix_length_le hprefix (List.prefix_append _ _) ?_)
  rw [List.length_append]
  omega

/-- The end of a block is passed over, with the white space after it. -/
theorem breakAt_end {blank : List Char} (hblank : Blank blank) (cs : List Char) :
    breakAt PEM_BEGIN (PEM_END ++ (blank ++ (PEM_BEGIN ++ cs))) = some (PEM_END ++ blank, cs) := by
  have hnot : ∀ s ∈ PEM_END.tails, s ≠ [] → ¬PEM_BEGIN <+: s ++ (blank ++ (PEM_BEGIN ++ cs)) := by
    intro s hs hne
    cases blank with
    | nil => exact begin_not_prefix_begin hs hne
    | cons c blank =>
      refine begin_not_prefix ?_ hs hne
      intro d hd
      obtain rfl : c = d := Option.some.inj hd
      have hspace := hblank c List.mem_cons_self
      constructor <;> rintro rfl <;> exact absurd hspace (by decide)
  rw [breakAt_append hnot, breakAt_begin hblank.dashless, breakAt_begin_self]
  simp

/-- No block follows the last one. -/
theorem breakAt_last {blank : List Char} (hblank : Blank blank) : breakAt PEM_BEGIN (PEM_END ++ blank) = none := by
  have hnot : ∀ s ∈ PEM_END.tails, s ≠ [] → ¬PEM_BEGIN <+: s ++ blank := by
    intro s hs hne
    refine begin_not_prefix ?_ hs hne
    intro d hd
    have hspace := hblank d (List.mem_of_mem_head? hd)
    constructor <;> rintro rfl <;> exact absurd hspace (by decide)
  have hnone : breakAt PEM_BEGIN blank = none := breakAt_eq_none hblank.dashless
  rw [breakAt_append hnot, hnone]
  rfl

/-- A block is read up to its end. -/
theorem pemText_block {body : List Char} (hbody : '-' ∉ body) (after : List Char) :
    pemText (body ++ (PEM_END ++ after)) = .ok (body.filter fun c => !isJsSpace c) := by
  have hbreak : breakAt PEM_END (body ++ (PEM_END ++ after)) = some (body, after) := by
    have hstart : breakAt PEM_END (PEM_END ++ after) = some ([], after) := breakAt_self after
    have hpassed : breakAt PEM_END (body ++ (PEM_END ++ after)) =
        (breakAt PEM_END (PEM_END ++ after)).map fun x => (body ++ x.1, x.2) := breakAt_append_of_notMem hbody
    rw [hpassed, hstart]
    simp
  unfold pemText
  rw [hbreak]

/-- The blocks after the first start are found again. -/
theorem pemTexts_blocks {parts : List (List Char)} {text body : List Char} (h : PemRendering parts text)
    (hparts : ∀ part ∈ parts, '-' ∉ part) (hbody : '-' ∉ body) (turns : ℕ) (hturns : parts.length ≤ turns) :
    (splitTurns PEM_BEGIN turns (body ++ (PEM_END ++ text))).mapM pemText =
      .ok (body.filter (fun c => !isJsSpace c) :: parts) := by
  induction h generalizing body turns with
  | nil hblank =>
    cases turns with
    | zero => simp [splitTurns, pemText_block hbody]
    | succ turns => simp [splitTurns, breakAt_begin hbody, breakAt_last hblank, pemText_block hbody]
  | @cons blank body' rest part parts hblank hpart _ ih =>
    have hdashless := dashless_body hpart (hparts part List.mem_cons_self)
    have hbreak : breakAt PEM_BEGIN (body ++ (PEM_END ++ (blank ++ (PEM_BEGIN ++ (body' ++ (PEM_END ++ rest)))))) =
        some (body ++ (PEM_END ++ blank), body' ++ (PEM_END ++ rest)) := by
      rw [breakAt_begin hbody, breakAt_end hblank]
      rfl
    cases turns with
    | zero => exact absurd hturns (by simp)
    | succ turns =>
      have hrest := ih (fun other hother => hparts other (List.mem_cons_of_mem _ hother)) hdashless turns
        (Nat.le_of_succ_le_succ hturns)
      rw [splitTurns, hbreak, List.mapM_cons, pemText_block hbody, hrest, hpart]
      rfl

/-- A bundle is as long as it has blocks, at least. -/
theorem length_le_rendering {parts : List (List Char)} {text : List Char} (h : PemRendering parts text) :
    parts.length ≤ text.length := by
  induction h with
  | nil _ => exact Nat.zero_le _
  | cons _ _ _ ih =>
    have hbegin : PEM_BEGIN.length = 27 := rfl
    simp only [List.length_append, List.length_cons]
    omega

/-- The blocks of a bundle are found again. -/
theorem pemTexts_rendering {part : List Char} {parts : List (List Char)} {text : List Char}
    (h : PemRendering (part :: parts) text) (hparts : ∀ other ∈ part :: parts, '-' ∉ other) :
    (breakAt PEM_BEGIN text).isSome ∧ (jsSplit PEM_BEGIN text).tail.mapM pemText = .ok (part :: parts) := by
  have hlength := length_le_rendering h
  cases h with
  | @cons blank body rest _ _ hblank hpart h =>
    have hdashless := dashless_body hpart (hparts part List.mem_cons_self)
    have hbreak : breakAt PEM_BEGIN (blank ++ (PEM_BEGIN ++ (body ++ (PEM_END ++ rest)))) =
        some (blank, body ++ (PEM_END ++ rest)) := by
      rw [breakAt_begin hblank.dashless, breakAt_begin_self]
      simp
    obtain ⟨turns, hturns⟩ : ∃ turns, (blank ++ (PEM_BEGIN ++ (body ++ (PEM_END ++ rest)))).length = turns + 1 :=
      ⟨_, (Nat.succ_pred_eq_of_pos (Nat.lt_of_lt_of_le (Nat.succ_pos _) hlength)).symm⟩
    refine ⟨by rw [hbreak]; rfl, ?_⟩
    unfold jsSplit
    rw [hturns, splitTurns, hbreak, List.tail_cons, ← hpart]
    refine pemTexts_blocks h (fun other hother => hparts other (List.mem_cons_of_mem _ hother)) hdashless turns ?_
    rw [hturns, List.length_cons] at hlength
    omega

theorem pemBegin_ne_nil : PEM_BEGIN ≠ [] := List.cons_ne_nil _ _

/-- The end of a block ends as the block does. -/
theorem getLast?_block (body : List Char) {rest : List Char} (h : rest = [] ∨ rest.getLast? = some '-') :
    (PEM_BEGIN ++ (body ++ (PEM_END ++ rest))).getLast? = some '-' := by
  have hend : PEM_END.getLast? = some '-' := rfl
  have hne : PEM_END ++ rest ≠ [] := List.append_ne_nil_of_left_ne_nil (List.cons_ne_nil _ _) _
  have hlast : (PEM_END ++ rest).getLast? = some '-' := by
    rcases h with rfl | h
    · rw [List.append_nil, hend]
    · rw [List.getLast?_append, h]
      rfl
  rw [List.getLast?_append_of_ne_nil _ (List.append_ne_nil_of_right_ne_nil _ hne),
    List.getLast?_append_of_ne_nil _ hne, hlast]

/-- The white space after a bundle is apart from it. -/
theorem PemRendering.ends {part : List Char} {parts : List (List Char)} {text : List Char}
    (h : PemRendering (part :: parts) text) :
    ∃ blank block after, Blank blank ∧ Blank after ∧ text = blank ++ (PEM_BEGIN ++ block) ++ after ∧
      PemRendering (part :: parts) (PEM_BEGIN ++ block) ∧ (PEM_BEGIN ++ block).getLast? = some '-' := by
  have hempty : Blank [] := fun c hc => absurd hc List.not_mem_nil
  induction parts generalizing part text with
  | nil =>
    cases h with
    | @cons blank body rest _ _ hblank hbody hrest =>
      cases hrest with
      | nil hafter =>
        refine ⟨blank, body ++ (PEM_END ++ []), rest, hblank, hafter, ?_, ?_, getLast?_block body (.inl rfl)⟩
        · simp only [List.append_assoc, List.append_nil]
        · exact .cons hempty hbody (.nil hempty)
  | cons next parts ih =>
    cases h with
    | @cons blank body rest _ _ hblank hbody hrest =>
      obtain ⟨between, block, after, hbetween, hafter, rfl, hbundle, hlast⟩ := ih hrest
      have hmore : PemRendering (next :: parts) (between ++ (PEM_BEGIN ++ block)) := by
        generalize hbegin : PEM_BEGIN ++ block = bundle at hbundle
        cases hbundle with
        | @cons inner body' rest' _ _ hinner hbody' hrest' =>
          rw [← List.append_assoc]
          refine .cons ?_ hbody' hrest'
          intro c hc
          rcases List.mem_append.mp hc with hc | hc
          · exact hbetween c hc
          · exact hinner c hc
      refine ⟨blank, body ++ (PEM_END ++ (between ++ (PEM_BEGIN ++ block))), after, hblank, hafter, ?_,
        .cons hempty hbody hmore, getLast?_block body (.inr ?_)⟩
      · simp only [List.append_assoc]
      · have hne : PEM_BEGIN ++ block ≠ [] := List.append_ne_nil_of_left_ne_nil pemBegin_ne_nil _
        rw [List.getLast?_append_of_ne_nil _ hne, hlast]

/-- Trimmed, a bundle starts with the start of a block. -/
theorem PemRendering.trimmed {part : List Char} {parts : List (List Char)} {text : List Char}
    (h : PemRendering (part :: parts) text) :
    PemRendering (part :: parts) (jsTrim text) ∧ (jsTrim text).head? = some '-' := by
  obtain ⟨blank, block, after, hblank, hafter, rfl, hbundle, hlast⟩ := h.ends
  have hcore : (PEM_BEGIN ++ block).head? = some '-' := rfl
  have hdash : ∀ c ∈ some '-', isJsSpace c = false := by
    intro c hc
    obtain rfl := Option.some.inj hc
    decide
  have htrim : jsTrim (blank ++ (PEM_BEGIN ++ block) ++ after) = PEM_BEGIN ++ block := by
    refine jsTrim_eq hblank hafter ?_ ?_ (List.append_ne_nil_of_left_ne_nil pemBegin_ne_nil _)
    · rw [hcore]
      exact hdash
    · rw [hlast]
      exact hdash
  rw [htrim]
  exact ⟨hbundle, hcore⟩

/-! ## JSON arrays -/

/-- A spelling of a text between the quotes of a JSON string. -/
inductive Spelling : List Char → List Char → Prop
  | nil : Spelling [] []
  | plain {c : Char} {cs ds : List Char} (hquote : c ≠ '"') (hescape : c ≠ '\\') (hcontrol : 0x20 ≤ c.toNat)
      (h : Spelling cs ds) : Spelling (c :: cs) (c :: ds)
  | short {c e : Char} {cs ds : List Char} (hescaped : escaped e = some c.toNat) (h : Spelling cs ds) :
      Spelling (c :: cs) ('\\' :: e :: ds)
  | unicode {c a b d e : Char} {x y z w : Fin 16} {cs ds : List Char}
      (hdigits : hexValue a = some x ∧ hexValue b = some y ∧ hexValue d = some z ∧ hexValue e = some w)
      (hunit : x.val * 0x1000 + y.val * 0x100 + z.val * 0x10 + w.val = c.toNat) (h : Spelling cs ds) :
      Spelling (c :: cs) ('\\' :: 'u' :: a :: b :: d :: e :: ds)

/-- White space of JSON alone. -/
def JsonBlank (cs : List Char) : Prop := ∀ c ∈ cs, isJsonSpace c = true

instance (cs : List Char) : Decidable (JsonBlank cs) := decidable_of_iff (cs.all isJsonSpace = true) List.all_eq_true

/-- Strings with commas between them, and white space around them. -/
inductive ItemsRendering : List (List Char) → List Char → Prop
  | last {part spelling before after : List Char} (hspelling : Spelling part spelling) (hbefore : JsonBlank before)
      (hafter : JsonBlank after) : ItemsRendering [part] (before ++ '"' :: (spelling ++ '"' :: after))
  | cons {part spelling before after rest : List Char} {parts : List (List Char)} (hspelling : Spelling part spelling)
      (hbefore : JsonBlank before) (hafter : JsonBlank after) (h : ItemsRendering parts rest) :
      ItemsRendering (part :: parts) (before ++ '"' :: (spelling ++ '"' :: (after ++ ',' :: rest)))

/-- An array of strings, with white space around it. -/
def JsonRendering (parts : List (List Char)) (text : List Char) : Prop :=
  ∃ before items after, Blank before ∧ Blank after ∧ ItemsRendering parts items ∧
    text = before ++ ('[' :: (items ++ [']'])) ++ after

theorem afterSpace_blank {blank : List Char} {c : Char} (cs : List Char) (hblank : JsonBlank blank)
    (hc : isJsonSpace c = false) : afterSpace (blank ++ c :: cs) = c :: cs := by
  unfold afterSpace
  rw [List.dropWhile_append_of_pos hblank, List.dropWhile_cons_of_neg (by simp [hc])]

/-- A spelling is read as its text. -/
theorem readJsonString_spelling {text spelling : List Char} (h : Spelling text spelling)
    (htext : ∀ c ∈ text, c.toNat < 0xd800) (rest : List Char) :
    readJsonString (spelling ++ '"' :: rest) = some (text.map Char.toNat, rest) := by
  induction h with
  | nil => rfl
  | @plain c cs ds hquote hescape hcontrol _ ih =>
    have hrest := ih fun d hd => htext d (List.mem_cons_of_mem _ hd)
    have hunit : codeUnits c = [c.toNat] := if_pos ((htext c List.mem_cons_self).trans (by decide))
    have hcontrol' : ¬(c = '\\' ∨ c.toNat < 0x20) := by
      rintro (hc | hc)
      · exact hescape hc
      · exact absurd hc (not_lt.mpr hcontrol)
    rw [List.cons_append, readJsonString.eq_5 _ _ (fun heq => hquote heq) (by simp [hescape]) (by simp [hescape]),
      if_neg hcontrol', hrest, hunit]
    rfl
  | @short c e cs ds hescaped _ ih =>
    have hrest := ih fun d hd => htext d (List.mem_cons_of_mem _ hd)
    have hunicode : e ≠ 'u' := by
      rintro rfl
      exact absurd hescaped (by simp [escaped])
    rw [List.cons_append, List.cons_append, readJsonString.eq_4 _ _ (by simp [hunicode]), hescaped, hrest]
    rfl
  | @unicode c a b d e x y z w cs ds hdigits hunit _ ih =>
    have hrest := ih fun d hd => htext d (List.mem_cons_of_mem _ hd)
    obtain ⟨ha, hb, hd, he⟩ := hdigits
    simp only [List.cons_append]
    rw [readJsonString.eq_3, ha, hb, hd, he, hrest, List.map_cons, ← hunit]
    rfl

theorem ofCodeUnits_map {text : List Char} (h : ∀ c ∈ text, c.toNat < 0xd800) :
    ofCodeUnits (text.map Char.toNat) = text := by
  induction text with
  | nil => rfl
  | cons c cs ih =>
    have hc : c.toNat < 0xd800 := h c List.mem_cons_self
    have hrest := ih fun d hd => h d (List.mem_cons_of_mem _ hd)
    have hchar : Char.ofNat c.toNat = c := Char.ofNat_toNat c
    cases cs with
    | nil =>
      have hnot : ¬(0xd800 ≤ c.toNat ∧ c.toNat < 0xe000) := by omega
      simp only [List.map_cons, List.map_nil, ofCodeUnits, if_neg hnot, hchar]
    | cons d ds =>
      have hpair : ¬(0xd800 ≤ c.toNat ∧ c.toNat < 0xdc00 ∧ 0xdc00 ≤ d.toNat ∧ d.toNat < 0xe000) := by omega
      have hnot : ¬(0xd800 ≤ c.toNat ∧ c.toNat < 0xe000) := by omega
      simp only [List.map_cons] at hrest ⊢
      rw [ofCodeUnits, if_neg hpair, if_neg hnot, hrest, hchar]

/-- A text of ASCII characters. -/
def Plain (text : List Char) : Prop := ∀ c ∈ text, c.toNat < 0xd800

/-- A quoted spelling is read as a string. -/
theorem readJson_spelling {text spelling blank : List Char} (h : Spelling text spelling) (hblank : JsonBlank blank)
    (htext : Plain text) (turns : ℕ) (rest : List Char) :
    readJson (turns + 1) (blank ++ '"' :: (spelling ++ '"' :: rest)) = some (.str text, rest) := by
  have hspace : afterSpace (blank ++ '"' :: (spelling ++ '"' :: rest)) = '"' :: (spelling ++ '"' :: rest) :=
    afterSpace_blank _ hblank (by decide)
  rw [readJson, hspace]
  simp only [readJsonString_spelling h htext, Option.map_some, ofCodeUnits_map htext]

/-- The items of an array are read as its parts. -/
theorem readJsonItems_rendering {parts : List (List Char)} {items : List Char} (h : ItemsRendering parts items)
    (hparts : ∀ part ∈ parts, Plain part) (turns : ℕ) (hturns : parts.length < turns) (rest : List Char) :
    readJsonItems turns (items ++ ']' :: rest) = some (parts.map JsonTree.str, rest) := by
  induction h generalizing turns with
  | @last part spelling before after hspelling hbefore hafter =>
    have hpart := hparts part List.mem_cons_self
    obtain ⟨more, rfl⟩ : ∃ more, turns = more + 2 := ⟨turns - 2, by simp at hturns; omega⟩
    have hspace : afterSpace (after ++ ']' :: rest) = ']' :: rest := afterSpace_blank _ hafter (by decide)
    have htext : before ++ '"' :: (spelling ++ '"' :: after) ++ ']' :: rest =
        before ++ '"' :: (spelling ++ '"' :: (after ++ ']' :: rest)) := by
      simp
    rw [htext, readJsonItems, readJson_spelling hspelling hbefore hpart]
    simp only [Option.bind_eq_bind, Option.bind_some, hspace]
    rfl
  | @cons part spelling before after items parts hspelling hbefore hafter _ ih =>
    have hpart := hparts part List.mem_cons_self
    obtain ⟨more, rfl⟩ : ∃ more, turns = more + 2 := ⟨turns - 2, by simp at hturns; omega⟩
    have hrest := ih (fun other hother => hparts other (List.mem_cons_of_mem _ hother)) (more + 1)
      (Nat.lt_of_succ_lt_succ hturns)
    have hspace : afterSpace (after ++ ',' :: (items ++ ']' :: rest)) = ',' :: (items ++ ']' :: rest) :=
      afterSpace_blank _ hafter (by decide)
    have htext : before ++ '"' :: (spelling ++ '"' :: (after ++ ',' :: items)) ++ ']' :: rest =
        before ++ '"' :: (spelling ++ '"' :: (after ++ ',' :: (items ++ ']' :: rest))) := by
      simp
    rw [htext, readJsonItems, readJson_spelling hspelling hbefore hpart]
    simp only [Option.bind_eq_bind, Option.bind_some, hspace, hrest]
    rfl

/-- An array has a character for each of its items. -/
theorem ItemsRendering.length_le {parts : List (List Char)} {items : List Char} (h : ItemsRendering parts items) :
    parts.length ≤ items.length := by
  induction h with
  | last => simp; omega
  | cons _ _ _ _ ih =>
    simp only [List.length_cons, List.length_append]
    omega

/-- The items of an array start with a quote. -/
theorem ItemsRendering.afterSpace_eq {parts : List (List Char)} {items : List Char} (h : ItemsRendering parts items)
    (rest : List Char) : ∃ more, afterSpace (items ++ rest) = '"' :: more := by
  cases h with
  | @last part spelling before after _ hbefore _ =>
    rw [List.append_assoc, List.cons_append]
    exact ⟨_, afterSpace_blank _ hbefore (by decide)⟩
  | @cons part spelling before after items parts _ hbefore _ _ =>
    rw [List.append_assoc, List.cons_append]
    exact ⟨_, afterSpace_blank _ hbefore (by decide)⟩

/-- An array of strings is read as its parts. -/
theorem jsonParse_rendering {parts : List (List Char)} {items : List Char} (h : ItemsRendering parts items)
    (hparts : ∀ part ∈ parts, Plain part) :
    jsonParse ('[' :: (items ++ [']'])) = some (.arr (parts.map JsonTree.str)) := by
  obtain ⟨more, hmore⟩ := h.afterSpace_eq [']']
  have hturns : parts.length < 2 * ('[' :: (items ++ [']'])).length := by
    have hlength := h.length_le
    simp only [List.length_cons, List.length_append, List.length_nil]
    omega
  have hitems := readJsonItems_rendering h hparts _ hturns []
  have hread : readJson (2 * ('[' :: (items ++ [']'])).length + 1) ('[' :: (items ++ [']'])) =
      some (.arr (parts.map JsonTree.str), []) := by
    have hspace : afterSpace ('[' :: (items ++ [']'])) = '[' :: (items ++ [']']) := rfl
    rw [readJson, hspace]
    simp only [hmore, hitems]
    rfl
  unfold jsonParse
  rw [hread]
  rfl

/-- An array of strings without white space at their ends is an array of certificates. -/
theorem jsonTexts_rendering {parts : List (List Char)} {items : List Char} (h : ItemsRendering parts items)
    (hparts : ∀ part ∈ parts, Plain part) (htrim : ∀ part ∈ parts, jsTrim part = part) :
    jsonTexts ('[' :: (items ++ [']'])) = .ok parts := by
  have hmap : ∀ read : JsonTree → Option (List Char), (∀ part ∈ parts, read (.str part) = some part) →
      (parts.map JsonTree.str).mapM read = some parts := by
    intro read hread
    clear h hparts htrim
    induction parts with
    | nil => rfl
    | cons part parts ih =>
      have hrest := ih fun other hother => hread other (List.mem_cons_of_mem _ hother)
      rw [List.map_cons, List.mapM_cons, hread part List.mem_cons_self, hrest]
      rfl
  unfold jsonTexts
  rw [jsonParse_rendering h hparts]
  dsimp only
  rw [hmap]
  intro part hpart
  exact congrArg some (htrim part hpart)

/-! ## Chains -/

/-- A character that stands in a certificate. -/
def Listed (c : Char) : Prop := isJsSpace c = false ∧ c ≠ '[' ∧ c ≠ '-'

theorem listed_of_mem_toBase64 {der : Bytes} {c : Char} (h : c ∈ (toBase64 der).toList) : Listed c ∧ c ≠ ',' := by
  have hsymbols : ∀ c ∈ '=' :: base64.symbols, Listed c ∧ c ≠ ',' := by
    unfold Listed
    exact List.all_iff_forall_prop.mp (by decide +kernel)
  unfold toBase64 at h
  rw [String.toList_ofList] at h
  rcases List.mem_append.mp h with h | h
  · exact hsymbols c (List.mem_cons_of_mem _ (Codec.Alphabet.encode_mem c h))
  · rw [eq_of_mem_padding h]
    exact hsymbols '=' List.mem_cons_self

/-- The texts are decoded exactly when they are the base64 of what they are decoded to. -/
theorem decodeCertificates_eq_ok {encoded : List (List Char)} {ders : List Bytes} {index : ℕ} :
    decodeCertificates index encoded = .ok ders ↔
      encoded = ders.map (fun der => (toBase64 der).toList) ∧
        ∀ der ∈ ders, der ≠ [] ∧ utf16Length (toBase64 der) ≤ MAX_ENCODED_CERT_CHARS := by
  induction encoded generalizing index ders with
  | nil =>
    rw [decodeCertificates]
    constructor
    · rintro h
      cases h
      exact ⟨rfl, fun der hder => absurd hder List.not_mem_nil⟩
    · rintro ⟨h, -⟩
      rw [List.map_eq_nil_iff.mp h.symm]
  | cons item encoded ih =>
    rw [decodeCertificates]
    constructor
    · intro h
      dsimp only at h
      split at h
      · cases h
      · rename_i hlength
        obtain ⟨der, hder, hmore⟩ := except_bind_eq_ok.mp h
        obtain ⟨rest, hrest, hders⟩ := except_bind_eq_ok.mp hmore
        obtain rfl : der :: rest = ders := Except.ok.inj hders
        obtain ⟨rfl, hlengths⟩ := ih.mp hrest
        obtain ⟨hne, hitem⟩ := decodeBase64Strict_eq_ok.mp hder
        have hchars : item = (toBase64 der).toList := by rw [← hitem, String.toList_ofList]
        rw [hitem] at hlength
        refine ⟨by rw [List.map_cons, hchars], fun other hother => ?_⟩
        rcases List.mem_cons.mp hother with rfl | hother
        · exact ⟨hne, not_lt.mp hlength⟩
        · exact hlengths other hother
    · rintro ⟨hencoded, hlengths⟩
      cases ders with
      | nil => cases hencoded
      | cons der rest =>
        obtain ⟨rfl, rfl⟩ := List.cons.inj hencoded
        obtain ⟨hne, hlength⟩ := hlengths der List.mem_cons_self
        have hder : decodeBase64Strict (toBase64 der) ("certificate #" ++ toString index) = .ok der :=
          decodeBase64Strict_eq_ok.mpr ⟨hne, rfl⟩
        have hrest : decodeCertificates (index + 1) (rest.map fun der => (toBase64 der).toList) = .ok rest :=
          ih.mpr ⟨rfl, fun other hother => hlengths other (List.mem_cons_of_mem _ hother)⟩
        rw [String.ofList_toList, if_neg (not_lt.mpr hlength), hder]
        exact except_bind_eq_ok.mpr ⟨der, rfl, except_bind_eq_ok.mpr ⟨rest, hrest, rfl⟩⟩

/-- A chain of one certificate or more, within the limits. -/
structure FitsChain (ders : List Bytes) : Prop where
  /-- There is a certificate. -/
  ne_nil : ders ≠ []
  /-- There are not too many. -/
  count : ders.length ≤ MAX_CHAIN_LENGTH
  /-- None is empty, and none is too long. -/
  lengths : ∀ der ∈ ders, der ≠ [] ∧ utf16Length (toBase64 der) ≤ MAX_ENCODED_CERT_CHARS

/-- A text is read as a chain exactly when its container holds the base64 of the chain. -/
theorem parseCertificateChainInput_eq_ok {value : String} {ders : List Bytes} :
    parseCertificateChainInput value = .ok ders ↔
      utf16Length value ≤ MAX_CHAIN_LENGTH * MAX_ENCODED_CERT_CHARS ∧ FitsChain ders ∧
        encodedCertificates (jsTrim value.toList) = .ok (ders.map fun der => (toBase64 der).toList) := by
  unfold parseCertificateChainInput
  constructor
  · intro h
    dsimp only at h
    split at h
    · cases h
    · rename_i hlength
      split at h
      · cases h
      · obtain ⟨encoded, hencoded, h⟩ := except_bind_eq_ok.mp h
        split at h
        · cases h
        · rename_i hne
          split at h
          · cases h
          · rename_i hcount
            obtain ⟨rfl, hlengths⟩ := decodeCertificates_eq_ok.mp h
            rw [List.length_map] at hcount
            refine ⟨not_lt.mp hlength, ⟨fun hnil => hne ?_, not_lt.mp hcount, hlengths⟩, hencoded⟩
            rw [hnil, List.map_nil]
  · rintro ⟨hlength, hfits, hencoded⟩
    have hmapNe : (ders.map fun der => (toBase64 der).toList) ≠ [] := fun h => hfits.ne_nil (List.map_eq_nil_iff.mp h)
    have hshort : ¬MAX_CHAIN_LENGTH < (ders.map fun der => (toBase64 der).toList).length := by
      rw [List.length_map]
      exact not_lt.mpr hfits.count
    have hchars : jsTrim value.toList ≠ [] := by
      intro hnil
      rw [hnil] at hencoded
      have hempty : encodedCertificates [] = .ok [] := rfl
      rw [hempty] at hencoded
      exact hmapNe (Except.ok.inj hencoded).symm
    rw [if_neg (not_lt.mpr hlength)]
    dsimp only
    rw [if_neg hchars]
    refine except_bind_eq_ok.mpr ⟨_, hencoded, ?_⟩
    rw [if_neg hmapNe, if_neg hshort]
    exact decodeCertificates_eq_ok.mpr ⟨rfl, hfits.lengths⟩

/-- The certificates of a chain as base64. -/
def base64Texts (ders : List Bytes) : List (List Char) := ders.map fun der => (toBase64 der).toList

/-- What each container relies on in the text of a certificate. -/
structure CertificateText (part : List Char) : Prop where
  ne_nil : part ≠ []
  separates : ∀ c ∈ part, isSeparator c = false
  dashless : '-' ∉ part
  bracketless : '[' ∉ part
  plain : Plain part

theorem certificateText_of_mem {ders : List Bytes} {part : List Char} (hders : ∀ der ∈ ders, der ≠ [])
    (h : part ∈ base64Texts ders) : CertificateText part := by
  obtain ⟨der, hder, rfl⟩ := List.mem_map.mp h
  have hlength : (toBase64 der).toList ≠ [] := by
    intro hnil
    have hempty : utf16Length (toBase64 der) = 0 := by simp [utf16Length, hnil]
    have hpos : 0 < der.length := List.length_pos_iff.mpr (hders der hder)
    rw [utf16Length_toBase64] at hempty
    omega
  have hplain : Plain (toBase64 der).toList := by
    have hsymbols : ∀ c ∈ '=' :: base64.symbols, c.toNat < 0xd800 := List.all_iff_forall_prop.mp (by decide +kernel)
    intro c hc
    unfold toBase64 at hc
    rw [String.toList_ofList] at hc
    rcases List.mem_append.mp hc with hc | hc
    · exact hsymbols c (List.mem_cons_of_mem _ (Codec.Alphabet.encode_mem c hc))
    · rw [eq_of_mem_padding hc]
      exact hsymbols '=' List.mem_cons_self
  refine ⟨hlength, fun c hc => ?_, fun hc => (listed_of_mem_toBase64 hc).1.2.2 rfl,
    fun hc => (listed_of_mem_toBase64 hc).1.2.1 rfl, hplain⟩
  obtain ⟨hlisted, hcomma⟩ := listed_of_mem_toBase64 hc
  simp [isSeparator, hlisted.1, hcomma]

/-- A text without white space is not trimmed. -/
theorem CertificateText.trim {part : List Char} (h : CertificateText part) : jsTrim part = part := by
  have hspace : ∀ c ∈ part, isJsSpace c = false := by
    intro c hc
    have hsep := h.separates c hc
    unfold isSeparator at hsep
    exact (Bool.or_eq_false_iff.mp hsep).1
  have hempty : Blank [] := fun c hc => absurd hc List.not_mem_nil
  have htrim := jsTrim_eq hempty hempty (fun c hc => hspace c (List.mem_of_mem_head? hc))
    (fun c hc => hspace c (List.mem_of_mem_getLast? hc)) h.ne_nil
  rwa [List.nil_append, List.append_nil] at htrim

/-- A text that holds the parts in one of the three containers. -/
inductive Container (parts : List (List Char)) : List Char → Prop
  | json {text : List Char} (h : JsonRendering parts text) : Container parts text
  | pem {text : List Char} (h : PemRendering parts text) : Container parts text
  | list {run text : List Char} (hrun : Run run) (h : ListRendering parts text) : Container parts (run ++ text)

/-- A JSON array is read as its parts. -/
theorem encodedCertificates_json {parts : List (List Char)} {text : List Char}
    (hparts : ∀ part ∈ parts, CertificateText part) (h : JsonRendering parts text) :
    encodedCertificates (jsTrim text) = .ok parts := by
  obtain ⟨before, items, after, hbefore, hafter, hitems, rfl⟩ := h
  have hlast : ('[' :: (items ++ [']'])).getLast? = some ']' := by
    rw [← List.cons_append, List.getLast?_append_of_ne_nil _ (List.cons_ne_nil _ _)]
    rfl
  have htrim : jsTrim (before ++ ('[' :: (items ++ [']'])) ++ after) = '[' :: (items ++ [']']) := by
    refine jsTrim_eq hbefore hafter ?_ ?_ (List.cons_ne_nil _ _)
    · rw [List.head?_cons]
      intro c hc
      obtain rfl := Option.some.inj hc
      decide
    · rw [hlast]
      intro c hc
      obtain rfl := Option.some.inj hc
      decide
  rw [htrim]
  unfold encodedCertificates
  rw [List.head?_cons, if_pos rfl]
  exact jsonTexts_rendering hitems (fun part hpart => (hparts part hpart).plain)
    fun part hpart => (hparts part hpart).trim

/-- A PEM bundle is read as its parts. -/
theorem encodedCertificates_pem {part : List Char} {parts : List (List Char)} {text : List Char}
    (hparts : ∀ other ∈ part :: parts, CertificateText other) (h : PemRendering (part :: parts) text) :
    encodedCertificates (jsTrim text) = .ok (part :: parts) := by
  obtain ⟨hbundle, hhead⟩ := h.trimmed
  obtain ⟨hbegin, htexts⟩ := pemTexts_rendering hbundle fun other hother => (hparts other hother).dashless
  have hbracket : ¬(jsTrim text).head? = some '[' := by
    rw [hhead]
    decide
  unfold encodedCertificates
  rw [if_neg hbracket, if_pos hbegin]
  exact htexts

/-- A list is read as its parts. -/
theorem encodedCertificates_list {parts : List (List Char)} {run text : List Char}
    (hparts : ∀ part ∈ parts, CertificateText part) (hrun : Run run) (h : ListRendering parts text) :
    encodedCertificates (jsTrim (run ++ text)) = .ok parts := by
  have hmem : ∀ c ∈ jsTrim (run ++ text), c ≠ '[' ∧ c ≠ '-' := by
    have hseparator : ∀ c : Char, isSeparator c = true → c ≠ '[' ∧ c ≠ '-' := by
      intro c hc
      constructor <;> rintro rfl <;> exact absurd hc (by decide)
    intro c hc
    rcases List.mem_append.mp (mem_of_mem_jsTrim hc) with hc | hc
    · exact hseparator c (hrun c hc)
    · rcases mem_rendering h hc with ⟨part, hpart, hmem⟩ | hsep
      · have htext := hparts part hpart
        exact ⟨fun heq => htext.bracketless (heq ▸ hmem), fun heq => htext.dashless (heq ▸ hmem)⟩
      · exact hseparator c hsep
  have hbracket : ¬(jsTrim (run ++ text)).head? = some '[' := fun hhead =>
    (hmem _ (List.mem_of_mem_head? hhead)).1 rfl
  have hnone : breakAt PEM_BEGIN (jsTrim (run ++ text)) = none := breakAt_eq_none fun hdash => (hmem _ hdash).2 rfl
  have hbegin : ¬(breakAt PEM_BEGIN (jsTrim (run ++ text))).isSome = true := by
    rw [hnone]
    decide
  have hfound : partsBetween isSeparator (jsTrim (run ++ text)) = parts := by
    rw [partsBetween_jsTrim, partsBetween_run _ hrun]
    exact partsBetween_rendering h fun part hpart => ⟨(hparts part hpart).ne_nil, (hparts part hpart).separates⟩
  unfold encodedCertificates
  rw [if_neg hbracket, if_neg hbegin]
  exact congrArg Except.ok hfound

/-- The containers of a chain are read as its certificates. -/
theorem encodedCertificates_container {ders : List Bytes} {text : List Char} (hne : ders ≠ [])
    (hders : ∀ der ∈ ders, der ≠ []) (h : Container (base64Texts ders) text) :
    encodedCertificates (jsTrim text) = .ok (base64Texts ders) := by
  have hparts : ∀ part ∈ base64Texts ders, CertificateText part := fun part hpart => certificateText_of_mem hders hpart
  cases h with
  | json h => exact encodedCertificates_json hparts h
  | pem h =>
    cases ders with
    | nil => exact absurd rfl hne
    | cons der ders => exact encodedCertificates_pem hparts h
  | list hrun h => exact encodedCertificates_list hparts hrun h

/-- A chain within the limits is read from every container of it, and what is read from a container is a chain within
the limits whose base64 it holds. -/
theorem containers_agree (value : String) (ders : List Bytes) :
    (FitsChain ders → utf16Length value ≤ MAX_CHAIN_LENGTH * MAX_ENCODED_CERT_CHARS →
      Container (base64Texts ders) value.toList → parseCertificateChainInput value = .ok ders) ∧
    (parseCertificateChainInput value = .ok ders →
      FitsChain ders ∧ encodedCertificates (jsTrim value.toList) = .ok (base64Texts ders)) := by
  constructor
  · intro hfits hlength hcontainer
    have hencoded := encodedCertificates_container hfits.ne_nil (fun der hder => (hfits.lengths der hder).1) hcontainer
    exact parseCertificateChainInput_eq_ok.mpr ⟨hlength, hfits, hencoded⟩
  · intro h
    obtain ⟨-, hfits, hencoded⟩ := parseCertificateChainInput_eq_ok.mp h
    exact ⟨hfits, hencoded⟩

/-- A certificate of one byte, on two lines of a bundle, in an array with an escape, and in a list with commas. -/
theorem containers_agree_oneByte :
    (∀ value ∈ ["-----BEGIN CERTIFICATE-----\nQQ=\n=\n-----END CERTIFICATE-----\n", "[ \"QQ\\u003d=\" ]", ", QQ== ,"],
      parseCertificateChainInput value = .ok [[0x41]]) ∧
    FitsChain [[0x41]] := by
  have htext : base64Texts [[0x41]] = ["QQ==".toList] := by decide
  have hfits : FitsChain [[0x41]] := ⟨List.cons_ne_nil _ _, by decide, by decide⟩
  have hread : ∀ value : String, utf16Length value ≤ MAX_CHAIN_LENGTH * MAX_ENCODED_CERT_CHARS →
      Container ["QQ==".toList] value.toList → parseCertificateChainInput value = .ok [[0x41]] := by
    intro value hlength h
    rw [← htext] at h
    exact (containers_agree value [[0x41]]).1 hfits hlength h
  have hpem : parseCertificateChainInput "-----BEGIN CERTIFICATE-----\nQQ=\n=\n-----END CERTIFICATE-----\n" =
      .ok [[0x41]] := by
    refine hread _ (by decide) (.pem ?_)
    exact @PemRendering.cons [] "\nQQ=\n=\n".toList ['\n'] _ _ (by decide +kernel) (by decide) (.nil (by decide +kernel))
  have hspelling : Spelling "QQ==".toList "QQ\\u003d=".toList := by
    refine .plain (by decide) (by decide) (by decide) (.plain (by decide) (by decide) (by decide) ?_)
    exact .unicode (x := 0) (y := 0) (z := 3) (w := 13) (by decide) (by decide)
      (.plain (by decide) (by decide) (by decide) .nil)
  have hjson : parseCertificateChainInput "[ \"QQ\\u003d=\" ]" = .ok [[0x41]] := by
    refine hread _ (by decide) (.json ⟨[], " \"QQ\\u003d=\" ".toList, [], by decide +kernel, by decide +kernel, ?_, rfl⟩)
    exact @ItemsRendering.last _ _ [' '] [' '] hspelling (by decide +kernel) (by decide +kernel)
  have hlist : parseCertificateChainInput ", QQ== ," = .ok [[0x41]] := by
    refine hread _ (by decide) ?_
    exact @Container.list _ [',', ' '] _ (by decide +kernel) (@ListRendering.last "QQ==".toList [' ', ','] (by decide +kernel))
  refine ⟨fun value hvalue => ?_, ((containers_agree _ _).2 hlist).1⟩
  simp only [List.mem_cons, List.not_mem_nil, or_false] at hvalue
  obtain rfl | rfl | rfl := hvalue
  exacts [hpem, hjson, hlist]

/-! ## A chain as a list -/

/-- The certificates of a chain as base64, with commas between them. -/
def chainText (ders : List Bytes) : String :=
  String.ofList (List.intercalate [','] (ders.map fun der => (toBase64 der).toList))

theorem intercalate_cons_cons {α : Type} (sep x y : List α) (xs : List (List α)) :
    List.intercalate sep (x :: y :: xs) = x ++ sep ++ List.intercalate sep (y :: xs) := by
  simp [List.intercalate]

/-- Parts with commas between them are a list. -/
theorem listRendering_intercalate (part : List Char) (parts : List (List Char)) :
    ListRendering (part :: parts) (List.intercalate [','] (part :: parts)) := by
  have hcomma : Run [','] := by decide +kernel
  induction parts generalizing part with
  | nil =>
    have hone : List.intercalate [','] [part] = part ++ [] := by simp [List.intercalate]
    rw [hone]
    exact .last fun c hc => absurd hc List.not_mem_nil
  | cons next parts ih =>
    rw [intercalate_cons_cons, List.append_assoc]
    exact .cons hcomma (List.cons_ne_nil _ _) (ih next)

/-- A chain that is sent as a list is read as it is. -/
theorem parseCertificateChainInput_chainText {ders : List Bytes} (hne : ders ≠ [])
    (hcount : ders.length ≤ MAX_CHAIN_LENGTH)
    (hders : ∀ der ∈ ders, der ≠ [] ∧ utf16Length (toBase64 der) ≤ MAX_ENCODED_CERT_CHARS)
    (hlength : utf16Length (chainText ders) ≤ MAX_CHAIN_LENGTH * MAX_ENCODED_CERT_CHARS) :
    parseCertificateChainInput (chainText ders) = .ok ders := by
  have hlist : ListRendering (base64Texts ders) (chainText ders).toList := by
    unfold chainText
    rw [String.toList_ofList]
    cases ders with
    | nil => exact absurd rfl hne
    | cons der ders => exact listRendering_intercalate _ _
  have hcontainer : Container (base64Texts ders) ([] ++ (chainText ders).toList) :=
    .list (fun c hc => absurd hc List.not_mem_nil) hlist
  have hencoded := encodedCertificates_container hne (fun der hder => (hders der hder).1) hcontainer
  exact parseCertificateChainInput_eq_ok.mpr ⟨hlength, ⟨hne, hcount, hders⟩, hencoded⟩

/-- A chain of one certificate is sent as its base64. -/
theorem chainText_singleton (der : Bytes) : chainText [der] = toBase64 der := by
  simp [chainText, List.intercalate]

theorem parseCertificateChainInput_toBase64 {der : Bytes} (hne : der ≠ [])
    (hlength : utf16Length (toBase64 der) ≤ MAX_ENCODED_CERT_CHARS) :
    parseCertificateChainInput (toBase64 der) = .ok [der] := by
  have hchain : utf16Length (toBase64 der) ≤ MAX_CHAIN_LENGTH * MAX_ENCODED_CERT_CHARS :=
    hlength.trans (Nat.le_mul_of_pos_left _ (by decide))
  rw [← chainText_singleton] at hchain ⊢
  refine parseCertificateChainInput_chainText (List.cons_ne_nil _ _) (by decide : 1 ≤ MAX_CHAIN_LENGTH) ?_ hchain
  simp [hne, hlength]

end SdidBridge.Attestation
