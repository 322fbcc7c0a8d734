import Mathlib.Data.List.Infix
import Mathlib.Data.List.TakeWhile
import Mathlib.Tactic.Common

/-!
# Runs

A run of a list is a part of it whose elements all satisfy `p`. A run does not go over an element that does not
(`hasRun_append_cons`), and where two lists meet it is made of the end of the one and the start of the other
(`hasRun_append`). `replaceRuns` puts a marker in the place of every run that is too long.
-/

namespace SdidBridge.Codec

section Runs

variable {α : Type} (p : α → Bool)

/-- `n` elements in a row satisfy `p`. -/
def HasRun (n : ℕ) (xs : List α) : Prop := ∃ run, run <:+: xs ∧ run.length = n ∧ ∀ x ∈ run, p x = true

/-- The length of the run at the start. -/
def startRun (xs : List α) : ℕ := (xs.takeWhile p).length

/-- The length of the run at the end. -/
def endRun (xs : List α) : ℕ := startRun p xs.reverse

variable {p}

theorem HasRun.of_infix {n : ℕ} {xs ys : List α} (h : HasRun p n xs) (hxs : xs <:+: ys) : HasRun p n ys := by
  obtain ⟨run, hrun, hlength, hall⟩ := h
  exact ⟨run, hrun.trans hxs, hlength, hall⟩

theorem HasRun.le_length {n : ℕ} {xs : List α} (h : HasRun p n xs) : n ≤ xs.length := by
  obtain ⟨run, hrun, rfl, -⟩ := h
  exact hrun.length_le

/-- A run within a part of elements that satisfy `p`. -/
theorem hasRun_of_infix {n : ℕ} {run xs : List α} (hrun : run <:+: xs) (hall : ∀ x ∈ run, p x = true)
    (hn : n ≤ run.length) : HasRun p n xs := by
  refine ⟨run.take n, (List.take_prefix n run).isInfix.trans hrun, List.length_take_of_le hn, fun x hx => ?_⟩
  exact hall x (List.mem_of_mem_take hx)

/-- A list without an element that satisfies `p` has no run. -/
theorem not_hasRun_of_forall {n : ℕ} {xs : List α} (hn : 0 < n) (h : ∀ x ∈ xs, p x = false) : ¬HasRun p n xs := by
  rintro ⟨run, hrun, rfl, hall⟩
  obtain ⟨x, hx⟩ := List.exists_mem_of_length_pos hn
  have hfalse := h x (hrun.subset hx)
  rw [hall x hx] at hfalse
  cases hfalse

/-- A run stands before or after an element that does not satisfy `p`. -/
theorem hasRun_append_cons {n : ℕ} {c : α} {xs ys : List α} (hc : p c = false) :
    HasRun p n (xs ++ c :: ys) ↔ HasRun p n xs ∨ HasRun p n ys := by
  constructor
  · rintro ⟨run, ⟨before, after, heq⟩, hlength, hall⟩
    have hnotMem : c ∉ run := fun hmem => by
      rw [hall c hmem] at hc
      cases hc
    rcases List.append_eq_append_iff.mp heq with ⟨more, hxs, -⟩ | ⟨excess, hover, hys⟩
    · exact .inl ⟨run, ⟨before, more, hxs.symm⟩, hlength, hall⟩
    · cases excess with
      | nil =>
        rw [List.append_nil] at hover
        exact .inl ⟨run, ⟨before, [], by rw [List.append_nil, hover]⟩, hlength, hall⟩
      | cons d excess =>
        obtain ⟨rfl, rfl⟩ := List.cons.inj hys
        rcases List.append_eq_append_iff.mp hover with ⟨start, -, hrun⟩ | ⟨rest, -, hrest⟩
        · exact absurd (hrun ▸ List.mem_append_right _ List.mem_cons_self) hnotMem
        · cases rest with
          | nil => exact absurd (by rw [List.nil_append] at hrest; rw [← hrest]; exact List.mem_cons_self) hnotMem
          | cons e rest =>
            obtain ⟨-, rfl⟩ := List.cons.inj hrest
            exact .inr ⟨run, ⟨rest, after, rfl⟩, hlength, hall⟩
  · rintro (h | h)
    · exact h.of_infix (List.prefix_append _ _).isInfix
    · exact h.of_infix ((List.suffix_cons _ _).trans (List.suffix_append _ _)).isInfix

/-- The start of a list is a run. -/
theorem hasRun_startRun {n : ℕ} {xs : List α} (h : n ≤ startRun p xs) : HasRun p n xs :=
  hasRun_of_infix (List.takeWhile_prefix p).isInfix (fun _ hx => List.mem_takeWhile_imp hx) h

theorem startRun_cons_of_pos {x : α} {xs : List α} (hx : p x = true) : startRun p (x :: xs) = startRun p xs + 1 := by
  unfold startRun
  rw [List.takeWhile_cons_of_pos hx, List.length_cons]

theorem startRun_cons_of_neg {x : α} {xs : List α} (hx : p x = false) : startRun p (x :: xs) = 0 := by
  unfold startRun
  rw [List.takeWhile_cons_of_neg (by simp [hx]), List.length_nil]

theorem startRun_nil : startRun p [] = 0 := rfl

/-- A run is at the start of a list, or after its first element. -/
theorem hasRun_cons {n : ℕ} {x : α} {xs : List α} :
    HasRun p n (x :: xs) ↔ n ≤ startRun p (x :: xs) ∨ HasRun p n xs := by
  constructor
  · rintro ⟨run, hrun, hlength, hall⟩
    rcases List.infix_cons_iff.mp hrun with hprefix | hinfix
    · refine .inl ?_
      have hstart : run <+: (x :: xs).takeWhile p := by
        obtain ⟨more, hmore⟩ := hprefix
        rw [← hmore, List.takeWhile_append_of_pos hall]
        exact List.prefix_append _ _
      rw [← hlength]
      exact hstart.length_le
    · exact .inr ⟨run, hinfix, hlength, hall⟩
  · rintro (h | h)
    · exact hasRun_startRun h
    · exact h.of_infix (List.suffix_cons _ _).isInfix

theorem hasRun_nil {n : ℕ} : HasRun p n [] ↔ n = 0 := by
  constructor
  · intro h
    exact Nat.le_zero.mp h.le_length
  · rintro rfl
    exact ⟨[], List.nil_infix, rfl, fun x hx => absurd hx List.not_mem_nil⟩

/-- The start of a list that goes on after elements that all satisfy `p`. -/
theorem startRun_append_of_all {xs : List α} (ys : List α) (h : ∀ x ∈ xs, p x = true) :
    startRun p (xs ++ ys) = xs.length + startRun p ys := by
  unfold startRun
  rw [List.takeWhile_append_of_pos h, List.length_append]

/-- The start of a list that ends before its first part does. -/
theorem startRun_append_of_mem {x : α} {xs : List α} (ys : List α) (hmem : x ∈ xs) (hx : p x = false) :
    startRun p (xs ++ ys) = startRun p xs := by
  induction xs with
  | nil => exact absurd hmem List.not_mem_nil
  | cons y xs ih =>
    by_cases hy : p y = true
    · have hxs : x ∈ xs := by
        rcases List.mem_cons.mp hmem with rfl | hxs
        · rw [hy] at hx
          cases hx
        · exact hxs
      rw [List.cons_append, startRun_cons_of_pos hy, startRun_cons_of_pos hy, ih hxs]
    · have hy' : p y = false := Bool.eq_false_iff.mpr hy
      rw [List.cons_append, startRun_cons_of_neg hy', startRun_cons_of_neg hy']

/-- The end of a list that starts with more. -/
theorem endRun_cons (x : α) (xs : List α) :
    endRun p (x :: xs) = if ∀ y ∈ xs, p y = true then xs.length + startRun p [x] else endRun p xs := by
  unfold endRun
  rw [List.reverse_cons]
  split
  · rename_i hall
    rw [startRun_append_of_all _ fun y hy => hall y (List.mem_reverse.mp hy), List.length_reverse]
  · rename_i hall
    push Not at hall
    obtain ⟨y, hy, hpy⟩ := hall
    exact startRun_append_of_mem _ (List.mem_reverse.mpr hy) (Bool.eq_false_iff.mpr hpy)

/-- A run of two lists is a run of one of them, or the end of the first and the start of the second. -/
theorem hasRun_append {n : ℕ} {xs ys : List α} :
    HasRun p n (xs ++ ys) ↔ HasRun p n xs ∨ HasRun p n ys ∨ n ≤ endRun p xs + startRun p ys := by
  induction xs with
  | nil =>
    have hend : endRun p ([] : List α) = 0 := rfl
    rw [List.nil_append, hasRun_nil, hend, Nat.zero_add]
    constructor
    · exact fun h => .inr (.inl h)
    · rintro (rfl | h | h)
      · exact hasRun_startRun (Nat.zero_le _)
      · exact h
      · exact hasRun_startRun h
  | cons x xs ih =>
    rw [List.cons_append, hasRun_cons, ih, hasRun_cons, endRun_cons]
    by_cases hall : ∀ y ∈ xs, p y = true
    · rw [if_pos hall]
      have hend : endRun p xs = xs.length := by
        unfold endRun
        rw [← List.append_nil xs.reverse, startRun_append_of_all _ fun y hy => hall y (List.mem_reverse.mp hy),
          List.length_reverse, startRun_nil, Nat.add_zero]
      by_cases hx : p x = true
      · have hone : startRun p [x] = 1 := by rw [startRun_cons_of_pos hx, startRun_nil]
        have hboth : startRun p (x :: (xs ++ ys)) = xs.length + startRun p ys + 1 := by
          rw [startRun_cons_of_pos hx, startRun_append_of_all _ hall]
        have hfirst : startRun p (x :: xs) = xs.length + 1 := by
          have hxs := startRun_append_of_all (p := p) [] hall
          rw [List.append_nil, startRun_nil, Nat.add_zero] at hxs
          rw [startRun_cons_of_pos hx, hxs]
        rw [hend, hone, hboth, hfirst]
        constructor
        · rintro (h | h | h | h)
          · exact .inr (.inr (by omega))
          · exact .inl (.inr h)
          · exact .inr (.inl h)
          · exact .inr (.inr (by omega))
        · rintro ((h | h) | h | h)
          · exact .inl (by omega)
          · exact .inr (.inl h)
          · exact .inr (.inr (.inl h))
          · exact .inl (by omega)
      · have hx' : p x = false := Bool.eq_false_iff.mpr hx
        have hone : startRun p [x] = 0 := startRun_cons_of_neg hx'
        rw [hend, hone, startRun_cons_of_neg hx', startRun_cons_of_neg hx', Nat.add_zero]
        tauto
    · rw [if_neg hall]
      push Not at hall
      obtain ⟨y, hy, hpy⟩ := hall
      have hstart : startRun p (x :: (xs ++ ys)) = startRun p (x :: xs) := by
        rw [← List.cons_append]
        exact startRun_append_of_mem ys (List.mem_cons_of_mem _ hy) (Bool.eq_false_iff.mpr hpy)
      rw [hstart]
      tauto

instance (n : ℕ) (xs : List α) : Decidable (HasRun p n xs) :=
  match xs with
  | [] => decidable_of_iff (n = 0) hasRun_nil.symm
  | x :: xs =>
    have : Decidable (HasRun p n xs) := instDecidableHasRun n xs
    decidable_of_iff (n ≤ startRun p (x :: xs) ∨ HasRun p n xs) hasRun_cons.symm

/-! ## Replacing -/

/-- What stands for a run that has ended. -/
def closeRun (n : ℕ) (marker run : List α) : List α := if n ≤ run.length then marker else run

variable (p) in
/-- The list after the run that has been read, with a marker for every run of `n` elements or more. -/
def replaceFrom (n : ℕ) (marker : List α) : List α → List α → List α
  | run, [] => closeRun n marker run
  | run, x :: xs =>
    if p x then replaceFrom n marker (run ++ [x]) xs
    else closeRun n marker run ++ x :: replaceFrom n marker [] xs

variable (p) in
/-- The list with a marker for every run of `n` elements or more. -/
def replaceRuns (n : ℕ) (marker xs : List α) : List α := replaceFrom p n marker [] xs

theorem replaceFrom_nil (n : ℕ) (marker run : List α) : replaceFrom p n marker run [] = closeRun n marker run := rfl

theorem replaceFrom_cons_of_pos {x : α} (hx : p x = true) (n : ℕ) (marker run xs : List α) :
    replaceFrom p n marker run (x :: xs) = replaceFrom p n marker (run ++ [x]) xs := if_pos hx

theorem replaceFrom_cons_of_neg {x : α} (hx : p x = false) (n : ℕ) (marker run xs : List α) :
    replaceFrom p n marker run (x :: xs) = closeRun n marker run ++ x :: replaceFrom p n marker [] xs :=
  if_neg (Bool.eq_false_iff.mp hx)

theorem not_hasRun_closeRun {n : ℕ} {marker : List α} (run : List α) (hmarker : ¬HasRun p n marker) :
    ¬HasRun p n (closeRun n marker run) := by
  unfold closeRun
  split
  · exact hmarker
  · rename_i hshort
    exact fun h => hshort h.le_length

theorem not_hasRun_replaceFrom {n : ℕ} {marker : List α} (hmarker : ¬HasRun p n marker) (run xs : List α) :
    ¬HasRun p n (replaceFrom p n marker run xs) := by
  induction xs generalizing run with
  | nil => exact not_hasRun_closeRun run hmarker
  | cons x xs ih =>
    unfold replaceFrom
    split
    · exact ih _
    · rename_i hx
      rw [hasRun_append_cons (Bool.eq_false_iff.mpr hx)]
      rintro (h | h)
      · exact not_hasRun_closeRun run hmarker h
      · exact ih _ h

/-- No run is left. -/
theorem not_hasRun_replaceRuns {n : ℕ} {marker : List α} (hmarker : ¬HasRun p n marker) (xs : List α) :
    ¬HasRun p n (replaceRuns p n marker xs) := not_hasRun_replaceFrom hmarker [] xs

/-- An element that does not satisfy `p` parts what is replaced before it from what is replaced after it. -/
theorem replaceFrom_append_cons {n : ℕ} {marker : List α} {u : α} (hu : p u = false) (run before after : List α) :
    replaceFrom p n marker run (before ++ u :: after) =
      replaceFrom p n marker run before ++ u :: replaceRuns p n marker after := by
  induction before generalizing run with
  | nil =>
    rw [List.nil_append, replaceFrom_cons_of_neg hu, replaceFrom_nil]
    rfl
  | cons x before ih =>
    rw [List.cons_append]
    by_cases hx : p x = true
    · rw [replaceFrom_cons_of_pos hx, replaceFrom_cons_of_pos hx]
      exact ih _
    · have hx' : p x = false := Bool.eq_false_iff.mpr hx
      rw [replaceFrom_cons_of_neg hx', replaceFrom_cons_of_neg hx', ih, List.append_assoc, List.cons_append]

/-- An element that neither satisfies `p` nor stands in the marker comes from the list. -/
theorem exists_of_replaceFrom_eq {n : ℕ} {marker run xs before after : List α} {u : α} (hmarker : u ∉ marker)
    (hu : p u = false) (hrun : u ∉ run) (h : replaceFrom p n marker run xs = before ++ u :: after) :
    ∃ start rest, xs = start ++ u :: rest ∧ replaceFrom p n marker run start = before ∧
      replaceRuns p n marker rest = after := by
  have hclose : ∀ {run : List α}, u ∉ run → u ∉ closeRun n marker run := by
    intro run hrun
    unfold closeRun
    split
    · exact hmarker
    · exact hrun
  induction xs generalizing run before with
  | nil =>
    rw [replaceFrom] at h
    exact absurd (h ▸ List.mem_append_right _ List.mem_cons_self) (hclose hrun)
  | cons x xs ih =>
    rw [replaceFrom] at h
    split at h
    · rename_i hx
      have hne : u ≠ x := by
        rintro rfl
        rw [hu] at hx
        cases hx
      have hmore : u ∉ run ++ [x] := by
        intro hmem
        rcases List.mem_append.mp hmem with hmem | hmem
        · exact hrun hmem
        · exact hne (List.mem_singleton.mp hmem)
      obtain ⟨start, rest, rfl, hstart, hrest⟩ := ih hmore h
      refine ⟨x :: start, rest, rfl, ?_, hrest⟩
      rw [replaceFrom, if_pos hx, hstart]
    · rename_i hx
      rcases List.append_eq_append_iff.mp h with ⟨more, hbefore, hmore⟩ | ⟨excess, hover, hafter⟩
      · cases more with
        | nil =>
          rw [List.append_nil] at hbefore
          rw [List.nil_append] at hmore
          obtain ⟨rfl, hafter⟩ := List.cons.inj hmore
          exact ⟨[], xs, rfl, hbefore.symm, hafter⟩
        | cons y more =>
          rw [List.cons_append] at hmore
          obtain ⟨rfl, hrest⟩ := List.cons.inj hmore
          obtain ⟨start, rest, rfl, hstart, hafter⟩ := ih (List.not_mem_nil) hrest
          refine ⟨x :: start, rest, rfl, ?_, hafter⟩
          rw [replaceFrom, if_neg hx, hstart, hbefore]
      · cases excess with
        | nil =>
          rw [List.append_nil] at hover
          rw [List.nil_append] at hafter
          obtain ⟨rfl, hrest⟩ := List.cons.inj hafter
          exact ⟨[], xs, rfl, hover, hrest.symm⟩
        | cons y excess =>
          obtain ⟨rfl, -⟩ := List.cons.inj hafter
          exact absurd (hover ▸ List.mem_append_right _ List.mem_cons_self) (hclose hrun)

/-- What is left of a run at the start. -/
def keptRun (n length : ℕ) : ℕ := if n ≤ length then 0 else length

theorem startRun_append_cons {c : α} (xs ys : List α) (hc : p c = false) :
    startRun p (xs ++ c :: ys) = startRun p xs := by
  by_cases hall : ∀ x ∈ xs, p x = true
  · have hxs := startRun_append_of_all (p := p) [] hall
    rw [List.append_nil, startRun_nil] at hxs
    rw [startRun_append_of_all _ hall, startRun_cons_of_neg hc, hxs]
  · push Not at hall
    obtain ⟨x, hx, hpx⟩ := hall
    exact startRun_append_of_mem _ hx (Bool.eq_false_iff.mpr hpx)

/-- A run at the start is left as it is, or replaced. -/
theorem startRun_replaceFrom {n : ℕ} {c : α} {marker run : List α} (hc : p c = false)
    (hrun : ∀ x ∈ run, p x = true) (xs : List α) :
    startRun p (replaceFrom p n (c :: marker) run xs) = keptRun n (run.length + startRun p xs) := by
  have hclose : startRun p (closeRun n (c :: marker) run) = keptRun n run.length := by
    unfold closeRun keptRun
    split
    · exact startRun_cons_of_neg hc
    · have hall := startRun_append_of_all (p := p) [] hrun
      rwa [List.append_nil, startRun_nil, Nat.add_zero] at hall
  induction xs generalizing run with
  | nil => rw [replaceFrom, hclose, startRun_nil, Nat.add_zero]
  | cons x xs ih =>
    rw [replaceFrom]
    split
    · rename_i hx
      have hmore : ∀ y ∈ run ++ [x], p y = true := by
        intro y hy
        rcases List.mem_append.mp hy with hy | hy
        · exact hrun y hy
        · rw [List.mem_singleton.mp hy]
          exact hx
      have hclosed : startRun p (closeRun n (c :: marker) (run ++ [x])) = keptRun n (run ++ [x]).length := by
        unfold closeRun keptRun
        split
        · exact startRun_cons_of_neg hc
        · have hall := startRun_append_of_all (p := p) [] hmore
          rwa [List.append_nil, startRun_nil, Nat.add_zero] at hall
      rw [ih hmore hclosed, startRun_cons_of_pos hx, List.length_append, List.length_singleton]
      congr 1
      omega
    · rename_i hx
      rw [startRun_append_cons _ _ (Bool.eq_false_iff.mpr hx), hclose, startRun_cons_of_neg (Bool.eq_false_iff.mpr hx),
        Nat.add_zero]

theorem startRun_replaceRuns {n : ℕ} {c : α} {marker : List α} (hc : p c = false) (xs : List α) :
    startRun p (replaceRuns p n (c :: marker) xs) = keptRun n (startRun p xs) := by
  unfold replaceRuns
  rw [startRun_replaceFrom hc (fun x hx => absurd hx List.not_mem_nil), List.length_nil, Nat.zero_add]

theorem startRun_take (k : ℕ) (xs : List α) : startRun p (xs.take k) = min k (startRun p xs) := by
  induction xs generalizing k with
  | nil => simp [startRun_nil]
  | cons x xs ih =>
    cases k with
    | zero => simp [startRun_nil]
    | succ k =>
      rw [List.take_succ_cons]
      by_cases hx : p x = true
      · rw [startRun_cons_of_pos hx, startRun_cons_of_pos hx, ih]
        omega
      · have hx' : p x = false := Bool.eq_false_iff.mpr hx
        rw [startRun_cons_of_neg hx', startRun_cons_of_neg hx', Nat.min_zero]

end Runs

end SdidBridge.Codec
