import Mathlib.Data.Finset.Card
import Mathlib.Tactic.Common

/-!
# Rounds over a roll

Members of a roll fall due, and a round takes the members of a batch one by one. A member who can be
asked is found valid, which may settle them, or invalid, which strikes them off; a member who cannot
be asked is passed over. A round settles its whole batch if and only if nobody is passed over
(`Round.progress_iff`), and after enough rounds nobody is due if and only if everybody who was could
be asked (`Rounds.done_iff`).
-/

namespace SdidBridge.Concurrent

variable {ι : Type} [DecidableEq ι]

/-- Who is due, who can be asked, and who is struck off. -/
@[ext]
structure Roll (ι : Type) where
  /-- The members who are due. -/
  due : Finset ι
  /-- The members who can be asked. -/
  askable : Finset ι
  /-- The members who are struck off. -/
  struck : Finset ι
  /-- Nobody is asked who is struck off. -/
  apart : Disjoint askable struck

/-- What a round finds about a member. -/
inductive Finding where
  /-- The member is passed over. -/
  | passed
  /-- The member is asked, and is valid. -/
  | valid
  /-- The member is asked, and is not valid. -/
  | invalid
  deriving DecidableEq

/-- Whether a finding settles a member. `clears` says whether a valid one does. -/
def Finding.settles (clears : Bool) : Finding → Bool
  | .passed => false
  | .valid => clears
  | .invalid => true

/-- Enter a finding in the roll. -/
def Roll.enter (clears : Bool) (r : Roll ι) (i : ι) : Finding → Roll ι
  | .passed => r
  | .valid => if clears then { r with due := r.due.erase i } else r
  | .invalid => {
      due := r.due.erase i
      askable := r.askable.erase i
      struck := insert i r.struck
      apart := by
        rw [Finset.disjoint_insert_right]
        exact ⟨Finset.notMem_erase i _, r.apart.mono_left (Finset.erase_subset i _)⟩ }

section Enter

variable {clears : Bool} {r : Roll ι} {i j : ι} {f : Finding}

theorem Roll.due_enter :
    (r.enter clears i f).due = if f.settles clears then r.due.erase i else r.due := by
  unfold Roll.enter Finding.settles
  cases f with
  | passed => rfl
  | valid => cases clears <;> rfl
  | invalid => rfl

theorem Roll.struck_enter :
    (r.enter clears i f).struck = if f = .invalid then insert i r.struck else r.struck := by
  unfold Roll.enter
  cases f with
  | passed => rfl
  | valid => cases clears <;> rfl
  | invalid => rfl

theorem Roll.mem_askable_enter (h : j ≠ i) : j ∈ (r.enter clears i f).askable ↔ j ∈ r.askable := by
  unfold Roll.enter
  cases f with
  | passed => rfl
  | valid => cases clears <;> rfl
  | invalid => simp [h]

theorem Roll.mem_due_enter (h : j ≠ i) : j ∈ (r.enter clears i f).due ↔ j ∈ r.due := by
  rw [Roll.due_enter]
  split_ifs <;> simp [h]

theorem Roll.due_subset_enter (h : r.due ⊆ r.askable) :
    (r.enter clears i f).due ⊆ (r.enter clears i f).askable := by
  unfold Roll.enter
  cases f with
  | passed => exact h
  | valid =>
    cases clears with
    | false => exact h
    | true => exact (Finset.erase_subset i _).trans h
  | invalid => exact Finset.erase_subset_erase i h

end Enter

/-- The round enters the findings one after the other, and passes over those who cannot be asked. -/
inductive Round (clears : Bool) : Roll ι → List (ι × Finding) → Roll ι → Prop
  | nil (r : Roll ι) : Round clears r [] r
  | cons {r r' i f l} (hf : f = .passed ↔ i ∉ r.askable) (hl : Round clears (r.enter clears i f) l r') :
    Round clears r ((i, f) :: l) r'

/-- The members of a batch: different ones who are due, as many as the limit allows. -/
structure Roll.Batch (limit : ℕ) (r : Roll ι) (is : List ι) : Prop where
  /-- Nobody is taken twice. -/
  nodup : is.Nodup
  /-- Everybody is due. -/
  due : ∀ i ∈ is, i ∈ r.due
  /-- The batch is as long as can be. -/
  length : is.length = min limit r.due.card

namespace Round

variable {clears : Bool} {r r' : Roll ι} {l : List (ι × Finding)} {i : ι} {limit : ℕ}

/-- Each member who is settled is no longer due. -/
theorem due_card (h : Round clears r l r') (hn : (l.map Prod.fst).Nodup) (hd : ∀ i ∈ l.map Prod.fst, i ∈ r.due) :
    r'.due.card + l.countP (fun p => p.2.settles clears) = r.due.card := by
  induction h with
  | nil r => rfl
  | @cons r r' i f l hf hl ih =>
    rw [List.map_cons, List.nodup_cons] at hn
    have hi : i ∈ r.due := hd i List.mem_cons_self
    have hrest := ih hn.2 fun j hj => by
      have hne : j ≠ i := fun heq => hn.1 (heq ▸ hj)
      exact (Roll.mem_due_enter hne).mpr (hd j (List.mem_cons_of_mem _ hj))
    rw [Roll.due_enter] at hrest
    rw [List.countP_cons]
    split_ifs at hrest ⊢ with hsettles
    · have hcard := Finset.card_erase_add_one hi
      omega
    · exact hrest

/-- Each member who is found invalid is struck off. -/
theorem struck_card (h : Round clears r l r') :
    r.struck ⊆ r'.struck ∧ r'.struck.card = r.struck.card + l.countP (fun p => p.2 = .invalid) := by
  induction h with
  | nil r => exact ⟨Finset.Subset.refl _, rfl⟩
  | @cons r r' i f l hf hl ih =>
    obtain ⟨hsub, hcard⟩ := ih
    rw [Roll.struck_enter] at hsub hcard
    rw [List.countP_cons]
    split_ifs at hsub hcard with hinvalid
    · have hask : i ∈ r.askable := by
        by_contra hnot
        rw [hf.mpr hnot] at hinvalid
        simp at hinvalid
      have hnew : i ∉ r.struck := Finset.disjoint_left.mp r.apart hask
      rw [Finset.card_insert_of_notMem hnew] at hcard
      refine ⟨(Finset.subset_insert i _).trans hsub, ?_⟩
      simp only [hinvalid, decide_true, if_true]
      omega
    · exact ⟨hsub, by simpa [hinvalid] using hcard⟩

/-- The number of members whom a round has struck off. -/
theorem card_struck_sdiff (h : Round clears r l r') :
    (r'.struck \ r.struck).card = l.countP (fun p => p.2 = .invalid) := by
  obtain ⟨hsub, hcard⟩ := h.struck_card
  rw [Finset.card_sdiff_of_subset hsub, hcard]
  omega

/-- Who is passed over is known from the start. -/
theorem passed_iff (h : Round clears r l r') (hn : (l.map Prod.fst).Nodup) :
    ∀ p ∈ l, p.2 = .passed ↔ p.1 ∉ r.askable := by
  induction h with
  | nil r => simp
  | @cons r r' i f l hf hl ih =>
    rw [List.map_cons, List.nodup_cons] at hn
    intro p hp
    rcases List.mem_cons.mp hp with rfl | hp
    · exact hf
    · have hmem : p.1 ∈ l.map Prod.fst := List.mem_map_of_mem hp
      have hne : p.1 ≠ i := fun heq => hn.1 (heq ▸ hmem)
      rw [ih hn.2 p hp, Roll.mem_askable_enter hne]

/-- A member who is due and cannot be asked stays so. -/
theorem stuck (h : Round clears r l r') (hd : i ∈ r.due) (hask : i ∉ r.askable) :
    i ∈ r'.due ∧ i ∉ r'.askable := by
  induction h with
  | nil r => exact ⟨hd, hask⟩
  | @cons r r' j f l hf hl ih =>
    by_cases heq : i = j
    · subst heq
      have hsame : r.enter clears i f = r := by rw [hf.mpr hask, Roll.enter]
      rw [hsame] at ih
      exact ih hd hask
    · exact ih ((Roll.mem_due_enter heq).mpr hd) (mt (Roll.mem_askable_enter heq).mp hask)

theorem due_subset (h : Round clears r l r') (hall : r.due ⊆ r.askable) : r'.due ⊆ r'.askable := by
  induction h with
  | nil r => exact hall
  | cons hf hl ih => exact ih (Roll.due_subset_enter hall)

/-- A round settles its batch if and only if everybody in it is settled. -/
theorem progress_iff (h : Round clears r l r') (hb : r.Batch limit (l.map Prod.fst)) :
    r'.due.card + min limit r.due.card = r.due.card ↔ ∀ p ∈ l, p.2.settles clears = true := by
  have hcard := h.due_card hb.nodup hb.due
  have hlength := hb.length
  rw [List.length_map] at hlength
  rw [← List.countP_eq_length (p := fun p : ι × Finding => p.2.settles clears), hlength]
  omega

end Round

/-- So many rounds, each over a batch. -/
inductive Rounds (clears : Bool) (limit : ℕ) : ℕ → Roll ι → Roll ι → Prop
  | zero (r : Roll ι) : Rounds clears limit 0 r r
  | succ {n r r₁ r' l} (hb : r.Batch limit (l.map Prod.fst)) (h : Round clears r l r₁)
    (hrest : Rounds clears limit n r₁ r') : Rounds clears limit (n + 1) r r'

namespace Rounds

variable {clears : Bool} {limit n : ℕ} {r r' : Roll ι} {i : ι}

theorem stuck (h : Rounds clears limit n r r') (hd : i ∈ r.due) (hask : i ∉ r.askable) : i ∈ r'.due := by
  induction h with
  | zero r => exact hd
  | succ hb h hrest ih =>
    obtain ⟨hd', hask'⟩ := h.stuck hd hask
    exact ih hd' hask'

/-- Where everybody who is due can be asked, each round settles a whole batch. -/
theorem due_card_le (h : Rounds true limit n r r') (hall : r.due ⊆ r.askable) :
    r'.due.card ≤ r.due.card - n * limit := by
  induction h with
  | zero r => omega
  | @succ n r r₁ r' l hb h hrest ih =>
    have hsettled : ∀ p ∈ l, p.2.settles true = true := by
      intro p hp
      have hnot : p.2 ≠ .passed := fun hpassed =>
        (h.passed_iff hb.nodup p hp).mp hpassed (hall (hb.due _ (List.mem_map_of_mem hp)))
      obtain ⟨i, f⟩ := p
      cases f with
      | passed => exact absurd rfl hnot
      | valid => rfl
      | invalid => rfl
    have hcard := (h.progress_iff hb).mpr hsettled
    have hrest := ih (h.due_subset hall)
    rw [Nat.add_mul, Nat.one_mul]
    omega

/-- After enough rounds, nobody is due if and only if everybody who was could be asked. -/
theorem done_iff (h : Rounds true limit n r r') (henough : r.due.card ≤ n * limit) :
    r'.due = ∅ ↔ r.due ⊆ r.askable := by
  constructor
  · intro hdone i hi
    by_contra hask
    have hstuck := h.stuck hi hask
    rw [hdone] at hstuck
    simp at hstuck
  · intro hall
    have hcard := h.due_card_le hall
    rw [← Finset.card_eq_zero]
    omega

end Rounds

end SdidBridge.Concurrent
