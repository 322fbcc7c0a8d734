import Mathlib.Data.List.Nodup
import Mathlib.Tactic.Common

/-!
# Tables with a ceiling

A table keeps a state under each of at most `cap` keys. A record under a key that the table has changes its state, one
under another key takes a new entry while there is room, and is only counted after that. Nothing is lost: each record is
in the state under its key, or is counted as dropped (`accounts_record`).
-/

namespace SdidBridge.Shared

variable {κ σ α : Type} [DecidableEq κ]

/-- The states under the keys of a table, and how many records it dropped. -/
structure Capped (κ σ : Type) where
  /-- The keys with their states, the oldest first. -/
  entries : List (κ × σ)
  /-- How many records had no room. -/
  dropped : ℕ

namespace Capped

/-- The keys of a table. -/
def keys (t : Capped κ σ) : List κ := t.entries.map Prod.fst

/-- The state under a key is changed. -/
def change (k : κ) (f : σ → σ) (entries : List (κ × σ)) : List (κ × σ) :=
  entries.map fun e => if e.1 = k then (e.1, f e.2) else e

/-- A record under the key `k`, which changes the state there by `f`. A new state is `start`. -/
def record (cap : ℕ) (start : σ) (t : Capped κ σ) (k : κ) (f : σ → σ) : Capped κ σ :=
  if k ∈ t.keys then { t with entries := change k f t.entries }
  else if cap ≤ t.entries.length then { t with dropped := t.dropped + 1 }
  else { t with entries := t.entries ++ [(k, f start)] }

/-- The table has all of the records `as`, each of which has a key and changes a state: there are at most `cap` keys,
the state under a key is that of its records alone, and the records under other keys were dropped. -/
structure Accounts (cap : ℕ) (start : σ) (key : α → κ) (act : α → σ → σ) (as : List α) (t : Capped κ σ) : Prop where
  bounded : t.entries.length ≤ cap
  nodup : t.keys.Nodup
  /-- A table that dropped a record is full. -/
  full : ∀ a ∈ as, key a ∉ t.keys → cap ≤ t.entries.length
  states : ∀ e ∈ t.entries, e.2 = (as.filter fun a => key a = e.1).foldl (fun s a => act a s) start
  dropped : t.dropped = as.countP fun a => key a ∉ t.keys

variable {cap : ℕ} {start : σ} {key : α → κ} {act : α → σ → σ} {as : List α} {t : Capped κ σ}

@[simp] theorem length_change (k : κ) (f : σ → σ) (entries : List (κ × σ)) :
    (change k f entries).length = entries.length :=
  List.length_map _

@[simp] theorem keys_change (k : κ) (f : σ → σ) (entries : List (κ × σ)) :
    (change k f entries).map Prod.fst = entries.map Prod.fst := by
  unfold change
  rw [List.map_map]
  refine List.map_congr_left fun e _ => ?_
  show (if e.1 = k then (e.1, f e.2) else e).1 = e.1
  split_ifs <;> rfl

/-- The records of a key when there is one more under it. -/
theorem filter_append_self {k : κ} {a : α} (h : key a = k) :
    (as ++ [a]).filter (fun b => key b = k) = as.filter (fun b => key b = k) ++ [a] := by
  rw [List.filter_append, List.filter_singleton, decide_eq_true h, cond_true]

/-- The records of a key when there is one more under another. -/
theorem filter_append_other {k : κ} {a : α} (h : key a ≠ k) :
    (as ++ [a]).filter (fun b => key b = k) = as.filter (fun b => key b = k) := by
  rw [List.filter_append, List.filter_singleton, decide_eq_false h, cond_false, List.append_nil]

/-- No records make an empty table. -/
theorem accounts_nil : Accounts cap start key act [] (⟨[], 0⟩ : Capped κ σ) where
  bounded := Nat.zero_le _
  nodup := List.nodup_nil
  full _ ha := absurd ha List.not_mem_nil
  states _ he := absurd he List.not_mem_nil
  dropped := rfl

/-- A record under a key that is there. -/
theorem Accounts.changed (h : Accounts cap start key act as t) {a : α} (hkey : key a ∈ t.keys) :
    Accounts cap start key act (as ++ [a]) { t with entries := change (key a) (act a) t.entries } := by
  have hkeys : keys { t with entries := change (key a) (act a) t.entries } = t.keys := keys_change _ _ _
  refine ⟨?_, ?_, fun b hb hnone => ?_, fun e he => ?_, ?_⟩
  · show (change (key a) (act a) t.entries).length ≤ cap
    rw [length_change]
    exact h.bounded
  · rw [hkeys]
    exact h.nodup
  · show cap ≤ (change (key a) (act a) t.entries).length
    rw [hkeys] at hnone
    rw [length_change]
    rcases List.mem_append.mp hb with hb | hb
    · exact h.full b hb hnone
    · rw [List.mem_singleton.mp hb] at hnone
      exact absurd hkey hnone
  · obtain ⟨old, hold, rfl⟩ := List.mem_map.mp he
    by_cases hsame : old.1 = key a
    · rw [if_pos hsame, filter_append_self hsame.symm, List.foldl_append, ← h.states old hold]
      rfl
    · rw [if_neg hsame, filter_append_other (fun heq => hsame heq.symm)]
      exact h.states old hold
  · have hlast : [a].countP (fun b => key b ∉ t.keys) = 0 := by simp [hkey]
    rw [hkeys, List.countP_append, hlast, Nat.add_zero]
    exact h.dropped

/-- A record that has no room. -/
theorem Accounts.refused (h : Accounts cap start key act as t) {a : α} (hkey : key a ∉ t.keys)
    (hfull : cap ≤ t.entries.length) :
    Accounts cap start key act (as ++ [a]) { t with dropped := t.dropped + 1 } := by
  refine ⟨h.bounded, h.nodup, fun _ _ _ => hfull, fun e he => ?_, ?_⟩
  · have hother : key a ≠ e.1 := by
      intro heq
      exact hkey (heq ▸ List.mem_map_of_mem he)
    rw [filter_append_other hother]
    exact h.states e he
  · have hlast : [a].countP (fun b => key b ∉ t.keys) = 1 := by simp [hkey]
    show t.dropped + 1 = (as ++ [a]).countP fun b => key b ∉ t.keys
    rw [List.countP_append, hlast, h.dropped]

/-- A record that takes a new entry. -/
theorem Accounts.entered (h : Accounts cap start key act as t) {a : α} (hkey : key a ∉ t.keys)
    (hroom : t.entries.length < cap) :
    Accounts cap start key act (as ++ [a]) { t with entries := t.entries ++ [(key a, act a start)] } := by
  -- The table was not full, so that the keys of all records before are in it.
  have hall : ∀ b ∈ as, key b ∈ t.keys := by
    intro b hb
    by_contra hnone
    have hfull := h.full b hb hnone
    omega
  have hkeys : keys { t with entries := t.entries ++ [(key a, act a start)] } = t.keys ++ [key a] := by
    unfold keys
    rw [List.map_append]
    rfl
  have hin : ∀ b ∈ as ++ [a], key b ∈ t.keys ++ [key a] := by
    intro b hb
    rcases List.mem_append.mp hb with hb | hb
    · exact List.mem_append_left _ (hall b hb)
    · rw [List.mem_singleton.mp hb]
      exact List.mem_append_right _ List.mem_cons_self
  refine ⟨?_, ?_, fun b hb hnone => ?_, fun e he => ?_, ?_⟩
  · show (t.entries ++ [(key a, act a start)]).length ≤ cap
    rw [List.length_append, List.length_singleton]
    omega
  · rw [hkeys]
    refine List.Nodup.append h.nodup (List.nodup_singleton _) ?_
    rwa [List.disjoint_singleton]
  · rw [hkeys] at hnone
    exact absurd (hin b hb) hnone
  · rcases List.mem_append.mp he with he | he
    · have hother : key a ≠ e.1 := by
        intro heq
        exact hkey (heq ▸ List.mem_map_of_mem he)
      rw [filter_append_other hother]
      exact h.states e he
    · rw [List.mem_singleton.mp he]
      have hnone : as.filter (fun b => key b = key a) = [] := by
        rw [List.filter_eq_nil_iff]
        intro b hb hsame
        rw [decide_eq_true_eq] at hsame
        exact hkey (hsame ▸ hall b hb)
      rw [filter_append_self rfl, hnone]
      rfl
  · have hdropped : as.countP (fun b => key b ∉ t.keys) = 0 := by
      rw [List.countP_eq_zero]
      intro b hb hnone
      exact absurd (hall b hb) (of_decide_eq_true hnone)
    have hnow : (as ++ [a]).countP (fun b => key b ∉ t.keys ++ [key a]) = 0 := by
      rw [List.countP_eq_zero]
      intro b hb hnone
      exact absurd (hin b hb) (of_decide_eq_true hnone)
    rw [hkeys, hnow, ← hdropped]
    exact h.dropped

/-- One more record is accounted for. -/
theorem accounts_record (h : Accounts cap start key act as t) (a : α) :
    Accounts cap start key act (as ++ [a]) (t.record cap start (key a) (act a)) := by
  unfold record
  by_cases hkey : key a ∈ t.keys
  · rw [if_pos hkey]
    exact h.changed hkey
  · by_cases hfull : cap ≤ t.entries.length
    · rw [if_neg hkey, if_pos hfull]
      exact h.refused hkey hfull
    · rw [if_neg hkey, if_neg hfull]
      exact h.entered hkey (by omega)

end Capped

end SdidBridge.Shared
