import Mathlib.Order.Interval.Finset.Nat
import SdidBridge.Broker.Lockout

/-!
# The counters of the rate limits

`rate-limit.service.ts` by itself: `hit`, `recordFailure`, and `clearFailures`, called in any order with any keys
and limits, and interleaved in any way. A call may stop after any of its commands, because a command fails
or because its process does.

What one step can do to the counter of a key is said once (`CounterStep`). From it follows that a counter
without an expiry is that of a call that has created it and not yet set the expiry (`creator_of_undated`).
Nobody sets it later: a call that is cut off in between leaves the counter for good
(`counter_undated_sampleCrash`), and otherwise every counter expires. While a counter lasts, its hits are
numbered, so that no more of them return than the limit allows (`limits_hold`).
-/

namespace SdidBridge

open Concurrent Machine Prog

/-! ## The entry under a key -/

section Entries

variable {α : Type} {now now' : Time} {key key' : String} {es : List (Timed α)} {e : Timed α}

/-- The entry under a key that has not expired. -/
def liveEntry (now : Time) (key : String) (es : List (Timed α)) : Option (Timed α) :=
  es.find? fun e => e.key == key && e.expiresAt.all (now < ·)

theorem lookup_eq_liveEntry : lookup now key es = (liveEntry now key es).map (·.value) := rfl

theorem expiryOf_eq_liveEntry : expiryOf now key es = (liveEntry now key es).bind (·.expiresAt) := rfl

/-- Where keys are different, it is the one entry under the key, if that has not expired. -/
theorem liveEntry_eq_some (hn : (es.map (·.key)).Nodup) :
    liveEntry now key es = some e ↔ e ∈ es ∧ e.key = key ∧ e.expiresAt.all (now < ·) = true := by
  unfold liveEntry
  constructor
  · intro h
    have hlive := List.find?_some h
    simp only [Bool.and_eq_true, beq_iff_eq] at hlive
    exact ⟨List.mem_of_find?_eq_some h, hlive⟩
  · rintro ⟨hmem, hkey, hlive⟩
    cases hfind : es.find? fun e => e.key == key && e.expiresAt.all (now < ·) with
    | none =>
      have hnone := List.find?_eq_none.mp hfind e hmem
      simp [hkey, hlive] at hnone
    | some e' =>
      have hlive' := List.find?_some hfind
      simp only [Bool.and_eq_true, beq_iff_eq] at hlive'
      rw [List.inj_on_of_nodup_map hn (List.mem_of_find?_eq_some hfind) hmem (hlive'.1.trans hkey.symm)]

theorem key_of_liveEntry (h : liveEntry now key es = some e) : e.key = key := by
  have hlive := List.find?_some h
  simp only [Bool.and_eq_true, beq_iff_eq] at hlive
  exact hlive.1

theorem liveEntry_written {v : α} {x : Option Time} (hx : x.all (now < ·) = true) :
    liveEntry now key (⟨key, v, x⟩ :: without key es) = some ⟨key, v, x⟩ := by
  unfold liveEntry
  rw [List.find?_cons_of_pos (by simp [hx])]

theorem liveEntry_without_self : liveEntry now key (without key es) = none := by
  unfold liveEntry without
  rw [List.find?_eq_none]
  intro e he
  have hne := (List.mem_filter.mp he).2
  simp_all

theorem liveEntry_written_expired {v : α} {x : Option Time} (hx : x.all (now < ·) = false) :
    liveEntry now key (⟨key, v, x⟩ :: without key es) = none := by
  have hrest : liveEntry now key (without key es) = none := liveEntry_without_self
  unfold liveEntry at hrest ⊢
  rwa [List.find?_cons_of_neg (by simp [hx])]

theorem liveEntry_without (hk : key ≠ key') : liveEntry now key (without key' es) = liveEntry now key es := by
  unfold liveEntry without
  rw [List.find?_filter]
  refine List.find?_congr fun e _ => ?_
  by_cases he : e.key = key
  · simp [he, hk]
  · simp [he]

theorem liveEntry_set {v : α} {x : Option Time} (hk : key ≠ key') :
    liveEntry now key (⟨key', v, x⟩ :: without key' es) = liveEntry now key es := by
  have hne : (key' == key) = false := by simpa using Ne.symm hk
  refine Eq.trans ?_ (liveEntry_without hk)
  unfold liveEntry
  rw [List.find?_cons_of_neg (by simp [hne])]

/-- As time passes, an entry stays or expires. -/
theorem liveEntry_later (key : String) (hn : (es.map (·.key)).Nodup) (hle : now ≤ now') :
    liveEntry now' key es = liveEntry now key es ∨
      liveEntry now' key es = none ∧ ∃ e deadline, liveEntry now key es = some e ∧ e.expiresAt = some deadline := by
  have hearlier : ∀ x : Option Time, x.all (now' < ·) = true → x.all (now < ·) = true := by
    intro x hx
    cases x with
    | none => rfl
    | some deadline => simpa using lt_of_le_of_lt hle (by simpa using hx)
  cases hlater : liveEntry now' key es with
  | some e =>
    obtain ⟨hmem, hkey, hlive⟩ := (liveEntry_eq_some hn).mp hlater
    exact .inl ((liveEntry_eq_some hn).mpr ⟨hmem, hkey, hearlier _ hlive⟩).symm
  | none =>
    cases hnow : liveEntry now key es with
    | none => exact .inl rfl
    | some e =>
      refine .inr ⟨rfl, e, ?_⟩
      obtain ⟨hmem, hkey, -⟩ := (liveEntry_eq_some hn).mp hnow
      cases hx : e.expiresAt with
      | some deadline => exact ⟨deadline, rfl, rfl⟩
      | none =>
        have hstill : liveEntry now' key es = some e := (liveEntry_eq_some hn).mpr ⟨hmem, hkey, by rw [hx]; rfl⟩
        rw [hlater] at hstill
        simp at hstill

end Entries

/-! ## What a step does to a counter -/

/-- Whether an event changes the counter of a key. -/
def Changes {Req : Type} (key : String) : Event Op Op.Res Req → Prop
  | .act _ ⟨.counter (.incr key'), some _⟩ => key' = key
  | .act _ ⟨.counter (.expire key' _), some _⟩ => key' = key
  | .act _ ⟨.counter (.del key'), some _⟩ => key' = key
  | _ => False

/-- What a step does to the counter of a key: from the entry before, if there is one, to that after. -/
inductive CounterStep {Req : Type} (key : String) :
    Option (Timed ℕ) → Event Op Op.Res Req → Option (Timed ℕ) → Prop
  /-- An increment of no counter creates one without an expiry. -/
  | create (t : ℕ) : CounterStep key none (.act t ⟨.counter (.incr key), some (1 : ℕ)⟩) (some ⟨key, 1, none⟩)
  /-- An increment keeps the expiry. -/
  | count (t : ℕ) (e : Timed ℕ) : CounterStep key (some e)
      (.act t ⟨.counter (.incr key), some (e.value + 1 : ℕ)⟩) (some { e with value := e.value + 1 })
  /-- An expiry is set. -/
  | date (t seconds : ℕ) (e : Timed ℕ) (deadline : Time) : CounterStep key (some e)
      (.act t ⟨.counter (.expire key seconds), some ()⟩) (some { e with expiresAt := some deadline })
  /-- An expiry is set in no time, or on no counter. -/
  | drop (t seconds : ℕ) (x : Option (Timed ℕ)) :
      CounterStep key x (.act t ⟨.counter (.expire key seconds), some ()⟩) none
  /-- A counter is deleted. -/
  | delete (t : ℕ) (x : Option (Timed ℕ)) : CounterStep key x (.act t ⟨.counter (.del key), some ()⟩) none
  /-- A counter expires. -/
  | elapse (e : Timed ℕ) (deadline : Time) (ev : Event Op Op.Res Req) (he : e.expiresAt = some deadline)
      (hev : ¬ Changes key ev) : CounterStep key (some e) ev none
  /-- Nothing happens to it. -/
  | keep (x : Option (Timed ℕ)) (ev : Event Op Op.Res Req) (hev : ¬ Changes key ev) : CounterStep key x ev x

/-- What an answered increment does. -/
theorem CounterStep.incr_inv {Req : Type} {key : String} {x y : Option (Timed ℕ)} {t n : ℕ}
    (h : CounterStep key x (.act t ⟨.counter (.incr key), some n⟩ : Event Op Op.Res Req) y) :
    x = none ∧ n = 1 ∧ y = some ⟨key, 1, none⟩ ∨
      ∃ e, x = some e ∧ n = e.value + 1 ∧ y = some { e with value := e.value + 1 } := by
  cases h with
  | create => exact .inl ⟨rfl, rfl, rfl⟩
  | count _ e => exact .inr ⟨e, rfl, rfl, rfl⟩
  | elapse e deadline _ he hev => exact absurd rfl hev
  | keep _ _ hev => exact absurd rfl hev

section Steps

variable {D : Deployment} {Req ρ : Type} {handle : Req → H ρ} {tr l₁ l₂ : List (Entry Op Op.Res Req Store)}
  {c : Config Op Op.Res Failure ρ Store} {s s' : Store} {t u : ℕ} {key : String}

/-- The counter of a key in a store. -/
def counterAt (s : Store) (key : String) : Option (Timed ℕ) := liveEntry s.now key s.counters

/-- What an answered command does to a counter. -/
theorem counterStep_exec {now : Time} {es es' : List (Timed ℕ)} {o : CounterOp} {r : Option o.Res}
    (hx : o.exec now es = (r, es')) :
    CounterStep key (liveEntry now key es) (.act t ⟨.counter o, r⟩ : Event Op Op.Res Req) (liveEntry now key es') := by
  cases o with
  | incr k =>
    simp only [CounterOp.exec, Prod.mk.injEq] at hx
    obtain ⟨rfl, rfl⟩ := hx
    by_cases hk : key = k
    · subst hk
      rw [lookup_eq_liveEntry, expiryOf_eq_liveEntry]
      cases hlive : liveEntry now key es with
      | none =>
        rw [liveEntry_written rfl]
        exact .create t
      | some e =>
        have hall := List.find?_some hlive
        simp only [Bool.and_eq_true] at hall
        simp only [Option.map_some, Option.getD_some, Option.bind_some]
        rw [liveEntry_written hall.2]
        obtain rfl := key_of_liveEntry hlive
        exact .count t e
    · rw [liveEntry_set hk]
      exact .keep _ _ (Ne.symm hk)
  | expire k seconds =>
    simp only [CounterOp.exec, lookup_eq_liveEntry] at hx
    by_cases hk : key = k
    · subst hk
      cases hlive : liveEntry now key es with
      | none =>
        rw [hlive] at hx
        simp only [Option.map_none, Prod.mk.injEq] at hx
        obtain ⟨rfl, rfl⟩ := hx
        rw [hlive]
        exact .drop t seconds _
      | some e =>
        rw [hlive] at hx
        simp only [Option.map_some, Prod.mk.injEq] at hx
        obtain ⟨rfl, rfl⟩ := hx
        obtain rfl := key_of_liveEntry hlive
        cases hdeadline : (some (now + seconds * 1000)).all (now < ·) with
        | true =>
          rw [liveEntry_written hdeadline]
          exact .date t seconds e _
        | false =>
          rw [liveEntry_written_expired hdeadline]
          exact .drop t seconds _
    · split at hx <;> simp only [Prod.mk.injEq] at hx <;> obtain ⟨rfl, rfl⟩ := hx
      · rw [liveEntry_set hk]
        exact .keep _ _ (Ne.symm hk)
      · exact .keep _ _ (Ne.symm hk)
  | get k =>
    simp only [CounterOp.exec, Prod.mk.injEq] at hx
    obtain ⟨rfl, rfl⟩ := hx
    exact .keep _ _ id
  | del k =>
    simp only [CounterOp.exec, Prod.mk.injEq] at hx
    obtain ⟨rfl, rfl⟩ := hx
    by_cases hk : key = k
    · subst hk
      rw [liveEntry_without_self]
      exact .delete t _
    · rw [liveEntry_without hk]
      exact .keep _ _ (Ne.symm hk)

/-- The counters, under any handlers. -/
abbrev servedCounters (D : Deployment) (handle : Req → H ρ) :
    Object (served D handle) CounterOp CounterOp.Res (List (Timed ℕ)) :=
  (counters D).onMachine (served D handle) (served_exec D handle) (served_env D handle)

/-- No two counters have one key. -/
theorem servedCounters_nodup (hr : (served D handle).Reach tr c) : (c.store.counters.map (·.key)).Nodup :=
  (servedCounters D handle).invariant (P := fun x => (x.map Timed.key).Nodup) List.nodup_nil
    (fun _ _ _ hs => counters_step_nodup (D := D) hs) hr

/-- What a step of a run does to a counter. -/
theorem counterStep (key : String) {e : Entry Op Op.Res Req Store} (hn : (e.before.counters.map (·.key)).Nodup)
    (hl : (served D handle).Leads e s') : CounterStep key (counterAt e.before key) e.event (counterAt s' key) := by
  obtain ⟨s, ev⟩ := e
  cases ev with
  | arrive t q =>
    obtain rfl : s' = s := hl
    exact .keep _ _ id
  | env =>
    obtain ⟨i, hi⟩ := hl
    simp only [served, Store.elapse] at hi
    split at hi
    swap
    · simp at hi
    obtain rfl := Option.some.inj hi
    rename_i ms
    change CounterStep key (liveEntry s.now key s.counters) .env (liveEntry (s.now + ms) key s.counters)
    rcases liveEntry_later key hn (Nat.le_add_right s.now ms) with hsame | ⟨hnone, e, deadline, hlive, he⟩
    · rw [hsame]
      exact .keep _ _ id
    · rw [hnone, hlive]
      exact .elapse e deadline _ he id
  | act t a =>
    obtain ⟨o, r⟩ := a
    rcases hl with ⟨i, hx⟩ | ⟨hnone, -, rfl⟩
    · have hnow : s'.now = s.now := exec_now (D := D) (i := i) hx
      unfold counterAt
      rw [hnow]
      cases hv : (servedCounters D handle).view ⟨o, r⟩ with
      | some a =>
        obtain rfl : (⟨o, r⟩ : Cmd).op = .counter a.op := by rw [(servedCounters D handle).view_eq.mp hv]; rfl
        simp only [served, Op.exec, Option.some.injEq, Prod.mk.injEq] at hx
        obtain ⟨rfl, rfl⟩ := hx
        exact counterStep_exec rfl
      | none =>
        rw [show s'.counters = s.counters from (servedCounters D handle).exec_frame hx hv]
        refine .keep _ _ ?_
        cases o with
        | counter o => simp [servedCounters, Object.onMachine, counters, part] at hv
        | _ => exact id
    · simp only at hnone
      subst hnone
      refine .keep _ _ ?_
      unfold Changes
      simp

/-- A counter counts. -/
theorem counter_pos (hr : (served D handle).Reach tr c) {e : Timed ℕ} (hlive : counterAt c.store key = some e) :
    1 ≤ e.value := by
  induction hr generalizing e with
  | init => simp [counterAt, liveEntry, served, Store.empty] at hlive
  | step hr hs ih =>
    have hstep := counterStep key (servedCounters_nodup hr) (step_leads hs)
    rw [hlive] at hstep
    generalize hbefore : counterAt _ key = x at hstep
    cases hstep with
    | create t => exact le_rfl
    | count t e => exact Nat.le_add_left 1 _
    | date t seconds e deadline =>
      change 1 ≤ e.value
      exact ih hbefore
    | keep => exact ih hbefore

/-- The answered increments of a counter, newest first, each with its call and its answer. -/
def increments (key : String) (l : List (Entry Op Op.Res Req Store)) : List (ℕ × ℕ) :=
  l.filterMap fun e => match e.event with
    | .act t ⟨.counter (.incr key'), some n⟩ => if key' = key then some (t, n) else none
    | _ => none

theorem increments_cons_incr {t n : ℕ} : increments key (⟨s, .act t ⟨.counter (.incr key), some n⟩⟩ :: tr) =
    (t, n) :: increments key tr := by
  simp [increments]

theorem increments_cons_of_ne {ev : Event Op Op.Res Req}
    (hev : ∀ t (n : ℕ), ev ≠ .act t ⟨.counter (.incr key), some n⟩) :
    increments key (⟨s, ev⟩ :: tr) = increments key tr := by
  unfold increments
  rw [List.filterMap_cons_none]
  split
  · rename_i t key' n h
    split_ifs with hk
    · subst hk
      exact absurd h (hev t n)
    · rfl
  · rfl

theorem mem_increments_of_did {n : ℕ} (hd : Did tr t ⟨.counter (.incr key), some n⟩) :
    (t, n) ∈ increments key tr := by
  obtain ⟨e, he, hev⟩ := hd
  exact List.mem_filterMap.mpr ⟨e, he, by simp [hev]⟩

/-- Increments, newest first, that are numbered from one, up to the value of the counter. -/
structure Numbered (l : List (ℕ × ℕ)) (x : Option (Timed ℕ)) : Prop where
  decreasing : (l.map Prod.snd).Pairwise (· > ·)
  positive : ∀ p ∈ l, 1 ≤ p.2
  bounded : ∀ e, x = some e → ∀ p ∈ l, p.2 ≤ e.value

/-- While a counter lasts, its increments are numbered. -/
theorem increments_numbered {m : List (Entry Op Op.Res Req Store)} (hr : (served D handle).Reach
      (m ++ ⟨s, .act t ⟨.counter (.incr key), some (1 : ℕ)⟩⟩ :: l₂) c)
    (hlast : ∀ e ∈ m, counterAt e.before key ≠ none) :
    Numbered (increments key (m ++ [⟨s, .act t ⟨.counter (.incr key), some (1 : ℕ)⟩⟩])) (counterAt c.store key) := by
  induction m generalizing c with
  | nil =>
    cases hr with
    | step hr hs =>
      rw [List.nil_append, increments_cons_incr]
      refine ⟨by simp [increments], by simp [increments], fun e hlive p hp => ?_⟩
      have hp : p = (t, 1) := by simpa [increments] using hp
      rw [hp]
      exact counter_pos (.step hr hs) hlive
  | cons e₁ m ih =>
    cases hr with
    | @step _ c' _ ev _ hr hs =>
      obtain ⟨hdecr, hpos, hle⟩ := ih hr fun e he => hlast e (List.mem_cons_of_mem _ he)
      have hstep := counterStep key (servedCounters_nodup hr) (step_leads hs)
      obtain ⟨x, hbefore⟩ := Option.ne_none_iff_exists'.mp (hlast _ List.mem_cons_self)
      rw [hbefore] at hstep
      replace hle := hle x hbefore
      rw [List.cons_append]
      -- An event that is no increment of this counter leaves the numbers alone.
      have hsame : (∀ u (n : ℕ), ev ≠ .act u ⟨.counter (.incr key), some n⟩) → increments key
          ((⟨c'.store, ev⟩ : Entry Op Op.Res Req Store) :: (m ++ [⟨s, .act t ⟨.counter (.incr key), some 1⟩⟩])) =
          increments key (m ++ [⟨s, .act t ⟨.counter (.incr key), some 1⟩⟩]) := increments_cons_of_ne
      generalize counterAt c.store key = y at hstep ⊢
      cases hstep with
      | count u =>
        rw [increments_cons_incr]
        refine ⟨?_, fun p hp => ?_, fun e he p hp => ?_⟩
        · rw [List.map_cons, List.pairwise_cons]
          refine ⟨fun n hn => ?_, hdecr⟩
          obtain ⟨p, hp, rfl⟩ := List.mem_map.mp hn
          exact Nat.lt_succ_of_le (hle p hp)
        · rcases List.mem_cons.mp hp with rfl | hp
          · exact Nat.le_add_left 1 _
          · exact hpos p hp
        · obtain rfl := Option.some.inj he
          rcases List.mem_cons.mp hp with rfl | hp
          · exact le_rfl
          · exact Nat.le_succ_of_le (hle p hp)
      | date u seconds =>
        rw [hsame (by simp)]
        refine ⟨hdecr, hpos, fun e he => ?_⟩
        obtain rfl := Option.some.inj he
        exact hle
      | drop u seconds =>
        rw [hsame (by simp)]
        exact ⟨hdecr, hpos, by simp⟩
      | delete u =>
        rw [hsame (by simp)]
        exact ⟨hdecr, hpos, by simp⟩
      | elapse _ _ _ _ hev =>
        rw [hsame fun u n h => hev (by rw [h]; rfl)]
        exact ⟨hdecr, hpos, by simp⟩
      | keep _ _ hev =>
        rw [hsame fun u n h => hev (by rw [h]; rfl)]
        refine ⟨hdecr, hpos, fun e he => ?_⟩
        obtain rfl := Option.some.inj he
        exact hle

/-! ### Windows -/

/-- What precedes the commands on a counter of a window: an increment comes first in its call, the expiry is set right
after the increment that creates the counter, and the counter is not deleted. -/
def WindowOnPath (key : String) (h : Path) : Op → Prop
  | .counter (.incr key') => key' = key → h = []
  | .counter (.expire key' _) => key' = key → h = [⟨.counter (.incr key), some (1 : ℕ)⟩]
  | .counter (.del key') => key' ≠ key
  | _ => True

/-- A call that has created a counter and has not done anything else yet. -/
def Creating (key : String) (tr : List (Entry Op Op.Res Req Store)) (t : ℕ) : Prop :=
  own t tr = [⟨.counter (.incr key), some (1 : ℕ)⟩]

/-- While a call is creating the counter of a window, the counter is there without an expiry, and nobody else is
creating it. -/
theorem undated_of_creating (hpaths : ∀ q, Along (WindowOnPath key) (fun _ _ => True) [] (handle q))
    (hr : (served D handle).Reach tr c) (hc : Creating key tr t) :
    (∃ e, counterAt c.store key = some e ∧ e.expiresAt = none) ∧ ∀ u, Creating key tr u → u = t := by
  unfold Creating at hc ⊢
  induction hr generalizing t with
  | init => simp [own] at hc
  | @step tr c m ev c' hr hs ih =>
    have hpos : ∀ e, counterAt c.store key = some e → e.value + 1 ≠ 1 := by
      intro e hlive
      have := counter_pos hr hlive
      omega
    have hpath : ∀ {u a}, ev = .act u a → WindowOnPath key (own u tr) a.op := by
      rintro u a rfl
      obtain ⟨q, -, hpath⟩ := (Reach.step hr hs).newest.act_along hpaths
      exact hpath
    have hstep := counterStep key (servedCounters_nodup hr) (step_leads hs)
    generalize hbefore : counterAt (Entry.mk c.store ev).before key = x at hstep
    -- The call that is creating the counter has just done so, or it has been before.
    by_cases hself : ∃ b, ev = .act t b
    · obtain ⟨b, rfl⟩ := hself
      rw [own_cons_self, List.cons.injEq] at hc
      obtain ⟨rfl, hnil⟩ := hc
      -- The counter was not there before, so that nobody was creating it.
      rcases hstep.incr_inv with ⟨rfl, -, hafter⟩ | ⟨e, rfl, hone, -⟩
      · refine ⟨⟨_, hafter, rfl⟩, fun u hu => ?_⟩
        by_contra hne
        rw [own_cons_of_ne (by simp [Ne.symm hne])] at hu
        obtain ⟨⟨e, hlive, -⟩, -⟩ := ih hu
        simp [show counterAt c.store key = none from hbefore] at hlive
      · exact absurd hone.symm (hpos e hbefore)
    · simp only [not_exists] at hself
      rw [own_cons_of_ne hself] at hc
      obtain ⟨⟨e, hlive, hx⟩, honly⟩ := ih hc
      obtain rfl : some e = x := hlive.symm.trans hbefore
      refine ⟨?_, fun u hu => ?_⟩
      · -- An expiry is set by the call alone that is creating the counter, which is not deleted.
        generalize counterAt c'.store key = y at hstep ⊢
        have hnot : ∀ u seconds r, ev ≠ .act u ⟨.counter (.expire key seconds), r⟩ := by
          rintro u seconds r rfl
          have hown : own u tr = [⟨.counter (.incr key), some (1 : ℕ)⟩] := hpath rfl rfl
          obtain rfl := honly u hown
          exact hself _ rfl
        cases hstep with
        | count u => exact ⟨_, rfl, hx⟩
        | date u seconds => exact absurd rfl (hnot u seconds _)
        | drop u seconds => exact absurd rfl (hnot u seconds _)
        | delete u => exact absurd rfl (hpath rfl)
        | elapse _ _ _ he => simp [hx] at he
        | keep => exact ⟨e, rfl, hx⟩
      · by_cases hother : ∃ b, ev = .act u b
        · obtain ⟨b, rfl⟩ := hother
          rw [own_cons_self, List.cons.injEq] at hu
          obtain ⟨rfl, -⟩ := hu
          rcases hstep.incr_inv with ⟨hnone, -⟩ | ⟨e', he', hone, -⟩
          · simp at hnone
          · exact absurd hone.symm (hpos e' (hbefore.trans he'))
        · simp only [not_exists] at hother
          rw [own_cons_of_ne hother] at hu
          exact honly u hu

end Steps

/-! ## The operations -/

/-- The operations of the rate limits that change a counter. -/
inductive LimiterRequest where
  | hit (key : String) (limit windowSeconds : ℕ)
  | recordFailure (key : String) (maxFailures windowSeconds : ℕ)
  | clearFailures (key : String)
  deriving DecidableEq

/-- The program of an operation. -/
def limiterHandler : LimiterRequest → H Unit
  | .hit key limit windowSeconds => hit key limit windowSeconds
  | .recordFailure key maxFailures windowSeconds => recordFailure key maxFailures windowSeconds
  | .clearFailures key => clearFailures key

/-- The rate limits of a deployment. -/
abbrev rateLimiter (D : Deployment) : Machine Op Op.Res Failure Unit LimiterRequest Store Oracle :=
  served D limiterHandler

/-- The key of the hits. -/
def rlKey (key : String) : String := "rl:" ++ key

/-- The key of the failures. -/
def lockoutKey (key : String) : String := "lockout:" ++ key

theorem rlKey_ne_lockoutKey (key key' : String) : rlKey key ≠ lockoutKey key' := by
  intro h
  have htexts := congrArg String.toList h
  simp [rlKey, lockoutKey] at htexts

/-- What precedes a command of an operation. -/
def LimiterOnPath (q : LimiterRequest) (h : Path) : Op → Prop
  | .counter (.incr _) => h = []
  | .counter (.expire key _) => (∃ k limit seconds, q = .hit k limit seconds ∧ key = rlKey k ∧
      h = [⟨.counter (.incr key), some (1 : ℕ)⟩]) ∨ ∃ k, key = lockoutKey k
  | .counter (.del key) => ∃ k, key = lockoutKey k
  | _ => False

/-- How a hit that returns has got there: it was within the limit, and if it was the first, the expiry was
set. -/
def LimiterReturnsOn (q : LimiterRequest) (h : Path) : Prop :=
  match q with
  | .hit key limit windowSeconds => ∃ n : ℕ, n ≤ limit ∧
      (h = [⟨.counter (.incr (rlKey key)), some n⟩] ∧ n ≠ 1 ∨
        n = 1 ∧ h = [⟨.counter (.expire (rlKey key) windowSeconds), some ()⟩, ⟨.counter (.incr (rlKey key)), some n⟩])
  | _ => True

/-- The paths of the operations. -/
theorem limiter_paths (q : LimiterRequest) :
    Yields (LimiterOnPath q) [] (limiterHandler q) fun _ h => LimiterReturnsOn q h := by
  cases q with
  | hit key limit windowSeconds =>
    simp only [limiterHandler, hit, yields_bind, yields_await, yields_onlyIf, yields_throwIf, not_lt]
    refine ⟨rfl, fun n => ⟨?_, fun hne hle => ?_⟩⟩
    · rintro rfl
      refine ⟨.inl ⟨key, limit, windowSeconds, rfl, rfl, rfl⟩, fun _ hle => ?_⟩
      exact ⟨1, hle, .inr ⟨rfl, rfl⟩⟩
    · exact ⟨n, hle, .inl ⟨rfl, hne⟩⟩
  | recordFailure key maxFailures windowSeconds =>
    simp only [limiterHandler, recordFailure, yields_bind, yields_await, yields_onlyIf]
    refine ⟨rfl, fun n => ⟨fun _ => ⟨.inr ⟨key, rfl⟩, fun _ => ?_⟩, fun _ => ?_⟩⟩ <;>
      exact ⟨fun _ => ⟨.inr ⟨key, rfl⟩, fun _ => trivial⟩, fun _ => trivial⟩
  | clearFailures key =>
    simp only [limiterHandler, clearFailures, yields_await]
    exact ⟨⟨key, rfl⟩, fun _ => trivial⟩

/-! ## The runs of the rate limits -/

section Runs

variable {D : Deployment} {tr l₁ l₂ : List (Entry Op Op.Res LimiterRequest Store)}
  {c c₂ : Config Op Op.Res Failure Unit Store} {s : Store} {t u : ℕ} {key : String} {a : Cmd}

theorem limiter_onPath (hr : (rateLimiter D).Reach (l₁ ++ ⟨s, .act t a⟩ :: l₂) c) :
    ∃ q, Arrived l₂ t q ∧ LimiterOnPath q (own t l₂) a.op :=
  hr.act_along fun q => (limiter_paths q).along

/-- A counter without an expiry was created by a call that has not set one. -/
theorem creator_of_undated (hr : (rateLimiter D).Reach tr c) {e : Timed ℕ}
    (hlive : counterAt c.store key = some e) (hx : e.expiresAt = none) :
    ∃ t, Did tr t ⟨.counter (.incr key), some (1 : ℕ)⟩ ∧
      ∀ seconds, ¬ Did tr t ⟨.counter (.expire key seconds), some ()⟩ := by
  induction hr generalizing e with
  | init => simp [counterAt, liveEntry, served, Store.empty] at hlive
  | @step tr c m ev c' hr hs ih =>
    have hsub : tr ⊆ (⟨c.store, ev⟩ : Entry Op Op.Res LimiterRequest Store) :: tr := List.subset_cons_self _ _
    -- What is known of the older creator stays so after an event that sets no expiry.
    have hold : ∀ {e : Timed ℕ}, counterAt c.store key = some e → e.expiresAt = none →
        (∀ t seconds, ev ≠ .act t ⟨.counter (.expire key seconds), some ()⟩) →
        ∃ t, Did ((⟨c.store, ev⟩ : Entry Op Op.Res LimiterRequest Store) :: tr) t
            ⟨.counter (.incr key), some (1 : ℕ)⟩ ∧
          ∀ seconds, ¬ Did ((⟨c.store, ev⟩ : Entry Op Op.Res LimiterRequest Store) :: tr) t
            ⟨.counter (.expire key seconds), some ()⟩ := by
      intro e hlive hx hev
      obtain ⟨t, hd, hno⟩ := ih hlive hx
      refine ⟨t, hd.mono hsub, fun seconds hdid => ?_⟩
      obtain ⟨e', he', ha⟩ := hdid
      rcases List.mem_cons.mp he' with rfl | he'
      · exact hev t seconds ha
      · exact hno seconds ⟨e', he', ha⟩
    have hstep := counterStep key (servedCounters_nodup hr) (step_leads hs)
    rw [hlive] at hstep
    generalize hbefore : counterAt _ key = x at hstep
    cases hstep with
    | create t =>
      refine ⟨t, ⟨_, List.mem_cons_self, rfl⟩, fun seconds hdid => ?_⟩
      obtain ⟨e', he', ha⟩ := hdid
      rcases List.mem_cons.mp he' with rfl | he'
      · simp at ha
      · -- An increment is the first command of its call.
        obtain ⟨q, -, hfirst⟩ := limiter_onPath (Reach.step hr hs).newest
        have hmem := mem_own.mpr ⟨e', he', ha⟩
        rw [show own t tr = [] from hfirst] at hmem
        simp at hmem
    | count t e => exact hold hbefore hx (by simp)
    | date t seconds e deadline => simp at hx
    | keep _ _ hev =>
      refine hold hbefore hx fun t seconds heq => hev ?_
      rw [heq]
      rfl

/-- The hits on a key are counted in windows. -/
theorem limiter_windows (key : String) (q : LimiterRequest) :
    Along (WindowOnPath (rlKey key)) (fun _ _ => True) [] (limiterHandler q) := by
  refine (limiter_paths q).along.mono (fun h o hpath => ?_) fun _ _ _ => trivial
  cases o with
  | counter o =>
    cases o with
    | incr key' => exact fun _ => hpath
    | expire key' seconds =>
      rintro rfl
      rcases hpath with ⟨k, limit, w, -, -, hown⟩ | ⟨k, hk⟩
      · exact hown
      · exact absurd hk (rlKey_ne_lockoutKey _ _)
    | get key' => trivial
    | del key' =>
      obtain ⟨k, rfl⟩ := hpath
      exact (rlKey_ne_lockoutKey _ _).symm
  | _ => trivial

/-- A counter that a run creates is not being created before. -/
theorem not_creating_before {m : List (Entry Op Op.Res LimiterRequest Store)} (hr : (rateLimiter D).Reach
      (m ++ ⟨s, .act u ⟨.counter (.incr (rlKey key)), some (1 : ℕ)⟩⟩ :: l₂) c) : ¬ Creating (rlKey key) l₂ t := by
  intro hcreating
  obtain ⟨c₀, m₀, c₁, hr₀, rfl, hs⟩ := hr.entry
  obtain ⟨⟨e, hlive, -⟩, -⟩ := undated_of_creating (limiter_windows key) hr₀ hcreating
  have hstep := counterStep (rlKey key) (servedCounters_nodup hr₀) (step_leads hs)
  rcases hstep.incr_inv with ⟨hnone, -⟩ | ⟨e', hlive', hone, -⟩
  · simp [hlive] at hnone
  · have := counter_pos hr₀ hlive'
    omega

/-- A hit that has returned since a counter was created has incremented it since, within its limit. -/
theorem increment_of_returned {m : List (Entry Op Op.Res LimiterRequest Store)} {limit windowSeconds : ℕ}
    (hr : (rateLimiter D).Reach
      (m ++ ⟨s, .act u ⟨.counter (.incr (rlKey key)), some (1 : ℕ)⟩⟩ :: l₂) c)
    (hr₂ : (rateLimiter D).Reach l₂ c₂)
    (harrived : Arrived (m ++ ⟨s, .act u ⟨.counter (.incr (rlKey key)), some (1 : ℕ)⟩⟩ :: l₂) t
      (.hit key limit windowSeconds))
    (hret : c.calls[t]? = some (.ret ())) (hsince : c₂.calls[t]? ≠ some (.ret ())) :
    ∃ n : ℕ, n ≤ limit ∧ Did (m ++ [⟨s, .act u ⟨.counter (.incr (rlKey key)), some (1 : ℕ)⟩⟩]) t
      ⟨.counter (.incr (rlKey key)), some n⟩ := by
  obtain ⟨n, hle, hpath⟩ :=
    hr.ret_of_arrived harrived hret (limiter_paths (.hit key limit windowSeconds)).along _ rfl
  refine ⟨n, hle, ?_⟩
  by_contra hnew
  have hnot := not_creating_before (t := t) hr
  rw [← mem_own] at hnew
  rw [List.append_cons] at hr harrived hpath
  generalize m ++ [_] = l₁ at hr harrived hpath hnew
  have hmem : (⟨.counter (.incr (rlKey key)), some n⟩ : Cmd) ∈ own t (l₁ ++ l₂) := by
    rcases hpath with ⟨hown, -⟩ | ⟨-, hown⟩ <;> simp [hown]
  -- The increment is older than the counter, and the call has executed another command since.
  rw [own_append] at hmem hpath
  have hold := (List.mem_append.mp hmem).resolve_left hnew
  obtain ⟨q, hq⟩ := hr₂.arrived_of_did (mem_own.mp hold)
  obtain ⟨a, rest, hlater⟩ := List.exists_cons_of_ne_nil (hr.own_ne_nil hr₂ hq (hret ▸ hsince))
  rw [hlater, List.cons_append] at hpath
  rcases hpath with ⟨hown, -⟩ | ⟨rfl, hown⟩
  · have hnil := (List.append_eq_nil_iff.mp (List.cons.inj hown).2).2
    simp [hnil] at hold
  · rcases List.append_eq_singleton_iff.mp (List.cons.inj hown).2 with ⟨-, hcreating⟩ | ⟨-, hnil⟩
    · exact hnot hcreating
    · simp [hnil] at hold

/-- No call is cut off after it has created a counter and before it has set the expiry: neither is it over
nor has its process crashed. -/
def NoneCutOff (tr : List (Entry Op Op.Res LimiterRequest Store)) (c : Config Op Op.Res Failure Unit Store)
    (crashed : ℕ → Prop) : Prop :=
  ∀ t key, Did tr t ⟨.counter (.incr key), some (1 : ℕ)⟩ → (InProgress c t → crashed t) →
    ∃ seconds, Did tr t ⟨.counter (.expire key seconds), some ()⟩

/-- When no call is cut off between creating a counter and setting its expiry, every counter that is there
while no call is in progress expires. And always, from the creation of a counter to its expiry, no more
hits return than the limit allows. -/
theorem limits_hold (hr : (rateLimiter D).Reach tr c) (crashed : ℕ → Prop) (hcut : NoneCutOff tr c crashed) :
    ((∀ t, InProgress c t → crashed t) → ∀ key e, counterAt c.store key = some e → e.expiresAt ≠ none) ∧
    ∀ m s u l₂ c₂ key limit (T : Finset ℕ),
      tr = m ++ ⟨s, .act u ⟨.counter (.incr (rlKey key)), some (1 : ℕ)⟩⟩ :: l₂ →
      (∀ e ∈ m, counterAt e.before (rlKey key) ≠ none) → (rateLimiter D).Reach l₂ c₂ →
      (∀ t ∈ T, (∃ limit' windowSeconds, limit' ≤ limit ∧ Arrived tr t (.hit key limit' windowSeconds)) ∧
        c.calls[t]? = some (.ret ()) ∧ c₂.calls[t]? ≠ some (.ret ())) → T.card ≤ limit := by
  constructor
  · intro hquiet key e hlive hx
    obtain ⟨t, hd, hno⟩ := creator_of_undated hr hlive hx
    obtain ⟨seconds, hset⟩ := hcut t key hd (hquiet t)
    exact hno seconds hset
  · rintro m s u l₂ c₂ key limit T rfl hlast hr₂ hT
    have hnumbered := increments_numbered hr hlast
    -- Each of the hits has a number of its own, which is at most the limit.
    have hnumber : ∀ t ∈ T, ∃ n : ℕ, n ≤ limit ∧ (t, n) ∈ increments (rlKey key)
        (m ++ [⟨s, .act u ⟨.counter (.incr (rlKey key)), some (1 : ℕ)⟩⟩]) := by
      intro t ht
      obtain ⟨⟨limit', w, hle, harrived⟩, hret, hsince⟩ := hT t ht
      obtain ⟨n, hn, hd⟩ := increment_of_returned hr hr₂ harrived hret hsince
      exact ⟨n, hn.trans hle, mem_increments_of_did hd⟩
    choose! n hn hmem using hnumber
    have hinto : ∀ t ∈ T, n t ∈ Finset.Icc 1 limit := fun t ht =>
      Finset.mem_Icc.mpr ⟨hnumbered.positive _ (hmem t ht), hn t ht⟩
    have hnodup : ((increments (rlKey key)
        (m ++ [⟨s, .act u ⟨.counter (.incr (rlKey key)), some (1 : ℕ)⟩⟩])).map Prod.snd).Nodup :=
      hnumbered.decreasing.imp fun h => h.ne'
    have hinj : Set.InjOn n T := fun t ht u hu h =>
      congrArg Prod.fst (List.inj_on_of_nodup_map hnodup (hmem t ht) (hmem u hu) h)
    calc T.card ≤ (Finset.Icc 1 limit).card := Finset.card_le_card_of_injOn n hinto hinj
      _ = limit := by simp

end Runs

/-! ## Runs to look at -/

/-- A hit whose expiry is not set. -/
def sampleCrash : List (Move LimiterRequest Oracle) :=
  [.arrive (.hit "enrol:nid:1" 5 3600), .go 0 .unit, .fail 0]

/-- A hit that returns. -/
def sampleHit : List (Move LimiterRequest Oracle) :=
  [.arrive (.hit "enrol:nid:1" 5 3600), .go 0 .unit, .go 0 .unit]

/-- Whether every call is over. -/
def allOver (c : Config Op Op.Res Failure Unit Store) : Bool :=
  c.calls.all fun p => match p with
    | .call _ _ => false
    | _ => true

theorem not_inProgress_of_allOver {c : Config Op Op.Res Failure Unit Store} (h : allOver c = true) (t : ℕ) :
    ¬ InProgress c t := by
  rintro ⟨o, k, hc⟩
  simpa using List.all_eq_true.mp h _ (List.mem_of_getElem? hc)

/-- Whether the call that an entry creates a counter for has set its expiry. -/
def datedSince (tr : List (Entry Op Op.Res LimiterRequest Store)) (e : Entry Op Op.Res LimiterRequest Store) : Bool :=
  match e.event with
  | .act t ⟨.counter (.incr key), some n⟩ => n != 1 || tr.any fun e' => match e'.event with
    | .act t' ⟨.counter (.expire key' _), some _⟩ => t' == t && key' == key
    | _ => false
  | _ => true

theorem noneCutOff_of_all {tr : List (Entry Op Op.Res LimiterRequest Store)}
    {c : Config Op Op.Res Failure Unit Store} {crashed : ℕ → Prop} (h : tr.all (datedSince tr) = true) :
    NoneCutOff tr c crashed := by
  rintro t key ⟨e, he, hev⟩ -
  have hdated := List.all_eq_true.mp h e he
  simp only [datedSince, hev, bne_self_eq_false, Bool.false_or, List.any_eq_true] at hdated
  obtain ⟨e', he', hmatch⟩ := hdated
  split at hmatch
  · rename_i t' key' seconds r hev'
    simp only [Bool.and_eq_true, beq_iff_eq] at hmatch
    obtain ⟨rfl, rfl⟩ := hmatch
    exact ⟨seconds, e', he', hev'⟩
  · simp at hmatch

/-- A hit whose expiry is not set leaves a counter that never expires. -/
theorem limits_not_hold_sampleCrash : ∃ tr c e, (rateLimiter sampleDeployment).Reach tr c ∧
    (∀ t, ¬ InProgress c t) ∧ counterAt c.store (rlKey "enrol:nid:1") = some e ∧ e.expiresAt = none := by
  obtain ⟨tr, c, hr, hrun⟩ := (rateLimiter sampleDeployment).exists_of_play sampleCrash.reverse
    (p := fun run => allOver run.2 && (counterAt run.2.store (rlKey "enrol:nid:1")).any (·.expiresAt.isNone))
    (by decide +kernel)
  obtain ⟨hover, hlive⟩ := Bool.and_eq_true_iff.mp hrun
  obtain ⟨e, he, hx⟩ := (Option.any_eq_true _ _).mp hlive
  exact ⟨tr, c, e, hr, not_inProgress_of_allOver hover, he, Option.isNone_iff_eq_none.mp hx⟩

/-- The counter of a hit that has returned expires. -/
theorem limits_hold_sampleHit : ∃ tr c e, (rateLimiter sampleDeployment).Reach tr c ∧
    NoneCutOff tr c (fun _ => False) ∧ (∀ t, ¬ InProgress c t) ∧
    counterAt c.store (rlKey "enrol:nid:1") = some e ∧ e.expiresAt ≠ none := by
  obtain ⟨tr, c, hr, hrun⟩ := (rateLimiter sampleDeployment).exists_of_play sampleHit.reverse
    (p := fun run => run.1.all (datedSince run.1) && allOver run.2 &&
      (counterAt run.2.store (rlKey "enrol:nid:1")).isSome) (by decide +kernel)
  simp only [Bool.and_eq_true] at hrun
  obtain ⟨⟨hdated, hover⟩, hlive⟩ := hrun
  obtain ⟨e, he⟩ := Option.isSome_iff_exists.mp hlive
  have hcut : NoneCutOff tr c fun _ => False := noneCutOff_of_all hdated
  have hquiet := not_inProgress_of_allOver hover
  exact ⟨tr, c, e, hr, hcut, hquiet, he, (limits_hold hr _ hcut).1 hquiet _ e he⟩

end SdidBridge
