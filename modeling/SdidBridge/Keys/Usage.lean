import SdidBridge.Keys.Paths
import Mathlib.Algebra.BigOperators.Group.List.Basic
import Mathlib.Algebra.Group.Pi.Basic
import Mathlib.Algebra.Order.Group.Int
import Mathlib.Algebra.Order.Group.Unbundled.Basic
import Mathlib.Algebra.Order.Pi
import Mathlib.Tactic.Abel

/-!
# The accounts of the keys

Each signature and each failure is counted in the tally of its key. A usage summary reads the
tallies, writes them into the audit trail, and takes what it wrote off them; signing goes on in
between. Two summaries of a replica that overlap report the same counts twice. As long as none is
begun while another one is under way, nothing is lost and nothing is reported twice: what was counted
is what was reported and what is pending (`usage_conserved`).
-/

namespace SdidBridge.Keys

open Concurrent Prog

/-! ## The tallies -/

namespace UsageMap

variable {u : UsageMap} {kid k : String} {x : UsageTally}

/-- What is pending of a key. -/
def pending (u : UsageMap) (kid : String) : UsageTally := (u.get kid).getD 0

theorem find_put {es : List (String × UsageTally)} :
    ((put kid x es).find? (·.1 == k)).map (·.2) =
      if k = kid then some x else (es.find? (·.1 == k)).map (·.2) := by
  induction es with
  | nil =>
    unfold put
    by_cases h : k = kid
    · simp [h]
    · simp [h, Ne.symm h]
  | cons e es ih =>
    unfold put
    split_ifs with he hk hk
    · simp [hk]
    · have hne : e.1 ≠ k := fun h => hk (h.symm.trans he)
      simp [Ne.symm hk, hne]
    · have hne : e.1 ≠ k := fun h => he (h.trans hk)
      rw [List.find?_cons_of_neg (by simpa using hne), ih, if_pos hk]
    · by_cases hek : e.1 = k
      · simp [hek]
      · rw [List.find?_cons_of_neg (by simpa using hek), ih, if_neg hk,
          List.find?_cons_of_neg (by simpa using hek)]

theorem get_set : (u.set kid x).get k = if k = kid then some x else u.get k := find_put

theorem get_delete : (u.delete kid).get k = if k = kid then none else u.get k := by
  unfold get delete
  rw [List.find?_filter]
  split_ifs with h
  · subst h
    rw [Option.map_eq_none_iff, List.find?_eq_none]
    simp
  · congr 2
    funext e
    by_cases he : e.1 = k
    · simp [he, h]
    · simp [he]

/-- Counting a field adds one to it, and leaves the other keys alone. -/
theorem pending_tally {f : UsageField} :
    (u.tally kid f).pending k = u.pending k + if k = kid then f.one else 0 := by
  unfold pending tally
  rw [get_set]
  split_ifs with h
  · rw [h]
    rfl
  · rw [add_zero]

/-- What is pending of a key that is counted. -/
theorem get_tally {f : UsageField} (h : u.get k = some x) :
    (u.tally kid f).get k = some (x + if k = kid then f.one else 0) := by
  unfold tally
  rw [get_set]
  split_ifs with hk
  · rw [← hk, h]
    rfl
  · rw [h, add_zero]

theorem get_of_mem (h : (kid, x) ∈ u.entries) : u.get kid = some x := by
  unfold get
  obtain ⟨es, hnodup⟩ := u
  simp only at h ⊢
  induction es with
  | nil => simp at h
  | cons e es ih =>
    rw [List.map_cons, List.nodup_cons] at hnodup
    rcases List.mem_cons.mp h with rfl | h
    · simp
    · have hne : e.1 ≠ kid := fun he => hnodup.1 (he ▸ List.mem_map_of_mem (f := Prod.fst) h)
      rw [List.find?_cons_of_neg (by simpa using hne)]
      exact ih hnodup.2 h

end UsageMap

/-- What a summary reports of a key. -/
def reportedIn (keys : List (String × UsageTally)) (kid : String) : UsageTally :=
  (keys.map fun e => if e.1 = kid then e.2 else 0).sum

theorem reportedIn_cons (e : String × UsageTally) (keys : List (String × UsageTally)) (kid : String) :
    reportedIn (e :: keys) kid = (if e.1 = kid then e.2 else 0) + reportedIn keys kid := by
  simp [reportedIn]

/-- A key that a summary does not name. -/
theorem reportedIn_eq_zero {keys : List (String × UsageTally)} {kid : String}
    (h : kid ∉ keys.map Prod.fst) : reportedIn keys kid = 0 := by
  unfold reportedIn
  refine List.sum_eq_zero fun y hy => ?_
  obtain ⟨e, he, rfl⟩ := List.mem_map.mp hy
  have hne : e.1 ≠ kid := by
    rintro rfl
    exact h (List.mem_map_of_mem he)
  exact if_neg hne

/-- Each key that a summary names has a tally, which is at least what the summary says. -/
def Covered (u : UsageMap) (keys : List (String × UsageTally)) : Prop :=
  (keys.map Prod.fst).Nodup ∧ ∀ e ∈ keys, 0 ≤ e.2 ∧ ∃ x, u.get e.1 = some x ∧ e.2 ≤ x

/-- No tally is negative. -/
def Nonneg (u : UsageMap) : Prop := ∀ kid x, u.get kid = some x → 0 ≤ x

theorem Nonneg.pending {u : UsageMap} (h : Nonneg u) (kid : String) : 0 ≤ u.pending kid := by
  unfold UsageMap.pending
  cases hx : u.get kid with
  | none => exact le_refl 0
  | some x => exact h kid x hx

/-- Taking one key off its tally. -/
theorem subtractOne_spec {u : UsageMap} {e : String × UsageTally} {keys : List (String × UsageTally)}
    (hc : Covered u (e :: keys)) (hn : Nonneg u) :
    (∀ kid, (u.subtractOne e).pending kid = u.pending kid - if e.1 = kid then e.2 else 0) ∧
      Covered (u.subtractOne e) keys ∧ Nonneg (u.subtractOne e) := by
  obtain ⟨hnodup, hall⟩ := hc
  rw [List.map_cons, List.nodup_cons] at hnodup
  obtain ⟨-, x, hx, hle⟩ := hall e List.mem_cons_self
  -- What the tallies are afterwards, whether or not the entry was deleted.
  have hget : ∀ k, k ≠ e.1 → (u.subtractOne e).get k = u.get k := by
    intro k hk
    unfold UsageMap.subtractOne
    simp only [hx]
    split_ifs
    · rw [UsageMap.get_delete, if_neg hk]
    · rw [UsageMap.get_set, if_neg hk]
  have hself : ((u.subtractOne e).get e.1).getD 0 = x - e.2 := by
    unfold UsageMap.subtractOne
    simp only [hx]
    split_ifs with h0
    · rw [UsageMap.get_delete, if_pos rfl, h0]
      rfl
    · rw [UsageMap.get_set, if_pos rfl]
      rfl
  refine ⟨fun kid => ?_, ⟨hnodup.2, fun e' he' => ?_⟩, fun kid y hy => ?_⟩
  · unfold UsageMap.pending
    split_ifs with hk
    · rw [← hk, hself, hx]
      rfl
    · rw [hget kid (Ne.symm hk), sub_zero]
  · have hne : e'.1 ≠ e.1 := fun h => hnodup.1 (h ▸ List.mem_map_of_mem he')
    rw [hget _ hne]
    exact hall e' (List.mem_cons_of_mem _ he')
  · by_cases hk : kid = e.1
    · rw [hk] at hy
      rw [hy, Option.getD_some] at hself
      rw [hself]
      exact sub_nonneg.mpr hle
    · rw [hget kid hk] at hy
      exact hn kid y hy

/-- Taking what was reported off the tallies. -/
theorem subtract_spec {u : UsageMap} {keys : List (String × UsageTally)} (hc : Covered u keys)
    (hn : Nonneg u) :
    (∀ kid, (u.subtract keys).pending kid = u.pending kid - reportedIn keys kid) ∧
      Nonneg (u.subtract keys) := by
  induction keys generalizing u with
  | nil => exact ⟨fun kid => by simp [UsageMap.subtract, reportedIn], hn⟩
  | cons e keys ih =>
    obtain ⟨hpending, hc', hn'⟩ := subtractOne_spec hc hn
    obtain ⟨hrest, hnonneg⟩ := ih hc' hn'
    refine ⟨fun kid => ?_, hnonneg⟩
    calc (u.subtract (e :: keys)).pending kid
        = (u.subtractOne e).pending kid - reportedIn keys kid := hrest kid
      _ = u.pending kid - (if e.1 = kid then e.2 else 0) - reportedIn keys kid := by rw [hpending]
      _ = u.pending kid - reportedIn (e :: keys) kid := by rw [reportedIn_cons, sub_sub]

/-! ## What is counted and what is reported -/

/-- The count of a signature that failed. -/
def failureTally (audited : Bool) : UsageTally :=
  UsageField.failures.one + if audited then 0 else UsageField.suppressedFailureRows.one

/-- What a command of a replica counts for a key. -/
def counts (kid : String) : Act LocalOp LocalOp.Res → UsageTally
  | ⟨.sign k purpose, some .signed⟩ => if kid = k then purpose.field.one else 0
  | ⟨.sign k _, some (.failed audited)⟩ => if kid = k then failureTally audited else 0
  | ⟨.signingFailed k, some audited⟩ => if kid = k then failureTally audited else 0
  | _ => 0

/-- What a step counts for a key of replica `r`. -/
def countedBy (r : ℕ) (kid : String) (e : Step) : UsageTally :=
  match e.event with
  | .act _ ⟨.on n o, a⟩ => if n = r then counts kid ⟨o, a⟩ else 0
  | _ => 0

/-- What a step reports for a key: the summary that replica `r` commits. -/
def reportedBy (r : ℕ) (kid : String) (e : Step) : UsageTally :=
  match e.event with
  | .act _ ⟨.append n (.usageSummary _ _ keys), some _⟩ => if n = r then reportedIn keys kid else 0
  | _ => 0

/-- What replica `r` has counted for a key over a run. -/
def counted (r : ℕ) (tr : List Step) (kid : String) : UsageTally := (tr.map (countedBy r kid)).sum

/-- What the committed summaries of replica `r` report for a key. -/
def reported (r : ℕ) (tr : List Step) (kid : String) : UsageTally := (tr.map (reportedBy r kid)).sum

theorem counted_cons (r : ℕ) (e : Step) (tr : List Step) (kid : String) :
    counted r (e :: tr) kid = countedBy r kid e + counted r tr kid := by
  simp [counted]

theorem reported_cons (r : ℕ) (e : Step) (tr : List Step) (kid : String) :
    reported r (e :: tr) kid = reportedBy r kid e + reported r tr kid := by
  simp [reported]

/-- The tallies have grown by `d`. -/
structure Grows (u u' : UsageMap) (d : String → UsageTally) : Prop where
  pending : ∀ kid, u'.pending kid = u.pending kid + d kid
  keeps : ∀ kid x, u.get kid = some x → ∃ y, u'.get kid = some y ∧ x ≤ y
  nonneg : Nonneg u → Nonneg u'

theorem UsageField.one_nonneg (f : UsageField) : 0 ≤ f.one := by
  intro g
  unfold UsageField.one
  split_ifs
  · exact Int.one_nonneg
  · exact le_refl 0

theorem grows_refl (u : UsageMap) : Grows u u fun _ => 0 :=
  ⟨fun _ => (add_zero _).symm, fun _ x hx => ⟨x, hx, le_refl x⟩, id⟩

theorem grows_tally (u : UsageMap) (k : String) (f : UsageField) :
    Grows u (u.tally k f) fun kid => if kid = k then f.one else 0 := by
  have hone : ∀ kid : String, 0 ≤ (if kid = k then f.one else 0 : UsageTally) := by
    intro kid
    split_ifs
    · exact f.one_nonneg
    · exact le_refl 0
  refine ⟨fun kid => UsageMap.pending_tally, fun kid x hx => ?_, fun hn kid x hx => ?_⟩
  · exact ⟨_, UsageMap.get_tally hx, le_add_of_nonneg_right (hone kid)⟩
  · have hpending : (u.tally k f).pending kid = x := by
      unfold UsageMap.pending
      rw [hx, Option.getD_some]
    rw [← hpending, UsageMap.pending_tally]
    exact add_nonneg (hn.pending kid) (hone kid)

theorem Grows.trans {u u' u'' : UsageMap} {d d' : String → UsageTally} (h : Grows u u' d)
    (h' : Grows u' u'' d') : Grows u u'' fun kid => d kid + d' kid := by
  refine ⟨fun kid => ?_, fun kid x hx => ?_, fun hn => h'.nonneg (h.nonneg hn)⟩
  · rw [h'.pending, h.pending, add_assoc]
  · obtain ⟨y, hy, hxy⟩ := h.keeps kid x hx
    obtain ⟨z, hz, hyz⟩ := h'.keeps kid y hy
    exact ⟨z, hz, hxy.trans hyz⟩

theorem grows_recordSigningFailure (x : Replica) (now : ℕ) (k : String) :
    Grows x.usage (x.recordSigningFailure now k).2.usage fun kid =>
      if kid = k then failureTally (x.recordSigningFailure now k).1 else 0 := by
  by_cases h : now < x.lastFailureAuditAt k + SIGNING_FAILURE_AUDIT_INTERVAL_MS
  · have hrecord : x.recordSigningFailure now k = (false, { x with
        usage := (x.usage.tally k .failures).tally k .suppressedFailureRows }) := if_pos h
    rw [hrecord]
    have hgrows := (grows_tally x.usage k .failures).trans (grows_tally _ k .suppressedFailureRows)
    refine ⟨fun kid => ?_, hgrows.keeps, hgrows.nonneg⟩
    rw [hgrows.pending]
    split_ifs
    · rfl
    · rw [add_zero]
  · have hrecord : x.recordSigningFailure now k = (true, { x with
        usage := x.usage.tally k .failures
        lastFailureAuditAt := Function.update x.lastFailureAuditAt k now }) := if_neg h
    rw [hrecord]
    have hgrows := grows_tally x.usage k .failures
    refine ⟨fun kid => ?_, hgrows.keeps, hgrows.nonneg⟩
    rw [hgrows.pending]
    split_ifs
    · rw [failureTally, if_pos rfl, add_zero]
    · rfl

/-- What a command of a replica does to the tallies: it counts, or it is the end of a summary. -/
theorem exec_usage {i : Input} {now : ℕ} {x x' : Replica} {o : LocalOp} {a : Option o.Res}
    (hx : o.exec i now x = some (a, x')) (ho : ∀ keys, o ≠ .subtract keys) :
    Grows x.usage x'.usage fun kid => counts kid ⟨o, a⟩ := by
  cases o with
  | subtract keys => exact absurd rfl (ho keys)
  | sign k purpose =>
    simp only [LocalOp.exec] at hx
    split_ifs at hx
    · split at hx
      · simp only [Option.some.injEq, Prod.mk.injEq] at hx
        obtain ⟨rfl, rfl⟩ := hx
        exact grows_tally x.usage k purpose.field
      · simp only [Option.some.injEq, Prod.mk.injEq] at hx
        obtain ⟨rfl, rfl⟩ := hx
        exact grows_recordSigningFailure x now k
      · simp at hx
    · simp only [Option.some.injEq, Prod.mk.injEq] at hx
      obtain ⟨rfl, rfl⟩ := hx
      exact grows_refl _
  | signingFailed k =>
    simp only [LocalOp.exec, Option.some.injEq, Prod.mk.injEq] at hx
    obtain ⟨rfl, rfl⟩ := hx
    exact grows_recordSigningFailure x now k
  | noteHealth healthy =>
    simp only [LocalOp.exec] at hx
    split_ifs at hx <;> simp only [Option.some.injEq, Prod.mk.injEq] at hx <;>
      obtain ⟨rfl, rfl⟩ := hx <;> exact grows_refl _
  | _ =>
    simp only [LocalOp.exec, Option.some.injEq, Prod.mk.injEq] at hx
    obtain ⟨rfl, rfl⟩ := hx
    exact grows_refl _

/-! ## The summary of a call -/

/-- A summary that is under way: what it reports, and whether that is written. -/
structure Flush where
  /-- What it reports. -/
  keys : List (String × UsageTally)
  /-- Whether its row is committed. -/
  written : Bool

/-- The summary of replica `r` that a call has under way after its commands `h`, newest first. -/
def openFlush (r : ℕ) : List Cmd → Option Flush
  | [] => none
  | ⟨.on n .snapshot, a⟩ :: h =>
    if n = r then (a.filter (· ≠ [])).map fun keys => ⟨keys, false⟩ else openFlush r h
  | ⟨.append n (.usageSummary _ _ _), some _⟩ :: h =>
    if n = r then (openFlush r h).map fun f => { f with written := true } else openFlush r h
  | ⟨.append n (.usageSummary _ _ _), none⟩ :: h => if n = r then none else openFlush r h
  | ⟨.on n (.subtract _), _⟩ :: h => if n = r then none else openFlush r h
  | _ :: h => openFlush r h

/-- What a call that has a summary under way issues next; the other calls write none. -/
def InFlush (r : ℕ) (h : List Cmd) (o : Op) : Prop :=
  match openFlush r h with
  | some ⟨keys, false⟩ => ∃ reason windowSeconds, o = .append r (.usageSummary reason windowSeconds keys)
  | some ⟨keys, true⟩ => o = .on r (.subtract keys)
  | none => (∀ reason windowSeconds keys, o ≠ .append r (.usageSummary reason windowSeconds keys)) ∧
      ∀ keys, o ≠ .on r (.subtract keys)

/-- Between its parts a call has no summary under way. -/
def Flushed (r : ℕ) (h : List Cmd) : Prop := openFlush r h = none

variable {r : ℕ}

theorem inFlush_of_flushed {h : List Cmd} {o : Op} (hh : Flushed r h)
    (happend : ∀ reason windowSeconds keys, o ≠ .append r (.usageSummary reason windowSeconds keys))
    (hsubtract : ∀ keys, o ≠ .on r (.subtract keys)) : InFlush r h o := by
  unfold InFlush
  rw [show openFlush r h = none from hh]
  exact ⟨happend, hsubtract⟩

/-- A command that is of no summary. -/
theorem flushed_cons {h : List Cmd} {o : Op} {a : Option o.Res} (hh : Flushed r h)
    (hsnapshot : o ≠ .on r .snapshot) : Flushed r (⟨o, a⟩ :: h) := by
  unfold Flushed at *
  cases o with
  | on n k =>
    cases k with
    | snapshot =>
      have hn : n ≠ r := by
        rintro rfl
        exact hsnapshot rfl
      rw [openFlush, if_neg hn, hh]
    | subtract keys =>
      unfold openFlush
      split_ifs
      · rfl
      · exact hh
    | _ => exact hh
  | append n e =>
    cases e with
    | usageSummary reason windowSeconds keys =>
      cases a <;> unfold openFlush <;> simp [hh]
    | _ => exact hh
  | _ => exact hh

/-- A command of a part other than the summary. -/
theorem flushed_of_other {h : List Cmd} {o : Op} (hh : Flushed r h)
    (happend : ∀ reason windowSeconds keys, o ≠ .append r (.usageSummary reason windowSeconds keys))
    (hsubtract : ∀ keys, o ≠ .on r (.subtract keys)) (hsnapshot : o ≠ .on r .snapshot) :
    InFlush r h o ∧ ∀ a, Flushed r (⟨o, a⟩ :: h) :=
  ⟨inFlush_of_flushed hh happend hsubtract, fun _ => flushed_cons hh hsnapshot⟩

/-- The commands of a summary of another replica, or of one that found nothing to report. -/
theorem along_flushUsageSummary {C : KeysConfig} {n : ℕ} {reason : FlushReason} {h : List Cmd}
    (hh : Flushed r h) :
    Along (InFlush r) (fun h' _ => Flushed r h') h (flushUsageSummary C n reason) := by
  by_cases hn : n = r
  swap
  · -- A summary of another replica is none of this one.
    have honly : Only (fun o => (∀ k, o ≠ .on r k) ∧ ∀ e, o ≠ .append r e)
        (flushUsageSummary C n reason) :=
      only_flushUsageSummary C reason (by simp [hn]) (by simp [hn])
    refine honly.along (fun h o hh ho => ?_) hh
    exact flushed_of_other hh (fun _ _ _ => ho.2 _) (fun _ => ho.1 _) (ho.1 _)
  subst hn
  refine along_perform_bind.mpr ⟨inFlush_of_flushed hh (by simp) (by simp), ?_, fun keys => ?_⟩
  · simp [Flushed, openFlush]
  rw [along_onlyIf]
  refine ⟨fun hkeys => ?_, fun hkeys => ?_⟩
  swap
  · simp only [not_not] at hkeys
    simp [Flushed, openFlush, hkeys]
  -- The row is written, or it is not.
  have hopen : openFlush n (⟨.on n .snapshot, some keys⟩ :: h) = some ⟨keys, false⟩ := by
    simp [openFlush, Option.filter, hkeys]
  refine Along.bind (Q := fun written h' => if written = true then
    openFlush n h' = some ⟨keys, true⟩ else Flushed n h') ?_ fun written h' hw => ?_
  · rw [along_recover]
    refine along_perform_bind.mpr ⟨?_, ?_, fun _ => ?_⟩
    · unfold InFlush
      rw [hopen]
      exact ⟨_, _, rfl⟩
    · have hfailed : Flushed n (⟨.append n (.usageSummary reason C.KEY_USAGE_SUMMARY_INTERVAL_SECONDS
          keys), none⟩ :: ⟨.on n .snapshot, some keys⟩ :: h) := by
        simp [Flushed, openFlush]
      refine along_perform_bind.mpr ⟨inFlush_of_flushed hfailed (by simp) (by simp), ?_, fun stop => ?_⟩
      · exact flushed_cons hfailed (by simp)
      · rw [along_bind, along_throwIf]
        have hend := fun a => flushed_cons (o := .on n .isShuttingDown) (a := a) hfailed (by simp)
        refine ⟨fun _ => hend _, fun _ => ?_⟩
        simpa using hend _
    · rw [along_pure]
      dsimp only
      rw [if_pos rfl, openFlush, if_pos rfl, hopen, Option.map_some]
  · rw [along_onlyIf]
    refine ⟨fun hwritten => ?_, fun hwritten => ?_⟩
    · rw [if_pos hwritten] at hw
      refine (along_perform _ _).mpr ⟨?_, ?_, fun _ => ?_⟩
      · unfold InFlush
        rw [hw]
      · simp [Flushed, openFlush]
      · simp [Flushed, openFlush]
    · rwa [if_neg hwritten] at hw

/-- What holds along every call. -/
theorem along_inFlush {C : KeysConfig} (q : Request) :
    Along (InFlush r) (fun h _ => Flushed r h) [] ((replicas C).handler q) := by
  -- A part without commands of a summary leaves none under way.
  have hother : ∀ {α : Type} {p : Call α}, Only (fun o =>
      (∀ reason windowSeconds keys, o ≠ .append r (.usageSummary reason windowSeconds keys)) ∧
        (∀ keys, o ≠ .on r (.subtract keys)) ∧ o ≠ .on r .snapshot) p →
      Keeps (InFlush r) (Flushed r) p :=
    fun hp h hh => hp.along (fun h o hh ho => flushed_of_other hh ho.1 ho.2.1 ho.2.2) hh
  refine along_handler ?_ (fun n => hother ?_)
    (fun C n reason h hh => along_flushUsageSummary hh) (hother ?_) C rfl q fun n _ => hother ?_
  · intro h o hh ho
    refine flushed_of_other hh ?_ ?_ ?_
    · rintro reason windowSeconds keys rfl
      exact ho
    · rintro keys rfl
      exact ho
    · rintro rfl
      exact ho
  · exact (only_perform _ (by simp)).bind fun _ => (only_perform _ (by simp)).bind fun _ => only_pure _
  · exact only_rotationTransaction (by simp) (by simp)
  · exact only_perform _ (by simp)

/-! ## The balance -/

/-- What the summary under way has reported and not yet taken off the tallies. -/
def owed (kid : String) : Option (ℕ × Flush) → UsageTally
  | some (_, ⟨keys, true⟩) => reportedIn keys kid
  | _ => 0

/-- The accounts of replica `r` after a run: the one summary under way, and what it still owes. -/
structure Balanced (r : ℕ) (tr : List Step) (current : Option (ℕ × Flush)) (u : UsageMap) : Prop where
  conserved : ∀ kid, counted r tr kid + owed kid current = reported r tr kid + u.pending kid
  nonneg : Nonneg u
  covered : ∀ t f, current = some (t, f) → Covered u f.keys
  calls : ∀ t f, openFlush r (own t tr) = some f ↔ current = some (t, f)

section Balanced

variable {tr : List Step} {current : Option (ℕ × Flush)} {u u' : UsageMap} {e : Step} {s : Store} {t : ℕ}
  {a : Cmd} {keys : List (String × UsageTally)}

/-- A step that reports nothing, and begins and ends no summary. -/
theorem Balanced.grow (hb : Balanced r tr current u)
    (hgrows : Grows u u' fun kid => countedBy r kid e) (hreport : ∀ kid, reportedBy r kid e = 0)
    (hcalls : ∀ t, openFlush r (own t (e :: tr)) = openFlush r (own t tr)) :
    Balanced r (e :: tr) current u' := by
  refine ⟨fun kid => ?_, hgrows.nonneg hb.nonneg, fun t f hf => ?_, fun t f => ?_⟩
  · rw [counted_cons, reported_cons, hreport, hgrows.pending, zero_add]
    calc countedBy r kid e + counted r tr kid + owed kid current
        = countedBy r kid e + (reported r tr kid + u.pending kid) := by rw [add_assoc, hb.conserved]
      _ = reported r tr kid + (u.pending kid + countedBy r kid e) := by abel
  · obtain ⟨hnodup, hall⟩ := hb.covered t f hf
    refine ⟨hnodup, fun x hx => ?_⟩
    obtain ⟨h0, y, hy, hle⟩ := hall x hx
    obtain ⟨z, hz, hyz⟩ := hgrows.keeps _ _ hy
    exact ⟨h0, z, hz, hle.trans hyz⟩
  · rw [hcalls]
    exact hb.calls t f

/-- The calls with a summary under way after a step of call `t`. -/
theorem calls_moved {current' : Option (ℕ × Flush)}
    (hcalls : ∀ v f, openFlush r (own v tr) = some f ↔ current = some (v, f))
    (hold : ∀ v f, current = some (v, f) → v = t)
    (hnew : ∀ v f, current' = some (v, f) ↔ v = t ∧ openFlush r (a :: own t tr) = some f) (v : ℕ)
    (f : Flush) : openFlush r (own v (⟨s, .act t a⟩ :: tr)) = some f ↔ current' = some (v, f) := by
  rw [hnew]
  by_cases hv : v = t
  · subst hv
    rw [Machine.own_cons_self]
    simp
  · rw [Machine.own_cons_of_ne (by simp [Ne.symm hv]), hcalls]
    exact ⟨fun h => absurd (hold v f h) hv, fun h => absurd h.1 hv⟩

/-- A summary is begun while none is under way. -/
theorem Balanced.begun (hb : Balanced r tr none u) (hkeys : u.entries ≠ []) :
    Balanced r (⟨s, .act t ⟨.on r .snapshot, some u.entries⟩⟩ :: tr)
      (some (t, ⟨u.entries, false⟩)) u := by
  refine ⟨fun kid => ?_, hb.nonneg, ?_, ?_⟩
  · rw [counted_cons, reported_cons]
    simpa [countedBy, counts, reportedBy, owed] using hb.conserved kid
  · rintro t' f ⟨⟩
    refine ⟨u.nodup, fun x hx => ?_⟩
    have hget := UsageMap.get_of_mem (show (x.1, x.2) ∈ u.entries from hx)
    exact ⟨hb.nonneg _ _ hget, x.2, hget, le_refl _⟩
  · refine calls_moved hb.calls (by simp) fun v f => ?_
    simp [openFlush, Option.filter, hkeys, eq_comm]

/-- The row of a summary is committed. -/
theorem Balanced.wrote {reason : FlushReason} {windowSeconds : ℕ}
    (hb : Balanced r tr (some (t, ⟨keys, false⟩)) u) :
    Balanced r (⟨s, .act t ⟨.append r (.usageSummary reason windowSeconds keys), some ()⟩⟩ :: tr)
      (some (t, ⟨keys, true⟩)) u := by
  have hopen : openFlush r (own t tr) = some ⟨keys, false⟩ := (hb.calls t _).mpr rfl
  refine ⟨fun kid => ?_, hb.nonneg, ?_, ?_⟩
  · have hold := hb.conserved kid
    simp only [owed, add_zero] at hold
    rw [counted_cons, reported_cons]
    simp only [countedBy, reportedBy, owed, if_true, zero_add]
    rw [hold]
    abel
  · rintro t' f ⟨⟩
    exact hb.covered t ⟨keys, false⟩ rfl
  · refine calls_moved hb.calls (fun v f h => ?_) fun v f => ?_
    · simp only [Option.some.injEq, Prod.mk.injEq] at h
      exact h.1.symm
    · simp [openFlush, hopen, eq_comm]

/-- The row of a summary is not written. -/
theorem Balanced.dropped {reason : FlushReason} {windowSeconds : ℕ}
    (hb : Balanced r tr (some (t, ⟨keys, false⟩)) u) :
    Balanced r (⟨s, .act t ⟨.append r (.usageSummary reason windowSeconds keys), none⟩⟩ :: tr)
      none u := by
  refine ⟨fun kid => ?_, hb.nonneg, by simp, ?_⟩
  · rw [counted_cons, reported_cons]
    simpa [countedBy, reportedBy, owed] using hb.conserved kid
  · refine calls_moved hb.calls (fun v f h => ?_) fun v f => ?_
    · simp only [Option.some.injEq, Prod.mk.injEq] at h
      exact h.1.symm
    · simp [openFlush]

/-- What was reported is taken off the tallies. -/
theorem Balanced.settled {a : Option Unit} (hb : Balanced r tr (some (t, ⟨keys, true⟩)) u) :
    Balanced r (⟨s, .act t ⟨.on r (.subtract keys), a⟩⟩ :: tr) none (u.subtract keys) := by
  obtain ⟨hpending, hnonneg⟩ := subtract_spec (hb.covered t _ rfl) hb.nonneg
  refine ⟨fun kid => ?_, hnonneg, by simp, ?_⟩
  · have hold := hb.conserved kid
    simp only [owed] at hold
    rw [counted_cons, reported_cons, hpending]
    simp only [countedBy, counts, reportedBy, owed, if_true, zero_add, add_zero]
    rw [← add_sub_assoc, ← hold]
    abel
  · refine calls_moved hb.calls (fun v f h => ?_) fun v f => ?_
    · simp only [Option.some.injEq, Prod.mk.injEq] at h
      exact h.1.symm
    · simp [openFlush]

end Balanced

variable {C : KeysConfig} {tr : List Step} {c : State}

/-- No summary of replica `r` was begun while another one was under way. -/
def SummariesAlone (r : ℕ) (tr : List Step) : Prop :=
  ∀ l₁ s t keys l₂, tr = l₁ ++ ⟨s, .act t ⟨.on r .snapshot, some keys⟩⟩ :: l₂ → keys ≠ [] →
    ∀ u, openFlush r (own u l₂) = none

/-- Call `t` has a summary of replica `r` under way: it is about to write it, or to take what it wrote
off the tallies. -/
def Flushing (r : ℕ) (c : State) (t : ℕ) : Prop :=
  ∃ o k, c.calls[t]? = some (.call o k) ∧
    ((∃ reason windowSeconds keys, o = .append r (.usageSummary reason windowSeconds keys)) ∨
      ∃ keys, o = .on r (.subtract keys))

/-- What a step does to the tallies of a replica. -/
theorem leads_usage {e : Step} {s : Store} (hl : (replicas C).Leads e s)
    (hno : ∀ t keys a, e.event ≠ .act t ⟨.on r (.subtract keys), a⟩) :
    Grows (e.before.replica r).usage (s.replica r).usage fun kid => countedBy r kid e := by
  rcases (replicaObject C r).leads hl with ⟨t, ⟨o, a⟩, he, hst⟩ | ⟨hview, hsame⟩
  · have hev : e.event = .act t ⟨.on r o, a⟩ := he
    have hcount : ∀ kid, countedBy r kid e = counts kid ⟨o, a⟩ := by
      intro kid
      simp [countedBy, hev]
    simp only [hcount]
    rcases hst with ⟨i, now, hx⟩ | ⟨hnone, hsame⟩
    · refine exec_usage hx ?_
      rintro keys rfl
      exact hno t keys a hev
    · -- A command that fails counts nothing.
      simp only at hnone
      subst hnone
      have hsame' : s.replica r = e.before.replica r := hsame
      have hzero : ∀ kid, counts kid ⟨o, none⟩ = 0 := by
        intro kid
        cases o <;> rfl
      simp only [hzero, hsame']
      exact grows_refl _
  · have hsame' : s.replica r = e.before.replica r := hsame
    have hzero : ∀ kid, countedBy r kid e = 0 := by
      intro kid
      unfold countedBy
      split
      · rename_i t n o a hev
        split_ifs with hn
        · subst hn
          simpa [replicaObject] using hview t _ hev
        · rfl
      · rfl
    simp only [hzero, hsame']
    exact grows_refl _

/-- A step that writes no summary of the replica reports nothing. -/
theorem reportedBy_eq_zero {e : Step} {kid : String}
    (hno : ∀ t reason windowSeconds keys a,
      e.event ≠ .act t ⟨.append r (.usageSummary reason windowSeconds keys), a⟩) :
    reportedBy r kid e = 0 := by
  unfold reportedBy
  split
  · rename_i t n reason windowSeconds keys a hev
    split_ifs with hn
    · subst hn
      exact absurd hev (hno t reason windowSeconds keys _)
    · rfl
  · rfl

/-- The accounts are balanced in every run without overlapping summaries. -/
theorem balanced (hr : (replicas C).Reach tr c) (halone : SummariesAlone r tr) :
    ∃ current, Balanced r tr current (c.store.replica r).usage := by
  induction hr with
  | init =>
    refine ⟨none, fun kid => ?_, fun kid x hx => ?_, by simp, by simp [own, openFlush]⟩
    · simp [counted, reported, owed, UsageMap.pending, replicas, Replica.new, UsageMap.empty,
        UsageMap.get]
    · simp [replicas, Replica.new, UsageMap.empty, UsageMap.get] at hx
  | @step tr c m e c' hr hs ih =>
    have halone' : SummariesAlone r tr := by
      rintro l₁ s t keys l₂ rfl
      exact halone (⟨c.store, e⟩ :: l₁) s t keys l₂ rfl
    obtain ⟨current, hb⟩ := ih halone'
    have hlead := Machine.step_leads hs
    rcases Machine.step_calls hs with ⟨q, rfl, -⟩ | ⟨t, o, k, a, rfl, hcall, -⟩ | ⟨rfl, -⟩
    · refine ⟨current, hb.grow (leads_usage hlead (by simp)) (fun kid => rfl) fun u => ?_⟩
      rw [Machine.own_cons_of_ne (by simp)]
    · obtain ⟨q, -, hres⟩ := hr.residue hcall
      have hin : InFlush r (own t tr) o := (hres.along (along_inFlush q)).1
      unfold InFlush at hin
      split at hin
      · -- The call has begun a summary, and writes it or fails to.
        rename_i keys hopen
        obtain ⟨reason, windowSeconds, rfl⟩ := hin
        have hcur : current = some (t, ⟨keys, false⟩) := (hb.calls t _).mp hopen
        subst hcur
        have husage : c'.store.replica r = c.store.replica r := by
          rcases (replicaObject C r).leads hlead with ⟨_, _, he, -⟩ | ⟨-, hsame⟩
          · simp [replicaObject] at he
          · exact hsame
        rw [husage]
        cases a with
        | none => exact ⟨none, hb.dropped⟩
        | some x => exact ⟨_, hb.wrote⟩
      · -- The call has written a summary, and takes it off the tallies.
        rename_i keys hopen
        subst hin
        have hcur : current = some (t, ⟨keys, true⟩) := (hb.calls t _).mp hopen
        subst hcur
        have husage : (c'.store.replica r).usage = (c.store.replica r).usage.subtract keys := by
          rcases hlead with ⟨i, hx⟩ | ⟨-, hfallible, -⟩
          · obtain ⟨hx, -⟩ := exec_on hx
            simp only [LocalOp.exec, Option.some.injEq, Prod.mk.injEq] at hx
            rw [← hx.2]
          · simp [replicas, Op.fallible] at hfallible
        rw [husage]
        exact ⟨none, hb.settled⟩
      · rename_i hopen
        obtain ⟨happend, hsubtract⟩ := hin
        have hgrows := leads_usage (r := r) hlead (by
          intro u keys b hev
          cases hev
          exact hsubtract keys rfl)
        have hreport : ∀ kid, reportedBy r kid ⟨c.store, .act t ⟨o, a⟩⟩ = 0 := by
          refine fun kid => reportedBy_eq_zero ?_
          intro u reason windowSeconds keys b hev
          cases hev
          exact happend reason windowSeconds keys rfl
        by_cases hsnapshot : o = .on r .snapshot
        · -- The call reads the tallies: a summary begins if there are any.
          subst hsnapshot
          obtain ⟨rfl, husage⟩ : a = some (c.store.replica r).usage.entries ∧
              c'.store.replica r = c.store.replica r := by
            rcases hlead with ⟨i, hx⟩ | ⟨-, hfallible, -⟩
            · obtain ⟨hx, -⟩ := exec_on hx
              simp only [LocalOp.exec, Option.some.injEq, Prod.mk.injEq] at hx
              exact ⟨hx.1.symm, hx.2.symm⟩
            · simp [replicas, Op.fallible] at hfallible
          by_cases hkeys : (c.store.replica r).usage.entries = []
          · refine ⟨current, hb.grow hgrows hreport fun u => ?_⟩
            by_cases hu : u = t
            · subst hu
              rw [Machine.own_cons_self, hopen]
              simp [openFlush, hkeys]
            · rw [Machine.own_cons_of_ne (by simp [Ne.symm hu])]
          · have hfree : current = none := by
              rw [Option.eq_none_iff_forall_ne_some]
              rintro ⟨v, f⟩ hcur
              have hnone := halone [] c.store t _ tr rfl hkeys v
              rw [(hb.calls v f).mpr hcur] at hnone
              simp at hnone
            subst hfree
            rw [husage]
            exact ⟨_, hb.begun hkeys⟩
        · refine ⟨current, hb.grow hgrows hreport fun u => ?_⟩
          by_cases hu : u = t
          · subst hu
            rw [Machine.own_cons_self, flushed_cons hopen hsnapshot, hopen]
          · rw [Machine.own_cons_of_ne (by simp [Ne.symm hu])]
    · refine ⟨current, hb.grow (leads_usage hlead (by simp)) (fun kid => rfl) fun u => ?_⟩
      rw [Machine.own_cons_of_ne (by simp)]

/-- What a committed summary reports is not negative. -/
theorem reported_nonneg (hr : (replicas C).Reach tr c) (halone : SummariesAlone r tr) {t : ℕ}
    {reason : FlushReason} {windowSeconds : ℕ} {keys : List (String × UsageTally)} {a : Option Unit}
    (hd : Did tr t ⟨.append r (.usageSummary reason windowSeconds keys), a⟩) :
    ∀ e ∈ keys, 0 ≤ e.2 := by
  obtain ⟨l₁, s, l₂, rfl⟩ := hd.split
  obtain ⟨c₀, m, c₁, hr₀, -, hs⟩ := hr.entry
  have halone₀ : SummariesAlone r l₂ := by
    rintro k₁ s' t' keys' k₂ rfl
    exact halone (l₁ ++ ⟨s, .act t _⟩ :: k₁) s' t' keys' k₂ (by rw [List.append_assoc]; rfl)
  obtain ⟨current, hb⟩ := balanced hr₀ halone₀
  obtain ⟨q, k, -, hres⟩ := hr.act_residue
  have hin : InFlush r (own t l₂) (.append r (.usageSummary reason windowSeconds keys)) :=
    (hres.along (along_inFlush q)).1
  unfold InFlush at hin
  split at hin
  · rename_i keys' hopen
    obtain ⟨reason', windowSeconds', heq⟩ := hin
    cases heq
    have hcur := (hb.calls t _).mp hopen
    exact fun e he => ((hb.covered t _ hcur).2 e he).1
  · simp at hin
  · exact absurd rfl (hin.1 reason windowSeconds keys)

/-- Key-usage accounting. In every run without overlapping summaries of a replica, whenever none of its
summaries is under way, what it has counted for a key is what its committed summaries report and what
is pending, and none of these is negative. -/
theorem usage_conserved (hr : (replicas C).Reach tr c) (halone : SummariesAlone r tr)
    (hidle : ∀ t, ¬ Flushing r c t) :
    (∀ kid, counted r tr kid = reported r tr kid + (c.store.replica r).usage.pending kid) ∧
    (∀ kid, 0 ≤ (c.store.replica r).usage.pending kid) ∧
    (∀ t reason windowSeconds keys,
      Did tr t ⟨.append r (.usageSummary reason windowSeconds keys), some ()⟩ → ∀ e ∈ keys, 0 ≤ e.2) := by
  obtain ⟨current, hb⟩ := balanced hr halone
  refine ⟨fun kid => ?_, hb.nonneg.pending, fun t reason windowSeconds keys hd =>
    reported_nonneg hr halone hd⟩
  have hnone : current = none := by
    rw [Option.eq_none_iff_forall_ne_some]
    rintro ⟨t, f⟩ hcur
    have hopen := (hb.calls t f).mpr hcur
    -- A call that has a summary under way is about to write it or to take it off.
    have hlt : t < c.calls.length := by
      obtain ⟨a, ha⟩ : ∃ a, a ∈ own t tr := by
        refine List.exists_mem_of_ne_nil _ fun hnil => ?_
        rw [hnil] at hopen
        simp [openFlush] at hopen
      exact hr.did_lt (mem_own.mp ha)
    obtain ⟨p, hp⟩ : ∃ p, c.calls[t]? = some p := ⟨_, List.getElem?_eq_getElem hlt⟩
    obtain ⟨q, -, hres⟩ := hr.residue hp
    have hpath := hres.along (along_inFlush (r := r) q)
    cases p with
    | ret v => simp [Flushed, hopen] at hpath
    | raise e => simp [Flushed, hopen] at hpath
    | call o k =>
      have hin := hpath.1
      obtain ⟨keys, written⟩ := f
      unfold InFlush at hin
      rw [hopen] at hin
      cases written with
      | false =>
        obtain ⟨reason, windowSeconds, rfl⟩ := hin
        exact hidle t ⟨_, k, hp, .inl ⟨reason, windowSeconds, keys, rfl⟩⟩
      | true => exact hidle t ⟨o, k, hp, .inr ⟨keys, hin⟩⟩
  have hconserved := hb.conserved kid
  rw [hnone] at hconserved
  simpa [owed] using hconserved

/-! ## One summary and two -/

/-- Whether a command begins a summary of replica `r`. -/
def begins (r : ℕ) : Cmd → Bool
  | ⟨.on n .snapshot, some keys⟩ => n == r && !keys.isEmpty
  | _ => false

/-- Whether a step begins a summary of replica `r`. -/
def beginsIn (r : ℕ) (e : Step) : Bool :=
  match e.event with
  | .act _ a => begins r a
  | _ => false

theorem openFlush_eq_none {h : List Cmd} (hno : ∀ a ∈ h, begins r a = false) :
    openFlush r h = none := by
  induction h with
  | nil => rfl
  | cons a h ih =>
    have hold : openFlush r h = none := ih fun a ha => hno a (List.mem_cons_of_mem _ ha)
    obtain ⟨o, x⟩ := a
    by_cases ho : o = .on r .snapshot
    · subst ho
      have hnow := hno _ List.mem_cons_self
      cases x with
      | none => simp [openFlush]
      | some keys =>
        have hkeys : keys = [] := by simpa [begins] using hnow
        simp [openFlush, hkeys]
    · exact flushed_cons hold ho

/-- One summary overlaps with none. -/
theorem summariesAlone_of_countP (h : tr.countP (beginsIn r) ≤ 1) : SummariesAlone r tr := by
  rintro l₁ s t keys l₂ rfl hkeys u
  have hhere : beginsIn r ⟨s, .act t ⟨.on r .snapshot, some keys⟩⟩ = true := by
    simpa [beginsIn, begins] using hkeys
  rw [List.countP_append, List.countP_cons_of_pos hhere] at h
  have hzero : l₂.countP (beginsIn r) = 0 := by omega
  refine openFlush_eq_none fun a ha => ?_
  obtain ⟨e, he, hev⟩ := mem_own.mp ha
  have hno := List.countP_eq_zero.mp hzero e he
  simpa [beginsIn, hev] using hno

/-- Whether a call is about to write a summary of replica `r`, or to take it off the tallies. -/
def isFlushing (r : ℕ) : Call Reply → Bool
  | .call (.append n (.usageSummary _ _ _)) _ => n == r
  | .call (.on n (.subtract _)) _ => n == r
  | _ => false

theorem not_flushing (h : c.calls.all (fun p => !isFlushing r p) = true) (t : ℕ) :
    ¬ Flushing r c t := by
  rintro ⟨o, k, hcall, ho⟩
  have hno := List.all_eq_true.mp h _ (List.mem_of_getElem? hcall)
  rcases ho with ⟨reason, windowSeconds, keys, rfl⟩ | ⟨keys, rfl⟩ <;> simp [isFlushing] at hno

/-- Replica 0 boots, and call 1 signs a token with its first key. -/
def sampleSigned : List (Move Request Input) :=
  sampleFirstBoot 0 0 "first" ++ goes 0 (List.replicate 5 .unit) ++
    .arrive (.sign 0 [] "audience" 60 none) :: goes 1 [.unit, .text "jti", .unit, .signature true]

/-- The timer's summary and the one of a rotation overlap. -/
def sampleOverlap : List (Move Request Input) :=
  sampleSigned ++ [.arrive (.interval 0), .go 2 .unit, .arrive (.rotate 0 0), .go 3 .unit,
    .go 2 .unit, .go 3 .unit, .go 2 .unit, .go 3 .unit]

/-- The timer's summary is written, and another token is signed. -/
def sampleSummary : List (Move Request Input) :=
  sampleSigned ++ .arrive (.interval 0) :: goes 2 [.unit, .unit, .unit] ++
    .arrive (.sign 0 [] "audience" 60 none) :: goes 3 [.unit, .text "jti2", .unit, .signature true]

/-- Two summaries that overlap report one signature twice. -/
theorem usage_not_conserved_sampleOverlap :
    ∃ tr c, (replicas sampleConfig).Reach tr c ∧ (∀ t, ¬ Flushing 0 c t) ∧
      counted 0 tr "first" .signatures = 1 ∧ reported 0 tr "first" .signatures = 2 ∧
      (c.store.replica 0).usage.pending "first" .signatures = 0 := by
  obtain ⟨tr, c, hr, hp⟩ := (replicas sampleConfig).exists_of_play sampleOverlap.reverse
    (p := fun x => x.2.calls.all (fun p => !isFlushing 0 p) &&
      decide (counted 0 x.1 "first" .signatures = 1) &&
      decide (reported 0 x.1 "first" .signatures = 2) &&
      decide ((x.2.store.replica 0).usage.pending "first" .signatures = 0)) (by decide +kernel)
  simp only [Bool.and_eq_true, decide_eq_true_eq] at hp
  obtain ⟨⟨⟨hidle, hcounted⟩, hreported⟩, hpending⟩ := hp
  exact ⟨tr, c, hr, not_flushing hidle, hcounted, hreported, hpending⟩

/-- One signature is reported, and one is pending. -/
theorem usage_conserved_sampleSummary :
    ∃ tr c, (replicas sampleConfig).Reach tr c ∧ counted 0 tr "first" .signatures = 2 ∧
      counted 0 tr "first" = reported 0 tr "first" + (c.store.replica 0).usage.pending "first" := by
  obtain ⟨tr, c, hr, hp⟩ := (replicas sampleConfig).exists_of_play sampleSummary.reverse
    (p := fun x => x.2.calls.all (fun p => !isFlushing 0 p) &&
      decide (x.1.countP (beginsIn 0) ≤ 1) &&
      decide (counted 0 x.1 "first" .signatures = 2)) (by decide +kernel)
  simp only [Bool.and_eq_true, decide_eq_true_eq] at hp
  obtain ⟨⟨hidle, hone⟩, hcounted⟩ := hp
  exact ⟨tr, c, hr, hcounted,
    (usage_conserved hr (summariesAlone_of_countP hone) (not_flushing hidle)).1 "first"⟩

end SdidBridge.Keys
