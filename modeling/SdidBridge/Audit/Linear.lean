import Mathlib.Data.List.Chain
import SdidBridge.Audit.Completeness

/-!
# Concurrent appends

The transaction of `append` statement by statement, for any number of callers at once: begin, take
the advisory lock, read the hash of the last row, insert, and commit, or roll back anywhere. The
lock is held until commit or rollback. A statement sees the rows that are committed when it starts.
The identity column gives out its numbers in order, and a number that a rolled-back insert has drawn
is lost.

One invariant carries the proof. Whoever has read the last hash holds the lock, so that nobody else
is between the lock and the commit, the hash that was read is still the last one, and a number drawn
there is larger than that of every committed row. The order of commits is therefore the order of the
numbers, and a commit appends to the chain.
-/

namespace SdidBridge

/-- Where a call of `append` stands in its transaction. -/
inductive Phase where
  /-- The transaction has begun, and waits for the lock. -/
  | begun
  /-- The lock is held. -/
  | locked
  /-- The last hash has been read. -/
  | read (prevHash : String)
  /-- The row has been inserted, and is not committed yet. -/
  | inserted (row : AuditRow)
  /-- The transaction has been committed or rolled back. -/
  | finished

/-- Whether a phase lies between the lock and the end of the transaction. -/
def Phase.locking : Phase → Bool
  | .begun => false
  | .locked => true
  | .read _ => true
  | .inserted _ => true
  | .finished => false

/-- The database as the callers see it, and where each of them stands. -/
structure AppendState where
  /-- The committed rows, in the order of their commits. -/
  committed : List AuditRow
  /-- The next number of the identity column. -/
  nextSeq : ℕ
  /-- Who holds the advisory lock. -/
  holder : Option ℕ
  /-- The calls of `append`, by their number. -/
  sessions : List (AppendCall × Phase)

/-- A step of a call. -/
inductive AppendMove where
  /-- A call begins its transaction. -/
  | begin (call : AppendCall)
  /-- Call `n` takes the lock. -/
  | lock (n : ℕ)
  /-- Call `n` reads the last hash. -/
  | read (n : ℕ)
  /-- Call `n` inserts its row. -/
  | insert (n : ℕ)
  /-- Call `n` commits. -/
  | commit (n : ℕ)
  /-- Call `n` rolls back, or its connection is lost. -/
  | rollback (n : ℕ)
  /-- An insert that fails has drawn a number. -/
  | lose

/-- Rows in the order of their numbers. -/
def bySeq (rows : List AuditRow) : List AuditRow := rows.insertionSort fun a b => a.seq ≤ b.seq

namespace AppendState

/-- The table before the first append. -/
def empty : AppendState := ⟨[], 1, none, []⟩

/-- Call `n` moves on to the phase `p`. -/
def setPhase (s : AppendState) (n : ℕ) (c : AppendCall) (p : Phase) : AppendState :=
  { s with sessions := s.sessions.set n (c, p) }

/-- The lock after the transaction of call `n` has ended. -/
def released (s : AppendState) (n : ℕ) : Option ℕ := if s.holder = some n then none else s.holder

/-- One step, or `none` when it is not possible: the lock is taken, the insert is refused, or the
call stands elsewhere. -/
def step (D : AuditDeps) (s : AppendState) : AppendMove → Option AppendState
  | .begin call => some { s with sessions := s.sessions ++ [(call, .begun)] }
  | .lock n =>
    match s.sessions[n]?, s.holder with
    | some (c, .begun), none => some { s.setPhase n c .locked with holder := some n }
    | _, _ => none
  | .read n =>
    match s.sessions[n]? with
    | some (c, .locked) => some (s.setPhase n c (.read (AuditDeps.lastHash (bySeq s.committed))))
    | _ => none
  | .insert n =>
    match s.sessions[n]? with
    | some (c, .read prevHash) =>
      match D.rowOf prevHash s.nextSeq c.id c.ts c.event with
      | some row => some { s.setPhase n c (.inserted row) with nextSeq := s.nextSeq + 1 }
      | none => none
    | _ => none
  | .commit n =>
    match s.sessions[n]? with
    | some (c, .inserted row) => some { s.setPhase n c .finished with
        committed := s.committed ++ [row]
        holder := s.released n }
    | _ => none
  | .rollback n =>
    match s.sessions[n]? with
    | some (c, _) => some { s.setPhase n c .finished with holder := s.released n }
    | none => none
  | .lose => some { s with nextSeq := s.nextSeq + 1 }

/-- The states that the callers can reach together. -/
inductive Reachable (D : AuditDeps) : AppendState → Prop
  | empty : Reachable D empty
  | step {s s' m} (hr : Reachable D s) (hs : s.step D m = some s') : Reachable D s'

/-- The state after a list of steps, when all of them are possible. -/
def play (D : AuditDeps) (moves : List AppendMove) : Option AppendState :=
  moves.foldlM (step D) empty

/-- What is known of the table when a call stands in a phase. -/
def PhaseOk (s : AppendState) : Phase → Prop
  | .read prevHash => prevHash = AuditDeps.lastHash s.committed
  | .inserted row => row.prevHash = AuditDeps.lastHash s.committed ∧
      (∀ r ∈ s.committed, r.seq < row.seq) ∧ row.seq < s.nextSeq
  | _ => True

/-- The invariant of concurrent appends. -/
structure Inv (s : AppendState) : Prop where
  /-- The order of commits is the order of the numbers. -/
  sorted : s.committed.Pairwise fun a b => a.seq < b.seq
  /-- The committed numbers have been drawn. -/
  drawn : ∀ r ∈ s.committed, r.seq < s.nextSeq
  /-- The first row links to the constant. -/
  first : ∀ r, s.committed.head? = some r → r.prevHash = GENESIS_HASH
  /-- Every other row links to the row before it. -/
  chain : s.committed.IsChain fun a b => b.prevHash = a.hash
  /-- Whoever is past the lock holds it. -/
  exclusive : ∀ (n : ℕ) c p, s.sessions[n]? = some (c, p) → p.locking = true → s.holder = some n
  /-- What a call has read is still so. -/
  phase : ∀ (n : ℕ) c p, s.sessions[n]? = some (c, p) → s.PhaseOk p

/-- Rows that are in order stay where they are. -/
theorem bySeq_of_sorted {rows : List AuditRow} (h : rows.Pairwise fun a b => a.seq < b.seq) :
    bySeq rows = rows :=
  List.Pairwise.insertionSort_eq (h.imp fun hab => Nat.le_of_lt hab)

variable {D : AuditDeps} {s s' : AppendState} {n : ℕ} {c : AppendCall}

/-- The calls after one of them has moved on. -/
theorem setPhase_sessions {p : Phase} {k : ℕ} {c' : AppendCall} {p' : Phase}
    (h : (s.setPhase n c p).sessions[k]? = some (c', p')) :
    (k = n ∧ p' = p) ∨ (k ≠ n ∧ s.sessions[k]? = some (c', p')) := by
  simp only [setPhase, List.getElem?_set] at h
  split_ifs at h with h₁ h₂
  · simp only [Option.some.injEq, Prod.mk.injEq] at h
    exact .inl ⟨h₁.symm, h.2.symm⟩
  · exact .inr ⟨fun he => h₁ he.symm, h⟩

theorem inv_empty : Inv empty where
  sorted := .nil
  drawn := by simp [empty]
  first := by simp [empty]
  chain := .nil
  exclusive := by simp [empty]
  phase := by simp [empty]

/-- The rest of the invariant after call `n`, which may end up anywhere but in the middle, has moved
on and the table has stayed the same. -/
theorem Inv.moved (hi : s.Inv) {p : Phase} {holder : Option ℕ} {nextSeq : ℕ}
    (hseq : s.nextSeq ≤ nextSeq)
    (hself : p.locking = true → holder = some n)
    (hother : ∀ k, k ≠ n → s.holder = some k → holder = some k)
    (hp : PhaseOk { s with nextSeq := nextSeq } p) :
    Inv { s.setPhase n c p with holder := holder, nextSeq := nextSeq } where
  sorted := hi.sorted
  drawn := fun r hr => Nat.lt_of_lt_of_le (hi.drawn r hr) hseq
  first := hi.first
  chain := hi.chain
  exclusive := by
    intro k c' p' hk hlock
    rcases setPhase_sessions hk with ⟨rfl, rfl⟩ | ⟨hne, hold⟩
    · exact hself hlock
    · exact hother k hne (hi.exclusive k c' p' hold hlock)
  phase := by
    intro k c' p' hk
    rcases setPhase_sessions hk with ⟨rfl, rfl⟩ | ⟨hne, hold⟩
    · exact hp
    · have := hi.phase k c' p' hold
      cases p' with
      | inserted row => exact ⟨this.1, this.2.1, Nat.lt_of_lt_of_le this.2.2 hseq⟩
      | _ => exact this

/-- The lock that another call holds is kept when a transaction ends. -/
theorem released_of_ne {k : ℕ} (hk : k ≠ n) (h : s.holder = some k) : s.released n = some k := by
  rw [released, if_neg, h]
  rw [h, Option.some.injEq]
  exact hk

/-- Committing appends to the chain. -/
theorem Inv.commit (hi : s.Inv) {row : AuditRow} (hn : s.sessions[n]? = some (c, .inserted row)) :
    Inv { s.setPhase n c .finished with
      committed := s.committed ++ [row]
      holder := s.released n } := by
  obtain ⟨hprev, hlt, hseq⟩ := hi.phase n c _ hn
  have hlock := hi.exclusive n c _ hn rfl
  refine ⟨?_, ?_, ?_, ?_, ?_, ?_⟩
  · exact List.pairwise_append.mpr ⟨hi.sorted, List.pairwise_singleton _ _, fun a ha b hb => by
      rw [List.mem_singleton.mp hb]
      exact hlt a ha⟩
  · intro r hr
    rcases List.mem_append.mp hr with hr | hr
    · exact hi.drawn r hr
    · rw [List.mem_singleton.mp hr]
      exact hseq
  · intro r hr
    cases hc : s.committed with
    | nil =>
      simp only [hc, List.nil_append, List.head?_cons, Option.some.injEq] at hr
      rw [← hr, hprev, hc]
      rfl
    | cons a as =>
      simp only [hc, List.cons_append, List.head?_cons, Option.some.injEq] at hr
      exact hi.first r (by rw [hc, ← hr]; rfl)
  · -- The row links to the last hash that was committed.
    refine List.isChain_append.mpr ⟨hi.chain, .singleton _, fun a ha b hb => ?_⟩
    simp only [List.head?_cons, Option.mem_some_iff] at hb
    rw [← hb, hprev, AuditDeps.lastHash, Option.mem_def.mp ha]
    rfl
  · intro k c' p' hk hlocking
    rcases setPhase_sessions hk with ⟨rfl, rfl⟩ | ⟨hne, hold⟩
    · simp [Phase.locking] at hlocking
    · exact released_of_ne hne (hi.exclusive k c' p' hold hlocking)
  · -- Nobody else is past the lock, so that nobody else has read the hash that is now outdated.
    intro k c' p' hk
    rcases setPhase_sessions hk with ⟨rfl, rfl⟩ | ⟨hne, hold⟩
    · trivial
    · have hfree : p'.locking = false := by
        by_contra hlocking
        have := hi.exclusive k c' p' hold (by simpa using hlocking)
        rw [hlock, Option.some.injEq] at this
        exact hne this.symm
      cases p' with
      | read => simp [Phase.locking] at hfree
      | inserted => simp [Phase.locking] at hfree
      | _ => trivial

/-- Every step keeps the invariant. -/
theorem Inv.step {m : AppendMove} (hi : s.Inv) (hs : s.step D m = some s') : s'.Inv := by
  cases m with
  | begin call =>
    simp only [AppendState.step, Option.some.injEq] at hs
    subst hs
    have hnew : ∀ (k : ℕ) c p, (s.sessions ++ [(call, Phase.begun)])[k]? = some (c, p) →
        s.sessions[k]? = some (c, p) ∨ p = .begun := by
      intro k c p hk
      rw [List.getElem?_append] at hk
      split_ifs at hk with hlt
      · exact .inl hk
      · have := List.mem_of_getElem? hk
        rw [List.mem_singleton, Prod.mk.injEq] at this
        exact .inr this.2
    refine ⟨hi.sorted, hi.drawn, hi.first, hi.chain, ?_, ?_⟩
    · intro k c p hk hlock
      rcases hnew k c p hk with h | rfl
      · exact hi.exclusive k c p h hlock
      · simp [Phase.locking] at hlock
    · intro k c p hk
      rcases hnew k c p hk with h | rfl
      · exact hi.phase k c p h
      · trivial
  | lock n =>
    simp only [AppendState.step] at hs
    split at hs
    · rename_i c hn hfree
      simp only [Option.some.injEq] at hs
      subst hs
      exact hi.moved le_rfl (fun _ => rfl) (fun k _ hk => by simp [hfree] at hk) trivial
    · simp at hs
  | read n =>
    simp only [AppendState.step] at hs
    split at hs
    · rename_i c hn
      simp only [Option.some.injEq] at hs
      subst hs
      have hlock := hi.exclusive n c _ hn rfl
      exact hi.moved le_rfl (fun _ => hlock) (fun k _ hk => hk)
        (by rw [bySeq_of_sorted hi.sorted]; rfl)
    · simp at hs
  | insert n =>
    simp only [AppendState.step] at hs
    split at hs
    · rename_i c prevHash hn
      split at hs
      · rename_i row hrow
        simp only [Option.some.injEq] at hs
        subst hs
        have hlock := hi.exclusive n c _ hn rfl
        have hprev : prevHash = _ := hi.phase n c _ hn
        have hseq : row.seq = s.nextSeq := by
          unfold AuditDeps.rowOf at hrow
          split at hrow
          · rw [← Option.some.inj hrow]
          · simp at hrow
        refine hi.moved (Nat.le_succ _) (fun _ => hlock) (fun k _ hk => hk) ⟨?_, ?_, ?_⟩
        · rw [(AuditDeps.rowOf_hash hrow).1, hprev]
        · rw [hseq]
          exact hi.drawn
        · rw [hseq]
          exact Nat.lt_succ_self _
      · simp at hs
    · simp at hs
  | commit n =>
    simp only [AppendState.step] at hs
    split at hs
    · rename_i c row hn
      simp only [Option.some.injEq] at hs
      subst hs
      exact hi.commit hn
    · simp at hs
  | rollback n =>
    simp only [AppendState.step] at hs
    split at hs
    · simp only [Option.some.injEq] at hs
      subst hs
      exact hi.moved le_rfl (fun h => by simp [Phase.locking] at h)
        (fun k hk => released_of_ne hk) trivial
    · simp at hs
  | lose =>
    simp only [AppendState.step, Option.some.injEq] at hs
    subst hs
    refine ⟨hi.sorted, fun r hr => Nat.lt_succ_of_lt (hi.drawn r hr), hi.first, hi.chain,
      hi.exclusive, ?_⟩
    intro k c p hk
    have := hi.phase k c p hk
    cases p with
    | inserted row => exact ⟨this.1, this.2.1, Nat.lt_succ_of_lt this.2.2⟩
    | _ => exact this

/-- The invariant holds in every reachable state. -/
theorem Reachable.inv (hr : Reachable D s) : s.Inv := by
  induction hr with
  | empty => exact inv_empty
  | step _ hs ih => exact ih.step hs

/-- Whatever the order in which the statements of concurrent appends are executed, the committed rows
in the order of their numbers are one chain: the first links to the constant, and each of the others
to the row right before it. -/
theorem committed_linear (hr : Reachable D s) :
    (∀ r, (bySeq s.committed).head? = some r → r.prevHash = GENESIS_HASH) ∧
      (bySeq s.committed).IsChain fun a b => b.prevHash = a.hash := by
  have hi := hr.inv
  rw [bySeq_of_sorted hi.sorted]
  exact ⟨hi.first, hi.chain⟩

/-- What is played is reachable. -/
theorem play_reachable {moves : List AppendMove} (h : play D moves = some s) : Reachable D s := by
  induction moves using List.reverseRecOn generalizing s with
  | nil =>
    simp only [play, List.foldlM_nil, pure, Option.some.injEq] at h
    rw [← h]
    exact .empty
  | append_singleton ms m ih =>
    simp only [play, List.foldlM_append, List.foldlM_cons, List.foldlM_nil, bind_pure] at h
    obtain ⟨s₀, hs₀, hs⟩ := Option.bind_eq_some_iff.mp h
    exact .step (ih hs₀) hs

/-- A registration that is rolled back after its insert, and the same registration once more. -/
theorem committed_linear_after_rollback : ∃ s : AppendState, s.committed.map (·.seq) = [2] ∧
    (∀ r, (bySeq s.committed).head? = some r → r.prevHash = GENESIS_HASH) ∧
      (bySeq s.committed).IsChain fun a b => b.prevHash = a.hash := by
  have h : (play AuditDeps.sampleDeps [.begin AuditDeps.registrationCall, .lock 0,
      .begin AuditDeps.registrationCall, .read 0, .insert 0, .rollback 0, .lock 1, .read 1, .insert 1,
      .commit 1]).map (fun s => s.committed.map (·.seq)) = some [2] := by
    decide +kernel
  obtain ⟨s, hs, hseq⟩ := Option.map_eq_some_iff.mp h
  exact ⟨s, hseq, committed_linear (play_reachable hs)⟩

end AppendState

end SdidBridge
