import SdidBridge.Keys.Paths

/-!
# The active signing key

A rotation swaps the active key in one transaction and under a lock, so that the table goes from one
active key to one. The first key is inserted by a boot that found none, after the read and outside
the lock: two replicas that boot together both insert one. As long as no first key is inserted next
to another one, there is never more than one, and never none again (`one_active_key`).
-/

namespace SdidBridge.Keys

open Concurrent Prog

variable {C : KeysConfig} {tr : List Step} {c : State}

/-! ## The transaction of a call -/

/-- The rotation that a call has open after its commands `h`, newest first. -/
def openRotation : List Cmd → Option Rotation
  | [] => none
  | ⟨.table (.lock startedAt), some _⟩ :: _ => some ⟨startedAt, none, none⟩
  | ⟨.table .retireActive, some kids⟩ :: h =>
    (openRotation h).map fun x => { x with retired := some kids }
  | ⟨.table (.insert kid), some _⟩ :: h =>
    (openRotation h).map fun x => { x with inserted := some ⟨kid, .active, x.startedAt⟩ }
  | ⟨.table .commit, some _⟩ :: _ => none
  | ⟨.table (.rollback _), _⟩ :: _ => none
  | _ :: h => openRotation h

/-- Which rotation a call has open when it issues a command: none when it takes the lock, and the whole
one when it commits. -/
def InRotation (h : List Cmd) : Op → Prop
  | .table (.lock _) => openRotation h = none
  | .table .retireActive => ∃ x, openRotation h = some x
  | .table (.insert _) => ∃ x, openRotation h = some x
  | .table .commit => ∃ x kids row, openRotation h = some x ∧ x.retired = some kids ∧
      x.inserted = some row
  | .table (.rollback locked) => locked = true ↔ ∃ x, openRotation h = some x
  | _ => True

/-- Between its parts a call has no rotation open. -/
def Outside (h : List Cmd) : Prop := openRotation h = none

theorem outside_of_routine {h : List Cmd} {o : Op} (hh : Outside h) (ho : Routine o) :
    InRotation h o ∧ ∀ a, Outside (⟨o, a⟩ :: h) := by
  unfold Outside at *
  cases o with
  | table k => cases k <;> simp_all [InRotation, Routine, openRotation]
  | _ => simp_all [InRotation, openRotation]

/-- The commands of a replica, and its audit rows, are of no rotation. -/
theorem keeps_outside {α : Type} {p : Call α} {r : ℕ}
    (hp : Only (fun o => (∃ k, o = .on r k) ∨ ∃ e, o = .append r e) p) :
    Keeps InRotation Outside p := by
  intro h hh
  refine hp.along (fun h o hh ho => ?_) hh
  rcases ho with ⟨k, rfl⟩ | ⟨e, rfl⟩
  · exact ⟨trivial, fun _ => hh⟩
  · exact ⟨trivial, fun _ => hh⟩

/-- The `catch` of a rotation closes it. -/
theorem along_rollingBack {α : Type} {p : Call α} {locked : Bool} {h : List Cmd}
    {Q : List Cmd → α → Prop}
    (hp : Along InRotation (fun h' r => match r with
      | .ok a => Q h' a
      | .error _ => locked = true ↔ ∃ x, openRotation h' = some x) h p) :
    Along InRotation (fun h' r => match r with
      | .ok a => Q h' a
      | .error _ => Outside h') h (rollingBack locked p) := by
  unfold rollingBack
  rw [along_recover]
  refine hp.mono (fun _ _ h => h) fun h' r hr => ?_
  cases r with
  | ok a => exact hr
  | error e => exact along_perform_bind.mpr ⟨hr, rfl, fun _ => rfl⟩

/-- The statements of a rotation are issued while it is open, and it is complete when it commits. -/
theorem along_swapActive {h : List Cmd} {startedAt : ℕ}
    (hh : openRotation h = some ⟨startedAt, none, none⟩) :
    Along InRotation (fun h' r => match r with
      | .ok _ => Outside h'
      | .error _ => true = true ↔ ∃ x, openRotation h' = some x) h swapActive := by
  refine along_perform_bind.mpr ⟨⟨_, hh⟩, by simp [openRotation, hh], fun kids => ?_⟩
  refine along_perform_bind.mpr ⟨trivial, by simp [openRotation, hh], fun kid => ?_⟩
  refine along_perform_bind.mpr ⟨?_, by simp [openRotation, hh], fun _ => ?_⟩
  · simp [InRotation, openRotation, hh]
  refine along_perform_bind.mpr ⟨?_, by simp [openRotation, hh], fun _ => ?_⟩
  · simp [InRotation, openRotation, hh]
  · rfl

/-- The transaction of a rotation leaves none open. -/
theorem keeps_rotationTransaction : Keeps InRotation Outside rotationTransaction := by
  intro h hh
  have hclosed : ∀ {h'}, Outside h' → (false = true ↔ ∃ x, openRotation h' = some x) := by
    intro h' hh'
    rw [hh']
    simp
  unfold rotationTransaction
  refine Along.bind (Q := fun _ h' => Outside h') ?_ fun startedAt h₁ hh₁ => ?_
  · refine (along_rollingBack (Q := fun h' _ => Outside h') ?_).mono (fun _ _ h => h) ?_
    · exact (along_perform _ _).mpr ⟨trivial, hclosed hh, fun _ => hh⟩
    · intro h' r hr
      cases r <;> exact hr
  refine Along.bind (Q := fun _ h' => openRotation h' = some ⟨startedAt, none, none⟩) ?_
    fun _ h₂ hh₂ => ?_
  · refine (along_rollingBack
      (Q := fun h' _ => openRotation h' = some ⟨startedAt, none, none⟩) ?_).mono (fun _ _ h => h) ?_
    · exact (along_perform _ _).mpr ⟨hh₁, hclosed hh₁, fun _ => rfl⟩
    · intro h' r hr
      cases r <;> exact hr
  · refine (along_rollingBack (Q := fun h' _ => Outside h') ?_).mono (fun _ _ h => h) ?_
    · refine (along_swapActive hh₂).mono (fun _ _ h => h) fun h' r hr => ?_
      cases r <;> exact hr
    · intro h' r hr
      cases r <;> exact hr

/-- What holds along every call. -/
theorem along_inRotation (q : Request) :
    Along InRotation (fun h _ => Outside h) [] ((replicas C).handler q) := by
  refine along_handler (fun h o hh ho => outside_of_routine hh ho) (fun r => ?_) (fun C r reason => ?_)
    keeps_rotationTransaction C rfl q fun r _ => ?_
  · exact keeps_outside (only_publish fun k => .inl ⟨k, rfl⟩)
  · exact keeps_outside
      (only_flushUsageSummary C reason (fun k => .inl ⟨k, rfl⟩) fun e => .inr ⟨e, rfl⟩)
  · exact keeps_outside (only_perform _ (.inl ⟨_, rfl⟩))

/-! ## One rotation at a time -/

/-- A call that has a rotation open holds the lock with it, and no other call does. -/
structure Exclusive (tr : List Step) (k : SigningKeys) : Prop where
  holds : ∀ t x, openRotation (own t tr) = some x → k.rotation = some x
  unique : ∀ t u x y, openRotation (own t tr) = some x → openRotation (own u tr) = some y → t = u

/-- A step that is no statement of a rotation. -/
theorem Exclusive.cons {k k' : SigningKeys} {e : Step} (hex : Exclusive tr k)
    (hk : k'.rotation = k.rotation)
    (he : ∀ t, openRotation (own t (e :: tr)) = openRotation (own t tr)) : Exclusive (e :: tr) k' := by
  constructor
  · intro t x hx
    rw [he] at hx
    rw [hk]
    exact hex.holds t x hx
  · intro t u x y hx hy
    rw [he] at hx hy
    exact hex.unique t u x y hx hy

/-- A step of the one call that may have a rotation open. -/
theorem Exclusive.moved {k k' : SigningKeys} {s : Store} {u : ℕ} {a : Cmd} (hex : Exclusive tr k)
    (hopen : (∃ x, openRotation (own u tr) = some x) ∨ k.rotation = none)
    (hk : ∀ x, openRotation (a :: own u tr) = some x → k'.rotation = some x) :
    Exclusive (⟨s, .act u a⟩ :: tr) k' := by
  -- No other call has a rotation open.
  have hother : ∀ t, t ≠ u → openRotation (own t tr) = none := by
    intro t ht
    by_contra hne
    obtain ⟨y, hy⟩ := Option.ne_none_iff_exists'.mp hne
    rcases hopen with ⟨x, hx⟩ | hfree
    · exact ht (hex.unique t u y x hy hx)
    · rw [hex.holds t y hy] at hfree
      simp at hfree
  have hown : ∀ t x, openRotation (own t (⟨s, .act u a⟩ :: tr)) = some x →
      t = u ∧ openRotation (a :: own u tr) = some x := by
    intro t x hx
    by_cases ht : t = u
    · subst ht
      rw [Machine.own_cons_self] at hx
      exact ⟨rfl, hx⟩
    · rw [Machine.own_cons_of_ne (by simp [Ne.symm ht]), hother t ht] at hx
      simp at hx
  constructor
  · intro t x hx
    exact hk x (hown t x hx).2
  · intro t v x y hx hy
    rw [(hown t x hx).1, (hown v y hy).1]

/-- What a statement does to the open rotation: nothing, or what the call that issues it knows. -/
theorem statement_moves {k k' : SigningKeys} {o : KeyOp} {r : Option o.Res} {h : List Cmd}
    (hstep : (∃ now, o.exec now k = some (r, k')) ∨ (r = none ∧ k' = k))
    (hin : InRotation h (.table o)) (hholds : ∀ x, openRotation h = some x → k.rotation = some x) :
    (k'.rotation = k.rotation ∧ openRotation (⟨.table o, r⟩ :: h) = openRotation h) ∨
      (((∃ x, openRotation h = some x) ∨ k.rotation = none) ∧
        ∀ x, openRotation (⟨.table o, r⟩ :: h) = some x → k'.rotation = some x) := by
  cases o with
  | connect => rcases hstep with ⟨now, hx⟩ | ⟨rfl, rfl⟩ <;> simp_all [KeyOp.exec, openRotation]
  | select => rcases hstep with ⟨now, hx⟩ | ⟨rfl, rfl⟩ <;> simp_all [KeyOp.exec, openRotation]
  | begin => rcases hstep with ⟨now, hx⟩ | ⟨rfl, rfl⟩ <;> simp_all [KeyOp.exec, openRotation]
  | insertFirst kid =>
    left
    rcases hstep with ⟨now, hx⟩ | ⟨rfl, rfl⟩
    · simp only [KeyOp.exec] at hx
      split_ifs at hx <;> simp only [Option.some.injEq, Prod.mk.injEq] at hx <;>
        obtain ⟨rfl, rfl⟩ := hx <;> exact ⟨rfl, rfl⟩
    · exact ⟨rfl, rfl⟩
  | lock startedAt =>
    rcases hstep with ⟨now, hx⟩ | ⟨rfl, rfl⟩
    · right
      simp only [KeyOp.exec] at hx
      split at hx
      · simp at hx
      · rename_i hfree
        simp only [Option.some.injEq, Prod.mk.injEq] at hx
        obtain ⟨rfl, rfl⟩ := hx
        exact ⟨.inr hfree, fun x hx => hx⟩
    · exact .inl ⟨rfl, rfl⟩
  | retireActive =>
    obtain ⟨x, hopen⟩ := hin
    rcases hstep with ⟨now, hx⟩ | ⟨rfl, rfl⟩
    · right
      simp only [KeyOp.exec, hholds x hopen, Option.some.injEq, Prod.mk.injEq] at hx
      obtain ⟨rfl, rfl⟩ := hx
      simp [openRotation, hopen]
    · exact .inl ⟨rfl, rfl⟩
  | insert kid =>
    obtain ⟨x, hopen⟩ := hin
    rcases hstep with ⟨now, hx⟩ | ⟨rfl, rfl⟩
    · simp only [KeyOp.exec, hholds x hopen] at hx
      split_ifs at hx <;> simp only [Option.some.injEq, Prod.mk.injEq] at hx <;>
        obtain ⟨rfl, rfl⟩ := hx
      · exact .inl ⟨rfl, rfl⟩
      · right
        simp [openRotation, hopen]
    · exact .inl ⟨rfl, rfl⟩
  | commit =>
    obtain ⟨x, kids, row, hopen, -, -⟩ := hin
    rcases hstep with ⟨now, hx⟩ | ⟨rfl, rfl⟩
    · right
      simp only [KeyOp.exec, hholds x hopen, Option.some.injEq, Prod.mk.injEq] at hx
      obtain ⟨rfl, rfl⟩ := hx
      simp [openRotation, hopen]
    · exact .inl ⟨rfl, rfl⟩
  | rollback locked =>
    cases locked with
    | true => exact .inr ⟨.inl (hin.mp rfl), by simp [openRotation]⟩
    | false =>
      left
      have hnone : openRotation h = none := by
        rw [Option.eq_none_iff_forall_ne_some]
        exact fun x hx => by simpa using hin.mpr ⟨x, hx⟩
      rcases hstep with ⟨now, hx⟩ | ⟨rfl, rfl⟩
      · simp only [KeyOp.exec, Bool.false_eq_true, if_false, Option.some.injEq, Prod.mk.injEq] at hx
        rw [← hx.2, hnone]
        exact ⟨rfl, rfl⟩
      · rw [hnone]
        exact ⟨rfl, rfl⟩

/-- A command that is no statement leaves the open rotation alone. -/
theorem openRotation_cons {h : List Cmd} {o : Op} {r : Option o.Res} (ho : ∀ k, o ≠ .table k) :
    openRotation (⟨o, r⟩ :: h) = openRotation h := by
  cases o with
  | table k => exact absurd rfl (ho k)
  | _ => rfl

/-- One rotation at a time. -/
theorem exclusive (hr : (replicas C).Reach tr c) : Exclusive tr c.store.table := by
  induction hr with
  | init => exact ⟨by simp [own, openRotation], by simp [own, openRotation]⟩
  | @step tr c m e c' hr hs ih =>
    have hlead := Machine.step_leads hs
    rcases Machine.step_calls hs with ⟨q, rfl, -⟩ | ⟨u, o, k, r, rfl, hcall, -⟩ | ⟨rfl, -⟩
    · have hsame : c'.store = c.store := hlead
      refine ih.cons (by rw [hsame]) fun t => ?_
      rw [Machine.own_cons_of_ne (by simp)]
    · obtain ⟨q, -, hres⟩ := hr.residue hcall
      have hin : InRotation (own u tr) o := (hres.along (along_inRotation q)).1
      have hneutral : ∀ {a : Cmd}, openRotation (a :: own u tr) = openRotation (own u tr) →
          ∀ t, openRotation (own t (⟨c.store, .act u a⟩ :: tr)) = openRotation (own t tr) := by
        intro a ha t
        by_cases ht : t = u
        · subst ht
          rw [Machine.own_cons_self, ha]
        · rw [Machine.own_cons_of_ne (by simp [Ne.symm ht])]
      rcases (tableObject C).leads hlead with ⟨t, ⟨o', r'⟩, he, hst⟩ | ⟨hno, hsame⟩
      · simp only [tableObject, Event.act.injEq, Act.mk.injEq] at he
        obtain ⟨rfl, rfl, he⟩ := he
        obtain rfl := eq_of_heq he
        rcases statement_moves hst hin (ih.holds u) with ⟨hk, hsame⟩ | ⟨hopen, hk⟩
        · exact ih.cons hk (hneutral hsame)
        · exact ih.moved hopen hk
      · refine ih.cons (by rw [show c'.store.table = c.store.table from hsame]) (hneutral ?_)
        refine openRotation_cons fun k hk => ?_
        subst hk
        simpa [tableObject] using hno u _ rfl
    · obtain ⟨i, henv⟩ := hlead
      obtain ⟨now, hsame⟩ := env_eq henv
      refine ih.cons (by rw [hsame]) fun t => ?_
      rw [Machine.own_cons_of_ne (by simp)]

/-! ## The active rows -/

theorem activeKids_append (rows rows' : List KeyRow) :
    activeKids (rows ++ rows') = activeKids rows ++ activeKids rows' := by
  simp [activeKids]

/-- Retiring every active key leaves none. -/
theorem activeKids_retire {rows : List KeyRow} {kids : List String} (h : activeKids rows ⊆ kids) :
    activeKids (rows.map (retire kids)) = [] := by
  have hnone : ∀ row ∈ rows.map (retire kids), row.status ≠ .active := by
    intro row hrow
    obtain ⟨row, hmem, rfl⟩ := List.mem_map.mp hrow
    unfold retire
    split_ifs with hkid
    · simp
    · intro hactive
      refine hkid (h (List.mem_map.mpr ⟨row, List.mem_filter.mpr ⟨hmem, ?_⟩, rfl⟩))
      simpa using hactive
  unfold activeKids
  rw [List.filter_eq_nil_iff.mpr fun row hrow => by simpa using hnone row hrow, List.map_nil]

/-- There is one active row at most; and what an open rotation has retired are all the active rows. -/
structure Sole (k : SigningKeys) : Prop where
  count : (activeKids k.rows).length ≤ 1
  retired : ∀ x kids, k.rotation = some x → x.retired = some kids → activeKids k.rows ⊆ kids
  inserted : ∀ x row, k.rotation = some x → x.inserted = some row → row.status = .active

/-- A statement that changes the open rotation alone. -/
theorem Sole.reopen {k : SigningKeys} {x : Rotation} (hsole : Sole k)
    (hretired : ∀ kids, x.retired = some kids → activeKids k.rows ⊆ kids)
    (hinserted : ∀ row, x.inserted = some row → row.status = .active) :
    Sole { k with rotation := some x } := by
  constructor
  · exact hsole.count
  · rintro y kids ⟨⟩
    exact hretired kids
  · rintro y row ⟨⟩
    exact hinserted row

/-- The rows after a complete rotation commits have the new key alone as active. -/
theorem activeKids_apply {x : Rotation} {rows : List KeyRow} {kids : List String} {row : KeyRow}
    (hkids : x.retired = some kids) (hrow : x.inserted = some row) (hsub : activeKids rows ⊆ kids)
    (hactive : row.status = .active) : activeKids (x.apply rows) = [row.kid] := by
  unfold Rotation.apply
  rw [hkids, hrow, activeKids_append, Option.getD_some, activeKids_retire hsub]
  simp [activeKids, hactive]

/-- A boot inserts the first key only while there is no active one, and none is about to be. -/
def InsertsAlone (k : SigningKeys) : Prop :=
  activeKids k.rows = [] ∧ ∀ x, k.rotation = some x → x.retired = none

/-- What a statement does to the active rows. -/
theorem Sole.step {k k' : SigningKeys} {o : KeyOp} {r : Option o.Res} (hsole : Sole k)
    (hstep : (∃ now, o.exec now k = some (r, k')) ∨ (r = none ∧ k' = k))
    (hboot : ∀ kid, (⟨o, r⟩ : Act KeyOp KeyOp.Res) = ⟨.insertFirst kid, some true⟩ → InsertsAlone k)
    (hcommit : o = .commit → ∃ x kids row, k.rotation = some x ∧ x.retired = some kids ∧
      x.inserted = some row) :
    Sole k' ∧ (activeKids k.rows ≠ [] → activeKids k'.rows ≠ []) := by
  rcases hstep with ⟨now, hx⟩ | ⟨rfl, rfl⟩
  swap
  · exact ⟨hsole, id⟩
  cases o with
  | connect =>
    simp only [KeyOp.exec, Option.some.injEq, Prod.mk.injEq] at hx
    exact hx.2 ▸ ⟨hsole, id⟩
  | select =>
    simp only [KeyOp.exec, Option.some.injEq, Prod.mk.injEq] at hx
    exact hx.2 ▸ ⟨hsole, id⟩
  | begin =>
    simp only [KeyOp.exec, Option.some.injEq, Prod.mk.injEq] at hx
    exact hx.2 ▸ ⟨hsole, id⟩
  | insertFirst kid =>
    simp only [KeyOp.exec] at hx
    split_ifs at hx <;> simp only [Option.some.injEq, Prod.mk.injEq] at hx <;> obtain ⟨rfl, rfl⟩ := hx
    · exact ⟨hsole, id⟩
    · obtain ⟨hnone, hfree⟩ := hboot kid rfl
      have hrows : activeKids (k.rows ++ [⟨kid, .active, now⟩]) = [kid] := by
        rw [activeKids_append, hnone]
        simp [activeKids]
      refine ⟨⟨by rw [hrows]; simp, ?_, hsole.inserted⟩, by simp [hrows]⟩
      intro x kids hopen hkids
      rw [hfree x hopen] at hkids
      simp at hkids
  | lock startedAt =>
    simp only [KeyOp.exec] at hx
    split at hx
    · simp at hx
    · simp only [Option.some.injEq, Prod.mk.injEq] at hx
      obtain ⟨rfl, rfl⟩ := hx
      exact ⟨hsole.reopen (by simp) (by simp), id⟩
  | retireActive =>
    simp only [KeyOp.exec] at hx
    split at hx
    · rename_i x hopen
      simp only [Option.some.injEq, Prod.mk.injEq] at hx
      obtain ⟨rfl, rfl⟩ := hx
      refine ⟨hsole.reopen ?_ fun row => hsole.inserted x row hopen, id⟩
      rintro kids ⟨⟩
      exact List.Subset.refl _
    · simp at hx
  | insert kid =>
    simp only [KeyOp.exec] at hx
    split at hx
    · rename_i x hopen
      split_ifs at hx <;> simp only [Option.some.injEq, Prod.mk.injEq] at hx <;>
        obtain ⟨rfl, rfl⟩ := hx
      · exact ⟨hsole, id⟩
      · refine ⟨hsole.reopen (fun kids => hsole.retired x kids hopen) ?_, id⟩
        rintro row ⟨⟩
        rfl
    · simp at hx
  | commit =>
    obtain ⟨x, kids, row, hopen, hkids, hrow⟩ := hcommit rfl
    simp only [KeyOp.exec, hopen, Option.some.injEq, Prod.mk.injEq] at hx
    obtain ⟨rfl, rfl⟩ := hx
    have hrows := activeKids_apply hkids hrow (hsole.retired x kids hopen hkids)
      (hsole.inserted x row hopen hrow)
    exact ⟨⟨by rw [hrows]; simp, by simp, by simp⟩, by simp [hrows]⟩
  | rollback locked =>
    simp only [KeyOp.exec, Option.some.injEq, Prod.mk.injEq] at hx
    rw [← hx.2]
    split_ifs
    · exact ⟨⟨hsole.count, by simp, by simp⟩, id⟩
    · exact ⟨hsole, id⟩

/-- Every first key that a boot inserted came to a table without an active key, and into no rotation
that had already retired what it found. -/
def BootsAlone (tr : List Step) : Prop :=
  ∀ e ∈ tr, ∀ t kid, e.event = .act t ⟨.table (.insertFirst kid), some true⟩ →
    InsertsAlone e.before.table

/-- What one step of a run does to the active rows. -/
theorem sole_step {m : Move Request Input} {e : Event Op Op.Res Request} {c' : State}
    (hr : (replicas C).Reach tr c) (hs : (replicas C).step c m = some (e, c'))
    (hboot : BootsAlone (⟨c.store, e⟩ :: tr)) (hsole : Sole c.store.table) :
    Sole c'.store.table ∧
      (activeKids c.store.table.rows ≠ [] → activeKids c'.store.table.rows ≠ []) := by
  rcases (tableObject C).leads (Machine.step_leads hs) with ⟨t, ⟨o, r⟩, he, hst⟩ | ⟨-, hsame⟩
  · simp only [tableObject] at he
    subst he
    refine hsole.step hst (fun kid hact => ?_) fun ho => ?_
    · refine hboot _ List.mem_cons_self t kid ?_
      cases hact
      rfl
    · -- The call that commits has the whole rotation open, and it is the one of the table.
      subst ho
      rcases Machine.step_calls hs with ⟨q, h, -⟩ | ⟨u, o', k, r', h, hcall, -⟩ | ⟨h, -⟩
      · simp at h
      · simp only [Event.act.injEq] at h
        obtain ⟨rfl, h⟩ := h
        cases h
        obtain ⟨q, -, hres⟩ := hr.residue hcall
        obtain ⟨x, kids, row, hopen, hkids, hrow⟩ := (hres.along (along_inRotation q)).1
        exact ⟨x, kids, row, (exclusive hr).holds t x hopen, hkids, hrow⟩
      · simp at h
  · have htable : c'.store.table = c.store.table := hsame
    rw [htable]
    exact ⟨hsole, id⟩

theorem sole (hr : (replicas C).Reach tr c) (hboot : BootsAlone tr) : Sole c.store.table := by
  induction hr with
  | init => exact ⟨by simp [replicas, activeKids], by simp [replicas], by simp [replicas]⟩
  | step hr hs ih =>
    exact (sole_step hr hs hboot (ih fun e he => hboot e (List.mem_cons_of_mem _ he))).1

/-- One active signing key. In every run in which no boot inserted its first key next to another one,
the table never has two active keys, and once it has had one it always has one. -/
theorem one_active_key (hr : (replicas C).Reach tr c) (hboot : BootsAlone tr) :
    (activeKids c.store.table.rows).length ≤ 1 ∧
      ∀ e ∈ tr, activeKids e.before.table.rows ≠ [] → activeKids c.store.table.rows ≠ [] := by
  refine ⟨(sole hr hboot).count, ?_⟩
  induction hr with
  | init => simp
  | step hr hs ih =>
    have hboot' := fun e he => hboot e (List.mem_cons_of_mem _ he)
    have hstep := (sole_step hr hs hboot (sole hr hboot')).2
    intro e he hactive
    rcases List.mem_cons.mp he with rfl | he
    · exact hstep hactive
    · exact hstep (ih hboot' e he hactive)

/-! ## Two boots -/

/-- Replica 0 boots, and rotates. -/
def sampleRotation : List (Move Request Input) :=
  sampleFirstBoot 0 0 "first" ++ goes 0 (List.replicate 5 .unit) ++
    .arrive (.rotate 0 0) :: goes 1 [.unit, .unit, .unit, .unit, .unit, .text "second", .unit, .unit]

/-- Replicas 0 and 1 boot together: both read an empty table before either inserts. -/
def sampleRace : List (Move Request Input) :=
  [.arrive (.boot 0 0), .arrive (.boot 1 0)] ++ goes 0 [.unit, .unit, .unit] ++
    goes 1 [.unit, .unit, .unit] ++ goes 0 [.text "first", .unit] ++ goes 1 [.text "other", .unit]

/-- Two replicas that boot together leave two active keys. -/
theorem two_active_sampleRace :
    ∃ tr c, (replicas sampleConfig).Reach tr c ∧
      activeKids c.store.table.rows = ["first", "other"] := by
  obtain ⟨tr, c, hr, hp⟩ := (replicas sampleConfig).exists_of_play sampleRace.reverse
    (p := fun x => decide (activeKids x.2.store.table.rows = ["first", "other"])) (by decide +kernel)
  exact ⟨tr, c, hr, of_decide_eq_true hp⟩

/-- Whether a step inserts no first key, or inserts it alone. -/
def insertsAlone (e : Step) : Bool :=
  match e.event with
  | .act _ ⟨.table (.insertFirst _), some true⟩ =>
    activeKids e.before.table.rows == [] && e.before.table.rotation.isNone
  | _ => true

theorem bootsAlone_of_all (h : tr.all insertsAlone = true) : BootsAlone tr := by
  intro e he t kid hev
  have hin := List.all_eq_true.mp h e he
  simp only [insertsAlone, hev, Bool.and_eq_true, beq_iff_eq, Option.isNone_iff_eq_none] at hin
  exact ⟨hin.1, by simp [hin.2]⟩

/-- After a boot and a rotation there is one active key. -/
theorem one_active_key_sampleRotation :
    ∃ tr c, (replicas sampleConfig).Reach tr c ∧ activeKids c.store.table.rows = ["second"] ∧
      (activeKids c.store.table.rows).length ≤ 1 ∧
      (∀ e ∈ tr, activeKids e.before.table.rows ≠ [] → activeKids c.store.table.rows ≠ []) := by
  obtain ⟨tr, c, hr, hp⟩ := (replicas sampleConfig).exists_of_play sampleRotation.reverse
    (p := fun x => x.1.all insertsAlone && decide (activeKids x.2.store.table.rows = ["second"]))
    (by decide +kernel)
  simp only [Bool.and_eq_true, decide_eq_true_eq] at hp
  exact ⟨tr, c, hr, hp.2, one_active_key hr (bootsAlone_of_all hp.1)⟩

end SdidBridge.Keys
