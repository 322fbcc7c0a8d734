import SdidBridge.Broker.Tables
import SdidBridge.Concurrent.Alone

/-!
# Pairwise subjects under any calls

`pairwise.service.ts` by itself: `subjectFor` and `citizenForSubject`, called in any order, interleaved
in any way, by any number of replicas, for any citizens and relying parties, any command of which may
fail. A relying party's salt is fixed.

`subjectFor` reads, and inserts when there is no row; the insertion ignores a conflict with either key
of the table, and what is returned was computed before it. What is stored is always derived (`stored_derived`),
and a conflict with either key is with the row that was to be inserted, when the keyed hash has no
collisions; so that the row is there when the call returns (`row_of_returned`).
-/

namespace SdidBridge

open Concurrent Machine Prog

/-- The operations of the pairwise service on its table. -/
inductive PairwiseRequest where
  | subjectFor (citizenId rpId : Uuid)
  | citizenForSubject (rpId : Uuid) (subject : String)
  deriving DecidableEq

/-- What they return. -/
inductive PairwiseReply where
  | subject (s : String)
  | citizen (citizenId : Option Uuid)

/-- The program of an operation, where `salt` is that of each relying party. -/
def pairwiseHandler (D : Deployment) (salt : Uuid → String) : PairwiseRequest → H PairwiseReply
  | .subjectFor citizenId rpId => do return .subject (← subjectFor D citizenId rpId (salt rpId))
  | .citizenForSubject rpId subject => do return .citizen (← citizenForSubject rpId subject)

/-- The pairwise service of a deployment. -/
abbrev pairwiseService (D : Deployment) (salt : Uuid → String) :
    Machine Op Op.Res Failure PairwiseReply PairwiseRequest Store Oracle :=
  served D (pairwiseHandler D salt)

/-- The row of a citizen at a relying party. -/
def pairwiseRow (D : Deployment) (salt : Uuid → String) (citizenId rpId : Uuid) : PairwiseSubject :=
  ⟨citizenId, rpId, D.deriveSubject (salt rpId) citizenId.text⟩

/-! ## The paths of the operations -/

/-- What is inserted is the row of the call's citizen and relying party. -/
def PairwiseOnPath (D : Deployment) (salt : Uuid → String) (q : PairwiseRequest) (_ : Path) : Op → Prop
  | .subject (.insert row) =>
    q = .subjectFor row.citizenId row.rpId ∧ row = pairwiseRow D salt row.citizenId row.rpId
  | _ => True

/-- How an operation that returns has got there: what it returns was read, or it was inserted. -/
def PairwiseReturnsOn (D : Deployment) (salt : Uuid → String) (q : PairwiseRequest) (r : PairwiseReply)
    (h : Path) : Prop :=
  match q with
  | .subjectFor citizenId rpId => ∃ row, r = .subject row.subject ∧
      (h = [⟨.subject (.select citizenId rpId), some (some row)⟩] ∨
        row = pairwiseRow D salt citizenId rpId ∧
          h = [⟨.subject (.insert row), some ()⟩, ⟨.subject (.select citizenId rpId), some none⟩])
  | .citizenForSubject rpId subject => ∃ found, r = .citizen (found.map (·.citizenId)) ∧
      h = [⟨.subject (.selectBySubject rpId subject), some found⟩]

/-- The paths of both operations. -/
theorem pairwise_paths (D : Deployment) (salt : Uuid → String) (q : PairwiseRequest) :
    Yields (PairwiseOnPath D salt q) [] (pairwiseHandler D salt q) (PairwiseReturnsOn D salt q) := by
  cases q with
  | subjectFor citizenId rpId =>
    simp only [pairwiseHandler, subjectFor, yields_bind, yields_await]
    refine ⟨trivial, fun existing => ?_⟩
    cases existing with
    | some row =>
      simp only [yields_pure]
      exact ⟨row, rfl, .inl rfl⟩
    | none =>
      simp only [yields_bind, yields_await, yields_pure]
      exact ⟨⟨rfl, rfl⟩, fun _ => ⟨_, rfl, .inr ⟨rfl, rfl⟩⟩⟩
  | citizenForSubject rpId subject =>
    simp only [pairwiseHandler, citizenForSubject, yields_bind, yields_await, yields_pure]
    exact ⟨trivial, fun found => ⟨found, rfl, rfl⟩⟩

/-! ## The runs of the service -/

section Runs

variable {D : Deployment} {salt : Uuid → String}
  {tr l₁ l₂ : List (Entry Op Op.Res PairwiseRequest Store)}
  {c c₂ : Config Op Op.Res Failure PairwiseReply Store} {s : Store} {t u : ℕ}
  {citizenId citizenId' rpId : Uuid} {row : PairwiseSubject} {q : PairwiseRequest}

/-- The table of the service. -/
abbrev serviceSubjects (D : Deployment) (salt : Uuid → String) :
    Object (pairwiseService D salt) SubjectOp SubjectOp.Res (List PairwiseSubject) :=
  (subjects D).onMachine (pairwiseService D salt) rfl rfl

/-- A row that was inserted was derived, by a call for its citizen and relying party. -/
theorem inserted_derived (hr : (pairwiseService D salt).Reach tr c) {r : Option Unit}
    (hd : Did tr t ⟨.subject (.insert row), r⟩) :
    Arrived tr t (.subjectFor row.citizenId row.rpId) ∧ row = pairwiseRow D salt row.citizenId row.rpId := by
  obtain ⟨l₁, s, l₂, rfl⟩ := hd.split
  obtain ⟨q, harrived, rfl, hrow⟩ := hr.act_along fun q => (pairwise_paths D salt q).along
  exact ⟨harrived.mono (older_subset _ _), hrow⟩

/-- A row that is stored was inserted. -/
theorem subject_inserted_of_stored (hr : (pairwiseService D salt).Reach tr c) (hrow : row ∈ c.store.subjects) :
    ∃ t, Did tr t ⟨.subject (.insert row), some ()⟩ := by
  have hins : ∃ t, (t, ⟨.insert row, some ()⟩) ∈ (serviceSubjects D salt).acts tr := by
    refine ((serviceSubjects D salt).history hr).rows (P := fun h r => ∃ t, (t, ⟨.insert r, some ()⟩) ∈ h)
      (subjects_writes (D := D)) ?_ ?_ ?_ row hrow
    · rintro t a h r rfl
      exact ⟨t, List.mem_cons_self⟩
    · rintro p h r ⟨t, ht⟩
      exact ⟨t, List.mem_cons_of_mem _ ht⟩
    · exact fun _ _ _ _ _ hc => hc.elim
  obtain ⟨t, ht⟩ := hins
  exact ⟨t, (serviceSubjects D salt).mem_acts.mp ht⟩

/-- What is stored is derived. -/
theorem stored_derived (hr : (pairwiseService D salt).Reach tr c) (hrow : row ∈ c.store.subjects) :
    row = pairwiseRow D salt row.citizenId row.rpId := by
  obtain ⟨t, hd⟩ := subject_inserted_of_stored hr hrow
  exact (inserted_derived hr hd).2

/-- What is stored before an entry is derived. -/
theorem stored_derived_before {e : Entry Op Op.Res PairwiseRequest Store}
    (hr : (pairwiseService D salt).Reach (l₁ ++ e :: l₂) c) (hrow : row ∈ e.before.subjects) :
    row = pairwiseRow D salt row.citizenId row.rpId := by
  obtain ⟨c₀, -, -, hr₀, hb, -⟩ := hr.entry
  exact stored_derived hr₀ (hb ▸ hrow)

/-- A row that is stored stays. -/
theorem row_kept {e : Entry Op Op.Res PairwiseRequest Store} {s : Store}
    (hl : (pairwiseService D salt).Leads e s) (hrow : row ∈ e.before.subjects) : row ∈ s.subjects := by
  obtain ⟨row', hrow', rfl | ⟨-, -, -, hfalse⟩⟩ :=
    (serviceSubjects D salt).row_step (subjects_writes (D := D)) hl hrow
  · exact hrow'
  · exact hfalse.elim

variable (hderive : ∀ salt, Function.Injective (D.deriveSubject salt))

include hderive

/-- A subject at a relying party is that of one citizen. -/
theorem pairwiseRow_injective
    (h : (pairwiseRow D salt citizenId rpId).subject = (pairwiseRow D salt citizenId' rpId).subject) :
    citizenId = citizenId' :=
  Uuid.text_injective (hderive _ h)

/-- An insertion that is answered leaves its row in the table: a row with one of its keys is the row
itself. -/
theorem row_of_inserted (hr : (pairwiseService D salt).Reach
      (l₁ ++ ⟨s, .act t ⟨.subject (.insert row), some ()⟩⟩ :: l₂) c) : row ∈ c.store.subjects := by
  have hrow := (inserted_derived hr (did_here l₁ l₂)).2
  refine hr.since (P := fun s => row ∈ s.subjects) (fun s' hl => ?_) fun e' _ s' hl hmem => row_kept hl hmem
  obtain hx | ⟨hnone, -⟩ := (serviceSubjects D salt).leads_act ⟨.insert row, some ()⟩ hl
  swap
  · simp at hnone
  simp only [SubjectOp.exec] at hx
  split at hx
  · rename_i rows' hrows
    obtain ⟨-, rfl⟩ := Table.insert_eq_some.mp hrows
    rw [← show _ = s'.subjects from congrArg Prod.snd hx]
    simp
  · rename_i hconflict
    rw [← show s.subjects = s'.subjects from congrArg Prod.snd hx]
    -- A row is there with one of the keys.
    obtain ⟨row', hmem, htaken⟩ := Table.insert_eq_none.mp hconflict
    have hkeys : row'.rpId = row.rpId ∧ (row'.citizenId = row.citizenId ∨ row'.subject = row.subject) := by
      simp only [decide_eq_true_eq] at htaken
      tauto
    obtain ⟨hrp, hkey⟩ := hkeys
    have hrow' := stored_derived_before hr hmem
    have hcitizen : row'.citizenId = row.citizenId := by
      rcases hkey with hcitizen | hsubject
      · exact hcitizen
      · rw [hrow, hrow', hrp] at hsubject
        exact pairwiseRow_injective hderive hsubject
    rw [hrow, ← hcitizen, ← hrp, ← hrow']
    exact hmem

omit hderive in
/-- A row that was read is the derived one, and it is there. -/
theorem row_of_select (hr : (pairwiseService D salt).Reach tr c)
    (hd : Did tr t ⟨.subject (.select citizenId rpId), some (some row)⟩) :
    row = pairwiseRow D salt citizenId rpId ∧ row ∈ c.store.subjects := by
  obtain ⟨l₁, s, l₂, rfl⟩ := hd.split
  have hfound : row ∈ s.subjects ∧ row.citizenId = citizenId ∧ row.rpId = rpId := by
    obtain ⟨x, hx | ⟨hnone, -⟩⟩ := (serviceSubjects D salt).step_at ⟨.select citizenId rpId, some (some row)⟩ hr
    · simp only [SubjectOp.exec, Prod.mk.injEq, Option.some.injEq] at hx
      exact ⟨List.mem_of_find?_eq_some hx.1, by simpa using List.find?_some hx.1⟩
    · simp at hnone
  obtain ⟨hmem, rfl, rfl⟩ := hfound
  refine ⟨stored_derived_before hr hmem, ?_⟩
  exact hr.stable (P := fun s => row ∈ s.subjects) (fun _ _ _ hl => row_kept hl) _
    (List.mem_append_right _ List.mem_cons_self) hmem

/-- Some call has read the row of a citizen at a relying party, or inserted it. -/
def Witnessed (D : Deployment) (salt : Uuid → String) (tr : List (Entry Op Op.Res PairwiseRequest Store))
    (citizenId rpId : Uuid) : Prop :=
  ∃ t, Did tr t ⟨.subject (.select citizenId rpId), some (some (pairwiseRow D salt citizenId rpId))⟩ ∨
    Did tr t ⟨.subject (.insert (pairwiseRow D salt citizenId rpId)), some ()⟩

omit hderive in
theorem Witnessed.mono (h : Witnessed D salt l₂ citizenId rpId) (hl : l₂ ⊆ tr) :
    Witnessed D salt tr citizenId rpId := by
  obtain ⟨t, hread | hins⟩ := h
  · exact ⟨t, .inl (hread.mono hl)⟩
  · exact ⟨t, .inr (hins.mono hl)⟩

/-- From then on the row is there. -/
theorem row_of_witnessed (hr : (pairwiseService D salt).Reach tr c)
    (h : Witnessed D salt tr citizenId rpId) : pairwiseRow D salt citizenId rpId ∈ c.store.subjects := by
  obtain ⟨t, hread | hins⟩ := h
  · exact (row_of_select hr hread).2
  · obtain ⟨l₁, s, l₂, rfl⟩ := hins.split
    exact row_of_inserted hderive hr

omit hderive in
/-- When `subjectFor` has returned, it has returned what is derived, and the row is known to be there. -/
theorem witnessed_of_returned (hr : (pairwiseService D salt).Reach tr c)
    (harrived : Arrived tr t (.subjectFor citizenId rpId)) {r : PairwiseReply}
    (hret : c.calls[t]? = some (.ret r)) :
    r = .subject (pairwiseRow D salt citizenId rpId).subject ∧ Witnessed D salt tr citizenId rpId := by
  obtain ⟨row, rfl, hread | ⟨rfl, hins⟩⟩ :=
    hr.ret_of_arrived harrived hret (pairwise_paths D salt (.subjectFor citizenId rpId)).along _ rfl
  · have hd : Did tr t ⟨.subject (.select citizenId rpId), some (some row)⟩ := mem_own.mp (by simp [hread])
    obtain ⟨rfl, -⟩ := row_of_select hr hd
    exact ⟨rfl, t, .inl hd⟩
  · exact ⟨rfl, t, .inr (mem_own.mp (by simp [hins]))⟩

/-- Where the row of a citizen is stored, its subject is found to be that citizen's. -/
theorem find_of_row (hr : (pairwiseService D salt).Reach tr c)
    (hrow : pairwiseRow D salt citizenId rpId ∈ c.store.subjects) :
    c.store.subjects.find? (fun row => row.rpId = rpId ∧ row.subject = (pairwiseRow D salt citizenId rpId).subject) =
      some (pairwiseRow D salt citizenId rpId) := by
  cases hfind : c.store.subjects.find? fun row =>
      row.rpId = rpId ∧ row.subject = (pairwiseRow D salt citizenId rpId).subject with
  | none =>
    have hnone := List.find?_eq_none.mp hfind _ hrow
    simp [pairwiseRow] at hnone
  | some row =>
    have hkey : row.rpId = rpId ∧ row.subject = (pairwiseRow D salt citizenId rpId).subject := by
      simpa using List.find?_some hfind
    obtain ⟨hrp, hsubject⟩ := hkey
    have hderived := stored_derived hr (List.mem_of_find?_eq_some hfind)
    rw [hrp] at hderived
    rw [hderived] at hsubject ⊢
    rw [pairwiseRow_injective hderive hsubject]

omit hderive in
/-- What `citizenForSubject` returns is what its one command found. -/
theorem found_of_returned (hr : (pairwiseService D salt).Reach tr c) {x : String} {r : PairwiseReply}
    (harrived : Arrived tr u (.citizenForSubject rpId x)) (hret : c.calls[u]? = some (.ret r)) :
    ∃ found, r = .citizen (found.map (·.citizenId)) ∧
      own u tr = [⟨.subject (.selectBySubject rpId x), some found⟩] :=
  hr.ret_of_arrived harrived hret (pairwise_paths D salt (.citizenForSubject rpId x)).along _ rfl

omit hderive in
/-- What was found by a subject was in the table. -/
theorem find_of_selectBySubject {x : String} {found : Option PairwiseSubject}
    (hr : (pairwiseService D salt).Reach
      (l₁ ++ ⟨s, .act u ⟨.subject (.selectBySubject rpId x), some found⟩⟩ :: l₂) c) :
    s.subjects.find? (fun row => row.rpId = rpId ∧ row.subject = x) = found := by
  obtain ⟨y, hx | ⟨hnone, -⟩⟩ := (serviceSubjects D salt).step_at ⟨.selectBySubject rpId x, some found⟩ hr
  · simp only [SubjectOp.exec, Prod.mk.injEq, Option.some.injEq] at hx
    exact hx.1
  · simp at hnone

/-- Once the row of a citizen is there, a lookup of its subject that returns later returns the
citizen. -/
theorem resolved_of_witnessed (hr : (pairwiseService D salt).Reach (l₁ ++ l₂) c)
    (hr₂ : (pairwiseService D salt).Reach l₂ c₂) (hrow : Witnessed D salt l₂ citizenId rpId)
    {r : PairwiseReply} (harrived : Arrived (l₁ ++ l₂) u
      (.citizenForSubject rpId (pairwiseRow D salt citizenId rpId).subject))
    (hret : c.calls[u]? = some (.ret r)) (hbefore : c₂.calls[u]? ≠ some (.ret r)) :
    r = .citizen (some citizenId) := by
  obtain ⟨found, rfl, hown⟩ := found_of_returned hr harrived hret
  rw [own_append] at hown
  -- The command was executed after the row was there.
  have hlater : own u l₁ = [⟨.subject (.selectBySubject rpId (pairwiseRow D salt citizenId rpId).subject),
      some found⟩] := by
    rcases List.append_eq_singleton_iff.mp hown with ⟨hnil, hold⟩ | ⟨hnew, -⟩
    · have hd := mem_own.mp (hold ▸ List.mem_singleton_self _)
      obtain ⟨q, hq⟩ := hr₂.arrived_of_did hd
      exact absurd hnil (hr.own_ne_nil hr₂ hq (hret ▸ hbefore))
    · exact hnew
  obtain ⟨k₁, s, k₂, rfl⟩ := (mem_own.mp (hlater ▸ List.mem_singleton_self _)).split
  rw [List.append_assoc, List.cons_append] at hr
  obtain ⟨c₀, -, -, hr₀, rfl, -⟩ := hr.entry
  have hfind := find_of_selectBySubject hr
  rw [find_of_row hderive hr₀ (row_of_witnessed hderive hr₀ (hrow.mono (List.subset_append_right _ _)))] at hfind
  rw [← hfind]
  rfl

omit hderive in
/-- A call of `subjectFor` with which nothing interferes returns what is derived. -/
theorem alone_subjectFor (hr : (pairwiseService D salt).Reach tr c) (citizenId rpId : Uuid) :
    ∃ h s', Alone (Op.exec D.engine) c.store (subjectFor D citizenId rpId (salt rpId)) h s'
      (.ok (pairwiseRow D salt citizenId rpId).subject) := by
  have hread : Op.exec D.engine .unit c.store (.subject (.select citizenId rpId)) =
      some (some (c.store.subjects.find? fun row => row.citizenId = citizenId ∧ row.rpId = rpId), c.store) := rfl
  cases hfind : c.store.subjects.find? fun row => row.citizenId = citizenId ∧ row.rpId = rpId with
  | some row =>
    have hkey : row.citizenId = citizenId ∧ row.rpId = rpId := by simpa using List.find?_some hfind
    have hrow := stored_derived hr (List.mem_of_find?_eq_some hfind)
    rw [hkey.1, hkey.2] at hrow
    rw [hfind] at hread
    have hend : Alone (Op.exec D.engine) c.store (pure row.subject : H String) [] c.store
        (.ok (pairwiseRow D salt citizenId rpId).subject) := alone_pure.mpr ⟨rfl, rfl, by rw [hrow]⟩
    exact ⟨_, c.store, (Alone.perform hread).bind hend⟩
  | none =>
    rw [hfind] at hread
    have hins : ∃ s', Op.exec D.engine .unit c.store (.subject (.insert (pairwiseRow D salt citizenId rpId))) =
        some (some (), s') := by
      simp only [Op.exec, SubjectOp.exec]
      split <;> exact ⟨_, rfl⟩
    obtain ⟨s', hins⟩ := hins
    exact ⟨_, s', (Alone.perform hread).bind ((Alone.perform hins).bind (.ret _ _))⟩

end Runs

/-- Pairwise subjects are stable and invertible. At a relying party each citizen has one subject, which is nobody
else's there. Every call of `subjectFor` returns it; once one has, every lookup that returns later returns
the citizen; and a lookup returns a citizen only for a subject that was created for its relying party. -/
theorem pairwise_stable_invertible (D : Deployment) (salt : Uuid → String)
    (hderive : ∀ salt, Function.Injective (D.deriveSubject salt)) :
    ∃ subject : Uuid → Uuid → String, (∀ rpId, Function.Injective fun citizenId => subject citizenId rpId) ∧
      ∀ tr c, (pairwiseService D salt).Reach tr c →
        (∀ t citizenId rpId r, Arrived tr t (.subjectFor citizenId rpId) → c.calls[t]? = some (.ret r) →
          r = .subject (subject citizenId rpId)) ∧
        (∀ citizenId rpId, ∃ h s', Alone (Op.exec D.engine) c.store (subjectFor D citizenId rpId (salt rpId)) h s'
          (.ok (subject citizenId rpId))) ∧
        (∀ l₁ l₂ c₂ t citizenId rpId r, tr = l₁ ++ l₂ → (pairwiseService D salt).Reach l₂ c₂ →
          Arrived l₂ t (.subjectFor citizenId rpId) → c₂.calls[t]? = some (.ret r) →
          (∀ u r', Arrived tr u (.citizenForSubject rpId (subject citizenId rpId)) →
            c.calls[u]? = some (.ret r') → c₂.calls[u]? ≠ some (.ret r') → r' = .citizen (some citizenId)) ∧
          ∃ h, Alone (Op.exec D.engine) c.store (citizenForSubject rpId (subject citizenId rpId)) h c.store
            (.ok (some citizenId))) ∧
        ∀ u citizenId rpId x, Arrived tr u (.citizenForSubject rpId x) →
          c.calls[u]? = some (.ret (.citizen (some citizenId))) →
          ∃ t, Arrived tr t (.subjectFor citizenId rpId) ∧
            Did tr t ⟨.subject (.insert ⟨citizenId, rpId, x⟩), some ()⟩ := by
  refine ⟨fun citizenId rpId => (pairwiseRow D salt citizenId rpId).subject,
    fun rpId _ _ h => pairwiseRow_injective hderive h, fun tr c hr => ⟨?_, ?_, ?_, ?_⟩⟩
  · intro t citizenId rpId r harrived hret
    exact (witnessed_of_returned hr harrived hret).1
  · exact alone_subjectFor hr
  · rintro l₁ l₂ c₂ t citizenId rpId r rfl hr₂ harrived hret
    have hrow := (witnessed_of_returned hr₂ harrived hret).2
    refine ⟨fun u r' hu hret' hbefore => resolved_of_witnessed hderive hr hr₂ hrow hu hret' hbefore, ?_⟩
    have hfind := find_of_row hderive hr
      (row_of_witnessed hderive hr (hrow.mono (List.subset_append_right _ _)))
    have hread : Op.exec D.engine .unit c.store
        (.subject (.selectBySubject rpId (pairwiseRow D salt citizenId rpId).subject)) =
        some (some (some (pairwiseRow D salt citizenId rpId)), c.store) := by
      rw [← hfind]
      rfl
    exact ⟨_, (Alone.perform hread).bind (.ret _ _)⟩
  · intro u citizenId rpId x hu hret
    obtain ⟨found, heq, hown⟩ := found_of_returned hr hu hret
    obtain ⟨row, rfl, rfl⟩ : ∃ row, found = some row ∧ row.citizenId = citizenId := by
      simpa [eq_comm] using heq
    have hd : Did tr u ⟨.subject (.selectBySubject rpId x), some (some row)⟩ := mem_own.mp (by simp [hown])
    obtain ⟨l₁, s, l₂, rfl⟩ := hd.split
    have hfind := find_of_selectBySubject hr
    have hkey : row.rpId = rpId ∧ row.subject = x := by simpa using List.find?_some hfind
    obtain ⟨rfl, rfl⟩ := hkey
    obtain ⟨c₀, -, -, hr₀, rfl, -⟩ := hr.entry
    obtain ⟨t, hins⟩ := subject_inserted_of_stored hr₀ (List.mem_of_find?_eq_some hfind)
    exact ⟨t, (inserted_derived hr₀ hins).1.mono (older_subset _ _), hins.mono (older_subset _ _)⟩

/-- Calls 0 and 1 both find no row, and both insert it. -/
def sampleFirstUse : List (Move PairwiseRequest Oracle) :=
  [.arrive (.subjectFor (sampleUuid 1) (sampleUuid 2)), .arrive (.subjectFor (sampleUuid 1) (sampleUuid 2)),
    .go 0 .unit, .go 1 .unit, .go 0 .unit, .go 1 .unit]

/-- Whether a run has brought a request as call `t`, and the call has returned. -/
def returnsFor (q : PairwiseRequest) (t : ℕ)
    (run : List (Entry Op Op.Res PairwiseRequest Store) × Config Op Op.Res Failure PairwiseReply Store) : Bool :=
  (run.1.any fun e => match e.event with
    | .arrive t' q' => t' == t && q' == q
    | _ => false) &&
  match run.2.calls[t]? with
  | some (.ret _) => true
  | _ => false

theorem arrived_of_returnsFor {q : PairwiseRequest} {t : ℕ}
    {run : List (Entry Op Op.Res PairwiseRequest Store) × Config Op Op.Res Failure PairwiseReply Store}
    (h : returnsFor q t run = true) : Arrived run.1 t q ∧ ∃ r, run.2.calls[t]? = some (.ret r) := by
  simp only [returnsFor, Bool.and_eq_true, List.any_eq_true] at h
  obtain ⟨⟨e, he, harrives⟩, hret⟩ := h
  constructor
  · refine ⟨e, he, ?_⟩
    split at harrives
    · rename_i hev
      simp only [Bool.and_eq_true, beq_iff_eq] at harrives
      rw [hev, harrives.1, harrives.2]
    · simp at harrives
  · split at hret
    · exact ⟨_, ‹_›⟩
    · simp at hret

/-- Two calls that race return one subject. -/
theorem pairwise_stable_invertible_sampleFirstUse : ∃ tr c subject,
    (pairwiseService sampleDeployment fun _ => "salt").Reach tr c ∧
      c.calls[0]? = some (.ret (.subject subject)) ∧ c.calls[1]? = some (.ret (.subject subject)) := by
  have hderive : ∀ salt, Function.Injective (sampleDeployment.deriveSubject salt) := by
    intro salt x y h
    simpa [sampleDeployment] using h
  obtain ⟨subject, -, hall⟩ := pairwise_stable_invertible sampleDeployment (fun _ => "salt") hderive
  obtain ⟨tr, c, hr, hrun⟩ := (pairwiseService sampleDeployment fun _ => "salt").exists_of_play
    sampleFirstUse.reverse (p := fun run => returnsFor (.subjectFor (sampleUuid 1) (sampleUuid 2)) 0 run &&
      returnsFor (.subjectFor (sampleUuid 1) (sampleUuid 2)) 1 run) (by decide +kernel)
  obtain ⟨h0, h1⟩ := Bool.and_eq_true_iff.mp hrun
  obtain ⟨ha0, r0, hc0⟩ := arrived_of_returnsFor h0
  obtain ⟨ha1, r1, hc1⟩ := arrived_of_returnsFor h1
  have hstable := (hall tr c hr).1
  obtain rfl := hstable _ _ _ _ ha0 hc0
  obtain rfl := hstable _ _ _ _ ha1 hc1
  exact ⟨tr, c, _, hr, hc0, hc1⟩

end SdidBridge
