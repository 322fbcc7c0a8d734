import SdidBridge.Broker.Approval
import SdidBridge.Broker.Consents
import SdidBridge.Broker.Footprint
import SdidBridge.Broker.Suspension
import SdidBridge.Concurrent.References

/-!
# The references between the tables

The rows of five tables name citizens and relying parties, by foreign keys that the database checks, and a transaction
and a code name what they were decided with, by columns that it does not check. The store of this model checks none of
them. It does not have to: every id that a handler writes was read by the same call, in a row that has it or that refers
to it in turn (`toldOn_handler`), and no row is ever deleted. So in every run no reference dangles (`references_hold`),
and a violated foreign key is not among the errors of the broker.
-/

namespace SdidBridge

open Concurrent Machine Prog

/-- What rows refer to. -/
inductive Ref where
  | citizen (id : Uuid)
  | rp (id : Uuid)
  | binding (id : Uuid)

/-- The row is there. -/
def Store.Has (s : Store) : Ref → Prop
  | .citizen id => ∃ k ∈ s.citizens, k.id = id
  | .rp id => ∃ rp ∈ s.rps, rp.id = id
  | .binding id => ∃ b ∈ s.bindings, b.id = id

/-- The columns that refer to a row. -/
inductive Store.Refers (s : Store) : Ref → Prop
  | bindingCitizen {b} (hb : b ∈ s.bindings) : s.Refers (.citizen b.citizenId)
  | subjectCitizen {x} (hx : x ∈ s.subjects) : s.Refers (.citizen x.citizenId)
  | subjectRp {x} (hx : x ∈ s.subjects) : s.Refers (.rp x.rpId)
  | txnCitizen {T} (hT : T ∈ s.txns) : s.Refers (.citizen T.citizenId)
  | txnRp {T} (hT : T ∈ s.txns) : s.Refers (.rp T.rpId)
  | txnBinding {T id} (hT : T ∈ s.txns) (hid : T.deviceBindingId = some id) : s.Refers (.binding id)
  | codeCitizen {k} (hk : k ∈ s.codes) : s.Refers (.citizen k.citizenId)
  | codeRp {k} (hk : k ∈ s.codes) : s.Refers (.rp k.rpId)
  | consentCitizen {g} (hg : g ∈ s.consents) : s.Refers (.citizen g.citizenId)
  | consentRp {g} (hg : g ∈ s.consents) : s.Refers (.rp g.rpId)

/-- What a pair of ids refers to, as a statement spells them. -/
def Spells (citizenId rpId : String) (k : Ref) : Prop :=
  (∃ u, Uuid.ofText citizenId = some u ∧ k = .citizen u) ∨ ∃ u, Uuid.ofText rpId = some u ∧ k = .rp u

/-- The references that a command writes. -/
def Op.Stores : Op → Ref → Prop
  | .binding (.insert _ citizenId _ _ _ _), k => k = .citizen citizenId
  | .subject (.insert row), k => k = .citizen row.citizenId ∨ k = .rp row.rpId
  | .txn (.insert _ _ citizenId rpId _ _ _ _ _), k => k = .citizen citizenId ∨ k = .rp rpId
  | .txn (.resolve _ _ bindingId _ _), k => k = .binding bindingId
  | .code (.insert row), k => k = .citizen row.citizenId ∨ k = .rp row.rpId
  | .consent (.insert _ citizenId rpId _ _), k => Spells citizenId rpId k
  | _, _ => False

/-- The rows that an answer tells of. -/
def Cmd.Names : Cmd → Ref → Prop
  | ⟨.citizen (.upsert _ _ _ _), some id⟩, k => k = .citizen id
  | ⟨.citizen (.selectByPseudoNid _), some (some x)⟩, k => k = .citizen x.id
  | ⟨.binding (.select _), some (some b)⟩, k => k = .binding b.id
  | ⟨.rp (.selectByClientId _), some (some rp)⟩, k => k = .rp rp.id
  | ⟨.rp (.select _), some (some rp)⟩, k => k = .rp rp.id
  | ⟨.subject (.selectBySubject _ _), some (some x)⟩, k => k = .citizen x.citizenId
  | ⟨.txn (.select _), some (some T)⟩, k => k = .citizen T.citizenId ∨ k = .rp T.rpId
  | ⟨.code (.select _), some (some x)⟩, k => k = .citizen x.citizenId
  | _, _ => False

/-- The references that a request brings: `recordGrant` is called with the ids of rows. -/
def Request.Brings : Request → Ref → Prop
  | .recordGrant citizenId rpId _ _, k => Spells citizenId rpId k
  | _, _ => False

/-! ## What the commands do -/

section Commands

variable {D : Deployment} {e : Step} {s s' : Store} {t : ℕ} {a : Cmd} {k : Ref}

/-- Rows stay. -/
theorem has_later (hl : (broker D).Leads e s) (hk : e.before.Has k) : s.Has k := by
  cases k with
  | citizen id =>
    obtain ⟨x, hx, rfl⟩ := hk
    obtain ⟨x', hx', rfl | ⟨u, a, -, hc⟩⟩ := (citizens D).row_step citizens_writes hl hx
    · exact ⟨x', hx', rfl⟩
    · exact ⟨x', hx', hc.id_eq⟩
  | rp id =>
    obtain ⟨x, hx, rfl⟩ := hk
    obtain ⟨x', hx', rfl | ⟨u, a, -, hc⟩⟩ := (rps D).row_step (rps_writes fun _ _ h => .inl h) hl hx
    · exact ⟨x', hx', rfl⟩
    · exact ⟨x', hx', congrArg Prod.fst hc.identity⟩
  | binding id =>
    obtain ⟨x, hx, rfl⟩ := hk
    obtain ⟨x', hx', rfl | ⟨u, a, -, hc⟩⟩ := (bindings D).row_step bindings_writes hl hx
    · exact ⟨x', hx', rfl⟩
    · exact ⟨x', hx', hc.id_eq⟩

/-- A column of a binding. -/
theorem bindingCitizen_before (hl : (broker D).Leads e s) {b : DeviceBinding} (hb : b ∈ s.bindings) :
    e.before.Refers (.citizen b.citizenId) ∨
      ∃ t a, e.event = .act t a ∧ a.op.Stores (.citizen b.citizenId) := by
  rcases (bindings D).row_origin bindings_writes hl hb with
    ⟨u, a, hev, id, citizenId, jwk, attestation, al, label, now, rfl, rfl⟩ | ⟨b₀, hb₀, rfl | ⟨u, a, -, hc⟩⟩
  · exact .inr ⟨u, _, hev, rfl⟩
  · exact .inl (.bindingCitizen hb₀)
  · have hcitizen : b.citizenId = b₀.citizenId := congrArg (·.2.1) hc.identity
    rw [hcitizen]
    exact .inl (.bindingCitizen hb₀)

/-- The columns of a subject. -/
theorem subject_before (hl : (broker D).Leads e s) {x : PairwiseSubject} (hx : x ∈ s.subjects) :
    x ∈ e.before.subjects ∨ ∃ t, e.event = .act t ⟨.subject (.insert x), some ()⟩ := by
  rcases (subjects D).row_origin subjects_writes hl hx with ⟨u, a, hev, rfl⟩ | ⟨x₀, hx₀, rfl | ⟨u, a, -, hc⟩⟩
  · exact .inr ⟨u, hev⟩
  · exact .inl hx₀
  · exact hc.elim

/-- The columns of a transaction that are set when it starts. -/
theorem txn_before (hl : (broker D).Leads e s) {T : AuthTransaction} (hT : T ∈ s.txns) :
    (∃ T₀ ∈ e.before.txns, T.citizenId = T₀.citizenId ∧ T.rpId = T₀.rpId ∧
      (T.deviceBindingId = T₀.deviceBindingId ∨ ∃ t id d bindingId now suspicious n,
        e.event = .act t ⟨.txn (.resolve id d bindingId now suspicious), some n⟩ ∧
          T.deviceBindingId = some bindingId)) ∨
      T.deviceBindingId = none ∧ ∃ t a, e.event = .act t a ∧ a.op.Stores (.citizen T.citizenId) ∧
        a.op.Stores (.rp T.rpId) := by
  rcases (txns D).row_origin (txns_writes fun _ _ h => .inl h) hl hT with
    ⟨u, a, hev, hnew⟩ | ⟨T₀, hT₀, rfl | ⟨u, a, hev, hc⟩⟩
  · obtain ⟨id, authReqId, citizenId, rpId, flow, scopes, al, message, expiresAt, now, rfl, rfl⟩ := hnew
    exact .inr ⟨rfl, u, _, hev, .inl rfl, .inr rfl⟩
  · exact .inl ⟨T, hT₀, rfl, rfl, .inl rfl⟩
  · refine .inl ⟨T₀, hT₀, ?_⟩
    cases hc with
    | resolved hs hn => exact ⟨rfl, rfl, .inr ⟨u, _, _, _, _, _, _, hev, rfl⟩⟩
    | expired hs hn => exact ⟨rfl, rfl, .inl rfl⟩
    | consumed hs hn => exact ⟨rfl, rfl, .inl rfl⟩

/-- The columns of a code. -/
theorem code_before (hl : (broker D).Leads e s) {x : AuthorizationCode} (hx : x ∈ s.codes) :
    (∃ x₀ ∈ e.before.codes, x.citizenId = x₀.citizenId ∧ x.rpId = x₀.rpId) ∨
      ∃ t, e.event = .act t ⟨.code (.insert x), some ()⟩ := by
  rcases (codes D).row_origin codes_writes hl hx with ⟨u, a, hev, rfl⟩ | ⟨x₀, hx₀, rfl | ⟨u, a, -, hc⟩⟩
  · exact .inr ⟨u, hev⟩
  · exact .inl ⟨x, hx₀, rfl, rfl⟩
  · have hid := hc.identity
    simp only [AuthorizationCode.identity, Prod.mk.injEq] at hid
    exact .inl ⟨x₀, hx₀, hid.2.1, hid.2.2.1⟩

/-- The columns of a consent. -/
theorem consent_before (hl : (broker D).Leads e s) {g : ConsentGrant} (hg : g ∈ s.consents) :
    (∃ g₀ ∈ e.before.consents, g.citizenId = g₀.citizenId ∧ g.rpId = g₀.rpId) ∨
      ∃ t a, e.event = .act t a ∧ a.op.Stores (.citizen g.citizenId) ∧ a.op.Stores (.rp g.rpId) := by
  rcases (consents D).row_origin consents_writes hl hg with
    ⟨u, a, hev, hnew⟩ | ⟨g₀, hg₀, rfl | ⟨u, a, -, hc⟩⟩
  · obtain ⟨id, citizenId, rpId, scopes, source, citizen, rp, now, rfl, hcitizen, hrp, rfl⟩ := hnew
    exact .inr ⟨u, _, hev, .inl ⟨citizen, hcitizen, rfl⟩, .inr ⟨rp, hrp, rfl⟩⟩
  · exact .inl ⟨g, hg₀, rfl, rfl⟩
  · have hsame := hc.granted
    exact .inl ⟨g₀, hg₀, congrArg (·.citizenId) hsame, congrArg (·.rpId) hsame⟩

/-- A reference was there before a step, or the step has written it. -/
theorem refers_before (hl : (broker D).Leads e s) (hk : s.Refers k) :
    e.before.Refers k ∨ ∃ t a, e.event = .act t a ∧ a.op.Stores k := by
  cases hk with
  | bindingCitizen hb => exact bindingCitizen_before hl hb
  | subjectCitizen hx =>
    rcases subject_before hl hx with hold | ⟨u, hev⟩
    · exact .inl (.subjectCitizen hold)
    · exact .inr ⟨u, _, hev, .inl rfl⟩
  | subjectRp hx =>
    rcases subject_before hl hx with hold | ⟨u, hev⟩
    · exact .inl (.subjectRp hold)
    · exact .inr ⟨u, _, hev, .inr rfl⟩
  | txnCitizen hT =>
    rcases txn_before hl hT with ⟨T₀, hT₀, hcitizen, -⟩ | ⟨-, u, a, hev, hcitizen, -⟩
    · rw [hcitizen]
      exact .inl (.txnCitizen hT₀)
    · exact .inr ⟨u, a, hev, hcitizen⟩
  | txnRp hT =>
    rcases txn_before hl hT with ⟨T₀, hT₀, -, hrp, -⟩ | ⟨-, u, a, hev, -, hrp⟩
    · rw [hrp]
      exact .inl (.txnRp hT₀)
    · exact .inr ⟨u, a, hev, hrp⟩
  | txnBinding hT hid =>
    rcases txn_before hl hT with ⟨T₀, hT₀, -, -, hsame | ⟨u, _, _, bindingId, _, _, _, hev, hset⟩⟩ | ⟨hnone, -⟩
    · exact .inl (.txnBinding hT₀ (hsame.symm.trans hid))
    · rw [hset, Option.some.injEq] at hid
      exact .inr ⟨u, _, hev, by rw [← hid]; rfl⟩
    · rw [hnone] at hid
      simp at hid
  | codeCitizen hx =>
    rcases code_before hl hx with ⟨x₀, hx₀, hcitizen, -⟩ | ⟨u, hev⟩
    · rw [hcitizen]
      exact .inl (.codeCitizen hx₀)
    · exact .inr ⟨u, _, hev, .inl rfl⟩
  | codeRp hx =>
    rcases code_before hl hx with ⟨x₀, hx₀, -, hrp⟩ | ⟨u, hev⟩
    · rw [hrp]
      exact .inl (.codeRp hx₀)
    · exact .inr ⟨u, _, hev, .inr rfl⟩
  | consentCitizen hg =>
    rcases consent_before hl hg with ⟨g₀, hg₀, hcitizen, -⟩ | ⟨u, a, hev, hcitizen, -⟩
    · rw [hcitizen]
      exact .inl (.consentCitizen hg₀)
    · exact .inr ⟨u, a, hev, hcitizen⟩
  | consentRp hg =>
    rcases consent_before hl hg with ⟨g₀, hg₀, -, hrp⟩ | ⟨u, a, hev, -, hrp⟩
    · rw [hrp]
      exact .inl (.consentRp hg₀)
    · exact .inr ⟨u, a, hev, hrp⟩

/-- The upsert answers with the id of the row that it has found or inserted. -/
theorem has_of_upsert {newId id : Uuid} {pseudoNid subject : String} {updatedAt : Time}
    (hl : (broker D).Leads ⟨s, .act t ⟨.citizen (.upsert newId pseudoNid subject updatedAt), some id⟩⟩ s') :
    s'.Has (.citizen id) := by
  rcases (citizens D).leads_act ⟨.upsert newId pseudoNid subject updatedAt, some id⟩ hl with ⟨now, hx⟩ | ⟨hnone, -⟩
  · simp only [CitizenOp.exec] at hx
    split at hx
    · rename_i x hfind
      simp only [Prod.mk.injEq, Option.some.injEq] at hx
      obtain ⟨rfl, -⟩ := hx
      have hold : s.Has (.citizen x.id) := ⟨x, List.mem_of_find?_eq_some hfind, rfl⟩
      exact has_later hl hold
    · split at hx
      · rename_i rows' hrows
        simp only [Prod.mk.injEq, Option.some.injEq] at hx
        obtain ⟨rfl, hrows'⟩ := hx
        obtain ⟨-, rfl⟩ := Table.insert_eq_some.mp hrows
        have hrows'' : s'.citizens = s.citizens ++ [Citizen.enrolled newId pseudoNid subject now] := hrows'.symm
        refine ⟨Citizen.enrolled newId pseudoNid subject now, ?_, rfl⟩
        rw [hrows'']
        exact List.mem_append_right _ List.mem_cons_self
      · simp at hx
  · simp at hnone

/-- An answer tells of a row that is there, or of what a row refers to. -/
theorem there_of_names (hl : (broker D).Leads ⟨s, .act t a⟩ s') (hk : a.Names k) : s'.Has k ∨ s.Refers k := by
  have hlater : ∀ {k}, s.Has k → s'.Has k := fun h => has_later hl h
  unfold Cmd.Names at hk
  split at hk
  · subst hk
    exact .inl (has_of_upsert hl)
  · subst hk
    rename_i pseudoNid x
    have hstep := (citizens D).leads_act ⟨.selectByPseudoNid pseudoNid, some (some x)⟩ hl
    rcases hstep with ⟨now, hx⟩ | ⟨hnone, -⟩
    · simp only [CitizenOp.exec, Prod.mk.injEq, Option.some.injEq] at hx
      exact .inl (hlater ⟨x, List.mem_of_find?_eq_some hx.1, rfl⟩)
    · simp at hnone
  · subst hk
    rename_i id b
    have hstep := (bindings D).leads_act ⟨.select id, some (some b)⟩ hl
    rcases hstep with ⟨now, hx⟩ | ⟨hnone, -⟩
    · obtain ⟨u, -, hx⟩ | ⟨hnone, -⟩ := withUuid_eq hx
      · simp only [Prod.mk.injEq, Option.some.injEq] at hx
        exact .inl (hlater ⟨b, List.mem_of_find?_eq_some hx.1, rfl⟩)
      · simp at hnone
    · simp at hnone
  · subst hk
    rename_i clientId rp
    have hstep := (rps D).leads_act ⟨.selectByClientId clientId, some (some rp)⟩ hl
    rcases hstep with ⟨now, hx⟩ | ⟨hnone, -⟩
    · simp only [RpOp.exec, Prod.mk.injEq, Option.some.injEq] at hx
      exact .inl (hlater ⟨rp, List.mem_of_find?_eq_some hx.1, rfl⟩)
    · simp at hnone
  · subst hk
    rename_i id rp
    have hstep := (rps D).leads_act ⟨.select id, some (some rp)⟩ hl
    rcases hstep with ⟨now, hx⟩ | ⟨hnone, -⟩
    · obtain ⟨u, -, hx⟩ | ⟨hnone, -⟩ := withUuid_eq hx
      · simp only [Prod.mk.injEq, Option.some.injEq] at hx
        exact .inl (hlater ⟨rp, List.mem_of_find?_eq_some hx.1, rfl⟩)
      · simp at hnone
    · simp at hnone
  · subst hk
    rename_i rpId subject x
    have hstep := (subjects D).leads_act ⟨.selectBySubject rpId subject, some (some x)⟩ hl
    rcases hstep with hx | ⟨hnone, -⟩
    · simp only [SubjectOp.exec, Prod.mk.injEq, Option.some.injEq] at hx
      exact .inr (.subjectCitizen (List.mem_of_find?_eq_some hx.1))
    · simp at hnone
  · rename_i authReqId T
    have hstep := (txns D).leads_act ⟨.select authReqId, some (some T)⟩ hl
    rcases hstep with ⟨now, hx⟩ | ⟨hnone, -⟩
    · simp only [TxnOp.exec, Prod.mk.injEq, Option.some.injEq] at hx
      have hT : T ∈ s.txns := List.mem_of_find?_eq_some hx.1
      rcases hk with rfl | rfl
      · exact .inr (.txnCitizen hT)
      · exact .inr (.txnRp hT)
    · simp at hnone
  · subst hk
    rename_i codeHash x
    have hstep := (codes D).leads_act ⟨.select codeHash, some (some x)⟩ hl
    rcases hstep with hx | ⟨hnone, -⟩
    · simp only [CodeOp.exec, Prod.mk.injEq, Option.some.injEq] at hx
      exact .inr (.codeCitizen (List.mem_of_find?_eq_some hx.1))
    · simp at hnone
  · exact hk.elim

theorem keepsReferences_broker (D : Deployment) :
    (broker D).KeepsReferences Store.Has Store.Refers Op.Stores Cmd.Names where
  init k hk := by cases hk <;> simp_all [broker, Store.empty]
  has := has_later
  refers := refers_before
  names := there_of_names

end Commands

/-! ## What the handlers have read -/

/-- The commands that write no reference. -/
@[reducible] def Op.refFree : Op → Bool
  | .binding (.insert _ _ _ _ _ _) => false
  | .subject (.insert _) => false
  | .txn (.insert _ _ _ _ _ _ _ _ _) => false
  | .txn (.resolve _ _ _ _ _) => false
  | .code (.insert _) => false
  | .consent (.insert _ _ _ _ _) => false
  | _ => true

theorem Op.plain_refFree {o : Op} (ho : o.plain = true) : o.refFree = true := by
  unfold Op.refFree
  split <;> simp_all [Op.plain]

theorem Op.reverifying_refFree {o : Op} (ho : o.reverifying = true) : o.refFree = true := by
  unfold Op.refFree
  split <;> simp_all [Op.reverifying]

theorem Op.not_stores {o : Op} (ho : o.refFree = true) (k : Ref) : ¬ o.Stores k := by
  unfold Op.Stores
  split <;> simp_all [Op.refFree]

/-- A program that writes no reference. -/
abbrev RefFree {α : Type} (p : H α) : Prop := p.Only fun o => o.refFree = true

/-- The call has been told of a row. -/
def Knows (h : Path) (k : Ref) : Prop := ∃ a ∈ h, Cmd.Names a k

/-- What a command of the request may write after the path `h`. -/
abbrev Told (q : Request) : Path → Op → Prop := ToldOn Op.Stores Cmd.Names q.Brings

section Handlers

variable {α : Type} {D : Deployment} {q : Request} {h h' : Path} {k : Ref}

theorem Knows.mono (hs : h <:+ h') (hk : Knows h k) : Knows h' k := by
  obtain ⟨a, ha, hnames⟩ := hk
  exact ⟨a, hs.mem ha, hnames⟩

theorem told_of_refFree {o : Op} (ho : o.refFree = true) : Told q h o :=
  toldOn_of_storesNothing (Op.not_stores ho)

theorem refFree_await {o : Op} (ho : o.refFree = true) : RefFree (await o) := only_perform _ ho

theorem refFree_auditAppend (event : AuditEventInput) : RefFree (auditAppend event) := only_perform _ rfl

/-- A program of plain commands. -/
theorem refFree_of_plain {p : H α} (hp : PlainOnly p) : RefFree p :=
  hp.mono fun _ ho => Op.plain_refFree ho

theorem RefFree.yields {p : H α} (hp : RefFree p) : Yields (Told q) h p fun _ h' => h <:+ h' :=
  Only.yields hp (fun _ _ hs ho => ⟨told_of_refFree ho, fun _ => hs.trans (List.suffix_cons _ _)⟩) List.suffix_rfl

/-! ### Programs that write no reference -/

theorem refFree_issue (purpose : ChallengePurpose) (bindingId : String) : RefFree (issue D purpose bindingId) :=
  .bind (refFree_await rfl) fun _ => .bind (refFree_await rfl) fun _ => .bind (refFree_await rfl) fun _ =>
    .bind (refFree_await rfl) fun _ => only_pure _

theorem refFree_reassertNow (citizenId bindingId trigger : String) (now : Time) :
    RefFree (reassertNow citizenId bindingId trigger now) :=
  (reverifying_reassertNow _ _ _ _).mono fun _ ho => Op.reverifying_refFree ho

theorem refFree_reassertIfDue (citizenId trigger : String) (binding : DeviceBinding) (force : Bool) :
    RefFree (reassertIfDue D citizenId binding force trigger) :=
  (reverifying_reassertIfDue _ _ _ _ _).mono fun _ ho => Op.reverifying_refFree ho

theorem refFree_attestationChallenge (ip : String) : RefFree (attestationChallenge D ip) :=
  .bind (refFree_of_plain (only_hit _ _ _)) fun _ =>
    .bind (.bind (refFree_await rfl) fun _ => .bind (refFree_await rfl) fun _ => .bind (refFree_await rfl) fun _ =>
      .bind (refFree_await rfl) fun _ => only_pure _) fun _ => .bind (refFree_auditAppend _) fun _ => only_pure _

theorem refFree_activate (body : EnrolActivateRequest) : RefFree (activate body) :=
  .bind (only_throwIf _ _) fun _ => .bind (refFree_await rfl) fun _ => .bind (only_orThrow _ _) fun _ =>
    .bind (only_throwIf _ _) fun _ => .bind (refFree_of_plain (only_consume _ _ _)) fun _ =>
      .bind (refFree_of_plain (only_verifyDeviceSignature _ _ _)) fun _ => .bind (refFree_await rfl) fun _ =>
        .bind (refFree_await rfl) fun _ => .bind (refFree_auditAppend _) fun _ => only_pure _

theorem refFree_loadBinding (bindingId : String) : RefFree (loadBinding bindingId) :=
  .bind (refFree_await rfl) fun _ => only_orThrow _ _

theorem refFree_issueLoginChallenge (bindingId : String) : RefFree (issueLoginChallenge D bindingId) :=
  .bind (only_throwIf _ _) fun _ => .bind (refFree_loadBinding _) fun _ => .bind (only_throwIf _ _) fun _ =>
    .bind (refFree_of_plain (only_assertNotLockedOut _ _)) fun _ => .bind (refFree_issue _ _) fun _ =>
      .bind (refFree_auditAppend _) fun _ => only_pure _

theorem refFree_login (body : LoginRequest) : RefFree (login D body) :=
  .bind (only_throwIf _ _) fun _ => .bind (refFree_loadBinding _) fun _ => .bind (only_throwIf _ _) fun _ =>
    .bind (refFree_of_plain (only_proveLogin _ _)) fun _ => .bind (refFree_await rfl) fun _ =>
      .bind (refFree_reassertIfDue _ _ _ _) fun _ => .bind (refFree_await rfl) fun _ =>
        .bind (refFree_await rfl) fun _ => .bind (refFree_auditAppend _) fun _ => .bind (refFree_await rfl) fun _ =>
          only_pure _

theorem refFree_deviceSession (bearer : Option String) : RefFree (deviceSession bearer) :=
  refFree_of_plain (only_deviceSession bearer)

theorem refFree_revokeBinding (bearer : Option String) (bindingId : String) (reason : Option String) :
    RefFree (revokeBinding bearer bindingId reason) :=
  .bind (refFree_deviceSession _) fun _ => .bind (only_throwIf _ _) fun _ => .bind (refFree_await rfl) fun _ =>
    .bind (only_orThrow _ _) fun _ => .bind (only_throwIf _ _) fun _ => .ite (only_pure _)
      (.bind (refFree_await rfl) fun _ => .bind (refFree_await rfl) fun _ => refFree_auditAppend _)

theorem refFree_registerPushToken (bearer : Option String) (platform : PushPlatform) (address : String) :
    RefFree (registerPushToken bearer platform address) :=
  .bind (refFree_deviceSession _) fun _ => .bind (only_throwIf _ _) fun _ => .bind (refFree_await rfl) fun _ =>
    refFree_await rfl

theorem refFree_removePushToken (bearer : Option String) : RefFree (removePushToken bearer) :=
  .bind (refFree_deviceSession _) fun _ => refFree_of_plain (only_clearToken _)

theorem refFree_revokeConsent (bearer : Option String) (consentId : String) :
    RefFree (revokeConsent bearer consentId) :=
  .bind (refFree_deviceSession _) fun _ => .bind (only_throwIf _ _) fun _ => .bind (refFree_await rfl) fun _ =>
    .bind (only_orThrow _ _) fun _ => .ite (only_pure _) (.bind (refFree_await rfl) fun _ =>
      .bind (refFree_await rfl) fun _ => refFree_auditAppend _)

theorem refFree_pending (bearer : Option String) : RefFree (pending D bearer) :=
  .bind (refFree_deviceSession _) fun _ => .bind (refFree_await rfl) fun _ => .bind (refFree_await rfl) fun _ =>
    .ite (only_pure _) (.bind (refFree_await rfl) fun _ => Only.forEach (fun _ =>
      .bind (.bind (refFree_await rfl) fun _ => .bind (refFree_await rfl) fun _ => .bind (refFree_await rfl) fun _ =>
        .bind (refFree_await rfl) fun _ => only_pure _) fun _ => only_pure _) _)

theorem refFree_userinfo (bearer : Option String) : RefFree (userinfo bearer) := by
  refine .bind (only_orThrow _ _) fun _ => .bind (.recover (refFree_await rfl) fun _ => only_throwing _) fun _ =>
    .bind (only_throwIf _ _) fun _ => .bind (refFree_await rfl) fun _ => .bind (only_throwIf _ _) fun _ =>
      .bind (only_orThrow _ _) fun _ => .bind (only_orThrow _ _) fun _ => .bind (refFree_await rfl) fun _ =>
        .bind (only_orThrow _ _) fun _ => .bind (refFree_of_plain (only_citizenForSubject _ _)) fun _ =>
          .bind (only_orThrow _ _) fun _ => .bind (refFree_await rfl) fun _ => .bind (only_orThrow _ _) fun _ =>
            .bind (refFree_await rfl) fun _ => .bind (only_throwIf _ _) fun _ => .bind ?_ fun _ => only_pure _
  unfold releasedAttributes
  split
  · refine .ite (.bind (.recover (refFree_await rfl) fun _ => only_throwing _) fun answer => ?_) (only_pure _)
    cases answer with
    | ok attrs => exact only_pure _
    | unknownIdentity => exact only_pure _
    | unavailable => exact only_throwing _
  · exact only_pure _

theorem refFree_introspect (creds : Option Credentials) (token : Option String) :
    RefFree (introspect D creds token) := by
  refine .bind (refFree_of_plain (only_authenticateClient _ _)) fun _ => ?_
  cases truthy token with
  | none => exact only_pure _
  | some token =>
    exact .recover (.bind (refFree_await rfl) fun _ => .bind (refFree_await rfl) fun _ =>
      .ite (only_pure _) (only_pure _)) fun _ => only_pure _

theorem refFree_revoke (creds : Option Credentials) (token : Option String) : RefFree (revoke D creds token) := by
  refine .bind (refFree_of_plain (only_authenticateClient _ _)) fun rp => ?_
  cases (truthy token).bind D.decodeJwt with
  | none => exact only_pure _
  | some payload =>
    refine .recover ?_ fun _ => only_pure _
    unfold denyToken
    split
    · exact only_pure _
    · exact .ite (.bind (refFree_await rfl) fun _ => .bind (refFree_await rfl) fun _ => refFree_auditAppend _)
        (only_pure _)

theorem refFree_registerRp (bearer : Option String) (body : RegisterRpRequest) :
    RefFree (registerRp D bearer body) :=
  .bind (only_throwIf _ _) fun _ => .bind (only_throwIf _ _) fun _ => .bind (refFree_await rfl) fun _ =>
    .bind (refFree_await rfl) fun _ => .bind (refFree_await rfl) fun _ => .bind (refFree_await rfl) fun _ =>
      .bind (refFree_await rfl) fun _ => .bind (refFree_auditAppend _) fun _ => only_pure _

theorem refFree_suspendRp (bearer : Option String) (rpId : String) : RefFree (suspendRp D bearer rpId) :=
  .bind (only_throwIf _ _) fun _ => .bind (refFree_await rfl) fun _ => .bind (only_throwIf _ _) fun _ =>
    refFree_auditAppend _

theorem refFree_verifyAudit (bearer : Option String) : RefFree (verifyAudit D bearer) :=
  .bind (only_throwIf _ _) fun _ => .bind (refFree_await rfl) fun _ => only_pure _

theorem refFree_reverifySweep (bearer : Option String) (limit : Option ℕ) :
    RefFree (reverifySweep D bearer limit) := by
  refine .bind (only_throwIf _ _) fun _ => .bind (only_throwIf _ _) fun _ => .bind ?_ fun _ =>
    .bind (refFree_auditAppend _) fun _ => only_pure _
  refine .bind (refFree_await rfl) fun _ => .bind (refFree_await rfl) fun _ =>
    .bind (Only.forEach (fun p => ?_) _) fun _ => only_pure _
  exact .recover (.bind (refFree_await rfl) fun _ => .bind (refFree_reassertNow _ _ _ _) fun _ => only_pure _)
    fun _ => .ite (only_pure _) (only_throwing _)

theorem refFree_probeSigning : RefFree probeSigning :=
  .bind (refFree_await rfl) fun _ => .bind (refFree_await rfl) fun _ => only_pure _

/-! ### Programs that write references -/

/-- Client authentication reads the relying party. -/
theorem told_authenticateClient (creds : Option Credentials) :
    Yields (Told q) h (authenticateClient D creds) fun rp h' => h <:+ h' ∧ Knows h' (.rp rp.id) := by
  simp only [authenticateClient, loadByClientId, yields_bind, yields_orThrow, yields_await, yields_throwIf, yields_pure]
  intro cr _
  refine ⟨told_of_refFree rfl, fun row rp hrow digest _ _ _ => ⟨List.suffix_cons _ _, _, List.mem_cons_self, ?_⟩⟩
  subst hrow
  rfl

/-- A subject that was resolved is that of a citizen. -/
theorem yields_citizenForSubject (rpId : Uuid) (subject : String) :
    Yields (Told q) h (citizenForSubject rpId subject) fun resolved h' => h <:+ h' ∧
      ∀ citizenId, resolved = some citizenId → Knows h' (.citizen citizenId) := by
  simp only [citizenForSubject, yields_bind, yields_await, yields_pure]
  refine ⟨told_of_refFree rfl, fun row => ⟨List.suffix_cons _ _, fun citizenId hrow => ?_⟩⟩
  obtain ⟨x, rfl, rfl⟩ := Option.map_eq_some_iff.mp hrow
  exact ⟨_, List.mem_cons_self, rfl⟩

theorem told_subjectFor {citizenId rpId : Uuid} {salt : String} (hcitizen : Knows h (.citizen citizenId))
    (hrp : Knows h (.rp rpId)) :
    Yields (Told q) h (subjectFor D citizenId rpId salt) fun _ h' => h <:+ h' := by
  simp only [subjectFor, yields_bind, yields_await]
  refine ⟨told_of_refFree rfl, fun existing => ?_⟩
  cases existing with
  | some row => exact List.suffix_cons _ _
  | none =>
    simp only [yields_bind, yields_await, yields_pure]
    refine ⟨fun k hk => .inr ?_, fun _ => (List.suffix_cons _ _).trans (List.suffix_cons _ _)⟩
    rcases hk with rfl | rfl
    · exact hcitizen.mono (List.suffix_cons _ _)
    · exact hrp.mono (List.suffix_cons _ _)

theorem yields_mint_told {rp : RelyingParty} {citizenId : Uuid} {scopes : List String} {acr : AssuranceLevel}
    {authTime : Time} {nonce : Option String} (hcitizen : Knows h (.citizen citizenId)) (hrp : Knows h (.rp rp.id)) :
    Yields (Told q) h (mint D rp citizenId scopes acr authTime nonce) fun _ h' => h <:+ h' := by
  simp only [mint, yields_bind]
  refine (told_subjectFor hcitizen hrp).mono fun sub h₁ hs => ?_
  simp only [yields_await, yields_pure]
  refine ⟨told_of_refFree rfl, fun _ => ⟨told_of_refFree rfl, fun _ => ?_⟩⟩
  exact hs.trans ((List.suffix_cons _ _).trans (List.suffix_cons _ _))

theorem told_enrolStart (body : EnrolStartRequest) (ip : String) :
    Yields (Told q) h (start D body ip) fun _ _ => True := by
  simp only [start, yields_bind, yields_throwIf]
  intro _
  refine (refFree_of_plain (only_enrolmentGates _ _ _ _)).yields.mono fun verdict h₁ _ => ?_
  refine (refFree_of_plain (only_matchAgainstReference _ _)).yields.mono fun outcome h₂ _ => ?_
  simp only [bindDevice, yields_bind, yields_uuidv7, yields_newDate, yields_await, yields_ite, yields_auditAppend,
    yields_refuse]
  refine ⟨told_of_refFree rfl, fun newId => ⟨told_of_refFree rfl, fun updatedAt => ⟨told_of_refFree rfl,
    fun citizenId => ⟨told_of_refFree rfl, fun count => ⟨fun _ => ⟨told_of_refFree rfl, trivial⟩, fun _ =>
      ⟨told_of_refFree rfl, fun bindingId => ⟨fun k hk => .inr ?_, fun _ => ⟨told_of_refFree rfl, ?_⟩⟩⟩⟩⟩⟩⟩⟩
  · -- The upsert has told the id of the citizen.
    change k = .citizen citizenId at hk
    subst hk
    exact ⟨⟨.citizen (.upsert newId (D.pseudoNid body.nid) outcome.sdidSubject updatedAt), some citizenId⟩,
      by simp, rfl⟩
  · exact (refFree_issue _ _).yields.mono fun _ _ _ => trivial

theorem told_bcAuthorize (creds : Option Credentials) (body : BcAuthorizeRequest) :
    Yields (Told q) h (bcAuthorize D creds body) fun _ _ => True := by
  simp only [bcAuthorize, yields_bind, yields_throwIf]
  intro _
  refine (told_authenticateClient creds).mono fun rp h₁ ⟨_, hrp⟩ => ?_
  refine (refFree_of_plain (only_hit _ _ _)).yields.mono fun _ h₂ hs₂ _ _ _ => ?_
  refine (yields_citizenForSubject _ _).mono fun resolved h₃ ⟨hs₃, hcitizen⟩ => ?_
  simp only [yields_orThrow, yields_await, yields_randomBytes, yields_uuidv7, yields_newDate]
  refine fun citizenId hresolved => ⟨told_of_refFree rfl, fun bindings _ => ⟨told_of_refFree rfl, fun authReqId =>
    ⟨told_of_refFree rfl, fun id => ⟨told_of_refFree rfl, fun now => ⟨fun k hk => .inr ?_, fun _ => ?_⟩⟩⟩⟩⟩
  · rcases hk with rfl | rfl
    · exact (hcitizen citizenId hresolved).mono ⟨[_, _, _, _], rfl⟩
    · exact (hrp.mono (hs₂.trans hs₃)).mono ⟨[_, _, _, _], rfl⟩
  · refine (refFree_of_plain (only_wake _)).yields.mono fun _ h₄ _ => ?_
    simp only [yields_auditAppend, yields_pure]
    exact ⟨told_of_refFree rfl, trivial⟩

theorem told_authorize (query : AuthorizeRequest) : Yields (Told q) h (authorize D query) fun _ _ => True := by
  simp only [authorize, loadByClientId, yields_bind, yields_orThrow, yields_await, yields_throwIf]
  refine fun hint _ => ⟨told_of_refFree rfl, fun row rp hrow _ _ _ _ => ?_⟩
  subst hrow
  have hlevel : RefFree (requestedLevel rp query.acr_values) := by
    cases query.acr_values with
    | none => exact only_pure _
    | some level => exact .bind (only_orThrow _ _) fun _ => .bind (only_throwIf _ _) fun _ => only_pure _
  have hrp : Knows (⟨.rp (.selectByClientId query.client_id), some (some rp)⟩ :: h) (.rp rp.id) :=
    ⟨_, List.mem_cons_self, rfl⟩
  refine hlevel.yields.mono fun level h₁ hs₁ => ?_
  refine (yields_citizenForSubject _ _).mono fun resolved h₂ hresolved => ?_
  obtain ⟨hs₂, hcitizen⟩ := hresolved
  cases resolved with
  | none => trivial
  | some citizenId =>
    simp only [yields_bind, yields_await, yields_randomBytes, yields_uuidv7, yields_newDate]
    refine ⟨told_of_refFree rfl, fun authReqId => ⟨told_of_refFree rfl, fun now => ⟨told_of_refFree rfl, fun id =>
      ⟨fun k hk => .inr ?_, fun _ => ⟨told_of_refFree rfl, fun _ => ?_⟩⟩⟩⟩⟩
    · rcases hk with rfl | rfl
      · exact (hcitizen citizenId rfl).mono ⟨[_, _, _], rfl⟩
      · exact (hrp.mono (hs₁.trans hs₂)).mono ⟨[_, _, _], rfl⟩
    · refine (refFree_of_plain (only_wake _)).yields.mono fun _ h₃ _ => ?_
      simp only [yields_auditAppend, yields_pure]
      exact ⟨told_of_refFree rfl, trivial⟩

theorem refFree_approvingBinding (deviceBindingId : Option Uuid) : RefFree (approvingBinding deviceBindingId) := by
  cases deviceBindingId with
  | none => exact only_pure _
  | some id => exact refFree_await rfl

/-- A code is of the citizen and the relying party of its transaction. -/
theorem told_authorizePoll (txn : Option String) : Yields (Told q) h (authorizePoll D txn) fun _ _ => True := by
  unfold authorizePoll
  cases truthy txn with
  | none => trivial
  | some txn =>
    simp only [yields_bind, yields_await]
    refine ⟨told_of_refFree rfl, fun found => ?_⟩
    cases found with
    | none => trivial
    | some T =>
      have hT : ∀ k, k = .citizen T.citizenId ∨ k = .rp T.rpId →
          Knows (⟨.txn (.select txn), some (some T)⟩ :: h) k :=
        fun k hk => ⟨_, List.mem_cons_self, hk⟩
      simp only [yields_ite, yields_pure, yields_bind, yields_newDate, yields_await, implies_true, true_and]
      refine fun _ => ⟨told_of_refFree rfl, fun now _ _ => ⟨told_of_refFree rfl, fun stashRaw => ?_⟩⟩
      cases stashRaw with
      | none => trivial
      | some stash =>
        simp only [yields_bind]
        refine (refFree_approvingBinding _).yields.mono fun bindingRow h₁ hs₁ => ?_
        cases bindingRow with
        | none => trivial
        | some binding =>
          have hresolved : RefFree (resolvedOrNow T) := by
            unfold resolvedOrNow
            split
            · exact only_pure _
            · exact refFree_await rfl
          simp only [issueCode, yields_bind, yields_await, yields_ite, yields_pure, yields_randomBytes, implies_true,
            true_and]
          refine ⟨told_of_refFree rfl, fun consumed _ => ⟨told_of_refFree rfl, fun code => ?_⟩⟩
          refine hresolved.yields.mono fun authTime h₂ hs₂ => ⟨fun k hk => .inr ?_, fun _ =>
            ⟨told_of_refFree rfl, fun _ => ?_⟩⟩
          · refine (hT k hk).mono (List.IsSuffix.trans ?_ hs₂)
            exact List.IsSuffix.trans ⟨[_, _], rfl⟩ (hs₁.trans ⟨[_, _], rfl⟩)
          · simp only [yields_auditAppend, and_true]
            exact told_of_refFree rfl

theorem told_cibaGrant {rp : RelyingParty} {body : TokenRequest} (hrp : Knows h (.rp rp.id)) :
    Yields (Told q) h (cibaGrant D rp body) fun _ _ => True := by
  simp only [cibaGrant, yields_bind, yields_orThrow, yields_await, yields_throwIf]
  refine fun authReqId _ => ⟨told_of_refFree rfl, fun row T hrow _ => ?_⟩
  subst hrow
  have hT : Knows (⟨.txn (.select authReqId), some (some T)⟩ :: h) (.citizen T.citizenId) :=
    ⟨_, List.mem_cons_self, .inl rfl⟩
  simp only [cibaGrantOf, markExpired, yields_bind, yields_newDate, yields_ite, yields_await, yields_onlyIf,
    yields_auditAppend, yields_refuse, yields_throwIf]
  refine ⟨told_of_refFree rfl, fun now => ⟨fun _ => ⟨told_of_refFree rfl, fun marked => ⟨fun _ =>
    ⟨told_of_refFree rfl, trivial⟩, fun _ => trivial⟩⟩, fun _ _ _ _ _ => ?_⟩⟩
  refine (refFree_approvingBinding _).yields.mono fun bindingRow h₁ hs₁ => ?_
  simp only [yields_orThrow]
  refine fun binding _ => ⟨told_of_refFree rfl, fun consumed _ => ?_⟩
  have hs : h <:+ h₁ := List.IsSuffix.trans ⟨[_, _], rfl⟩ hs₁
  have hcitizen₁ := hT.mono (List.IsSuffix.trans ⟨[_], rfl⟩ hs₁)
  refine (yields_mint_told (hcitizen₁.mono (List.suffix_cons _ _)) ((hrp.mono hs).mono (List.suffix_cons _ _))).mono
    fun response h₂ hs₂ => ?_
  simp only [yields_uuidv7, yields_pure, and_true]
  refine ⟨told_of_refFree rfl, fun consentId => ⟨fun k hk => .inr ?_, fun _ => ⟨told_of_refFree rfl,
    told_of_refFree rfl⟩⟩⟩
  -- The consent is written as texts, which spell the two ids.
  have hs₃ : h₁ <:+ (⟨.ambient .uuidv7, some consentId⟩ : Cmd) :: h₂ :=
    ((List.suffix_cons _ _).trans hs₂).trans (List.suffix_cons _ _)
  rcases hk with ⟨u, hu, rfl⟩ | ⟨u, hu, rfl⟩
  · rw [Uuid.ofText_text, Option.some.injEq] at hu
    rw [← hu]
    exact hcitizen₁.mono hs₃
  · rw [Uuid.ofText_text, Option.some.injEq] at hu
    rw [← hu]
    exact hrp.mono (hs.trans hs₃)

theorem told_codeGrant {rp : RelyingParty} {body : TokenRequest} (hrp : Knows h (.rp rp.id)) :
    Yields (Told q) h (codeGrant D rp body) fun _ _ => True := by
  simp only [codeGrant, yields_bind, yields_orThrow, yields_await, yields_newDate, yields_throwIf]
  refine fun code _ uri _ verifier _ => ⟨told_of_refFree rfl, fun found => ⟨told_of_refFree rfl,
    fun now x hfound _ => ⟨told_of_refFree rfl, fun consumed _ => ?_⟩⟩⟩
  subst hfound
  have hx : Knows (⟨.code (.select (D.sha256Hex code)), some (some x)⟩ :: h) (.citizen x.citizenId) :=
    ⟨_, List.mem_cons_self, rfl⟩
  refine (yields_mint_told (hx.mono ⟨[_, _], rfl⟩) (hrp.mono ⟨[_, _, _], rfl⟩)).mono fun response h₂ _ => ?_
  simp only [yields_auditAppend, yields_pure, and_true]
  exact told_of_refFree rfl

theorem told_token (creds : Option Credentials) (body : TokenRequest) :
    Yields (Told q) h (token D creds body) fun _ _ => True := by
  simp only [token, yields_bind]
  refine (told_authenticateClient creds).mono fun rp h₁ ⟨_, hrp⟩ => ?_
  simp only [yields_ite, yields_refuse, implies_true, and_true]
  exact ⟨fun _ => told_cibaGrant hrp, fun _ _ => told_codeGrant hrp⟩

theorem told_provisionPairwise (bearer : Option String) (rpId pseudoNid : String) :
    Yields (Told q) h (provisionPairwise D bearer rpId pseudoNid) fun _ _ => True := by
  simp only [provisionPairwise, adminGuard, yields_bind, yields_throwIf, yields_await, yields_orThrow]
  refine fun _ _ => ⟨told_of_refFree rfl, fun rpRow rp hrpRow => ⟨told_of_refFree rfl,
    fun citizenRow citizen hcitizenRow => ?_⟩⟩
  subst hrpRow hcitizenRow
  have hcitizen : Knows (⟨.citizen (.selectByPseudoNid pseudoNid), some (some citizen)⟩ ::
      ⟨.rp (.select rpId), some (some rp)⟩ :: h) (.citizen citizen.id) :=
    ⟨_, List.mem_cons_self, rfl⟩
  have hrp : Knows (⟨.citizen (.selectByPseudoNid pseudoNid), some (some citizen)⟩ ::
      ⟨.rp (.select rpId), some (some rp)⟩ :: h) (.rp rp.id) :=
    ⟨_, List.mem_cons_of_mem _ List.mem_cons_self, rfl⟩
  refine (told_subjectFor hcitizen hrp).mono
    fun subject h₁ _ => ?_
  simp only [yields_auditAppend, yields_pure, and_true]
  exact told_of_refFree rfl

/-- The binding that decides was read, under the id of the session. -/
theorem told_decision (bearer : Option String) (body : CibaDecisionRequest) :
    Yields (Told q) h (decision D bearer body) fun _ _ => True := by
  simp only [decision, yields_bind]
  refine (refFree_deviceSession bearer).yields.mono fun session h₁ _ => ?_
  simp only [yields_throwIf, yields_newDate, yields_await, yields_orThrow]
  refine fun _ => ⟨told_of_refFree rfl, fun now => ⟨told_of_refFree rfl, fun txnRow txn _ _ => ⟨told_of_refFree rfl,
    fun bindingRow binding hbinding _ _ => ?_⟩⟩⟩
  subst hbinding
  have hb : Knows (⟨.binding (.select session.bindingId), some (some binding)⟩ ::
      ⟨.txn (.select body.authReqId), some txnRow⟩ :: ⟨.ambient .now, some now⟩ :: h₁) (.binding binding.id) :=
    ⟨_, List.mem_cons_self, rfl⟩
  have happroval : RefFree (onlyIf (body.decision = .approve) (reassertForApproval D txn binding)) :=
    .onlyIf (.bind (refFree_reassertIfDue _ _ _ _) fun _ => only_pure _)
  have hconsume : RefFree (consumeCiba body.challengeId body.authReqId body.bindingId body.decision) :=
    .bind (refFree_await rfl) fun _ => .bind (only_orThrow _ _) fun _ => .bind (only_throwIf _ _) fun _ => only_pure _
  refine happroval.yields.mono fun _ h₂ hs₂ => ?_
  refine hconsume.yields.mono fun payload h₃ hs₃ => ?_
  refine (refFree_of_plain (only_verifyDeviceSignature _ _ _)).yields.mono fun _ h₄ hs₄ => ?_
  simp only [yields_auditAppend, yields_pure, implies_true, and_true]
  refine ⟨fun k hk => .inr ?_, fun _ => ⟨told_of_refFree rfl, told_of_refFree rfl⟩⟩
  change k = .binding binding.id at hk
  subst hk
  exact hb.mono (hs₂.trans (hs₃.trans hs₄))

/-- What `recordGrant` writes is what it was called with. -/
theorem told_recordGrant (citizenId rpId : String) (scopes : List String) (source : String) :
    Yields (Told (.recordGrant citizenId rpId scopes source)) h (recordGrant citizenId rpId scopes source)
      fun _ _ => True := by
  simp only [recordGrant, yields_bind, yields_uuidv7, yields_await, yields_auditAppend, yields_pure, and_true]
  exact ⟨told_of_refFree rfl, fun id => ⟨fun k hk => .inl hk, fun _ => told_of_refFree rfl⟩⟩

/-- A handler that writes what it has read. -/
theorem Yields.told {p : H α} {f : α → Reply} {Q : α → Path → Prop} (hp : Yields (Told q) h p Q) :
    Along (Told q) (fun _ _ => True) h (p.reply f) :=
  Along.mono hp.reply (fun _ _ hΦ => hΦ) fun _ _ _ => trivial

/-- Every handler has been told of what it writes. -/
theorem toldOn_handler (D : Deployment) : ∀ q, Along (Told q) (fun _ _ => True) [] (handler D q)
  | .attestationChallenge ip => (refFree_attestationChallenge ip).yields.told
  | .enrolStart body ip => (told_enrolStart body ip).told
  | .enrolActivate body => (refFree_activate body).yields.told
  | .loginChallenge bindingId => (refFree_issueLoginChallenge bindingId).yields.told
  | .login body => (refFree_login body).yields.told
  | .revokeBinding bearer bindingId reason => (refFree_revokeBinding bearer bindingId reason).yields.told
  | .registerPushToken bearer platform address => (refFree_registerPushToken bearer platform address).yields.told
  | .removePushToken bearer => (refFree_removePushToken bearer).yields.told
  | .recordGrant citizenId rpId scopes source => (told_recordGrant citizenId rpId scopes source).told
  | .revokeConsent bearer consentId => (refFree_revokeConsent bearer consentId).yields.told
  | .bcAuthorize creds body => (told_bcAuthorize creds body).told
  | .pending bearer => (refFree_pending bearer).yields.told
  | .decision bearer body => (told_decision bearer body).told
  | .token creds body => (told_token creds body).told
  | .userinfo bearer => (refFree_userinfo bearer).yields.told
  | .introspect creds token => (refFree_introspect creds token).yields.told
  | .revoke creds token => (refFree_revoke creds token).yields.told
  | .authorize query => (told_authorize query).told
  | .authorizePoll txn => (told_authorizePoll txn).told
  | .registerRp bearer body => (refFree_registerRp bearer body).yields.told
  | .suspendRp bearer rpId => (refFree_suspendRp bearer rpId).yields.told
  | .provisionPairwise bearer rpId pseudoNid => (told_provisionPairwise bearer rpId pseudoNid).told
  | .verifyAudit bearer => (refFree_verifyAudit bearer).yields.told
  | .reverifySweep bearer limit => (refFree_reverifySweep bearer limit).yields.told
  | .onAuditEvent event => (refFree_of_plain (only_onAuditEvent D event)).yields.told
  | .probeSigning => refFree_probeSigning.yields.told

end Handlers

/-! ## In every run -/

variable {D : Deployment} {tr : Run} {c : State}

/-- In every run whose calls of `recordGrant` name rows that are there, no reference of the store dangles. -/
theorem references_hold (hr : (broker D).Reach tr c)
    (hbrought : ∀ s t q k, (⟨s, .arrive t q⟩ : Step) ∈ tr → q.Brings k → s.Has k) :
    Closed Store.Has Store.Refers c.store :=
  hr.closed (keepsReferences_broker D) hbrought (toldOn_handler D)

/-- The entry is the arrival of a call that brings ids. -/
def arrivesWithIds (e : Step) : Bool :=
  match e.event with
  | .arrive _ (.recordGrant _ _ _ _) => true
  | _ => false

theorem arrivesWithIds_of_brings {s : Store} {t : ℕ} {q : Request} {k : Ref} (hk : q.Brings k) :
    arrivesWithIds ⟨s, .arrive t q⟩ = true := by
  unfold Request.Brings at hk
  split at hk
  · rfl
  · exact hk.elim

/-- After an approval and the grant of its tokens the tables refer to each other, and no reference dangles. -/
theorem references_hold_sampleGrant : ∃ tr c, (broker sampleDeployment).Reach tr c ∧
    (c.store.bindings.length, c.store.subjects.length, c.store.txns.length, c.store.consents.length) = (1, 1, 1, 1) ∧
    Closed Store.Has Store.Refers c.store := by
  obtain ⟨tr, c, hr, hp⟩ := (broker sampleDeployment).exists_of_play sampleGrant.reverse
    (p := fun run => run.1.all (fun e => !arrivesWithIds e) && (run.2.store.bindings.length,
      run.2.store.subjects.length, run.2.store.txns.length, run.2.store.consents.length) == (1, 1, 1, 1))
    (by decide +kernel)
  simp only [Bool.and_eq_true, List.all_eq_true, Bool.not_eq_eq_eq_not, Bool.not_true, beq_iff_eq] at hp
  refine ⟨tr, c, hr, hp.2, references_hold hr fun s t q k hq hk => ?_⟩
  have hnone : arrivesWithIds ⟨s, .arrive t q⟩ = false := hp.1 _ hq
  rw [arrivesWithIds_of_brings hk] at hnone
  simp at hnone

end SdidBridge
