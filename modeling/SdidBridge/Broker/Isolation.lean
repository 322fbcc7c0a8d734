import SdidBridge.Broker.ClientCalls

/-!
# Isolation of relying parties

Two runs that differ in what is one relying party's alone: its transactions, its codes, its subjects, and its
tokens, with what goes with them (`AgreeBut`). What another relying party is answered to the same request is
the same in both, at every endpoint that authenticates it (`isolated_from_other`).

Introspection does not look at whose the token is. It tells the tokens of another relying party from texts that
are no tokens.
-/

namespace SdidBridge

open Concurrent Machine

variable {D : Deployment} {b : RelyingParty}

/-! ## What is one relying party's -/

/-- What two stores have in common when they differ in what is the relying party's `b`. No client is shown the
audit trail, the citizens, or what has been drawn at random. -/
structure AgreeBut (b : RelyingParty) (s₁ s₂ : Store) : Prop where
  /-- The time. -/
  now : s₁.now = s₂.now
  /-- The relying parties. -/
  rps : s₁.rps = s₂.rps
  /-- The bindings. -/
  bindings : s₁.bindings = s₂.bindings
  /-- The subjects of the others. -/
  subjects : s₁.subjects.filter (·.rpId ≠ b.id) = s₂.subjects.filter (·.rpId ≠ b.id)
  /-- The transactions of the others. -/
  txns : s₁.txns.filter (·.rpId ≠ b.id) = s₂.txns.filter (·.rpId ≠ b.id)
  /-- The codes of the others. -/
  codes : s₁.codes.filter (·.rpId ≠ b.id) = s₂.codes.filter (·.rpId ≠ b.id)
  /-- The consents to the others. -/
  consents : s₁.consents.filter (·.rpId ≠ b.id) = s₂.consents.filter (·.rpId ≠ b.id)
  /-- The tokens for the others. -/
  jwts : s₁.jwts.filter (·.aud ≠ b.clientId) = s₂.jwts.filter (·.aud ≠ b.clientId)
  /-- Which of them are on the denylist. -/
  denylist : ∀ j ∈ s₁.jwts, j.aud ≠ b.clientId →
    lookup s₁.now ("revoked:" ++ j.jti) s₁.flags = lookup s₂.now ("revoked:" ++ j.jti) s₂.flags
  /-- The counters but its own. -/
  counters : ∀ key, key ≠ hitsKey b.id → lookup s₁.now key s₁.counters = lookup s₂.now key s₂.counters

/-- The id of a new row is not one that a row of the relying party's has. -/
def NewId (b : RelyingParty) (s : Store) : Op → Prop
  | .txn (.insert id _ _ _ _ _ _ _ _) => ∀ T ∈ s.txns, T.rpId = b.id → T.id ≠ id
  | .consent (.insert id _ _ _ _) => ∀ g ∈ s.consents, g.rpId = b.id → g.id ≠ id
  | _ => True

/-- The command is executed on two stores that differ in what is the relying party's `b`, and the ids that
were drawn for it are new in both. -/
def SameBut (b : RelyingParty) (o : Op) (s₁ s₂ : Store) : Prop :=
  AgreeBut b s₁ s₂ ∧ NewId b s₁ o ∧ NewId b s₂ o

/-! ## What related stores answer -/

section Answers

variable {tr l₁ l₂ : Run} {c : State} {s s₁ s₂ : Store} {t : ℕ} {q : Request}

/-- The row that was read by another client id is another's. -/
theorem rp_ne (hr : (broker D).Reach tr c) (hb : b ∈ c.store.rps) {clientId : String} {rp : RelyingParty}
    (hread : Did tr t ⟨.rp (.selectByClientId clientId), some (some rp)⟩) (hother : clientId ≠ b.clientId) :
    rp.id ≠ b.id := by
  intro hid
  obtain ⟨rp', hrp', hregistered⟩ := rp_of_read hr (.inl ⟨clientId, mem_own.mpr hread⟩)
  have hclientId : rp.clientId = clientId := by
    obtain ⟨m₁, s', m₂, rfl⟩ := hread.split
    exact (mem_of_selectByClientId hr).2
  have hid' : rp'.id = b.id := (congrArg RelyingParty.id hregistered).trans hid
  have heq : rp' = b := List.inj_on_of_nodup_map (rps_nodup hr) hrp' hb hid'
  have hclientId' : rp'.registered.clientId = rp.registered.clientId := by rw [hregistered]
  refine hother ?_
  calc clientId = rp.clientId := hclientId.symm
    _ = rp'.clientId := hclientId'.symm
    _ = b.clientId := by rw [heq]

/-- The relying party of a call is not another one. -/
theorem ownRp_ne (hr : (broker D).Reach tr c) (hb : b ∈ c.store.rps) {clientId : String}
    (hq : q.authenticated = some clientId) (hother : clientId ≠ b.clientId) {rp : RelyingParty}
    (hown : OwnRp q (own t tr) rp) : rp.id ≠ b.id := by
  obtain ⟨clientId', hclient, hread, -⟩ := hown
  have hsame : clientId' = clientId := by
    cases q with
    | token creds body => exact Option.some.inj (hclient.symm.trans hq)
    | introspect creds token => exact Option.some.inj (hclient.symm.trans hq)
    | revoke creds token => exact Option.some.inj (hclient.symm.trans hq)
    | bcAuthorize creds body => exact Option.some.inj (hclient.symm.trans hq)
    | _ => simp [Request.authenticated] at hq
  rw [← hsame] at hother
  exact rp_ne hr hb (mem_own.mp hread) hother

/-- A transaction that a call may expire or consume is one of its relying party's, in the store. -/
theorem own_txn (hr : (broker D).Reach tr c) {rp : RelyingParty} {authReqId : String} {T : AuthTransaction}
    (hread : ReadsTxn (own t tr) authReqId T) (hrp : T.rpId = rp.id) (hne : rp.id ≠ b.id) :
    ∃ T' ∈ c.store.txns, T'.id = T.id ∧ T'.rpId ≠ b.id := by
  obtain ⟨-, T', hT', hid⟩ := txn_of_read hr (mem_own.mp hread)
  refine ⟨T', hT', congrArg Prod.fst hid, ?_⟩
  have hrpId : T'.rpId = T.rpId := congrArg (fun i => i.2.2.2.1) hid
  rw [hrpId, hrp]
  exact hne

/-- A key of a row of another's is not one of the relying party's, in tables that agree. -/
theorem kept_of_agree {α κ : Type} {rpId : α → Uuid} {key : α → κ} {rows rows' : List α}
    (hn : (rows.map key).Nodup) (hn' : (rows'.map key).Nodup)
    (h : rows.filter (fun x => rpId x ≠ b.id) = rows'.filter (fun x => rpId x ≠ b.id)) {x : α} (hx : x ∈ rows)
    (hne : rpId x ≠ b.id) :
    (∀ y ∈ rows, key y = key x → rpId y ≠ b.id) ∧ ∀ y ∈ rows', key y = key x → rpId y ≠ b.id := by
  have hmem : x ∈ rows.filter (fun x => rpId x ≠ b.id) := List.mem_filter.mpr ⟨hx, by simpa using hne⟩
  rw [h] at hmem
  refine ⟨fun y hy hkey => ?_, fun y hy hkey => ?_⟩
  · rw [List.inj_on_of_nodup_map hn hy hx hkey]
    exact hne
  · rw [List.inj_on_of_nodup_map hn' hy (List.mem_of_mem_filter hmem) hkey]
    exact hne

/-- A request id that has just been drawn is not one of a stored transaction. -/
theorem authReqId_new {id citizenId rpId : Uuid} {authReqId : String} {flow : Flow} {scopes : List String}
    {al : AssuranceLevel} {message : Option String} {expiresAt : Time} {r : Option Unit}
    (hr : (broker D).Reach (l₁ ++ ⟨s, .act t ⟨.txn (.insert id authReqId citizenId rpId flow scopes al message
      expiresAt), r⟩⟩ :: l₂) c)
    (hnone : ∀ a ∈ own t l₂, a.op.startsTxn = false) : ∀ T ∈ s.txns, T.authReqId ≠ authReqId := by
  rintro T hT rfl
  obtain ⟨c₀, -, -, hr₀, hb, -⟩ := hr.entry
  obtain ⟨q, hq, hstarts, -⟩ := onPath hr
  have hT₀ : T ∈ c₀.store.txns := by
    rw [show c₀.store = s from hb]
    exact hT
  obtain ⟨u, q', hq', hstarts', hins⟩ := startsOn_of_stored hr₀ hT₀
  -- The id was drawn once, so that it was this call that inserted the other transaction.
  have hsame := (draw_unique hr₀ (mem_own.mp hstarts'.1) (mem_own.mp hstarts.1)).1
  subst hsame
  have habsurd := hnone _ (mem_own.mpr hins)
  simp [Op.startsTxn] at habsurd

/-- A row that is read by its key is the same in both stores, or in neither another's. -/
theorem foreign_or_eq {α : Type} {rpId : α → Uuid} {key : α → String} {rows rows' : List α}
    (h : rows.filter (fun x => rpId x ≠ b.id) = rows'.filter (fun x => rpId x ≠ b.id))
    (hn : (rows.map key).Nodup) (hn' : (rows'.map key).Nodup) (k : String) :
    some (rows.find? fun x => key x = k) = some (rows'.find? fun x => key x = k) ∨
      Foreign rpId b (some (rows.find? fun x => key x = k)) ∧
      Foreign rpId b (some (rows'.find? fun x => key x = k)) := by
  rcases Table.find_agree_or h hn hn' k with heq | ⟨hrow, hrow'⟩
  · exact .inl (congrArg some heq)
  · exact .inr ⟨⟨_, rfl, fun x hx => by simpa using hrow x hx⟩, _, rfl, fun x hx => by simpa using hrow' x hx⟩

section Exec

variable {i : Oracle} {s₁' s₂' : Store} (hagree : AgreeBut b s₁ s₂)

include hagree

theorem alike_ambient {o : AmbientOp} {r₁ r₂ : Option o.Res}
    (hx₁ : Op.exec D.engine i s₁ (.ambient o) = some (r₁, s₁'))
    (hx₂ : Op.exec D.engine i s₂ (.ambient o) = some (r₂, s₂')) : r₁ = r₂ := by
  simp only [Op.exec, Option.map_eq_some_iff, Prod.exists, Prod.mk.injEq] at hx₁ hx₂
  obtain ⟨r, x, hx, rfl, -⟩ := hx₁
  obtain ⟨r', x', hx', rfl, -⟩ := hx₂
  cases o with
  | now =>
    simp only [AmbientOp.exec, Option.some.injEq, Prod.mk.injEq] at hx hx'
    rw [← hx.1, ← hx'.1]
    exact congrArg some hagree.now
  | uuidv7 =>
    cases i with
    | uuid u =>
      simp only [AmbientOp.exec, Option.ite_none_right_eq_some, Option.some.injEq, Prod.mk.injEq] at hx hx'
      rw [← hx.2.1, ← hx'.2.1]
    | _ => simp [AmbientOp.exec] at hx
  | randomBytes n e =>
    cases i with
    | text x =>
      simp only [AmbientOp.exec, Option.ite_none_right_eq_some, Option.some.injEq, Prod.mk.injEq] at hx hx'
      rw [← hx.2.1, ← hx'.2.1]
    | _ => simp [AmbientOp.exec] at hx

theorem alike_sign {claims : TokenClaims} {aud : String} {ttl : ℕ} {r₁ r₂ : Option String}
    (hx₁ : Op.exec D.engine i s₁ (.jwt (.sign claims aud ttl)) = some (r₁, s₁'))
    (hx₂ : Op.exec D.engine i s₂ (.jwt (.sign claims aud ttl)) = some (r₂, s₂')) : r₁ = r₂ := by
  simp only [Op.exec, Option.map_eq_some_iff, Prod.exists, Prod.mk.injEq] at hx₁ hx₂
  obtain ⟨r, x, hx, rfl, -⟩ := hx₁
  obtain ⟨r', x', hx', rfl, -⟩ := hx₂
  cases i with
  | token token jti =>
    simp only [JwtOp.exec, Option.ite_none_left_eq_some, Option.some.injEq, Prod.mk.injEq] at hx hx'
    rw [← hx.2.1, ← hx'.2.1]
  | _ => simp [JwtOp.exec] at hx

/-- A text that is no token of the relying party's is verified alike. -/
theorem alike_verify {token : String} {r₁ r₂ : Option SignedJwt}
    (hx₁ : Op.exec D.engine i s₁ (.jwt (.verify token none)) = some (r₁, s₁'))
    (hx₂ : Op.exec D.engine i s₂ (.jwt (.verify token none)) = some (r₂, s₂'))
    (h₁ : ∀ j ∈ s₁.jwts, j.token = token → j.aud ≠ b.clientId)
    (h₂ : ∀ j ∈ s₂.jwts, j.token = token → j.aud ≠ b.clientId) : r₁ = r₂ := by
  simp only [Op.exec, JwtOp.exec, Option.map_some, Option.some.injEq, Prod.mk.injEq] at hx₁ hx₂
  rw [← hx₁.1, ← hx₂.1, hagree.now]
  refine Table.find_agree hagree.jwts (fun j hj hp => ?_) fun j hj hp => ?_
  · simp only [Bool.and_eq_true, beq_iff_eq] at hp
    simpa using h₁ j hj hp.1.1
  · simp only [Bool.and_eq_true, beq_iff_eq] at hp
    simpa using h₂ j hj hp.1.1

theorem alike_append {event : AuditEventInput} {r₁ r₂ : Option Unit}
    (hx₁ : Op.exec D.engine i s₁ (.audit (.append event)) = some (r₁, s₁'))
    (hx₂ : Op.exec D.engine i s₂ (.audit (.append event)) = some (r₂, s₂')) : r₁ = r₂ := by
  simp only [Op.exec, Option.map_eq_some_iff, Prod.exists, Prod.mk.injEq] at hx₁ hx₂
  obtain ⟨r, x, hx, rfl, -⟩ := hx₁
  obtain ⟨r', x', hx', rfl, -⟩ := hx₂
  cases i with
  | uuid id =>
    -- Whether the row can be built is a matter of the event alone.
    simp only [AuditOp.exec, AuditDeps.append, AuditDeps.rowOf] at hx hx'
    cases hrp : AuditDeps.uuidColumn event.rpId <;> cases hdevice : AuditDeps.uuidColumn event.deviceBindingId <;>
      simp_all
  | _ => simp [AuditOp.exec] at hx

/-- The id of a new row is taken alike. -/
theorem alike_consent {id : Uuid} {citizenId rpId source : String} {scopes : List String} {r₁ r₂ : Option Unit}
    (hx₁ : Op.exec D.engine i s₁ (.consent (.insert id citizenId rpId scopes source)) = some (r₁, s₁'))
    (hx₂ : Op.exec D.engine i s₂ (.consent (.insert id citizenId rpId scopes source)) = some (r₂, s₂'))
    (h₁ : ∀ g ∈ s₁.consents, g.rpId = b.id → g.id ≠ id) (h₂ : ∀ g ∈ s₂.consents, g.rpId = b.id → g.id ≠ id) :
    r₁ = r₂ := by
  simp only [Op.exec, Option.some.injEq, Prod.mk.injEq] at hx₁ hx₂
  rw [← hx₁.1, ← hx₂.1]
  have htaken : ∀ row, (Table.insert (fun g : ConsentGrant => g.id = id) row s₁.consents).isSome =
      (Table.insert (fun g : ConsentGrant => g.id = id) row s₂.consents).isSome := by
    intro row
    refine Table.insert_agree hagree.consents (fun g hg hp => ?_) fun g hg hp => ?_
    · have hid : g.id = id := by simpa using hp
      simpa using fun hrp => h₁ g hg hrp hid
    · have hid : g.id = id := by simpa using hp
      simpa using fun hrp => h₂ g hg hrp hid
  simp only [ConsentOp.exec, withUuid]
  cases Uuid.ofText citizenId with
  | none => rfl
  | some u =>
    cases Uuid.ofText rpId with
    | none => rfl
    | some v =>
      have hrow := htaken (ConsentGrant.made id u v scopes source s₁.now)
      simp only [hagree.now] at hrow ⊢
      split <;> split <;> simp_all

theorem alike_insert_txn {id citizenId rpId : Uuid} {authReqId : String} {flow : Flow} {scopes : List String}
    {al : AssuranceLevel} {message : Option String} {expiresAt : Time} {r₁ r₂ : Option Unit}
    (hx₁ : Op.exec D.engine i s₁ (.txn (.insert id authReqId citizenId rpId flow scopes al message expiresAt)) =
      some (r₁, s₁'))
    (hx₂ : Op.exec D.engine i s₂ (.txn (.insert id authReqId citizenId rpId flow scopes al message expiresAt)) =
      some (r₂, s₂'))
    (h₁ : ∀ T ∈ s₁.txns, T.rpId = b.id → T.id ≠ id) (h₂ : ∀ T ∈ s₂.txns, T.rpId = b.id → T.id ≠ id)
    (hnew₁ : ∀ T ∈ s₁.txns, T.authReqId ≠ authReqId) (hnew₂ : ∀ T ∈ s₂.txns, T.authReqId ≠ authReqId) :
    r₁ = r₂ := by
  simp only [Op.exec, Option.some.injEq, Prod.mk.injEq] at hx₁ hx₂
  rw [← hx₁.1, ← hx₂.1]
  have htaken := Table.insert_agree (p := fun T : AuthTransaction => T.id = id ∨ T.authReqId = authReqId)
    (r := AuthTransaction.started id authReqId citizenId rpId flow scopes al message expiresAt s₁.now)
    hagree.txns (fun T hT hp => ?_) fun T hT hp => ?_
  · simp only [TxnOp.exec, hagree.now] at htaken ⊢
    split <;> split <;> simp_all
  · rcases of_decide_eq_true hp with hid | hreq
    · simpa using fun hrp => h₁ T hT hrp hid
    · exact absurd hreq (hnew₁ T hT)
  · rcases of_decide_eq_true hp with hid | hreq
    · simpa using fun hrp => h₂ T hT hrp hid
    · exact absurd hreq (hnew₂ T hT)

/-- A transaction of another's is updated alike. -/
theorem alike_update_txn {id : Uuid} {old : TxnStatus}
    (h₁ : ∀ T ∈ s₁.txns, T.id = id → T.rpId ≠ b.id) (h₂ : ∀ T ∈ s₂.txns, T.id = id → T.rpId ≠ b.id) :
    Table.count (fun T : AuthTransaction => T.id = id ∧ T.status = old) s₁.txns =
      Table.count (fun T : AuthTransaction => T.id = id ∧ T.status = old) s₂.txns := by
  refine Table.count_agree hagree.txns (fun T hT hp => ?_) fun T hT hp => ?_
  · simpa using h₁ T hT (of_decide_eq_true hp).1
  · simpa using h₂ T hT (of_decide_eq_true hp).1

section Own

variable {h : Path} (hne : ∀ rp, OwnRp q h rp → rp.id ≠ b.id)

theorem alike_flag {o : FlagOp} {r₁ r₂ : Option o.Res} (hasks : AsksOn q h (.flag o))
    (hj : ∀ token j, (⟨.jwt (.verify token none), some j⟩ : Cmd) ∈ h → j ∈ s₁.jwts ∧ j.aud ≠ b.clientId)
    (hx₁ : Op.exec D.engine i s₁ (.flag o) = some (r₁, s₁'))
    (hx₂ : Op.exec D.engine i s₂ (.flag o) = some (r₂, s₂')) : r₁ = r₂ := by
  simp only [Op.exec, Option.some.injEq, Prod.mk.injEq] at hx₁ hx₂
  rw [← hx₁.1, ← hx₂.1]
  cases o with
  | set key ttl => rfl
  | setNx key ttl =>
    obtain ⟨rp, -, ho⟩ := hasks
    exact ho.elim
  | get key =>
    obtain ⟨token, j, hverified, rfl⟩ := hasks
    obtain ⟨hmem, haud⟩ := hj token j hverified
    simp only [FlagOp.exec, hagree.denylist j hmem haud]

theorem alike_binding {o : BindingOp} {r₁ r₂ : Option o.Res} (hasks : AsksOn q h (.binding o))
    (hx₁ : Op.exec D.engine i s₁ (.binding o) = some (r₁, s₁'))
    (hx₂ : Op.exec D.engine i s₂ (.binding o) = some (r₂, s₂')) : r₁ = r₂ := by
  simp only [Op.exec, Option.some.injEq, Prod.mk.injEq] at hx₁ hx₂
  rw [← hx₁.1, ← hx₂.1, hagree.now, hagree.bindings]

include hne

theorem alike_counter {o : CounterOp} {r₁ r₂ : Option o.Res} (hasks : AsksOn q h (.counter o))
    (hx₁ : Op.exec D.engine i s₁ (.counter o) = some (r₁, s₁'))
    (hx₂ : Op.exec D.engine i s₂ (.counter o) = some (r₂, s₂')) : r₁ = r₂ := by
  simp only [Op.exec, Option.some.injEq, Prod.mk.injEq] at hx₁ hx₂
  rw [← hx₁.1, ← hx₂.1]
  obtain ⟨rp, hown, ho⟩ := hasks
  cases o with
  | incr key =>
    obtain rfl : key = hitsKey rp.id := ho
    have hkey : hitsKey rp.id ≠ hitsKey b.id := by
      intro heq
      have htext := (String.append_right_inj _).mp ((String.append_right_inj _).mp heq)
      exact hne rp hown (Uuid.text_injective htext)
    simp only [CounterOp.exec, hagree.counters _ hkey]
  | expire key seconds =>
    simp only [CounterOp.exec]
    split <;> split <;> rfl
  | get key => exact ho.elim
  | del key => exact ho.elim

theorem alike_subject {o : SubjectOp} {r₁ r₂ : Option o.Res} (hasks : AsksOn q h (.subject o))
    (hx₁ : Op.exec D.engine i s₁ (.subject o) = some (r₁, s₁'))
    (hx₂ : Op.exec D.engine i s₂ (.subject o) = some (r₂, s₂')) : r₁ = r₂ := by
  simp only [Op.exec, Option.some.injEq, Prod.mk.injEq] at hx₁ hx₂
  rw [← hx₁.1, ← hx₂.1]
  obtain ⟨rp, hown, ho⟩ := hasks
  have hrp := hne rp hown
  cases o with
  | select citizenId rpId =>
    obtain rfl : rpId = rp.id := ho
    have hkeep : ∀ row : PairwiseSubject, decide (row.citizenId = citizenId ∧ row.rpId = rp.id) = true →
        decide (row.rpId ≠ b.id) = true := by
      intro row hrow
      simpa [(of_decide_eq_true hrow).2] using hrp
    exact congrArg some (Table.find_agree hagree.subjects (fun row _ => hkeep row) fun row _ => hkeep row)
  | selectBySubject rpId subject =>
    obtain rfl : rpId = rp.id := ho
    have hkeep : ∀ row : PairwiseSubject, decide (row.rpId = rp.id ∧ row.subject = subject) = true →
        decide (row.rpId ≠ b.id) = true := by
      intro row hrow
      simpa [(of_decide_eq_true hrow).1] using hrp
    exact congrArg some (Table.find_agree hagree.subjects (fun row _ => hkeep row) fun row _ => hkeep row)
  | insert row =>
    simp only [SubjectOp.exec]
    split <;> split <;> rfl

end Own

end Exec

/-- The text is not that of a token of the relying party's. -/
def NoTokenOf (b : RelyingParty) (s : Store) (token : String) : Prop :=
  ∀ j ∈ s.jwts, j.token = token → j.aud ≠ b.clientId

section Alike

variable {t₁ t₂ : ℕ} {m₁ m₁' m₂ m₂' : Run} {c₁ c₂ : State} {i : Oracle} {s₁' s₂' : Store} {clientId : String}

/-- A transaction is read alike, or as none; the ids of a new one are new in both runs; and what is updated is
the call's own. -/
theorem alike_txn {o : TxnOp} {r₁ r₂ : Option o.Res}
    (hr₁ : (broker D).Reach (m₁ ++ ⟨s₁, .act t₁ ⟨.txn o, r₁⟩⟩ :: m₁') c₁)
    (hr₂ : (broker D).Reach (m₂ ++ ⟨s₂, .act t₂ ⟨.txn o, r₂⟩⟩ :: m₂') c₂) (hR : SameBut b (.txn o) s₁ s₂)
    (hne : ∀ rp, OwnRp q (own t₁ m₁') rp → rp.id ≠ b.id) (hasks₁ : AsksOn q (own t₁ m₁') (.txn o))
    (hasks₂ : AsksOn q (own t₂ m₂') (.txn o)) (hx₁ : Op.exec D.engine i s₁ (.txn o) = some (r₁, s₁'))
    (hx₂ : Op.exec D.engine i s₂ (.txn o) = some (r₂, s₂')) : Alike b (.txn o) r₁ r₂ := by
  obtain ⟨hagree, hnew₁, hnew₂⟩ := hR
  obtain ⟨k₁, -, -, hk₁, hbefore₁, -⟩ := hr₁.entry
  obtain ⟨k₂, -, -, hk₂, hbefore₂, -⟩ := hr₂.entry
  have hstore₁ : k₁.store = s₁ := hbefore₁
  have hstore₂ : k₂.store = s₂ := hbefore₂
  have hids₁ : (s₁.txns.map (·.id)).Nodup := by
    rw [← hstore₁]
    exact txns_nodup hk₁
  have hids₂ : (s₂.txns.map (·.id)).Nodup := by
    rw [← hstore₂]
    exact txns_nodup hk₂
  -- What is updated is a transaction of the call's relying party.
  have hkept : ∀ id, (∃ rp authReqId T, OwnRp q (own t₁ m₁') rp ∧ ReadsTxn (own t₁ m₁') authReqId T ∧
      T.rpId = rp.id ∧ T.id = id) → (∀ T ∈ s₁.txns, T.id = id → T.rpId ≠ b.id) ∧
        ∀ T ∈ s₂.txns, T.id = id → T.rpId ≠ b.id := by
    rintro id ⟨rp, authReqId, T, hown, hread, hrp, rfl⟩
    obtain ⟨T', hT', hid, hother'⟩ := own_txn hk₁ hread hrp (hne rp hown)
    rw [hstore₁] at hT'
    rw [← hid]
    exact kept_of_agree hids₁ hids₂ hagree.txns hT' hother'
  cases o with
  | select authReqId =>
    simp only [Op.exec, TxnOp.exec, Option.some.injEq, Prod.mk.injEq] at hx₁ hx₂
    rw [← hx₁.1, ← hx₂.1]
    have hn₁ := txns_nodup_authReqId hk₁
    have hn₂ := txns_nodup_authReqId hk₂
    rw [hstore₁] at hn₁
    rw [hstore₂] at hn₂
    exact foreign_or_eq hagree.txns hn₁ hn₂ authReqId
  | insert id authReqId citizenId rpId flow scopes al message expiresAt =>
    exact alike_of_eq (alike_insert_txn hagree hx₁ hx₂ hnew₁ hnew₂ (authReqId_new hr₁ hasks₁)
      (authReqId_new hr₂ hasks₂)) (by simp)
  | expire id =>
    obtain ⟨h₁, h₂⟩ := hkept id hasks₁
    simp only [Op.exec, TxnOp.exec, updateTxn, Option.some.injEq, Prod.mk.injEq] at hx₁ hx₂
    refine alike_of_eq ?_ (by simp)
    rw [← hx₁.1, ← hx₂.1, alike_update_txn hagree h₁ h₂]
  | consume id =>
    obtain ⟨h₁, h₂⟩ := hkept id hasks₁
    simp only [Op.exec, TxnOp.exec, updateTxn, Option.some.injEq, Prod.mk.injEq] at hx₁ hx₂
    refine alike_of_eq ?_ (by simp)
    rw [← hx₁.1, ← hx₂.1, alike_update_txn hagree h₁ h₂]
  | _ =>
    obtain ⟨rp, -, ho⟩ := hasks₁
    exact ho.elim

/-- A code is read alike, or as none, and what is consumed is the call's own. -/
theorem alike_code {o : CodeOp} {r₁ r₂ : Option o.Res}
    (hr₁ : (broker D).Reach (m₁ ++ ⟨s₁, .act t₁ ⟨.code o, r₁⟩⟩ :: m₁') c₁)
    (hr₂ : (broker D).Reach (m₂ ++ ⟨s₂, .act t₂ ⟨.code o, r₂⟩⟩ :: m₂') c₂) (hagree : AgreeBut b s₁ s₂)
    (hne : ∀ rp, OwnRp q (own t₁ m₁') rp → rp.id ≠ b.id) (hasks₁ : AsksOn q (own t₁ m₁') (.code o))
    (hx₁ : Op.exec D.engine i s₁ (.code o) = some (r₁, s₁'))
    (hx₂ : Op.exec D.engine i s₂ (.code o) = some (r₂, s₂')) : Alike b (.code o) r₁ r₂ := by
  obtain ⟨k₁, -, -, hk₁, hbefore₁, -⟩ := hr₁.entry
  obtain ⟨k₂, -, -, hk₂, hbefore₂, -⟩ := hr₂.entry
  have hstore₁ : k₁.store = s₁ := hbefore₁
  have hstore₂ : k₂.store = s₂ := hbefore₂
  have hn₁ := codes_nodup hk₁
  have hn₂ := codes_nodup hk₂
  rw [hstore₁] at hn₁
  rw [hstore₂] at hn₂
  cases o with
  | select codeHash =>
    simp only [Op.exec, CodeOp.exec, Option.some.injEq, Prod.mk.injEq] at hx₁ hx₂
    rw [← hx₁.1, ← hx₂.1]
    exact foreign_or_eq hagree.codes hn₁ hn₂ codeHash
  | consume codeHash now =>
    obtain ⟨rp, digest, row, hown, hread, hrp, rfl⟩ := hasks₁
    obtain ⟨-, k, hk, hid⟩ := code_of_read hk₁ (mem_own.mp hread)
    rw [hstore₁] at hk
    obtain ⟨h₁, h₂⟩ := kept_of_agree hn₁ hn₂ hagree.codes hk (show k.rpId ≠ b.id by
      rw [show k.rpId = row.rpId from congrArg (fun i => i.2.2.1) hid, hrp]
      exact hne rp hown)
    rw [show k.codeHash = row.codeHash from congrArg Prod.fst hid] at h₁ h₂
    simp only [Op.exec, CodeOp.exec, Option.some.injEq, Prod.mk.injEq] at hx₁ hx₂
    refine alike_of_eq ?_ (by simp)
    rw [← hx₁.1, ← hx₂.1]
    refine congrArg some (Table.count_agree hagree.codes (fun k hk hp => ?_) fun k hk hp => ?_)
    · simpa using h₁ k hk (of_decide_eq_true hp).1
    · simpa using h₂ k hk (of_decide_eq_true hp).1
  | insert row =>
    obtain ⟨rp, -, ho⟩ := hasks₁
    exact ho.elim

section Own

variable (hq : q.authenticated = some clientId) (hother : clientId ≠ b.clientId)

include hq hother

/-- Stores that differ in what is the relying party's answer the commands of another's call alike. -/
theorem alike_of_sameBut {o : Op} {r₁ r₂ : Option o.Res}
    (hr₁ : (broker D).Reach (m₁ ++ ⟨s₁, .act t₁ ⟨o, r₁⟩⟩ :: m₁') c₁)
    (hr₂ : (broker D).Reach (m₂ ++ ⟨s₂, .act t₂ ⟨o, r₂⟩⟩ :: m₂') c₂) (hb : b ∈ c₁.store.rps)
    (ha₁ : Arrived (m₁ ++ ⟨s₁, .act t₁ ⟨o, r₁⟩⟩ :: m₁') t₁ q)
    (ha₂ : Arrived (m₂ ++ ⟨s₂, .act t₂ ⟨o, r₂⟩⟩ :: m₂') t₂ q)
    (htoken : ∀ creds token, q = .introspect creds (some token) → NoTokenOf b s₁ token ∧ NoTokenOf b s₂ token)
    (hR : SameBut b o s₁ s₂) (hx₁ : Op.exec D.engine i s₁ o = some (r₁, s₁'))
    (hx₂ : Op.exec D.engine i s₂ o = some (r₂, s₂')) : Alike b o r₁ r₂ := by
  obtain ⟨hagree, hnew₁, hnew₂⟩ := hR
  have hasks₁ : AsksOn q (own t₁ m₁') o := hr₁.act_of_arrived ha₁ (yields_asks hq)
  have hasks₂ : AsksOn q (own t₂ m₂') o := hr₂.act_of_arrived ha₂ (yields_asks hq)
  -- The relying party of the call is another one than `b`.
  have hne : ∀ rp, OwnRp q (own t₁ m₁') rp → rp.id ≠ b.id := by
    rintro rp ⟨clientId', hclient, hreads⟩
    exact ownRp_ne hr₁ hb hq hother ⟨clientId', hclient, hreads.mono own_suffix⟩
  cases o with
  | ambient o => exact alike_of_eq (alike_ambient hagree hx₁ hx₂) (by simp)
  | service o =>
    simp only [Op.exec, Option.map_eq_some_iff, Prod.mk.injEq] at hx₁ hx₂
    obtain ⟨r, hr, rfl, -⟩ := hx₁
    obtain ⟨r', hr', rfl, -⟩ := hx₂
    exact alike_of_eq (Option.some.inj (hr.symm.trans hr')) (by simp)
  | jwt o =>
    cases o with
    | sign claims aud ttl => exact alike_of_eq (alike_sign hagree hx₁ hx₂) (by simp)
    | verify token aud =>
      obtain ⟨rfl, creds, hcreds⟩ := hasks₁
      obtain ⟨h₁, h₂⟩ := htoken creds token hcreds
      exact alike_of_eq (alike_verify hagree hx₁ hx₂ h₁ h₂) (by simp)
  | flag o =>
    refine alike_of_eq (alike_flag hagree hasks₁ ?_ hx₁ hx₂) (by simp)
    intro token j hverified
    have hd := mem_own.mp hverified
    obtain ⟨k₁, -, -, hk₁, hbefore₁, -⟩ := hr₁.entry
    obtain ⟨hj, htext⟩ := stored_of_verified hk₁ hd
    rw [show k₁.store = s₁ from hbefore₁] at hj
    -- The token that was verified is the one of the request.
    obtain ⟨l₁, s, l₂, rfl⟩ := hd.split
    rw [show m₁ ++ ⟨s₁, .act t₁ ⟨.flag o, r₁⟩⟩ :: (l₁ ++ ⟨s, .act t₁ ⟨.jwt (.verify token none), some j⟩⟩ :: l₂) =
      (m₁ ++ ⟨s₁, .act t₁ ⟨.flag o, r₁⟩⟩ :: l₁) ++ ⟨s, .act t₁ ⟨.jwt (.verify token none), some j⟩⟩ :: l₂ by
        rw [List.append_assoc, List.cons_append]] at hr₁ ha₁
    obtain ⟨-, creds, hcreds⟩ := hr₁.act_of_arrived ha₁ (yields_asks hq)
    exact ⟨hj, (htoken creds token hcreds).1 j hj htext⟩
  | counter o => exact alike_of_eq (alike_counter hagree hne hasks₁ hx₁ hx₂) (by simp)
  | binding o => exact alike_of_eq (alike_binding hagree hasks₁ hx₁ hx₂) (by simp)
  | subject o => exact alike_of_eq (alike_subject hagree hne hasks₁ hx₁ hx₂) (by simp)
  | rp o =>
    cases o with
    | selectByClientId clientId' =>
      simp only [Op.exec, Option.some.injEq, Prod.mk.injEq] at hx₁ hx₂
      refine ⟨by rw [← hx₁.1, ← hx₂.1, hagree.now, hagree.rps], fun rp hrp hclient => ?_⟩
      subst hrp
      exact rp_ne hr₁ hb (did_here _ _) hclient
    | _ =>
      obtain ⟨rp, -, ho⟩ := hasks₁
      exact ho.elim
  | txn o => exact alike_txn hr₁ hr₂ ⟨hagree, hnew₁, hnew₂⟩ hne hasks₁ hasks₂ hx₁ hx₂
  | code o => exact alike_code hr₁ hr₂ hagree hne hasks₁ hx₁ hx₂
  | consent o =>
    cases o with
    | insert id citizenId rpId scopes source =>
      exact alike_of_eq (alike_consent hagree hx₁ hx₂ hnew₁ hnew₂) (by simp)
    | _ =>
      obtain ⟨rp, -, ho⟩ := hasks₁
      exact ho.elim
  | audit o =>
    cases o with
    | append event => exact alike_of_eq (alike_append hagree hx₁ hx₂) (by simp)
    | select =>
      obtain ⟨rp, -, ho⟩ := hasks₁
      exact ho.elim
  | _ =>
    obtain ⟨rp, -, ho⟩ := hasks₁
    exact ho.elim

end Own

end Alike

end Answers

/-! ## Isolation -/

/-- In two runs that differ in what is the relying party's `b`, another one is answered alike, unless it asks
for the introspection of a token of `b`'s. -/
theorem isolated_from_other {q : Request} {clientId : String} {tr₁ tr₂ : Run} {c₁ c₂ : State} {t₁ t₂ : ℕ}
    (hq : q.authenticated = some clientId) (hother : clientId ≠ b.clientId) (hb : b ∈ c₁.store.rps)
    (h : Paired (broker D) (SameBut b) q tr₁ c₁ t₁ tr₂ c₂ t₂)
    (htoken : ∀ creds token, q = .introspect creds (some token) →
      NoTokenOf b c₁.store token ∧ NoTokenOf b c₂.store token) : answer c₁ t₁ = answer c₂ t₂ := by
  have hr₁ := h.reach_left
  have hr₂ := h.reach_right
  have ha₁ := h.arrived_left
  have ha₂ := h.arrived_right
  have hanswers : ∀ l₁ s₁ o r₁ l₁' l₂ s₂ r₂ l₂' i s₁' s₂', tr₁ = l₁ ++ ⟨s₁, .act t₁ ⟨o, r₁⟩⟩ :: l₁' →
      tr₂ = l₂ ++ ⟨s₂, .act t₂ ⟨o, r₂⟩⟩ :: l₂' → SameBut b o s₁ s₂ → (broker D).exec i s₁ o = some (r₁, s₁') →
      (broker D).exec i s₂ o = some (r₂, s₂') → Alike b o r₁ r₂ := by
    intro l₁ s₁ o r₁ l₁' l₂ s₂ r₂ l₂' i s₁' s₂' htr₁ htr₂ hR hx₁ hx₂
    -- The tokens at this command are among those at the end.
    have hbefore : ∀ creds token, q = .introspect creds (some token) →
        NoTokenOf b s₁ token ∧ NoTokenOf b s₂ token := by
      intro creds token hcreds
      obtain ⟨hend₁, hend₂⟩ := htoken creds token hcreds
      refine ⟨fun j hj => hend₁ j ?_, fun j hj => hend₂ j ?_⟩
      · exact jwt_later hr₁ (e := ⟨s₁, .act t₁ ⟨o, r₁⟩⟩) (by simp [htr₁]) hj
      · exact jwt_later hr₂ (e := ⟨s₂, .act t₂ ⟨o, r₂⟩⟩) (by simp [htr₂]) hj
    subst htr₁ htr₂
    exact alike_of_sameBut hq hother hr₁ hr₂ hb ha₁ ha₂ hbefore hR hx₁ hx₂
  obtain ⟨p, h₁, h₂, -⟩ := h.same (blind_handler hq hother) alike_none hanswers
  exact answer_eq_of_same h₁ h₂

/-! ## Two runs -/

deriving instance DecidableEq for RelyingParty, PairwiseSubject, AuthTransaction, AuthorizationCode, ConsentGrant

/-- The columns of a binding, with the text of what the attestation said. -/
def DeviceBinding.columns (x : DeviceBinding) :=
  (x.id, x.citizenId, x.devicePubkeyJwk, stringify x.attestation, x.assuranceLevel, x.status, x.deviceLabel,
    x.enrolledAt, x.activatedAt, x.lastUsedAt, x.lastReassertedAt, x.revokedAt, x.revokeReason, x.pushPlatform,
    x.pushToken, x.pushTokenUpdatedAt)

theorem columns_inj {x y : DeviceBinding} (hx : x.attestation.isJson) (hy : y.attestation.isJson)
    (h : x.columns = y.columns) : x = y := by
  obtain ⟨⟩ := x
  obtain ⟨⟩ := y
  simp only [DeviceBinding.columns, Prod.mk.injEq] at h
  obtain ⟨rfl, rfl, rfl, htext, rfl, rfl, rfl, rfl, rfl, rfl, rfl, rfl, rfl, rfl, rfl, rfl⟩ := h
  obtain rfl := stringify_inj hx hy htext
  rfl

/-- Whether two tables of bindings are the same, where what the attestations said is JSON. -/
def sameBindings (xs ys : List DeviceBinding) : Bool :=
  xs.map (·.columns) == ys.map (·.columns) && xs.all (·.attestation.isJson) && ys.all (·.attestation.isJson)

theorem eq_of_sameBindings {xs ys : List DeviceBinding} (h : sameBindings xs ys = true) : xs = ys := by
  induction xs generalizing ys with
  | nil =>
    simp only [sameBindings, List.map_nil, Bool.and_eq_true, beq_iff_eq] at h
    exact (List.map_eq_nil_iff.mp h.1.1.symm).symm
  | cons x xs ih =>
    cases ys with
    | nil => simp [sameBindings] at h
    | cons y ys =>
      simp only [sameBindings, List.map_cons, List.all_cons, Bool.and_eq_true, beq_iff_eq, List.cons.injEq] at h
      obtain ⟨⟨⟨hxy, hcolumns⟩, hx, hxs⟩, hy, hys⟩ := h
      have hrest : xs = ys := ih (by simp [sameBindings, hcolumns, hxs, hys])
      rw [columns_inj hx hy hxy, hrest]

/-- The entries of a key space but those of one key, as they are. -/
def entriesBut (key : String) (es : List (Timed ℕ)) : List (String × ℕ × Option Time) :=
  (es.filter (·.key ≠ key)).map fun e => (e.key, e.value, e.expiresAt)

theorem lookup_of_entriesBut {now : Time} {key key' : String} {es es' : List (Timed ℕ)}
    (h : entriesBut key' es = entriesBut key' es') (hkey : key ≠ key') :
    lookup now key es = lookup now key es' := by
  have hentries : ∀ es : List (Timed ℕ), lookup now key es = ((entriesBut key' es).find? fun e =>
      e.1 == key && e.2.2.all (now < ·)).map fun e => e.2.1 := by
    intro es
    unfold lookup entriesBut
    rw [List.find?_map, List.find?_filter, Option.map_map]
    congr 2
    funext e
    by_cases he : e.key = key
    · simp [he, hkey]
    · simp [he]
  rw [hentries, hentries, h]

/-- Whether two stores differ in what is the relying party's `b`, where no token is on the denylist. -/
def agreesBut (b : RelyingParty) (o : Op) (s₁ s₂ : Store) : Bool :=
  s₁.now == s₂.now && s₁.rps == s₂.rps && sameBindings s₁.bindings s₂.bindings &&
    s₁.subjects.filter (·.rpId ≠ b.id) == s₂.subjects.filter (·.rpId ≠ b.id) &&
    s₁.txns.filter (·.rpId ≠ b.id) == s₂.txns.filter (·.rpId ≠ b.id) &&
    s₁.codes.filter (·.rpId ≠ b.id) == s₂.codes.filter (·.rpId ≠ b.id) &&
    s₁.consents.filter (·.rpId ≠ b.id) == s₂.consents.filter (·.rpId ≠ b.id) &&
    s₁.jwts.filter (·.aud ≠ b.clientId) == s₂.jwts.filter (·.aud ≠ b.clientId) &&
    s₁.flags.isEmpty && s₂.flags.isEmpty &&
    entriesBut (hitsKey b.id) s₁.counters == entriesBut (hitsKey b.id) s₂.counters &&
    match o with
    | .txn (.insert _ _ _ _ _ _ _ _ _) => false
    | .consent (.insert _ _ _ _ _) => false
    | _ => true

theorem sameBut_of_agreesBut {o : Op} {s₁ s₂ : Store} (h : agreesBut b o s₁ s₂ = true) : SameBut b o s₁ s₂ := by
  simp only [agreesBut, Bool.and_eq_true, beq_iff_eq, List.isEmpty_iff] at h
  obtain ⟨⟨⟨⟨⟨⟨⟨⟨⟨⟨⟨hnow, hrps⟩, hbindings⟩, hsubjects⟩, htxns⟩, hcodes⟩, hconsents⟩, hjwts⟩, hflags₁⟩, hflags₂⟩,
    hcounters⟩, ho⟩ := h
  have hnew : ∀ s, NewId b s o := by
    intro s
    unfold NewId
    split
    · simp at ho
    · simp at ho
    · trivial
  refine ⟨⟨hnow, hrps, eq_of_sameBindings hbindings, hsubjects, htxns, hcodes, hconsents, hjwts, ?_, ?_⟩,
    hnew s₁, hnew s₂⟩
  · intro j _ _
    rw [hflags₁, hflags₂]
    rfl
  · intro key hkey
    rw [hnow]
    exact lookup_of_entriesBut hcounters hkey

/-- A second relying party is registered by call `t`. -/
def sampleOther (t : ℕ) : Script :=
  .arrive (.registerRp (some "admin") { name := "Shop", allowedScopes := ["openid"], allowedFlows := [.ciba] }) ::
  Script.go t [.uuid (sampleUuid 6), .text "cccccccccccc", .text (sampleSecret 't'),
    .text (String.ofList (List.replicate 64 'd')), .unit, sampleRowId]

/-- The first relying party is registered and is told a subject, and starts no transaction: calls 4 and 5. -/
def sampleIdle : Script :=
  .arrive (.registerRp (some "admin")
    { name := "Bank", allowedScopes := ["openid"], allowedFlows := [.ciba] }) ::
  Script.go 4 [.uuid (sampleUuid 3), .text "aaaaaaaaaaaa", .text (sampleSecret 's'),
    .text (String.ofList (List.replicate 64 'b')), .unit, sampleRowId] ++
  .arrive (.provisionPairwise (some "admin") (sampleUuid 3).text "1199080012345678") ::
  Script.go 5 [.unit, .unit, .unit, .unit, sampleRowId]

/-- The second relying party polls for a transaction of the first one's. -/
def samplePoll : Request :=
  .token (some ⟨"rp_cccccccccccc", sampleSecret 't'⟩)
    { grant_type := CIBA_GRANT_TYPE, auth_req_id := some (sampleSecret 'r') }

/-- Two runs up to the arrival of a request as calls `t₁` and `t₂`, played together from there on. -/
def playBoth (M : Machine Op Op.Res Failure Reply Request Store Oracle) (b : RelyingParty) (q : Request)
    (ms₁ ms₂ : Script) (t₁ t₂ : ℕ) (is : List Oracle) : Option ((Run × State) × (Run × State)) :=
  match M.play ms₁.reverse, M.play ms₂.reverse with
  | some (tr₁, c₁), some (tr₂, c₂) =>
    match M.step c₁ (.arrive q), M.step c₂ (.arrive q) with
    | some (e₁, c₁'), some (e₂, c₂') =>
      if c₁.calls.length = t₁ ∧ c₂.calls.length = t₂ then
        playTogether M (agreesBut b) t₁ t₂ is ((⟨c₁.store, e₁⟩ :: tr₁, c₁'), (⟨c₂.store, e₂⟩ :: tr₂, c₂'))
      else none
    | _, _ => none
  | _, _ => none

/-- What is played is a pair of runs that serve the request. -/
theorem paired_of_playBoth {M : Machine Op Op.Res Failure Reply Request Store Oracle} {q : Request}
    {ms₁ ms₂ : Script} {t₁ t₂ : ℕ} {is : List Oracle} {runs : (Run × State) × (Run × State)}
    (h : playBoth M b q ms₁ ms₂ t₁ t₂ is = some runs) :
    Paired M (SameBut b) q runs.1.1 runs.1.2 t₁ runs.2.1 runs.2.2 t₂ := by
  unfold playBoth at h
  split at h
  · rename_i tr₁ c₁ tr₂ c₂ h₁ h₂
    split at h
    · rename_i e₁ c₁' e₂ c₂' hs₁ hs₂
      split_ifs at h with hcalls
      obtain ⟨rfl, rfl⟩ := hcalls
      exact Paired.of_playTogether (fun _ _ _ => sameBut_of_agreesBut)
        (.arrive (M.play_reach h₁) (M.play_reach h₂) hs₁ hs₂) h
    · simp at h
  · simp at h

/-- The row of the first relying party. -/
def sampleBank : RelyingParty :=
  { newRp sampleDeployment { name := "Bank", allowedScopes := ["openid"], allowedFlows := [.ciba] } (sampleUuid 3)
      "rp_aaaaaaaaaaaa" (sampleSecret 's') (String.ofList (List.replicate 64 'b')) with createdAt := 0 }

/-- A transaction of the first relying party's is to the second one as none. -/
theorem isolated_from_other_samplePoll : ∃ tr₁ c₁ tr₂ c₂,
    Paired (broker sampleDeployment) (SameBut sampleBank) samplePoll tr₁ c₁ 8 tr₂ c₂ 7 ∧
    (∃ T ∈ c₁.store.txns, T.authReqId = sampleSecret 'r' ∧ T.rpId = sampleBank.id) ∧ c₂.store.txns = [] ∧
    answer c₁ 8 = answer c₂ 7 := by
  have hplay : (playBoth (broker sampleDeployment) sampleBank samplePoll
      (sampleSession ++ sampleRequest ++ sampleOther 7) (sampleSession ++ sampleIdle ++ sampleOther 6) 8 7
      [.unit, .unit]).any (fun runs => decide (sampleBank ∈ runs.1.2.store.rps) &&
        (runs.1.2.store.txns.any fun T => T.authReqId == sampleSecret 'r' && T.rpId == sampleBank.id) &&
        runs.2.2.store.txns.isEmpty) = true := by decide +kernel
  obtain ⟨runs, hruns, hchecks⟩ := (Option.any_eq_true _ _).mp hplay
  simp only [Bool.and_eq_true, decide_eq_true_eq, List.any_eq_true, beq_iff_eq, List.isEmpty_iff] at hchecks
  obtain ⟨⟨hb, T, hT, hauthReqId, hrp⟩, hnone⟩ := hchecks
  have hpaired := paired_of_playBoth hruns
  refine ⟨_, _, _, _, hpaired, ⟨T, hT, hauthReqId, hrp⟩, hnone, ?_⟩
  have hother : "rp_cccccccccccc" ≠ sampleBank.clientId := by decide
  exact isolated_from_other rfl hother hb hpaired (by simp [samplePoll])

/-- The second relying party asks for the introspection of a token of the first one's. -/
def sampleProbe : Request := .introspect (some ⟨"rp_cccccccccccc", sampleSecret 't'⟩) (some "access-token")

/-- Whether introspection has answered, and whether with a token. -/
def introspected (c : State) (t : ℕ) : Option Bool :=
  match answer c t with
  | some (.ok (Reply.introspection r)) => some r.isSome
  | _ => none

/-- Whether the first call goes on by itself and is told of a token, when the second one is told of none. -/
def toldApart (M : Machine Op Op.Res Failure Reply Request Store Oracle) (b : RelyingParty) (t₁ t₂ : ℕ)
    (runs : (Run × State) × (Run × State)) : Bool :=
  match M.step runs.1.2 (.go t₁ .unit) with
  | some (_, c') => decide (b ∈ c'.store.rps) && introspected c' t₁ == some true &&
      introspected runs.2.2 t₂ == some false
  | none => false

/-- A token of the first relying party's is to the second one not as none: introspection tells the two runs
apart. -/
theorem not_isolated_sampleProbe : ∃ tr₁ c₁ tr₂ c₂,
    Paired (broker sampleDeployment) (SameBut sampleBank) sampleProbe tr₁ c₁ 11 tr₂ c₂ 10 ∧
    sampleBank ∈ c₁.store.rps ∧ sampleProbe.authenticated = some "rp_cccccccccccc" ∧
    "rp_cccccccccccc" ≠ sampleBank.clientId ∧ answer c₁ 11 ≠ answer c₂ 10 := by
  have hplay : (playBoth (broker sampleDeployment) sampleBank sampleProbe (sampleGrant ++ sampleOther 10)
      (sampleApproval ++ sampleOther 9) 11 10 [.unit, .unit]).any
        (toldApart (broker sampleDeployment) sampleBank 11 10) = true := by decide +kernel
  obtain ⟨runs, hruns, htold⟩ := (Option.any_eq_true _ _).mp hplay
  unfold toldApart at htold
  split at htold
  swap
  · simp at htold
  rename_i e c' hs
  simp only [Bool.and_eq_true, decide_eq_true_eq, beq_iff_eq] at htold
  obtain ⟨⟨hb, htoken⟩, hnone⟩ := htold
  -- The second call is over, and the first one looks at the denylist.
  have hover : ¬ InProgress runs.2.2 10 := by
    rintro ⟨o, k, hk⟩
    simp [introspected, answer, hk] at hnone
  refine ⟨_, c', _, runs.2.2, (paired_of_playBoth hruns).left hs (.inr hover), hb, rfl, by decide, ?_⟩
  intro hanswer
  unfold introspected at htoken hnone
  rw [hanswer, hnone] at htoken
  simp at htoken

end SdidBridge
