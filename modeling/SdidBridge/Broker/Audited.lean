import SdidBridge.Broker.Consents

/-!
# Changes and their events

Every change that has to be audited is followed by its event in the same call (`Next`), and a call does not end
between the two (`Last`). The change and the event are two transactions, though: an append that fails leaves a
change without a row, and most operations find nothing left to do when they are tried again.

Where no append fails right after a change of its own call, every change of a call that is over has a row of its
own (`ownRow_of_change`), and so has whatever the tables say about the past (`audited_of_answered`).
-/

namespace SdidBridge

open Concurrent Machine

variable {D : Deployment} {tr l₁ l₂ : Run} {c : State} {s : Store} {t u : ℕ} {a : Cmd} {e : AuditEventInput}

/-! ## Changes -/

/-- Whether a command and its answer are a change that has to be audited: an activation or a revocation of a
binding, the suspension of a relying party, a decision or the expiry of a transaction, a consent or its
withdrawal. -/
def changes : Cmd → Bool
  | ⟨.binding (.activate _ _), some _⟩ => true
  | ⟨.binding (.revoke _ _ _), some _⟩ => true
  | ⟨.binding (.revokeActiveOf _ _ _), some _⟩ => true
  | ⟨.rp (.suspend _), some n⟩ => n != 0
  | ⟨.txn (.resolve _ _ _ _ _), some _⟩ => true
  | ⟨.txn (.expire _), some n⟩ => n != 0
  | ⟨.consent (.insert _ _ _ _ _), some _⟩ => true
  | ⟨.consent (.revoke _ _), some _⟩ => true
  | _ => false

/-- What the event of a change says, where `h` came before the change. -/
def EventOf (h : Path) (a : Cmd) (e : AuditEventInput) : Prop :=
  match a with
  | ⟨.binding (.activate id _), some _⟩ => ∃ b, ReadsBinding h id b ∧ e = bindingActivatedEvent b
  | ⟨.binding (.revoke id _ reason), some _⟩ => ∃ citizenId, e = deviceRevokedEvent citizenId id reason
  | ⟨.binding (.revokeActiveOf citizenId _ _), some _⟩ =>
    ∃ bindingId trigger ref, e = reassertInvalidEvent citizenId bindingId trigger ref
  | ⟨.rp (.suspend id), some _⟩ => e = rpSuspendedEvent id
  | ⟨.txn (.resolve id d bindingId _ suspicious), some _⟩ => ∃ authReqId txn b, ReadsTxn h authReqId txn ∧
      txn.id = id ∧ b.id = bindingId ∧ e = decisionEvent txn b d suspicious
  | ⟨.txn (.expire id), some _⟩ => ∃ authReqId rp txn, ReadsTxn h authReqId txn ∧ txn.id = id ∧
      txn.rpId = rp.id ∧ e = requestExpiredEvent rp txn
  | ⟨.consent (.insert _ citizenId rpId _ _), some _⟩ =>
    ∃ context, e = consentGrantedEvent citizenId rpId context
  | ⟨.consent (.revoke id _), some _⟩ =>
    ∃ citizenId rpId, e = consentRevokedEvent citizenId rpId id
  | _ => False

/-- The command after a change is the append of its event. -/
theorem append_of_next {q : Request} {h : Path} {o : Op} (ha : changes a = true) (hn : Next q a h o) :
    ∃ e, o = .audit (.append e) ∧ EventOf h a e := by
  unfold changes at ha
  split at ha
  · obtain ⟨b, hread, rfl⟩ := hn
    exact ⟨_, rfl, b, hread, rfl⟩
  · obtain ⟨citizenId, rfl⟩ := hn
    exact ⟨_, rfl, citizenId, rfl⟩
  · obtain ⟨bindingId, trigger, ref, rfl⟩ := hn
    exact ⟨_, rfl, bindingId, trigger, ref, rfl⟩
  · rw [hn (bne_iff_ne.mp ha)]
    exact ⟨_, rfl, rfl⟩
  · obtain ⟨authReqId, txn, b, hread, hid, hb, rfl⟩ := hn
    exact ⟨_, rfl, authReqId, txn, b, hread, hid, hb, rfl⟩
  · obtain ⟨authReqId, rp, txn, hread, hid, hrp, rfl⟩ := hn (bne_iff_ne.mp ha)
    exact ⟨_, rfl, authReqId, rp, txn, hread, hid, hrp, rfl⟩
  · obtain ⟨context, rfl⟩ := hn
    exact ⟨_, rfl, context, rfl⟩
  · obtain ⟨citizenId, rpId, rfl⟩ := hn
    exact ⟨_, rfl, citizenId, rpId, rfl⟩
  · simp at ha

/-- A call does not end on a change. -/
theorem not_last_of_changes {q : Request} {r : Except Failure Reply} (ha : changes a = true) : ¬ Last q a r := by
  unfold changes at ha
  intro hl
  split at ha <;> first | exact hl | exact absurd hl (bne_iff_ne.mp ha) | simp at ha

/-! ## Rows -/

/-- The table has a row of the event. -/
def Logged (D : Deployment) (s : Store) (e : AuditEventInput) : Prop :=
  ∃ row ∈ s.audit, ∃ prev seq id ts, D.engine.audit.rowOf prev seq id ts e = some row

/-- What a command does to the audit table: an append that is answered adds the row of its event. -/
theorem audit_step {x x' : List AuditRow} {b : Act AuditOp AuditOp.Res} (hs : (auditEvents D).Step x b x') :
    (∃ e row prev seq id ts, b = ⟨.append e, some ()⟩ ∧ D.engine.audit.rowOf prev seq id ts e = some row ∧
      x' = x ++ [row]) ∨ ((∀ e, b ≠ ⟨.append e, some ()⟩) ∧ x' = x) := by
  obtain ⟨o, r⟩ := b
  rcases hs with ⟨i, now, hx⟩ | ⟨hnone, rfl⟩
  · cases o with
    | append e =>
      simp only [AuditOp.exec] at hx
      split at hx
      · rename_i id
        split at hx
        · rename_i rows' hrows
          simp only [Option.some.injEq, Prod.mk.injEq] at hx
          obtain ⟨rfl, rfl⟩ := hx
          obtain ⟨row, hrow, rfl⟩ := Option.map_eq_some_iff.mp hrows
          exact .inl ⟨e, row, _, _, id, _, rfl, hrow, rfl⟩
        · simp only [Option.some.injEq, Prod.mk.injEq] at hx
          obtain ⟨rfl, rfl⟩ := hx
          exact .inr ⟨by simp, rfl⟩
      · simp at hx
    | select =>
      simp only [AuditOp.exec, Option.some.injEq, Prod.mk.injEq] at hx
      exact .inr ⟨by simp, hx.2.symm⟩
  · refine .inr ⟨?_, rfl⟩
    rintro e h
    cases h
    simp at hnone

/-- The table only grows, at its end. -/
theorem audit_later (hr : (broker D).Reach tr c) {st : Step} (he : st ∈ tr) : st.before.audit <+: c.store.audit := by
  refine (auditEvents D).evolves (R := fun x y => x <+: y) (fun _ => List.prefix_rfl)
    (fun _ _ _ => List.IsPrefix.trans) ?_ hr he
  intro x b x' hs
  rcases audit_step hs with ⟨e, row, prev, seq, id, ts, -, -, rfl⟩ | ⟨-, rfl⟩
  · exact List.prefix_append _ _
  · exact List.prefix_rfl

/-- The row of an append that was answered is the one after those that were there before it. -/
theorem row_of_append (hr : (broker D).Reach (l₁ ++ ⟨s, .act t ⟨.audit (.append e), some ()⟩⟩ :: l₂) c) :
    ∃ row prev seq id ts, D.engine.audit.rowOf prev seq id ts e = some row ∧
      c.store.audit[s.audit.length]? = some row := by
  have hstored : ∃ row prev seq id ts, D.engine.audit.rowOf prev seq id ts e = some row ∧
      s.audit ++ [row] <+: c.store.audit := by
    refine hr.since (P := fun s' => ∃ row prev seq id ts, D.engine.audit.rowOf prev seq id ts e = some row ∧
      s.audit ++ [row] <+: s'.audit) ?_ ?_
    · intro s' hl
      rcases audit_step ((auditEvents D).leads_act ⟨.append e, some ()⟩ hl) with
        ⟨e', row, prev, seq, id, ts, ha, hrow, hx⟩ | ⟨hno, -⟩
      · cases ha
        exact ⟨row, prev, seq, id, ts, hrow, hx ▸ List.prefix_rfl⟩
      · exact absurd rfl (hno e)
    · rintro e' - s' hl ⟨row, prev, seq, id, ts, hrow, hprefix⟩
      refine ⟨row, prev, seq, id, ts, hrow, hprefix.trans ?_⟩
      rcases (auditEvents D).leads hl with ⟨t', b, -, hs⟩ | ⟨-, hsame⟩
      · rcases audit_step hs with ⟨_, row', _, _, _, _, -, -, hx⟩ | ⟨-, hx⟩
        · rw [show s'.audit = _ from hx]
          exact List.prefix_append _ _
        · rw [show s'.audit = e'.before.audit from hx]
      · rw [show s'.audit = e'.before.audit from hsame]
  obtain ⟨row, prev, seq, id, ts, hrow, l, hl⟩ := hstored
  refine ⟨row, prev, seq, id, ts, hrow, ?_⟩
  rw [← hl]
  simp

theorem logged_of_append (hr : (broker D).Reach tr c) (hd : Did tr t ⟨.audit (.append e), some ()⟩) :
    Logged D c.store e := by
  obtain ⟨l₁, s, l₂, rfl⟩ := hd.split
  obtain ⟨row, prev, seq, id, ts, hrow, hget⟩ := row_of_append hr
  exact ⟨row, List.mem_of_getElem? hget, prev, seq, id, ts, hrow⟩

/-- No append fails right after a change of its own call. -/
def AppendsAnswered (tr : Run) : Prop :=
  ∀ l₁ s t e l₂, tr = l₁ ++ ⟨s, .act t ⟨.audit (.append e), none⟩⟩ :: l₂ →
    ∀ a h, own t l₂ = a :: h → changes a = false

/-- The change `a` of call `t` has a row of its own: the call's next command appended its event, and the row is
the one that the table had room for then. -/
def OwnRow (D : Deployment) (c : State) (l₁ l₂ : Run) (t : ℕ) (a : Cmd) : Prop :=
  ∃ m₁ s' e m₂, l₁ = m₁ ++ ⟨s', .act t ⟨.audit (.append e), some ()⟩⟩ :: m₂ ∧ own t m₂ = [] ∧
    EventOf (own t l₂) a e ∧
    ∃ row prev seq id ts, D.engine.audit.rowOf prev seq id ts e = some row ∧ c.store.audit[s'.audit.length]? = some row

/-- Every change of a call that is over has a row of its own. -/
theorem ownRow_of_change (hr : (broker D).Reach (l₁ ++ ⟨s, .act t a⟩ :: l₂) c) (hover : ¬ InProgress c t)
    (hans : AppendsAnswered (l₁ ++ ⟨s, .act t a⟩ :: l₂)) (ha : changes a = true) : OwnRow D c l₁ l₂ t a := by
  obtain ⟨q, -, ⟨m₁, s', ⟨o, r⟩, m₂, rfl, hm₂, -, hnext⟩ | ⟨r, hlast, -⟩⟩ := hr.followed (paths D) hover
  swap
  · exact absurd hlast (not_last_of_changes ha)
  obtain ⟨e, ho, hevent⟩ := append_of_next ha hnext
  simp only at ho
  subst ho
  rw [List.append_assoc, List.cons_append] at hr hans
  cases r with
  | none =>
    -- The append failed right after the change.
    have hhead : own t (m₂ ++ ⟨s, .act t a⟩ :: l₂) = a :: own t l₂ := by
      rw [own_append, hm₂, own_cons_self, List.nil_append]
    rw [hans _ _ _ _ _ rfl _ _ hhead] at ha
    simp at ha
  | some x => exact ⟨m₁, s', e, m₂, rfl, hm₂, hevent, row_of_append hr⟩

/-- The event of a change of a call that is over is in the table. -/
theorem logged_of_change (hr : (broker D).Reach tr c) (hover : ∀ t, ¬ InProgress c t) (hans : AppendsAnswered tr)
    (hd : Did tr t a) (ha : changes a = true) :
    ∃ l₂ l₁ s e, tr = l₁ ++ ⟨s, .act t a⟩ :: l₂ ∧ EventOf (own t l₂) a e ∧ Logged D c.store e := by
  obtain ⟨l₁, s, l₂, rfl⟩ := hd.split
  obtain ⟨m₁, s', e, m₂, -, -, hevent, row, prev, seq, id, ts, hrow, hget⟩ := ownRow_of_change hr (hover t) hans ha
  exact ⟨l₂, l₁, s, e, rfl, hevent, row, List.mem_of_getElem? hget, prev, seq, id, ts, hrow⟩

/-! ## What the tables say about the past -/

/-- What a binding says about its past. -/
def BindingPast (h : List (ℕ × Act BindingOp BindingOp.Res)) (b : DeviceBinding) : Prop :=
  (b.activatedAt ≠ none → ∃ t id now, Uuid.ofText id = some b.id ∧ (t, ⟨.activate id now, some ()⟩) ∈ h) ∧
  (b.status = .revoked →
    (∃ t id now reason, Uuid.ofText id = some b.id ∧ (t, ⟨.revoke id now reason, some ()⟩) ∈ h) ∨
    ∃ t citizenId now reason, Uuid.ofText citizenId = some b.citizenId ∧
      (t, ⟨.revokeActiveOf citizenId now reason, some ()⟩) ∈ h)

theorem BindingPast.cons {h : List (ℕ × Act BindingOp BindingOp.Res)} {b : DeviceBinding} (p : BindingPast h b)
    (x : ℕ × Act BindingOp BindingOp.Res) : BindingPast (x :: h) b := by
  refine ⟨fun ha => ?_, fun hrevoked => ?_⟩
  · obtain ⟨t, id, now, hid, hmem⟩ := p.1 ha
    exact ⟨t, id, now, hid, List.mem_cons_of_mem _ hmem⟩
  · rcases p.2 hrevoked with ⟨t, id, now, reason, hid, hmem⟩ | ⟨t, citizenId, now, reason, hid, hmem⟩
    · exact .inl ⟨t, id, now, reason, hid, List.mem_cons_of_mem _ hmem⟩
    · exact .inr ⟨t, citizenId, now, reason, hid, List.mem_cons_of_mem _ hmem⟩

theorem binding_past (hr : (broker D).Reach tr c) :
    ∀ b ∈ c.store.bindings, BindingPast ((bindings D).acts tr) b := by
  refine ((bindings D).history hr).rows bindings_writes ?_ (fun x h b p => p.cons x) ?_
  · rintro t a h b ⟨id, citizenId, jwk, attestation, al, label, now, -, rfl⟩
    simp [BindingPast, DeviceBinding.enrolled]
  · rintro t a h b b' hc p
    cases hc with
    | kept hident hstatus hactivated =>
      simp only [DeviceBinding.identity, Prod.mk.injEq] at hident
      unfold BindingPast
      rw [hactivated, hstatus, hident.1, hident.2.1]
      exact p.cons _
    | @activated id now _ hid =>
      exact ⟨fun _ => ⟨t, id, now, hid, List.mem_cons_self⟩, by simp⟩
    | @revoked id now reason _ hid =>
      refine ⟨fun hactivated => (p.cons _).1 hactivated, fun _ => .inl ⟨t, id, now, reason, hid, List.mem_cons_self⟩⟩
    | @swept citizenId now reason _ hid _ =>
      refine ⟨fun hactivated => (p.cons _).1 hactivated, fun _ => .inr ⟨t, citizenId, now, reason, hid, ?_⟩⟩
      exact List.mem_cons_self

/-- What a consent says about its past. -/
def ConsentPast (h : List (ℕ × Act ConsentOp ConsentOp.Res)) (g : ConsentGrant) : Prop :=
  (∃ t id citizenId rpId scopes source, Uuid.ofText citizenId = some g.citizenId ∧ Uuid.ofText rpId = some g.rpId ∧
    (t, ⟨.insert id citizenId rpId scopes source, some ()⟩) ∈ h) ∧
  (g.revokedAt ≠ none → ∃ t id now, Uuid.ofText id = some g.id ∧ (t, ⟨.revoke id now, some ()⟩) ∈ h)

theorem consent_past (hr : (broker D).Reach tr c) :
    ∀ g ∈ c.store.consents, ConsentPast ((consents D).acts tr) g := by
  have hcons : ∀ x h g, ConsentPast h g → ConsentPast (x :: h) g := by
    rintro x h g ⟨⟨t, id, citizenId, rpId, scopes, source, hcitizen, hrp, hmem⟩, hrevoked⟩
    refine ⟨⟨t, id, citizenId, rpId, scopes, source, hcitizen, hrp, List.mem_cons_of_mem _ hmem⟩, fun hne => ?_⟩
    obtain ⟨t', id', now, hid, hmem'⟩ := hrevoked hne
    exact ⟨t', id', now, hid, List.mem_cons_of_mem _ hmem'⟩
  refine ((consents D).history hr).rows consents_writes ?_ hcons ?_
  · rintro t a h g ⟨id, citizenId, rpId, scopes, source, citizen, rp, now, rfl, hcitizen, hrp, rfl⟩
    exact ⟨⟨t, id, citizenId, rpId, scopes, source, hcitizen, hrp, List.mem_cons_self⟩, fun hne => absurd rfl hne⟩
  · rintro t a h g g' hc p
    cases hc with
    | @revoked id now _ hid => exact ⟨(hcons _ h g p).1, fun _ => ⟨t, id, now, hid, List.mem_cons_self⟩⟩

/-- What a relying party says about its past. -/
def RpPast (h : List (ℕ × Act RpOp RpOp.Res)) (rp : RelyingParty) : Prop :=
  rp.status = .suspended → (∃ t id n, n ≠ 0 ∧ Uuid.ofText id = some rp.id ∧ (t, ⟨.suspend id, some n⟩) ∈ h) ∨
    ∃ t row, row.status = .suspended ∧ (t, ⟨.insert row, some ()⟩) ∈ h

theorem rp_past (hr : (broker D).Reach tr c) : ∀ rp ∈ c.store.rps, RpPast ((rps D).acts tr) rp := by
  have hcons : ∀ x h rp, RpPast h rp → RpPast (x :: h) rp := by
    intro x h rp p hsuspended
    rcases p hsuspended with ⟨t, id, n, hn, hid, hmem⟩ | ⟨t, row, hrow, hmem⟩
    · exact .inl ⟨t, id, n, hn, hid, List.mem_cons_of_mem _ hmem⟩
    · exact .inr ⟨t, row, hrow, List.mem_cons_of_mem _ hmem⟩
  refine ((rps D).history hr).rows (rps_writes fun _ _ h => .inl h) ?_ hcons ?_
  · rintro t a h rp ⟨row, now, rfl, rfl⟩ hsuspended
    exact .inr ⟨t, row, hsuspended, List.mem_cons_self⟩
  · rintro t a h rp rp' hc p
    cases hc with
    | @suspended id n _ hid hn => exact fun _ => .inl ⟨t, id, n, hn, hid, List.mem_cons_self⟩

/-- A relying party that is suspended was suspended by a command. -/
theorem suspended_by (hr : (broker D).Reach tr c) {rp : RelyingParty} (hrp : rp ∈ c.store.rps)
    (hs : rp.status = .suspended) :
    ∃ t id n, n ≠ 0 ∧ Uuid.ofText id = some rp.id ∧ Did tr t ⟨.rp (.suspend id), some n⟩ := by
  rcases rp_past hr rp hrp hs with ⟨t, id, n, hn, hid, hmem⟩ | ⟨t, row, hrow, hmem⟩
  · exact ⟨t, id, n, hn, hid, (rps D).mem_acts.mp hmem⟩
  · -- A relying party is registered as an active one.
    obtain ⟨l₁, s, l₂, rfl⟩ := ((rps D).mem_acts.mp hmem).split
    obtain ⟨q, -, hactive, -⟩ := onPath hr
    rw [show row.status = .active from hactive] at hrow
    simp at hrow

/-! ## Every change in the tables is audited -/

/-- Whatever the tables say about the past has its row. -/
structure Audited (D : Deployment) (s : Store) : Prop where
  /-- The activations of bindings. -/
  activations : ∀ b ∈ s.bindings, b.activatedAt ≠ none →
    ∃ b', b'.identity = b.identity ∧ Logged D s (bindingActivatedEvent b')
  /-- The revocations of bindings, one by one and with a suspended citizen. -/
  revocations : ∀ b ∈ s.bindings, b.status = .revoked →
    (∃ citizenId id reason, Uuid.ofText id = some b.id ∧ Logged D s (deviceRevokedEvent citizenId id reason)) ∨
    ∃ citizenId bindingId trigger ref, Uuid.ofText citizenId = some b.citizenId ∧
      Logged D s (reassertInvalidEvent citizenId bindingId trigger ref)
  /-- The consents. -/
  grants : ∀ g ∈ s.consents, ∃ citizenId rpId context, Uuid.ofText citizenId = some g.citizenId ∧
    Uuid.ofText rpId = some g.rpId ∧ Logged D s (consentGrantedEvent citizenId rpId context)
  /-- Their withdrawals. -/
  withdrawals : ∀ g ∈ s.consents, g.revokedAt ≠ none → ∃ citizenId rpId id, Uuid.ofText id = some g.id ∧
    Logged D s (consentRevokedEvent citizenId rpId id)
  /-- The suspensions of relying parties. -/
  suspensions : ∀ rp ∈ s.rps, rp.status = .suspended →
    ∃ id, Uuid.ofText id = some rp.id ∧ Logged D s (rpSuspendedEvent id)
  /-- The approvals of transactions. -/
  approvals : ∀ T ∈ s.txns, T.status = .approved ∨ T.status = .consumed →
    ∃ T' b suspicious, T'.identity = T.identity ∧ T.deviceBindingId = some b.id ∧
      Logged D s (decisionEvent T' b .approve suspicious)
  /-- The denials of transactions. -/
  denials : ∀ T ∈ s.txns, T.status = .denied →
    ∃ T' b suspicious, T'.identity = T.identity ∧ T.deviceBindingId = some b.id ∧
      Logged D s (decisionEvent T' b .deny suspicious)
  /-- The transactions that were marked as expired. -/
  expiries : ∀ T ∈ s.txns, T.status = .expired →
    ∃ T' rp, T'.identity = T.identity ∧ T'.rpId = rp.id ∧ Logged D s (requestExpiredEvent rp T')

/-- A transaction that a call read has the identity of the stored one with its id. -/
theorem identity_of_readsTxn (hr : (broker D).Reach (l₁ ++ l₂) c) {authReqId : String} {T T' : AuthTransaction}
    (hT : T ∈ c.store.txns) (hread : ReadsTxn (own t l₂) authReqId T') (hid : T'.id = T.id) :
    T'.identity = T.identity := by
  have hd : Did (l₁ ++ l₂) t ⟨.txn (.select authReqId), some (some T')⟩ :=
    (mem_own.mp hread).mono (List.subset_append_right _ _)
  obtain ⟨-, T'', hT'', hsame⟩ := txn_of_read hr hd
  have hid' : T''.id = T.id := (congrArg Prod.fst hsame).trans hid
  rw [← hsame, List.inj_on_of_nodup_map (txns_nodup hr) hT'' hT hid']

section Quiet

variable (hr : (broker D).Reach tr c) (hover : ∀ t, ¬ InProgress c t) (hans : AppendsAnswered tr)

include hr hover hans

theorem decision_logged {T : AuthTransaction} (hT : T ∈ c.store.txns) {d : Decision} {bindingId : Uuid} {now : Time}
    {suspicious : Bool} {n : ℕ} (hb : T.deviceBindingId = some bindingId)
    (hd : (t, ⟨.resolve T.id d bindingId now suspicious, some n⟩) ∈ (txns D).acts tr) :
    ∃ T' b suspicious, T'.identity = T.identity ∧ T.deviceBindingId = some b.id ∧
      Logged D c.store (decisionEvent T' b d suspicious) := by
  obtain ⟨l₂, l₁, s, e, rfl, ⟨authReqId, T', b, hread, hid, hbid, rfl⟩, hlogged⟩ :=
    logged_of_change hr hover hans ((txns D).mem_acts.mp hd) rfl
  rw [← List.singleton_append, ← List.append_assoc] at hr
  exact ⟨T', b, suspicious, identity_of_readsTxn hr hT hread hid, by rw [hb, hbid], hlogged⟩

/-- In a state without a call in progress, whatever the tables say about the past is audited, if no append has
failed right after a change. -/
theorem audited_of_quiet : Audited D c.store where
  activations b hb hactivated := by
    obtain ⟨t, id, now, hid, hmem⟩ := (binding_past hr b hb).1 hactivated
    obtain ⟨l₂, l₁, s, e, rfl, ⟨b', hread, rfl⟩, hlogged⟩ :=
      logged_of_change hr hover hans ((bindings D).mem_acts.mp hmem) rfl
    have hd : Did (l₁ ++ ⟨s, .act t ((bindings D).embed ⟨.activate id now, some ()⟩)⟩ :: l₂) t
        ⟨.binding (.select id), some (some b')⟩ := (mem_own.mp hread).mono (older_subset _ _)
    obtain ⟨hid', b'', hb'', hsame⟩ := binding_of_read hr hd
    have hbid : b''.id = b.id := by
      rw [hid, Option.some.injEq] at hid'
      exact (congrArg Prod.fst hsame).trans hid'.symm
    refine ⟨b', ?_, hlogged⟩
    rw [← hsame, List.inj_on_of_nodup_map (bindings_nodup hr) hb'' hb hbid]
  revocations b hb hrevoked := by
    rcases (binding_past hr b hb).2 hrevoked with ⟨t, id, now, reason, hid, hmem⟩ |
      ⟨t, citizenId, now, reason, hid, hmem⟩
    · obtain ⟨-, -, -, e, -, ⟨citizenId, rfl⟩, hlogged⟩ :=
        logged_of_change hr hover hans ((bindings D).mem_acts.mp hmem) rfl
      exact .inl ⟨citizenId, id, reason, hid, hlogged⟩
    · obtain ⟨-, -, -, e, -, ⟨bindingId, trigger, ref, rfl⟩, hlogged⟩ :=
        logged_of_change hr hover hans ((bindings D).mem_acts.mp hmem) rfl
      exact .inr ⟨citizenId, bindingId, trigger, ref, hid, hlogged⟩
  grants g hg := by
    obtain ⟨t, id, citizenId, rpId, scopes, source, hcitizen, hrp, hmem⟩ := (consent_past hr g hg).1
    obtain ⟨-, -, -, e, -, ⟨context, rfl⟩, hlogged⟩ :=
      logged_of_change hr hover hans ((consents D).mem_acts.mp hmem) rfl
    exact ⟨citizenId, rpId, context, hcitizen, hrp, hlogged⟩
  withdrawals g hg hrevoked := by
    obtain ⟨t, id, now, hid, hmem⟩ := (consent_past hr g hg).2 hrevoked
    obtain ⟨-, -, -, e, -, ⟨citizenId, rpId, rfl⟩, hlogged⟩ :=
      logged_of_change hr hover hans ((consents D).mem_acts.mp hmem) rfl
    exact ⟨citizenId, rpId, id, hid, hlogged⟩
  suspensions rp hrp hsuspended := by
    obtain ⟨t, id, n, hn, hid, hd⟩ := suspended_by hr hrp hsuspended
    have hchanges : changes ⟨.rp (.suspend id), some n⟩ = true := bne_iff_ne.mpr hn
    obtain ⟨-, -, -, e, -, rfl, hlogged⟩ := logged_of_change hr hover hans hd hchanges
    exact ⟨id, hid, hlogged⟩
  approvals T hT hstatus := by
    obtain ⟨t, bindingId, now, suspicious, n, -, hb, hmem⟩ := (past_of_stored hr hT).1 hstatus
    exact decision_logged hr hover hans hT hb hmem
  denials T hT hstatus := by
    obtain ⟨t, bindingId, now, suspicious, n, -, hb, hmem⟩ := (past_of_stored hr hT).2.1 hstatus
    exact decision_logged hr hover hans hT hb hmem
  expiries T hT hstatus := by
    obtain ⟨t, n, hn, hmem⟩ := (past_of_stored hr hT).2.2 hstatus
    have hchanges : changes ((txns D).embed ⟨.expire T.id, some n⟩) = true := bne_iff_ne.mpr hn
    obtain ⟨l₂, l₁, s, e, rfl, ⟨authReqId, rp, T', hread, hid, hrp, rfl⟩, hlogged⟩ :=
      logged_of_change hr hover hans ((txns D).mem_acts.mp hmem) hchanges
    rw [← List.singleton_append, ← List.append_assoc] at hr
    exact ⟨T', rp, identity_of_readsTxn hr hT hread hid, hrp, hlogged⟩

end Quiet

/-- In every run in which no append fails right after a change of its own call, every change has a row of its own
once its call is over, and whatever the tables of a state without a call in progress say about the past is
audited. -/
theorem audited_of_answered (hr : (broker D).Reach tr c) (hover : ∀ t, ¬ InProgress c t)
    (hans : AppendsAnswered tr) :
    (∀ l₁ s t a l₂, tr = l₁ ++ ⟨s, .act t a⟩ :: l₂ → changes a = true → OwnRow D c l₁ l₂ t a) ∧
    Audited D c.store := by
  refine ⟨?_, audited_of_quiet hr hover hans⟩
  rintro l₁ s t a l₂ rfl ha
  exact ownRow_of_change hr (hover t) hans ha

/-- The entry is an append that failed. -/
def appendFails (e : Step) : Bool :=
  match e.event with
  | .act _ ⟨.audit (.append _), none⟩ => true
  | _ => false

theorem appendsAnswered_of_none (h : tr.any appendFails = false) : AppendsAnswered tr := by
  rintro l₁ s t e l₂ rfl
  have hfails := List.any_eq_false.mp h ⟨s, .act t ⟨.audit (.append e), none⟩⟩
    (List.mem_append_right _ List.mem_cons_self)
  exact absurd rfl hfails

/-- No call is in progress. -/
def quiet (c : State) : Bool :=
  c.calls.all fun
    | .call _ _ => false
    | _ => true

theorem not_inProgress_of_quiet (h : quiet c = true) (t : ℕ) : ¬ InProgress c t := by
  rintro ⟨o, k, hcall⟩
  have := List.all_eq_true.mp h _ (List.mem_of_getElem? hcall)
  simp at this

/-- After a CIBA grant the activation of the binding, the approval of the transaction and the consent have their
rows. -/
theorem audited_of_answered_sampleGrant : ∃ tr c, (broker sampleDeployment).Reach tr c ∧
    (∃ b ∈ c.store.bindings, b.activatedAt ≠ none) ∧ (∃ T ∈ c.store.txns, T.status = .consumed) ∧
    c.store.consents ≠ [] ∧ Audited sampleDeployment c.store := by
  obtain ⟨tr, c, hr, hrun⟩ := (broker sampleDeployment).exists_of_play sampleGrant.reverse
    (p := fun run => !run.1.any appendFails && quiet run.2 && run.2.store.bindings.any (·.activatedAt.isSome) &&
      run.2.store.txns.any (·.status == .consumed) && !run.2.store.consents.isEmpty) (by decide +kernel)
  simp only [Bool.and_eq_true, Bool.not_eq_true', List.any_eq_true, beq_iff_eq, List.isEmpty_eq_false_iff,
    Option.isSome_iff_ne_none] at hrun
  obtain ⟨⟨⟨⟨hans, hquiet⟩, hactivated⟩, hconsumed⟩, hconsents⟩ := hrun
  exact ⟨tr, c, hr, hactivated, hconsumed, hconsents,
    (audited_of_answered hr (not_inProgress_of_quiet hquiet) (appendsAnswered_of_none hans)).2⟩

/-- Call 4 revokes the device's own binding, and the append of its event fails. -/
def sampleUnaudited : Script :=
  sampleSession ++ .arrive (.revokeBinding (some "session") (sampleUuid 2).text none) ::
  Script.go 4 [.unit, .unit, .unit, .unit, .unit] ++ [.fail 4]

theorem action_of_rowOf {prev : String} {seq : ℕ} {id : Uuid} {ts : ℤ} {row : AuditRow}
    (h : D.engine.audit.rowOf prev seq id ts e = some row) : row.action = e.action.text := by
  unfold AuditDeps.rowOf at h
  split at h
  · rw [← Option.some.inj h]
  · simp at h

/-- A row that records the revocation of a binding. -/
def recordsRevocation (row : AuditRow) : Bool :=
  row.action == AuditAction.deviceRevoked.text || row.action == AuditAction.sdidReassert.text

/-- A binding is revoked and no row says so, once the append has failed. -/
theorem not_audited_sampleUnaudited : ¬ ∀ tr c, (broker sampleDeployment).Reach tr c →
    (∀ t, ¬ InProgress c t) → Audited sampleDeployment c.store := by
  intro hall
  obtain ⟨tr, c, hr, hrun⟩ := (broker sampleDeployment).exists_of_play sampleUnaudited.reverse
    (p := fun run => quiet run.2 && run.2.store.bindings.any (·.status == .revoked) &&
      !run.2.store.audit.any recordsRevocation) (by decide +kernel)
  simp only [Bool.and_eq_true, Bool.not_eq_true', List.any_eq_true, beq_iff_eq] at hrun
  obtain ⟨⟨hquiet, b, hb, hrevoked⟩, hnone⟩ := hrun
  have hno : ∀ e, e.action = .deviceRevoked ∨ e.action = .sdidReassert → ¬ Logged sampleDeployment c.store e := by
    rintro e he ⟨row, hrow, prev, seq, id, ts, hof⟩
    have haction := action_of_rowOf hof
    refine List.any_eq_false.mp hnone row hrow ?_
    rw [recordsRevocation, haction]
    rcases he with he | he <;> simp [he]
  rcases (hall tr c hr (not_inProgress_of_quiet hquiet)).revocations b hb hrevoked with
    ⟨citizenId, id, reason, -, hlogged⟩ | ⟨citizenId, bindingId, trigger, ref, -, hlogged⟩
  · exact hno _ (.inl rfl) hlogged
  · exact hno _ (.inr rfl) hlogged

end SdidBridge
