import SdidBridge.Broker.Tables

/-!
# The histories of transactions and codes

A transaction moves along five edges, each by a guarded update (`TxnChange`). What its status says was
done by a command (`txn_past`), and it is consumed at most once, whoever competes for it
(`txn_consumed_once`). The same holds of a code, once it is inserted (`code_consumer_unique`).
-/

namespace SdidBridge

open Concurrent Machine

variable {D : Deployment} {tr l₁ l₂ : Run} {c : State} {s : Store} {t u : ℕ}

/-! ## Transactions -/

/-- What never changes of a transaction. -/
def AuthTransaction.identity (T : AuthTransaction) : Uuid × String × Uuid × Uuid × AssuranceLevel :=
  (T.id, T.authReqId, T.citizenId, T.rpId, T.requestedAl)

/-- A transaction after a decision. -/
def AuthTransaction.resolvedAs (T : AuthTransaction) (d : Decision) (bindingId : Uuid) (now : Time)
    (suspicious : Bool) : AuthTransaction :=
  { T with
    status := d.status
    deviceBindingId := some bindingId
    resolvedAt := some now
    suspiciousReport := if suspicious then some "citizen-reported-suspicious" else T.suspiciousReport }

/-- What a command can do to the row of a transaction. -/
inductive TxnChange : Act TxnOp TxnOp.Res → AuthTransaction → AuthTransaction → Prop
  /-- A pending transaction is decided. -/
  | resolved {d bindingId now suspicious n T} (hs : T.status = .pending) (hn : n ≠ 0) :
      TxnChange ⟨.resolve T.id d bindingId now suspicious, some n⟩ T
        (T.resolvedAs d bindingId now suspicious)
  /-- A pending transaction is marked as expired. -/
  | expired {n T} (hs : T.status = .pending) (hn : n ≠ 0) :
      TxnChange ⟨.expire T.id, some n⟩ T { T with status := .expired }
  /-- An approved transaction is consumed. -/
  | consumed {n T} (hs : T.status = .approved) (hn : n ≠ 0) :
      TxnChange ⟨.consume T.id, some n⟩ T { T with status := .consumed }

/-- The row that a command inserts. -/
def NewTxn (a : Act TxnOp TxnOp.Res) (T : AuthTransaction) : Prop :=
  ∃ id authReqId citizenId rpId flow scopes al message expiresAt now,
    a = ⟨.insert id authReqId citizenId rpId flow scopes al message expiresAt, some ()⟩ ∧
    T = AuthTransaction.started id authReqId citizenId rpId flow scopes al message expiresAt now

/-- A guarded update of the transactions. -/
theorem updateTxn_writes {κ : Type} {key : AuthTransaction → κ} {New : AuthTransaction → Prop}
    {Change : AuthTransaction → AuthTransaction → Prop} {id : Uuid} {old : TxnStatus}
    {f : AuthTransaction → AuthTransaction} {x x' : List AuthTransaction} {r : Option ℕ}
    (hx : updateTxn id old f x = (r, x'))
    (hf : ∀ T n, r = some n → n ≠ 0 → T.id = id → T.status = old → Change T (f T)) :
    Writes key New Change x x' := by
  cases hx
  refine .update _ _ fun T hT hp => ?_
  obtain ⟨hid, hold⟩ := of_decide_eq_true hp
  exact hf T _ rfl (Table.count_ne_zero.mpr ⟨T, hT, hp⟩) hid hold

/-- What a command does to the transactions. Both their ids are keys. -/
theorem txns_writes {κ : Type} {key : AuthTransaction → κ}
    (hkey : ∀ T T', key T = key T' → T.id = T'.id ∨ T.authReqId = T'.authReqId)
    (x : List AuthTransaction) (a : Act TxnOp TxnOp.Res) (x' : List AuthTransaction)
    (hs : (txns D).Step x a x') : Writes key (NewTxn a) (TxnChange a) x x' := by
  obtain ⟨o, r⟩ := a
  rcases hs with ⟨now, hx⟩ | ⟨-, rfl⟩
  swap
  · exact .read _
  cases o with
  | select authReqId => cases hx; exact .read _
  | selectPendingOf citizenId now =>
    obtain ⟨u, -, ⟨⟩⟩ | ⟨rfl, rfl⟩ := withUuid_eq hx <;> exact .read _
  | insert id authReqId citizenId rpId flow scopes al message expiresAt =>
    simp only [TxnOp.exec] at hx
    split at hx
    · rename_i rows' hrows
      obtain ⟨hfree, rfl⟩ := Table.insert_eq_some.mp hrows
      cases hx
      exact .insert (fun T hT h => of_decide_eq_false (hfree T hT) (hkey _ _ h))
        ⟨id, authReqId, citizenId, rpId, flow, scopes, al, message, expiresAt, now, rfl, rfl⟩
    · cases hx
      exact .read _
  | resolve id d bindingId resolvedAt suspicious =>
    refine updateTxn_writes hx ?_
    rintro T n rfl hn rfl hs
    exact .resolved hs hn
  | expire id =>
    refine updateTxn_writes hx ?_
    rintro T n rfl hn rfl hs
    exact .expired hs hn
  | consume id =>
    refine updateTxn_writes hx ?_
    rintro T n rfl hn rfl hs
    exact .consumed hs hn

theorem TxnChange.identity {a : Act TxnOp TxnOp.Res} {T T' : AuthTransaction}
    (h : TxnChange a T T') : T'.identity = T.identity := by
  cases h <;> rfl

/-- The ids of the transactions are different. -/
theorem txns_nodup (hr : (broker D).Reach tr c) : (c.store.txns.map (·.id)).Nodup :=
  (txns D).nodup (txns_writes fun _ _ h => .inl h) (fun _ _ _ h => congrArg Prod.fst h.identity) rfl hr

/-- The request ids of the transactions are different. -/
theorem txns_nodup_authReqId (hr : (broker D).Reach tr c) :
    (c.store.txns.map (·.authReqId)).Nodup :=
  (txns D).nodup (txns_writes fun _ _ h => .inr h)
    (fun _ _ _ h => congrArg (fun i => i.2.1) h.identity) rfl hr

/-- A transaction that was there once is still there. -/
theorem txn_later (hr : (broker D).Reach tr c) {e : Step} (he : e ∈ tr) {T : AuthTransaction}
    (hT : T ∈ e.before.txns) : ∃ T' ∈ c.store.txns, T'.identity = T.identity := by
  obtain ⟨T', hT', -, hid⟩ := (txns D).row_later (txns_writes fun _ _ h => .inl h)
    AuthTransaction.identity (fun _ _ _ h => ⟨congrArg Prod.fst h.identity, h.identity⟩) hr he hT
  exact ⟨T', hT', hid⟩

/-- The row that a command read. -/
theorem mem_of_select_txn {authReqId : String} {T : AuthTransaction}
    (hr : (broker D).Reach
      (l₁ ++ ⟨s, .act t ⟨.txn (.select authReqId), some (some T)⟩⟩ :: l₂) c) :
    T ∈ s.txns ∧ T.authReqId = authReqId := by
  obtain ⟨x, hstep⟩ := (txns D).step_at ⟨.select authReqId, some (some T)⟩ hr
  rcases hstep with ⟨now, hx⟩ | ⟨hnone, -⟩
  · simp only [TxnOp.exec, Prod.mk.injEq, Option.some.injEq] at hx
    exact ⟨List.mem_of_find?_eq_some hx.1, by simpa using List.find?_some hx.1⟩
  · simp at hnone

/-- A transaction that was read is there, under the request id that it was read by. -/
theorem txn_of_read (hr : (broker D).Reach tr c) {authReqId : String} {T : AuthTransaction}
    (hd : Did tr t ⟨.txn (.select authReqId), some (some T)⟩) :
    T.authReqId = authReqId ∧ ∃ T' ∈ c.store.txns, T'.identity = T.identity := by
  obtain ⟨l₁, s, l₂, rfl⟩ := hd.split
  obtain ⟨hT, hid⟩ := mem_of_select_txn hr
  exact ⟨hid, txn_later hr (List.mem_append_right _ List.mem_cons_self) hT⟩

/-- What the status of a transaction says about its past. -/
def TxnPast (h : List (ℕ × Act TxnOp TxnOp.Res)) (T : AuthTransaction) : Prop :=
  (T.status = .approved ∨ T.status = .consumed → ∃ t bindingId now suspicious n, n ≠ 0 ∧
    T.deviceBindingId = some bindingId ∧
    (t, ⟨.resolve T.id .approve bindingId now suspicious, some n⟩) ∈ h) ∧
  (T.status = .denied → ∃ t bindingId now suspicious n, n ≠ 0 ∧
    T.deviceBindingId = some bindingId ∧
    (t, ⟨.resolve T.id .deny bindingId now suspicious, some n⟩) ∈ h) ∧
  (T.status = .expired → ∃ t n, n ≠ 0 ∧ (t, ⟨.expire T.id, some n⟩) ∈ h)

/-- The status of a transaction was brought about by the commands that it says. -/
theorem txn_past {h : List (ℕ × Act TxnOp TxnOp.Res)} {x : List AuthTransaction}
    (hh : History (txns D).Step [] h x) : ∀ T ∈ x, TxnPast h T := by
  have hkeep : ∀ p h T, TxnPast h T → TxnPast (p :: h) T := by
    rintro p h T ⟨happroved, hdenied, hexpired⟩
    refine ⟨fun hs => ?_, fun hs => ?_, fun hs => ?_⟩
    · obtain ⟨t, b, now, susp, n, hn, hb, hm⟩ := happroved hs
      exact ⟨t, b, now, susp, n, hn, hb, List.mem_cons_of_mem _ hm⟩
    · obtain ⟨t, b, now, susp, n, hn, hb, hm⟩ := hdenied hs
      exact ⟨t, b, now, susp, n, hn, hb, List.mem_cons_of_mem _ hm⟩
    · obtain ⟨t, n, hn, hm⟩ := hexpired hs
      exact ⟨t, n, hn, List.mem_cons_of_mem _ hm⟩
  refine hh.rows (txns_writes fun _ _ h => .inl h) ?_ hkeep ?_
  · rintro t a h T ⟨id, authReqId, citizenId, rpId, flow, scopes, al, message, expiresAt, now, -, rfl⟩
    simp [TxnPast, AuthTransaction.started]
  · intro t a h T T' hc hpast
    cases hc with
    | @resolved d bindingId now suspicious n _ hs hn =>
      cases d with
      | approve =>
        refine ⟨fun _ => ?_, by simp [AuthTransaction.resolvedAs, Decision.status],
          by simp [AuthTransaction.resolvedAs, Decision.status]⟩
        exact ⟨t, bindingId, now, suspicious, n, hn, rfl, List.mem_cons_self⟩
      | deny =>
        refine ⟨by simp [AuthTransaction.resolvedAs, Decision.status], fun _ => ?_,
          by simp [AuthTransaction.resolvedAs, Decision.status]⟩
        exact ⟨t, bindingId, now, suspicious, n, hn, rfl, List.mem_cons_self⟩
    | @expired n _ hs hn =>
      exact ⟨by simp, by simp, fun _ => ⟨t, n, hn, List.mem_cons_self⟩⟩
    | @consumed n _ hs hn =>
      refine ⟨fun _ => ?_, by simp, by simp⟩
      exact (hkeep (t, ⟨.consume T.id, some n⟩) h T hpast).1 (.inl hs)

/-- What the statuses of the stored transactions say about the run. -/
theorem past_of_stored (hr : (broker D).Reach tr c) {T : AuthTransaction} (hT : T ∈ c.store.txns) :
    TxnPast ((txns D).acts tr) T :=
  txn_past ((txns D).history hr) T hT

/-- A consumption that changed a row leaves it consumed. -/
theorem consumed_of_consumes (hr : (broker D).Reach tr c) {id : Uuid} {n : ℕ}
    (hd : Did tr t ⟨.txn (.consume id), some n⟩) (hn : n ≠ 0) :
    ∃ T ∈ c.store.txns, T.id = id ∧ T.status = .consumed := by
  have hmem : (t, ⟨.consume id, some n⟩) ∈ (txns D).acts tr := (txns D).mem_acts.mpr hd
  refine ((txns D).history hr).recorded (Q := fun a x => ∀ id n, a = ⟨.consume id, some n⟩ → n ≠ 0 →
    ∃ T ∈ x, T.id = id ∧ T.status = .consumed) ?_ ?_ hmem id n rfl hn
  · rintro x a x' hs id n rfl hn
    rcases hs with ⟨now, hx⟩ | ⟨hnone, -⟩
    · simp only [TxnOp.exec, updateTxn, Prod.mk.injEq, Option.some.injEq] at hx
      obtain ⟨rfl, rfl⟩ := hx
      obtain ⟨T, hT, hp⟩ := Table.count_ne_zero.mp hn
      refine ⟨_, Table.update_mem hT, ?_⟩
      rw [if_pos hp]
      exact ⟨(of_decide_eq_true hp).1, rfl⟩
    · simp at hnone
  · intro a x b x' hs ha id n heq hn
    obtain ⟨T, hT, hid, hstatus⟩ := ha id n heq hn
    -- No command changes a consumed row.
    obtain ⟨T', hT', rfl | hc⟩ :=
      (@txns_writes D _ (·.id) (fun _ _ h => .inl h) x b x' hs).later hT
    · exact ⟨T', hT', hid, hstatus⟩
    · cases hc <;> simp_all

/-- A transaction is consumed once. -/
theorem txn_consumed_once {id : Uuid} {n n' : ℕ}
    (hr : (broker D).Reach (l₁ ++ ⟨s, .act t ⟨.txn (.consume id), some n⟩⟩ :: l₂) c) (hn : n ≠ 0)
    (hd : Did l₂ u ⟨.txn (.consume id), some n'⟩) : n' = 0 := by
  by_contra hn'
  obtain ⟨c₀, -, -, hr₀, hb, -⟩ := hr.entry
  obtain ⟨T, hT, hid, hconsumed⟩ := consumed_of_consumes hr₀ hd hn'
  obtain ⟨x, hstep⟩ := (txns D).step_at ⟨.consume id, some n⟩ hr
  rcases hstep with ⟨now, hx⟩ | ⟨hnone, -⟩
  · simp only [TxnOp.exec, updateTxn, Prod.mk.injEq, Option.some.injEq] at hx
    obtain ⟨rfl, -⟩ := hx
    obtain ⟨T', hT', hp⟩ := Table.count_ne_zero.mp hn
    obtain ⟨hid', happroved⟩ := of_decide_eq_true hp
    have hT₀ : T' ∈ c₀.store.txns := by rw [hb]; exact hT'
    have heq : T' = T := List.inj_on_of_nodup_map (txns_nodup hr₀) hT₀ hT (hid'.trans hid.symm)
    rw [heq, hconsumed] at happroved
    simp at happroved
  · simp at hnone

/-- A transaction is consumed by one call. -/
theorem txn_consumer_unique (hr : (broker D).Reach tr c) {id : Uuid} {n n' : ℕ}
    (hd : Did tr t ⟨.txn (.consume id), some n⟩) (hn : n ≠ 0)
    (hd' : Did tr u ⟨.txn (.consume id), some n'⟩) (hn' : n' ≠ 0) : t = u := by
  refine (hr.unique (P := fun _ a => ∃ n, a = ⟨.txn (.consume id), some n⟩ ∧ n ≠ 0) ?_ hd
    ⟨n, rfl, hn⟩ hd' ⟨n', rfl, hn'⟩).1
  rintro l₁ s t a l₂ c hr ⟨n, rfl, hn⟩ u b hb ⟨n', rfl, hn'⟩
  exact hn' (txn_consumed_once hr hn hb)

/-! ## Authorization codes -/

/-- What never changes of a code. -/
def AuthorizationCode.identity (k : AuthorizationCode) : String × Uuid × Uuid × AssuranceLevel :=
  (k.codeHash, k.citizenId, k.rpId, k.assurance)

/-- What a command can do to the row of a code. -/
inductive CodeChange : Act CodeOp CodeOp.Res → AuthorizationCode → AuthorizationCode → Prop
  /-- A code that is not consumed is consumed. -/
  | consumed {now n k} (hk : k.consumedAt = none) :
      CodeChange ⟨.consume k.codeHash now, some n⟩ k { k with consumedAt := some now }

/-- The row that a command inserts. -/
def NewCode (a : Act CodeOp CodeOp.Res) (k : AuthorizationCode) : Prop := a = ⟨.insert k, some ()⟩

/-- What a command does to the codes. -/
theorem codes_writes (x : List AuthorizationCode) (a : Act CodeOp CodeOp.Res)
    (x' : List AuthorizationCode) (hs : (codes D).Step x a x') :
    Writes (·.codeHash) (NewCode a) (CodeChange a) x x' := by
  obtain ⟨o, r⟩ := a
  rcases hs with hx | ⟨-, rfl⟩
  swap
  · exact .read _
  cases o with
  | select codeHash => cases hx; exact .read _
  | insert row =>
    simp only [CodeOp.exec] at hx
    split at hx
    · rename_i rows' hrows
      obtain ⟨hfree, rfl⟩ := Table.insert_eq_some.mp hrows
      cases hx
      exact .insert (fun k hk => of_decide_eq_false (hfree k hk)) rfl
    · cases hx
      exact .read _
  | consume codeHash now =>
    cases hx
    refine .update _ _ fun k _ hp => ?_
    obtain ⟨rfl, hk⟩ := of_decide_eq_true hp
    exact .consumed hk

theorem CodeChange.identity {a : Act CodeOp CodeOp.Res} {k k' : AuthorizationCode}
    (h : CodeChange a k k') : k'.identity = k.identity := by
  cases h
  rfl

/-- The digests of the codes are different. -/
theorem codes_nodup (hr : (broker D).Reach tr c) : (c.store.codes.map (·.codeHash)).Nodup :=
  (codes D).nodup codes_writes (fun _ _ _ h => congrArg Prod.fst h.identity) rfl hr

/-- A code as it was issued: no command changes anything else of it. -/
def AuthorizationCode.issued (k : AuthorizationCode) : AuthorizationCode := { k with consumedAt := none }

theorem CodeChange.issued {a : Act CodeOp CodeOp.Res} {k k' : AuthorizationCode}
    (h : CodeChange a k k') : k'.issued = k.issued := by
  cases h
  rfl

/-- Every stored code was inserted. -/
theorem inserted_of_stored (hr : (broker D).Reach tr c) {k : AuthorizationCode}
    (hk : k ∈ c.store.codes) :
    ∃ t row, Did tr t ⟨.code (.insert row), some ()⟩ ∧ row.issued = k.issued := by
  have hins : ∃ t row, (t, ⟨.insert row, some ()⟩) ∈ (codes D).acts tr ∧ row.issued = k.issued := by
    refine ((codes D).history hr).rows (P := fun h k => ∃ t row, (t, ⟨.insert row, some ()⟩) ∈ h ∧
      row.issued = k.issued) codes_writes ?_ ?_ ?_ k hk
    · rintro t a h k rfl
      exact ⟨t, k, List.mem_cons_self, rfl⟩
    · rintro p h k ⟨t, row, hmem, hsame⟩
      exact ⟨t, row, List.mem_cons_of_mem _ hmem, hsame⟩
    · rintro t a h k k' hc ⟨u, row, hmem, hsame⟩
      exact ⟨u, row, List.mem_cons_of_mem _ hmem, hsame.trans hc.issued.symm⟩
  obtain ⟨t, row, hmem, hsame⟩ := hins
  exact ⟨t, row, (codes D).mem_acts.mp hmem, hsame⟩

/-- The row that a command read. -/
theorem mem_of_select_code {codeHash : String} {k : AuthorizationCode}
    (hr : (broker D).Reach
      (l₁ ++ ⟨s, .act t ⟨.code (.select codeHash), some (some k)⟩⟩ :: l₂) c) :
    k ∈ s.codes ∧ k.codeHash = codeHash := by
  obtain ⟨x, hstep⟩ := (codes D).step_at ⟨.select codeHash, some (some k)⟩ hr
  rcases hstep with hx | ⟨hnone, -⟩
  · simp only [CodeOp.exec, Prod.mk.injEq, Option.some.injEq] at hx
    exact ⟨List.mem_of_find?_eq_some hx.1, by simpa using List.find?_some hx.1⟩
  · simp at hnone

/-- A code that was read is there, under the digest that it was read by. -/
theorem code_of_read (hr : (broker D).Reach tr c) {codeHash : String} {k : AuthorizationCode}
    (hd : Did tr t ⟨.code (.select codeHash), some (some k)⟩) :
    k.codeHash = codeHash ∧ ∃ k' ∈ c.store.codes, k'.identity = k.identity := by
  obtain ⟨l₁, s, l₂, rfl⟩ := hd.split
  obtain ⟨hk, hhash⟩ := mem_of_select_code hr
  obtain ⟨k', hk', -, hid⟩ := (codes D).row_later codes_writes AuthorizationCode.identity
    (fun _ _ _ h => ⟨congrArg Prod.fst h.identity, h.identity⟩) hr
    (List.mem_append_right _ List.mem_cons_self) hk
  exact ⟨hhash, k', hk', hid⟩

/-- A redemption that changed a row leaves it consumed. -/
theorem redeemed_of_redeems (hr : (broker D).Reach tr c) {codeHash : String} {now : Time} {n : ℕ}
    (hd : Did tr t ⟨.code (.consume codeHash now), some n⟩) (hn : n ≠ 0) :
    ∃ k ∈ c.store.codes, k.codeHash = codeHash ∧ k.consumedAt ≠ none := by
  have hmem : (t, ⟨.consume codeHash now, some n⟩) ∈ (codes D).acts tr := (codes D).mem_acts.mpr hd
  refine ((codes D).history hr).recorded (Q := fun a x => ∀ codeHash now n,
    a = ⟨.consume codeHash now, some n⟩ → n ≠ 0 →
      ∃ k ∈ x, k.codeHash = codeHash ∧ k.consumedAt ≠ none) ?_ ?_ hmem codeHash now n rfl hn
  · rintro x a x' hs codeHash now n rfl hn
    rcases hs with hx | ⟨hnone, -⟩
    · simp only [CodeOp.exec, Prod.mk.injEq, Option.some.injEq] at hx
      obtain ⟨rfl, rfl⟩ := hx
      obtain ⟨k, hk, hp⟩ := Table.count_ne_zero.mp hn
      refine ⟨_, Table.update_mem hk, ?_⟩
      rw [if_pos hp]
      exact ⟨(of_decide_eq_true hp).1, by simp⟩
    · simp at hnone
  · intro a x b x' hs ha codeHash now n heq hn
    obtain ⟨k, hk, hhash, hconsumed⟩ := ha codeHash now n heq hn
    obtain ⟨k', hk', rfl | hc⟩ := (codes_writes x b x' hs).later hk
    · exact ⟨k', hk', hhash, hconsumed⟩
    · cases hc with
      | consumed hnone => exact absurd hnone hconsumed

/-- A code is redeemed by one call. -/
theorem code_consumer_unique (hr : (broker D).Reach tr c) {codeHash : String} {now now' : Time}
    {n n' : ℕ} (hd : Did tr t ⟨.code (.consume codeHash now), some n⟩) (hn : n ≠ 0)
    (hd' : Did tr u ⟨.code (.consume codeHash now'), some n'⟩) (hn' : n' ≠ 0) : t = u := by
  refine (hr.unique (P := fun _ a => ∃ now n, a = ⟨.code (.consume codeHash now), some n⟩ ∧ n ≠ 0)
    ?_ hd ⟨now, n, rfl, hn⟩ hd' ⟨now', n', rfl, hn'⟩).1
  rintro l₁ s t a l₂ c hr ⟨now, n, rfl, hn⟩ u b hb ⟨now', n', rfl, hn'⟩
  -- An earlier redemption left the row consumed, so that this one changes none.
  obtain ⟨c₀, -, -, hr₀, hbefore, -⟩ := hr.entry
  obtain ⟨k, hk, hhash, hconsumed⟩ := redeemed_of_redeems hr₀ hb hn'
  obtain ⟨x, hstep⟩ := (codes D).step_at ⟨.consume codeHash now, some n⟩ hr
  rcases hstep with hx | ⟨hnone, -⟩
  · simp only [CodeOp.exec, Prod.mk.injEq, Option.some.injEq] at hx
    obtain ⟨rfl, -⟩ := hx
    obtain ⟨k', hk', hp⟩ := Table.count_ne_zero.mp hn
    obtain ⟨hhash', hopen⟩ := of_decide_eq_true hp
    have hk₀ : k' ∈ c₀.store.codes := by rw [hbefore]; exact hk'
    have heq : k' = k :=
      List.inj_on_of_nodup_map (codes_nodup hr₀) hk₀ hk (hhash'.trans hhash.symm)
    rw [heq] at hopen
    exact hconsumed hopen
  · simp at hnone

end SdidBridge
