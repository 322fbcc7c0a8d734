import SdidBridge.Broker.Keys

/-!
# The histories of the tables

What one command can do to a row of a table is said once for each table (`BindingChange`,
`TxnChange`, ...). From it come the two kinds of facts that the runs are reasoned with. A row keeps its
identity, so that rows that were read at different times under one key agree on what never changes
(`binding_of_read`, `txn_of_read`, ...). And what a row says about its past was done by a command
(`approved_by`, `revoked_by`, ...).
-/

namespace SdidBridge

open Concurrent Machine

variable {D : Deployment} {tr l₁ l₂ : Run} {c : State} {s : Store} {t u : ℕ}

/-- A statement with a uuid parameter runs with the uuid that the text spells. -/
theorem withUuid_eq {α σ : Type} {text : String} {s : σ} {f : Uuid → Option α × σ}
    {r : Option α} {s' : σ} (h : withUuid text s f = (r, s')) :
    (∃ u, Uuid.ofText text = some u ∧ f u = (r, s')) ∨ (r = none ∧ s' = s) := by
  unfold withUuid at h
  split at h
  · rename_i u hu
    exact .inl ⟨u, hu, h⟩
  · cases h
    exact .inr ⟨rfl, rfl⟩

/-! ## Device bindings -/

/-- What never changes of a binding. -/
def DeviceBinding.identity (b : DeviceBinding) : Uuid × Uuid × PublicKeyJwk × AssuranceLevel :=
  (b.id, b.citizenId, b.devicePubkeyJwk, b.assuranceLevel)

/-- What a command can do to the row of a binding. -/
inductive BindingChange : Act BindingOp BindingOp.Res → DeviceBinding → DeviceBinding → Prop
  /-- Neither the status nor the identity changes. -/
  | kept {a b b'} (hid : b'.identity = b.identity) (hs : b'.status = b.status)
      (ha : b'.activatedAt = b.activatedAt) : BindingChange a b b'
  /-- The binding is activated. -/
  | activated {id now b} (hid : Uuid.ofText id = some b.id) : BindingChange
      ⟨.activate id now, some ()⟩ b { b with status := .active, activatedAt := some now }
  /-- The binding is revoked by itself. -/
  | revoked {id now reason b} (hid : Uuid.ofText id = some b.id) :
      BindingChange ⟨.revoke id now reason, some ()⟩ b (b.revokedWith now reason)
  /-- The binding is active and is revoked with all of its citizen. -/
  | swept {citizenId now reason b} (hid : Uuid.ofText citizenId = some b.citizenId)
      (hs : b.status = .active) :
      BindingChange ⟨.revokeActiveOf citizenId now reason, some ()⟩ b (b.revokedWith now reason)

theorem BindingChange.refl (a : Act BindingOp BindingOp.Res) (b : DeviceBinding) :
    BindingChange a b b :=
  .kept rfl rfl rfl

theorem BindingChange.identity {a : Act BindingOp BindingOp.Res} {b b' : DeviceBinding}
    (h : BindingChange a b b') : b'.identity = b.identity := by
  cases h with
  | kept hid _ _ => exact hid
  | activated _ => rfl
  | revoked _ => rfl
  | swept _ _ => rfl

/-- The row that a command inserts. -/
def NewBinding (a : Act BindingOp BindingOp.Res) (b : DeviceBinding) : Prop :=
  ∃ id citizenId jwk attestation al label now,
    a = ⟨.insert id citizenId jwk attestation al label, some ()⟩ ∧
    b = DeviceBinding.enrolled id citizenId jwk attestation al label now

/-- What a command does to the row of a binding that it updates. -/
inductive BindingRewrite : Act BindingOp BindingOp.Res → DeviceBinding → DeviceBinding → Prop
  /-- The binding is activated. -/
  | activated {id now b} (hid : Uuid.ofText id = some b.id) : BindingRewrite
      ⟨.activate id now, some ()⟩ b { b with status := .active, activatedAt := some now }
  /-- The binding is revoked by itself. -/
  | revoked {id now reason b} (hid : Uuid.ofText id = some b.id) :
      BindingRewrite ⟨.revoke id now reason, some ()⟩ b (b.revokedWith now reason)
  /-- The binding is active and is revoked with all of its citizen. -/
  | swept {citizenId now reason b} (hid : Uuid.ofText citizenId = some b.citizenId)
      (hs : b.status = .active) :
      BindingRewrite ⟨.revokeActiveOf citizenId now reason, some ()⟩ b (b.revokedWith now reason)
  /-- The binding is active, and its citizen was re-asserted. -/
  | reasserted {citizenId now b} (hid : Uuid.ofText citizenId = some b.citizenId)
      (hs : b.status = .active) :
      BindingRewrite ⟨.setLastReasserted citizenId now, some ()⟩ b { b with lastReassertedAt := some now }
  /-- The binding was used. -/
  | used {id now b} (hid : b.id = id) :
      BindingRewrite ⟨.setLastUsed id now, some ()⟩ b { b with lastUsedAt := some now }
  /-- The binding gets a push address. -/
  | addressed {id platform token now b} (hid : Uuid.ofText id = some b.id) :
      BindingRewrite ⟨.setPushToken id platform token now, some ()⟩ b { b with
        pushPlatform := some platform
        pushToken := some token
        pushTokenUpdatedAt := some now }
  /-- The binding loses its push address. -/
  | unaddressed {id now b} (hid : Uuid.ofText id = some b.id) :
      BindingRewrite ⟨.clearPushToken id now, some ()⟩ b { b with
        pushPlatform := none
        pushToken := none
        pushTokenUpdatedAt := some now }

theorem BindingRewrite.change {a : Act BindingOp BindingOp.Res} {b b' : DeviceBinding}
    (h : BindingRewrite a b b') : BindingChange a b b' := by
  cases h with
  | activated hid => exact .activated hid
  | revoked hid => exact .revoked hid
  | swept hid hs => exact .swept hid hs
  | reasserted _ _ => exact .kept rfl rfl rfl
  | used _ => exact .kept rfl rfl rfl
  | addressed _ => exact .kept rfl rfl rfl
  | unaddressed _ => exact .kept rfl rfl rfl

/-- What a command does to the bindings, row by row. -/
theorem bindings_rewrites (x : List DeviceBinding) (a : Act BindingOp BindingOp.Res)
    (x' : List DeviceBinding) (hs : (bindings D).Step x a x') :
    Writes (·.id) (NewBinding a) (BindingRewrite a) x x' := by
  obtain ⟨o, r⟩ := a
  rcases hs with ⟨now, hx⟩ | ⟨-, rfl⟩
  swap
  · exact .read _
  cases o with
  | select id => obtain ⟨u, -, ⟨⟩⟩ | ⟨rfl, rfl⟩ := withUuid_eq hx <;> exact .read _
  | selectActiveOf citizenId => cases hx; exact .read _
  | selectActive => cases hx; exact .read _
  | countLive citizenId => cases hx; exact .read _
  | insert id citizenId jwk attestation al label =>
    simp only [BindingOp.exec] at hx
    split at hx
    · rename_i rows' hrows
      obtain ⟨hfree, rfl⟩ := Table.insert_eq_some.mp hrows
      cases hx
      refine .insert (fun b hb => of_decide_eq_false (hfree b hb)) ?_
      exact ⟨id, citizenId, jwk, attestation, al, label, now, rfl, rfl⟩
    · cases hx
      exact .read _
  | activate id t =>
    obtain ⟨u, hu, ⟨⟩⟩ | ⟨rfl, rfl⟩ := withUuid_eq hx
    · refine .update _ _ fun b _ hb => .activated ?_
      rw [hu, ← of_decide_eq_true hb]
    · exact .read _
  | revoke id t reason =>
    obtain ⟨u, hu, ⟨⟩⟩ | ⟨rfl, rfl⟩ := withUuid_eq hx
    · refine .update _ _ fun b _ hb => .revoked ?_
      rw [hu, ← of_decide_eq_true hb]
    · exact .read _
  | revokeActiveOf citizenId t reason =>
    obtain ⟨u, hu, ⟨⟩⟩ | ⟨rfl, rfl⟩ := withUuid_eq hx
    · refine .update _ _ fun b _ hb => ?_
      obtain ⟨hcitizen, hactive⟩ := of_decide_eq_true hb
      exact .swept (by rw [hu, hcitizen]) hactive
    · exact .read _
  | setLastReasserted citizenId t =>
    obtain ⟨u, hu, ⟨⟩⟩ | ⟨rfl, rfl⟩ := withUuid_eq hx
    · refine .update _ _ fun b _ hb => ?_
      obtain ⟨hcitizen, hactive⟩ := of_decide_eq_true hb
      exact .reasserted (by rw [hu, hcitizen]) hactive
    · exact .read _
  | setLastUsed id t =>
    cases hx
    exact .update _ _ fun b _ hb => .used (of_decide_eq_true hb)
  | setPushToken id platform token t =>
    obtain ⟨u, hu, ⟨⟩⟩ | ⟨rfl, rfl⟩ := withUuid_eq hx
    · refine .update _ _ fun b _ hb => .addressed ?_
      rw [hu, ← of_decide_eq_true hb]
    · exact .read _
  | clearPushToken id t =>
    obtain ⟨u, hu, ⟨⟩⟩ | ⟨rfl, rfl⟩ := withUuid_eq hx
    · refine .update _ _ fun b _ hb => .unaddressed ?_
      rw [hu, ← of_decide_eq_true hb]
    · exact .read _

/-- What a command does to the bindings, as far as their status and their identity go. -/
theorem bindings_writes (x : List DeviceBinding) (a : Act BindingOp BindingOp.Res)
    (x' : List DeviceBinding) (hs : (bindings D).Step x a x') :
    Writes (·.id) (NewBinding a) (BindingChange a) x x' :=
  (bindings_rewrites x a x' hs).mono fun _ _ h => h.change

theorem BindingChange.id_eq {a : Act BindingOp BindingOp.Res} {b b' : DeviceBinding}
    (h : BindingChange a b b') : b'.id = b.id :=
  congrArg Prod.fst h.identity

/-- The ids of the bindings are different. -/
theorem bindings_nodup (hr : (broker D).Reach tr c) : (c.store.bindings.map (·.id)).Nodup :=
  (bindings D).nodup bindings_writes (fun _ _ _ h => h.id_eq) rfl hr

/-- A binding that was there once is still there. -/
theorem binding_later (hr : (broker D).Reach tr c) {e : Step} (he : e ∈ tr) {b : DeviceBinding}
    (hb : b ∈ e.before.bindings) : ∃ b' ∈ c.store.bindings, b'.identity = b.identity := by
  obtain ⟨b', hb', -, hid⟩ := (bindings D).row_later bindings_writes DeviceBinding.identity
    (fun _ _ _ h => ⟨h.id_eq, h.identity⟩) hr he hb
  exact ⟨b', hb', hid⟩

/-- A binding that was read is there, under the id that it was read by. -/
theorem binding_of_read (hr : (broker D).Reach tr c) {id : String} {b : DeviceBinding}
    (hd : Did tr t ⟨.binding (.select id), some (some b)⟩) :
    Uuid.ofText id = some b.id ∧ ∃ b' ∈ c.store.bindings, b'.identity = b.identity := by
  obtain ⟨l₁, s, l₂, rfl⟩ := hd.split
  obtain ⟨x, hstep⟩ := (bindings D).step_at ⟨.select id, some (some b)⟩ hr
  rcases hstep with ⟨now, hx⟩ | ⟨hnone, -⟩
  · obtain ⟨u, hu, hf⟩ | ⟨hnone, -⟩ := withUuid_eq hx
    · simp only [Prod.mk.injEq, Option.some.injEq] at hf
      have hid : b.id = u := by simpa using List.find?_some hf.1
      refine ⟨by rw [hu, hid], ?_⟩
      exact binding_later hr (List.mem_append_right _ List.mem_cons_self)
        (List.mem_of_find?_eq_some hf.1)
    · simp at hnone
  · simp at hnone

/-- Bindings that were read under one id agree on what never changes. -/
theorem binding_agree (hr : (broker D).Reach tr c) {id id' : String} {b b' : DeviceBinding}
    (hd : Did tr t ⟨.binding (.select id), some (some b)⟩)
    (hd' : Did tr u ⟨.binding (.select id'), some (some b')⟩) (hid : b.id = b'.id) :
    b.identity = b'.identity :=
  agree_of_nodup (k := Prod.fst) (fun _ => rfl) (bindings_nodup hr) (binding_of_read hr hd).2
    (binding_of_read hr hd').2 hid

/-! ## Citizens -/

/-- The citizen that a command read. -/
theorem mem_of_select_citizen {id : String} {k : Citizen}
    (hr : (broker D).Reach
      (l₁ ++ ⟨s, .act t ⟨.citizen (.select id), some (some k)⟩⟩ :: l₂) c) :
    k ∈ s.citizens ∧ Uuid.ofText id = some k.id := by
  obtain ⟨x, hstep⟩ := (citizens D).step_at ⟨.select id, some (some k)⟩ hr
  rcases hstep with ⟨now, hx⟩ | ⟨hnone, -⟩
  · obtain ⟨v, hv, hx⟩ | ⟨hnone, -⟩ := withUuid_eq hx
    · simp only [Prod.mk.injEq, Option.some.injEq] at hx
      have hid : k.id = v := by simpa using List.find?_some hx.1
      exact ⟨List.mem_of_find?_eq_some hx.1, by rw [hv, hid]⟩
    · simp at hnone
  · simp at hnone

/-! ## Relying parties and pairwise subjects -/

/-- What never changes of a relying party. -/
def RelyingParty.identity (rp : RelyingParty) : Uuid × String := (rp.id, rp.pairwiseSalt)

/-- What a command can do to the row of a relying party. -/
inductive RpChange : Act RpOp RpOp.Res → RelyingParty → RelyingParty → Prop
  /-- The relying party is suspended. -/
  | suspended {id n rp} (hid : Uuid.ofText id = some rp.id) (hn : n ≠ 0) :
      RpChange ⟨.suspend id, some n⟩ rp { rp with status := .suspended }

/-- The row that a command inserts. -/
def NewRp (a : Act RpOp RpOp.Res) (rp : RelyingParty) : Prop :=
  ∃ row now, a = ⟨.insert row, some ()⟩ ∧ rp = { row with createdAt := now }

/-- What a command does to the relying parties. Both their ids are keys. -/
theorem rps_writes {κ : Type} {key : RelyingParty → κ}
    (hkey : ∀ rp rp', key rp = key rp' → rp.id = rp'.id ∨ rp.clientId = rp'.clientId)
    (x : List RelyingParty) (a : Act RpOp RpOp.Res) (x' : List RelyingParty)
    (hs : (rps D).Step x a x') : Writes key (NewRp a) (RpChange a) x x' := by
  obtain ⟨o, r⟩ := a
  rcases hs with ⟨now, hx⟩ | ⟨-, rfl⟩
  swap
  · exact .read _
  cases o with
  | selectByClientId clientId => cases hx; exact .read _
  | select id => obtain ⟨u, -, ⟨⟩⟩ | ⟨rfl, rfl⟩ := withUuid_eq hx <;> exact .read _
  | selectAmong ids => cases hx; exact .read _
  | insert row =>
    simp only [RpOp.exec] at hx
    split at hx
    · rename_i rows' hrows
      obtain ⟨hfree, rfl⟩ := Table.insert_eq_some.mp hrows
      cases hx
      exact .insert (fun rp hrp h => of_decide_eq_false (hfree rp hrp) (hkey _ _ h :))
        ⟨row, now, rfl, rfl⟩
    · cases hx
      exact .read _
  | suspend id =>
    obtain ⟨u, hu, ⟨⟩⟩ | ⟨rfl, rfl⟩ := withUuid_eq hx
    · refine .update _ _ fun rp hrp hid => .suspended ?_ (Table.count_ne_zero.mpr ⟨rp, hrp, hid⟩)
      rw [hu, ← of_decide_eq_true hid]
    · exact .read _

theorem RpChange.identity {a : Act RpOp RpOp.Res} {rp rp' : RelyingParty} (h : RpChange a rp rp') :
    rp'.identity = rp.identity := by
  cases h
  rfl

/-- The ids of the relying parties are different. -/
theorem rps_nodup (hr : (broker D).Reach tr c) : (c.store.rps.map (·.id)).Nodup :=
  (rps D).nodup (rps_writes fun _ _ h => .inl h) (fun _ _ _ h => congrArg Prod.fst h.identity) rfl hr

/-- A relying party as it was before any suspension: no command changes anything else of it. -/
def RelyingParty.registered (rp : RelyingParty) : RelyingParty := { rp with status := .active }

theorem RpChange.registered {a : Act RpOp RpOp.Res} {rp rp' : RelyingParty} (h : RpChange a rp rp') :
    rp'.registered = rp.registered := by
  cases h
  rfl

/-- The client ids of the relying parties are different. -/
theorem rps_nodup_clientId (hr : (broker D).Reach tr c) : (c.store.rps.map (·.clientId)).Nodup :=
  (rps D).nodup (rps_writes fun _ _ h => .inr h) (fun _ _ _ h => congrArg (·.clientId) h.registered)
    rfl hr

/-- A relying party that was there once is still there. -/
theorem rp_later (hr : (broker D).Reach tr c) {e : Step} (he : e ∈ tr) {rp : RelyingParty}
    (hrp : rp ∈ e.before.rps) : ∃ rp' ∈ c.store.rps, rp'.registered = rp.registered := by
  obtain ⟨rp', hrp', -, hsame⟩ := (rps D).row_later (rps_writes fun _ _ h => .inl h) RelyingParty.registered
    (fun _ _ _ h => ⟨congrArg Prod.fst h.identity, h.registered⟩) hr he hrp
  exact ⟨rp', hrp', hsame⟩

/-- The row that a command read by its id. -/
theorem mem_of_select_rp {id : String} {rp : RelyingParty}
    (hr : (broker D).Reach (l₁ ++ ⟨s, .act t ⟨.rp (.select id), some (some rp)⟩⟩ :: l₂) c) :
    rp ∈ s.rps ∧ Uuid.ofText id = some rp.id := by
  obtain ⟨x, hstep⟩ := (rps D).step_at ⟨.select id, some (some rp)⟩ hr
  rcases hstep with ⟨now, hx⟩ | ⟨hnone, -⟩
  · obtain ⟨u, hu, hf⟩ | ⟨hnone, -⟩ := withUuid_eq hx
    · simp only [Prod.mk.injEq, Option.some.injEq] at hf
      have hid : rp.id = u := by simpa using List.find?_some hf.1
      exact ⟨List.mem_of_find?_eq_some hf.1, by rw [hu, hid]⟩
    · simp at hnone
  · simp at hnone

/-- The row that a command read by its client id. -/
theorem mem_of_selectByClientId {clientId : String} {rp : RelyingParty}
    (hr : (broker D).Reach
      (l₁ ++ ⟨s, .act t ⟨.rp (.selectByClientId clientId), some (some rp)⟩⟩ :: l₂) c) :
    rp ∈ s.rps ∧ rp.clientId = clientId := by
  obtain ⟨x, hstep⟩ := (rps D).step_at ⟨.selectByClientId clientId, some (some rp)⟩ hr
  rcases hstep with ⟨now, hx⟩ | ⟨hnone, -⟩
  · simp only [RpOp.exec, Prod.mk.injEq, Option.some.injEq] at hx
    exact ⟨List.mem_of_find?_eq_some hx.1, by simpa using List.find?_some hx.1⟩
  · simp at hnone

/-- A relying party that was read was there. -/
theorem rp_was_there (hr : (broker D).Reach tr c) {rp : RelyingParty} (h : ReadsRp (own t tr) rp) :
    ∃ e ∈ tr, rp ∈ e.before.rps := by
  obtain ⟨clientId, hd⟩ | ⟨id, hd⟩ := h
  · obtain ⟨l₁, s, l₂, rfl⟩ := (mem_own.mp hd).split
    exact ⟨_, List.mem_append_right _ List.mem_cons_self, (mem_of_selectByClientId hr).1⟩
  · obtain ⟨l₁, s, l₂, rfl⟩ := (mem_own.mp hd).split
    exact ⟨_, List.mem_append_right _ List.mem_cons_self, (mem_of_select_rp hr).1⟩

/-- A relying party that was read is there. -/
theorem rp_of_read (hr : (broker D).Reach tr c) {rp : RelyingParty} (h : ReadsRp (own t tr) rp) :
    ∃ rp' ∈ c.store.rps, rp'.registered = rp.registered := by
  obtain ⟨e, he, hrp⟩ := rp_was_there hr h
  exact rp_later hr he hrp

/-- Rows of one client id that were read agree on all but the status. -/
theorem rp_agree (hr : (broker D).Reach tr c) {rp rp' : RelyingParty} (h : ReadsRp (own t tr) rp)
    (h' : ReadsRp (own u tr) rp') (hclient : rp.clientId = rp'.clientId) :
    rp.registered = rp'.registered :=
  agree_of_nodup (k := (·.clientId)) (fun _ => rfl) (rps_nodup_clientId hr) (rp_of_read hr h)
    (rp_of_read hr h') hclient

/-- The row that a command inserts. -/
def NewSubject (a : Act SubjectOp SubjectOp.Res) (row : PairwiseSubject) : Prop :=
  a = ⟨.insert row, some ()⟩

/-- What a command does to the pairwise subjects: their rows never change. -/
theorem subjects_writes (x : List PairwiseSubject) (a : Act SubjectOp SubjectOp.Res)
    (x' : List PairwiseSubject) (hs : (subjects D).Step x a x') :
    Writes (fun r => (r.citizenId, r.rpId)) (NewSubject a) (fun _ _ => False) x x' := by
  obtain ⟨o, r⟩ := a
  rcases hs with hx | ⟨-, rfl⟩
  swap
  · exact .read _
  cases o with
  | select citizenId rpId => cases hx; exact .read _
  | selectBySubject rpId subject => cases hx; exact .read _
  | insert row =>
    simp only [SubjectOp.exec] at hx
    split at hx
    · rename_i rows' hrows
      obtain ⟨hfree, rfl⟩ := Table.insert_eq_some.mp hrows
      cases hx
      refine .insert (fun r hr hkey => of_decide_eq_false (hfree r hr) (.inl ?_)) rfl
      simpa using hkey
    · cases hx
      exact .read _

/-- The pairwise subject of a citizen at a relying party. -/
def PairwiseFor (D : Deployment) (s : Store) (citizenId rpId : Uuid) (sub : String) : Prop :=
  ∃ rp ∈ s.rps, rp.id = rpId ∧ sub = D.deriveSubject rp.pairwiseSalt citizenId.text

/-- What is derived for a relying party that was read is the pairwise subject. -/
theorem pairwiseFor_of_read (hr : (broker D).Reach tr c) {rp : RelyingParty} (citizenId : Uuid)
    (h : ReadsRp (own t tr) rp) :
    PairwiseFor D c.store citizenId rp.id (D.deriveSubject rp.pairwiseSalt citizenId.text) := by
  obtain ⟨rp', hrp', hsame⟩ := rp_of_read hr h
  have hsalt : rp'.pairwiseSalt = rp.pairwiseSalt := congrArg (·.pairwiseSalt) hsame
  exact ⟨rp', hrp', congrArg (·.id) hsame, by rw [hsalt]⟩

/-- A pairwise subject stays one. -/
theorem PairwiseFor.later (hr : (broker D).Reach tr c) {e : Step} (he : e ∈ tr)
    {citizenId rpId : Uuid} {sub : String} (h : PairwiseFor D e.before citizenId rpId sub) :
    PairwiseFor D c.store citizenId rpId sub := by
  obtain ⟨rp, hrp, rfl, rfl⟩ := h
  obtain ⟨rp', hrp', hsame⟩ := rp_later hr he hrp
  have hsalt : rp'.pairwiseSalt = rp.pairwiseSalt := congrArg (·.pairwiseSalt) hsame
  exact ⟨rp', hrp', congrArg (·.id) hsame, by rw [hsalt]⟩

/-- Every stored subject is the pairwise one. -/
theorem pairwiseFor_of_stored (hr : (broker D).Reach tr c) {row : PairwiseSubject}
    (hrow : row ∈ c.store.subjects) :
    PairwiseFor D c.store row.citizenId row.rpId row.subject := by
  -- The row was inserted, and its subject derived before that.
  have hins : ∃ t, (t, ⟨.insert row, some ()⟩) ∈ (subjects D).acts tr := by
    refine ((subjects D).history hr).rows (P := fun h r => ∃ t, (t, ⟨.insert r, some ()⟩) ∈ h)
      subjects_writes ?_ ?_ ?_ row hrow
    · rintro t a h r rfl
      exact ⟨t, List.mem_cons_self⟩
    · rintro p h r ⟨t, ht⟩
      exact ⟨t, List.mem_cons_of_mem _ ht⟩
    · exact fun _ _ _ _ _ hc => hc.elim
  obtain ⟨t, ht⟩ := hins
  obtain ⟨l₁, s, l₂, rfl⟩ := ((subjects D).mem_acts.mp ht).split
  obtain ⟨q, -, ⟨rp, hrp, hid, hsub⟩, -⟩ := onPath hr
  obtain ⟨c₀, -, -, hr₀, hb, -⟩ := hr.entry
  have hfor := pairwiseFor_of_read hr₀ row.citizenId hrp
  rw [hb] at hfor
  rw [hid, hsub]
  exact hfor.later hr (List.mem_append_right _ List.mem_cons_self)

/-- What a call uses as a subject is the pairwise one. -/
theorem pairwiseFor_of_subjectOn (hr : (broker D).Reach tr c) {citizenId : Uuid}
    {rp : RelyingParty} {sub : String} (hrp : ReadsRp (own t tr) rp)
    (h : SubjectOn D (own t tr) citizenId rp sub) : PairwiseFor D c.store citizenId rp.id sub := by
  rcases h with ⟨row, hd, rfl⟩ | rfl
  · obtain ⟨l₁, s, l₂, rfl⟩ := (mem_own.mp hd).split
    obtain ⟨x, hstep⟩ := (subjects D).step_at ⟨.select citizenId rp.id, some (some row)⟩ hr
    obtain ⟨c₀, -, -, hr₀, hb, -⟩ := hr.entry
    rcases hstep with hx | ⟨hnone, -⟩
    · simp only [SubjectOp.exec, Prod.mk.injEq, Option.some.injEq] at hx
      have hkey := List.find?_some hx.1
      simp only [decide_eq_true_eq] at hkey
      have hmem : row ∈ c₀.store.subjects := by
        rw [hb]
        exact List.mem_of_find?_eq_some hx.1
      have hfor := pairwiseFor_of_stored hr₀ hmem
      rw [hkey.1, hkey.2, hb] at hfor
      exact hfor.later hr (List.mem_append_right _ List.mem_cons_self)
    · simp at hnone
  · exact pairwiseFor_of_read hr citizenId hrp

/-- The row that a command read by its subject. -/
theorem mem_of_selectBySubject {rpId : Uuid} {sub : String} {row : PairwiseSubject}
    (hr : (broker D).Reach
      (l₁ ++ ⟨s, .act t ⟨.subject (.selectBySubject rpId sub), some (some row)⟩⟩ :: l₂) c) :
    row ∈ s.subjects ∧ row.rpId = rpId ∧ row.subject = sub := by
  obtain ⟨x, hstep⟩ := (subjects D).step_at ⟨.selectBySubject rpId sub, some (some row)⟩ hr
  rcases hstep with hx | ⟨hnone, -⟩
  · simp only [SubjectOp.exec, Prod.mk.injEq, Option.some.injEq] at hx
    exact ⟨List.mem_of_find?_eq_some hx.1, by simpa using List.find?_some hx.1⟩
  · simp at hnone

/-- A subject that was resolved is the pairwise one of its citizen. -/
theorem pairwiseFor_of_resolved (hr : (broker D).Reach tr c) {rpId : Uuid} {sub : String}
    {row : PairwiseSubject} (hd : Did tr t ⟨.subject (.selectBySubject rpId sub), some (some row)⟩) :
    PairwiseFor D c.store row.citizenId rpId sub := by
  obtain ⟨l₁, s, l₂, rfl⟩ := hd.split
  obtain ⟨hrow, rfl, rfl⟩ := mem_of_selectBySubject hr
  obtain ⟨c₀, -, -, hr₀, hb, -⟩ := hr.entry
  rw [← show c₀.store = s from hb] at hrow
  have hfor := pairwiseFor_of_stored hr₀ hrow
  rw [hb] at hfor
  exact hfor.later hr (List.mem_append_right _ List.mem_cons_self)

/-- A pairwise subject at a relying party is that of one citizen, when the keyed hash has no
collisions. -/
theorem PairwiseFor.citizen_unique (hr : (broker D).Reach tr c)
    (hderive : ∀ salt, Function.Injective (D.deriveSubject salt)) {citizenId citizenId' rpId : Uuid}
    {sub : String} (h : PairwiseFor D c.store citizenId rpId sub)
    (h' : PairwiseFor D c.store citizenId' rpId sub) : citizenId = citizenId' := by
  obtain ⟨rp, hrp, hid, hsub⟩ := h
  obtain ⟨rp', hrp', hid', hsub'⟩ := h'
  have heq : rp = rp' := List.inj_on_of_nodup_map (rps_nodup hr) hrp hrp' (hid.trans hid'.symm)
  rw [← heq, hsub] at hsub'
  exact Uuid.text_injective (hderive _ hsub')

end SdidBridge
