import SdidBridge.Broker.Footprint
import SdidBridge.Broker.Revocation

/-!
# Push addresses

The address of a binding is set by its own session, dropped with a revocation, and dropped when the
push service does not know it any more. Each of the three writers names the binding only. A
registration reads the binding as active and writes the address later; a wake-up reads the address,
asks the push service, and drops whatever address is stored by then.

A revoked binding has no address in every run in which no revocation falls between the two steps of a
registration, and a wake-up drops only the address that the push service refused in every run in which
no other address is registered between its read and its drop (`addresses_kept_clean`).
-/

namespace SdidBridge

open Concurrent Machine Prog

/-! ## The paths of the writers -/

/-- The call has read the active bindings of a citizen, and has read no such bindings since. -/
def LastReadOn (citizenId : Uuid) (rows : List DeviceBinding) (h : Path) : Prop :=
  ∃ h₁ h₂, h = h₁ ++ ⟨.binding (.selectActiveOf citizenId), some rows⟩ :: h₂ ∧
    ∀ citizenId' r, (⟨.binding (.selectActiveOf citizenId'), r⟩ : Cmd) ∉ h₁

/-- The wake-up has read the address of a binding, and the push service has just refused it. -/
def RefusedOn (h : Path) (id : String) (target : PushTarget) : Prop :=
  id = target.id.text ∧ ∃ now h' citizenId rows,
    h = ⟨.ambient .now, some now⟩ ::
      ⟨.service (.sendPush target.platform target.token), some .unregistered⟩ :: h' ∧
    LastReadOn citizenId rows h' ∧ ∃ b ∈ rows, b.target = some target

/-- What precedes a change of a push address. -/
def AddressOnPath (q : Request) (h : Path) : Op → Prop
  | .binding (.setPushToken id _ _ _) => ∃ b, ReadsBinding h id b ∧ b.status = .active
  | .binding (.clearPushToken id _) => q.wakes = true → ∃ target, RefusedOn h id target
  | _ => True

section Paths

variable {α β : Type} {D : Deployment} {q : Request} {h : Path}

/-- Nothing is said of the common commands here. -/
theorem Op.common_addressOnPath {o : Op} (ho : o.common = true) (h : Path) : AddressOnPath q h o := by
  unfold AddressOnPath
  split <;> simp_all [Op.common]

/-- A program of common commands, and what follows it. -/
theorem yields_common_bind {p : H α} {f : α → H β} {Q : β → Path → Prop} (hp : CommonOnly p)
    (hf : ∀ a h', Yields (AddressOnPath q) h' (f a) Q) : Yields (AddressOnPath q) h (p >>= f) Q := by
  rw [yields_bind]
  refine (Only.yields hp (J := fun _ => True) (fun h o _ ho => ?_) trivial).mono fun a h' _ => hf a h'
  exact ⟨Op.common_addressOnPath ho h, fun _ => trivial⟩

/-- The guard has read the binding of the session as active. -/
theorem yields_deviceSession {bearer : Option String} : Yields (AddressOnPath q) h (deviceSession bearer)
    fun session h' => ∃ b, ReadsBinding h' session.bindingId b ∧ b.status = .active := by
  simp only [deviceSession, yields_bind, yields_orThrow]
  intro token _
  rw [yields_await_recover]
  refine ⟨trivial, yields_refuse _ _ _, fun payload => ?_⟩
  simp only [yields_await, yields_throwIf, yields_pure, AddressOnPath, true_and]
  rintro citizenId _ bindingId _ row binding rfl hactive
  refine ⟨binding, List.mem_cons_self, ?_⟩
  by_contra hne
  exact hactive (.inl hne)

theorem yields_registerPushToken (bearer : Option String) (platform : PushPlatform) (address : String) :
    Yields (AddressOnPath q) [] (registerPushToken bearer platform address) fun _ _ => True := by
  simp only [registerPushToken, registerToken, yields_bind, yields_throwIf]
  refine yields_deviceSession.mono fun session h' hread _ => ?_
  obtain ⟨b, hb, hactive⟩ := hread
  simp only [yields_newDate, yields_await, AddressOnPath, true_and]
  exact fun now => ⟨⟨b, List.mem_cons_of_mem _ hb, hactive⟩, fun _ => trivial⟩

/-- Any other command leaves the last read what it is. -/
theorem LastReadOn.cons {citizenId : Uuid} {rows : List DeviceBinding} (hread : LastReadOn citizenId rows h)
    {a : Cmd} (ha : ∀ citizenId' r, (⟨.binding (.selectActiveOf citizenId'), r⟩ : Cmd) ≠ a) :
    LastReadOn citizenId rows (a :: h) := by
  obtain ⟨h₁, h₂, rfl, hno⟩ := hread
  refine ⟨a :: h₁, h₂, rfl, fun citizenId' r hmem => ?_⟩
  rcases List.mem_cons.mp hmem with heq | hmem
  · exact ha _ _ heq
  · exact hno _ _ hmem

/-- One delivery drops its address only after the push service has refused it. -/
theorem along_deliver {target : PushTarget} {citizenId : Uuid} {rows : List DeviceBinding}
    (htarget : ∃ b ∈ rows, b.target = some target) (hread : LastReadOn citizenId rows h) :
    Along (AddressOnPath q) (fun h' _ => LastReadOn citizenId rows h') h (deliver target) := by
  unfold deliver await
  rw [along_recover, along_perform_bind]
  refine ⟨trivial, hread.cons (by simp), fun outcome => ?_⟩
  rw [along_onlyIf]
  refine ⟨fun hout => ?_, fun _ => hread.cons (by simp)⟩
  subst hout
  unfold clearToken newDate await
  rw [along_perform_bind]
  refine ⟨trivial, (hread.cons (by simp)).cons (by simp), fun now => ?_⟩
  have hasked : LastReadOn citizenId rows (⟨.ambient .now, some now⟩ ::
      ⟨.service (.sendPush target.platform target.token), some .unregistered⟩ :: h) :=
    (hread.cons (by simp)).cons (by simp)
  refine (along_perform _ (Op.binding (.clearPushToken target.id.text now))).mpr
    ⟨fun _ => ⟨target, rfl, now, h, citizenId, rows, rfl, hread, htarget⟩, hasked.cons (by simp), fun _ => ?_⟩
  exact hasked.cons (by simp)

/-- A wake-up drops the addresses that the push service refuses. -/
theorem yields_wake (citizenId : Uuid) : Yields (AddressOnPath q) h (wake citizenId) fun _ _ => True := by
  simp only [wake, yields_bind, yields_pure]
  rw [yields_await_recover]
  refine ⟨trivial, trivial, fun rows => ?_⟩
  have hloop := @along_forEach _ _ _ _ _ (AddressOnPath q) deliver (rows.filterMap (·.target))
    (I := LastReadOn citizenId rows) (E := fun _ _ => True)
    (h := ⟨.binding (.selectActiveOf citizenId), some rows⟩ :: h) ?_ ⟨[], h, rfl, by simp⟩
  · refine hloop.mono (fun _ _ hΦ => hΦ) fun h' r _ => ?_
    cases r <;> trivial
  · intro target htarget h' hread
    obtain ⟨b, hb, hbt⟩ := List.mem_filterMap.mp htarget
    refine (along_deliver ⟨b, hb, hbt⟩ hread).mono (fun _ _ hΦ => hΦ) fun h' r hr => ?_
    cases r with
    | ok _ => exact hr
    | error _ => trivial

theorem yields_bcAuthorize (creds : Option Credentials) (body : BcAuthorizeRequest) :
    Yields (AddressOnPath q) [] (bcAuthorize D creds body) fun _ _ => True := by
  refine yields_common_bind (only_throwIf _ _) fun _ _ =>
    yields_common_bind (common_authenticateClient _ _) fun rp _ =>
    yields_common_bind (common_hit _ _ _) fun _ _ => yields_common_bind (only_throwIf _ _) fun _ _ =>
    yields_common_bind (only_throwIf _ _) fun _ _ => yields_common_bind (only_throwIf _ _) fun _ _ =>
    yields_common_bind (common_citizenForSubject _ _) fun _ _ =>
    yields_common_bind (only_orThrow _ _) fun citizenId _ => yields_common_bind (common_await rfl) fun _ _ =>
    yields_common_bind (only_throwIf _ _) fun _ _ => yields_common_bind (common_await rfl) fun _ _ =>
    yields_common_bind (common_await rfl) fun _ _ => yields_common_bind (common_await rfl) fun _ _ =>
    yields_common_bind (common_await rfl) fun _ h' => ?_
  rw [yields_bind]
  exact (yields_wake citizenId).mono fun _ _ _ =>
    yields_common_bind (common_auditAppend _) fun _ _ => trivial

theorem yields_authorize (query : AuthorizeRequest) :
    Yields (AddressOnPath q) [] (authorize D query) fun _ _ => True := by
  refine yields_common_bind (only_orThrow _ _) fun _ _ => yields_common_bind (common_await rfl) fun _ _ =>
    yields_common_bind (only_orThrow _ _) fun rp _ => yields_common_bind (only_throwIf _ _) fun _ _ =>
    yields_common_bind (only_throwIf _ _) fun _ _ => yields_common_bind (only_throwIf _ _) fun _ _ =>
    yields_common_bind (only_throwIf _ _) fun _ _ => yields_common_bind (common_requestedLevel _ _) fun _ _ =>
    yields_common_bind (common_citizenForSubject _ _) fun resolved h' => ?_
  cases resolved with
  | none => trivial
  | some citizenId =>
    refine yields_common_bind (common_await rfl) fun _ _ => yields_common_bind (common_await rfl) fun _ _ =>
      yields_common_bind (common_await rfl) fun _ _ => yields_common_bind (common_await rfl) fun _ _ =>
      yields_common_bind (common_await rfl) fun _ h'' => ?_
    rw [yields_bind]
    exact (yields_wake citizenId).mono fun _ _ _ =>
      yields_common_bind (common_auditAppend _) fun _ _ => trivial

/-- What precedes a change of a push address, on the paths of every request. -/
theorem along_addresses (D : Deployment) (q : Request) :
    Along (AddressOnPath q) (fun _ _ => True) [] ((broker D).handler q) := by
  have hyields : ∀ {α : Type} {p : H α} {f : α → Reply}, Yields (AddressOnPath q) [] p (fun _ _ => True) →
      Along (AddressOnPath q) (fun _ _ => True) [] (p.reply f) := fun hp =>
    Along.mono hp.reply (fun _ _ hΦ => hΦ) fun _ _ _ => trivial
  by_cases hq : q.wakes = true ∨ ∃ bearer platform address, q = .registerPushToken bearer platform address
  · rcases hq with hq | ⟨bearer, platform, address, rfl⟩
    · cases q with
      | bcAuthorize creds body => exact hyields (yields_bcAuthorize creds body)
      | authorize query => exact hyields (yields_authorize query)
      | _ => simp [Request.wakes] at hq
    · exact hyields (yields_registerPushToken bearer platform address)
  · -- Any other request does not set an address, and drops one only because its citizen says so.
    refine (footprint D q).along (J := fun _ => True) (fun h o _ ho => ⟨?_, fun _ => trivial⟩) trivial
    unfold AddressOnPath
    split
    · obtain ⟨bearer, rfl⟩ := ho
      exact absurd (.inr ⟨bearer, _, _, rfl⟩) hq
    · exact fun hw => absurd (.inl hw) hq
    · trivial

end Paths

variable {D : Deployment} {tr l₁ l₂ : Run} {c : State} {s s' : Store} {u : ℕ}

/-! ## Revoked bindings -/

/-- No revoked binding has a push address. -/
def NoRevokedAddress (s : Store) : Prop :=
  ∀ b ∈ s.bindings, b.status = .revoked → b.pushPlatform = none ∧ b.pushToken = none

/-- No binding is revoked between the read of it by the session guard and the address that the same
call sets. -/
def RegistersUninterrupted (tr : Run) : Prop :=
  ∀ l₁ s u id platform address now r l₂,
    tr = l₁ ++ ⟨s, .act u ⟨.binding (.setPushToken id platform address now), r⟩⟩ :: l₂ →
    ∀ m₁ s₀ b m₂, l₂ = m₁ ++ ⟨s₀, .act u ⟨.binding (.select id), some (some b)⟩⟩ :: m₂ →
      ∀ e ∈ m₁, revokesBinding b e = false

/-- What precedes a change of a push address in a run. -/
theorem addressOnPath {a : Cmd} (hr : (broker D).Reach (l₁ ++ ⟨s, .act u a⟩ :: l₂) c) :
    ∃ q, Arrived l₂ u q ∧ AddressOnPath q (own u l₂) a.op :=
  hr.act_along (Ψ := fun _ _ _ => True) fun q => along_addresses D q

/-- A binding that gets an address is active, if it was not revoked since its session was accepted. -/
theorem addressed_while_active {id address : String} {platform : PushPlatform} {now : Time}
    {r : Option Unit} (hr : (broker D).Reach
      (l₁ ++ ⟨s, .act u ⟨.binding (.setPushToken id platform address now), r⟩⟩ :: l₂) c)
    (hno : RegistersUninterrupted
      (l₁ ++ ⟨s, .act u ⟨.binding (.setPushToken id platform address now), r⟩⟩ :: l₂)) {b : DeviceBinding}
    (hb : b ∈ s.bindings) (hid : Uuid.ofText id = some b.id) : b.status = .active := by
  obtain ⟨q, -, b₀, hread, hactive⟩ := addressOnPath hr
  obtain ⟨c₀, -, -, hr₀, hbefore, -⟩ := hr.entry
  have hid₀ : Uuid.ofText id = some b₀.id := (binding_of_read hr₀ (mem_own.mp hread)).1
  obtain ⟨m₁, s₀, m₂, rfl⟩ := (mem_own.mp hread).split
  have hkept := hno l₁ s u id platform address now r _ rfl m₁ s₀ b₀ m₂ rfl
  obtain ⟨b₁, hb₁, hident, hs⟩ := storedActive_since_read hr₀ hactive hkept
  rw [← show c₀.store = s from hbefore] at hb
  -- The row that is active and the row that is written have the same id.
  have hsame : b₁.id = b.id := by
    have hb₁₀ : b₁.id = b₀.id := congrArg Prod.fst hident
    rw [hid, Option.some.injEq] at hid₀
    rw [hb₁₀, hid₀]
  rw [← List.inj_on_of_nodup_map (bindings_nodup hr₀) hb₁ hb hsame]
  exact hs

/-- One entry of a run keeps revoked bindings without an address. -/
theorem noRevokedAddress_step (hr : (broker D).Reach tr c) (hno : RegistersUninterrupted tr) {e : Step}
    (he : e ∈ tr) (hl : (broker D).Leads e s') (h : NoRevokedAddress e.before) : NoRevokedAddress s' := by
  intro b' hb' hrevoked
  rcases (bindings D).row_origin bindings_rewrites hl hb' with ⟨t, a, -, hnew⟩ | ⟨b, hb, rfl | ⟨t, a, hev, hc⟩⟩
  · obtain ⟨id, citizenId, jwk, attestation, al, label, now, -, rfl⟩ := hnew
    exact ⟨rfl, rfl⟩
  · exact h b' hb hrevoked
  · cases hc with
    | activated _ => simp at hrevoked
    | revoked _ => exact ⟨rfl, rfl⟩
    | swept _ _ => exact ⟨rfl, rfl⟩
    | reasserted _ hs => simp [hs] at hrevoked
    | used _ => exact h b hb hrevoked
    | unaddressed _ => exact ⟨rfl, rfl⟩
    | addressed hid =>
      -- The address was set on an active binding.
      obtain ⟨s₀, ev⟩ := e
      simp only at hev
      subst hev
      obtain ⟨k₁, k₂, rfl⟩ := List.append_of_mem he
      have hactive : b.status = .active := addressed_while_active hr hno hb hid
      simp only [hactive] at hrevoked
      cases hrevoked

/-! ## Refused addresses -/

/-- The entry registers an address for a binding other than the one that was read. -/
def registersOther (target : PushTarget) (e : Step) : Bool :=
  match e.event with
  | .act _ ⟨.binding (.setPushToken id platform address _), some _⟩ =>
    Uuid.ofText id == some target.id && (platform != target.platform || address != target.token)
  | _ => false

/-- No other address is registered for a binding between the read of its address by a wake-up and the
drop by the same call. -/
def DropsUninterrupted (tr : Run) : Prop :=
  ∀ l₁ s u id now r l₂, tr = l₁ ++ ⟨s, .act u ⟨.binding (.clearPushToken id now), r⟩⟩ :: l₂ →
    ∀ m₁ s₀ citizenId rows m₂,
      l₂ = m₁ ++ ⟨s₀, .act u ⟨.binding (.selectActiveOf citizenId), some rows⟩⟩ :: m₂ →
      (∀ citizenId' r', ¬ Did m₁ u ⟨.binding (.selectActiveOf citizenId'), r'⟩) →
      ∀ b ∈ rows, ∀ target, b.target = some target → id = target.id.text →
        ∀ e ∈ m₁, registersOther target e = false

/-- Right after the push service refused an address, the drop of the same call finds that address stored,
or none. -/
def DropsRefused (tr : Run) : Prop :=
  ∀ l₁ s u id now r t platform address h l₂,
    tr = l₁ ++ ⟨s, .act u ⟨.binding (.clearPushToken id now), r⟩⟩ :: l₂ →
    own u l₂ = ⟨.ambient .now, some t⟩ ::
      ⟨.service (.sendPush platform address), some .unregistered⟩ :: h →
    ∀ b ∈ s.bindings, Uuid.ofText id = some b.id →
      b.pushToken = none ∨ b.pushPlatform = some platform ∧ b.pushToken = some address

/-- The binding of a target has no address but the target's. -/
def KeepsTarget (target : PushTarget) (s : Store) : Prop :=
  ∀ b ∈ s.bindings, b.id = target.id →
    b.pushToken = none ∨ b.pushPlatform = some target.platform ∧ b.pushToken = some target.token

theorem target_eq_some {b : DeviceBinding} {target : PushTarget} (h : b.target = some target) :
    b.id = target.id ∧ b.pushPlatform = some target.platform ∧ b.pushToken = some target.token := by
  unfold DeviceBinding.target at h
  split at h
  · rename_i platform address hplatform haddress
    split_ifs at h
    simp only [Option.some.injEq] at h
    subst h
    exact ⟨rfl, hplatform, haddress⟩
  · simp at h

/-- An entry that registers no other address keeps the one that was read, or drops it. -/
theorem keepsTarget_step {target : PushTarget} {e : Step} (hl : (broker D).Leads e s')
    (he : registersOther target e = false) (h : KeepsTarget target e.before) : KeepsTarget target s' := by
  intro b' hb' hid'
  rcases (bindings D).row_origin bindings_rewrites hl hb' with ⟨t, a, -, hnew⟩ | ⟨b, hb, rfl | ⟨t, a, hev, hc⟩⟩
  · obtain ⟨id, citizenId, jwk, attestation, al, label, now, -, rfl⟩ := hnew
    exact .inl rfl
  · exact h b' hb hid'
  · cases hc with
    | activated _ => exact h b hb hid'
    | revoked _ => exact .inl rfl
    | swept _ _ => exact .inl rfl
    | reasserted _ _ => exact h b hb hid'
    | used _ => exact h b hb hid'
    | unaddressed _ => exact .inl rfl
    | @addressed id platform address now _ hid =>
      simp only at hid'
      rw [hid'] at hid
      simp only [registersOther, hev, bindings, part, hid, beq_self_eq_true, Bool.true_and,
        Bool.or_eq_false_iff, bne_eq_false_iff_eq] at he
      obtain ⟨rfl, rfl⟩ := he
      exact .inr ⟨rfl, rfl⟩

/-- The bindings that a command read are there. -/
theorem mem_of_selectActiveOf {citizenId : Uuid} {rows : List DeviceBinding}
    (hr : (broker D).Reach
      (l₁ ++ ⟨s, .act u ⟨.binding (.selectActiveOf citizenId), some rows⟩⟩ :: l₂) c) {b : DeviceBinding}
    (hb : b ∈ rows) : b ∈ s.bindings := by
  obtain ⟨x, hstep⟩ := (bindings D).step_at ⟨.selectActiveOf citizenId, some rows⟩ hr
  rcases hstep with ⟨now, hx⟩ | ⟨hnone, -⟩
  · simp only [BindingOp.exec, Prod.mk.injEq, Option.some.injEq] at hx
    rw [← hx.1] at hb
    exact List.mem_of_mem_filter hb
  · simp at hnone

/-- A drop finds the address that its wake-up read, if no other one was registered since. -/
theorem dropsRefused (hr : (broker D).Reach tr c) (hno : DropsUninterrupted tr) : DropsRefused tr := by
  rintro l₁ s u id now r t platform address h l₂ rfl hown b hb hid
  -- The call is a wake-up, because it has asked a push service.
  obtain ⟨q, harrived, hpath⟩ := addressOnPath hr
  have hwakes : q.wakes = true := by
    have hsent : Did l₂ u ⟨.service (.sendPush platform address), some .unregistered⟩ :=
      mem_own.mp (by rw [hown]; simp)
    obtain ⟨k₁, s₁, k₂, rfl⟩ := hsent.split
    obtain ⟨c₀, -, -, hr₀, -, -⟩ := hr.entry
    obtain ⟨q', harrived', hissues⟩ := issues_of_act hr₀
    rw [hr₀.arrived_unique harrived (harrived'.mono (older_subset _ _))]
    exact hissues
  obtain ⟨target, rfl, now', h', citizenId, rows, hpath', ⟨h₁, h₂, rfl, hlast⟩, b₀, hb₀, htarget⟩ := hpath hwakes
  rw [hown] at hpath'
  simp only [List.cons.injEq, Act.mk.injEq, Op.service.injEq, ServiceOp.sendPush.injEq] at hpath'
  obtain ⟨-, ⟨⟨rfl, rfl⟩, -⟩, rfl⟩ := hpath'
  -- Where the call read the address.
  rw [← List.cons_append, ← List.cons_append] at hown
  obtain ⟨m₁, s₀, m₂, rfl, hm₁, -⟩ := exists_of_own_eq hown
  have hlast' : ∀ citizenId' r', ¬ Did m₁ u ⟨.binding (.selectActiveOf citizenId'), r'⟩ := by
    intro citizenId' r' hd
    have hmem := mem_own.mpr hd
    rw [hm₁] at hmem
    simp only [List.mem_cons, Act.mk.injEq, reduceCtorEq, false_and, false_or] at hmem
    exact hlast _ _ hmem
  have hquiet := hno l₁ s u _ now r _ rfl m₁ s₀ citizenId rows m₂ rfl hlast' b₀ hb₀ target htarget rfl
  obtain ⟨c₀, -, -, hr₀, hbefore, -⟩ := hr.entry
  -- From there on the binding has that address or none.
  have hkeeps : KeepsTarget target c₀.store := by
    refine hr₀.since (P := KeepsTarget target) ?_ fun e he s' hl h => keepsTarget_step hl (hquiet e he) h
    intro s' hl
    refine keepsTarget_step hl rfl ?_
    obtain ⟨c₁, -, -, hr₁, hbefore₁, -⟩ := hr₀.entry
    have hb₀' : b₀ ∈ s₀.bindings := mem_of_selectActiveOf hr₀ hb₀
    obtain ⟨hid₀, hplatform, haddress⟩ := target_eq_some htarget
    intro b₁ hb₁ hid₁
    have hn := bindings_nodup hr₁
    rw [hbefore₁] at hn
    rw [List.inj_on_of_nodup_map hn hb₁ hb₀' (hid₁.trans hid₀.symm)]
    exact .inr ⟨hplatform, haddress⟩
  rw [← show c₀.store = s from hbefore] at hb
  refine hkeeps b hb ?_
  rw [Uuid.ofText_text, Option.some.injEq] at hid
  exact hid.symm

/-- In every run in which no binding is revoked while its session registers an address, and no other
address is registered while a wake-up asks about the one it read, no revoked binding has a push address,
and the push service's refusal of an address drops no other one. -/
theorem addresses_kept_clean (hr : (broker D).Reach tr c) (hregisters : RegistersUninterrupted tr)
    (hdrops : DropsUninterrupted tr) : NoRevokedAddress c.store ∧ DropsRefused tr := by
  refine ⟨?_, dropsRefused hr hdrops⟩
  refine hr.invariant (P := NoRevokedAddress) ?_ fun e he s' hl h => noRevokedAddress_step hr hregisters he hl h
  intro b hb
  simp [broker, Store.empty] at hb

/-! ## Runs -/

/-- Call `t` registers an address for the binding 2, up to its update. -/
def sampleRegistration (t : ℕ) (address : String) : Script :=
  .arrive (.registerPushToken (some "session") .fcm address) :: Script.go t [.unit, .unit, .unit]

/-- Call `t` starts another request of the relying party and wakes the binding 2, whose address the push
service refuses. -/
def sampleRefusal (t : ℕ) : Script :=
  .arrive (.bcAuthorize (some ⟨"rp_aaaaaaaaaaaa", sampleSecret 's'⟩) {
    scope := "openid"
    login_hint := String.ofList (List.replicate 64 'b') ++ (sampleUuid 1).text }) ::
  Script.go t [.unit, .unit, .unit, .unit, .text (sampleSecret 'q'), .uuid (sampleUuid 5), .unit, .unit,
    .unit, .push .unregistered]

/-- Call `t` revokes the binding 2 by itself. -/
def sampleLoss (t : ℕ) : Script :=
  .arrive (.revokeBinding (some "session") (sampleUuid 2).text none) ::
  Script.go t [.unit, .unit, .unit, .unit, .unit, sampleRowId]

/-- The entry sets a push address. -/
def setsAddress (e : Step) : Bool :=
  match e.event with
  | .act _ ⟨.binding (.setPushToken _ _ _ _), _⟩ => true
  | _ => false

/-- The call whose entry drops a push address. -/
def dropsAddress (e : Step) : Option ℕ :=
  match e.event with
  | .act u ⟨.binding (.clearPushToken _ _), _⟩ => some u
  | _ => none

/-- The entry is a read of the active bindings by call `u`. -/
def readsActive (u : ℕ) (e : Step) : Bool :=
  match e.event with
  | .act u' ⟨.binding (.selectActiveOf _), _⟩ => u' == u
  | _ => false

/-- Every address of the run is set before the first revocation, and none between the read and the drop
of a wake-up. -/
def inOrder : Run → Bool
  | [] => true
  | e :: l => (!setsAddress e || l.all revokesNone) &&
      (dropsAddress e).all (fun u => (l.takeWhile fun e' => !readsActive u e').all fun e' => !setsAddress e') &&
      inOrder l

theorem inOrder_append {l₁ l₂ : Run} (h : inOrder (l₁ ++ l₂) = true) : inOrder l₂ = true := by
  induction l₁ with
  | nil => exact h
  | cons e l ih =>
    simp only [List.cons_append, inOrder, Bool.and_eq_true] at h
    exact ih h.2

theorem registersUninterrupted_of_inOrder (h : inOrder tr = true) : RegistersUninterrupted tr := by
  rintro l₁ s u id platform address now r l₂ rfl m₁ s₀ b m₂ rfl e he
  have hin := inOrder_append h
  simp only [inOrder, setsAddress, Bool.not_true, Bool.false_or, Bool.and_eq_true, List.all_eq_true] at hin
  exact not_revokes_of_none (hin.1.1 e (List.mem_append_left _ he)) b

theorem dropsUninterrupted_of_inOrder (h : inOrder tr = true) : DropsUninterrupted tr := by
  rintro l₁ s u id now r l₂ rfl m₁ s₀ citizenId rows m₂ rfl hlast b hb target ht hid e he
  have hin := inOrder_append h
  simp only [inOrder, dropsAddress, Option.all_some, Bool.and_eq_true, List.all_eq_true] at hin
  -- Nothing up to the entry is a read of the call.
  have hbefore : e ∈ (m₁ ++ ⟨s₀, .act u ⟨.binding (.selectActiveOf citizenId), some rows⟩⟩ :: m₂).takeWhile
      fun e' => !readsActive u e' := by
    have hall : ∀ e' ∈ m₁, (!readsActive u e') = true := by
      intro e' he'
      rw [Bool.not_eq_true', Bool.eq_false_iff]
      intro hreads
      unfold readsActive at hreads
      split at hreads
      · rename_i u' citizenId' r' hev
        rw [beq_iff_eq] at hreads
        subst hreads
        exact hlast citizenId' r' ⟨e', he', hev⟩
      · simp at hreads
    rw [List.takeWhile_append_of_pos hall]
    exact List.mem_append_left _ he
  have hsets := hin.1.2 e hbefore
  unfold setsAddress at hsets
  unfold registersOther
  split at hsets
  · simp at hsets
  · rename_i hne
    split
    · rename_i hev
      exact absurd hev (hne _ _ _ _ _ _)
    · rfl

/-- The address of the run is refused and dropped, a new one is registered, and the binding is revoked. -/
theorem addresses_kept_clean_sampleRefusal : ∃ tr c, (broker sampleDeployment).Reach tr c ∧
    (∃ b ∈ c.store.bindings, b.status = .revoked) ∧ NoRevokedAddress c.store ∧ DropsRefused tr := by
  obtain ⟨tr, c, hr, hrun⟩ := (broker sampleDeployment).exists_of_play
    (sampleSession ++ sampleRequest ++ sampleRegistration 7 "old" ++ Script.go 7 [.unit] ++ sampleRefusal 8 ++
      Script.go 8 [.unit, .unit, sampleRowId] ++ sampleRegistration 9 "new" ++ Script.go 9 [.unit] ++
      sampleLoss 10).reverse
    (p := fun run => inOrder run.1 && run.2.store.bindings.any fun b => b.status == .revoked)
    (by decide +kernel)
  simp only [Bool.and_eq_true, List.any_eq_true, beq_iff_eq] at hrun
  obtain ⟨horder, b, hb, hs⟩ := hrun
  exact ⟨tr, c, hr, ⟨b, hb, hs⟩, addresses_kept_clean hr (registersUninterrupted_of_inOrder horder)
    (dropsUninterrupted_of_inOrder horder)⟩

/-- The newest entry drops an address right after the push service refused another one. -/
def dropsOther : Run → Bool
  | [] => false
  | e :: l =>
    match e.event with
    | .act u ⟨.binding (.clearPushToken id _), _⟩ =>
      match own u l with
      | ⟨.ambient .now, some _⟩ :: ⟨.service (.sendPush _ address), some .unregistered⟩ :: _ =>
        e.before.bindings.any fun b => Uuid.ofText id == some b.id && b.pushToken.any (· != address)
      | _ => false
    | _ => false

theorem not_dropsRefused_of_dropsOther (h : dropsOther tr = true) : ¬ DropsRefused tr := by
  intro hrefused
  cases tr with
  | nil => simp [dropsOther] at h
  | cons e l =>
    obtain ⟨s, ev⟩ := e
    simp only [dropsOther] at h
    split at h
    · rename_i u id now r
      split at h
      · rename_i t platform address h' hown
        simp only [List.any_eq_true, Bool.and_eq_true, beq_iff_eq, Option.any_eq_true, bne_iff_ne, ne_eq] at h
        obtain ⟨b, hb, hid, other, hother, hne⟩ := h
        have hkept := hrefused [] s u id now r t platform address h' l rfl hown b hb hid
        rw [hother] at hkept
        simp [hne] at hkept
      · simp at h
    · simp at h

/-- A binding that is revoked while its session registers an address has that address afterwards; and an
address that is registered while a wake-up asks about the one before it is dropped in its place. -/
theorem addresses_mixed_up_sampleRefusal :
    (∃ tr c, (broker sampleDeployment).Reach tr c ∧ ∃ b ∈ c.store.bindings, b.status = .revoked ∧
      b.pushToken = some "old") ∧
    ∃ tr c, (broker sampleDeployment).Reach tr c ∧ ¬ DropsRefused tr := by
  constructor
  · obtain ⟨tr, c, hr, hrun⟩ := (broker sampleDeployment).exists_of_play
      (sampleSession ++ sampleRegistration 4 "old" ++ sampleLoss 5 ++ Script.go 4 [.unit]).reverse
      (p := fun run => run.2.store.bindings.any fun b => b.status == .revoked && b.pushToken == some "old")
      (by decide +kernel)
    simp only [List.any_eq_true, Bool.and_eq_true, beq_iff_eq] at hrun
    exact ⟨tr, c, hr, hrun⟩
  · obtain ⟨tr, c, hr, hrun⟩ := (broker sampleDeployment).exists_of_play
      (sampleSession ++ sampleRequest ++ sampleRegistration 7 "old" ++ Script.go 7 [.unit] ++ sampleRefusal 8 ++
        sampleRegistration 9 "new" ++ Script.go 9 [.unit] ++ Script.go 8 [.unit, .unit]).reverse
      (p := fun run => dropsOther run.1) (by decide +kernel)
    exact ⟨tr, c, hr, not_dropsRefused_of_dropsOther hrun⟩

end SdidBridge
