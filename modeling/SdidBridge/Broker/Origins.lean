import SdidBridge.Broker.SingleMint

/-!
# What a transaction was started with

A transaction keeps what it was started with, so that the request that started it can be found from its
row (`startsOn_of_stored`). The two endpoints that start transactions check the relying party's policy,
each by itself: an authorization request that names no level asks for `AL2` without a comparison, which
is the one way in which a transaction exceeds the policy (`policy_enforced_iff`).
-/

namespace SdidBridge

open Concurrent Machine

variable {D : Deployment} {tr l₁ l₂ : Run} {c : State} {s : Store} {t u : ℕ}

theorem StartsOn.mono {q : Request} {h h' : Path} {authReqId : String} {rpId : Uuid} {flow : Flow}
    {scopes : List String} {al : AssuranceLevel} (hs : h <:+ h')
    (hstarts : StartsOn q h authReqId rpId flow scopes al) :
    StartsOn q h' authReqId rpId flow scopes al := by
  obtain ⟨hdrawn, rp, hrp, hrest⟩ := hstarts
  exact ⟨hs.subset hdrawn, rp, hrp.mono hs, hrest⟩

/-- Every stored transaction was inserted with what it still says. -/
theorem started_of_stored (hr : (broker D).Reach tr c) {T : AuthTransaction} (hT : T ∈ c.store.txns) :
    ∃ u, Did tr u ⟨.txn (.insert T.id T.authReqId T.citizenId T.rpId T.flow T.scopes T.requestedAl
      T.bindingMessage T.expiresAt), some ()⟩ := by
  have hins : ∃ u, (u, ⟨.insert T.id T.authReqId T.citizenId T.rpId T.flow T.scopes T.requestedAl
      T.bindingMessage T.expiresAt, some ()⟩) ∈ (txns D).acts tr := by
    refine ((txns D).history hr).rows (P := fun h T => ∃ u, (u, ⟨.insert T.id T.authReqId T.citizenId
      T.rpId T.flow T.scopes T.requestedAl T.bindingMessage T.expiresAt, some ()⟩) ∈ h)
      (txns_writes fun _ _ h => .inl h) ?_ ?_ ?_ T hT
    · rintro t a h T ⟨id, authReqId, citizenId, rpId, flow, scopes, al, message, expiresAt, now, rfl, rfl⟩
      exact ⟨t, List.mem_cons_self⟩
    · rintro p h T ⟨u, hu⟩
      exact ⟨u, List.mem_cons_of_mem _ hu⟩
    · rintro t a h T T' hc ⟨u, hu⟩
      -- None of the changes is to what was inserted.
      cases hc <;> exact ⟨u, List.mem_cons_of_mem _ hu⟩
  obtain ⟨u, hu⟩ := hins
  exact ⟨u, (txns D).mem_acts.mp hu⟩

/-- The request that started a stored transaction. -/
theorem startsOn_of_stored (hr : (broker D).Reach tr c) {T : AuthTransaction} (hT : T ∈ c.store.txns) :
    ∃ u q, Arrived tr u q ∧ StartsOn q (own u tr) T.authReqId T.rpId T.flow T.scopes T.requestedAl ∧
      Did tr u ⟨.txn (.insert T.id T.authReqId T.citizenId T.rpId T.flow T.scopes T.requestedAl
        T.bindingMessage T.expiresAt), some ()⟩ := by
  obtain ⟨u, hd⟩ := started_of_stored hr hT
  obtain ⟨l₁, s, l₂, rfl⟩ := hd.split
  obtain ⟨q, harrived, hstarts, -⟩ := onPath hr
  exact ⟨u, q, harrived.mono (older_subset _ _), StartsOn.mono own_suffix hstarts, hd⟩

/-! ## The relying party's policy -/

/-- What the policy of a relying party asks of a transaction that a call starts after the path `h`: the
level is at most the highest one, the scopes and the flow are among those allowed, and the call found the
relying party active. -/
structure WithinPolicy (h : Path) (rp : RelyingParty) (flow : Flow) (scopes : List String)
    (al : AssuranceLevel) : Prop where
  /-- The level. -/
  level : alMeets rp.maxAssurance al = true
  /-- The scopes. -/
  scopes : ∀ scope ∈ scopes, scope ∈ rp.allowedScopes
  /-- The flow. -/
  flow : flow ∈ rp.allowedFlows
  /-- The status. -/
  active : ReadsRp h { rp with status := .active }

/-- The request leaves the level out, where that is not compared with the relying party's highest. -/
def Request.leavesLevelOut : Request → Bool
  | .authorize query => query.acr_values.isNone
  | _ => false

/-- A transaction is within the policy of its relying party if and only if its request names a level, or
is no authorization request, or the relying party may ask for the default. -/
theorem policy_enforced_iff {id citizenId rpId : Uuid} {authReqId : String} {flow : Flow}
    {scopes : List String} {al : AssuranceLevel} {message : Option String} {expiresAt : Time}
    (hr : (broker D).Reach (l₁ ++ ⟨s, .act t ⟨.txn (.insert id authReqId citizenId rpId flow scopes al
      message expiresAt), some ()⟩⟩ :: l₂) c) :
    ∃ q, Arrived l₂ t q ∧ ∃ rp ∈ s.rps, rp.id = rpId ∧
      (WithinPolicy (own t l₂) rp flow scopes al ↔
        (q.leavesLevelOut = true → alMeets rp.maxAssurance .AL2 = true)) := by
  obtain ⟨q, harrived, ⟨-, rp₀, hread, hid, hactive, hflow, hscopes, hrequest⟩, -⟩ := onPath hr
  obtain ⟨c₀, -, -, hr₀, hb, -⟩ := hr.entry
  obtain ⟨rp, hrp, hsame⟩ := rp_of_read hr₀ hread
  rw [hb] at hrp
  -- The row that is stored now is the one that was read, whatever its status has become.
  have hread₀ : rp₀.registered = rp₀ := by rw [RelyingParty.registered, ← hactive]
  rw [hread₀] at hsame
  subst hsame
  have hpolicy : ∀ scope ∈ scopes, scope ∈ rp.allowedScopes := by
    intro scope hmem
    exact of_decide_eq_true (List.all_eq_true.mp hscopes scope hmem)
  refine ⟨q, harrived, rp, hrp, hid, ⟨fun hwithin hout => ?_, fun hlevel => ⟨?_, hpolicy, hflow, hread⟩⟩⟩
  · -- A request that leaves the level out asked for the default.
    cases q <;> simp only [Request.leavesLevelOut, Bool.false_eq_true, Option.isNone_iff_eq_none] at hout
    obtain ⟨-, -, -, ⟨-, rfl⟩ | ⟨hsome, -⟩⟩ := hrequest
    · exact hwithin.level
    · exact absurd hout hsome
  · cases q with
    | bcAuthorize creds body => exact hrequest.2.2
    | authorize query =>
      obtain ⟨-, -, -, ⟨hnone, rfl⟩ | ⟨-, hmeets⟩⟩ := hrequest
      · exact hlevel (by rw [Request.leavesLevelOut, hnone]; rfl)
      · exact hmeets
    | _ => exact hrequest.elim

/-- A relying party of both flows is registered with a highest level, is told a subject, and sends the
citizen to the authorization endpoint: calls 4 to 6. -/
def sampleCodeRequest (maxAssurance : AssuranceLevel) (acr : Option String) : Script :=
  .arrive (.registerRp (some "admin") {
    name := "Shop"
    allowedScopes := ["openid"]
    maxAssurance := maxAssurance
    allowedFlows := [.code, .ciba]
    redirectUris := ["https://shop/cb"] }) ::
  Script.go 4 [.uuid (sampleUuid 3), .text "aaaaaaaaaaaa", .text (sampleSecret 's'),
    .text (String.ofList (List.replicate 64 'b')), .unit, sampleRowId] ++
  .arrive (.provisionPairwise (some "admin") (sampleUuid 3).text "1199080012345678") ::
  Script.go 5 [.unit, .unit, .unit, .unit, sampleRowId] ++
  .arrive (.authorize {
    client_id := "rp_aaaaaaaaaaaa"
    redirect_uri := "https://shop/cb"
    scope := "openid"
    code_challenge := sampleSecret 'v'
    acr_values := acr
    login_hint := some (String.ofList (List.replicate 64 'b') ++ (sampleUuid 1).text) }) ::
  Script.go 6 [.unit, .unit, .text (sampleSecret 'r'), .unit, .uuid (sampleUuid 4), .unit, .unit, .unit,
    sampleRowId]

/-- The level of a transaction that an entry starts. -/
def startsAt (e : Step) : Option AssuranceLevel :=
  match e.event with
  | .act _ ⟨.txn (.insert _ _ _ _ _ _ al _ _), some _⟩ => some al
  | _ => none

theorem exists_of_startsAt {e : Step} {al : AssuranceLevel} (h : startsAt e = some al) :
    ∃ t id authReqId citizenId rpId flow scopes message expiresAt, e.event = .act t
      ⟨.txn (.insert id authReqId citizenId rpId flow scopes al message expiresAt), some ()⟩ := by
  unfold startsAt at h
  split at h
  · rename_i t id authReqId citizenId rpId flow scopes al' message expiresAt r he
    obtain rfl := Option.some.inj h
    exact ⟨t, id, authReqId, citizenId, rpId, flow, scopes, message, expiresAt, he⟩
  · simp at h

/-- A relying party that may ask for `AL1` at most starts a transaction of `AL2`. -/
theorem policy_exceeded_sampleCodeRequest : ∃ l₁ s t id authReqId citizenId rpId flow scopes al message
    expiresAt l₂ c, (broker sampleDeployment).Reach (l₁ ++ ⟨s, .act t ⟨.txn (.insert id authReqId citizenId
      rpId flow scopes al message expiresAt), some ()⟩⟩ :: l₂) c ∧
    ∀ rp ∈ s.rps, ¬ WithinPolicy (own t l₂) rp flow scopes al := by
  obtain ⟨tr, c, hr, hrun⟩ := (broker sampleDeployment).exists_of_play
    (sampleSession ++ sampleCodeRequest .AL1 none).reverse
    (p := fun run => run.1.any fun e => startsAt e == some .AL2 &&
      e.before.rps.all fun rp => rp.maxAssurance == .AL1) (by decide +kernel)
  simp only [List.any_eq_true, Bool.and_eq_true, beq_iff_eq, List.all_eq_true] at hrun
  obtain ⟨⟨s, ev⟩, he, hstarts, hmax⟩ := hrun
  obtain ⟨t, id, authReqId, citizenId, rpId, flow, scopes, message, expiresAt, rfl⟩ :=
    exists_of_startsAt hstarts
  obtain ⟨l₁, l₂, rfl⟩ := List.append_of_mem he
  refine ⟨l₁, s, t, id, authReqId, citizenId, rpId, flow, scopes, .AL2, message, expiresAt, l₂, c, hr, ?_⟩
  intro rp hrp hwithin
  have hlevel := hwithin.level
  rw [hmax rp hrp] at hlevel
  simp [alMeets, alRank] at hlevel

/-- A request that arrives names the level it asks for. -/
def namesLevel (e : Step) : Bool :=
  match e.event with
  | .arrive _ q => !q.leavesLevelOut
  | _ => true

/-- One that asks for `AL1` itself starts a transaction within its policy. -/
theorem policy_enforced_iff_sampleCodeRequest : ∃ l₁ s t id authReqId citizenId rpId flow scopes al message
    expiresAt l₂ c, (broker sampleDeployment).Reach (l₁ ++ ⟨s, .act t ⟨.txn (.insert id authReqId citizenId
      rpId flow scopes al message expiresAt), some ()⟩⟩ :: l₂) c ∧
    ∃ rp ∈ s.rps, rp.id = rpId ∧ WithinPolicy (own t l₂) rp flow scopes al := by
  obtain ⟨tr, c, hr, hrun⟩ := (broker sampleDeployment).exists_of_play
    (sampleSession ++ sampleCodeRequest .AL1 (some "AL1")).reverse
    (p := fun run => (run.1.any fun e => startsAt e == some .AL1) && run.1.all namesLevel) (by decide +kernel)
  simp only [List.any_eq_true, Bool.and_eq_true, beq_iff_eq, List.all_eq_true] at hrun
  obtain ⟨⟨⟨s, ev⟩, he, hstarts⟩, hnames⟩ := hrun
  obtain ⟨t, id, authReqId, citizenId, rpId, flow, scopes, message, expiresAt, rfl⟩ :=
    exists_of_startsAt hstarts
  obtain ⟨l₁, l₂, rfl⟩ := List.append_of_mem he
  obtain ⟨q, ⟨e', he', hev⟩, rp, hrp, hid, hiff⟩ := policy_enforced_iff hr
  refine ⟨l₁, s, t, id, authReqId, citizenId, rpId, flow, scopes, .AL1, message, expiresAt, l₂, c, hr,
    rp, hrp, hid, hiff.mpr fun hout => ?_⟩
  have hq := hnames e' (older_subset _ _ he')
  simp [namesLevel, hev, hout] at hq

end SdidBridge
