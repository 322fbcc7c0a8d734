import SdidBridge.Broker.Denylist

/-!
# What user info discloses

An answer of user info rests on five things that the call has read: the token, the denylist, the row of the
relying party, the pairwise subject, and the consents. What each of them was when it was read is put together
here (`minimal_disclosure`).

The consent that is asked for is any live one of the citizen and the relying party that covers the scopes of
the token. Revoking the consent that was recorded with the token shuts the door therefore only where no other
live consent covers the scopes (`door_shut_of_revoked`); two approvals leave two consents
(`door_open_sampleTwice`).
-/

namespace SdidBridge

open Concurrent Machine

variable {D : Deployment} {tr l₁ l₂ : Run} {c : State} {s s' : Store} {t u : ℕ}

/-! ## The answer -/

/-- The object that `userinfo` returns, without the members that are undefined. -/
def UserInfo.claims (info : UserInfo) : List (String × String) :=
  [("sub", some info.sub), ("acr", info.acr.map (·.text)), ("name", info.attributes.name),
    ("dateOfBirth", info.attributes.dateOfBirth), ("address", info.attributes.address)].filterMap
    fun (k, v) => v.map (k, ·)

/-- The attributes are within the scopes. -/
structure AttributeSet.Within (a : AttributeSet) (scopes : List String) : Prop where
  /-- A name is released for the profile only. -/
  name : a.name ≠ Option.none → "profile" ∈ scopes
  /-- So is a date of birth. -/
  dateOfBirth : a.dateOfBirth ≠ Option.none → "profile" ∈ scopes
  /-- An address is released for the address only. -/
  address : a.address ≠ Option.none → "address" ∈ scopes

theorem AttributeSet.within_within (a : AttributeSet) (scopes : List String) :
    (a.within scopes).Within scopes := by
  constructor <;> unfold AttributeSet.within <;> simp +contextual

theorem AttributeSet.none_within (scopes : List String) : AttributeSet.none.Within scopes := by
  constructor <;> simp [AttributeSet.none]

/-! ## What an answer has read -/

section Paths

variable {h : Path}

/-- Whatever SDID answers, the attributes are within the scopes. -/
theorem yields_releasedAttributes {citizen : Citizen} {scopes : List String} :
    Yields (fun _ _ => True) h (releasedAttributes citizen scopes) fun a h' => a.Within scopes ∧ h <:+ h' := by
  unfold releasedAttributes
  split
  · split_ifs
    · rw [yields_bind, yields_await_recover]
      refine ⟨trivial, yields_refuse _ _ _, fun answer => ?_⟩
      cases answer with
      | ok attrs => exact ⟨attrs.within_within scopes, List.suffix_cons _ _⟩
      | unknownIdentity => exact ⟨AttributeSet.none_within scopes, List.suffix_cons _ _⟩
      | unavailable => exact yields_refuse _ _ _
    · exact ⟨AttributeSet.none_within scopes, List.suffix_rfl⟩
  · exact ⟨AttributeSet.none_within scopes, List.suffix_rfl⟩

/-- What user info has read when it answers. -/
structure DisclosesOn (h : Path) (token : String) (j : SignedJwt) (rp : RelyingParty) (citizenId : Uuid)
    (info : UserInfo) : Prop where
  /-- The token was verified. -/
  verified : (⟨.jwt (.verify token none), some j⟩ : Cmd) ∈ h
  /-- It is an access token. -/
  use : j.claims.token_use = some "access"
  /-- It was not on the denylist. -/
  live : (⟨.flag (.get ("revoked:" ++ j.jti)), some false⟩ : Cmd) ∈ h
  /-- The relying party is the token's client. -/
  client : ∃ clientId, j.claims.client_id = some clientId ∧
    (⟨.rp (.selectByClientId clientId), some (some rp)⟩ : Cmd) ∈ h
  /-- The subject is the token's. -/
  sub : j.claims.sub = some info.sub
  /-- The citizen is the one of the subject. -/
  citizen : ∃ row, (⟨.subject (.selectBySubject rp.id info.sub), some (some row)⟩ : Cmd) ∈ h ∧
    row.citizenId = citizenId
  /-- A live consent of the citizen covers the scopes. -/
  covered : ∃ citizen grants g, (⟨.citizen (.select citizenId.text), some (some citizen)⟩ : Cmd) ∈ h ∧
    (⟨.consent (.selectLive citizen.id rp.id), some grants⟩ : Cmd) ∈ h ∧ g ∈ grants ∧
    ∀ w ∈ splitScopes (j.claims.scope.getD ""), w ∈ g.scopes
  /-- The attributes are within the scopes. -/
  attributes : info.attributes.Within (splitScopes (j.claims.scope.getD ""))

theorem yields_userinfo_discloses {bearer : Option String} :
    Yields (fun _ _ => True) [] (userinfo bearer) fun info h' =>
      ∃ token j rp citizenId, bearer = some token ∧ DisclosesOn h' token j rp citizenId info := by
  simp only [userinfo, yields_bind, yields_orThrow, yields_throwIf, yields_await, loadByClientId,
    citizenForSubject, yields_pure, true_and]
  intro token htoken
  rw [yields_await_recover]
  refine ⟨trivial, yields_throwing _, ?_⟩
  intro j huse revoked hrevoked clientId hclient sub hsub _ rp rfl found citizenId hcitizen _ citizen rfl
    grants hcovered
  obtain ⟨row, rfl, rfl⟩ := Option.map_eq_some_iff.mp hcitizen
  simp only [not_not] at huse
  obtain rfl : revoked = false := by simpa using hrevoked
  have hany : grants.any (fun g => (splitScopes (j.claims.scope.getD "")).all (· ∈ g.scopes)) = true := by
    simpa using hcovered
  obtain ⟨g, hg, hall⟩ := List.any_eq_true.mp hany
  refine yields_releasedAttributes.mono fun attributes h' hreleased => ?_
  obtain ⟨hwithin, hs⟩ := hreleased
  refine ⟨token, j, rp, row.citizenId, truthy_eq_some htoken, hs.mem (by simp), huse, hs.mem (by simp),
    ⟨clientId, hclient, hs.mem (by simp)⟩, hsub, ⟨row, hs.mem (by simp), rfl⟩, ?_, hwithin⟩
  exact ⟨citizen, grants, g, hs.mem (by simp), hs.mem (by simp), hg, by simpa using hall⟩

end Paths

/-! ## The answer of a run -/

/-- A token that verifies has not expired. -/
theorem not_expired_of_verified {token : String} {aud : Option String} {j : SignedJwt}
    (hr : (broker D).Reach (l₁ ++ ⟨s, .act t ⟨.jwt (.verify token aud), some j⟩⟩ :: l₂) c) :
    s.now / 1000 < j.exp := by
  obtain ⟨c₀, m, c₁, -, hb, hs⟩ := hr.entry
  rcases step_leads hs with ⟨i, hx⟩ | ⟨hnone, -⟩
  · rw [show c₀.store = s from hb] at hx
    simp only [broker, Op.exec, JwtOp.exec, Option.map_some, Option.some.injEq, Prod.mk.injEq] at hx
    have hfound := List.find?_some hx.1
    simp only [Bool.and_eq_true, decide_eq_true_eq] at hfound
    exact hfound.2
  · simp at hnone

/-- What is found not to be on the denylist has no live entry there. -/
theorem not_denied_of_get {key : String}
    (hr : (broker D).Reach (l₁ ++ ⟨s, .act t ⟨.flag (.get key), some false⟩⟩ :: l₂) c) :
    lookup s.now key s.flags = none := by
  obtain ⟨c₀, m, c₁, -, hb, hs⟩ := hr.entry
  have hl := step_leads hs
  rw [show c₀.store = s from hb] at hl
  rcases leads_flag hl with ⟨hnone, -⟩ | ⟨hx, -⟩
  · simp at hnone
  · simp only [FlagOp.exec, Prod.mk.injEq, Option.some.injEq] at hx
    simpa using hx.1

/-- What user info has disclosed, in call `t` of the run, about the citizen to the relying party. -/
structure Disclosed (D : Deployment) (tr : Run) (c : State) (t : ℕ) (token : String) (j : SignedJwt)
    (rp : RelyingParty) (citizenId : Uuid) (info : UserInfo) : Prop where
  /-- The token is an access token that the broker signed, and had not expired when it was checked. -/
  token : j.claims.token_use = some "access" ∧ ∃ l₁ s l₂,
    tr = l₁ ++ ⟨s, .act t ⟨.jwt (.verify token none), some j⟩⟩ :: l₂ ∧ s.now / 1000 < j.exp ∧
    ∃ u ttl, Did l₂ u ⟨.jwt (.sign j.claims j.aud ttl), some token⟩
  /-- It was not on the denylist when that was checked. -/
  denylist : ∃ l₁ s l₂, tr = l₁ ++ ⟨s, .act t ⟨.flag (.get ("revoked:" ++ j.jti)), some false⟩⟩ :: l₂ ∧
    lookup s.now ("revoked:" ++ j.jti) s.flags = none
  /-- The relying party is the token's client. -/
  client : j.claims.client_id = some rp.clientId ∧ ReadsRp (own t tr) rp
  /-- The subject is the token's, and the citizen's at the relying party. -/
  subject : j.claims.sub = some info.sub ∧ PairwiseFor D c.store citizenId rp.id info.sub
  /-- When the consents were read, one that was live included all scopes of the token. -/
  consent : ∃ l₁ s l₂ grants,
    tr = l₁ ++ ⟨s, .act t ⟨.consent (.selectLive citizenId rp.id), some grants⟩⟩ :: l₂ ∧
    ∃ g ∈ s.consents, g.citizenId = citizenId ∧ g.rpId = rp.id ∧ g.revokedAt = none ∧
      ∀ w ∈ splitScopes (j.claims.scope.getD ""), w ∈ g.scopes
  /-- The name and the date of birth are those of the profile. -/
  profile : ∀ v, ("name", v) ∈ info.claims ∨ ("dateOfBirth", v) ∈ info.claims →
    "profile" ∈ splitScopes (j.claims.scope.getD "")
  /-- The address is that of the address. -/
  address : ∀ v, ("address", v) ∈ info.claims → "address" ∈ splitScopes (j.claims.scope.getD "")
  /-- There is nothing else. -/
  nothingElse : ∀ k v, (k, v) ∈ info.claims → k ∈ ["sub", "acr", "name", "dateOfBirth", "address"]

/-- User info discloses no more than the token's scopes and a live consent cover. -/
theorem minimal_disclosure (hr : (broker D).Reach tr c) {bearer : Option String} {info : UserInfo}
    (harrived : Arrived tr t (.userinfo bearer)) (hret : c.calls[t]? = some (.ret (.userinfo info))) :
    ∃ token j rp citizenId, bearer = some token ∧ Disclosed D tr c t token j rp citizenId info := by
  obtain ⟨info', heq, token, j, rp, citizenId, rfl, hon⟩ :=
    hr.ret_of_arrived harrived hret yields_userinfo_discloses.reply
  obtain rfl := Reply.userinfo.inj heq
  refine ⟨token, j, rp, citizenId, rfl, ?_⟩
  obtain ⟨clientId, hclient, hrp⟩ := hon.client
  obtain ⟨row, hrow, rfl⟩ := hon.citizen
  obtain ⟨citizen, grants, g, hcitizen, hgrants, hg, hcovers⟩ := hon.covered
  obtain ⟨hwithin, hdate, haddress⟩ := hon.attributes
  have hid : citizen.id = row.citizenId := by
    obtain ⟨l₁, s, l₂, rfl⟩ := (mem_own.mp hcitizen).split
    have hid := (mem_of_select_citizen hr).2
    rwa [Uuid.ofText_text, Option.some.injEq, eq_comm] at hid
  rw [hid] at hgrants
  refine ⟨⟨hon.use, ?_⟩, ?_, ?_, ⟨hon.sub, pairwiseFor_of_resolved hr (mem_own.mp hrow)⟩, ?_, ?_, ?_, ?_⟩
  · obtain ⟨-, htoken⟩ := stored_of_verified hr (mem_own.mp hon.verified)
    obtain ⟨l₁, s, l₂, rfl⟩ := (mem_own.mp hon.verified).split
    obtain ⟨u, ttl, hsigned⟩ := signed_of_verified hr
    exact ⟨l₁, s, l₂, rfl, not_expired_of_verified hr, u, ttl, htoken ▸ hsigned⟩
  · obtain ⟨l₁, s, l₂, rfl⟩ := (mem_own.mp hon.live).split
    exact ⟨l₁, s, l₂, rfl, not_denied_of_get hr⟩
  · refine ⟨?_, .inl ⟨clientId, hrp⟩⟩
    obtain ⟨l₁, s, l₂, rfl⟩ := (mem_own.mp hrp).split
    rw [hclient, (mem_of_selectByClientId hr).2]
  · obtain ⟨l₁, s, l₂, rfl⟩ := (mem_own.mp hgrants).split
    obtain ⟨hmem, hcitizenId, hrpId, hlive⟩ := (mem_of_selectLive hr).mp hg
    exact ⟨l₁, s, l₂, grants, rfl, g, hmem, hcitizenId, hrpId, hlive, hcovers⟩
  · intro v hv
    rcases hv with hv | hv <;> simp only [UserInfo.claims, List.mem_filterMap] at hv
    · exact hwithin (by rintro hnone; simp [hnone] at hv)
    · exact hdate (by rintro hnone; simp [hnone] at hv)
  · intro v hv
    simp only [UserInfo.claims, List.mem_filterMap] at hv
    exact haddress (by rintro hnone; simp [hnone] at hv)
  · intro k v hv
    obtain ⟨⟨k', v'⟩, hmem, hv⟩ := List.mem_filterMap.mp hv
    obtain ⟨w, -, heq⟩ := Option.map_eq_some_iff.mp hv
    obtain rfl : k' = k := congrArg Prod.fst heq
    exact List.mem_map_of_mem (f := Prod.fst) hmem

/-- The answer of user info that call `t` has returned. -/
def infoOf (c : State) (t : ℕ) : Option UserInfo :=
  match c.calls[t]? with
  | some (Prog.ret (Reply.userinfo info)) => some info
  | _ => none

theorem ret_of_infoOf {info : UserInfo} (h : infoOf c t = some info) :
    c.calls[t]? = some (.ret (.userinfo info)) := by
  unfold infoOf at h
  split at h
  · rename_i info' hcall
    rw [hcall, Option.some.inj h]
  · simp at h

/-- Call 10 asks for user info with the access token of the grant. -/
def sampleUserinfo : Script :=
  sampleGrant ++ .arrive (.userinfo (some "access-token")) :: Script.go 10 [.unit, .unit, .unit, .unit, .unit, .unit]

/-- What the relying party of a grant is told. -/
theorem minimal_disclosure_sampleUserinfo : ∃ tr c info, (broker sampleDeployment).Reach tr c ∧
    Arrived tr 10 (.userinfo (some "access-token")) ∧ c.calls[10]? = some (.ret (.userinfo info)) ∧
    ∃ token j rp citizenId, some "access-token" = some token ∧
      Disclosed sampleDeployment tr c 10 token j rp citizenId info := by
  obtain ⟨tr, c, hr, hrun⟩ := (broker sampleDeployment).exists_of_play sampleUserinfo.reverse
    (p := fun run => run.1.any (bearerArrives 10 "access-token") && (infoOf run.2 10).isSome) (by decide +kernel)
  simp only [Bool.and_eq_true, List.any_eq_true, Option.isSome_iff_exists] at hrun
  obtain ⟨harrives, info, hinfo⟩ := hrun
  have harrived := arrived_of_bearerArrives harrives
  have hret := ret_of_infoOf hinfo
  exact ⟨tr, c, info, hr, harrived, hret, minimal_disclosure hr harrived hret⟩

/-! ## The withdrawal of a consent -/

/-- The ids of the consents are different. -/
theorem consents_nodup (hr : (broker D).Reach tr c) : (c.store.consents.map (·.id)).Nodup :=
  (consents D).nodup consents_writes (fun _ _ _ h => congrArg (·.id) h.granted) rfl hr

/-- A consent that is revoked after it was recorded stays revoked. -/
theorem revoked_of_revoke {id : Uuid} {id' citizenId rpId : String} {now : Time} {scopes : List String}
    {source : String}
    (hr : (broker D).Reach (l₁ ++ ⟨s, .act u ⟨.consent (.revoke id' now), some ()⟩⟩ :: l₂) c)
    (hid : Uuid.ofText id' = some id)
    (hins : Did l₂ t ⟨.consent (.insert id citizenId rpId scopes source), some ()⟩)
    {g : ConsentGrant} (hg : g ∈ c.store.consents) (hgid : g.id = id) : g.revokedAt ≠ none := by
  have hend : ∃ g ∈ c.store.consents, g.id = id ∧ g.revokedAt ≠ none := by
    refine hr.since (P := fun s => ∃ g ∈ s.consents, g.id = id ∧ g.revokedAt ≠ none) ?_ ?_
    · intro s' hl
      obtain ⟨c₀, -, -, hr₀, hbefore, -⟩ := hr.entry
      obtain ⟨g₀, hg₀, hgid₀, -⟩ := consent_of_insert hr₀ hins
      rw [show c₀.store = s from hbefore] at hg₀
      rcases (consents D).leads_act ⟨.revoke id' now, some ()⟩ hl with ⟨now', hx⟩ | ⟨hnone, -⟩
      swap
      · simp at hnone
      obtain ⟨v, hv, hx⟩ | ⟨hnone, -⟩ := withUuid_eq hx
      swap
      · simp at hnone
      obtain rfl : id = v := Option.some.inj (hid.symm.trans hv)
      have hmem := Table.update_mem (p := fun g => decide (g.id = id))
        (f := fun g => { g with revokedAt := some now }) hg₀
      rw [if_pos (decide_eq_true hgid₀)] at hmem
      have hmem' : { g₀ with revokedAt := some now } ∈ (consents D).get s' := by
        rw [← (Prod.mk.inj hx).2]
        exact hmem
      exact ⟨_, hmem', hgid₀, by simp⟩
    · rintro e - s' hl ⟨g, hg, rfl, hrevoked⟩
      obtain ⟨g', hg', rfl | ⟨v, a, -, hc⟩⟩ := (consents D).row_step consents_writes hl hg
      · exact ⟨g', hg', rfl, hrevoked⟩
      · refine ⟨g', hg', congrArg (·.id) hc.granted, ?_⟩
        cases hc
        simp
  obtain ⟨g', hg', hgid', hrevoked⟩ := hend
  obtain rfl : g' = g := List.inj_on_of_nodup_map (consents_nodup hr) hg' hg (hgid'.trans hgid.symm)
  exact hrevoked

/-- When call `u` read the consents of the citizen and the relying party, another one than `id` was live and
included the scopes. -/
def CoveredByOther (l : Run) (u : ℕ) (id citizenId rpId : Uuid) (scopes : List String) : Prop :=
  ∃ m₁ s m₂ grants, l = m₁ ++ ⟨s, .act u ⟨.consent (.selectLive citizenId rpId), some grants⟩⟩ :: m₂ ∧
    ∃ g ∈ s.consents, g.id ≠ id ∧ g.citizenId = citizenId ∧ g.rpId = rpId ∧ g.revokedAt = none ∧
      scopes ⊆ g.scopes

/-- An answer of user info, after the consent of the token was revoked, was covered by another consent. -/
theorem covered_of_answered (hderive : ∀ salt, Function.Injective (D.deriveSubject salt))
    {v : ℕ} {id : Uuid} {id' : String} {now : Time}
    (hr : (broker D).Reach (l₁ ++ ⟨s, .act v ⟨.consent (.revoke id' now), some ()⟩⟩ :: l₂) c)
    (hid : Uuid.ofText id' = some id) {access : String} {rp : RelyingParty} {txn : AuthTransaction}
    (hgranted : GrantedOn D (own t (l₁ ++ ⟨s, .act v ⟨.consent (.revoke id' now), some ()⟩⟩ :: l₂)) access rp txn)
    {source : String}
    (hins : Did l₂ t ⟨.consent (.insert id txn.citizenId.text rp.id.text txn.scopes source), some ()⟩)
    (harrived : Arrived l₁ u (.userinfo (some access))) {info : UserInfo}
    (hret : c.calls[u]? = some (.ret (.userinfo info))) :
    CoveredByOther l₁ u id txn.citizenId rp.id txn.scopes := by
  obtain ⟨hrp, ⟨authReqId, htxn⟩, ⟨sub, hsubject, acr, hsigned⟩, -⟩ := hgranted
  obtain ⟨info', -, token, j, rp', citizenId, htoken, hon⟩ :=
    hr.ret_of_arrived (harrived.mono (List.subset_append_left _ _)) hret yields_userinfo_discloses.reply
  obtain rfl := Option.some.inj htoken
  obtain ⟨clientId, hclient, hrp'⟩ := hon.client
  obtain ⟨row, hrow, hrowCitizen⟩ := hon.citizen
  obtain ⟨citizen, grants, g, hcitizen, hgrants, hg, hcovers⟩ := hon.covered
  have hsub := hon.sub
  -- The token is the one that was signed, so that its claims are the grant's.
  obtain ⟨hclaims, -⟩ := claims_of_verified hr (mem_own.mp hsigned) (mem_own.mp hon.verified)
  rw [hclaims] at hsub hclient hcovers
  obtain rfl : rp.clientId = clientId := Option.some.inj hclient
  have hrpid : rp'.id = rp.id := by
    have hclient' : rp'.clientId = rp.clientId := by
      obtain ⟨m₁, s', m₂, htr⟩ := (mem_own.mp hrp').split
      rw [htr] at hr
      exact (mem_of_selectByClientId hr).2
    exact congrArg (·.id) (rp_agree hr (.inl ⟨_, hrp'⟩) hrp hclient')
  obtain rfl : sub = info'.sub := Option.some.inj hsub
  rw [hrpid] at hrow hgrants
  -- The subject leads back to the citizen.
  have hcitizenId : row.citizenId = txn.citizenId :=
    (pairwiseFor_of_resolved hr (mem_own.mp hrow)).citizen_unique hr hderive
      (pairwiseFor_of_subjectOn hr hrp hsubject)
  have hcid : citizen.id = txn.citizenId := by
    obtain ⟨m₁, s', m₂, htr⟩ := (mem_own.mp hcitizen).split
    rw [htr] at hr
    have hid := (mem_of_select_citizen hr).2
    rw [Uuid.ofText_text, Option.some.injEq] at hid
    rw [← hid, ← hrowCitizen, hcitizenId]
  have hscopes := isScope_of_read hr (mem_own.mp htxn)
  rw [hcid, hr.own_of_arrived harrived] at hgrants
  obtain ⟨m₁, s', m₂, rfl⟩ := (mem_own.mp hgrants).split
  rw [List.append_assoc, List.cons_append] at hr
  obtain ⟨hmem, hgcitizen, hgrp, hlive⟩ := (mem_of_selectLive hr).mp hg
  -- When the consents are read, the one that was revoked is not live.
  obtain ⟨c₀, -, -, hr₀, hb, -⟩ := hr.entry
  have hother : g.id ≠ id := by
    intro hgid
    rw [← show c₀.store = s' from hb] at hmem
    exact revoked_of_revoke hr₀ hid hins hmem hgid hlive
  refine ⟨m₁, s', m₂, grants, rfl, g, hmem, hother, hgcitizen, hgrp, hlive, ?_⟩
  intro w hw
  refine hcovers w ?_
  have hsplit : splitScopes ((accessTokenClaims info'.sub acr txn.scopes rp.clientId).scope.getD "") = txn.scopes :=
    splitScopes_intercalate hscopes
  rw [hsplit]
  exact hw

/-- What the withdrawal of the consent that call `t` recorded for its transaction does to its token. -/
structure WithdrawalShuts (tr : Run) (c : State) (t : ℕ) (access : String) (rp : RelyingParty)
    (txn : AuthTransaction) (id : Uuid) : Prop where
  /-- The call has read the transaction. -/
  readTxn : ∃ authReqId, ReadsTxn (own t tr) authReqId txn
  /-- It has recorded the consent. -/
  recorded : Did tr t ⟨.consent (.insert id txn.citizenId.text rp.id.text txn.scopes "ciba-approval"), some ()⟩
  /-- Once the consent is revoked, an answer of user info to the token was covered by another one. -/
  shuts : ∀ l₁ s v id' now l₂, tr = l₁ ++ ⟨s, .act v ⟨.consent (.revoke id' now), some ()⟩⟩ :: l₂ →
    Uuid.ofText id' = some id →
    Did l₂ t ⟨.consent (.insert id txn.citizenId.text rp.id.text txn.scopes "ciba-approval"), some ()⟩ →
    ∀ u info, Arrived l₁ u (.userinfo (some access)) → c.calls[u]? = some (.ret (.userinfo info)) →
      CoveredByOther l₁ u id txn.citizenId rp.id txn.scopes

/-- Withdrawing the consent that was recorded with a token shuts the door, unless another consent covers the
scopes. -/
theorem door_shut_of_revoked (hderive : ∀ salt, Function.Injective (D.deriveSubject salt))
    (hr : (broker D).Reach tr c) {creds : Option Credentials} {body : TokenRequest} {resp : TokenResponse}
    (harrived : Arrived tr t (.token creds body)) (hgrant : body.grant_type = CIBA_GRANT_TYPE)
    (hret : c.calls[t]? = some (.ret (.tokens resp))) :
    ∃ rp txn id, WithdrawalShuts tr c t resp.access_token rp txn id := by
  obtain ⟨resp', heq, hgranted⟩ := hr.ret_of_arrived harrived hret yields_token_granted.reply
  obtain rfl := Reply.tokens.inj heq
  obtain ⟨rp, txn, hon⟩ := hgranted hgrant
  obtain ⟨id, hins⟩ := hon.recorded
  refine ⟨rp, txn, id, ⟨hon.readTxn, mem_own.mp hins, ?_⟩⟩
  rintro l₁ s v id' now l₂ rfl hid hbefore u info hinfo hanswer
  exact covered_of_answered hderive hr hid hon hbefore hinfo hanswer

/-- After the grant, the citizen approves a second transaction of the relying party, whose grant is call 13. -/
def sampleSecondGrant : Script :=
  sampleGrant ++ .arrive (.bcAuthorize (some ⟨"rp_aaaaaaaaaaaa", sampleSecret 's'⟩) {
    scope := "openid"
    login_hint := String.ofList (List.replicate 64 'b') ++ (sampleUuid 1).text }) ::
  Script.go 10 [.unit, .unit, .unit, .unit, .text (sampleSecret 'q'), .uuid (sampleUuid 7), .unit, .unit, .unit,
    sampleRowId] ++
  samplePull 11 'G' 'H' ++ .arrive (.decision (some "session") {
    authReqId := sampleSecret 'q'
    bindingId := (sampleUuid 2).text
    challengeId := sampleId 'G'
    decision := .approve
    signature := "signed" }) ::
  Script.go 12 [.unit, .unit, .unit, .unit, .unit, .unit, .unit, .unit, .unit, sampleRowId, .unit] ++
  .arrive (.token (some ⟨"rp_aaaaaaaaaaaa", sampleSecret 's'⟩)
    { grant_type := CIBA_GRANT_TYPE, auth_req_id := some (sampleSecret 'q') }) ::
  Script.go 13 [.unit, .unit, .unit, .unit, .unit, .unit, .token "id-token-2" "jti-3",
    .token "access-token-2" "jti-4", .uuid (sampleUuid 6), .unit, sampleRowId, sampleRowId]

/-- Call 14 withdraws the consent of the first grant, and call 15 asks for user info with its token. -/
def sampleTwice : Script :=
  sampleSecondGrant ++ .arrive (.revokeConsent (some "session") (sampleUuid 5).text) ::
  Script.go 14 [.unit, .unit, .unit, .unit, .unit, sampleRowId] ++
  .arrive (.userinfo (some "access-token")) :: Script.go 15 [.unit, .unit, .unit, .unit, .unit, .unit]

/-- The entry withdraws the consent. -/
def withdraws (id : Uuid) (e : Step) : Bool :=
  match e.event with
  | .act _ ⟨.consent (.revoke id' _), some _⟩ => Uuid.ofText id' == some id
  | _ => false

/-- The entry records the consent in call `t`. -/
def recordsIn (t : ℕ) (id : Uuid) (e : Step) : Bool :=
  match e.event with
  | .act t' ⟨.consent (.insert id' _ _ _ _), some _⟩ => t' == t && id' == id
  | _ => false

theorem exists_of_withdraws {id : Uuid} {e : Step} (h : withdraws id e = true) :
    ∃ s v id' now, e = ⟨s, .act v ⟨.consent (.revoke id' now), some ()⟩⟩ ∧ Uuid.ofText id' = some id := by
  obtain ⟨s, ev⟩ := e
  unfold withdraws at h
  split at h
  · rename_i v id' now r hev
    exact ⟨s, v, id', now, congrArg (Entry.mk s) hev, beq_iff_eq.mp h⟩
  · simp at h

theorem did_of_recordsIn {id : Uuid} (h : ∃ e ∈ tr, recordsIn t id e = true) :
    ∃ citizenId rpId scopes source, Did tr t ⟨.consent (.insert id citizenId rpId scopes source), some ()⟩ := by
  obtain ⟨e, he, hs⟩ := h
  unfold recordsIn at hs
  split at hs
  · rename_i t' id' citizenId rpId scopes source r hev
    simp only [Bool.and_eq_true, beq_iff_eq] at hs
    rw [hs.1, hs.2] at hev
    exact ⟨citizenId, rpId, scopes, source, e, he, hev⟩
  · simp at hs

/-- Of the two consents of a citizen for a relying party, the one that is left releases with the token of the
one that was withdrawn. -/
theorem door_open_sampleTwice : ∃ l₁ s v id' now l₂ c, (broker sampleDeployment).Reach
      (l₁ ++ ⟨s, .act v ⟨.consent (.revoke id' now), some ()⟩⟩ :: l₂) c ∧
    ∃ creds body resp, Arrived l₂ 9 (.token creds body) ∧ body.grant_type = CIBA_GRANT_TYPE ∧
      c.calls[9]? = some (.ret (.tokens resp)) ∧
    ∃ id citizenId rpId scopes source, Uuid.ofText id' = some id ∧
      Did l₂ 9 ⟨.consent (.insert id citizenId rpId scopes source), some ()⟩ ∧
    ∃ info, Arrived l₁ 15 (.userinfo (some resp.access_token)) ∧ c.calls[15]? = some (.ret (.userinfo info)) := by
  obtain ⟨tr, c, hr, hrun⟩ := (broker sampleDeployment).exists_of_play sampleTwice.reverse
    (p := fun run => (run.1.drop 9).any (grantArrives 9) && (run.1.drop 9).any (recordsIn 9 (sampleUuid 5)) &&
      run.1[8]?.any (withdraws (sampleUuid 5)) && (infoOf run.2 15).isSome && (tokensOf run.2 9).any fun resp =>
      (run.1.take 8).any (bearerArrives 15 resp.access_token)) (by decide +kernel)
  simp only [Bool.and_eq_true, Option.any_eq_true, List.any_eq_true, Option.isSome_iff_exists] at hrun
  obtain ⟨⟨⟨⟨⟨e, he, harrives⟩, hrecords⟩, e', he', hwithdraws⟩, info, hinfo⟩, resp, hresp, hbearer⟩ := hrun
  obtain ⟨creds, body, hev, hgrant, -⟩ := exists_of_grantArrives harrives
  obtain ⟨s, v, id', now, rfl, hid⟩ := exists_of_withdraws hwithdraws
  obtain ⟨citizenId, rpId, scopes, source, hins⟩ := did_of_recordsIn hrecords
  obtain ⟨hlt, hget⟩ := List.getElem?_eq_some_iff.mp he'
  have htr : tr = tr.take 8 ++ ⟨s, .act v ⟨.consent (.revoke id' now), some ()⟩⟩ :: tr.drop 9 := by
    rw [← hget, ← List.drop_eq_getElem_cons hlt, List.take_append_drop]
  rw [htr] at hr
  exact ⟨_, s, v, id', now, _, c, hr, creds, body, resp, ⟨e, he, hev⟩, hgrant, ret_of_tokensOf hresp,
    sampleUuid 5, citizenId, rpId, scopes, source, hid, hins, info, arrived_of_bearerArrives hbearer,
    ret_of_infoOf hinfo⟩

/-- The withdrawal of the first consent, for the token of the first grant. -/
theorem door_shut_of_revoked_sampleTwice : ∃ tr c resp, (broker sampleDeployment).Reach tr c ∧
    c.calls[9]? = some (.ret (.tokens resp)) ∧
    ∃ rp txn id, WithdrawalShuts tr c 9 resp.access_token rp txn id := by
  obtain ⟨tr, c, hr, hrun⟩ := (broker sampleDeployment).exists_of_play sampleTwice.reverse
    (p := fun run => run.1.any (grantArrives 9) && (tokensOf run.2 9).isSome) (by decide +kernel)
  simp only [Bool.and_eq_true, List.any_eq_true, Option.isSome_iff_exists] at hrun
  obtain ⟨⟨e, he, harrives⟩, resp, hresp⟩ := hrun
  obtain ⟨creds, body, hev, hgrant, -⟩ := exists_of_grantArrives harrives
  have hret := ret_of_tokensOf hresp
  exact ⟨tr, c, resp, hr, hret, door_shut_of_revoked sampleDeployment_deriveSubject hr ⟨e, he, hev⟩ hgrant hret⟩

end SdidBridge
