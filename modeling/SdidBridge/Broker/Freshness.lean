import SdidBridge.Broker.Footprint
import SdidBridge.Broker.Revocation
import SdidBridge.Broker.Denylist

/-!
# How recent the last contact with SDID is

A login and an approval go by the time at which SDID last saw the identity of the binding: the last
re-assertion, else the activation, else the enrolment. An activation is no contact, but it consumes a
challenge that the enrolment issued, and so comes within the life of that challenge. So each of the three
times is at most that long after a real contact about the citizen (`anchored`), and what is not due for
re-verification had a contact within the interval and the life of a challenge (`recently_verified`).

The clock is taken to stand still during a call, so that what a call reads of it is when its commands are
executed.
-/

namespace SdidBridge

open Concurrent Machine Prog

/-! ## The paths to an anchor -/

/-- SDID has answered in the call that the identity of a citizen is valid. -/
def ReassertsOn (h : Path) (citizenId : String) : Prop :=
  ∃ k subject result, (⟨.citizen (.select citizenId), some (some k)⟩ : Cmd) ∈ h ∧ k.sdidSubject = some subject ∧
    (⟨.service (.reassert subject), some result⟩ : Cmd) ∈ h ∧ result.valid = true

/-- A sample has matched the reference that SDID gave for a citizen's national id number. -/
def MatchesOn (D : Deployment) (h : Path) (citizenId : Uuid) : Prop :=
  ∃ nid modality reference sample result newId updatedAt,
    (⟨.service (.getReferenceBiometric nid modality), some (.ok reference)⟩ : Cmd) ∈ h ∧
    (⟨.service (.matchSample sample reference.data), some result⟩ : Cmd) ∈ h ∧ result.matched = true ∧
    result.padPassed = true ∧
    (⟨.citizen (.upsert newId (D.pseudoNid nid) reference.sdidSubject updatedAt), some citizenId⟩ : Cmd) ∈ h

/-- A binding that is due for re-verification has been re-asserted. -/
def FreshOn (D : Deployment) (h : Path) (citizenId : String) (b : DeviceBinding) (force : Bool) : Prop :=
  ∃ now, (⟨.ambient .now, some now⟩ : Cmd) ∈ h ∧ (isDue D b now force = true → ReassertsOn h citizenId)

/-- What precedes a session token, and each time that `lastSdidContact` falls back on. -/
def ContactOnPath (D : Deployment) (h : Path) : Op → Prop
  | .jwt (.sign claims _ _) => claims.binding_id ≠ none →
      ∃ id b, ReadsBinding h id b ∧ claims = sessionClaims b ∧ FreshOn D h b.citizenId.text b false
  | .binding (.setLastReasserted citizenId now) =>
    (⟨.ambient .now, some now⟩ : Cmd) ∈ h ∧ ReassertsOn h citizenId
  | .binding (.activate id now) => (⟨.ambient .now, some now⟩ : Cmd) ∈ h ∧
      ∃ k record, (⟨.challenge (.getdel k), some (some record)⟩ : Cmd) ∈ h ∧
        record.purpose = purposeString .activation ∧ record.bindingId = id
  | .challenge (.set _ record ttl) => record.purpose = purposeString .activation →
      ttl = D.config.CHALLENGE_TTL_SECONDS ∧ ∃ id citizenId jwk attestation al label,
        record.bindingId = id.text ∧ MatchesOn D h citizenId ∧
        (⟨.binding (.insert id citizenId jwk attestation al label), some ()⟩ : Cmd) ∈ h
  | .binding (.insert _ citizenId _ _ _ _) => MatchesOn D h citizenId
  | _ => True

/-- What precedes an approval. -/
def ApprovalOnPath (D : Deployment) (q : Request) (h : Path) : Op → Prop
  | .txn (.resolve id .approve bindingId _ _) => ∃ bearer body txn b, q = .decision bearer body ∧
      ReadsTxn h body.authReqId txn ∧ txn.id = id ∧ (∃ k, ReadsBinding h k b) ∧ b.id = bindingId ∧
      FreshOn D h txn.citizenId.text b (decide (txn.requestedAl = .AL3))
  | _ => True

section Paths

variable {α : Type} {D : Deployment} {q : Request} {h h' : Path} {Φ : Path → Op → Prop}

theorem ReassertsOn.mono {citizenId : String} (hs : h <:+ h') (hr : ReassertsOn h citizenId) :
    ReassertsOn h' citizenId := by
  obtain ⟨k, subject, result, hread, hsubject, hasked, hvalid⟩ := hr
  exact ⟨k, subject, result, hs.mem hread, hsubject, hs.mem hasked, hvalid⟩

theorem MatchesOn.mono {citizenId : Uuid} (hs : h <:+ h') (hm : MatchesOn D h citizenId) :
    MatchesOn D h' citizenId := by
  obtain ⟨nid, modality, reference, sample, result, newId, updatedAt, hasked, hmatched, h₁, h₂, hcitizen⟩ := hm
  exact ⟨nid, modality, reference, sample, result, newId, updatedAt, hs.mem hasked, hs.mem hmatched, h₁, h₂,
    hs.mem hcitizen⟩

theorem FreshOn.mono {citizenId : String} {b : DeviceBinding} {force : Bool} (hs : h <:+ h')
    (hf : FreshOn D h citizenId b force) : FreshOn D h' citizenId b force := by
  obtain ⟨now, hnow, hdue⟩ := hf
  exact ⟨now, hs.mem hnow, fun hd => (hdue hd).mono hs⟩

theorem Op.common_contactOnPath {o : Op} (ho : o.common = true) (h : Path) : ContactOnPath D h o := by
  unfold ContactOnPath
  split <;> simp_all [Op.common]

theorem Op.plain_approvalOnPath {o : Op} (ho : o.plain = true) (h : Path) : ApprovalOnPath D q h o := by
  unfold ApprovalOnPath
  split <;> simp_all [Op.plain]

/-- Re-verification has asked SDID and was told that the identity is valid, if it returns. -/
theorem yields_reassertNow {citizenId bindingId trigger : String} {now : Time}
    (hΦ : ∀ h' o, o.reverifying = true → (∀ x t, o ≠ .binding (.setLastReasserted x t)) → Φ h' o)
    (hset : ∀ h', h <:+ h' → ReassertsOn h' citizenId → Φ h' (.binding (.setLastReasserted citizenId now))) :
    Yields Φ h (reassertNow citizenId bindingId trigger now) fun _ h' => h <:+ h' ∧ ReassertsOn h' citizenId := by
  simp only [reassertNow, yields_bind, yields_await, yields_orThrow, yields_throwIf]
  refine ⟨hΦ _ _ rfl (by simp), ?_⟩
  rintro row k rfl _ subject hsubject
  have hk : k.sdidSubject = some subject := (Option.filter_eq_some_iff.mp hsubject).1
  refine ⟨hΦ _ _ rfl (by simp), fun result => ?_⟩
  have hs : h <:+ ⟨.service (.reassert subject), some result⟩ ::
      ⟨.citizen (.select citizenId), some (some k)⟩ :: h :=
    (List.suffix_cons _ _).trans (List.suffix_cons _ _)
  rw [yields_ite]
  constructor
  · intro hvalid
    have hreasserts : ReassertsOn (⟨.service (.reassert subject), some result⟩ ::
        ⟨.citizen (.select citizenId), some (some k)⟩ :: h) citizenId :=
      ⟨k, subject, result, List.mem_cons_of_mem _ List.mem_cons_self, hk, List.mem_cons_self, hvalid⟩
    simp only [yields_bind, yields_await, yields_auditAppend, yields_pure]
    refine ⟨hset _ hs hreasserts, fun _ => ⟨hΦ _ _ rfl (by simp), ?_⟩⟩
    exact ⟨(hs.trans (List.suffix_cons _ _)).trans (List.suffix_cons _ _),
      hreasserts.mono ((List.suffix_cons _ _).trans (List.suffix_cons _ _))⟩
  · intro _
    -- The refusal throws.
    simp only [yields_bind, yields_await, yields_auditAppend, yields_throwing]
    exact ⟨hΦ _ _ rfl (by simp), fun _ => ⟨hΦ _ _ rfl (by simp), fun _ => ⟨hΦ _ _ rfl (by simp), trivial⟩⟩⟩

/-- A binding that is due has been re-asserted when the check returns. -/
theorem yields_reassertIfDue {citizenId trigger : String} {b : DeviceBinding} {force : Bool}
    (hΦ : ∀ h' o, o.reverifying = true → (∀ x t, o ≠ .binding (.setLastReasserted x t)) → Φ h' o)
    (hset : ∀ h' now, (⟨.ambient .now, some now⟩ : Cmd) ∈ h' → ReassertsOn h' citizenId →
      Φ h' (.binding (.setLastReasserted citizenId now))) :
    Yields Φ h (reassertIfDue D citizenId b force trigger) fun _ h' =>
      h <:+ h' ∧ FreshOn D h' citizenId b force := by
  simp only [reassertIfDue, yields_bind, yields_newDate]
  refine ⟨hΦ _ _ rfl (by simp), fun now => ?_⟩
  have hs : h <:+ (⟨.ambient .now, some now⟩ : Cmd) :: h := List.suffix_cons _ _
  rw [yields_ite]
  constructor
  · intro _
    refine (yields_reassertNow hΦ fun h' hs' hr => ?_).mono fun _ h' hreasserted => ?_
    · exact hset h' now (hs'.mem List.mem_cons_self) hr
    · obtain ⟨hs', hr⟩ := hreasserted
      exact ⟨hs.trans hs', now, hs'.mem List.mem_cons_self, fun _ => hr⟩
  · intro hdue
    exact ⟨hs, now, List.mem_cons_self, fun h => absurd h hdue⟩

/-- The commands of a re-verification but the new anchor are preceded by nothing. -/
theorem contactOnPath_reverifying (h' : Path) (o : Op) (ho : o.reverifying = true)
    (hset : ∀ x t, o ≠ .binding (.setLastReasserted x t)) : ContactOnPath D h' o := by
  unfold ContactOnPath
  split <;> simp_all [Op.reverifying]

theorem CommonOnly.yields_contact {p : H α} (hp : CommonOnly p) :
    Yields (ContactOnPath D) h p fun _ h' => h <:+ h' :=
  hp.yields fun _ _ ho => Op.common_contactOnPath ho _

theorem CommonOnly.contact_bind {β : Type} {p : H α} {f : α → H β} {Q : β → Path → Prop} (hp : CommonOnly p)
    (hf : ∀ a h', h <:+ h' → Yields (ContactOnPath D) h' (f a) Q) : Yields (ContactOnPath D) h (p >>= f) Q := by
  rw [yields_bind]
  exact hp.yields_contact.mono hf

theorem contact_proveLogin (body : LoginRequest) (b : DeviceBinding) :
    Yields (ContactOnPath D) h (proveLogin body b) fun _ h' => h <:+ h' := by
  refine yields_recover ?_ fun err h' => ?_
  · rw [yields_bind]
    refine (common_consume _ _ _).yields_contact.mono fun payload h₁ hs₁ => ?_
    exact (common_verifyDeviceSignature _ _ _).yields_contact.mono fun _ _ hs₂ => hs₁.trans hs₂
  · simp only [recordFailure, yields_bind, yields_await, yields_onlyIf, yields_auditAppend, yields_throwing]
    simp [ContactOnPath]

theorem contact_login (body : LoginRequest) : Yields (ContactOnPath D) [] (login D body) fun _ _ => True := by
  simp only [login, yields_bind, yields_throwIf, assertActive, loadBinding, yields_await, yields_orThrow]
  refine fun _ => ⟨trivial, ?_⟩
  rintro row b rfl _
  refine (contact_proveLogin body b).mono fun _ h₁ hs₁ => ?_
  have hread : ReadsBinding h₁ body.bindingId b := hs₁.mem List.mem_cons_self
  simp only [clearFailures, yields_await]
  refine ⟨trivial, fun _ => ?_⟩
  refine (yields_reassertIfDue contactOnPath_reverifying fun h' now hnow hr => ⟨hnow, hr⟩).mono
    fun _ h₂ ⟨hs₂, hfresh⟩ => ?_
  simp only [yields_newDate, yields_auditAppend, yields_pure]
  refine ⟨trivial, fun now => ⟨trivial, fun _ => ⟨trivial, fun _ => ?_, fun _ => trivial⟩⟩⟩
  have hs₃ : ∀ a₁ a₂ a₃ : Cmd, h₂ <:+ a₁ :: a₂ :: a₃ :: h₂ := fun _ _ _ =>
    ((List.suffix_cons _ _).trans (List.suffix_cons _ _)).trans (List.suffix_cons _ _)
  exact ⟨body.bindingId, b, (hs₃ _ _ _).mem (hs₂.mem (List.mem_cons_of_mem _ hread)), rfl, hfresh.mono (hs₃ _ _ _)⟩

/-- A citizen of a sweep is re-asserted before the anchor of the bindings is moved. -/
theorem contact_sweepOne (citizenId bindingId : Uuid) :
    Yields (ContactOnPath D) h (sweepOne citizenId bindingId) fun _ _ => True := by
  refine yields_recover ?_ fun err h' => ?_
  · simp only [yields_bind, yields_newDate, yields_pure]
    refine ⟨trivial, fun now => ?_⟩
    refine (yields_reassertNow contactOnPath_reverifying fun h' hs hr => ?_).mono fun _ _ _ => trivial
    exact ⟨hs.mem List.mem_cons_self, hr⟩
  · rw [yields_ite]
    exact ⟨fun _ => trivial, fun _ => trivial⟩

theorem contact_reverifySweep (bearer : Option String) (limit : Option ℕ) :
    Yields (ContactOnPath D) [] (reverifySweep D bearer limit) fun _ _ => True := by
  simp only [reverifySweep, adminGuard, sweep, yields_bind, yields_throwIf, yields_newDate, yields_await]
  intro _ _
  refine ⟨trivial, fun now => ⟨trivial, fun active => ?_⟩⟩
  have hloop : ∀ bs h', Yields (ContactOnPath D) h'
      (forEach (fun p : Uuid × Uuid => sweepOne p.1 p.2) bs) fun _ _ => True := by
    intro bs h'
    refine Along.mono (along_forEach (I := fun _ => True) (E := fun _ _ => True) (fun p _ h'' _ => ?_) trivial)
      (fun _ _ hΦ => hΦ) fun _ r _ => by cases r <;> trivial
    exact Along.mono (contact_sweepOne p.1 p.2) (fun _ _ hΦ => hΦ) fun _ r _ => by cases r <;> trivial
  refine (hloop _ _).mono fun _ _ _ => ?_
  simp only [yields_pure, yields_auditAppend]
  exact ⟨trivial, trivial⟩

theorem contact_activate (body : EnrolActivateRequest) :
    Yields (ContactOnPath D) [] (activate body) fun _ _ => True := by
  simp only [activate, consume, yields_bind, yields_throwIf, yields_await, yields_orThrow, yields_pure, not_or,
    not_not]
  refine fun _ => ⟨trivial, ?_⟩
  rintro row b rfl _
  refine ⟨trivial, ?_⟩
  rintro raw record rfl ⟨hpurpose, hbinding⟩
  refine (common_verifyDeviceSignature _ _ _).yields_contact.mono fun _ h₁ hs₁ => ?_
  simp only [yields_newDate, yields_auditAppend]
  refine ⟨trivial, fun now => ⟨⟨List.mem_cons_self, body.challengeId, record, ?_, hpurpose, hbinding⟩, fun _ =>
    ⟨trivial, trivial⟩⟩⟩
  exact List.mem_cons_of_mem _ (hs₁.mem List.mem_cons_self)

theorem contact_failEnrolment {Q : α → Path → Prop} (nid : String) (reason : EnrolmentFailureReason)
    (ref : Option String) : Yields (ContactOnPath D) h (failEnrolment nid reason ref) Q := by
  simp only [failEnrolment, recordFailure, yields_bind, yields_auditAppend, yields_await, yields_onlyIf,
    yields_refuse]
  simp [ContactOnPath]

/-- A sample that matched leaves the reference and the match on the path. -/
theorem contact_matchAgainstReference (body : EnrolStartRequest) (nid : String) :
    Yields (ContactOnPath D) h (matchAgainstReference body nid) fun outcome h' => ∃ reference result,
      outcome = ⟨reference.sdidSubject, reference.txnRef⟩ ∧
      (⟨.service (.getReferenceBiometric body.nid body.sample.modality), some (.ok reference)⟩ : Cmd) ∈ h' ∧
      (⟨.service (.matchSample body.sample.data reference.data), some result⟩ : Cmd) ∈ h' ∧
      result.matched = true ∧ result.padPassed = true := by
  rw [matchAgainstReference, yields_bind, yields_await]
  refine ⟨trivial, fun answer => ?_⟩
  cases answer with
  | unknownIdentity => exact contact_failEnrolment _ _ _
  | unavailable => exact trivial
  | ok reference =>
    simp only [yields_bind, yields_await, yields_auditAppend, yields_ite, yields_pure, not_or, Bool.not_eq_false]
    refine ⟨trivial, fun result => ⟨trivial, fun _ => contact_failEnrolment _ _ _, fun hok => ?_⟩⟩
    exact ⟨reference, result, rfl, List.mem_cons_of_mem _ (List.mem_cons_of_mem _ List.mem_cons_self),
      List.mem_cons_of_mem _ List.mem_cons_self, hok⟩

theorem contact_start (body : EnrolStartRequest) (ip : String) :
    Yields (ContactOnPath D) [] (start D body ip) fun _ _ => True := by
  simp only [start, yields_bind, yields_throwIf]
  intro _
  refine (common_enrolmentGates _ _ _ _).yields_contact.mono fun verdict h₁ _ => ?_
  refine (contact_matchAgainstReference body _).mono fun outcome h₂ hmatch => ?_
  obtain ⟨reference, result, rfl, hasked, hmatched, hok⟩ := hmatch
  simp only [bindDevice, yields_bind, yields_uuidv7, yields_newDate, yields_await, yields_ite, yields_auditAppend,
    yields_refuse]
  refine ⟨trivial, fun newId => ⟨trivial, fun updatedAt => ⟨trivial, fun citizenId => ?_⟩⟩⟩
  -- The match is on the path from here on.
  have hm : MatchesOn D (⟨.citizen (.upsert newId (D.pseudoNid body.nid) reference.sdidSubject updatedAt),
      some citizenId⟩ :: ⟨.ambient .now, some updatedAt⟩ :: ⟨.ambient .uuidv7, some newId⟩ :: h₂) citizenId :=
    ⟨body.nid, body.sample.modality, reference, body.sample.data, result, newId, updatedAt,
      List.mem_append_right [_, _, _] hasked, List.mem_append_right [_, _, _] hmatched, hok.1, hok.2,
      List.mem_cons_self⟩
  refine ⟨trivial, fun count => ⟨fun _ => ⟨trivial, trivial⟩, fun _ => ⟨trivial, fun bindingId => ?_⟩⟩⟩
  refine ⟨hm.mono ⟨[_, _], rfl⟩, fun _ => ⟨trivial, ?_⟩⟩
  simp only [issue, yields_bind, yields_randomBytes, yields_await, yields_newDate, yields_pure]
  refine ⟨trivial, fun k => ⟨trivial, fun nonce => ⟨fun _ => ⟨rfl, ?_⟩, fun _ => ⟨trivial, fun _ => trivial⟩⟩⟩⟩
  refine ⟨bindingId, citizenId, body.devicePublicKeyJwk, verdict.stored, verdict.assuranceCap, body.deviceLabel, rfl,
    hm.mono ⟨[_, _, _, _, _, _], rfl⟩, ?_⟩
  exact List.mem_append_right [_, _, _] List.mem_cons_self

theorem contact_decision (bearer : Option String) (body : CibaDecisionRequest) :
    Yields (ContactOnPath D) [] (decision D bearer body) fun _ _ => True := by
  refine (common_deviceSession _).contact_bind fun session _ _ => CommonOnly.contact_bind (only_throwIf _ _) fun _ _ _ =>
    (common_await rfl).contact_bind fun now _ _ => (common_await rfl).contact_bind fun row _ _ =>
    CommonOnly.contact_bind (only_orThrow _ _) fun txn _ _ => CommonOnly.contact_bind (only_throwIf _ _) fun _ _ _ =>
    (common_await rfl).contact_bind fun _ _ _ => CommonOnly.contact_bind (only_orThrow _ _) fun b _ _ =>
    CommonOnly.contact_bind (only_throwIf _ _) fun _ _ _ => CommonOnly.contact_bind (only_throwIf _ _) fun _ h₁ _ => ?_
  rw [yields_bind, yields_onlyIf]
  -- What follows is common, whether or not the binding was re-asserted.
  have hrest : ∀ h', Yields (ContactOnPath D) h' (do
      let payload ← consumeCiba body.challengeId body.authReqId body.bindingId body.decision
      verifyDeviceSignature b.devicePubkeyJwk payload body.signature
      let reportSuspicious := body.reportSuspicious.getD false
      let _ ← await (.txn (.resolve txn.id body.decision b.id now reportSuspicious))
      auditAppend (decisionEvent txn b body.decision reportSuspicious)
      await (.binding (.setLastUsed b.id now))
      return body.decision.status) fun _ _ => True := by
    intro h'
    exact (common_consumeCiba _ _ _ _).contact_bind fun _ _ _ =>
      (common_verifyDeviceSignature _ _ _).contact_bind fun _ _ _ => (common_await rfl).contact_bind fun _ _ _ =>
      (common_auditAppend _).contact_bind fun _ _ _ => (common_await rfl).contact_bind fun _ _ _ => trivial
  refine ⟨fun _ => ?_, fun _ => hrest h₁⟩
  rw [reassertForApproval, yields_bind]
  refine (yields_reassertIfDue contactOnPath_reverifying fun h' now hnow hr => ⟨hnow, hr⟩).mono fun _ h₂ _ => ?_
  exact hrest h₂

/-- A request that neither logs in, nor enrols, nor re-verifies sets no anchor. -/
theorem contactOnPath_of_issues {o : Op} (hq : q.reasserts = false) (hstart : ∀ body ip, q ≠ .enrolStart body ip)
    (hactivate : ∀ body, q ≠ .enrolActivate body) (hissues : q.issues o)
    (hsign : ∀ claims aud ttl, o = .jwt (.sign claims aud ttl) → claims.binding_id = none) :
    ContactOnPath D h o := by
  unfold ContactOnPath
  split
  · exact fun hne => absurd (hsign _ _ _ rfl) hne
  · have hreasserts : q.reasserts = true := hissues
    rw [hq] at hreasserts
    simp at hreasserts
  · obtain ⟨body, rfl⟩ := hissues
    exact absurd rfl (hactivate body)
  · intro hactivation
    obtain ⟨body, ip, rfl⟩ := hissues.2 hactivation
    exact absurd rfl (hstart body ip)
  · obtain ⟨body, ip, rfl⟩ := hissues
    exact absurd rfl (hstart body ip)
  · trivial

/-- What precedes a session token and each anchor, on the paths of every request. -/
theorem along_contacts (D : Deployment) (q : Request) :
    Along (ContactOnPath D) (fun _ _ => True) [] ((broker D).handler q) := by
  have hyields : ∀ {α : Type} {p : H α} {f : α → Reply}, Yields (ContactOnPath D) [] p (fun _ _ => True) →
      Along (ContactOnPath D) (fun _ _ => True) [] (p.reply f) := fun hp =>
    Along.mono hp.reply (fun _ _ hΦ => hΦ) fun _ _ _ => trivial
  by_cases hq : q.reasserts = true
  · unfold Request.reasserts at hq
    split at hq
    · exact hyields (contact_login _)
    · exact hyields (contact_decision _ _)
    · exact hyields (contact_reverifySweep _ _)
    · simp at hq
  by_cases hstart : ∃ body ip, q = .enrolStart body ip
  · obtain ⟨body, ip, rfl⟩ := hstart
    exact hyields (contact_start body ip)
  by_cases hactivate : ∃ body, q = .enrolActivate body
  · obtain ⟨body, rfl⟩ := hactivate
    exact hyields (contact_activate body)
  refine ((paths D q).and (footprint D q [])).mono (fun h o ⟨hpath, hissues⟩ => ?_) fun _ _ _ => trivial
  refine contactOnPath_of_issues (by simpa using hq) (fun body ip h => hstart ⟨body, ip, h⟩)
    (fun body h => hactivate ⟨body, h⟩) hissues fun claims aud ttl ho => ?_
  subst ho
  by_contra hbinding
  obtain ⟨body, -, rfl, -⟩ := SignsOn.session hpath.1 hbinding
  simp [Request.reasserts] at hq

/-- A program of plain commands only adds to the path. -/
theorem approval_plain {p : H α} (hp : p.Only fun o => o.plain = true) :
    Yields (ApprovalOnPath D q) h p fun _ h' => h <:+ h' := by
  refine Only.yields hp (J := fun h' => h <:+ h') (fun h' o hs ho => ?_) List.suffix_rfl
  exact ⟨Op.plain_approvalOnPath ho h', fun _ => hs.trans (List.suffix_cons _ _)⟩

theorem approval_decision (bearer : Option String) (body : CibaDecisionRequest) :
    Yields (ApprovalOnPath D (.decision bearer body)) [] (decision D bearer body) fun _ _ => True := by
  simp only [decision, consumeCiba, yields_bind, yields_throwIf, yields_newDate, yields_await, yields_orThrow,
    yields_pure, yields_auditAppend]
  refine (approval_plain (only_deviceSession _)).mono fun session h₁ _ _ => ⟨trivial, fun now => ⟨trivial, ?_⟩⟩
  rintro row txn rfl _
  refine ⟨trivial, ?_⟩
  rintro row b rfl _ _
  have hfresh : Yields (ApprovalOnPath D (.decision bearer body))
      (⟨.binding (.select session.bindingId), some (some b)⟩ :: ⟨.txn (.select body.authReqId), some (some txn)⟩ ::
        ⟨.ambient .now, some now⟩ :: h₁) (onlyIf (body.decision = .approve) (reassertForApproval D txn b))
      fun _ h₂ => ReadsTxn h₂ body.authReqId txn ∧ ReadsBinding h₂ session.bindingId b ∧
        (body.decision = .approve → FreshOn D h₂ txn.citizenId.text b (decide (txn.requestedAl = .AL3))) := by
    simp only [yields_onlyIf, reassertForApproval, yields_bind, yields_pure]
    refine ⟨fun _ => ?_, fun hd => ⟨List.mem_append_right [_] List.mem_cons_self, List.mem_cons_self,
      fun happrove => absurd happrove hd⟩⟩
    refine (yields_reassertIfDue (fun h' o ho _ => ?_) fun h' now _ _ => trivial).mono fun _ h₂ hreasserted => ?_
    · unfold ApprovalOnPath
      split <;> simp_all [Op.reverifying]
    · obtain ⟨hs, hfresh⟩ := hreasserted
      exact ⟨hs.mem (List.mem_append_right [_] List.mem_cons_self), hs.mem List.mem_cons_self, fun _ => hfresh⟩
  refine hfresh.mono fun _ h₂ hread => ⟨trivial, ?_⟩
  obtain ⟨htxn, hbinding, happrove⟩ := hread
  rintro raw record rfl _
  refine (approval_plain (only_verifyDeviceSignature _ _ _)).mono fun _ h₃ hs₃ => ⟨?_, fun _ => ⟨trivial, trivial,
    fun _ => trivial⟩⟩
  have hs : h₂ <:+ h₃ := (List.suffix_cons _ _).trans hs₃
  unfold ApprovalOnPath
  split
  · rename_i id bindingId t suspicious ho
    simp only [Op.txn.injEq, TxnOp.resolve.injEq] at ho
    obtain ⟨rfl, hd, rfl, -, -⟩ := ho
    exact ⟨bearer, body, txn, b, rfl, hs.mem htxn, rfl, ⟨_, hs.mem hbinding⟩, rfl, (happrove hd).mono hs⟩
  · trivial

/-- What precedes an approval, on the paths of every request. -/
theorem along_approvals (D : Deployment) (q : Request) :
    Along (ApprovalOnPath D q) (fun _ _ => True) [] ((broker D).handler q) := by
  by_cases hq : ∃ bearer body, q = .decision bearer body
  · obtain ⟨bearer, body, rfl⟩ := hq
    exact Along.mono (approval_decision bearer body).reply (fun _ _ hΦ => hΦ) fun _ _ _ => trivial
  · refine (paths D q).mono (fun h o ⟨hfollows, _⟩ => ?_) fun _ _ _ => trivial
    unfold ApprovalOnPath
    split
    · obtain ⟨bearer, body, -, -, hdecision, -⟩ := hfollows
      exact absurd ⟨bearer, body, hdecision⟩ hq
    · trivial

/-- The commands that ask SDID. -/
def Op.asksSdid : Op → Bool
  | .service (.getReferenceBiometric _ _) => true
  | .service (.reassert _) => true
  | .service (.getAttributes _ _) => true
  | _ => false

/-- A denial asks SDID nothing. -/
theorem only_denial {bearer : Option String} {body : CibaDecisionRequest} (hd : body.decision = .deny) :
    (decision D bearer body).Only fun o => o.asksSdid = false := by
  have hawait : ∀ o : Op, o.asksSdid = false → (await o).Only fun o => o.asksSdid = false :=
    fun _ ho => only_perform _ ho
  have hsession : (deviceSession bearer).Only fun o => o.asksSdid = false :=
    .bind (only_orThrow _ _) fun _ => .bind (.recover (hawait _ rfl) fun _ => only_throwing _) fun _ =>
      .bind (only_orThrow _ _) fun _ => .bind (only_orThrow _ _) fun _ => .bind (hawait _ rfl) fun _ =>
        .bind (only_orThrow _ _) fun _ => .bind (only_throwIf _ _) fun _ => only_pure _
  have happroval : ∀ txn b, (onlyIf (body.decision = .approve) (reassertForApproval D txn b)).Only
      fun o => o.asksSdid = false := by
    intro txn b
    rw [onlyIf, if_neg (by simp [hd])]
    exact only_pure _
  exact .bind hsession fun _ => .bind (only_throwIf _ _) fun _ => .bind (hawait _ rfl) fun _ =>
    .bind (hawait _ rfl) fun _ => .bind (only_orThrow _ _) fun _ => .bind (only_throwIf _ _) fun _ =>
      .bind (hawait _ rfl) fun _ => .bind (only_orThrow _ _) fun _ => .bind (only_throwIf _ _) fun _ =>
        .bind (only_throwIf _ _) fun _ => .bind (happroval _ _) fun _ =>
          .bind (.bind (hawait _ rfl) fun _ => .bind (only_orThrow _ _) fun _ => .bind (only_throwIf _ _) fun _ =>
            only_pure _) fun _ =>
          .bind (.bind (only_throwIf _ _) fun _ => .bind (.recover (hawait _ rfl) fun _ => only_pure _) fun _ =>
            only_throwIf _ _) fun _ => .bind (hawait _ rfl) fun _ => .bind (hawait _ rfl) fun _ =>
              .bind (hawait _ rfl) fun _ => only_pure _

end Paths

/-! ## Contacts of a run -/

variable {D : Deployment} {tr l₁ l₂ : Run} {c : State} {s s' : Store} {t u : ℕ}

/-- Call `u` executed the command at a time. -/
def DidAt (tr : Run) (u : ℕ) (a : Cmd) (time : Time) : Prop :=
  ∃ e ∈ tr, e.event = .act u a ∧ e.before.now = time

/-- The clock stands still while a call executes its commands. -/
def ClockStill (tr : Run) : Prop :=
  ∀ u a b x y, DidAt tr u a x → DidAt tr u b y → x = y

/-- A contact with SDID at a time, about the citizen of a binding. -/
inductive ContactAt (D : Deployment) (tr : Run) (bindingId citizenId : Uuid) (time : Time) : Prop
  /-- SDID answered that the identity of the citizen is valid. -/
  | reassert {u x k subject result} (hread : Did tr u ⟨.citizen (.select x), some (some k)⟩)
      (hid : k.id = citizenId) (hsubject : k.sdidSubject = some subject) (hvalid : result.valid = true)
      (hasked : DidAt tr u ⟨.service (.reassert subject), some result⟩ time)
  /-- SDID gave the reference that a sample matched in the enrolment of the binding. -/
  | reference {u nid modality reference sample result newId updatedAt jwk attestation al label}
      (hasked : DidAt tr u ⟨.service (.getReferenceBiometric nid modality), some (.ok reference)⟩ time)
      (hcompared : Did tr u ⟨.service (.matchSample sample reference.data), some result⟩)
      (hmatched : result.matched = true ∧ result.padPassed = true)
      (hcitizen : Did tr u ⟨.citizen (.upsert newId (D.pseudoNid nid) reference.sdidSubject updatedAt),
        some citizenId⟩)
      (hinserted : Did tr u ⟨.binding (.insert bindingId citizenId jwk attestation al label), some ()⟩)

theorem DidAt.mono {l l' : Run} {a : Cmd} {time : Time} (h : DidAt l u a time) (hl : l ⊆ l') :
    DidAt l' u a time := by
  obtain ⟨e, he, hev⟩ := h
  exact ⟨e, hl he, hev⟩

theorem DidAt.here {a : Cmd} : DidAt (l₁ ++ ⟨s, .act u a⟩ :: l₂) u a s.now :=
  ⟨_, List.mem_append_right _ List.mem_cons_self, rfl, rfl⟩

theorem DidAt.newest {a : Cmd} : DidAt (⟨s, .act u a⟩ :: l₂) u a s.now := ⟨_, List.mem_cons_self, rfl, rfl⟩

theorem ClockStill.mono {l l' : Run} (h : ClockStill l') (hl : l ⊆ l') : ClockStill l := by
  intro u a b x y ha hb
  exact h u a b x y (ha.mono hl) (hb.mono hl)

/-- A command of a call was executed when any other of its commands was. -/
theorem ClockStill.did (h : ClockStill tr) {a b : Cmd} {time : Time} (ha : DidAt tr u a time)
    (hb : Did tr u b) : DidAt tr u b time := by
  obtain ⟨e, he, hev⟩ := hb
  rw [← h u b a _ _ ⟨e, he, hev, rfl⟩ ha]
  exact ⟨e, he, hev, rfl⟩

theorem ContactAt.mono {l l' : Run} {bindingId citizenId : Uuid} {time : Time}
    (h : ContactAt D l bindingId citizenId time) (hl : l ⊆ l') : ContactAt D l' bindingId citizenId time := by
  cases h with
  | reassert hread hid hsubject hvalid hasked =>
    exact .reassert (hread.mono hl) hid hsubject hvalid (hasked.mono hl)
  | reference hasked hcompared hmatched hcitizen hinserted =>
    exact .reference (hasked.mono hl) (hcompared.mono hl) hmatched (hcitizen.mono hl) (hinserted.mono hl)

/-- A re-assertion of a call is a contact at the time of the call. -/
theorem contactAt_of_reasserts (hr : (broker D).Reach tr c) (hstill : ClockStill tr) {x : String}
    {bindingId citizenId : Uuid} {a : Cmd} {time : Time} (hx : Uuid.ofText x = some citizenId)
    (h : ReassertsOn (own u tr) x) (hat : DidAt tr u a time) : ContactAt D tr bindingId citizenId time := by
  obtain ⟨k, subject, result, hread, hsubject, hasked, hvalid⟩ := h
  have hdid := mem_own.mp hread
  have hid : k.id = citizenId := by
    obtain ⟨m₁, s, m₂, rfl⟩ := hdid.split
    have hspelled := (mem_of_select_citizen hr).2
    rw [hx, Option.some.injEq] at hspelled
    exact hspelled.symm
  exact .reassert hdid hid hsubject hvalid (hstill.did hat (mem_own.mp hasked))

/-- The match of an enrolment is a contact at the time of the call that inserts the binding. -/
theorem contactAt_of_matches (hstill : ClockStill tr) {bindingId citizenId : Uuid} {jwk : PublicKeyJwk}
    {attestation : JsValue} {al : AssuranceLevel} {label : String} {a : Cmd} {time : Time}
    (h : MatchesOn D (own u tr) citizenId)
    (hinserted : Did tr u ⟨.binding (.insert bindingId citizenId jwk attestation al label), some ()⟩)
    (hat : DidAt tr u a time) : ContactAt D tr bindingId citizenId time := by
  obtain ⟨nid, modality, reference, sample, result, newId, updatedAt, hasked, hcompared, h₁, h₂, hcitizen⟩ := h
  exact .reference (hstill.did hat (mem_own.mp hasked)) (mem_own.mp hcompared) ⟨h₁, h₂⟩ (mem_own.mp hcitizen)
    hinserted

/-- What a call reads of the clock is when it reads it. -/
theorem now_of_didAt (hr : (broker D).Reach tr c) {now time : Time}
    (h : DidAt tr u ⟨.ambient .now, some now⟩ time) : now = time := by
  obtain ⟨⟨s, ev⟩, he, rfl, rfl⟩ := h
  obtain ⟨m₁, m₂, rfl⟩ := List.append_of_mem he
  obtain ⟨c₀, m, c₁, -, hb, hs⟩ := hr.entry
  rcases step_leads hs with ⟨i, hx⟩ | ⟨hnone, -, -⟩
  · simp only [broker, Op.exec, AmbientOp.exec, Option.map_some, Option.some.injEq, Prod.mk.injEq] at hx
    rw [← hx.1, show c₀.store = s from hb]
    rfl
  · simp at hnone

/-- What a call has read of the clock, when the clock stands still. -/
theorem now_of_still (hr : (broker D).Reach tr c) (hstill : ClockStill tr) {now time : Time} {a : Cmd}
    (hnow : (⟨.ambient .now, some now⟩ : Cmd) ∈ own u tr) (hat : DidAt tr u a time) : now = time :=
  now_of_didAt hr (hstill.did hat (mem_own.mp hnow))

/-! ## The life of a challenge -/

/-- A stored challenge was set by a command, and expires as long after it as the command says. -/
theorem challenge_set_at (hr : (broker D).Reach tr c) : ∀ e ∈ c.store.challenges, ∃ u ttl time,
    DidAt tr u ⟨.challenge (.set e.key e.value ttl), some ()⟩ time ∧ e.expiresAt = some (time + ttl * 1000) := by
  induction hr with
  | init => simp [broker, Store.empty]
  | @step tr c m ev c' hr hs ih =>
    have hkeep : ∀ {e : Timed ChallengeRecord}, e ∈ c.store.challenges → ∃ u ttl time,
        DidAt (⟨c.store, ev⟩ :: tr) u ⟨.challenge (.set e.key e.value ttl), some ()⟩ time ∧
          e.expiresAt = some (time + ttl * 1000) := by
      intro e he
      obtain ⟨u, ttl, time, hset, hexpiry⟩ := ih e he
      exact ⟨u, ttl, time, hset.mono (List.subset_cons_self _ _), hexpiry⟩
    have hl := step_leads hs
    rcases (challenges D).leads hl with ⟨t, ⟨o, r⟩, hev, -⟩ | ⟨-, hsame⟩
    swap
    · rw [show c'.store.challenges = c.store.challenges from hsame]
      exact fun e he => hkeep he
    replace hev : ev = .act t ⟨.challenge o, r⟩ := hev
    subst hev
    rcases hl with ⟨i, hx⟩ | ⟨-, -, hsame⟩
    swap
    · rw [hsame]
      exact fun e he => hkeep he
    simp only [broker, Op.exec, Option.some.injEq, Prod.mk.injEq] at hx
    obtain ⟨rfl, hstore⟩ := hx
    intro e he
    rw [← hstore] at he
    cases o with
    | set k record ttl =>
      rcases List.mem_cons.mp he with rfl | he
      · exact ⟨t, ttl, c.store.now, ⟨_, List.mem_cons_self, rfl, rfl⟩, rfl⟩
      · exact hkeep (List.mem_of_mem_filter he)
    | getdel k => exact hkeep (List.mem_of_mem_filter he)

/-- A challenge is consumed within its life. -/
theorem consumed_in_time {k : String} {record : ChallengeRecord}
    (hr : (broker D).Reach (l₁ ++ ⟨s, .act t ⟨.challenge (.getdel k), some (some record)⟩⟩ :: l₂) c) :
    ∃ u ttl time, DidAt l₂ u ⟨.challenge (.set k record ttl), some ()⟩ time ∧ s.now < time + ttl * 1000 := by
  obtain ⟨c₀, m, c₁, hr₀, hb, hs⟩ := hr.entry
  rcases step_leads hs with ⟨i, hx⟩ | ⟨hnone, -, -⟩
  swap
  · simp at hnone
  rw [show c₀.store = s from hb] at hx
  simp only [broker, Op.exec, Option.some.injEq, Prod.mk.injEq, ChallengeOp.exec] at hx
  obtain ⟨e, hfind, rfl⟩ := Option.map_eq_some_iff.mp hx.1
  have hlive := List.find?_some hfind
  simp only [Bool.and_eq_true, beq_iff_eq] at hlive
  obtain ⟨rfl, hexpires⟩ := hlive
  obtain ⟨u, ttl, time, hset, hexpiry⟩ := challenge_set_at hr₀ e (by rw [hb]; exact List.mem_of_find?_eq_some hfind)
  rw [hexpiry] at hexpires
  exact ⟨u, ttl, time, hset, by simpa using hexpires⟩

/-! ## Every anchor is close to a contact -/

/-- What an insert does. -/
theorem leads_insert {id citizenId : Uuid} {jwk : PublicKeyJwk} {attestation : JsValue} {al : AssuranceLevel}
    {label : String} (hl : (broker D).Leads
      ⟨s, .act t ⟨.binding (.insert id citizenId jwk attestation al label), some ()⟩⟩ s') :
    s'.bindings = s.bindings ++ [DeviceBinding.enrolled id citizenId jwk attestation al label s.now] := by
  rcases hl with ⟨i, hx⟩ | ⟨hnone, -, -⟩
  · simp only [broker, Op.exec, BindingOp.exec, Option.some.injEq, Prod.mk.injEq] at hx
    obtain ⟨hanswer, rfl⟩ := hx
    split at hanswer
    · rename_i rows hrows
      obtain ⟨-, rfl⟩ := Table.insert_eq_some.mp hrows
      rfl
    · simp at hanswer
  · simp at hnone

/-- A binding that was inserted is there. -/
theorem stored_of_inserted (hr : (broker D).Reach tr c) {id citizenId : Uuid} {jwk : PublicKeyJwk}
    {attestation : JsValue} {al : AssuranceLevel} {label : String}
    (hd : Did tr u ⟨.binding (.insert id citizenId jwk attestation al label), some ()⟩) :
    ∃ b ∈ c.store.bindings, b.identity = (id, citizenId, jwk, al) := by
  obtain ⟨l₁, s, l₂, rfl⟩ := hd.split
  refine hr.since (P := fun s => ∃ b ∈ s.bindings, b.identity = (id, citizenId, jwk, al)) ?_ ?_
  · intro s' hl
    rw [leads_insert hl]
    exact ⟨_, List.mem_append_right _ (List.mem_singleton_self _), rfl⟩
  · rintro e _ s' hl ⟨b, hb, hid⟩
    obtain ⟨b', hb', rfl | ⟨t, a, -, hchange⟩⟩ := (bindings D).row_step bindings_writes hl hb
    · exact ⟨b', hb', hid⟩
    · exact ⟨b', hb', hchange.identity.trans hid⟩

/-- The anchor of a binding is at most the life of a challenge after a contact about its citizen. -/
def Anchored (D : Deployment) (tr : Run) (b : DeviceBinding) : Prop :=
  ∃ time, ContactAt D tr b.id b.citizenId time ∧
    lastSdidContact b ≤ time + D.config.CHALLENGE_TTL_SECONDS * 1000

theorem Anchored.mono {l l' : Run} {b : DeviceBinding} (h : Anchored D l b) (hl : l ⊆ l') : Anchored D l' b := by
  obtain ⟨time, hcontact, hle⟩ := h
  exact ⟨time, hcontact.mono hl, hle⟩

/-- Rows with one identity and one anchor are anchored alike. -/
theorem Anchored.congr {b b' : DeviceBinding} (h : Anchored D tr b) (hid : b'.identity = b.identity)
    (hlast : lastSdidContact b' = lastSdidContact b) : Anchored D tr b' := by
  simp only [DeviceBinding.identity, Prod.mk.injEq] at hid
  unfold Anchored
  rw [hid.1, hid.2.1, hlast]
  exact h

/-- What a call had executed before an entry of a run. -/
theorem own_older {e : Step} (t : ℕ) (l₁ l₂ : Run) : own t l₂ <:+ own t (l₁ ++ e :: l₂) :=
  ((List.suffix_cons e l₂).trans (List.suffix_append l₁ _)).filterMap _

/-- What precedes an anchor in a run. -/
theorem contact_onPath {a : Cmd} (hr : (broker D).Reach (l₁ ++ ⟨s, .act t a⟩ :: l₂) c) :
    ContactOnPath D (own t l₂) a.op := by
  obtain ⟨q, -, hpath⟩ := hr.act_along (Φ := fun _ h o => ContactOnPath D h o) (Ψ := fun _ _ _ => True)
    (along_contacts D)
  exact hpath

/-- A binding that is inserted is anchored at its enrolment. -/
theorem anchored_of_insert {id citizenId : Uuid} {jwk : PublicKeyJwk} {attestation : JsValue}
    {al : AssuranceLevel} {label : String} (hr : (broker D).Reach
      (⟨s, .act t ⟨.binding (.insert id citizenId jwk attestation al label), some ()⟩⟩ :: tr) c)
    (hstill : ClockStill (⟨s, .act t ⟨.binding (.insert id citizenId jwk attestation al label), some ()⟩⟩ :: tr)) :
    Anchored D (⟨s, .act t ⟨.binding (.insert id citizenId jwk attestation al label), some ()⟩⟩ :: tr)
      (DeviceBinding.enrolled id citizenId jwk attestation al label s.now) := by
  have hmatches : MatchesOn D (own t tr) citizenId := contact_onPath hr.newest
  have hat : DidAt (⟨s, .act t ⟨.binding (.insert id citizenId jwk attestation al label), some ()⟩⟩ :: tr) t
      ⟨.binding (.insert id citizenId jwk attestation al label), some ()⟩ s.now := DidAt.newest
  refine ⟨s.now, contactAt_of_matches hstill ?_ (did_here [] tr) hat, ?_⟩
  · rw [own_cons_self]
    exact hmatches.mono (List.suffix_cons _ _)
  · exact Nat.le_add_right _ _

/-- A binding that is re-asserted is anchored at the re-assertion. -/
theorem anchored_of_reasserted {x : String} {now : Time} {b : DeviceBinding} (hr : (broker D).Reach
      (⟨s, .act t ⟨.binding (.setLastReasserted x now), some ()⟩⟩ :: tr) c)
    (hstill : ClockStill (⟨s, .act t ⟨.binding (.setLastReasserted x now), some ()⟩⟩ :: tr))
    (hx : Uuid.ofText x = some b.citizenId) :
    Anchored D (⟨s, .act t ⟨.binding (.setLastReasserted x now), some ()⟩⟩ :: tr)
      { b with lastReassertedAt := some now } := by
  obtain ⟨hnow, hreasserts⟩ := contact_onPath hr.newest
  have hsuffix : own t tr <:+ own t (⟨s, .act t ⟨.binding (.setLastReasserted x now), some ()⟩⟩ :: tr : Run) := by
    rw [own_cons_self]
    exact List.suffix_cons _ _
  have hat : DidAt (⟨s, .act t ⟨.binding (.setLastReasserted x now), some ()⟩⟩ :: tr) t
      ⟨.binding (.setLastReasserted x now), some ()⟩ s.now := DidAt.newest
  have htime : now = s.now := now_of_still hr hstill (hsuffix.mem hnow) hat
  refine ⟨s.now, contactAt_of_reasserts hr hstill hx (hreasserts.mono hsuffix) hat, ?_⟩
  rw [← htime]
  exact Nat.le_add_right _ _

/-- The challenge of an activation is set by the enrolment of its binding. -/
theorem contact_of_activation_set (hr : (broker D).Reach tr c) (hstill : ClockStill tr) {k : String}
    {record : ChallengeRecord} {ttl : ℕ} {time : Time}
    (hset : DidAt tr u ⟨.challenge (.set k record ttl), some ()⟩ time)
    (hpurpose : record.purpose = purposeString .activation) :
    ttl = D.config.CHALLENGE_TTL_SECONDS ∧ ∃ b ∈ c.store.bindings, record.bindingId = b.id.text ∧
      ContactAt D tr b.id b.citizenId time := by
  have hat := hset
  obtain ⟨⟨s, ev⟩, he, rfl, rfl⟩ := hset
  obtain ⟨l₁, l₂, rfl⟩ := List.append_of_mem he
  obtain ⟨httl, id, citizenId, jwk, attestation, al, label, hid, hmatches, hinserted⟩ := contact_onPath hr hpurpose
  refine ⟨httl, ?_⟩
  have hsuffix := own_older (e := (⟨s, .act u ⟨.challenge (.set k record ttl), some ()⟩⟩ : Step)) u l₁ l₂
  have hinserted' := mem_own.mp (hsuffix.mem hinserted)
  obtain ⟨b, hb, hident⟩ := stored_of_inserted hr hinserted'
  simp only [DeviceBinding.identity, Prod.mk.injEq] at hident
  obtain ⟨rfl, rfl, -, -⟩ := hident
  exact ⟨b, hb, hid, contactAt_of_matches hstill (hmatches.mono hsuffix) hinserted' hat⟩

/-- A binding is activated within the life of a challenge after its enrolment. -/
theorem contact_of_activated {x : String} {now : Time} (hr : (broker D).Reach
      (⟨s, .act t ⟨.binding (.activate x now), some ()⟩⟩ :: tr) c)
    (hstill : ClockStill (⟨s, .act t ⟨.binding (.activate x now), some ()⟩⟩ :: tr)) :
    ∃ b ∈ c.store.bindings, x = b.id.text ∧ ∃ time,
      ContactAt D (⟨s, .act t ⟨.binding (.activate x now), some ()⟩⟩ :: tr) b.id b.citizenId time ∧
      now ≤ time + D.config.CHALLENGE_TTL_SECONDS * 1000 := by
  obtain ⟨hnow, k, record, hget, hpurpose, rfl⟩ := contact_onPath hr.newest
  obtain ⟨c₀, -, -, hr₀, -, -⟩ := hr.newest.entry
  have hnew : tr ⊆ (⟨s, .act t ⟨.binding (.activate record.bindingId now), some ()⟩⟩ : Step) :: tr :=
    List.subset_cons_self _ _
  -- The call consumed the challenge when it read the clock.
  obtain ⟨m₁, s₁, m₂, htr⟩ := (mem_own.mp hget).split
  have hat : DidAt tr t ⟨.challenge (.getdel k), some (some record)⟩ s₁.now := by
    rw [htr]
    exact DidAt.here
  have htime : now = s₁.now := now_of_still hr₀ (hstill.mono hnew) hnow hat
  obtain ⟨v, ttl, time, hset, hlive⟩ := consumed_in_time (htr ▸ hr₀)
  have hset' : DidAt tr v ⟨.challenge (.set k record ttl), some ()⟩ time := by
    rw [htr]
    exact hset.mono (older_subset m₁ m₂)
  obtain ⟨rfl, b, hb, hid, hcontact⟩ := contact_of_activation_set hr hstill (hset'.mono hnew) hpurpose
  refine ⟨b, hb, hid, time, hcontact, ?_⟩
  rw [htime]
  exact hlive.le

/-- Every anchor is at most the life of a challenge after a contact about the citizen. -/
theorem anchored (hr : (broker D).Reach tr c) (hstill : ClockStill tr) :
    ∀ b ∈ c.store.bindings, Anchored D tr b := by
  induction hr with
  | init => simp [broker, Store.empty]
  | @step tr c m ev c' hr hs ih =>
    have hr' := Reach.step hr hs
    have hnew : tr ⊆ (⟨c.store, ev⟩ : Step) :: tr := List.subset_cons_self _ _
    have hkept : ∀ b ∈ c.store.bindings, Anchored D (⟨c.store, ev⟩ :: tr) b :=
      fun b hb => (ih (hstill.mono hnew) b hb).mono hnew
    have hl := step_leads hs
    intro b' hb'
    rcases (bindings D).row_origin bindings_rewrites hl hb' with
      ⟨t, a, hev, hinsert⟩ | ⟨b, hb, rfl | ⟨t, a, hev, hc⟩⟩
    · obtain ⟨id, citizenId, jwk, attestation, al, label, now, rfl, -⟩ := hinsert
      replace hev : ev = .act t ⟨.binding (.insert id citizenId jwk attestation al label), some ()⟩ := hev
      subst hev
      rw [leads_insert hl] at hb'
      rcases List.mem_append.mp hb' with hb' | hb'
      · exact hkept b' hb'
      · rw [List.mem_singleton.mp hb']
        exact anchored_of_insert hr' hstill
    · exact hkept b' hb
    · cases hc with
      | revoked _ => exact (hkept b hb).congr rfl rfl
      | swept _ _ => exact (hkept b hb).congr rfl rfl
      | used _ => exact (hkept b hb).congr rfl rfl
      | addressed _ => exact (hkept b hb).congr rfl rfl
      | unaddressed _ => exact (hkept b hb).congr rfl rfl
      | @reasserted x now _ hx hs =>
        replace hev : ev = .act t ⟨.binding (.setLastReasserted x now), some ()⟩ := hev
        subst hev
        exact anchored_of_reasserted hr' hstill hx
      | @activated x now _ hx =>
        replace hev : ev = .act t ⟨.binding (.activate x now), some ()⟩ := hev
        subst hev
        cases hlast : b.lastReassertedAt with
        | some time =>
          -- An activation does not move the anchor of a binding that was re-asserted.
          refine (hkept b hb).congr rfl ?_
          simp [lastSdidContact, hlast]
        | none =>
          obtain ⟨b₁, hb₁, rfl, time, hcontact, hle⟩ := contact_of_activated hr' hstill
          have hsame : b₁ = { b with status := .active, activatedAt := some now } := by
            refine List.inj_on_of_nodup_map (bindings_nodup hr') hb₁ hb' ?_
            rw [Uuid.ofText_text, Option.some.injEq] at hx
            exact hx
          subst hsame
          refine ⟨time, hcontact, ?_⟩
          simpa [lastSdidContact, hlast] using hle

/-! ## Logins and approvals -/

/-- How long after a contact a login or an approval can be, in milliseconds. -/
def freshnessWindow (D : Deployment) : Time :=
  (D.config.REVERIFY_INTERVAL_SECONDS + D.config.CHALLENGE_TTL_SECONDS) * 1000

/-- Logins and approvals come within the window of a contact, an approval at the highest level has a contact of
its own, and a denial has none. -/
structure RecentlyVerified (D : Deployment) (tr : Run) : Prop where
  /-- A session token is signed within the window of a contact about its citizen. -/
  login : ∀ l₁ s t claims aud ttl token l₂,
    tr = l₁ ++ ⟨s, .act t ⟨.jwt (.sign claims aud ttl), some token⟩⟩ :: l₂ → claims.binding_id ≠ none →
      ∃ bindingId citizenId time, claims.binding_id = some bindingId.text ∧ claims.sub = some citizenId.text ∧
        ContactAt D l₂ bindingId citizenId time ∧ s.now ≤ time + freshnessWindow D
  /-- A transaction is approved within the window of a contact about its citizen. -/
  approval : ∀ l₁ s t id bindingId now suspicious n l₂ T,
    tr = l₁ ++ ⟨s, .act t ⟨.txn (.resolve id .approve bindingId now suspicious), some n⟩⟩ :: l₂ → T ∈ s.txns →
      T.id = id → ∃ time, ContactAt D l₂ bindingId T.citizenId time ∧ s.now ≤ time + freshnessWindow D
  /-- The call that approves at the highest level was told by SDID that the identity is valid. -/
  stepUp : ∀ l₁ s t id bindingId now suspicious n l₂ T,
    tr = l₁ ++ ⟨s, .act t ⟨.txn (.resolve id .approve bindingId now suspicious), some n⟩⟩ :: l₂ → T ∈ s.txns →
      T.id = id → T.requestedAl = .AL3 → ReassertsOn (own t l₂) T.citizenId.text
  /-- A denial asks SDID nothing. -/
  denial : ∀ t bearer body a, Arrived tr t (.decision bearer body) → body.decision = .deny → Did tr t a →
    a.op.asksSdid = false

/-- What is fresh had a contact within the window. -/
theorem contact_of_fresh {a : Cmd} {x k : String} {b : DeviceBinding} {force : Bool}
    (hr : (broker D).Reach (l₁ ++ ⟨s, .act t a⟩ :: l₂) c) (hstill : ClockStill (l₁ ++ ⟨s, .act t a⟩ :: l₂))
    (hread : ReadsBinding (own t l₂) k b) (hx : Uuid.ofText x = some b.citizenId)
    (hfresh : FreshOn D (own t l₂) x b force) :
    ∃ time, ContactAt D l₂ b.id b.citizenId time ∧ s.now ≤ time + freshnessWindow D := by
  obtain ⟨now, hnow, hdue⟩ := hfresh
  obtain ⟨c₀, -, -, hr₀, -, -⟩ := hr.entry
  have hstill₀ : ClockStill l₂ := hstill.mono (older_subset l₁ l₂)
  -- The call reads the clock when it executes the command.
  have hat : DidAt l₂ t ⟨.ambient .now, some now⟩ s.now := by
    obtain ⟨e, he, hev⟩ := mem_own.mp hnow
    refine ⟨e, he, hev, ?_⟩
    exact hstill t _ _ _ _ ⟨e, older_subset l₁ l₂ he, hev, rfl⟩ DidAt.here
  have htime : now = s.now := now_of_didAt hr₀ hat
  by_cases hisDue : isDue D b now force = true
  · exact ⟨s.now, contactAt_of_reasserts hr₀ hstill₀ hx (hdue hisDue) hat, Nat.le_add_right _ _⟩
  · -- The anchor that was read is in the interval, and is close to a contact.
    obtain ⟨m₁, s₁, m₂, rfl⟩ := (mem_own.mp hread).split
    have hstored := mem_of_select_binding hr₀
    obtain ⟨c₁, -, -, hr₁, hb₁, -⟩ := hr₀.entry
    rw [← show c₁.store = s₁ from hb₁] at hstored
    obtain ⟨time, hcontact, hanchor⟩ := anchored hr₁ (hstill₀.mono (older_subset m₁ m₂)) b hstored
    refine ⟨time, hcontact.mono (older_subset m₁ m₂), ?_⟩
    have hinterval : now < lastSdidContact b + D.config.REVERIFY_INTERVAL_SECONDS * 1000 := by
      simp only [isDue, Bool.or_eq_true, decide_eq_true_eq, not_or, not_le] at hisDue
      exact hisDue.2
    unfold freshnessWindow
    rw [← htime]
    calc now ≤ lastSdidContact b + D.config.REVERIFY_INTERVAL_SECONDS * 1000 := hinterval.le
      _ ≤ time + D.config.CHALLENGE_TTL_SECONDS * 1000 + D.config.REVERIFY_INTERVAL_SECONDS * 1000 :=
        Nat.add_le_add_right hanchor _
      _ = time + (D.config.REVERIFY_INTERVAL_SECONDS + D.config.CHALLENGE_TTL_SECONDS) * 1000 := by ring

/-- What an approval has checked, about the stored transaction and its citizen. -/
theorem fresh_of_approved {id bindingId : Uuid} {now : Time} {suspicious : Bool} {n : ℕ} {T : AuthTransaction}
    (hr : (broker D).Reach
      (l₁ ++ ⟨s, .act t ⟨.txn (.resolve id .approve bindingId now suspicious), some n⟩⟩ :: l₂) c)
    (hT : T ∈ s.txns) (hid : T.id = id) :
    ∃ k b, ReadsBinding (own t l₂) k b ∧ b.id = bindingId ∧ b.citizenId = T.citizenId ∧
      FreshOn D (own t l₂) T.citizenId.text b (decide (T.requestedAl = .AL3)) := by
  obtain ⟨q, -, bearer, body, txn, b, -, htxn, htid, ⟨k, hread⟩, hbid, hfresh⟩ := hr.act_along (along_approvals D)
  obtain ⟨q', -, ⟨bearer', body', txn', b', -, hdecision, htid', -, hbid'⟩, -⟩ := onPath hr
  obtain ⟨c₀, -, -, hr₀, hb₀, -⟩ := hr.entry
  rw [← show c₀.store = s from hb₀] at hT
  -- The transaction that was read is the stored one, and the binding is of its citizen.
  have htxns : ∀ {T' : AuthTransaction} {authReqId : String}, ReadsTxn (own t l₂) authReqId T' → T'.id = id →
      T'.identity = T.identity := by
    intro T' authReqId hread' hid'
    exact agree_of_nodup (k := Prod.fst) (fun _ => rfl) (txns_nodup hr₀) (txn_of_read hr₀ (mem_own.mp hread')).2
      ⟨T, hT, rfl⟩ (hid'.trans hid.symm)
  have hident := htxns htxn htid
  have hident' := htxns hdecision.readTxn htid'.symm
  simp only [AuthTransaction.identity, Prod.mk.injEq] at hident hident'
  have hagree := binding_agree hr₀ (mem_own.mp hread) (mem_own.mp hdecision.readBinding) (hbid.trans hbid')
  simp only [DeviceBinding.identity, Prod.mk.injEq] at hagree
  refine ⟨k, b, hread, hbid, ?_, ?_⟩
  · rw [hagree.2.1, (citizen_of_decision hr₀ hdecision).1, hident'.2.2.1]
  · rw [← hident.2.2.1, ← hident.2.2.2.2]
    exact hfresh

/-- In every run in which the clock stands still during a call, logins and approvals are recently verified. -/
theorem recently_verified (hr : (broker D).Reach tr c) (hstill : ClockStill tr) : RecentlyVerified D tr := by
  constructor
  · rintro l₁ s t claims aud ttl token l₂ rfl hbinding
    obtain ⟨k, b, hread, rfl, hfresh⟩ := contact_onPath hr hbinding
    obtain ⟨time, hcontact, hle⟩ := contact_of_fresh hr hstill hread (Uuid.ofText_text _) hfresh
    exact ⟨b.id, b.citizenId, time, rfl, rfl, hcontact, hle⟩
  · rintro l₁ s t id bindingId now suspicious n l₂ T rfl hT hid
    obtain ⟨k, b, hread, rfl, hcitizen, hfresh⟩ := fresh_of_approved hr hT hid
    rw [← hcitizen] at hfresh ⊢
    exact contact_of_fresh hr hstill hread (Uuid.ofText_text _) hfresh
  · rintro l₁ s t id bindingId now suspicious n l₂ T rfl hT hid hal
    obtain ⟨k, b, -, -, -, now', -, hdue⟩ := fresh_of_approved hr hT hid
    exact hdue (by simp [isDue, hal])
  · rintro t bearer body a harrived hdeny hdid
    obtain ⟨l₁, s, l₂, rfl⟩ := hdid.split
    have honly : (handler D (.decision bearer body)).Only fun o => o.asksSdid = false :=
      .bind (only_denial hdeny) fun _ => only_pure _
    exact hr.act_of_arrived (Φ := fun _ o => o.asksSdid = false) (Ψ := fun _ _ => True) harrived (honly [])

/-! ## A run -/

/-- The binding 2 is activated a minute after its enrolment, and approves a transaction half a minute after it
has pulled it. -/
def sampleLater : Script :=
  sampleEnrolment 0 [.unit, .unit, .unit, .unit, .unit] 2 'A' 'B' ++ [.env (.elapse 60000)] ++
    sampleActivation 1 2 'A' ++ Script.go 1 [.unit, sampleRowId] ++ sampleLogin 2 2 'C' 'D' ++
    Script.go 3 [.unit, .unit, sampleRowId, .token "session" "jti"] ++ sampleRequest ++ samplePull 7 'E' 'F' ++
    [.env (.elapse 30000)] ++ sampleDecision 8 .approve [.unit] 'E' ++ Script.go 8 [.unit, sampleRowId, .unit]

/-- Whether two entries are not of one call, or are executed at one time. -/
def stillBetween (e e' : Step) : Bool :=
  match e.event, e'.event with
  | .act u _, .act v _ => u != v || e.before.now == e'.before.now
  | _, _ => true

theorem clockStill_of_all (h : (tr.all fun e => tr.all (stillBetween e)) = true) : ClockStill tr := by
  rintro u a b x y ⟨e, he, hev, rfl⟩ ⟨e', he', hev', rfl⟩
  have hbetween := List.all_eq_true.mp (List.all_eq_true.mp h e he) e' he'
  simpa [stillBetween, hev, hev'] using hbetween

/-- The approval of the run comes within the window of the enrolment. -/
theorem recently_verified_sampleLater : ∃ tr c, (broker sampleDeployment).Reach tr c ∧ ClockStill tr ∧
    (∃ e ∈ tr, approvesWith (sampleUuid 2) e = true ∧ e.before.now = 90000) ∧
    RecentlyVerified sampleDeployment tr := by
  obtain ⟨tr, c, hr, hrun⟩ := (broker sampleDeployment).exists_of_play sampleLater.reverse
    (p := fun run => (run.1.all fun e => run.1.all (stillBetween e)) &&
      run.1.any fun e => approvesWith (sampleUuid 2) e && e.before.now == 90000) (by decide +kernel)
  simp only [Bool.and_eq_true, List.any_eq_true, beq_iff_eq] at hrun
  have hstill := clockStill_of_all hrun.1
  exact ⟨tr, c, hr, hstill, hrun.2, recently_verified hr hstill⟩

end SdidBridge
