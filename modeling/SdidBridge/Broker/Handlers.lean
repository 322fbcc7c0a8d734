import SdidBridge.Broker.Paths

/-!
# The paths of the handlers, one by one

Programs of plain commands come first (`only_*`), then what the other services leave on a path, then
the handlers, and at the end `paths`.
-/

namespace SdidBridge

open Concurrent Prog

/-- A program of plain commands. -/
abbrev PlainOnly {α : Type} (p : H α) : Prop := p.Only fun o => o.plain = true

/-! ## Programs of plain commands -/

theorem only_await {o : Op} (ho : o.plain = true) : PlainOnly (await o) := only_perform _ ho

theorem only_newDate : PlainOnly newDate := only_await rfl

theorem only_uuidv7 : PlainOnly uuidv7 := only_await rfl

theorem only_randomBytes (n : ℕ) (e : Encoding) : PlainOnly (randomBytes n e) := only_await rfl

theorem only_auditAppend {event : AuditEventInput}
    (he : event.action ≠ .cibaRequestApproved ∧ event.action ≠ .cibaRequestDenied) :
    PlainOnly (auditAppend event) :=
  only_await (by simp [he])

theorem only_refuse {α : Type} (code : ErrorCode) (message : String) (status : ℕ) :
    PlainOnly (refuse code message status : H α) := only_throwing _

theorem only_hit (key : String) (limit window : ℕ) : PlainOnly (hit key limit window) :=
  .bind (only_await rfl) fun _ => .bind (.onlyIf (only_await rfl)) fun _ => only_throwIf _ _

theorem only_recordFailure (key : String) (max window : ℕ) :
    PlainOnly (recordFailure key max window) :=
  .bind (only_await rfl) fun _ => .bind (.onlyIf (only_await rfl)) fun _ => .onlyIf (only_await rfl)

theorem only_assertNotLockedOut (key : String) (max : ℕ) : PlainOnly (assertNotLockedOut key max) :=
  .bind (only_await rfl) fun _ => only_throwIf _ _

theorem only_consume (id : String) (purpose : ChallengePurpose) (bindingId : String) :
    PlainOnly (consume id purpose bindingId) :=
  .bind (only_await rfl) fun _ => .bind (only_orThrow _ _) fun _ => .bind (only_throwIf _ _) fun _ =>
    only_pure _

theorem only_consumeAttestationNonce (id : String) : PlainOnly (consumeAttestationNonce id) :=
  .bind (only_await rfl) fun _ => .bind (only_orThrow _ _) fun _ => .bind (only_throwIf _ _) fun _ =>
    only_pure _

theorem only_verifyDeviceSignature (jwk : PublicKeyJwk) (payload signature : String) :
    PlainOnly (verifyDeviceSignature jwk payload signature) :=
  .bind (only_throwIf _ _) fun _ =>
    .bind (.recover (only_await rfl) fun _ => only_pure _) fun _ => only_throwIf _ _

theorem only_deviceSession (bearer : Option String) : PlainOnly (deviceSession bearer) :=
  .bind (only_orThrow _ _) fun _ => .bind (.recover (only_await rfl) fun _ => only_refuse _ _ _) fun _ =>
    .bind (only_orThrow _ _) fun _ => .bind (only_orThrow _ _) fun _ => .bind (only_await rfl) fun _ =>
      .bind (only_orThrow _ _) fun _ => .bind (only_throwIf _ _) fun _ => only_pure _

theorem only_authenticateClient (D : Deployment) (creds : Option Credentials) :
    PlainOnly (authenticateClient D creds) :=
  .bind (only_orThrow _ _) fun _ => .bind (only_await rfl) fun _ => .bind (only_orThrow _ _) fun _ =>
    .bind (only_orThrow _ _) fun _ => .bind (only_throwIf _ _) fun _ => .bind (only_throwIf _ _) fun _ =>
      only_pure _

theorem only_citizenForSubject (rpId : Uuid) (subject : String) :
    PlainOnly (citizenForSubject rpId subject) :=
  .bind (only_await rfl) fun _ => only_pure _

theorem only_clearToken (bindingId : String) : PlainOnly (clearToken bindingId) :=
  .bind only_newDate fun _ => only_await rfl

theorem only_wake (citizenId : Uuid) : PlainOnly (wake citizenId) := by
  refine .bind (.recover (only_await rfl) fun _ => only_pure _) fun targets =>
    .bind (Only.forEach (fun target => ?_) _) fun _ => only_pure _
  exact .recover (.bind (only_await rfl) fun _ => .onlyIf (only_clearToken _)) fun _ => only_pure _

theorem only_raiseDetection (d : AnomalyDetection) (ctx : AnomalyContext) :
    PlainOnly (raiseDetection d ctx) :=
  .bind (only_await rfl) fun _ => .onlyIf (only_auditAppend (by simp [AnomalyDetection.event]))

theorem only_countEvent (pattern : AnomalyPattern) (scopeKey : String) (threshold window : ℕ)
    (ctx : AnomalyContext) : PlainOnly (countEvent pattern scopeKey threshold window ctx) :=
  .bind (only_await rfl) fun _ => .bind (.onlyIf (only_await rfl)) fun _ =>
    .onlyIf (only_raiseDetection _ _)

theorem only_recordEnrolmentAttempt (D : Deployment) (ip nid : String) :
    PlainOnly (recordEnrolmentAttempt D ip nid) :=
  .ite (.recover (.bind (only_await rfl) fun _ => .bind (only_await rfl) fun _ =>
    .bind (only_await rfl) fun _ => .onlyIf (only_raiseDetection _ _)) fun _ => only_pure _)
    (only_pure _)

theorem only_recordAttestationRejection (D : Deployment) (ip code : String) :
    PlainOnly (recordAttestationRejection D ip code) :=
  .ite (.recover (only_countEvent _ _ _ _ _) fun _ => only_pure _) (only_pure _)

theorem only_onAuditEvent (D : Deployment) (event : AuditEventInput) :
    PlainOnly (onAuditEvent D event) := by
  refine .ite (.recover ?_ fun _ => only_pure _) (only_pure _)
  unfold countAuditEvent
  split
  · exact only_countEvent _ _ _ _ _
  · exact .ite (only_countEvent _ _ _ _ _) (only_pure _)
  · exact .ite (only_countEvent _ _ _ _ _) (only_pure _)
  · exact only_pure _

theorem only_verifyAttestation (D : Deployment) (a : AttestationInput) (jwk : PublicKeyJwk) :
    PlainOnly (verifyAttestation D a jwk) := by
  unfold verifyAttestation
  split
  · refine .bind (only_throwIf _ _) fun _ => .bind (only_orThrow _ _) fun _ =>
      .bind (.recover (only_consumeAttestationNonce _) fun _ => only_throwing _) fun _ =>
        .bind only_newDate fun _ => .bind (.recover (only_await rfl) fun _ => only_throwing _) fun r => ?_
    dsimp only
    split
    · exact only_throwing _
    · exact only_throwing _
    · exact only_pure _
  · refine .bind ?_ fun _ => .bind (only_orThrow _ _) fun claims => .bind ?_ fun _ =>
      .bind (only_throwIf _ _) fun _ => .bind (only_throwIf _ _) fun _ => only_pure _
    · unfold burnNonce
      split
      · exact .recover (.bind (only_consumeAttestationNonce _) fun _ => only_pure _)
          fun _ => only_pure _
      · exact only_pure _
    · unfold assertNotNull
      split
      · exact only_throwing _
      · exact only_pure _

theorem only_failEnrolment {α : Type} (nid : String) (reason : EnrolmentFailureReason)
    (ref : Option String) : PlainOnly (failEnrolment nid reason ref : H α) :=
  .bind (only_auditAppend (by simp)) fun _ => .bind (only_recordFailure _ _ _) fun _ =>
    only_refuse _ _ _

theorem only_enrolmentGates (D : Deployment) (req : EnrolStartRequest) (ip nid : String) :
    PlainOnly (enrolmentGates D req ip nid) := by
  refine .bind (only_recordEnrolmentAttempt _ _ _) fun _ => .bind (only_hit _ _ _) fun _ =>
    .bind (only_hit _ _ _) fun _ => .bind (only_assertNotLockedOut _ _) fun _ =>
      .bind (.recover (only_verifyAttestation _ _ _) fun err => ?_) fun _ =>
        .bind (only_throwIf _ _) fun _ => only_pure _
  refine .bind (only_auditAppend (by simp [attestationFailedEvent])) fun _ => .bind ?_ fun _ =>
    only_throwing _
  unfold countRejection
  split
  · exact only_recordAttestationRejection _ _ _
  · exact only_pure _

theorem only_matchAgainstReference (req : EnrolStartRequest) (nid : String) :
    PlainOnly (matchAgainstReference req nid) := by
  refine .bind (only_await rfl) fun answer => ?_
  cases answer with
  | unknownIdentity => exact only_failEnrolment _ _ _
  | unavailable => exact only_refuse _ _ _
  | ok reference =>
    exact .bind (only_await rfl) fun _ => .bind (only_auditAppend (by simp)) fun _ =>
      .ite (only_failEnrolment _ _ _) (only_pure _)

theorem only_proveLogin (req : LoginRequest) (binding : DeviceBinding) :
    PlainOnly (proveLogin req binding) :=
  .recover (.bind (only_consume _ _ _) fun _ => only_verifyDeviceSignature _ _ _) fun _ =>
    .bind (only_recordFailure _ _ _) fun _ =>
      .bind (only_auditAppend (by simp [loginFailedEvent])) fun _ => only_throwing _

/-! ## What the services leave on a path -/

section Services

variable {α : Type} {D : Deployment} {q : Request} {h h' : Path}

theorem SessionOn.mono {citizenId bindingId : String} (hs : h <:+ h')
    (hm : SessionOn h citizenId bindingId) : SessionOn h' citizenId bindingId := by
  obtain ⟨token, j, hj, hc⟩ := hm
  exact ⟨token, j, hs.mem hj, hc⟩

theorem ReadsRp.mono {rp : RelyingParty} (hs : h <:+ h') (hm : ReadsRp h rp) : ReadsRp h' rp := by
  obtain ⟨c, hc⟩ | ⟨i, hi⟩ := hm
  · exact .inl ⟨c, hs.mem hc⟩
  · exact .inr ⟨i, hs.mem hi⟩

/-- After the guard, the path has a session. -/
theorem thread_deviceSession {bearer : Option String} {Q : DeviceSession → Path → Prop}
    (hc : Calm q h) (hQ : ∀ s h', Calm q h' → h <:+ h' → SessionOn h' s.citizenId s.bindingId →
      Q s h') : Thread D q h (deviceSession bearer) Q := by
  simp only [deviceSession, thread_bind, thread_orThrow _ _ hc]
  intro token _
  rw [thread_await_recover]
  refine ⟨⟨trivial, hc.after _⟩, thread_throwing _ calm_failed, fun j => ?_⟩
  simp only [thread_orThrow, thread_plain, thread_throwIf, thread_pure, calm_cons]
  intro citizenId hsub bindingId hb row binding _ _
  exact hQ _ _ (calm_cons rfl) (by simp [List.suffix_cons_iff])
    ⟨token, j, by simp, hsub, hb⟩

/-- After client authentication, the path has the row of the relying party. -/
theorem thread_authenticateClient {creds : Option Credentials} {Q : RelyingParty → Path → Prop}
    (hc : Calm q h)
    (hQ : ∀ cr rp, creds = some cr → rp.status = .active →
      Q rp (⟨.rp (.selectByClientId cr.clientId), some (some rp)⟩ :: h)) :
    Thread D q h (authenticateClient D creds) Q := by
  simp only [authenticateClient, loadByClientId, thread_bind, thread_orThrow _ _ hc]
  intro cr hcreds
  simp only [thread_plain, hc, thread_orThrow, thread_throwIf, thread_pure, calm_cons]
  intro row rp hrow digest _ _ hactive
  subst hrow
  exact hQ cr rp hcreds (not_not.mp hactive)

/-- A challenge that is not one of a transaction can be issued anywhere. -/
theorem thread_issue {purpose : ChallengePurpose} {bindingId : String}
    {Q : IssuedChallenge → Path → Prop} (hc : Calm q h)
    (hQ : ∀ c h', Calm q h' → h <:+ h' → Q c h') : Thread D q h (issue D purpose bindingId) Q := by
  simp only [issue, thread_bind, thread_randomBytes, hc, calm_cons]
  intro challengeId nonce
  rw [thread_await]
  refine ⟨⟨⟨⟨h, rfl⟩, fun a ha => ?_⟩, (calm_cons rfl).after _⟩, fun _ => ?_⟩
  · exact absurd ha (purposeString_ne_cibaPurpose purpose a)
  · simp only [thread_newDate, calm_cons, thread_pure]
    intro t
    exact hQ _ _ (calm_cons rfl) (by simp [List.suffix_cons_iff])

/-- A challenge of a transaction is issued to a session. -/
theorem thread_issueCiba {bearer : Option String} {authReqId citizenId bindingId : String}
    {Q : IssuedCibaChallenge → Path → Prop} (hc : Calm (.pending bearer) h)
    (hs : SessionOn h citizenId bindingId)
    (hQ : ∀ c h', Calm (.pending bearer) h' → h <:+ h' → Q c h') :
    Thread D (.pending bearer) h (issueCiba D authReqId bindingId) Q := by
  simp only [issueCiba, thread_bind, thread_randomBytes, hc, calm_cons]
  intro challengeId nonce
  rw [thread_await]
  refine ⟨⟨⟨⟨h, rfl⟩, fun a _ => ⟨bearer, citizenId, rfl, hs.mono ?_⟩⟩, (calm_cons rfl).after _⟩,
    fun _ => ?_⟩
  · exact (List.suffix_cons _ _).trans (List.suffix_cons _ _)
  · simp only [thread_newDate, calm_cons, thread_pure]
    intro t
    exact hQ _ _ (calm_cons rfl) (by simp [List.suffix_cons_iff])

/-- The path after the row of a citizen who is active. -/
theorem calm_active {id : String} {c : Citizen} (hc : c.status = .active) :
    Calm q (⟨.citizen (.select id), some (some c)⟩ :: h) :=
  ⟨fun _ _ => hc, fun _ _ => .inl hc⟩

/-- The path after SDID has answered that an identity is valid. -/
theorem calm_valid {subject : String} {result : ReassertResult} (hr : result.valid = true) :
    Calm q (⟨.service (.reassert subject), some result⟩ :: h) :=
  ⟨fun _ hinvalid => by simp [hr] at hinvalid, fun _ => hr⟩

/-- Re-verification can refuse right after it has read the citizen. -/
theorem endsOn_cannotReassert {id : String} {row : Option Citizen} :
    EndsOn q (⟨.citizen (.select id), some row⟩ :: h) (.error cannotReassert) := by
  refine ⟨?_, trivial⟩
  cases row with
  | none => trivial
  | some c => exact fun _ => .inr rfl

theorem ReverifiesOn.mono {citizenId : String} (hs : h <:+ h') (hm : ReverifiesOn q h citizenId) :
    ReverifiesOn q h' citizenId := by
  cases q with
  | login body =>
    obtain ⟨binding, hb, hid⟩ := hm
    exact ⟨binding, hs.mem hb, hid⟩
  | decision bearer body => exact SessionOn.mono hs hm
  | _ => trivial

/-- Re-verification leaves a calm path when it lets the call go on. -/
theorem thread_reassertNow {citizenId bindingId trigger : String} {now : Time}
    {Q : ReassertOutcome → Path → Prop} (hc : Calm q h) (hid : ReverifiesOn q h citizenId)
    (hQ : ∀ o h', Calm q h' → h <:+ h' → Q o h') :
    Thread D q h (reassertNow citizenId bindingId trigger now) Q := by
  simp only [reassertNow, thread_bind]
  rw [thread_await]
  refine ⟨⟨hid, hc.after _⟩, fun row => ?_⟩
  simp only [thread_orThrow_of endsOn_cannotReassert, thread_throwIf_of endsOn_cannotReassert]
  rintro citizen rfl hactive subject _
  have hcalm := @calm_active q h citizenId _ (not_not.mp hactive)
  rw [thread_await]
  refine ⟨⟨trivial, hcalm.after _⟩, fun result => ?_⟩
  rw [thread_ite]
  constructor
  · intro hvalid
    simp only [thread_bind, thread_plain, thread_auditAppend_plain, calm_valid hvalid, calm_cons,
      thread_pure, ne_eq, reduceCtorEq, not_false_eq_true, and_self]
    intro _
    exact hQ _ _ (calm_cons rfl) (by simp [List.suffix_cons_iff])
  · intro hinvalid
    -- The suspension, the revocation, and their event, each right after the one before.
    rw [thread_bind, thread_await]
    refine ⟨⟨⟨_, _, _, rfl, by simpa using hinvalid⟩, fun _ => ⟨_, _, _, _, rfl, rfl⟩⟩, fun _ => ?_⟩
    rw [thread_bind, thread_await]
    refine ⟨⟨⟨_, _, rfl, _, _, _, rfl, by simpa using hinvalid⟩, ⟨_, _, rfl⟩⟩, fun _ => ?_⟩
    rw [thread_bind, thread_auditAppend]
    refine ⟨⟨by simp [Follows, AuditsOn, reassertInvalidEvent], ⟨_, _, _, rfl⟩⟩, ?_⟩
    exact thread_throwing _ (calm_cons rfl)

theorem thread_reassertIfDue {citizenId trigger : String} {binding : DeviceBinding} {force : Bool}
    {Q : ReassertOutcome → Path → Prop} (hc : Calm q h) (hid : ReverifiesOn q h citizenId)
    (hQ : ∀ o h', Calm q h' → h <:+ h' → Q o h') :
    Thread D q h (reassertIfDue D citizenId binding force trigger) Q := by
  simp only [reassertIfDue, thread_bind, thread_newDate, hc, thread_ite, thread_pure]
  refine fun t => ⟨fun _ => ?_, fun _ => hQ _ _ (calm_cons rfl) (List.suffix_cons _ _)⟩
  exact thread_reassertNow (calm_cons rfl) (hid.mono (List.suffix_cons _ _)) fun o h' hc' hs => hQ o h' hc'
    ((List.suffix_cons _ _).trans hs)

/-- The path has no signature on it. -/
def NoSignature (h : Path) : Prop :=
  ∀ claims aud ttl r, (⟨.jwt (.sign claims aud ttl), r⟩ : Cmd) ∉ h

/-- An approval re-asserts the identity if it has to; a denial does not. -/
theorem thread_reassertForApproval {d : Decision} {txn : AuthTransaction} {binding : DeviceBinding}
    {Q : Unit → Path → Prop} (hc : Calm q h) (hid : ReverifiesOn q h txn.citizenId.text)
    (hQ : ∀ h', Calm q h' → h <:+ h' → Q () h') :
    Thread D q h (onlyIf (d = .approve) (reassertForApproval D txn binding)) Q := by
  rw [thread_onlyIf]
  refine ⟨fun _ => ?_, fun _ => hQ h hc List.suffix_rfl⟩
  simp only [reassertForApproval, thread_bind, thread_pure]
  exact thread_reassertIfDue hc hid fun _ h' hc' hs => hQ h' hc' hs

/-- After a subject was asked for, it is the stored one or the derived one. -/
theorem thread_subjectFor {citizenId : Uuid} {rp : RelyingParty} {Q : String → Path → Prop}
    (hc : Calm q h) (hrp : ReadsRp h rp)
    (hQ : ∀ sub h', Calm q h' → h <:+ h' → (NoSignature h → NoSignature h') →
      SubjectOn D h' citizenId rp sub → Q sub h') :
    Thread D q h (subjectFor D citizenId rp.id rp.pairwiseSalt) Q := by
  simp only [subjectFor, thread_bind, thread_plain, hc]
  intro row
  cases row with
  | some row =>
    exact hQ _ _ (calm_cons rfl) (List.suffix_cons _ _) (fun hn => by simpa [NoSignature] using hn)
      (.inl ⟨row, List.mem_cons_self, rfl⟩)
  | none =>
    simp only [thread_bind, thread_pure]
    rw [thread_await]
    refine ⟨⟨⟨rp, hrp.mono (List.suffix_cons _ _), rfl, rfl⟩, (calm_cons rfl).after _⟩, fun _ => ?_⟩
    exact hQ _ _ (calm_cons rfl) (by simp [List.suffix_cons_iff])
      (fun hn => by simpa [NoSignature] using hn) (.inr rfl)

/-- A token set is minted after what its grant has done. -/
theorem thread_mint {creds : Option Credentials} {body : TokenRequest} {rp : RelyingParty}
    {citizenId : Uuid} {scopes : List String} {acr : AssuranceLevel} {authTime : Time}
    {nonce : Option String} {Q : TokenResponse → Path → Prop} (hc : Calm (.token creds body) h)
    (hrp : ReadsRp h rp) (hn : NoSignature h)
    (hgrant : ∀ sub h', h <:+ h' → SubjectOn D h' citizenId rp sub →
      CibaMintOn D h' body sub acr ∨ CodeMintOn D h' body sub acr)
    (hQ : ∀ r h', Calm (.token creds body) h' → h <:+ h' → Q r h') :
    Thread D (.token creds body) h (mint D rp citizenId scopes acr authTime nonce) Q := by
  simp only [mint, thread_bind]
  refine thread_subjectFor hc hrp fun sub h₁ hc₁ hs₁ hn₁ hsub => ?_
  rw [thread_await]
  refine ⟨⟨⟨rfl, fun _ _ _ _ hm => absurd hm (hn₁ hn _ _ _ _), sub, acr, rfl, rfl,
    hgrant sub h₁ hs₁ hsub⟩, hc₁.after _⟩, fun idToken => ?_⟩
  rw [thread_await]
  have hs₂ := List.suffix_cons (⟨.jwt (.sign (idTokenClaims sub acr authTime nonce) rp.clientId
    D.config.ID_TOKEN_TTL_SECONDS), some idToken⟩ : Cmd) h₁
  have hsub₂ : SubjectOn D _ citizenId rp sub := hsub.imp_left fun hread => hread.imp fun row hrow =>
    ⟨hs₂.mem hrow.1, hrow.2⟩
  refine ⟨⟨⟨rfl, fun claims' _ _ _ hm => ?_, sub, acr, rfl, rfl,
    hgrant sub _ (hs₁.trans hs₂) hsub₂⟩, (calm_cons rfl).after _⟩, fun accessToken => ?_⟩
  · -- The one signature on the path is that of the id token, which has no use.
    rcases List.mem_cons.mp hm with heq | hm
    · simp only [Act.mk.injEq, Op.jwt.injEq, JwtOp.sign.injEq] at heq
      obtain ⟨⟨rfl, -, -⟩, -⟩ := heq
      simp [idTokenClaims, accessTokenClaims]
    · exact absurd hm (hn₁ hn _ _ _ _)
  · exact hQ _ _ (calm_cons rfl) ((hs₁.trans hs₂).trans (List.suffix_cons _ _))

end Services

/-! ## The handlers -/

section Handlers

variable {D : Deployment} {q : Request} {h : Path}

theorem Calm.returns {r : Reply} (hc : Calm q h) (hr : ∀ status, r ≠ .decided status) :
    EndsOn q h (.ok r) := by
  refine ⟨hc.last _, ?_⟩
  cases r with
  | decided status => exact absurd rfl (hr status)
  | _ => trivial

/-- The paths of a request are as they have to be. -/
def Sound (D : Deployment) (q : Request) : Prop :=
  Thread D q [] (handler D q) fun r h => EndsOn q h (.ok r)

/-- A call that leaves a calm path may return anything but a decision. -/
theorem sound_reply {α : Type} {p : H α} {f : α → Reply} (hf : ∀ a status, f a ≠ .decided status)
    (hp : Thread D q [] p fun _ h => Calm q h) :
    Thread D q [] (p.reply f) fun r h => EndsOn q h (.ok r) := by
  simp only [H.reply, thread_bind, thread_pure]
  exact hp.mono fun a h hc => hc.returns (hf a)

theorem sound_plain {α : Type} {p : H α} {f : α → Reply} (hf : ∀ a status, f a ≠ .decided status)
    (hp : PlainOnly p) : Thread D q [] (p.reply f) fun r h => EndsOn q h (.ok r) :=
  sound_reply hf (Only.thread hp calm_nil fun _ _ hc _ => hc)

theorem sound_attestationChallenge (ip : String) : Sound D (.attestationChallenge ip) :=
  sound_plain (by simp) (.bind (only_hit _ _ _) fun _ =>
    .bind (.bind (only_randomBytes _ _) fun _ => .bind (only_randomBytes _ _) fun _ =>
      .bind (only_await rfl) fun _ => .bind only_newDate fun _ => only_pure _) fun _ =>
    .bind (only_auditAppend (by simp)) fun _ => only_pure _)

theorem sound_enrolStart (body : EnrolStartRequest) (ip : String) : Sound D (.enrolStart body ip) := by
  refine sound_reply (by simp) ?_
  simp only [start, thread_bind, thread_throwIf, calm_nil]
  intro _
  refine Only.thread (only_enrolmentGates _ _ _ _) calm_nil fun verdict h₁ hc₁ _ => ?_
  refine Only.thread (only_matchAgainstReference _ _) hc₁ fun outcome h₂ hc₂ _ => ?_
  simp only [bindDevice, thread_bind, thread_uuidv7, thread_newDate, thread_plain, thread_ite, hc₂,
    calm_cons]
  intro newId updatedAt citizenId count
  constructor
  · intro _
    rw [thread_auditAppend_plain (by simp) (calm_cons rfl)]
    exact thread_throwing _ (calm_cons rfl)
  · intro hcount bindingId
    rw [thread_await]
    refine ⟨⟨⟨count, _, rfl, not_le.mp hcount⟩, (calm_cons rfl).after _⟩, fun _ => ?_⟩
    rw [thread_auditAppend_plain (by simp) (calm_cons rfl)]
    exact thread_issue (calm_cons rfl) fun _ _ hc _ => hc

theorem sound_enrolActivate (body : EnrolActivateRequest) : Sound D (.enrolActivate body) := by
  refine sound_reply (by simp) ?_
  simp only [activate, thread_bind, thread_throwIf, thread_plain, thread_orThrow, calm_nil, calm_cons]
  rintro _ row binding rfl _
  refine Only.thread (only_consume _ _ _) (calm_cons rfl) fun payload h₁ hc₁ hs₁ => ?_
  refine Only.thread (only_verifyDeviceSignature _ _ _) hc₁ fun _ h₂ hc₂ hs₂ => ?_
  simp only [thread_newDate, hc₂]
  intro t
  rw [thread_await]
  refine ⟨⟨trivial, (calm_cons rfl).after _⟩, fun _ => ?_⟩
  rw [thread_auditAppend]
  refine ⟨⟨by simp [Follows, AuditsOn, bindingActivatedEvent], binding, ?_, rfl⟩, calm_cons rfl⟩
  exact List.mem_cons_of_mem _ ((hs₁.trans hs₂).mem List.mem_cons_self)

theorem sound_loginChallenge (bindingId : String) : Sound D (.loginChallenge bindingId) := by
  refine sound_reply (by simp) ?_
  simp only [issueLoginChallenge, loadBinding, assertActive, thread_bind, thread_throwIf, thread_plain,
    thread_orThrow, calm_nil, calm_cons]
  intro _ row binding _ _
  refine Only.thread (only_assertNotLockedOut _ _) (calm_cons rfl) fun _ h₁ hc₁ _ => ?_
  refine thread_issue hc₁ fun challenge h₂ hc₂ _ => ?_
  rw [thread_auditAppend_plain (by simp) hc₂]
  exact calm_cons rfl

theorem sound_login (body : LoginRequest) : Sound D (.login body) := by
  refine sound_reply (by simp) ?_
  simp only [login, loadBinding, assertActive, thread_bind, thread_throwIf, thread_plain,
    thread_orThrow, calm_nil, calm_cons]
  rintro _ row binding rfl _
  refine Only.thread (only_proveLogin _ _) (calm_cons rfl) fun _ h₁ hc₁ hs₁ => ?_
  refine Only.thread (p := clearFailures _) (only_await rfl) hc₁ fun _ h₂ hc₂ hs₂ => ?_
  refine thread_reassertIfDue hc₂ ⟨binding, (hs₁.trans hs₂).mem List.mem_cons_self, rfl⟩
    fun _ h₃ hc₃ hs₃ => ?_
  simp only [thread_newDate, hc₃, thread_plain, calm_cons]
  intro now _
  rw [thread_auditAppend_plain (by simp) (calm_cons rfl), thread_await]
  refine ⟨⟨⟨binding, ?_, rfl⟩, (calm_cons rfl).after _⟩, fun _ => calm_cons rfl⟩
  simp only [ReadsBinding, List.mem_cons]
  exact .inr (.inr (.inr (((hs₁.trans hs₂).trans hs₃).mem List.mem_cons_self)))

theorem sound_revokeBinding (bearer : Option String) (bindingId : String) (reason : Option String) :
    Sound D (.revokeBinding bearer bindingId reason) := by
  refine sound_reply (by simp) ?_
  simp only [revokeBinding, thread_bind]
  refine Only.thread (only_deviceSession _) calm_nil fun session h₁ hc₁ _ => ?_
  simp only [thread_throwIf, thread_plain, thread_orThrow, thread_ite, thread_newDate, thread_pure,
    thread_bind, hc₁, calm_cons]
  intro _ row binding _ _
  refine ⟨fun _ => trivial, fun _ now => ?_⟩
  rw [thread_await]
  refine ⟨⟨trivial, (calm_cons rfl).after _⟩, fun _ => ?_⟩
  rw [thread_auditAppend]
  exact ⟨⟨by simp [Follows, AuditsOn, deviceRevokedEvent], session.citizenId, rfl⟩, calm_cons rfl⟩

theorem sound_registerPushToken (bearer : Option String) (platform : PushPlatform) (token : String) :
    Sound D (.registerPushToken bearer platform token) :=
  sound_plain (by simp) (.bind (only_deviceSession _) fun _ => .bind (only_throwIf _ _) fun _ =>
    .bind only_newDate fun _ => only_await rfl)

theorem sound_removePushToken (bearer : Option String) : Sound D (.removePushToken bearer) :=
  sound_plain (by simp) (.bind (only_deviceSession _) fun _ => only_clearToken _)

theorem sound_recordGrant (citizenId rpId : String) (scopes : List String) (source : String) :
    Sound D (.recordGrant citizenId rpId scopes source) := by
  refine sound_reply (by simp) ?_
  simp only [recordGrant, thread_bind, thread_uuidv7, calm_nil]
  intro id
  rw [thread_await]
  refine ⟨⟨trivial, (calm_cons rfl).after _⟩, fun _ => ?_⟩
  rw [thread_auditAppend]
  exact ⟨⟨by simp [Follows, AuditsOn, consentGrantedEvent], _, rfl⟩, calm_cons rfl⟩

theorem sound_revokeConsent (bearer : Option String) (consentId : String) :
    Sound D (.revokeConsent bearer consentId) := by
  refine sound_reply (by simp) ?_
  simp only [revokeConsent, thread_bind]
  refine Only.thread (only_deviceSession _) calm_nil fun session h₁ hc₁ _ => ?_
  simp only [thread_throwIf, thread_plain, thread_orThrow, thread_ite, thread_newDate, thread_pure,
    thread_bind, hc₁, calm_cons]
  intro _ row grant _
  refine ⟨fun _ => trivial, fun _ now => ?_⟩
  rw [thread_await]
  refine ⟨⟨trivial, (calm_cons rfl).after _⟩, fun _ => ?_⟩
  rw [thread_auditAppend]
  exact ⟨⟨by simp [Follows, AuditsOn, consentRevokedEvent], session.citizenId, _, rfl⟩, calm_cons rfl⟩

theorem sound_bcAuthorize (creds : Option Credentials) (body : BcAuthorizeRequest) :
    Sound D (.bcAuthorize creds body) := by
  refine sound_reply (by simp) ?_
  simp only [bcAuthorize, thread_bind, thread_throwIf, calm_nil]
  intro _
  refine thread_authenticateClient calm_nil fun cr rp _ hactive => ?_
  refine Only.thread (only_hit _ _ _) (calm_cons rfl) fun _ h₁ hc₁ hs₁ => ?_
  simp only [citizenForSubject, thread_bind, thread_throwIf, thread_orThrow, thread_plain, thread_pure,
    thread_randomBytes, thread_uuidv7, thread_newDate, hc₁, calm_cons, not_or, Bool.not_eq_false]
  intro hflow hscopes hmeets row citizenId _ bindings _ authReqId id now
  rw [thread_await]
  -- What the policy admits stands on the path: the row of the relying party, and the request id.
  have hrp : ReadsRp h₁ rp := .inl ⟨cr.clientId, hs₁.mem List.mem_cons_self⟩
  refine ⟨⟨⟨by simp, rp, hrp.mono (by simp [List.suffix_cons_iff]), rfl, hactive, not_not.mp hflow,
    hscopes.2, rfl, rfl, hmeets⟩, (calm_cons rfl).after _⟩, fun _ => ?_⟩
  refine Only.thread (only_wake _) (calm_cons rfl) fun _ h₂ hc₂ _ => ?_
  rw [thread_auditAppend_plain (by simp) hc₂]
  exact calm_cons rfl

theorem sound_pending (bearer : Option String) : Sound D (.pending bearer) := by
  refine sound_reply (by simp) ?_
  simp only [pending, thread_bind]
  refine thread_deviceSession calm_nil fun session h₁ hc₁ _ hsession => ?_
  simp only [thread_newDate, thread_plain, thread_ite, thread_pure, thread_bind, hc₁, calm_cons]
  refine fun now txns => ⟨fun _ => trivial, fun _ rps => ?_⟩
  -- The loop keeps a calm path on which the session still stands.
  let I : Path → Prop := fun h => Calm (.pending bearer) h ∧
    SessionOn h session.citizenId session.bindingId
  refine Thread.mono (Q := fun _ h => I h) ?_ fun _ _ hI => hI.1
  refine thread_forEach ?_ ?_
  · rintro p _ h ⟨hc, hs⟩
    simp only [pendingOne, thread_bind, thread_pure]
    exact thread_issueCiba hc hs fun _ h' hc' hs' => ⟨hc', hs.mono hs'⟩
  · exact ⟨calm_cons rfl, hsession.mono (by simp [List.suffix_cons_iff])⟩

/-- After a signature was accepted, the check stands on the path. -/
theorem thread_verifyDeviceSignature {jwk : PublicKeyJwk} {payload signature : String}
    {Q : Unit → Path → Prop} (hc : Calm q h)
    (hQ : Q () (⟨.service (.verifySignature jwk payload signature), some true⟩ :: h)) :
    Thread D q h (verifyDeviceSignature jwk payload signature) Q := by
  simp only [verifyDeviceSignature, thread_bind, thread_throwIf, hc]
  intro _
  rw [thread_await_recover]
  refine ⟨⟨trivial, hc.after _⟩, ?_, fun ok => ?_⟩
  · simp
  · rw [thread_throwIf _ _ (calm_cons rfl)]
    cases ok with
    | true => exact fun _ => hQ
    | false => exact fun hne => absurd rfl hne

theorem sound_decision (bearer : Option String) (body : CibaDecisionRequest) :
    Sound D (.decision bearer body) := by
  simp only [Sound, handler, H.reply, decision, thread_bind]
  refine thread_deviceSession calm_nil fun session h₁ hc₁ _ hsession => ?_
  simp only [thread_throwIf, thread_newDate, thread_plain, thread_orThrow, hc₁, calm_cons, not_or,
    not_not]
  rintro _ now txnRow txn rfl ⟨hpending, -, hcitizen, hbinding⟩ bindingRow binding rfl hactive hmeets
  have hsession₁ : SessionOn ([⟨.binding (.select session.bindingId), some (some binding)⟩,
      ⟨.txn (.select body.authReqId), some (some txn)⟩, ⟨.ambient .now, some now⟩] ++ h₁)
      txn.citizenId.text body.bindingId := by
    rw [hcitizen, hbinding]
    exact hsession.mono (List.suffix_append _ h₁)
  refine thread_reassertForApproval (calm_cons rfl) hsession₁ fun h₂ hc₂ hs₂ => ?_
  -- What was read stands on the path, whether or not the identity was re-asserted.
  have hsession₂ : SessionOn h₂ txn.citizenId.text body.bindingId := hsession₁.mono hs₂
  have htxn₂ : ReadsTxn h₂ body.authReqId txn := hs₂.mem (by simp)
  have hbinding₂ : ReadsBinding h₂ body.bindingId binding := hs₂.mem (by simp [hbinding])
  simp only [consumeCiba, thread_bind, thread_plain, thread_orThrow, thread_throwIf, thread_pure, hc₂,
    calm_cons, not_or, not_not]
  rintro raw record rfl ⟨hpurpose, hrecord⟩
  refine thread_verifyDeviceSignature (calm_cons rfl) ?_
  have hs₃ : h₂ <:+ _ :=
    (List.suffix_cons (⟨.challenge (.getdel body.challengeId), some (some record)⟩ : Cmd) h₂).trans
      (List.suffix_cons (⟨.service (.verifySignature binding.devicePubkeyJwk (buildChallengePayload
        (body.decision.purpose body.authReqId) body.challengeId record.nonce) body.signature),
        some true⟩ : Cmd) _)
  rw [thread_await]
  refine ⟨⟨⟨bearer, body, txn, binding, rfl, ⟨hsession₂.mono hs₃, hs₃.mem htxn₂, hs₃.mem hbinding₂,
    hactive, by simpa using hmeets, record, by simp, hpurpose, hrecord, by simp⟩, rfl, rfl, rfl⟩,
    (calm_cons rfl).after _⟩, fun n => ?_⟩
  rw [thread_auditAppend]
  refine ⟨⟨fun _ => ⟨bearer, body, _, _, _, _, n, _, rfl, ?_, rfl⟩,
    body.authReqId, txn, binding, hs₃.mem htxn₂, rfl, rfl, rfl⟩, ?_⟩
  · cases hd : body.decision <;> rfl
  simp only [thread_plain, calm_cons]
  exact fun _ => ⟨(calm_cons rfl).last _, bearer, body, _, _, _, _, n, rfl, rfl, by simp⟩

/-- A poll that finds its transaction expired audits it if it marked it. -/
theorem thread_markExpired {α : Type} {authReqId : String} {rp : RelyingParty} {txn : AuthTransaction}
    {Q : α → Path → Prop} (hc : Calm q h) (htxn : ReadsTxn h authReqId txn) (hown : txn.rpId = rp.id) :
    Thread D q h (markExpired rp txn) Q := by
  simp only [markExpired, thread_bind]
  rw [thread_await]
  refine ⟨⟨trivial, hc.after _⟩, fun n => ?_⟩
  rw [thread_onlyIf]
  refine ⟨fun hn => ?_, fun hn => ⟨?_, trivial⟩⟩
  · rw [thread_auditAppend]
    refine ⟨⟨by simp [Follows, AuditsOn, requestExpiredEvent], fun _ => ?_⟩, ?_⟩
    · exact ⟨authReqId, rp, txn, htxn, rfl, hown, rfl⟩
    · exact thread_throwing _ (calm_cons rfl)
  · exact Nat.eq_zero_of_not_pos hn

/-- The binding of a transaction is read from its row. -/
theorem thread_approvingBinding {deviceBindingId : Option Uuid}
    {Q : Option DeviceBinding → Path → Prop} (hc : Calm q h) (hnone : deviceBindingId = none → Q none h)
    (hsome : ∀ id row, deviceBindingId = some id →
      Q row (⟨.binding (.select id.text), some row⟩ :: h)) :
    Thread D q h (approvingBinding deviceBindingId) Q := by
  cases deviceBindingId with
  | none => exact hnone rfl
  | some id =>
    simp only [approvingBinding, thread_plain, hc]
    exact fun row => hsome id row rfl

theorem ConsumesOn.mono {h' : Path} {authReqId : String} {txn : AuthTransaction}
    {binding : DeviceBinding} (hs : h <:+ h') (hm : ConsumesOn h authReqId txn binding) :
    ConsumesOn h' authReqId txn binding := by
  obtain ⟨hread, happroved, ⟨id, hid, hb⟩, n, hn, hc⟩ := hm
  exact ⟨hs.mem hread, happroved, ⟨id, hid, hs.mem hb⟩, n, hn, hs.mem hc⟩

/-- The CIBA grant mints after it has consumed its approved transaction. -/
theorem thread_cibaGrantOf {creds : Option Credentials} {body : TokenRequest} {rp : RelyingParty}
    {authReqId : String} {txn : AuthTransaction} (hc : Calm (.token creds body) h)
    (hgrant : body.grant_type = CIBA_GRANT_TYPE) (hid : body.auth_req_id = some authReqId)
    (hrp : ReadsRp h rp) (htxn : ReadsTxn h authReqId txn) (hown : txn.rpId = rp.id)
    (hn : NoSignature h) :
    Thread D (.token creds body) h (cibaGrantOf D rp txn) fun _ h' => Calm (.token creds body) h' := by
  simp only [cibaGrantOf, thread_bind, thread_newDate, hc, thread_ite]
  refine fun now => ⟨fun _ => thread_markExpired (calm_cons rfl) (List.mem_cons_of_mem _ htxn) hown,
    fun _ => ?_⟩
  simp only [thread_throwIf, calm_cons, not_not]
  intro _ _ _ happroved
  refine thread_approvingBinding (calm_cons rfl) (fun _ => ?_) fun id row hbid => ?_
  · simp
  simp only [thread_orThrow, thread_plain, thread_throwIf, calm_cons]
  rintro binding rfl n hn0
  -- The transaction is consumed; everything that the grant rests on stands on the path.
  have hconsumes : ConsumesOn (⟨.txn (.consume txn.id), some n⟩ ::
      ⟨.binding (.select id.text), some (some binding)⟩ :: ⟨.ambient .now, some now⟩ :: h)
      authReqId txn binding :=
    ⟨List.mem_cons_of_mem _ (List.mem_cons_of_mem _ (List.mem_cons_of_mem _ htxn)), happroved,
      ⟨id, hbid, by simp [ReadsBinding]⟩, n, hn0, by simp⟩
  have hrp' := hrp.mono (List.suffix_append [(⟨.txn (.consume txn.id), some n⟩ : Cmd),
      ⟨.binding (.select id.text), some (some binding)⟩, ⟨.ambient .now, some now⟩] h)
  refine thread_mint (calm_cons rfl) hrp' (by simpa [NoSignature] using hn) ?_ fun _ h₂ hc₂ _ => ?_
  · intro sub h' hs hsub
    exact .inl ⟨hgrant, rp, authReqId, txn, binding, hrp'.mono hs, hid, hconsumes.mono hs, hown, rfl,
      hsub⟩
  simp only [thread_uuidv7, hc₂]
  intro consentId
  rw [thread_await]
  refine ⟨⟨trivial, (calm_cons rfl).after _⟩, fun _ => ?_⟩
  rw [thread_auditAppend]
  refine ⟨⟨by simp [Follows, AuditsOn, consentGrantedEvent], _, rfl⟩, ?_⟩
  rw [thread_auditAppend_plain (by simp) (calm_cons rfl)]
  exact calm_cons rfl

/-- The time of an approval is known, or is read from the clock. -/
theorem thread_resolvedOrNow {row : AuthTransaction} {Q : Time → Path → Prop} (hc : Calm q h)
    (hQ : ∀ t h', Calm q h' → h <:+ h' → (NoCode h → NoCode h') → Q t h') :
    Thread D q h (resolvedOrNow row) Q := by
  unfold resolvedOrNow
  split
  · exact hQ _ h hc List.suffix_rfl id
  · rw [thread_newDate hc]
    exact fun t => hQ t _ (calm_cons rfl) (List.suffix_cons _ _) fun hn => by simpa [NoCode] using hn

/-- A poll inserts its code after it has consumed its approved transaction. -/
theorem thread_issueCode {authReqId : String} {row : AuthTransaction} {stash : CodeFlowStash}
    {binding : DeviceBinding} {now : Time} {id : Uuid}
    (hc : Calm (.authorizePoll (some authReqId)) h) (htxn : ReadsTxn h authReqId row)
    (happroved : row.status = .approved) (hflow : row.flow = .code)
    (hstash : (⟨.stash (.get authReqId), some (some stash)⟩ : Cmd) ∈ h)
    (hbid : row.deviceBindingId = some id) (hbinding : ReadsBinding h id.text binding)
    (hn : NoCode h) :
    Thread D (.authorizePoll (some authReqId)) h (issueCode D authReqId row stash binding now)
      fun _ h' => Calm (.authorizePoll (some authReqId)) h' := by
  simp only [issueCode, thread_bind, thread_plain, thread_ite, thread_pure, thread_randomBytes, hc,
    calm_cons]
  refine fun n => ⟨fun _ => trivial, fun hn0 code => ?_⟩
  refine thread_resolvedOrNow (calm_cons rfl) fun authTime h₁ hc₁ hs₁ hn₁ => ?_
  rw [thread_await]
  refine ⟨⟨⟨hn₁ (by simpa [NoCode] using hn), authReqId, row, binding, rfl, ⟨?_, happroved,
    ⟨id, hbid, ?_⟩, n, hn0, ?_⟩, rfl, rfl, rfl, rfl, hflow, stash, ?_, rfl, rfl⟩, hc₁.after _⟩,
    fun _ => ?_⟩
  · exact hs₁.mem (by simp [show _ ∈ h from htxn])
  · exact hs₁.mem (by simp [show _ ∈ h from hbinding])
  · exact hs₁.mem (by simp)
  · exact hs₁.mem (by simp [hstash])
  · simp only [thread_plain, calm_cons]
    intro _
    rw [thread_auditAppend_plain (by simp) (calm_cons rfl)]
    exact calm_cons rfl

theorem truthy_eq_some {x : Option String} {s : String} (hx : truthy x = some s) : x = some s := by
  simp only [truthy, Option.filter_eq_some_iff] at hx
  exact hx.1

/-- A redemption mints after it has consumed its code. -/
theorem thread_codeGrant {creds : Option Credentials} {body : TokenRequest} {rp : RelyingParty}
    (hc : Calm (.token creds body) h) (hgrant : body.grant_type = "authorization_code")
    (hrp : ReadsRp h rp) (hn : NoSignature h) :
    Thread D (.token creds body) h (codeGrant D rp body) fun _ h' => Calm (.token creds body) h' := by
  simp only [codeGrant, thread_bind, thread_orThrow, thread_plain, thread_newDate, thread_throwIf, hc,
    calm_cons, not_or, not_not]
  rintro code hcode redirectUri huri verifier hverifier found now row rfl ⟨hown, -, -, rfl, hpkce⟩ n hn0
  have hrp' := hrp.mono (List.suffix_append [(⟨.code (.consume row.codeHash now), some n⟩ : Cmd),
    ⟨.ambient .now, some now⟩, ⟨.code (.select (D.sha256Hex code)), some (some row)⟩] h)
  refine thread_mint (calm_cons rfl) hrp' (by simpa [NoSignature] using hn) ?_ fun _ h₂ hc₂ _ => ?_
  · intro sub h' hs hsub
    exact .inr ⟨hgrant, rp, code, row, hrp'.mono hs, truthy_eq_some hcode, hs.mem (by simp),
      ⟨now, n, hn0, hs.mem (by simp)⟩, hown, rfl, hsub, truthy_eq_some huri, verifier,
      truthy_eq_some hverifier, hpkce⟩
  rw [thread_auditAppend_plain (by simp) hc₂]
  exact calm_cons rfl

theorem sound_token (creds : Option Credentials) (body : TokenRequest) : Sound D (.token creds body) := by
  refine sound_reply (by simp) ?_
  simp only [token, thread_bind]
  refine thread_authenticateClient calm_nil fun cr rp _ _ => ?_
  have hrp : ReadsRp [⟨.rp (.selectByClientId cr.clientId), some (some rp)⟩] rp :=
    .inl ⟨cr.clientId, List.mem_singleton_self _⟩
  simp only [thread_ite]
  refine ⟨fun hgrant => ?_, fun _ => ⟨fun hgrant => ?_, fun _ => thread_throwing _ (calm_cons rfl)⟩⟩
  · simp only [cibaGrant, thread_bind, thread_orThrow, thread_plain, thread_throwIf, calm_cons, not_not]
    rintro authReqId hid row txn rfl hown
    exact thread_cibaGrantOf (calm_cons rfl) hgrant (truthy_eq_some hid)
      (hrp.mono (List.suffix_cons _ _)) List.mem_cons_self hown (by simp [NoSignature])
  · exact thread_codeGrant (calm_cons rfl) hgrant hrp (by simp [NoSignature])

theorem sound_userinfo (bearer : Option String) : Sound D (.userinfo bearer) := by
  refine sound_reply (by simp) ?_
  simp only [userinfo, loadByClientId, citizenForSubject, thread_bind, thread_orThrow, calm_nil]
  intro token _
  rw [thread_await_recover]
  refine ⟨⟨trivial, trivial⟩, thread_throwing _ calm_failed, fun j => ?_⟩
  simp only [thread_throwIf, thread_plain, thread_orThrow, thread_pure, calm_cons]
  intro _ revoked _ clientId _ sub _ row rp _ resolved citizenId _
  rw [thread_await]
  refine ⟨⟨trivial, (calm_cons rfl).after _⟩, fun citizenRow => ?_⟩
  -- This endpoint does not re-verify, and goes on whatever the citizen's status is.
  have hcalm : ∀ h, Calm (.userinfo bearer)
      (⟨.citizen (.select (Uuid.text citizenId)), some citizenRow⟩ :: h) := by
    intro h
    cases citizenRow <;>
      exact calm_of_last (r := .error .internal) rfl (by simp [LastOn, Last, Request.reverifies])
  simp only [thread_throwIf, thread_plain, thread_orThrow, calm_cons, hcalm]
  intro citizen _ grants _
  refine Only.thread (p := releasedAttributes citizen _) ?_ (calm_cons rfl) fun _ _ hc _ => hc
  unfold releasedAttributes
  split
  · refine .ite (.bind (.recover (only_await rfl) fun _ => only_refuse _ _ _) fun answer => ?_)
      (only_pure _)
    cases answer with
    | ok attrs => exact only_pure _
    | unknownIdentity => exact only_pure _
    | unavailable => exact only_refuse _ _ _
  · exact only_pure _

theorem sound_introspect (creds : Option Credentials) (token : Option String) :
    Sound D (.introspect creds token) := by
  refine sound_plain (by simp) (.bind (only_authenticateClient _ _) fun _ => ?_)
  cases truthy token with
  | none => exact only_pure _
  | some token =>
    exact .recover (.bind (only_await rfl) fun _ => .bind (only_await rfl) fun _ =>
      .ite (only_pure _) (only_pure _)) fun _ => only_pure _

theorem sound_revoke (creds : Option Credentials) (token : Option String) :
    Sound D (.revoke creds token) := by
  refine sound_reply (by simp) ?_
  simp only [revoke, thread_bind]
  refine thread_authenticateClient calm_nil fun cr rp hcreds _ => ?_
  subst hcreds
  cases hpayload : (truthy token).bind D.decodeJwt with
  | none => exact calm_cons rfl
  | some payload =>
    refine thread_recover rfl ?_ fun _ _ hc => hc
    unfold denyToken
    split
    · exact calm_cons rfl
    · rename_i jti hjti
      simp only [thread_ite, thread_bind, thread_newDate, calm_cons]
      refine ⟨fun haud now => ?_, fun _ => calm_cons rfl⟩
      rw [thread_await]
      refine ⟨⟨⟨cr, token, payload, rp, jti, now, _, rfl, hpayload, by simp, hjti, haud, rfl, rfl, rfl⟩,
        (calm_cons rfl).after _⟩, fun _ => ?_⟩
      rw [thread_auditAppend_plain (by simp) (calm_cons rfl)]
      exact calm_cons rfl

/-- The level that an authorization request asks for: it was compared, or it is the default. -/
theorem thread_requestedLevel {rp : RelyingParty} {acrValues : Option String}
    {Q : AssuranceLevel → Path → Prop} (hc : Calm q h)
    (hQ : ∀ al, (acrValues = none ∧ al = .AL2 ∨
      acrValues ≠ none ∧ alMeets rp.maxAssurance al = true) → Q al h) :
    Thread D q h (requestedLevel rp acrValues) Q := by
  cases acrValues with
  | none => exact hQ _ (.inl ⟨rfl, rfl⟩)
  | some s =>
    simp only [requestedLevel, thread_bind, thread_orThrow, thread_throwIf, thread_pure, hc,
      Bool.not_eq_false]
    intro level _ hmeets
    exact hQ level (.inr ⟨by simp, hmeets⟩)

theorem sound_authorize (query : AuthorizeRequest) : Sound D (.authorize query) := by
  refine sound_reply (by simp) ?_
  simp only [authorize, loadByClientId, thread_bind, thread_orThrow, thread_plain, thread_throwIf,
    calm_nil, calm_cons, not_or, not_not, Bool.not_eq_false]
  rintro loginHint _ row rp rfl hactive hflow huri ⟨-, hscopes⟩
  refine thread_requestedLevel (calm_cons rfl) fun al hal => ?_
  simp only [citizenForSubject, thread_bind, thread_plain, thread_pure, calm_cons]
  intro resolved
  cases resolved with
  | none => exact calm_cons rfl
  | some subject =>
    simp only [Option.map_some, thread_bind, thread_randomBytes, thread_newDate, thread_uuidv7, calm_cons]
    intro authReqId now id
    rw [thread_await]
    refine ⟨⟨⟨by simp, rp, .inl ⟨query.client_id, by simp⟩, rfl, hactive, hflow, hscopes, rfl, rfl, huri,
      hal⟩, (calm_cons rfl).after _⟩, fun _ => ?_⟩
    rw [thread_await]
    refine ⟨⟨⟨query, rfl, rfl, rfl, by simp⟩, (calm_cons rfl).after _⟩, fun _ => ?_⟩
    refine Only.thread (only_wake _) (calm_cons rfl) fun _ h₂ hc₂ _ => ?_
    rw [thread_auditAppend_plain (by simp) hc₂]
    exact calm_cons rfl

theorem sound_authorizePoll (txn : Option String) : Sound D (.authorizePoll txn) := by
  refine sound_reply (by simp) ?_
  unfold authorizePoll
  cases htxn : truthy txn with
  | none => exact calm_nil
  | some authReqId =>
    obtain rfl := truthy_eq_some htxn
    simp only [thread_bind, thread_plain, calm_nil]
    intro found
    cases found with
    | none => exact calm_cons rfl
    | some row =>
      simp only [thread_ite, thread_pure, thread_bind, thread_newDate, thread_plain, calm_cons]
      refine ⟨fun _ => trivial, fun hflow now => ⟨fun _ => trivial, fun _ => ⟨fun _ => trivial, ?_⟩⟩⟩
      intro happroved stashRaw
      cases stashRaw with
      | none => exact calm_cons rfl
      | some stash =>
        simp only [thread_bind]
        refine thread_approvingBinding (calm_cons rfl) (fun _ => calm_cons rfl) fun id brow hbid => ?_
        cases brow with
        | none => exact calm_cons rfl
        | some binding =>
          exact thread_issueCode (calm_cons rfl) (by simp [ReadsTxn]) (not_not.mp happroved)
            (not_not.mp hflow) (by simp) hbid (by simp [ReadsBinding]) (by simp [NoCode])

theorem sound_registerRp (bearer : Option String) (body : RegisterRpRequest) :
    Sound D (.registerRp bearer body) :=
  sound_plain (by simp) (.bind (only_throwIf _ _) fun _ => .bind (only_throwIf _ _) fun _ =>
    .bind only_uuidv7 fun _ => .bind (only_randomBytes _ _) fun _ => .bind (only_randomBytes _ _) fun _ =>
    .bind (only_randomBytes _ _) fun _ => .bind (only_await rfl) fun _ =>
    .bind (only_auditAppend (by simp)) fun _ => only_pure _)

theorem sound_suspendRp (bearer : Option String) (rpId : String) : Sound D (.suspendRp bearer rpId) := by
  refine sound_reply (by simp) ?_
  simp only [suspendRp, adminGuard, thread_bind, thread_throwIf, calm_nil]
  intro _
  rw [thread_await]
  refine ⟨⟨trivial, trivial⟩, fun n => ?_⟩
  simp only [Thread, along_throwIf]
  refine ⟨fun hn => ⟨hn, trivial⟩, fun hn => ?_⟩
  change Thread D _ _ (auditAppend (rpSuspendedEvent rpId)) _
  rw [thread_auditAppend]
  exact ⟨⟨by simp [Follows, AuditsOn, rpSuspendedEvent], fun _ => rfl⟩, calm_cons rfl⟩

theorem sound_provisionPairwise (bearer : Option String) (rpId pseudoNid : String) :
    Sound D (.provisionPairwise bearer rpId pseudoNid) := by
  refine sound_reply (by simp) ?_
  simp only [provisionPairwise, adminGuard, thread_bind, thread_throwIf, thread_plain, thread_orThrow,
    calm_nil, calm_cons]
  rintro _ _ row rp rfl citizenRow citizen _
  refine thread_subjectFor (calm_cons rfl) (.inr ⟨rpId, by simp⟩) fun sub h₁ hc₁ _ _ _ => ?_
  rw [thread_auditAppend_plain (by simp) hc₁]
  exact calm_cons rfl

theorem sound_verifyAudit (bearer : Option String) : Sound D (.verifyAudit bearer) :=
  sound_plain (by simp) (.bind (only_throwIf _ _) fun _ => .bind (only_await rfl) fun _ => only_pure _)

theorem sound_reverifySweep (bearer : Option String) (limit : Option ℕ) :
    Sound D (.reverifySweep bearer limit) := by
  refine sound_reply (by simp) ?_
  simp only [reverifySweep, adminGuard, sweep, thread_bind, thread_throwIf, thread_newDate,
    thread_plain, calm_nil, calm_cons]
  intro _ _ now active
  refine Thread.mono (Q := fun _ h => Calm (.reverifySweep bearer limit) h) ?_ fun _ h₁ hc₁ => ?_
  · refine thread_forEach ?_ (calm_cons rfl)
    rintro ⟨citizenId, bindingId⟩ _ h hc
    refine thread_recover rfl ?_ fun e h' hc' => ?_
    · simp only [thread_bind, thread_newDate, hc, thread_pure]
      exact fun t => thread_reassertNow (calm_cons rfl) trivial fun _ h' hc' _ => hc'
    · simp only [thread_ite, thread_pure]
      exact ⟨fun _ => hc', fun _ => thread_throwing _ hc'⟩
  · simp only [thread_pure]
    rw [thread_auditAppend_plain (by simp) hc₁]
    exact calm_cons rfl

theorem sound_onAuditEvent (event : AuditEventInput) : Sound D (.onAuditEvent event) :=
  sound_plain (by simp) (only_onAuditEvent _ _)

theorem sound_probeSigning : Sound D .probeSigning := by
  refine sound_reply (by simp) ?_
  rw [probeSigning, thread_bind, thread_await]
  refine ⟨⟨rfl, trivial⟩, fun token => ?_⟩
  rw [thread_bind, thread_await]
  exact ⟨⟨trivial, (calm_cons rfl).after _⟩, fun _ => calm_cons rfl⟩

/-- The paths of every request are as they have to be. -/
theorem sound (D : Deployment) : ∀ q, Sound D q
  | .attestationChallenge ip => sound_attestationChallenge ip
  | .enrolStart body ip => sound_enrolStart body ip
  | .enrolActivate body => sound_enrolActivate body
  | .loginChallenge bindingId => sound_loginChallenge bindingId
  | .login body => sound_login body
  | .revokeBinding bearer bindingId reason => sound_revokeBinding bearer bindingId reason
  | .registerPushToken bearer platform token => sound_registerPushToken bearer platform token
  | .removePushToken bearer => sound_removePushToken bearer
  | .recordGrant citizenId rpId scopes source => sound_recordGrant citizenId rpId scopes source
  | .revokeConsent bearer consentId => sound_revokeConsent bearer consentId
  | .bcAuthorize creds body => sound_bcAuthorize creds body
  | .pending bearer => sound_pending bearer
  | .decision bearer body => sound_decision bearer body
  | .token creds body => sound_token creds body
  | .userinfo bearer => sound_userinfo bearer
  | .introspect creds token => sound_introspect creds token
  | .revoke creds token => sound_revoke creds token
  | .authorize query => sound_authorize query
  | .authorizePoll txn => sound_authorizePoll txn
  | .registerRp bearer body => sound_registerRp bearer body
  | .suspendRp bearer rpId => sound_suspendRp bearer rpId
  | .provisionPairwise bearer rpId pseudoNid => sound_provisionPairwise bearer rpId pseudoNid
  | .verifyAudit bearer => sound_verifyAudit bearer
  | .reverifySweep bearer limit => sound_reverifySweep bearer limit
  | .onAuditEvent event => sound_onAuditEvent event
  | .probeSigning => sound_probeSigning

/-- What holds along every path of the broker's handlers. -/
theorem paths (D : Deployment) (q : Request) :
    Along (OnPath D q) (EndsOn q) [] ((broker D).handler q) := by
  refine Along.mono (sound D q) (fun _ _ h => h) fun h r hr => ?_
  cases r <;> exact hr

end Handlers

end SdidBridge
