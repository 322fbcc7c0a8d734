import SdidBridge.Broker.Handlers

/-!
# Which request issues which command

Most commands are common: any request may issue them. The others are the changes of the bindings, the
calls of SDID and of the push services, the challenges, and the counters of failed logins, and
`Request.issues` says which requests issue each of them. `footprint` proves it for every handler, so
that a property of one of these commands is later proved for the few handlers that issue it.
-/

namespace SdidBridge

open Concurrent Prog

/-- The key that a command of the counters names. -/
def CounterOp.key : CounterOp → String
  | .incr key => key
  | .expire key _ => key
  | .get key => key
  | .del key => key

/-- The key of the failed logins of a binding, as the request spells it. -/
def loginFailuresKey (bindingId : String) : String := "lockout:" ++ ("login:" ++ bindingId)

/-- Whether a key counts failed logins. -/
def countsLogins (key : String) : Bool := "lockout:login:".toList.isPrefixOf key.toList

theorem countsLogins_rl (key : String) : countsLogins ("rl:" ++ key) = false := by
  simp only [countsLogins, String.toList_append]
  rfl

theorem countsLogins_anom (key : String) : countsLogins ("anom:" ++ key) = false := by
  simp only [countsLogins, String.toList_append]
  rfl

theorem countsLogins_enrol (key : String) : countsLogins ("lockout:" ++ ("enrol:nid:" ++ key)) = false := by
  simp only [countsLogins, String.toList_append]
  rfl

theorem countsLogins_loginFailuresKey (bindingId : String) :
    countsLogins (loginFailuresKey bindingId) = true := by
  simp [countsLogins, loginFailuresKey]

/-- The commands that any request may issue. -/
@[reducible] def Op.common : Op → Bool
  | .service (.getReferenceBiometric _ _) => false
  | .service (.reassert _) => false
  | .service (.sendPush _ _) => false
  | .jwt (.sign _ _ _) => false
  | .challenge (.set _ _ _) => false
  | .counter o => !countsLogins o.key
  | .citizen (.upsert _ _ _ _) => false
  | .binding (.insert _ _ _ _ _ _) => false
  | .binding (.activate _ _) => false
  | .binding (.revoke _ _ _) => false
  | .binding (.revokeActiveOf _ _ _) => false
  | .binding (.setLastReasserted _ _) => false
  | .binding (.setPushToken _ _ _ _) => false
  | .binding (.clearPushToken _ _) => false
  | _ => true

/-- Whether a request may ask SDID to re-assert an identity. -/
def Request.reasserts : Request → Bool
  | .login _ => true
  | .decision _ body => body.decision = .approve
  | .reverifySweep _ _ => true
  | _ => false

/-- Whether a request wakes devices. -/
def Request.wakes : Request → Bool
  | .bcAuthorize _ _ => true
  | .authorize _ => true
  | _ => false

/-- The binding of a login, as the request spells it. -/
def Request.loginSpelling : Request → Option String
  | .loginChallenge bindingId => some bindingId
  | .login body => some body.bindingId
  | _ => none

/-- Whether a request may issue a command. -/
def Request.issues (q : Request) : Op → Prop
  | .service (.getReferenceBiometric _ _) => ∃ body ip, q = .enrolStart body ip
  | .service (.reassert _) => q.reasserts = true
  | .service (.sendPush _ _) => q.wakes = true
  | .jwt (.sign _ _ _) => (∃ body, q = .login body) ∨ (∃ creds body, q = .token creds body) ∨ q = .probeSigning
  | .challenge (.set _ record _) =>
    (record.purpose = purposeString .login → ∃ bindingId, q = .loginChallenge bindingId) ∧
      (record.purpose = purposeString .activation → ∃ body ip, q = .enrolStart body ip)
  | .counter o => countsLogins o.key = true →
      ∃ bindingId, q.loginSpelling = some bindingId ∧ o.key = loginFailuresKey bindingId
  | .citizen (.upsert _ _ _ _) => ∃ body ip, q = .enrolStart body ip
  | .binding (.insert _ _ _ _ _ _) => ∃ body ip, q = .enrolStart body ip
  | .binding (.activate _ _) => ∃ body, q = .enrolActivate body
  | .binding (.revoke _ _ _) => ∃ bearer bindingId reason, q = .revokeBinding bearer bindingId reason
  | .binding (.revokeActiveOf _ _ _) => q.reasserts = true
  | .binding (.setLastReasserted _ _) => q.reasserts = true
  | .binding (.setPushToken _ platform address _) =>
    ∃ bearer, q = .registerPushToken bearer platform address
  | .binding (.clearPushToken _ _) => q.wakes = true ∨ ∃ bearer, q = .removePushToken bearer
  | _ => True

theorem Op.common_issues {o : Op} (ho : o.common = true) (q : Request) : q.issues o := by
  unfold Request.issues
  split <;> simp_all [Op.common]

/-! ## Programs of common commands -/

/-- A program of common commands. -/
abbrev CommonOnly {α : Type} (p : H α) : Prop := p.Only fun o => o.common = true

theorem common_await {o : Op} (ho : o.common = true) : CommonOnly (await o) := only_perform _ ho

theorem common_hit (key : String) (limit window : ℕ) : CommonOnly (hit key limit window) := by
  have hcounter : ∀ o : CounterOp, o.key = "rl:" ++ key → (Op.counter o).common = true := by
    intro o ho
    simp only [Op.common, ho, countsLogins_rl, Bool.not_false]
  exact .bind (common_await (hcounter _ rfl)) fun _ =>
    .bind (.onlyIf (common_await (hcounter _ rfl))) fun _ => only_throwIf _ _

theorem common_auditAppend (event : AuditEventInput) : CommonOnly (auditAppend event) :=
  common_await rfl

theorem common_consume (id : String) (purpose : ChallengePurpose) (bindingId : String) :
    CommonOnly (consume id purpose bindingId) :=
  .bind (common_await rfl) fun _ => .bind (only_orThrow _ _) fun _ => .bind (only_throwIf _ _) fun _ =>
    only_pure _

theorem common_consumeCiba (id authReqId bindingId : String) (d : Decision) :
    CommonOnly (consumeCiba id authReqId bindingId d) :=
  .bind (common_await rfl) fun _ => .bind (only_orThrow _ _) fun _ => .bind (only_throwIf _ _) fun _ =>
    only_pure _

theorem common_consumeAttestationNonce (id : String) : CommonOnly (consumeAttestationNonce id) :=
  .bind (common_await rfl) fun _ => .bind (only_orThrow _ _) fun _ => .bind (only_throwIf _ _) fun _ =>
    only_pure _

theorem common_verifyDeviceSignature (jwk : PublicKeyJwk) (payload signature : String) :
    CommonOnly (verifyDeviceSignature jwk payload signature) :=
  .bind (only_throwIf _ _) fun _ =>
    .bind (.recover (common_await rfl) fun _ => only_pure _) fun _ => only_throwIf _ _

theorem common_deviceSession (bearer : Option String) : CommonOnly (deviceSession bearer) :=
  .bind (only_orThrow _ _) fun _ => .bind (.recover (common_await rfl) fun _ => only_throwing _) fun _ =>
    .bind (only_orThrow _ _) fun _ => .bind (only_orThrow _ _) fun _ => .bind (common_await rfl) fun _ =>
      .bind (only_orThrow _ _) fun _ => .bind (only_throwIf _ _) fun _ => only_pure _

theorem common_authenticateClient (D : Deployment) (creds : Option Credentials) :
    CommonOnly (authenticateClient D creds) :=
  .bind (only_orThrow _ _) fun _ => .bind (common_await rfl) fun _ => .bind (only_orThrow _ _) fun _ =>
    .bind (only_orThrow _ _) fun _ => .bind (only_throwIf _ _) fun _ => .bind (only_throwIf _ _) fun _ =>
      only_pure _

theorem common_citizenForSubject (rpId : Uuid) (subject : String) :
    CommonOnly (citizenForSubject rpId subject) :=
  .bind (common_await rfl) fun _ => only_pure _

theorem common_subjectFor (D : Deployment) (citizenId rpId : Uuid) (salt : String) :
    CommonOnly (subjectFor D citizenId rpId salt) := by
  refine .bind (common_await rfl) fun existing => ?_
  cases existing with
  | some row => exact only_pure _
  | none => exact .bind (common_await rfl) fun _ => only_pure _

theorem common_raiseDetection (d : AnomalyDetection) (ctx : AnomalyContext) :
    CommonOnly (raiseDetection d ctx) :=
  .bind (common_await rfl) fun _ => .onlyIf (common_auditAppend _)

theorem common_countEvent (pattern : AnomalyPattern) (scopeKey : String) (threshold window : ℕ)
    (ctx : AnomalyContext) : CommonOnly (countEvent pattern scopeKey threshold window ctx) := by
  have hcounter : ∀ o : CounterOp, o.key = "anom:" ++ pattern.text ++ ":" ++ scopeKey →
      (Op.counter o).common = true := by
    intro o ho
    simp only [Op.common, ho, String.append_assoc, countsLogins_anom, Bool.not_false]
  exact .bind (common_await (hcounter _ rfl)) fun _ =>
    .bind (.onlyIf (common_await (hcounter _ rfl))) fun _ => .onlyIf (common_raiseDetection _ _)

theorem common_recordEnrolmentAttempt (D : Deployment) (ip nid : String) :
    CommonOnly (recordEnrolmentAttempt D ip nid) :=
  .ite (.recover (.bind (common_await rfl) fun _ => .bind (common_await rfl) fun _ =>
    .bind (common_await rfl) fun _ => .onlyIf (common_raiseDetection _ _)) fun _ => only_pure _)
    (only_pure _)

theorem common_recordAttestationRejection (D : Deployment) (ip code : String) :
    CommonOnly (recordAttestationRejection D ip code) :=
  .ite (.recover (common_countEvent _ _ _ _ _) fun _ => only_pure _) (only_pure _)

theorem common_onAuditEvent (D : Deployment) (event : AuditEventInput) :
    CommonOnly (onAuditEvent D event) := by
  refine .ite (.recover ?_ fun _ => only_pure _) (only_pure _)
  unfold countAuditEvent
  split
  · exact common_countEvent _ _ _ _ _
  · exact .ite (common_countEvent _ _ _ _ _) (only_pure _)
  · exact .ite (common_countEvent _ _ _ _ _) (only_pure _)
  · exact only_pure _

theorem common_verifyAttestation (D : Deployment) (a : AttestationInput) (jwk : PublicKeyJwk) :
    CommonOnly (verifyAttestation D a jwk) := by
  unfold verifyAttestation
  split
  · refine .bind (only_throwIf _ _) fun _ => .bind (only_orThrow _ _) fun _ =>
      .bind (.recover (common_consumeAttestationNonce _) fun _ => only_throwing _) fun _ =>
        .bind (common_await rfl) fun _ =>
          .bind (.recover (common_await rfl) fun _ => only_throwing _) fun r => ?_
    dsimp only
    split
    · exact only_throwing _
    · exact only_throwing _
    · exact only_pure _
  · refine .bind ?_ fun _ => .bind (only_orThrow _ _) fun claims => .bind ?_ fun _ =>
      .bind (only_throwIf _ _) fun _ => .bind (only_throwIf _ _) fun _ => only_pure _
    · unfold burnNonce
      split
      · exact .recover (.bind (common_consumeAttestationNonce _) fun _ => only_pure _)
          fun _ => only_pure _
      · exact only_pure _
    · unfold assertNotNull
      split
      · exact only_throwing _
      · exact only_pure _

/-- The failures of an enrolment are not counted among the logins. -/
theorem common_enrolCounter {o : CounterOp} {nid : String} (ho : o.key = "lockout:" ++ ("enrol:nid:" ++ nid)) :
    (Op.counter o).common = true := by
  simp only [Op.common, ho, countsLogins_enrol, Bool.not_false]

theorem common_failEnrolment {α : Type} (nid : String) (reason : EnrolmentFailureReason)
    (ref : Option String) : CommonOnly (failEnrolment nid reason ref : H α) :=
  .bind (common_auditAppend _) fun _ => .bind (.bind (common_await (common_enrolCounter rfl)) fun _ =>
    .bind (.onlyIf (common_await (common_enrolCounter rfl))) fun _ =>
      .onlyIf (common_await (common_enrolCounter rfl))) fun _ => only_throwing _

theorem common_enrolmentGates (D : Deployment) (req : EnrolStartRequest) (ip nid : String) :
    CommonOnly (enrolmentGates D req ip nid) := by
  refine .bind (common_recordEnrolmentAttempt _ _ _) fun _ => .bind (common_hit _ _ _) fun _ =>
    .bind (common_hit _ _ _) fun _ =>
      .bind (.bind (common_await (common_enrolCounter rfl)) fun _ => only_throwIf _ _) fun _ =>
        .bind (.recover (common_verifyAttestation _ _ _) fun err => ?_) fun _ =>
          .bind (only_throwIf _ _) fun _ => only_pure _
  refine .bind (common_auditAppend _) fun _ => .bind ?_ fun _ => only_throwing _
  unfold countRejection
  split
  · exact common_recordAttestationRejection _ _ _
  · exact only_pure _

section Yields

variable {α : Type} {Φ : Path → Op → Prop} {h : Path}

/-- A program of common commands only adds to the path. -/
theorem CommonOnly.yields {p : H α} (hp : CommonOnly p) (hΦ : ∀ h' o, o.common = true → Φ h' o) :
    Yields Φ h p fun _ h' => h <:+ h' := by
  refine Only.yields hp (J := fun h' => h <:+ h') (fun h' o hs ho => ?_) List.suffix_rfl
  exact ⟨hΦ h' o ho, fun _ => hs.trans (List.suffix_cons _ _)⟩

/-- The rule for `catch` when the handler may go on. -/
theorem yields_recover {Q : α → Path → Prop} {p : H α} {f : Failure → H α} (hp : Yields Φ h p Q)
    (hf : ∀ e h', Yields Φ h' (f e) Q) : Yields Φ h (p.recover f) Q := by
  unfold Yields
  rw [along_recover]
  refine Along.mono hp (fun _ _ hΦ => hΦ) fun h' r hr => ?_
  cases r with
  | ok a => exact hr
  | error e => exact hf e h'

end Yields

/-! ## Re-verification -/

/-- The commands of a re-verification. -/
@[reducible] def Op.reverifying : Op → Bool
  | .ambient .now => true
  | .service (.reassert _) => true
  | .citizen (.select _) => true
  | .citizen (.suspend _ _) => true
  | .binding (.setLastReasserted _ _) => true
  | .binding (.revokeActiveOf _ _ _) => true
  | .audit (.append _) => true
  | _ => false

theorem Op.reverifying_issues {o : Op} (ho : o.reverifying = true) {q : Request} (hq : q.reasserts = true) :
    q.issues o := by
  unfold Request.issues
  split <;> simp_all [Op.reverifying]

theorem reverifying_await {o : Op} (ho : o.reverifying = true) :
    (await o).Only fun o => o.reverifying = true := only_perform _ ho

theorem reverifying_reassertNow (citizenId bindingId trigger : String) (now : Time) :
    (reassertNow citizenId bindingId trigger now).Only fun o => o.reverifying = true :=
  .bind (reverifying_await rfl) fun _ => .bind (only_orThrow _ _) fun _ => .bind (only_throwIf _ _) fun _ =>
    .bind (only_orThrow _ _) fun _ => .bind (reverifying_await rfl) fun _ =>
      .ite (.bind (reverifying_await rfl) fun _ => .bind (reverifying_await rfl) fun _ => only_pure _)
        (.bind (reverifying_await rfl) fun _ => .bind (reverifying_await rfl) fun _ =>
          .bind (reverifying_await rfl) fun _ => only_throwing _)

theorem reverifying_reassertIfDue (D : Deployment) (citizenId : String) (binding : DeviceBinding)
    (force : Bool) (trigger : String) :
    (reassertIfDue D citizenId binding force trigger).Only fun o => o.reverifying = true :=
  .bind (reverifying_await rfl) fun _ => .ite (reverifying_reassertNow _ _ _ _) (only_pure _)

/-! ## Programs of other commands -/

section Issues

variable {D : Deployment} {q : Request}

/-- A program of common commands is one of any request. -/
theorem CommonOnly.issues {α : Type} {p : H α} (hp : CommonOnly p) : p.Only q.issues :=
  hp.mono fun _ ho => Op.common_issues ho q

theorem issues_await {o : Op} (ho : q.issues o) : (await o).Only q.issues := only_perform _ ho

theorem issues_matchAgainstReference (body : EnrolStartRequest) (ip nid : String) :
    (matchAgainstReference body nid).Only (Request.enrolStart body ip).issues := by
  refine .bind (issues_await ⟨body, ip, rfl⟩) fun answer => ?_
  cases answer with
  | unknownIdentity => exact (common_failEnrolment _ _ _).issues
  | unavailable => exact only_throwing _
  | ok reference =>
    exact .bind (common_await rfl).issues fun _ => .bind (common_auditAppend _).issues fun _ =>
      .ite (common_failEnrolment _ _ _).issues (only_pure _)

theorem activation_ne_login : purposeString .activation ≠ purposeString .login :=
  fun h => absurd (purposeString_injective h) (by simp)

/-- A challenge of a purpose other than the two that one request alone issues. -/
theorem issues_challenge {k purpose nonce bindingId : String} {ttl : ℕ}
    (hlogin : purpose ≠ purposeString .login) (hactivation : purpose ≠ purposeString .activation) :
    q.issues (.challenge (.set k ⟨purpose, nonce, bindingId⟩ ttl)) :=
  ⟨fun h => absurd h hlogin, fun h => absurd h hactivation⟩

theorem issues_issue {purpose : ChallengePurpose} {bindingId : String}
    (hset : ∀ k nonce ttl, q.issues (.challenge (.set k ⟨purposeString purpose, nonce, bindingId⟩ ttl))) :
    (issue D purpose bindingId).Only q.issues :=
  .bind (common_await rfl).issues fun _ => .bind (common_await rfl).issues fun _ =>
    .bind (issues_await (hset _ _ _)) fun _ => .bind (common_await rfl).issues fun _ => only_pure _

theorem issues_reassertNow (hq : q.reasserts = true) (citizenId bindingId trigger : String) (now : Time) :
    (reassertNow citizenId bindingId trigger now).Only q.issues :=
  (reverifying_reassertNow _ _ _ _).mono fun _ ho => Op.reverifying_issues ho hq

theorem issues_reassertIfDue (hq : q.reasserts = true) (citizenId trigger : String)
    (binding : DeviceBinding) (force : Bool) :
    (reassertIfDue D citizenId binding force trigger).Only q.issues :=
  (reverifying_reassertIfDue _ _ _ _ _).mono fun _ ho => Op.reverifying_issues ho hq

theorem issues_wake (hq : q.wakes = true) (citizenId : Uuid) : (wake citizenId).Only q.issues := by
  refine .bind (.recover (common_await rfl).issues fun _ => only_pure _) fun targets =>
    .bind (Only.forEach (fun target => ?_) _) fun _ => only_pure _
  exact .recover (.bind (issues_await hq) fun _ => .onlyIf (.bind (common_await rfl).issues fun _ =>
    issues_await (.inl hq))) fun _ => only_pure _

/-- The failed logins of the binding that a request spells. -/
theorem issues_loginCounter {bindingId : String} (hq : q.loginSpelling = some bindingId) {o : CounterOp}
    (ho : o.key = loginFailuresKey bindingId) : q.issues (.counter o) :=
  fun _ => ⟨bindingId, hq, ho⟩

theorem issues_proveLogin (body : LoginRequest) (binding : DeviceBinding) :
    (proveLogin body binding).Only (Request.login body).issues := by
  have hcounter : ∀ o : CounterOp, o.key = loginFailuresKey body.bindingId →
      (Request.login body).issues (.counter o) := fun o ho => issues_loginCounter rfl ho
  refine .recover (.bind (common_consume _ _ _).issues fun _ =>
    (common_verifyDeviceSignature _ _ _).issues) fun _ => .bind ?_ fun _ =>
      .bind (common_auditAppend _).issues fun _ => only_throwing _
  exact .bind (issues_await (hcounter _ rfl)) fun _ => .bind (.onlyIf (issues_await (hcounter _ rfl))) fun _ =>
    .onlyIf (issues_await (hcounter _ rfl))

theorem issues_mint (hq : ∃ creds body, q = .token creds body) (rp : RelyingParty) (citizenId : Uuid)
    (scopes : List String) (acr : AssuranceLevel) (authTime : Time) (nonce : Option String) :
    (mint D rp citizenId scopes acr authTime nonce).Only q.issues :=
  .bind (common_subjectFor _ _ _ _).issues fun _ => .bind (issues_await (.inr (.inl hq))) fun _ =>
    .bind (issues_await (.inr (.inl hq))) fun _ => only_pure _

theorem common_approvingBinding (deviceBindingId : Option Uuid) :
    CommonOnly (approvingBinding deviceBindingId) := by
  cases deviceBindingId with
  | none => exact only_pure _
  | some id => exact common_await rfl

theorem issues_cibaGrant (hq : ∃ creds body, q = .token creds body) (rp : RelyingParty)
    (body : TokenRequest) : (cibaGrant D rp body).Only q.issues := by
  refine .bind (only_orThrow _ _) fun _ => .bind (common_await rfl).issues fun _ =>
    .bind (only_orThrow _ _) fun txn => .bind (only_throwIf _ _) fun _ =>
      .bind (common_await rfl).issues fun now => .ite ?_ ?_
  · exact .bind (common_await rfl).issues fun _ => .bind (.onlyIf (common_auditAppend _).issues) fun _ =>
      only_throwing _
  · exact .bind (only_throwIf _ _) fun _ => .bind (only_throwIf _ _) fun _ =>
      .bind (only_throwIf _ _) fun _ => .bind (only_throwIf _ _) fun _ =>
        .bind (common_approvingBinding _).issues fun _ => .bind (only_orThrow _ _) fun _ =>
          .bind (common_await rfl).issues fun _ => .bind (only_throwIf _ _) fun _ =>
            .bind (issues_mint hq _ _ _ _ _ _) fun _ => .bind (common_await rfl).issues fun _ =>
              .bind (common_await rfl).issues fun _ => .bind (common_auditAppend _).issues fun _ =>
                .bind (common_auditAppend _).issues fun _ => only_pure _

theorem issues_codeGrant (hq : ∃ creds body, q = .token creds body) (rp : RelyingParty)
    (body : TokenRequest) : (codeGrant D rp body).Only q.issues :=
  .bind (only_orThrow _ _) fun _ => .bind (only_orThrow _ _) fun _ => .bind (only_orThrow _ _) fun _ =>
    .bind (common_await rfl).issues fun _ => .bind (common_await rfl).issues fun _ =>
      .bind (only_orThrow _ _) fun _ => .bind (only_throwIf _ _) fun _ =>
        .bind (common_await rfl).issues fun _ => .bind (only_throwIf _ _) fun _ =>
          .bind (issues_mint hq _ _ _ _ _ _) fun _ => .bind (common_auditAppend _).issues fun _ =>
            only_pure _

/-! ## The handlers -/

/-- What a handler issues before it replies. -/
theorem issues_reply {α : Type} {p : H α} {f : α → Reply} (hp : p.Only q.issues) :
    (p.reply f).Only q.issues :=
  .bind hp fun _ => only_pure _

theorem common_attestationChallenge (ip : String) : CommonOnly (attestationChallenge D ip) :=
  .bind (common_hit _ _ _) fun _ =>
    .bind (.bind (common_await rfl) fun _ => .bind (common_await rfl) fun _ =>
      .bind (common_await rfl) fun _ => .bind (common_await rfl) fun _ => only_pure _) fun _ =>
    .bind (common_auditAppend _) fun _ => only_pure _

theorem issues_start (body : EnrolStartRequest) (ip : String) :
    (start D body ip).Only (Request.enrolStart body ip).issues := by
  refine .bind (only_throwIf _ _) fun _ => .bind (common_enrolmentGates _ _ _ _).issues fun verdict =>
    .bind (issues_matchAgainstReference _ _ _) fun outcome => .bind (common_await rfl).issues fun newId =>
      .bind (common_await rfl).issues fun updatedAt => .bind (issues_await ⟨body, ip, rfl⟩) fun citizenId =>
        .bind (common_await rfl).issues fun count => .ite ?_ ?_
  · exact .bind (common_auditAppend _).issues fun _ => only_throwing _
  · refine .bind (common_await rfl).issues fun bindingId => .bind (issues_await ⟨body, ip, rfl⟩) fun _ =>
      .bind (common_auditAppend _).issues fun _ => .bind (issues_issue fun k nonce ttl => ?_) fun _ =>
        only_pure _
    exact ⟨fun h => absurd h activation_ne_login, fun _ => ⟨body, ip, rfl⟩⟩

theorem issues_activate (body : EnrolActivateRequest) :
    (activate body).Only (Request.enrolActivate body).issues :=
  .bind (only_throwIf _ _) fun _ => .bind (common_await rfl).issues fun _ =>
    .bind (only_orThrow _ _) fun _ => .bind (only_throwIf _ _) fun _ =>
      .bind (common_consume _ _ _).issues fun _ => .bind (common_verifyDeviceSignature _ _ _).issues fun _ =>
        .bind (common_await rfl).issues fun _ => .bind (issues_await ⟨body, rfl⟩) fun _ =>
          .bind (common_auditAppend _).issues fun _ => only_pure _

theorem common_loadBinding (bindingId : String) : CommonOnly (loadBinding bindingId) :=
  .bind (common_await rfl) fun _ => only_orThrow _ _

theorem issues_issueLoginChallenge (bindingId : String) :
    (issueLoginChallenge D bindingId).Only (Request.loginChallenge bindingId).issues := by
  refine .bind (only_throwIf _ _) fun _ => .bind (common_loadBinding _).issues fun _ =>
    .bind (only_throwIf _ _) fun _ => .bind ?_ fun _ => .bind (issues_issue fun k nonce ttl => ?_) fun _ =>
      .bind (common_auditAppend _).issues fun _ => only_pure _
  · exact .bind (issues_await (issues_loginCounter rfl rfl)) fun _ => only_throwIf _ _
  · exact ⟨fun _ => ⟨bindingId, rfl⟩, fun h => absurd h.symm activation_ne_login⟩

theorem issues_login (body : LoginRequest) : (login D body).Only (Request.login body).issues :=
  .bind (only_throwIf _ _) fun _ => .bind (common_loadBinding _).issues fun _ =>
    .bind (only_throwIf _ _) fun _ => .bind (issues_proveLogin _ _) fun _ =>
      .bind (issues_await (issues_loginCounter rfl rfl)) fun _ =>
        .bind (issues_reassertIfDue rfl _ _ _ _) fun _ => .bind (common_await rfl).issues fun _ =>
          .bind (common_await rfl).issues fun _ => .bind (common_auditAppend _).issues fun _ =>
            .bind (issues_await (.inl ⟨body, rfl⟩)) fun _ => only_pure _

theorem issues_revokeBinding (bearer : Option String) (bindingId : String) (reason : Option String) :
    (revokeBinding bearer bindingId reason).Only (Request.revokeBinding bearer bindingId reason).issues :=
  .bind (common_deviceSession _).issues fun _ => .bind (only_throwIf _ _) fun _ =>
    .bind (common_await rfl).issues fun _ => .bind (only_orThrow _ _) fun _ =>
      .bind (only_throwIf _ _) fun _ => .ite (only_pure _) (.bind (common_await rfl).issues fun _ =>
        .bind (issues_await ⟨bearer, bindingId, reason, rfl⟩) fun _ => (common_auditAppend _).issues)

theorem issues_registerPushToken (bearer : Option String) (platform : PushPlatform) (address : String) :
    (registerPushToken bearer platform address).Only
      (Request.registerPushToken bearer platform address).issues :=
  .bind (common_deviceSession _).issues fun _ => .bind (only_throwIf _ _) fun _ =>
    .bind (common_await rfl).issues fun _ => issues_await ⟨bearer, rfl⟩

theorem issues_removePushToken (bearer : Option String) :
    (removePushToken bearer).Only (Request.removePushToken bearer).issues :=
  .bind (common_deviceSession _).issues fun _ => .bind (common_await rfl).issues fun _ =>
    issues_await (.inr ⟨bearer, rfl⟩)

theorem common_recordGrant (citizenId rpId : String) (scopes : List String) (source : String) :
    CommonOnly (recordGrant citizenId rpId scopes source) :=
  .bind (common_await rfl) fun _ => .bind (common_await rfl) fun _ => .bind (common_auditAppend _) fun _ =>
    only_pure _

theorem common_revokeConsent (bearer : Option String) (consentId : String) :
    CommonOnly (revokeConsent bearer consentId) :=
  .bind (common_deviceSession _) fun _ => .bind (only_throwIf _ _) fun _ =>
    .bind (common_await rfl) fun _ => .bind (only_orThrow _ _) fun _ => .ite (only_pure _)
      (.bind (common_await rfl) fun _ => .bind (common_await rfl) fun _ => common_auditAppend _)

theorem issues_bcAuthorize (creds : Option Credentials) (body : BcAuthorizeRequest) :
    (bcAuthorize D creds body).Only (Request.bcAuthorize creds body).issues :=
  .bind (only_throwIf _ _) fun _ => .bind (common_authenticateClient _ _).issues fun _ =>
    .bind (common_hit _ _ _).issues fun _ => .bind (only_throwIf _ _) fun _ =>
      .bind (only_throwIf _ _) fun _ => .bind (only_throwIf _ _) fun _ =>
        .bind (common_citizenForSubject _ _).issues fun _ => .bind (only_orThrow _ _) fun _ =>
          .bind (common_await rfl).issues fun _ => .bind (only_throwIf _ _) fun _ =>
            .bind (common_await rfl).issues fun _ => .bind (common_await rfl).issues fun _ =>
              .bind (common_await rfl).issues fun _ => .bind (common_await rfl).issues fun _ =>
                .bind (issues_wake rfl _) fun _ => .bind (common_auditAppend _).issues fun _ => only_pure _

theorem issues_pending (bearer : Option String) : (pending D bearer).Only (Request.pending bearer).issues := by
  refine .bind (common_deviceSession _).issues fun session => .bind (common_await rfl).issues fun _ =>
    .bind (common_await rfl).issues fun txns => .ite (only_pure _) (.bind (common_await rfl).issues fun rps =>
      Only.forEach (fun p => .bind ?_ fun _ => only_pure _) _)
  refine .bind (common_await rfl).issues fun _ => .bind (common_await rfl).issues fun _ =>
    .bind (issues_await (issues_challenge ?_ ?_)) fun _ => .bind (common_await rfl).issues fun _ => only_pure _
  · exact (purposeString_ne_cibaPurpose _ _).symm
  · exact (purposeString_ne_cibaPurpose _ _).symm

theorem issues_decision (bearer : Option String) (body : CibaDecisionRequest) :
    (decision D bearer body).Only (Request.decision bearer body).issues := by
  have happroval : ∀ txn binding, (onlyIf (body.decision = .approve) (reassertForApproval D txn binding)).Only
      (Request.decision bearer body).issues := by
    intro txn binding
    by_cases hd : body.decision = .approve
    · refine .onlyIf (.bind (issues_reassertIfDue ?_ _ _ _ _) fun _ => only_pure _)
      simp [Request.reasserts, hd]
    · rw [onlyIf, if_neg hd]
      exact only_pure _
  exact .bind (common_deviceSession _).issues fun _ => .bind (only_throwIf _ _) fun _ =>
    .bind (common_await rfl).issues fun _ => .bind (common_await rfl).issues fun _ =>
      .bind (only_orThrow _ _) fun _ => .bind (only_throwIf _ _) fun _ =>
        .bind (common_await rfl).issues fun _ => .bind (only_orThrow _ _) fun _ =>
          .bind (only_throwIf _ _) fun _ => .bind (only_throwIf _ _) fun _ => .bind (happroval _ _) fun _ =>
            .bind (common_consumeCiba _ _ _ _).issues fun _ =>
              .bind (common_verifyDeviceSignature _ _ _).issues fun _ => .bind (common_await rfl).issues fun _ =>
                .bind (common_auditAppend _).issues fun _ => .bind (common_await rfl).issues fun _ => only_pure _

theorem issues_token (creds : Option Credentials) (body : TokenRequest) :
    (token D creds body).Only (Request.token creds body).issues :=
  .bind (common_authenticateClient _ _).issues fun _ =>
    .ite (issues_cibaGrant ⟨creds, body, rfl⟩ _ _)
      (.ite (issues_codeGrant ⟨creds, body, rfl⟩ _ _) (only_throwing _))

theorem common_userinfo (bearer : Option String) : CommonOnly (userinfo bearer) := by
  refine .bind (only_orThrow _ _) fun _ => .bind (.recover (common_await rfl) fun _ => only_throwing _) fun _ =>
    .bind (only_throwIf _ _) fun _ => .bind (common_await rfl) fun _ => .bind (only_throwIf _ _) fun _ =>
      .bind (only_orThrow _ _) fun _ => .bind (only_orThrow _ _) fun _ => .bind (common_await rfl) fun _ =>
        .bind (only_orThrow _ _) fun _ => .bind (common_citizenForSubject _ _) fun _ =>
          .bind (only_orThrow _ _) fun _ => .bind (common_await rfl) fun _ => .bind (only_orThrow _ _) fun citizen =>
            .bind (common_await rfl) fun _ => .bind (only_throwIf _ _) fun _ => .bind ?_ fun _ => only_pure _
  unfold releasedAttributes
  split
  · refine .ite (.bind (.recover (common_await rfl) fun _ => only_throwing _) fun answer => ?_) (only_pure _)
    cases answer with
    | ok attrs => exact only_pure _
    | unknownIdentity => exact only_pure _
    | unavailable => exact only_throwing _
  · exact only_pure _

theorem common_introspect (creds : Option Credentials) (token : Option String) :
    CommonOnly (introspect D creds token) := by
  refine .bind (common_authenticateClient _ _) fun _ => ?_
  cases truthy token with
  | none => exact only_pure _
  | some token =>
    exact .recover (.bind (common_await rfl) fun _ => .bind (common_await rfl) fun _ =>
      .ite (only_pure _) (only_pure _)) fun _ => only_pure _

theorem common_revoke (creds : Option Credentials) (token : Option String) :
    CommonOnly (revoke D creds token) := by
  refine .bind (common_authenticateClient _ _) fun rp => ?_
  cases (truthy token).bind D.decodeJwt with
  | none => exact only_pure _
  | some payload =>
    refine .recover ?_ fun _ => only_pure _
    unfold denyToken
    split
    · exact only_pure _
    · exact .ite (.bind (common_await rfl) fun _ => .bind (common_await rfl) fun _ => common_auditAppend _)
        (only_pure _)

theorem common_requestedLevel (rp : RelyingParty) (acrValues : Option String) :
    CommonOnly (requestedLevel rp acrValues) := by
  cases acrValues with
  | none => exact only_pure _
  | some level => exact .bind (only_orThrow _ _) fun _ => .bind (only_throwIf _ _) fun _ => only_pure _

theorem issues_authorize (query : AuthorizeRequest) :
    (authorize D query).Only (Request.authorize query).issues := by
  refine .bind (only_orThrow _ _) fun _ => .bind (common_await rfl).issues fun _ =>
    .bind (only_orThrow _ _) fun rp => .bind (only_throwIf _ _) fun _ => .bind (only_throwIf _ _) fun _ =>
      .bind (only_throwIf _ _) fun _ => .bind (only_throwIf _ _) fun _ => .bind (common_requestedLevel _ _).issues fun _ =>
        .bind (common_citizenForSubject _ _).issues fun resolved => ?_
  cases resolved with
  | none => exact only_pure _
  | some citizenId =>
    exact .bind (common_await rfl).issues fun _ => .bind (common_await rfl).issues fun _ =>
      .bind (common_await rfl).issues fun _ => .bind (common_await rfl).issues fun _ =>
        .bind (common_await rfl).issues fun _ => .bind (issues_wake rfl _) fun _ =>
          .bind (common_auditAppend _).issues fun _ => only_pure _

theorem common_authorizePoll (txn : Option String) : CommonOnly (authorizePoll D txn) := by
  unfold authorizePoll
  cases truthy txn with
  | none => exact only_pure _
  | some txn =>
    refine .bind (common_await rfl) fun found => ?_
    cases found with
    | none => exact only_pure _
    | some row =>
      refine .ite (only_pure _) (.bind (common_await rfl) fun _ => .ite (only_pure _) (.ite (only_pure _)
        (.bind (common_await rfl) fun stashRaw => ?_)))
      cases stashRaw with
      | none => exact only_pure _
      | some stash =>
        refine .bind (common_approvingBinding _) fun bindingRow => ?_
        cases bindingRow with
        | none => exact only_pure _
        | some binding =>
          refine .bind (common_await rfl) fun _ => .ite (only_pure _) (.bind (common_await rfl) fun _ =>
            .bind ?_ fun _ => .bind (common_await rfl) fun _ => .bind (common_await rfl) fun _ =>
              .bind (common_auditAppend _) fun _ => only_pure _)
          unfold resolvedOrNow
          split
          · exact only_pure _
          · exact common_await rfl

theorem common_registerRp (bearer : Option String) (body : RegisterRpRequest) :
    CommonOnly (registerRp D bearer body) :=
  .bind (only_throwIf _ _) fun _ => .bind (only_throwIf _ _) fun _ => .bind (common_await rfl) fun _ =>
    .bind (common_await rfl) fun _ => .bind (common_await rfl) fun _ => .bind (common_await rfl) fun _ =>
      .bind (common_await rfl) fun _ => .bind (common_auditAppend _) fun _ => only_pure _

theorem common_suspendRp (bearer : Option String) (rpId : String) : CommonOnly (suspendRp D bearer rpId) :=
  .bind (only_throwIf _ _) fun _ => .bind (common_await rfl) fun _ => .bind (only_throwIf _ _) fun _ =>
    common_auditAppend _

theorem common_provisionPairwise (bearer : Option String) (rpId pseudoNid : String) :
    CommonOnly (provisionPairwise D bearer rpId pseudoNid) :=
  .bind (only_throwIf _ _) fun _ => .bind (only_throwIf _ _) fun _ => .bind (common_await rfl) fun _ =>
    .bind (only_orThrow _ _) fun _ => .bind (common_await rfl) fun _ => .bind (only_orThrow _ _) fun _ =>
      .bind (common_subjectFor _ _ _ _) fun _ => .bind (common_auditAppend _) fun _ => only_pure _

theorem common_verifyAudit (bearer : Option String) : CommonOnly (verifyAudit D bearer) :=
  .bind (only_throwIf _ _) fun _ => .bind (common_await rfl) fun _ => only_pure _

theorem issues_reverifySweep (bearer : Option String) (limit : Option ℕ) :
    (reverifySweep D bearer limit).Only (Request.reverifySweep bearer limit).issues := by
  refine .bind (only_throwIf _ _) fun _ => .bind (only_throwIf _ _) fun _ => .bind ?_ fun _ =>
    .bind (common_auditAppend _).issues fun _ => only_pure _
  refine .bind (common_await rfl).issues fun _ => .bind (common_await rfl).issues fun _ =>
    .bind (Only.forEach (fun p => ?_) _) fun _ => only_pure _
  exact .recover (.bind (common_await rfl).issues fun _ => .bind (issues_reassertNow rfl _ _ _ _) fun _ =>
    only_pure _) fun _ => .ite (only_pure _) (only_throwing _)

theorem issues_probeSigning : probeSigning.Only Request.probeSigning.issues :=
  .bind (issues_await (.inr (.inr rfl))) fun _ => .bind (common_await rfl).issues fun _ => only_pure _

/-- Every handler issues what its request may issue. -/
theorem footprint (D : Deployment) : ∀ q, (handler D q).Only q.issues
  | .attestationChallenge ip => issues_reply (common_attestationChallenge ip).issues
  | .enrolStart body ip => issues_reply (issues_start body ip)
  | .enrolActivate body => issues_reply (issues_activate body)
  | .loginChallenge bindingId => issues_reply (issues_issueLoginChallenge bindingId)
  | .login body => issues_reply (issues_login body)
  | .revokeBinding bearer bindingId reason => issues_reply (issues_revokeBinding bearer bindingId reason)
  | .registerPushToken bearer platform token => issues_reply (issues_registerPushToken bearer platform token)
  | .removePushToken bearer => issues_reply (issues_removePushToken bearer)
  | .recordGrant citizenId rpId scopes source =>
    issues_reply (common_recordGrant citizenId rpId scopes source).issues
  | .revokeConsent bearer consentId => issues_reply (common_revokeConsent bearer consentId).issues
  | .bcAuthorize creds body => issues_reply (issues_bcAuthorize creds body)
  | .pending bearer => issues_reply (issues_pending bearer)
  | .decision bearer body => issues_reply (issues_decision bearer body)
  | .token creds body => issues_reply (issues_token creds body)
  | .userinfo bearer => issues_reply (common_userinfo bearer).issues
  | .introspect creds token => issues_reply (common_introspect creds token).issues
  | .revoke creds token => issues_reply (common_revoke creds token).issues
  | .authorize query => issues_reply (issues_authorize query)
  | .authorizePoll txn => issues_reply (common_authorizePoll txn).issues
  | .registerRp bearer body => issues_reply (common_registerRp bearer body).issues
  | .suspendRp bearer rpId => issues_reply (common_suspendRp bearer rpId).issues
  | .provisionPairwise bearer rpId pseudoNid =>
    issues_reply (common_provisionPairwise bearer rpId pseudoNid).issues
  | .verifyAudit bearer => issues_reply (common_verifyAudit bearer).issues
  | .reverifySweep bearer limit => issues_reply (issues_reverifySweep bearer limit)
  | .onAuditEvent event => issues_reply (common_onAuditEvent D event).issues
  | .probeSigning => issues_reply issues_probeSigning

end Issues

/-! ## In a run -/

variable {D : Deployment} {l₁ l₂ : Run} {c : State} {s : Store} {t : ℕ} {a : Cmd}

/-- A command of a run is one that the request of its call may issue. -/
theorem issues_of_act (hr : (broker D).Reach (l₁ ++ ⟨s, .act t a⟩ :: l₂) c) :
    ∃ q, Arrived l₂ t q ∧ q.issues a.op :=
  hr.act_along (Φ := fun q _ o => q.issues o) (Ψ := fun _ _ _ => True) fun q => footprint D q []

end SdidBridge
