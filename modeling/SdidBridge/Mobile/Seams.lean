import SdidBridge.Mobile.Client

/-!
# Which seams a method calls

One lemma for each method of the client, with a condition `C` on the calls on the seams: the method makes
only calls that meet `C`, if `C` holds of those that the code of the method names. A payload that is signed
has been rebuilt before.
-/

namespace SdidBridge.Mobile

open Concurrent Prog

variable {opts : ProtocolClientOptions} {α β : Type} {C : Command → Prop}

/-! ## Paths -/

section Along

variable {Φ : List Acted → Command → Prop} {h : List Acted}

theorem along_await_bind {Ψ : List Acted → Except Thrown β → Prop} {o : Command} {f : Answer o → Client β} :
    Along Φ Ψ h (await o >>= f) ↔
      Φ h o ∧ Ψ (⟨o, none⟩ :: h) (.error .other) ∧ ∀ r, Along Φ Ψ (⟨o, some r⟩ :: h) (f r) :=
  along_perform_bind

@[simp] theorem along_settle {Ψ : List Acted → Except Thrown α → Prop} (x : Except MobileError α) :
    Along Φ Ψ h (settle x) ↔ Ψ h (x.mapError .mobile) := by
  cases x <;> rfl

@[simp] theorem along_throwMobile {Ψ : List Acted → Except Thrown α → Prop} (e : MobileError) :
    Along Φ Ψ h (throwMobile e) ↔ Ψ h (.error (.mobile e)) := Iff.rfl

theorem along_expectPayload_bind {Ψ : List Acted → Except Thrown α → Prop} {purpose : ChallengePurpose}
    {challengeId nonce given : String} {f : String → Client α} :
    Along Φ Ψ h (expectPayload purpose challengeId nonce given >>= f) ↔
      (buildChallengePayload purpose challengeId nonce ≠ given →
        Ψ h (.error (.mobile (.local .unexpected_response "challenge_payload_mismatch")))) ∧
      (buildChallengePayload purpose challengeId nonce = given →
        Along Φ Ψ h (f (buildChallengePayload purpose challengeId nonce))) := by
  unfold expectPayload
  dsimp only
  split_ifs with hdiffer
  · simp only [hdiffer, ne_eq, not_false_eq_true, forall_const, IsEmpty.forall_iff, and_true]
    exact Iff.rfl
  · rw [not_ne_iff] at hdiffer
    simp only [hdiffer, ne_eq, not_true_eq_false, IsEmpty.forall_iff, forall_const, true_and]
    exact Iff.rfl

theorem along_backoffDelay {Ψ : List Acted → Except Thrown ℤ → Prop} (attempt : ℕ) (policy : RetryPolicy) :
    Along Φ Ψ h (backoffDelay attempt policy) ↔
      Φ h .random ∧ Ψ (⟨.random, none⟩ :: h) (.error .other) ∧
        ∀ r : ℚ, Ψ (⟨.random, some r⟩ :: h)
          (.ok ⌊r * min policy.maxDelayMs (policy.baseDelayMs * 2 ^ (attempt - 1))⌋) := by
  unfold backoffDelay
  exact along_await_bind

end Along

/-! ## The calls on the seams -/

/-- The calls that pass the time between two attempts. -/
def Command.isWait : Command → Bool
  | .random => true
  | .sleep _ => true
  | _ => false

theorem only_await {o : Command} (ho : C o) : Only C (await o) := only_perform _ ho

theorem only_settle (x : Except MobileError α) : Only C (settle x) := by
  cases x with
  | ok a => exact only_pure a
  | error e => exact only_throwing _

theorem only_throwMobile (e : MobileError) : Only C (throwMobile e : Client α) := only_throwing _

theorem only_settle_await {o : Command} {f : Answer o → Except MobileError α} (ho : C o) :
    Only C (await o >>= fun r => settle (f r)) :=
  (only_await ho).bind fun r => only_settle (f r)

theorem only_finallyDo {p : Client α} {cleanup : Client Unit} (hp : Only C p) (hc : Only C cleanup) :
    Only C (finallyDo p cleanup) := by
  unfold finallyDo
  refine Only.bind (hp.recover fun e => hc.bind fun _ => only_throwing e) fun a => ?_
  exact hc.bind fun _ => only_pure a

theorem only_backoffDelay (hwait : ∀ o : Command, o.isWait = true → C o) (attempt : ℕ) (policy : RetryPolicy) :
    Only C (backoffDelay attempt policy) := by
  unfold backoffDelay
  exact (only_await (hwait _ rfl)).bind fun _ => only_pure _

theorem only_sendAttempts (hwait : ∀ o : Command, o.isWait = true → C o) {policy : RetryPolicy}
    {idempotency : Idempotency} {attempts : ℚ} {request : HttpRequest} (hsend : C (.send idempotency request))
    (left attempt : ℕ) (lastFailure : Option MobileError) :
    Only C (sendAttempts policy idempotency attempts request left attempt lastFailure) := by
  induction left generalizing attempt lastFailure with
  | zero => exact only_throwMobile _
  | succ left ih =>
    have hagain : ∀ last, Only C (do
        let delay ← backoffDelay attempt policy
        await (.sleep delay)
        sendAttempts policy idempotency attempts request left (attempt + 1) last) := fun last =>
      (only_backoffDelay hwait _ _).bind fun delay => (only_await (hwait _ rfl)).bind fun _ => ih _ _
    unfold sendAttempts
    refine (only_await hsend).bind fun r => ?_
    cases r with
    | response response => exact Only.ite (hagain _) (only_pure _)
    | failure kind message => exact Only.ite (only_throwMobile _) (Only.ite (only_throwMobile _) (hagain _))
    | raised e => exact only_throwMobile _

theorem only_call (hwait : ∀ o : Command, o.isWait = true → C o) {spec : CallSpec α}
    (hsend : C (.send spec.idempotency spec.request)) : Only C (call opts spec) := by
  unfold call sendWithRetry
  exact (only_sendAttempts hwait hsend _ _ _).bind fun _ => only_settle _

theorem only_requireBinding (hload : C .load) : Only C requireBinding := by
  unfold requireBinding
  refine (only_await hload).bind fun r => ?_
  cases r with
  | some binding => exact only_pure _
  | none => exact only_throwMobile _

/-- What follows a payload that is rebuilt. -/
theorem only_expectPayload_bind {purpose : ChallengePurpose} {challengeId nonce given : String}
    {f : String → Client α} (hf : Only C (f (buildChallengePayload purpose challengeId nonce))) :
    Only C (expectPayload purpose challengeId nonce given >>= f) :=
  fun h => along_expectPayload_bind.mpr ⟨fun _ => trivial, fun _ => hf h⟩

theorem only_sign {payload : String} {prompt : SignPromptSpec} (hsign : C (.sign opts.keyAlias payload prompt)) :
    Only C (sign opts payload prompt) := by
  unfold sign
  exact (only_settle_await hsign).recover fun _ => only_throwMobile _

/-! ## The session -/

/-- The calls on the seams that establish a session. -/
structure Backchannel (opts : ProtocolClientOptions) (C : Command → Prop) : Prop where
  wait : ∀ o : Command, o.isWait = true → C o
  loginChallenge : ∀ bindingId, C (.send .safe (loginChallengeCall bindingId).request)
  login : ∀ bindingId challengeId signature,
    C (.send .consumesNonce (loginCall bindingId challengeId signature).request)
  load : C .load
  now : C .now
  session : C .session
  setSession : ∀ s, C (.setSession s)
  sign : ∀ challengeId nonce prompt, C (.sign opts.keyAlias (buildChallengePayload .login challengeId nonce) prompt)

theorem only_login (hC : Backchannel opts C) : Only C (login opts) := by
  unfold login
  refine (only_requireBinding hC.load).bind fun binding => ?_
  refine (only_call hC.wait (hC.loginChallenge _)).bind fun challenge => ?_
  refine only_expectPayload_bind ?_
  refine (only_sign (hC.sign _ _ _)).bind fun signature => ?_
  refine (only_call hC.wait (hC.login _ _ _)).bind fun result => ?_
  refine (only_await hC.now).bind fun now => ?_
  exact (only_await (hC.setSession _)).bind fun _ => only_pure _

theorem only_ensureSession (hC : Backchannel opts C) : Only C (ensureSession opts) := by
  have hlogin : Only C (do
      await (.setSession none)
      login opts) :=
    (only_await (hC.setSession _)).bind fun _ => only_login hC
  unfold ensureSession
  refine (only_await hC.session).bind fun r => ?_
  cases r with
  | none => exact hlogin
  | some live => exact (only_await hC.now).bind fun now => Only.ite (only_pure _) hlogin

/-- The calls on the seams that wipe the phone. -/
structure Wiping (C : Command → Prop) : Prop where
  load : C .load
  setSession : ∀ s, C (.setSession s)
  clear : C .clear
  deleteKey : ∀ keyAlias, C (.deleteKey keyAlias)

theorem only_reset (hW : Wiping C) : Only C (reset opts) := by
  unfold reset
  refine (only_await (hW.setSession _)).bind fun _ => ?_
  refine (only_await hW.load).bind fun current => ?_
  refine (only_await hW.clear).bind fun _ => ?_
  exact (only_settle_await (hW.deleteKey _)).recover fun _ => only_pure _

/-- The requests of a call under any session. -/
def Spoken (C : Command → Prop) (spec : CallSpec α) : Prop :=
  ∀ token, C (.send spec.idempotency { spec with bearer := some token }.request)

theorem only_authed (hC : Backchannel opts C) (hW : Wiping C) {spec : CallSpec α} (hspec : Spoken C spec) :
    Only C (authed opts spec) := by
  unfold authed
  refine (only_ensureSession hC).bind fun token => ?_
  refine (only_call hC.wait (hspec _)).recover fun error => ?_
  refine Only.ite ?_ (Only.ite ?_ (only_throwMobile _))
  · exact (only_reset hW).bind fun _ => only_throwMobile _
  · refine (only_await (hC.setSession _)).bind fun _ => ?_
    exact (only_ensureSession hC).bind fun fresh => only_call hC.wait (hspec _)

theorem only_decide (hC : Backchannel opts C) (hW : Wiping C) {txn : PendingTransaction} {decision : Decision}
    {report : Option Bool}
    (hsign : ∀ prompt, C (.sign opts.keyAlias (buildChallengePayload (decisionPurpose txn decision)
      txn.challenge.challengeId txn.challenge.nonce) prompt))
    (hspec : ∀ bindingId signature, Spoken C (cibaDecisionCall txn bindingId decision signature report)) :
    Only C (decide opts txn decision report) := by
  unfold decide
  refine (only_requireBinding hC.load).bind fun binding => ?_
  refine (only_ensureSession hC).bind fun _ => ?_
  refine (only_await hC.now).bind fun now => ?_
  refine (only_throwIf _ _).bind fun _ => ?_
  refine only_expectPayload_bind ?_
  exact (only_sign (hsign _)).bind fun signature => only_authed hC hW (hspec _ _)

theorem only_revokeBinding (hC : Backchannel opts C) (hW : Wiping C) {bindingId : String}
    {reason : Option String} (hspec : Spoken C (revokeBindingCall bindingId reason)) :
    Only C (revokeBinding opts bindingId reason) := by
  unfold revokeBinding
  refine (only_authed hC hW hspec).bind fun _ => ?_
  exact (only_await hC.load).bind fun current => (only_reset hW).onlyIf

/-! ## Enrolment -/

/-- The calls on the seams that enrol the phone. -/
structure Enrolling (opts : ProtocolClientOptions) (C : Command → Prop) : Prop where
  wait : ∀ o : Command, o.isWait = true → C o
  attestationChallenge : C (.send .safe attestationChallengeCall.request)
  enrolStart : ∀ input jwk attestation nonceId sample,
    C (.send .consumesNonce (enrolStartCall input jwk attestation nonceId sample).request)
  enrolActivate : ∀ bindingId challengeId signature,
    C (.send .consumesNonce (enrolActivateCall bindingId challengeId signature).request)
  keyStoreCapabilities : C .keyStoreCapabilities
  biometricCapabilities : C .biometricCapabilities
  generate : ∀ challenge, C (.generate opts.keyAlias challenge)
  attest : ∀ input, C (.attest input)
  capture : ∀ instruction cancelLabel, C (.capture instruction cancelLabel)
  toDto : C .toDto
  dispose : C .dispose
  now : C .now
  save : ∀ binding, C (.save binding)
  sign : ∀ challengeId nonce prompt,
    C (.sign opts.keyAlias (buildChallengePayload .activation challengeId nonce) prompt)

theorem only_assertSecurityLevel (level : KeySecurityLevel) : Only C (assertSecurityLevel opts level) := by
  unfold assertSecurityLevel
  exact Only.ite (only_throwMobile _) (only_pure _)

theorem only_assertDeviceCanEnrol (hkeyStore : C .keyStoreCapabilities) (hbio : C .biometricCapabilities) :
    Only C (assertDeviceCanEnrol opts) := by
  unfold assertDeviceCanEnrol
  refine (only_await hkeyStore).bind fun r => (only_settle r).bind fun keyCaps => ?_
  refine (only_throwIf _ _).bind fun _ => (only_assertSecurityLevel _).bind fun _ => Only.onlyIf ?_
  refine (only_await hbio).bind fun r => (only_settle r).bind fun caps => ?_
  exact (only_throwIf _ _).bind fun _ => (only_throwIf _ _).bind fun _ => only_throwIf _ _

theorem only_isoDate (ms : ℚ) : Only C (isoDate ms) := by
  unfold isoDate
  exact Only.ite (only_throwing _) (only_pure _)

theorem only_enrol (hC : Enrolling opts C) (input : EnrolInput) : Only C (enrol opts input) := by
  unfold enrol
  refine (only_throwIf _ _).bind fun _ => ?_
  refine (only_assertDeviceCanEnrol hC.keyStoreCapabilities hC.biometricCapabilities).bind fun _ => ?_
  refine (only_call hC.wait hC.attestationChallenge).bind fun challenge => ?_
  refine (only_await (hC.generate _)).bind fun r => (only_settle r).bind fun key => ?_
  refine (only_assertSecurityLevel _).bind fun _ => ?_
  refine (only_await (hC.attest _)).bind fun r => (only_settle r).bind fun attestation => ?_
  refine (only_await (hC.capture _ _)).bind fun r => (only_settle r).bind fun _ => ?_
  have hstart : Only C (finallyDo (do
      let sample ← settle (← await .toDto)
      call opts (enrolStartCall input key.publicJwk attestation challenge.nonceId sample)) (await .dispose)) :=
    only_finallyDo
      ((only_await hC.toDto).bind fun r => (only_settle r).bind fun sample =>
        only_call hC.wait (hC.enrolStart _ _ _ _ _))
      (only_await hC.dispose)
  refine hstart.bind fun start => only_expectPayload_bind ?_
  refine (only_sign (hC.sign _ _ _)).bind fun signature => ?_
  refine (only_call hC.wait (hC.enrolActivate _ _ _)).bind fun activated => ?_
  refine (only_await hC.now).bind fun now => (only_isoDate now).bind fun enrolledAt => ?_
  exact (only_await (hC.save _)).bind fun _ => only_pure _

/-! ## The calls of the app -/

theorem only_void {p : Client α} (hp : Only C p) : Only C (void p) := hp.bind fun _ => only_pure ()

/-- The condition `C` allows what a call of the app does. -/
def ClientCall.Allowed (opts : ProtocolClientOptions) (C : Command → Prop) : ClientCall → Prop
  | .enrol _ => Enrolling opts C
  | .login => Backchannel opts C
  | .pullPending => Backchannel opts C ∧ Wiping C ∧ Spoken C cibaPendingCall
  | .decide txn decision report => Backchannel opts C ∧ Wiping C ∧
      (∀ prompt, C (.sign opts.keyAlias (buildChallengePayload (decisionPurpose txn decision)
        txn.challenge.challengeId txn.challenge.nonce) prompt)) ∧
      ∀ bindingId signature, Spoken C (cibaDecisionCall txn bindingId decision signature report)
  | .listBindings => Backchannel opts C ∧ Wiping C ∧ Spoken C bindingsCall
  | .revokeBinding bindingId reason => Backchannel opts C ∧ Wiping C ∧ Spoken C (revokeBindingCall bindingId reason)
  | .listConsents => Backchannel opts C ∧ Wiping C ∧ Spoken C consentsCall
  | .revokeConsent consentId => Backchannel opts C ∧ Wiping C ∧ Spoken C (revokeConsentCall consentId)
  | .activity => Backchannel opts C ∧ Wiping C ∧ Spoken C activityCall
  | .currentBinding => C .load
  | .isEnrolled => C .load
  | .reset => Wiping C

theorem only_method {q : ClientCall} (hq : q.Allowed opts C) : Only C (q.method opts) := by
  cases q with
  | enrol input => exact only_void (only_enrol hq input)
  | login => exact only_void (only_login hq)
  | pullPending => exact only_void (only_authed hq.1 hq.2.1 hq.2.2)
  | decide txn decision report => exact only_void (only_decide hq.1 hq.2.1 hq.2.2.1 hq.2.2.2)
  | listBindings => exact only_void (only_authed hq.1 hq.2.1 hq.2.2)
  | revokeBinding bindingId reason => exact only_revokeBinding hq.1 hq.2.1 hq.2.2
  | listConsents => exact only_void (only_authed hq.1 hq.2.1 hq.2.2)
  | revokeConsent consentId => exact only_authed hq.1 hq.2.1 hq.2.2
  | activity => exact only_void (only_authed hq.1 hq.2.1 hq.2.2)
  | currentBinding => exact only_void (only_await hq)
  | isEnrolled => exact only_void ((only_await hq).bind fun _ => only_pure _)
  | reset => exact only_reset hq

end SdidBridge.Mobile
