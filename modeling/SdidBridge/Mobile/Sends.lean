import SdidBridge.Concurrent.Cost
import SdidBridge.Mobile.Phone
import SdidBridge.Mobile.Seams

/-!
# How often the client sends

The transport's retries and the session's re-login are nested, and a re-login sends requests of its own. What
a call of the app sends and signs at most is a sum over the code of its method (`AtMost`), and each request for
a login consumes a challenge that was fetched since the last one (`FreshLogin`). `sent_at_most_once` puts the
two together for every run.
-/

namespace SdidBridge.Mobile

open Concurrent Prog

variable {opts : ProtocolClientOptions} {α β : Type} {s : Endpoint → ℕ} {g n m : ℕ}

/-! ## Weights -/

/-- A request weighs what its endpoint does, and a signature weighs `g`. -/
def weigh (s : Endpoint → ℕ) (g : ℕ) : Command → ℕ
  | .send _ request => s request.endpoint
  | .sign _ _ _ => g
  | _ => 0

/-- Count the requests to an endpoint. -/
def sendsTo (e : Endpoint) : Command → ℕ := weigh (fun e' => if e' = e then 1 else 0) 0

/-- Count the signatures. -/
def signatures : Command → ℕ := weigh (fun _ => 0) 1

/-- How many attempts a safe request has. -/
def safeAttempts (opts : ProtocolClientOptions) : ℕ := ⌊attemptsOf opts.retry .safe⌋₊

theorem weigh_wait : ∀ o : Command, o.isWait = true → weigh s g o = 0 := by
  intro o ho
  cases o <;> first
    | rfl
    | exact absurd ho (by simp [Command.isWait])

/-- What a call on a seam weighs that neither sends nor signs. -/
theorem atMost_await (o : Command) : AtMost (weigh s g) (weigh s g o) (await o) := atMost_perform le_rfl

theorem atMost_settle (n : ℕ) (x : Except MobileError α) : AtMost (weigh s g) n (settle x) := by
  cases x <;> trivial

/-- What follows a promise that may have been rejected. -/
theorem atMost_settle_bind {x : Except MobileError α} {f : α → Client β} (hf : ∀ a, AtMost (weigh s g) n (f a)) :
    AtMost (weigh s g) n (settle x >>= f) :=
  (atMost_settle 0 x).bind_free hf

/-- What follows a check. -/
theorem atMost_throwIf_bind {c : Prop} [Decidable c] {e : Thrown} {f : Unit → Client β}
    (hf : AtMost (weigh s g) n (f ())) : AtMost (weigh s g) n (throwIf c e >>= f) := by
  unfold throwIf
  split_ifs
  · trivial
  · exact hf

/-- What follows a payload that is rebuilt. -/
theorem atMost_expectPayload_bind {purpose : ChallengePurpose} {challengeId nonce given : String}
    {f : String → Client α} (hf : ∀ payload, AtMost (weigh s g) n (f payload)) :
    AtMost (weigh s g) n (expectPayload purpose challengeId nonce given >>= f) := by
  unfold expectPayload
  dsimp only
  split_ifs
  · trivial
  · exact hf _

/-! ## Requests -/

theorem atMost_backoffDelay (attempt : ℕ) (policy : RetryPolicy) :
    AtMost (weigh s g) 0 (backoffDelay attempt policy) := by
  unfold backoffDelay
  exact (atMost_await .random).bind_free fun _ => trivial

theorem atMost_sendAttempts {policy : RetryPolicy} {idempotency : Idempotency} {attempts : ℚ}
    {request : HttpRequest} (left attempt : ℕ) (lastFailure : Option MobileError) :
    AtMost (weigh s g) (left * s request.endpoint)
      (sendAttempts policy idempotency attempts request left attempt lastFailure) := by
  induction left generalizing attempt lastFailure with
  | zero => trivial
  | succ left ih =>
    have hagain : ∀ last, AtMost (weigh s g) (left * s request.endpoint) (do
        let delay ← backoffDelay attempt policy
        await (.sleep delay)
        sendAttempts policy idempotency attempts request left (attempt + 1) last) := fun last =>
      (atMost_backoffDelay _ _).bind_free fun delay => (atMost_await (.sleep delay)).bind_free fun _ => ih _ _
    have hsum : (left + 1) * s request.endpoint = s request.endpoint + left * s request.endpoint := by ring
    rw [hsum]
    unfold sendAttempts
    refine (atMost_await (.send idempotency request)).bind fun r => ?_
    cases r with
    | response response => exact AtMost.ite (fun _ => hagain _) fun _ => trivial
    | failure kind message =>
      exact AtMost.ite (fun _ => trivial) fun _ => AtMost.ite (fun _ => trivial) fun _ => hagain _
    | raised e => trivial

theorem atMost_call (spec : CallSpec α) : AtMost (weigh s g)
    (⌊attemptsOf opts.retry spec.idempotency⌋₊ * s spec.endpoint) (call opts spec) := by
  unfold call sendWithRetry
  exact ((atMost_sendAttempts _ _ _).bind fun _ => atMost_settle 0 _).mono le_rfl

/-- A safe request. -/
theorem atMost_call_safe (spec : CallSpec α) (hspec : spec.idempotency = .safe) :
    AtMost (weigh s g) (safeAttempts opts * s spec.endpoint) (call opts spec) := by
  have h : AtMost (weigh s g) _ (call opts spec) := atMost_call spec
  rwa [hspec] at h

/-- A request that consumes a nonce has one attempt. -/
theorem atMost_call_consuming (spec : CallSpec α) (hspec : spec.idempotency = .consumesNonce) :
    AtMost (weigh s g) (s spec.endpoint) (call opts spec) := by
  have h : AtMost (weigh s g) _ (call opts spec) := atMost_call spec
  rw [hspec] at h
  simpa [attemptsOf] using h

theorem atMost_sign (payload : String) (prompt : SignPromptSpec) :
    AtMost (weigh s g) g (sign opts payload prompt) := by
  unfold sign
  have hsign : AtMost (weigh s g) g (do settle (← await (.sign opts.keyAlias payload prompt))) :=
    (atMost_await (.sign opts.keyAlias payload prompt)).bind fun r => atMost_settle 0 r
  exact (hsign.recover fun _ => atMost_throwing 0 _).mono (Nat.add_zero g).le

/-! ## The session -/

/-- What a login weighs. -/
def loginWeight (opts : ProtocolClientOptions) (s : Endpoint → ℕ) (g : ℕ) : ℕ :=
  safeAttempts opts * s .loginChallenge + (g + s .login)

theorem atMost_requireBinding_bind {f : PersistedBinding → Client α} (hf : ∀ b, AtMost (weigh s g) n (f b)) :
    AtMost (weigh s g) n (requireBinding >>= f) := by
  have hload : AtMost (weigh s g) 0 requireBinding := by
    unfold requireBinding
    refine (atMost_await .load).bind_free fun r => ?_
    cases r <;> trivial
  exact hload.bind_free hf

theorem atMost_login : AtMost (weigh s g) (loginWeight opts s g) (login opts) := by
  unfold login loginWeight
  refine atMost_requireBinding_bind fun binding => ?_
  refine (atMost_call_safe (loginChallengeCall binding.bindingId) rfl).bind fun challenge => atMost_expectPayload_bind fun payload => ?_
  refine (atMost_sign _ _).bind fun signature => ?_
  have hrest : ∀ result : LoginResponse, AtMost (weigh s g) 0 (do
      let now ← await .now
      await (.setSession (some ⟨result.sessionToken, now + result.expiresIn * 1000⟩))
      return result.sessionToken : Client String) := fun result =>
    (atMost_await .now).bind_free fun now => (atMost_await (.setSession _)).bind_free fun _ => trivial
  exact (atMost_call_consuming (loginCall _ _ _) rfl).bind hrest

theorem atMost_ensureSession : AtMost (weigh s g) (loginWeight opts s g) (ensureSession opts) := by
  have hlogin : AtMost (weigh s g) (loginWeight opts s g) (do
      await (.setSession none)
      login opts) :=
    (atMost_await (.setSession none)).bind_free fun _ => atMost_login
  unfold ensureSession
  refine (atMost_await .session).bind_free fun r => ?_
  cases r with
  | none => exact hlogin
  | some live =>
    exact (atMost_await .now).bind_free fun now => AtMost.ite (fun _ => trivial) fun _ => hlogin

theorem atMost_reset : AtMost (weigh s g) 0 (reset opts) := by
  unfold reset
  refine (atMost_await (.setSession none)).bind_free fun _ => (atMost_await .load).bind_free fun current => ?_
  refine (atMost_await .clear).bind_free fun _ => ?_
  have hdelete : ∀ keyAlias, AtMost (weigh s g) 0 (do settle (← await (.deleteKey keyAlias))) := fun keyAlias =>
    (atMost_await (.deleteKey keyAlias)).bind_free fun r => atMost_settle 0 r
  exact (hdelete _).recover fun _ => atMost_pure 0 ()

/-- A safe call under the session: two logins at most, and twice the attempts of a request. -/
theorem atMost_authed_safe (spec : CallSpec α) (hspec : spec.idempotency = .safe) :
    AtMost (weigh s g) (2 * loginWeight opts s g + 2 * (safeAttempts opts * s spec.endpoint))
      (authed opts spec) := by
  have hcall : ∀ token, AtMost (weigh s g) (safeAttempts opts * s spec.endpoint)
      (call opts { spec with bearer := some token }) := fun token => atMost_call_safe { spec with bearer := some token } hspec
  have hagain : AtMost (weigh s g) (loginWeight opts s g + safeAttempts opts * s spec.endpoint) (do
      await (.setSession none)
      let fresh ← ensureSession opts
      call opts { spec with bearer := some fresh }) :=
    (atMost_await (.setSession none)).bind_free fun _ => atMost_ensureSession.bind fun fresh => hcall fresh
  unfold authed
  refine (atMost_ensureSession.bind fun token => (hcall token).recover fun error => ?_).mono
    (m := 2 * loginWeight opts s g + 2 * (safeAttempts opts * s spec.endpoint)) (n := loginWeight opts s g +
      (safeAttempts opts * s spec.endpoint + (loginWeight opts s g + safeAttempts opts * s spec.endpoint)))
    (by omega)
  refine AtMost.ite (fun _ => ?_) fun _ => AtMost.ite (fun _ => hagain) fun _ => trivial
  exact (atMost_reset.bind_free fun _ => atMost_throwing 0 _).mono (Nat.zero_le _)

/-- A call under the session that consumes a nonce is not repeated. -/
theorem atMost_authed_consuming (spec : CallSpec α) (hspec : spec.idempotency = .consumesNonce) :
    AtMost (weigh s g) (loginWeight opts s g + s spec.endpoint) (authed opts spec) := by
  unfold authed
  refine atMost_ensureSession.bind fun token => ?_
  have hcall : AtMost (weigh s g) (s spec.endpoint) (call opts { spec with bearer := some token }) :=
    atMost_call_consuming { spec with bearer := some token } hspec
  refine (hcall.recover fun error => ?_).mono (Nat.add_zero _).le
  refine AtMost.ite (fun _ => ?_) fun _ => AtMost.ite (fun hagain => ?_) fun _ => trivial
  · exact atMost_reset.bind_free fun _ => atMost_throwing 0 _
  · rw [hspec] at hagain
    exact absurd hagain.2.2 (by simp)

theorem atMost_decide {txn : PendingTransaction} {decision : Decision} {report : Option Bool} :
    AtMost (weigh s g) (2 * loginWeight opts s g + g + s .cibaDecision) (decide opts txn decision report) := by
  have hsum : 2 * loginWeight opts s g + g + s .cibaDecision =
      loginWeight opts s g + (g + (loginWeight opts s g + s .cibaDecision)) := by omega
  rw [hsum]
  unfold decide
  refine atMost_requireBinding_bind fun binding => atMost_ensureSession.bind fun _ => ?_
  refine (atMost_await .now).bind_free fun now => atMost_throwIf_bind ?_
  refine atMost_expectPayload_bind fun payload => (atMost_sign _ _).bind fun signature => ?_
  exact atMost_authed_consuming (cibaDecisionCall txn binding.bindingId decision signature report) rfl

/-! ## Enrolment -/

theorem atMost_assertSecurityLevel (level : KeySecurityLevel) :
    AtMost (weigh s g) 0 (assertSecurityLevel opts level) := by
  unfold assertSecurityLevel
  split_ifs <;> trivial

theorem atMost_assertDeviceCanEnrol : AtMost (weigh s g) 0 (assertDeviceCanEnrol opts) := by
  unfold assertDeviceCanEnrol
  refine (atMost_await .keyStoreCapabilities).bind_free fun r => atMost_settle_bind fun keyCaps => ?_
  refine atMost_throwIf_bind ((atMost_assertSecurityLevel _).bind_free fun _ => ?_)
  refine AtMost.ite (fun _ => ?_) fun _ => trivial
  refine (atMost_await .biometricCapabilities).bind_free fun r => atMost_settle_bind fun caps => ?_
  refine atMost_throwIf_bind (atMost_throwIf_bind ?_)
  unfold throwIf
  split_ifs <;> trivial

theorem atMost_isoDate (ms : ℚ) : AtMost (weigh s g) 0 (isoDate ms) := by
  unfold isoDate
  split_ifs <;> trivial

theorem atMost_enrol (input : EnrolInput) : AtMost (weigh s g)
    (safeAttempts opts * s .attestationChallenge + (s .enrolStart + (g + s .enrolActivate))) (enrol opts input) := by
  unfold enrol
  refine atMost_throwIf_bind (atMost_assertDeviceCanEnrol.bind_free fun _ => ?_)
  refine (atMost_call_safe attestationChallengeCall rfl).bind fun challenge => ?_
  refine (atMost_await (.generate _ _)).bind_free fun r => atMost_settle_bind fun key => ?_
  refine (atMost_assertSecurityLevel _).bind_free fun _ => ?_
  refine (atMost_await (.attest _)).bind_free fun r => atMost_settle_bind fun attestation => ?_
  refine (atMost_await (.capture _ _)).bind_free fun r => atMost_settle_bind fun _ => ?_
  have hstart : AtMost (weigh s g) (s .enrolStart) (finallyDo (do
      let sample ← settle (← await .toDto)
      call opts (enrolStartCall input key.publicJwk attestation challenge.nonceId sample)) (await .dispose)) := by
    have hbody : AtMost (weigh s g) (s .enrolStart) (do
        let sample ← settle (← await .toDto)
        call opts (enrolStartCall input key.publicJwk attestation challenge.nonceId sample)) :=
      (atMost_await .toDto).bind_free fun r => atMost_settle_bind fun sample =>
        atMost_call_consuming (enrolStartCall input key.publicJwk attestation challenge.nonceId sample) rfl
    have hcaught := hbody.recover (m := 0) fun e =>
      (atMost_await .dispose).bind_free fun _ => atMost_throwing 0 e
    have hended := hcaught.bind (m := 0) fun a => (atMost_await .dispose).bind_free fun _ => atMost_pure 0 a
    exact hended.mono le_rfl
  refine hstart.bind fun start => atMost_expectPayload_bind fun payload => ?_
  refine (atMost_sign _ _).bind fun signature => ?_
  have hrest : ∀ activated : EnrolActivateResponse, AtMost (weigh s g) 0 (do
      let enrolledAt ← isoDate (← await .now)
      await (.save
        { bindingId := activated.bindingId, keyAlias := opts.keyAlias, deviceLabel := input.deviceLabel,
          assuranceLevel := start.assuranceLevel, enrolledAt := enrolledAt })
      return (⟨activated.bindingId, start.assuranceLevel⟩ : EnrolResult)) := fun activated =>
    (atMost_await .now).bind_free fun now => (atMost_isoDate now).bind_free fun _ =>
      (atMost_await (.save _)).bind_free fun _ => trivial
  exact (atMost_call_consuming (enrolActivateCall _ _ _) rfl).bind hrest

/-! ## Fresh challenges -/

/-- A request for a login consumes a challenge that the broker has issued since the last such request: it names
the challenge, and no login was sent after the challenge was fetched. -/
def FreshLogin (request : HttpRequest) (before : List Acted) : Prop :=
  ∃ since older fetch response challenge,
    before = since ++ ⟨.send .safe fetch, some (.response response)⟩ :: older ∧
    fetch.endpoint = .loginChallenge ∧ readResponse (loginChallengeCall "") response = .ok challenge ∧
    request.text "challengeId" = some challenge.challengeId ∧ spent (sendsTo .login) since = 0

/-- No login is sent. -/
def NoLogin (o : Command) : Prop := sendsTo .login o = 0

/-- Where a login is sent, its challenge is fresh. -/
def LoginFresh (before : List Acted) : Command → Prop
  | .send _ request => request.endpoint = .login → FreshLogin request before
  | _ => True

/-- A request that consumes a nonce is sent once, whatever happens to it. -/
theorem call_consuming (spec : CallSpec α) (hspec : spec.idempotency = .consumesNonce) :
    call opts spec = await (.send .consumesNonce spec.request) >>= fun r => match r with
      | .response response => settle (readResponse spec response)
      | .failure kind _ =>
        throwMobile (.local .interrupted (spec.request.method.text ++ " interrupted (" ++ kind.text ++ ")"))
      | .raised e => throwMobile e := by
  have hone : ⌊(1 : ℚ)⌋₊ = 1 := by norm_num
  unfold call sendWithRetry
  rw [hspec]
  simp only [attemptsOf, hone, sendAttempts, await, perform, Nat.cast_one, lt_self_iff_false, false_and, if_false,
    if_true]
  change Prog.call _ _ = Prog.call _ _
  congr 1
  funext r
  cases r with
  | none => rfl
  | some r => cases r <;> rfl

/-- What holds at each call on a seam that neither is a request to `login`. -/
theorem fresh_of_only {p : Client α} (hp : Only NoLogin p) : Always LoginFresh p := by
  refine hp.always fun h o ho => ?_
  cases o with
  | send idempotency request =>
    intro hlogin
    simp [NoLogin, sendsTo, weigh, hlogin] at ho
  | _ => trivial

theorem fresh_await (o : Command) (ho : NoLogin o) : Always LoginFresh (await o) := fresh_of_only (only_await ho)

/-- The retries end with the request that was answered. -/
theorem sendAttempts_returned {policy : RetryPolicy} {idempotency : Idempotency} {attempts : ℚ}
    {request : HttpRequest} (left attempt : ℕ) (lastFailure : Option MobileError) (h : List Acted) :
    Along (fun _ _ => True) (fun h' r => ∀ response, r = .ok response →
        ∃ older, h' = ⟨.send idempotency request, some (.response response)⟩ :: older) h
      (sendAttempts policy idempotency attempts request left attempt lastFailure) := by
  induction left generalizing attempt lastFailure h with
  | zero => simp [sendAttempts, throwMobile]
  | succ left ih =>
    have hagain : ∀ last h, Along (fun _ _ => True) (fun h' r => ∀ response, r = .ok response →
        ∃ older, h' = ⟨.send idempotency request, some (.response response)⟩ :: older) h (do
          let delay ← backoffDelay attempt policy
          await (.sleep delay)
          sendAttempts policy idempotency attempts request left (attempt + 1) last) := by
      intro last h
      rw [along_bind, along_backoffDelay]
      refine ⟨trivial, by simp, fun random => ?_⟩
      dsimp only
      rw [along_await_bind]
      exact ⟨trivial, by simp, fun _ => ih _ _ _⟩
    unfold sendAttempts
    rw [along_await_bind]
    refine ⟨trivial, by simp, fun r => ?_⟩
    cases r with
    | response response =>
      dsimp only
      split_ifs
      · exact hagain _ _
      · rintro _ ⟨⟩
        exact ⟨h, rfl⟩
    | failure kind message =>
      dsimp only
      split_ifs
      · simp
      · simp
      · exact hagain _ _
    | raised e => simp

/-- After a call has returned, the last thing that was done is the request that was answered. -/
theorem call_returned (spec : CallSpec α) (h : List Acted) :
    Along (fun _ _ => True) (fun h' r => ∀ a, r = .ok a → ∃ older response,
      h' = ⟨.send spec.idempotency spec.request, some (.response response)⟩ :: older ∧
      readResponse spec response = .ok a) h (call opts spec) := by
  unfold call sendWithRetry
  rw [along_bind]
  refine (sendAttempts_returned _ _ _ h).mono (fun _ _ h => h) fun h' r hr => ?_
  cases r with
  | error e => simp
  | ok response =>
    obtain ⟨older, rfl⟩ := hr response rfl
    dsimp only
    rw [along_settle]
    intro a ha
    cases hread : readResponse spec response with
    | error e => simp [hread, Except.mapError] at ha
    | ok b =>
      obtain rfl : b = a := by simpa [hread, Except.mapError] using ha
      exact ⟨older, response, rfl, hread⟩

/-- After a signature, the last thing that was done is the prompt. -/
theorem sign_returned (payload : String) (prompt : SignPromptSpec) (h : List Acted) :
    Along LoginFresh (fun h' r => ∀ a, r = .ok a → ∃ x, h' = ⟨.sign opts.keyAlias payload prompt, x⟩ :: h) h
      (sign opts payload prompt) := by
  unfold sign
  rw [along_recover, along_await_bind]
  refine ⟨trivial, by simp, fun r => ?_⟩
  cases r with
  | error e => simp [Except.mapError]
  | ok signature => simp [Except.mapError]

/-- The request for a login is right after its challenge was fetched and signed. -/
theorem login_fresh : Always LoginFresh (login opts) := by
  have hload : Always LoginFresh requireBinding := fresh_of_only (only_requireBinding rfl)
  unfold login
  refine hload.bind fun binding h => ?_
  have hfetch : Always LoginFresh (call opts (loginChallengeCall binding.bindingId)) :=
    fresh_of_only (only_call weigh_wait rfl)
  refine Along.then (((hfetch h).and (call_returned (loginChallengeCall binding.bindingId) h)).mono
    (fun _ _ h => h.1) fun _ _ h => h.2) fun challenge h' hlast => ?_
  obtain ⟨older, response, rfl, hread⟩ := hlast
  let payload := buildChallengePayload .login challenge.challengeId challenge.nonce
  let fetched : List Acted :=
    ⟨.send .safe (loginChallengeCall binding.bindingId).request, some (.response response)⟩ :: older
  refine along_expectPayload_bind.mpr ⟨fun _ => trivial, fun _ => ?_⟩
  refine Along.then (Q := fun _ h'' => ∃ x, h'' = ⟨.sign opts.keyAlias payload (loginPrompt opts), x⟩ :: fetched)
    (sign_returned payload (loginPrompt opts) fetched) fun signature h'' hprompt => ?_
  obtain ⟨x, rfl⟩ := hprompt
  have hfresh : FreshLogin (loginCall binding.bindingId challenge.challengeId signature).request
      (⟨.sign opts.keyAlias payload (loginPrompt opts), x⟩ :: fetched) :=
    ⟨[_], older, _, response, challenge, rfl, rfl, hread, rfl, rfl⟩
  rw [call_consuming _ rfl, along_bind, along_await_bind]
  refine ⟨fun _ => hfresh, trivial, fun r => ?_⟩
  cases r with
  | failure kind message => simp
  | raised e => simp
  | response response =>
    dsimp only
    rw [along_settle]
    cases readResponse (loginCall binding.bindingId challenge.challengeId signature) response with
    | error e => trivial
    | ok result =>
      have hrest : Always LoginFresh (do
          let now ← await .now
          await (.setSession (some ⟨result.sessionToken, now + result.expiresIn * 1000⟩))
          return result.sessionToken : Client String) :=
        (fresh_await .now rfl).bind fun now => (fresh_await (.setSession _) rfl).bind fun _ =>
          fresh_of_only (only_pure _)
      exact hrest _

theorem ensureSession_fresh : Always LoginFresh (ensureSession opts) := by
  have hlogin : Always LoginFresh (do
      await (.setSession none)
      login opts) :=
    (fresh_await (.setSession none) rfl).bind fun _ => login_fresh
  unfold ensureSession
  refine (fresh_await .session rfl).bind fun r => ?_
  cases r with
  | none => exact hlogin
  | some live => exact (fresh_await .now rfl).bind fun now => Always.ite (fresh_of_only (only_pure _)) hlogin

theorem reset_fresh : Always LoginFresh (reset opts) :=
  fresh_of_only (only_reset ⟨rfl, fun _ => rfl, rfl, fun _ => rfl⟩)

theorem call_fresh {spec : CallSpec α} (hspec : spec.endpoint ≠ .login) : Always LoginFresh (call opts spec) :=
  fresh_of_only (only_call weigh_wait (by simp [NoLogin, sendsTo, weigh, CallSpec.request, hspec]))

theorem authed_fresh {spec : CallSpec α} (hspec : spec.endpoint ≠ .login) : Always LoginFresh (authed opts spec) := by
  have hcall : ∀ token, Always LoginFresh (call opts { spec with bearer := some token }) := fun _ => call_fresh hspec
  unfold authed
  refine ensureSession_fresh.bind fun token => (hcall token).recover fun error => ?_
  refine Always.ite ?_ (Always.ite ?_ (fresh_of_only (only_throwMobile _)))
  · exact reset_fresh.bind fun _ => fresh_of_only (only_throwMobile _)
  · exact (fresh_await (.setSession none) rfl).bind fun _ => ensureSession_fresh.bind fun fresh => hcall fresh

theorem decide_fresh {txn : PendingTransaction} {decision : Decision} {report : Option Bool} :
    Always LoginFresh (decide opts txn decision report) := by
  unfold decide
  refine (fresh_of_only (only_requireBinding rfl)).bind fun binding => ensureSession_fresh.bind fun _ => ?_
  refine (fresh_await .now rfl).bind fun now => (fresh_of_only (only_throwIf _ _)).bind fun _ h => ?_
  refine along_expectPayload_bind.mpr ⟨fun _ => trivial, fun _ => ?_⟩
  have hrest : Always LoginFresh (do
      let signature ← sign opts (buildChallengePayload (decisionPurpose txn decision) txn.challenge.challengeId
        txn.challenge.nonce) (decisionPrompt opts txn decision)
      authed opts (cibaDecisionCall txn binding.bindingId decision signature report)) :=
    (fresh_of_only (only_sign rfl)).bind fun signature => authed_fresh (by simp [cibaDecisionCall])
  exact hrest h

theorem enrol_fresh (input : EnrolInput) : Always LoginFresh (enrol opts input) :=
  fresh_of_only (only_enrol (by constructor <;> intros <;> first | rfl | exact weigh_wait _ ‹_›) input)

theorem void_fresh {p : Client α} (hp : Always LoginFresh p) : Always LoginFresh (void p) :=
  hp.bind fun _ => fresh_of_only (only_pure ())

/-- In every call of the app, each login has a fresh challenge. -/
theorem method_fresh (q : ClientCall) : Always LoginFresh (q.method opts) := by
  cases q with
  | enrol input => exact void_fresh (enrol_fresh input)
  | login => exact void_fresh login_fresh
  | pullPending => exact void_fresh (authed_fresh (by simp [cibaPendingCall]))
  | decide txn decision report => exact void_fresh decide_fresh
  | listBindings => exact void_fresh (authed_fresh (by simp [bindingsCall]))
  | revokeBinding bindingId reason =>
    refine (authed_fresh (by simp [revokeBindingCall])).bind fun _ => (fresh_await .load rfl).bind fun current => ?_
    exact Always.ite reset_fresh (fresh_of_only (only_pure ()))
  | listConsents => exact void_fresh (authed_fresh (by simp [consentsCall]))
  | revokeConsent consentId => exact authed_fresh (by simp [revokeConsentCall])
  | activity => exact void_fresh (authed_fresh (by simp [activityCall]))
  | currentBinding => exact void_fresh (fresh_await .load rfl)
  | isEnrolled => exact void_fresh ((fresh_await .load rfl).bind fun _ => fresh_of_only (only_pure _))
  | reset => exact reset_fresh

/-! ## The calls of the app -/

/-- The endpoints whose requests consume a nonce. -/
def Endpoint.consuming : List Endpoint := [.enrolStart, .enrolActivate, .login, .cibaDecision]

/-- A request that is marked as consuming a nonce goes to one of these endpoints. -/
def MarkedRight : Command → Prop
  | .send .consumesNonce request => request.endpoint ∈ Endpoint.consuming
  | _ => True

/-- The endpoint of a safe call under the session. -/
def ClientCall.safeEndpoint : ClientCall → Option Endpoint
  | .pullPending => some .cibaPending
  | .listBindings => some .bindings
  | .revokeBinding _ _ => some .revokeBinding
  | .listConsents => some .consents
  | .revokeConsent _ => some .revokeConsent
  | .activity => some .activity
  | _ => none

/-- What a call of the app weighs at most. -/
def ClientCall.weight (opts : ProtocolClientOptions) (s : Endpoint → ℕ) (g : ℕ) : ClientCall → ℕ
  | .enrol _ => safeAttempts opts * s .attestationChallenge + (s .enrolStart + (g + s .enrolActivate))
  | .login => loginWeight opts s g
  | .pullPending => 2 * loginWeight opts s g + 2 * (safeAttempts opts * s .cibaPending)
  | .decide _ _ _ => 2 * loginWeight opts s g + g + s .cibaDecision
  | .listBindings => 2 * loginWeight opts s g + 2 * (safeAttempts opts * s .bindings)
  | .revokeBinding _ _ => 2 * loginWeight opts s g + 2 * (safeAttempts opts * s .revokeBinding)
  | .listConsents => 2 * loginWeight opts s g + 2 * (safeAttempts opts * s .consents)
  | .revokeConsent _ => 2 * loginWeight opts s g + 2 * (safeAttempts opts * s .revokeConsent)
  | .activity => 2 * loginWeight opts s g + 2 * (safeAttempts opts * s .activity)
  | .currentBinding => 0
  | .isEnrolled => 0
  | .reset => 0

theorem atMost_void {p : Client α} (hp : AtMost (weigh s g) n p) : AtMost (weigh s g) n (void p) :=
  (hp.bind fun _ => atMost_pure 0 ()).mono (Nat.add_zero n).le

theorem method_atMost (q : ClientCall) : AtMost (weigh s g) (q.weight opts s g) (q.method opts) := by
  cases q with
  | enrol input => exact atMost_void (atMost_enrol input)
  | login => exact atMost_void atMost_login
  | pullPending => exact atMost_void (atMost_authed_safe cibaPendingCall rfl)
  | decide txn decision report => exact atMost_void atMost_decide
  | listBindings => exact atMost_void (atMost_authed_safe bindingsCall rfl)
  | revokeBinding bindingId reason =>
    have hrest : ∀ _ : Unit, AtMost (weigh s g) 0 (do
        let current ← await .load
        onlyIf (current.map PersistedBinding.bindingId = some bindingId) (reset opts)) := fun _ =>
      (atMost_await .load).bind_free fun current => AtMost.ite (fun _ => atMost_reset) fun _ => trivial
    exact ((atMost_authed_safe (revokeBindingCall bindingId reason) rfl).bind hrest).mono (Nat.add_zero _).le
  | listConsents => exact atMost_void (atMost_authed_safe consentsCall rfl)
  | revokeConsent consentId => exact atMost_authed_safe (revokeConsentCall consentId) rfl
  | activity => exact atMost_void (atMost_authed_safe activityCall rfl)
  | currentBinding => exact atMost_void (atMost_await .load)
  | isEnrolled => exact atMost_void ((atMost_await .load).bind_free fun _ => atMost_pure 0 _)
  | reset => exact atMost_reset

/-- How often a call of the app logs in at most. -/
def ClientCall.logins : ClientCall → ℕ
  | .enrol _ => 0
  | .login => 1
  | .currentBinding => 0
  | .isEnrolled => 0
  | .reset => 0
  | _ => 2

theorem marked_wait : ∀ o : Command, o.isWait = true → MarkedRight o := by
  intro o ho
  cases o <;> trivial

theorem marked_backchannel : Backchannel opts MarkedRight where
  wait := marked_wait
  loginChallenge _ := trivial
  login _ _ _ := by simp [MarkedRight, Endpoint.consuming, CallSpec.request, loginCall]
  load := trivial
  now := trivial
  session := trivial
  setSession _ := trivial
  sign _ _ _ := trivial

theorem marked_wiping : Wiping MarkedRight where
  load := trivial
  setSession _ := trivial
  clear := trivial
  deleteKey _ := trivial

theorem marked_enrolling : Enrolling opts MarkedRight where
  wait := marked_wait
  attestationChallenge := trivial
  enrolStart _ _ _ _ _ := by simp [MarkedRight, Endpoint.consuming, CallSpec.request, enrolStartCall]
  enrolActivate _ _ _ := by simp [MarkedRight, Endpoint.consuming, CallSpec.request, enrolActivateCall]
  keyStoreCapabilities := trivial
  biometricCapabilities := trivial
  generate _ := trivial
  attest _ := trivial
  capture _ _ := trivial
  toDto := trivial
  dispose := trivial
  now := trivial
  save _ := trivial
  sign _ _ _ := trivial

theorem method_marked (q : ClientCall) : Only MarkedRight (q.method opts) := by
  refine only_method ?_
  cases q with
  | enrol input => exact marked_enrolling
  | login => exact marked_backchannel
  | decide txn decision report =>
    refine ⟨marked_backchannel, marked_wiping, fun _ => trivial, fun bindingId signature token => ?_⟩
    simp [cibaDecisionCall, MarkedRight, Endpoint.consuming, CallSpec.request]
  | currentBinding => trivial
  | isEnrolled => trivial
  | reset => exact marked_wiping
  | pullPending => exact ⟨marked_backchannel, marked_wiping, fun _ => trivial⟩
  | listBindings => exact ⟨marked_backchannel, marked_wiping, fun _ => trivial⟩
  | revokeBinding bindingId reason => exact ⟨marked_backchannel, marked_wiping, fun _ => trivial⟩
  | listConsents => exact ⟨marked_backchannel, marked_wiping, fun _ => trivial⟩
  | revokeConsent consentId => exact ⟨marked_backchannel, marked_wiping, fun _ => trivial⟩
  | activity => exact ⟨marked_backchannel, marked_wiping, fun _ => trivial⟩

/-- A safe request has no more attempts than the policy allows. -/
theorem safeAttempts_le : (safeAttempts opts : ℚ) ≤ max 1 opts.retry.maxAttempts :=
  Nat.floor_le (zero_le_one.trans (le_max_left _ _))

/-- The weight that counts the requests to an endpoint. -/
theorem weight_once {e : Endpoint} (he : e ∈ [Endpoint.enrolStart, .enrolActivate, .cibaDecision]) (q : ClientCall) :
    q.weight opts (fun e' => if e' = e then 1 else 0) 0 ≤ 1 := by
  simp only [List.mem_cons, List.not_mem_nil, or_false] at he
  rcases he with rfl | rfl | rfl <;> cases q <;> simp [ClientCall.weight, loginWeight]

theorem weight_logins (q : ClientCall) : q.weight opts (fun e' => if e' = .login then 1 else 0) 0 ≤ q.logins := by
  cases q <;> simp [ClientCall.weight, loginWeight, ClientCall.logins]

theorem weight_safe (opts : ProtocolClientOptions) {q : ClientCall} {e : Endpoint} (he : q.safeEndpoint = some e) :
    q.weight opts (fun e' => if e' = e then 1 else 0) 0 ≤ 2 * safeAttempts opts ∧
    q.weight opts (fun e' => if e' = .loginChallenge then 1 else 0) 0 ≤ 2 * safeAttempts opts ∧
    q.weight opts (fun _ => 0) 1 ≤ 2 := by
  cases q <;> simp only [ClientCall.safeEndpoint, Option.some.injEq, reduceCtorEq] at he <;> subst he <;>
    simp [ClientCall.weight, loginWeight]

/-- The requests that a call of the app sends: in every run, whatever the transport and the broker answer and
whatever the retry policy is. -/
structure SentOnce (opts : ProtocolClientOptions) (q : ClientCall) (h : List Acted) : Prop where
  /-- What is marked as consuming a nonce is a start of an enrolment, an activation, a login, or a decision. -/
  marked : ∀ request r, ⟨.send .consumesNonce request, r⟩ ∈ h → request.endpoint ∈ Endpoint.consuming
  /-- An enrolment is started and activated once, and a decision is sent once. -/
  once : ∀ e ∈ [Endpoint.enrolStart, .enrolActivate, .cibaDecision], spent (sendsTo e) h ≤ 1
  /-- Each login consumes a challenge of its own. -/
  fresh : ∀ newer older idempotency request r, h = newer ++ ⟨.send idempotency request, r⟩ :: older →
    request.endpoint = .login → FreshLogin request older
  /-- There is one login in `login`, and at most one more than the first in any other call. -/
  logins : spent (sendsTo .login) h ≤ q.logins
  /-- A safe call under the session sends its own request twice the attempts at most, and prompts for two logins
  at most. -/
  safe : ∀ e, q.safeEndpoint = some e → (spent (sendsTo e) h : ℚ) ≤ 2 * max 1 opts.retry.maxAttempts ∧
    (spent (sendsTo .loginChallenge) h : ℚ) ≤ 2 * max 1 opts.retry.maxAttempts ∧ spent signatures h ≤ 2

/-- Each call of the app sends a request that consumes a nonce once. -/
theorem sent_at_most_once {init : Phone} {tr : List (Entry Command Answer ClientCall Phone)}
    {c : Config Command Answer Thrown Unit Phone} (hr : (phone opts init).Reach tr c) {t : ℕ} {q : ClientCall}
    (ha : Arrived tr t q) : SentOnce opts q (own t tr) := by
  have hweight : ∀ s g, spent (weigh s g) (own t tr) ≤ q.weight opts s g := fun s g =>
    hr.spent_le ha (method_atMost q)
  have hattempts : (safeAttempts opts : ℚ) ≤ max 1 opts.retry.maxAttempts := safeAttempts_le
  refine ⟨fun request r hmem => ?_, fun e he => ?_, fun newer older idempotency request r hown hlogin => ?_, ?_,
    fun e he => ?_⟩
  · obtain ⟨l₁, s, l₂, rfl⟩ := (mem_own.mp hmem).split
    obtain ⟨q', -, hmarked⟩ := hr.act_along (fun q => (method_marked q) [])
    exact hmarked
  · exact (hweight _ _).trans (weight_once he q)
  · obtain ⟨l₁, s, l₂, rfl, -, rfl⟩ := exists_of_own_eq hown
    obtain ⟨q', -, hfresh⟩ := hr.act_along (fun q => (method_fresh q) [])
    exact hfresh hlogin
  · exact (hweight _ _).trans (weight_logins q)
  · obtain ⟨hown, hfetch, hsign⟩ := weight_safe opts he
    have hle : ∀ n : ℕ, n ≤ 2 * safeAttempts opts → (n : ℚ) ≤ 2 * max 1 opts.retry.maxAttempts := fun n hn => by
      have hcast : (n : ℚ) ≤ 2 * safeAttempts opts := by exact_mod_cast hn
      linarith
    exact ⟨hle _ ((hweight _ _).trans hown), hle _ ((hweight _ _).trans hfetch), (hweight _ _).trans hsign⟩

/-- The citizen denies, and the connection is lost with the decision. -/
def sampleLost : List (Move ClientCall World) :=
  .arrive (.decide sampleTransaction .deny none) :: goes (worldOf fun request =>
    if request.endpoint = .cibaDecision then .failure .timeout "request timed out" else sampleBroker request) 0 14

/-- An entry starts the call `t` with a denial. -/
def startsDenial (t : ℕ) (e : Entry Command Answer ClientCall Phone) : Bool :=
  match e.event with
  | .arrive u (.decide _ .deny _) => u == t
  | _ => false

theorem arrived_of_startsDenial {tr : List (Entry Command Answer ClientCall Phone)} {t : ℕ}
    (h : tr.any (startsDenial t) = true) : ∃ txn report, Arrived tr t (.decide txn .deny report) := by
  obtain ⟨⟨s, ev⟩, he, hstarts⟩ := List.any_eq_true.mp h
  unfold startsDenial at hstarts
  split at hstarts
  · rename_i u txn report hev
    obtain rfl : u = t := by simpa using hstarts
    exact ⟨txn, report, _, he, hev⟩
  · simp at hstarts

/-- A decision that is lost on the way has been sent once. -/
theorem sent_at_most_once_sampleLost : ∃ tr c q, (phone sampleOptions samplePhone).Reach tr c ∧ Arrived tr 0 q ∧
    spent (sendsTo .cibaDecision) (own 0 tr) = 1 ∧ SentOnce sampleOptions q (own 0 tr) := by
  obtain ⟨tr, c, hr, hrun⟩ := (phone sampleOptions samplePhone).exists_of_play sampleLost.reverse
    (p := fun run => run.1.any (startsDenial 0) && spent (sendsTo .cibaDecision) (own 0 run.1) == 1)
    (by decide +kernel)
  simp only [Bool.and_eq_true, beq_iff_eq] at hrun
  obtain ⟨txn, report, harrived⟩ := arrived_of_startsDenial hrun.1
  exact ⟨tr, c, _, hr, harrived, hrun.2, sent_at_most_once hr harrived⟩

end SdidBridge.Mobile
