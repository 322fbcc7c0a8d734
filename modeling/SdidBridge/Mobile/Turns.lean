import SdidBridge.Concurrent.Serial
import SdidBridge.Mobile.Phone
import SdidBridge.Mobile.Seams

/-!
# Calls on the client while no other runs

The rules of `During` for the parts that the client's methods are built from. A request is sent in attempts, and
`Sending` lists what an assertion that counts them has to keep.
-/

namespace SdidBridge.Mobile

open Concurrent Prog

variable {opts : ProtocolClientOptions} {α β : Type} {A : List Acted → Phone → Acted → Prop}
  {Φ : List Acted → Phone → Command → Prop} {h : List Acted} {s : Phone}

/-- What holds during a method of the client. -/
abbrev Turn (A : List Acted → Phone → Acted → Prop) (Φ : List Acted → Phone → Command → Prop)
    (Ψ : List Acted → Phone → Except Thrown α → Prop) (h : List Acted) (s : Phone) (p : Client α) : Prop :=
  During Phone.exec A Φ Ψ h s p

theorem turn_await_bind {Ψ : List Acted → Phone → Except Thrown β → Prop} {o : Command} {f : Answer o → Client β} :
    Turn A Φ Ψ h s (await o >>= f) ↔ Φ h s o ∧
      (∀ world s', Phone.exec world s o = some (none, s') → A h s ⟨o, none⟩ → Ψ (⟨o, none⟩ :: h) s' (.error .other)) ∧
      ∀ world r s', Phone.exec world s o = some (some r, s') → A h s ⟨o, some r⟩ →
        Turn A Φ Ψ (⟨o, some r⟩ :: h) s' (f r) :=
  during_perform_bind

theorem turn_setSession_bind {Ψ : List Acted → Phone → Except Thrown β → Prop} {session : Option Session}
    {f : Unit → Client β} (hΦ : Φ h s (.setSession session))
    (hf : Turn A Φ Ψ (⟨.setSession session, some ()⟩ :: h) { s with session := session } (f ())) :
    Turn A Φ Ψ h s (await (.setSession session) >>= f) := by
  refine turn_await_bind.mpr ⟨hΦ, fun world s' hx _ => ?_, fun world r s' hx _ => ?_⟩
  · exact absurd (exec_setSession hx).1 (by simp)
  · obtain ⟨-, rfl⟩ := exec_setSession hx
    exact hf

theorem turn_session_bind {Ψ : List Acted → Phone → Except Thrown β → Prop} {f : Option Session → Client β}
    (hΦ : Φ h s .session) (hf : Turn A Φ Ψ (⟨.session, some s.session⟩ :: h) s (f s.session)) :
    Turn A Φ Ψ h s (await .session >>= f) := by
  refine turn_await_bind.mpr ⟨hΦ, fun world s' hx _ => ?_, fun world r s' hx _ => ?_⟩
  · exact absurd (exec_readSession hx).1 (by simp)
  · obtain ⟨hread, rfl⟩ := exec_readSession hx
    obtain rfl := Option.some.inj hread
    exact hf

/-- A binding that is required is the stored one. -/
theorem turn_requireBinding_bind {Ψ : List Acted → Phone → Except Thrown β → Prop} {f : PersistedBinding → Client β}
    {J : List Acted → Phone → Prop} {C : Command → Prop} (hJ : Keeps Phone.exec A Φ C J) (hload : C .load)
    (h₀ : J h s) (hΨ : ∀ h s e, J h s → Ψ h s (.error e))
    (hf : ∀ b h, s.persisted = some b → J h s → Turn A Φ Ψ h s (f b)) :
    Turn A Φ Ψ h s (requireBinding >>= f) := by
  obtain ⟨hΦ, hkeep⟩ := hJ h s .load h₀ hload
  refine During.bind (Q := fun b h s' => s' = s ∧ s.persisted = some b ∧ J h s) ?_ ?_
  · unfold requireBinding
    refine turn_await_bind.mpr ⟨hΦ, fun world s' hx hA => hΨ _ _ _ (hkeep _ _ _ hx hA), fun world r s' hx hA => ?_⟩
    have hJ' := hkeep _ _ _ hx hA
    obtain ⟨rfl, rfl⟩ := exec_load hx
    cases hp : s'.persisted with
    | none => exact hΨ _ _ _ (hp ▸ hJ')
    | some b => exact ⟨rfl, rfl, hp ▸ hJ'⟩
  · rintro b h' s' ⟨rfl, hp, hJ'⟩
    exact hf b h' hp hJ'

@[simp] theorem turn_settle {Ψ : List Acted → Phone → Except Thrown α → Prop} (x : Except MobileError α) :
    Turn A Φ Ψ h s (settle x) ↔ Ψ h s (x.mapError .mobile) := by
  cases x <;> rfl

@[simp] theorem turn_throwMobile {Ψ : List Acted → Phone → Except Thrown α → Prop} (e : MobileError) :
    Turn A Φ Ψ h s (throwMobile e) ↔ Ψ h s (.error (.mobile e)) := Iff.rfl

theorem turn_expectPayload_bind {Ψ : List Acted → Phone → Except Thrown α → Prop} {purpose : ChallengePurpose}
    {challengeId nonce given : String} {f : String → Client α}
    (hmismatch : Ψ h s (.error (.mobile (.local .unexpected_response "challenge_payload_mismatch"))))
    (hf : Turn A Φ Ψ h s (f (buildChallengePayload purpose challengeId nonce))) :
    Turn A Φ Ψ h s (expectPayload purpose challengeId nonce given >>= f) := by
  unfold expectPayload
  dsimp only
  split_ifs
  · exact hmismatch
  · exact hf

/-! ## Requests -/

/-- After the attempt `n`, the request is sent again or the attempts end without an answer. -/
def Unanswered (policy : RetryPolicy) (idempotency : Idempotency) (n : ℕ) : Option SendResult → Prop
  | some (.response response) =>
    (n : ℚ) < attemptsOf policy idempotency ∧ isRetryableStatus response.status = true
  | some (.raised _) => False
  | _ => True

/-- The assertion `J n` holds at the attempt `n` of a request, and `Ψ` when it has been answered or has failed. -/
structure Sending (opts : ProtocolClientOptions) (A : List Acted → Phone → Acted → Prop)
    (Φ : List Acted → Phone → Command → Prop) (idempotency : Idempotency) (request : HttpRequest)
    (J : ℕ → List Acted → Phone → Prop) (Ψ : List Acted → Phone → Except Thrown HttpResponse → Prop) : Prop where
  /-- Waiting keeps the assertion. -/
  wait : ∀ n, Keeps Phone.exec A Φ (fun o => o.isWait = true) (J n)
  /-- The request may be sent. -/
  send : ∀ n h s, J n h s → Φ h s (.send idempotency request)
  /-- The next attempt. -/
  again : ∀ n h s world r s', J n h s → Phone.exec world s (.send idempotency request) = some (r, s') →
    A h s ⟨.send idempotency request, r⟩ → Unanswered opts.retry idempotency n r →
    J (n + 1) (⟨.send idempotency request, r⟩ :: h) s'
  /-- The answer. -/
  response : ∀ n h s world response s', J n h s →
    Phone.exec world s (.send idempotency request) = some (some (.response response), s') →
    A h s ⟨.send idempotency request, some (.response response)⟩ →
    ¬ Unanswered opts.retry idempotency n (some (.response response)) →
    Ψ (⟨.send idempotency request, some (.response response)⟩ :: h) s' (.ok response)
  /-- The transport throws an error of the core. -/
  raised : ∀ n h s world e s', J n h s →
    Phone.exec world s (.send idempotency request) = some (some (.raised e), s') →
    A h s ⟨.send idempotency request, some (.raised e)⟩ →
    Ψ (⟨.send idempotency request, some (.raised e)⟩ :: h) s' (.error (.mobile e))
  /-- The attempts end without an answer. -/
  failed : ∀ n h s code detail, J n h s → Ψ h s (.error (.mobile (.local code detail)))
  /-- A foreign exception. -/
  other : ∀ n h s, J n h s → Ψ h s (.error .other)

variable {idempotency : Idempotency} {request : HttpRequest} {J : ℕ → List Acted → Phone → Prop}

theorem turn_wait_bind {Ψ : List Acted → Phone → Except Thrown β → Prop} {C : Command → Prop}
    {J : List Acted → Phone → Prop} {o : Command} {f : Answer o → Client β} (hJ : Keeps Phone.exec A Φ C J)
    (h₀ : J h s) (ho : C o) (hother : ∀ h s, J h s → Ψ h s (.error .other))
    (hf : ∀ r h s, J h s → Turn A Φ Ψ h s (f r)) : Turn A Φ Ψ h s (await o >>= f) := by
  obtain ⟨hΦ, hkeep⟩ := hJ h s o h₀ ho
  exact turn_await_bind.mpr ⟨hΦ, fun world s' hx hA => hother _ _ (hkeep world none s' hx hA),
    fun world r s' hx hA => hf r _ _ (hkeep world (some r) s' hx hA)⟩

/-- The time between two attempts passes. -/
theorem Sending.backoff {Ψ : List Acted → Phone → Except Thrown HttpResponse → Prop}
    (hS : Sending opts A Φ idempotency request J Ψ) {n attempt : ℕ} {f : Client HttpResponse}
    (hJ : J n h s) (hf : ∀ h s, J n h s → Turn A Φ Ψ h s f) :
    Turn A Φ Ψ h s (do
      let delay ← backoffDelay attempt opts.retry
      await (.sleep delay)
      f) := by
  refine During.bind (Q := fun _ h s => J n h s) ?_ fun delay h s hJ => ?_
  · unfold backoffDelay
    exact turn_wait_bind (hS.wait n) hJ rfl (hS.other n) fun _ h s hJ => hJ
  · exact turn_wait_bind (hS.wait n) hJ rfl (hS.other n) fun _ h s hJ => hf h s hJ

/-- The loop of attempts. -/
theorem Sending.attempts {Ψ : List Acted → Phone → Except Thrown HttpResponse → Prop}
    (hS : Sending opts A Φ idempotency request J Ψ) {left attempt : ℕ} {last : Option MobileError}
    (hlast : ∀ e ∈ last, ∃ code detail, e = MobileError.local code detail) (hJ : J attempt h s) :
    Turn A Φ Ψ h s (sendAttempts opts.retry idempotency (attemptsOf opts.retry idempotency) request left attempt
      last) := by
  induction left generalizing attempt last h s with
  | zero =>
    cases last with
    | none => exact hS.failed _ _ _ _ _ hJ
    | some e =>
      obtain ⟨code, detail, rfl⟩ := hlast e rfl
      exact hS.failed _ _ _ _ _ hJ
  | succ left ih =>
    unfold sendAttempts
    refine turn_await_bind.mpr ⟨hS.send _ _ _ hJ, fun world s' hx hA => ?_, fun world r s' hx hA => ?_⟩
    · exact hS.other _ _ _ (hS.again _ _ _ _ _ _ hJ hx hA trivial)
    · cases r with
      | response response =>
        refine during_ite (fun hretry => ?_) fun hfinal => ?_
        · have hnext := hS.again _ _ _ _ _ _ hJ hx hA hretry
          exact hS.backoff hnext fun h s hJ => ih hlast hJ
        · exact hS.response _ _ _ _ _ _ hJ hx hA hfinal
      | failure kind message =>
        have hnext := hS.again _ _ _ _ _ _ hJ hx hA trivial
        have hlocal : ∃ code detail, transportFailureToError kind message = MobileError.local code detail := by
          cases kind <;> exact ⟨_, _, rfl⟩
        refine during_ite (fun _ => hS.failed _ _ _ _ _ hnext) fun _ => during_ite (fun _ => ?_) fun _ => ?_
        · obtain ⟨code, detail, he⟩ := hlocal
          rw [he]
          exact hS.failed _ _ _ _ _ hnext
        · refine hS.backoff hnext fun h s hJ => ih ?_ hJ
          rintro e ⟨⟩
          exact hlocal
      | raised e => exact hS.raised _ _ _ _ _ _ hJ hx hA

/-- Where all attempts keep one assertion. -/
theorem sending_of_keeps {J : List Acted → Phone → Prop} {C : Command → Prop}
    {Ψ : List Acted → Phone → Except Thrown HttpResponse → Prop} (hJ : Keeps Phone.exec A Φ C J)
    (hwait : ∀ o : Command, o.isWait = true → C o) (hsend : C (.send idempotency request))
    (hΨ : ∀ h s e, J h s → Ψ h s (.error e))
    (hresponse : ∀ h s world response s', J h s →
      Phone.exec world s (.send idempotency request) = some (some (.response response), s') →
      J (⟨.send idempotency request, some (.response response)⟩ :: h) s' →
      Ψ (⟨.send idempotency request, some (.response response)⟩ :: h) s' (.ok response)) :
    Sending opts A Φ idempotency request (fun _ => J) Ψ where
  wait _ h s o h₀ ho := hJ h s o h₀ (hwait o ho)
  send _ h s h₀ := (hJ h s _ h₀ hsend).1
  again _ h s world r s' h₀ hx hA _ := (hJ h s _ h₀ hsend).2 world r s' hx hA
  response _ h s world response s' h₀ hx hA _ := hresponse _ _ _ _ _ h₀ hx ((hJ h s _ h₀ hsend).2 world _ s' hx hA)
  raised _ h s world e s' h₀ hx hA := hΨ _ _ _ ((hJ h s _ h₀ hsend).2 world _ s' hx hA)
  failed _ h s _ _ h₀ := hΨ h s _ h₀
  other _ h s h₀ := hΨ h s _ h₀

/-- What `call` makes of a request. -/
theorem turn_call {spec : CallSpec α} {Ψ : List Acted → Phone → Except Thrown α → Prop}
    (hS : Sending opts A Φ spec.idempotency spec.request J fun h s r => match r with
      | .ok response => Ψ h s ((readResponse spec response).mapError .mobile)
      | .error e => Ψ h s (.error e)) (hJ : J 1 h s) : Turn A Φ Ψ h s (call opts spec) := by
  unfold call sendWithRetry
  refine During.bind (Q := fun response h s => Ψ h s ((readResponse spec response).mapError .mobile)) ?_ ?_
  · refine (Sending.attempts hS (by simp) hJ).weaken fun h s r hr => ?_
    cases r with
    | ok response => exact hr
    | error e => exact hr
  · intro response h s hr
    exact (turn_settle _).mpr hr

/-- What a call returns has been read off an answer to its request. -/
theorem turn_call_answered (spec : CallSpec α) : Turn A (fun _ _ _ => True) (fun h _ r => ∀ v, r = .ok v →
    ∃ response, (⟨.send spec.idempotency spec.request, some (.response response)⟩ : Acted) ∈ h ∧
      readResponse spec response = .ok v) h s (call opts spec) := by
  refine turn_call (J := fun _ _ _ => True) ?_ trivial
  have hthrown : ∀ (e : Thrown) (v : α), (.error e : Except Thrown α) ≠ .ok v := fun _ _ h => nomatch h
  refine ⟨fun _ _ _ _ _ _ => ⟨trivial, fun _ _ _ _ _ => trivial⟩, fun _ _ _ _ => trivial, fun _ _ _ _ _ _ _ _ _ _ => trivial,
    fun n h s world response s' _ _ _ _ v hv => ?_, fun _ _ _ _ e _ _ _ _ v hv => absurd hv (hthrown _ v),
    fun _ _ _ _ _ _ v hv => absurd hv (hthrown _ v), fun _ _ _ _ v hv => absurd hv (hthrown _ v)⟩
  refine ⟨response, List.mem_cons_self, ?_⟩
  cases hread : readResponse spec response with
  | ok value =>
    rw [hread] at hv
    exact congrArg _ (Except.ok.inj hv)
  | error e =>
    rw [hread] at hv
    exact absurd hv (hthrown _ v)

/-- The call has been answered under some session by what is read as `v`. -/
def AnsweredWith (spec : CallSpec α) (h : List Acted) (v : α) : Prop :=
  ∃ token response, (⟨.send spec.idempotency { spec with bearer := some token }.request,
    some (.response response)⟩ : Acted) ∈ h ∧ readResponse spec response = .ok v

/-- What a call under the session returns has been read off an answer to one of its requests. -/
theorem turn_authed_answered (spec : CallSpec α) : Turn A (fun _ _ _ => True)
    (fun h _ r => ∀ v, r = .ok v → AnsweredWith spec h v) h s (authed opts spec) := by
  have hΦ : ∀ (h : List Acted) (s : Phone) (o : Command), True := fun _ _ _ => trivial
  have he : ∀ (h : List Acted) (s : Phone) (e : Thrown) (v : α),
      (.error e : Except Thrown α) = .ok v → AnsweredWith spec h v := fun _ _ _ _ h => nomatch h
  have hcall : ∀ token h s, Turn A (fun _ _ _ => True) (fun h _ r => ∀ v, r = .ok v → AnsweredWith spec h v) h s
      (call opts { spec with bearer := some token }) := by
    refine fun token h s => (turn_call_answered { spec with bearer := some token }).weaken fun h s r hr v hv => ?_
    obtain ⟨response, hmem, hread⟩ := hr v hv
    exact ⟨token, response, hmem, hread⟩
  unfold authed
  refine during_bind_of_forall hΦ he fun token h s => ?_
  refine During.recover (Q := fun _ _ _ => True) ((hcall token h s).weaken fun h s r hr => ?_) fun e h s _ => ?_
  · cases r with
    | ok value => exact hr
    | error e => trivial
  refine during_ite (fun _ => ?_) fun _ => during_ite (fun _ => ?_) fun _ => he h s _
  · exact during_bind_of_forall hΦ he fun _ h s => he h s _
  · exact during_bind_of_forall hΦ he fun _ h s => during_bind_of_forall hΦ he fun fresh h s => hcall fresh h s

end SdidBridge.Mobile
