import SdidBridge.Mobile.Turns

/-!
# When the phone is wiped

`authed` wipes the phone when the broker answers the first request of a call under the session that the binding is
dead. It does not look at the same answer to a login, nor to the request that it repeats after a login, and it does
not look at which binding the answer speaks of. `Heeded` rules these cases out, and with them ruled out the phone is
wiped exactly when it should be: `WipesExactly`.
-/

namespace SdidBridge.Mobile

open Concurrent Prog

variable {opts : ProtocolClientOptions} {α : Type} {h h' : List Acted} {s s' s₀ : Phone}

/-! ## Answers -/

/-- The endpoints of an enrolment, where there is no binding yet. -/
def Endpoint.enrols : Endpoint → Bool
  | .attestationChallenge => true
  | .enrolStart => true
  | .enrolActivate => true
  | _ => false

/-- The endpoints of a login, whose requests name the binding. -/
def Endpoint.logsIn : Endpoint → Bool
  | .loginChallenge => true
  | .login => true
  | _ => false

/-- The answer is an error. -/
def HttpResponse.refuses (response : HttpResponse) : Bool := response.status < 200 ∨ 300 ≤ response.status

/-- The error of an answer. -/
def HttpResponse.error (response : HttpResponse) : MobileError :=
  .fromBrokerBody (safeJson response.body) response.status

/-- The answer says that a binding is not active or not known. -/
def HttpResponse.saysDead (response : HttpResponse) : Bool :=
  response.refuses && response.error.terminalForBinding

/-- The answer says that the session is not valid any more. -/
def HttpResponse.saysDenied (response : HttpResponse) : Bool :=
  response.refuses && (response.error.code == .protocol .access_denied && response.status == 401)

/-- The binding that an answer about a binding speaks of: the one that a login names, the one that was to be revoked
and is not known, or else the one whose session the request has. -/
def SpeaksOf (s : Phone) (request : HttpRequest) (response : HttpResponse) (bindingId : String) : Prop :=
  if request.endpoint.enrols then False
  else if request.endpoint.logsIn ∨
      request.endpoint = .revokeBinding ∧ response.error.code = .protocol .binding_not_found then
    request.text "bindingId" = some bindingId
  else ∃ token, request.bearer = some token ∧ (token, bindingId) ∈ s.granted

/-- The broker answers that the binding is dead. -/
def SaysDead (s : Phone) (a : Acted) (bindingId : String) : Prop :=
  ∃ idempotency request response, a = ⟨.send idempotency request, some (.response response)⟩ ∧
    response.saysDead = true ∧ SpeaksOf s request response bindingId

/-- Whether a call on a seam is a request that was denied. -/
def denies : Acted → Bool
  | ⟨.send _ _, some (.response response)⟩ => response.saysDenied
  | _ => false

/-- The request under the session has been denied before, so that it is repeated. -/
def Repeats (h : List Acted) : Prop := ∃ a ∈ h, denies a = true

/-- How many attempts of one request the newest calls on the seams are. -/
def attempted : List Acted → ℕ
  | ⟨.send _ _, _⟩ :: h => attempted h + 1
  | ⟨.random, _⟩ :: h => attempted h
  | ⟨.sleep _, _⟩ :: h => attempted h
  | _ => 0

/-- What is assumed of a step: an answer that a binding is dead comes to the first request under the session, it is
not asked for again, and it speaks of the stored binding. The transport throws no error of the broker, and the stores
answer. -/
structure Heeded (opts : ProtocolClientOptions) (h : List Acted) (s : Phone) (a : Acted) : Prop where
  /-- The answer that a binding is dead. -/
  dead : ∀ idempotency request response, a = ⟨.send idempotency request, some (.response response)⟩ →
    response.saysDead = true → request.endpoint.enrols = false →
    request.endpoint.logsIn = false ∧ ¬ Repeats h ∧
      ¬ Unanswered opts.retry idempotency (attempted h + 1) (some (.response response)) ∧
      ∃ b, s.persisted = some b ∧ SpeaksOf s request response b.bindingId
  /-- The transport. -/
  transport : ∀ idempotency request e, a = ⟨.send idempotency request, some (.raised e)⟩ →
    ∃ code detail, e = MobileError.local code detail
  /-- The stored binding is read. -/
  loaded : a.op = .load → a.res.isSome
  /-- The stored binding is cleared. -/
  cleared : a.op = .clear → a.res.isSome
  /-- The key is deleted. -/
  deleted : ∀ keyAlias r, a = ⟨.deleteKey keyAlias, r⟩ → r = some (.ok ())

/-- The broker has answered that the binding was revoked as the citizen asked. -/
def Revoked (h : List Acted) (bindingId : String) : Prop :=
  ∃ idempotency request response, (⟨.send idempotency request, some (.response response)⟩ : Acted) ∈ h ∧
    request.endpoint = .revokeBinding ∧ request.text "bindingId" = some bindingId ∧
    readResponse (revokeBindingCall bindingId none) response = .ok ()

/-- Why the call `q` from the phone `s₀` wipes it: it is a reset, or the stored binding is dead, or this call has
revoked it. -/
def MayWipe (q : ClientCall) (s₀ : Phone) (h : List Acted) (s : Phone) : Prop :=
  q = .reset ∨ ∃ b, s₀.persisted = some b ∧
    ((∃ a ∈ h, SaysDead s a b.bindingId) ∨ (∃ reason, q = .revokeBinding b.bindingId reason) ∧ Revoked h b.bindingId)

/-- An error that a call reads off an answer is the broker's, or the app's own. -/
theorem readResponse_error {spec : CallSpec α} {response : HttpResponse} {e : MobileError}
    (he : readResponse spec response = .error e) :
    response.refuses = true ∧ e = response.error ∨ ∃ code detail, e = MobileError.local code detail := by
  unfold readResponse at he
  dsimp only at he
  split_ifs at he with hrefuses hundefined
  · exact .inl ⟨by simpa [HttpResponse.refuses] using hrefuses, (Except.error.inj he).symm⟩
  · exact .inr ⟨_, _, (Except.error.inj he).symm⟩
  · split at he
    · simp at he
    · exact .inr ⟨_, _, (Except.error.inj he).symm⟩

/-- A refusal is read as an error. -/
theorem readResponse_of_refuses {spec : CallSpec α} {response : HttpResponse} (hr : response.refuses = true) :
    readResponse spec response = .error response.error := by
  unfold readResponse
  rw [if_pos (by simpa [HttpResponse.refuses] using hr)]
  rfl

theorem SpeaksOf.mono {request : HttpRequest} {response : HttpResponse} {bindingId : String}
    (hspeaks : SpeaksOf s request response bindingId) (hgranted : s.granted ⊆ s'.granted) :
    SpeaksOf s' request response bindingId := by
  unfold SpeaksOf at hspeaks ⊢
  split_ifs at hspeaks ⊢
  · exact hspeaks
  · obtain ⟨token, htoken, hmem⟩ := hspeaks
    exact ⟨token, htoken, hgranted hmem⟩

theorem SaysDead.mono {a : Acted} {bindingId : String} (hdead : SaysDead s a bindingId)
    (hgranted : s.granted ⊆ s'.granted) : SaysDead s' a bindingId := by
  obtain ⟨idempotency, request, response, ha, hsays, hspeaks⟩ := hdead
  exact ⟨idempotency, request, response, ha, hsays, hspeaks.mono hgranted⟩

theorem MayWipe.mono {q : ClientCall} (hmay : MayWipe q s₀ h s) (hh : h ⊆ h') (hgranted : s.granted ⊆ s'.granted) :
    MayWipe q s₀ h' s' := by
  refine hmay.imp_right ?_
  rintro ⟨b, hb, ⟨a, ha, hdead⟩ | ⟨hq, idempotency, request, response, hmem, hrevoked⟩⟩
  · exact ⟨b, hb, .inl ⟨a, hh ha, hdead.mono hgranted⟩⟩
  · exact ⟨b, hb, .inr ⟨hq, idempotency, request, response, hh hmem, hrevoked⟩⟩

/-! ## What holds during a call -/

/-- An answer about a binding, to a request that is not an enrolment's. -/
def Fatal (a : Acted) : Prop :=
  ∃ idempotency request response, a = ⟨.send idempotency request, some (.response response)⟩ ∧
    response.saysDead = true ∧ request.endpoint.enrols = false

/-- Before the phone is wiped: the stored binding is the one that the call started with, and no answer has said that
it is dead. -/
structure Calm (s₀ : Phone) (h : List Acted) (s : Phone) : Prop where
  /-- The stored binding. -/
  persisted : s.persisted = s₀.persisted
  /-- The answers. -/
  quiet : ∀ a ∈ h, ¬ Fatal a

/-- The broker has said that the stored binding is dead. -/
structure Doomed (s₀ : Phone) (h : List Acted) (s : Phone) : Prop where
  /-- The stored binding. -/
  persisted : s.persisted = s₀.persisted
  /-- The answer. -/
  dead : ∃ b, s₀.persisted = some b ∧ ∃ a ∈ h, SaysDead s a b.bindingId

/-- The phone has been wiped. -/
structure Wiped (s₀ s : Phone) : Prop where
  /-- No binding is stored. -/
  persisted : s.persisted = none
  /-- The key of the stored binding is gone. -/
  keys : ∀ b, s₀.persisted = some b → s.keys b.keyAlias = none

/-- What is shown of each call on a seam: a request under the session or of a login is sent while the stored binding
is there that the call started with, and the stores are wiped for a reason. -/
structure Careful (q : ClientCall) (s₀ : Phone) (h : List Acted) (s : Phone) (o : Command) : Prop where
  /-- The requests. -/
  sends : ∀ idempotency request, o = .send idempotency request → request.endpoint.enrols = false →
    s.persisted = s₀.persisted
  /-- The wipes. -/
  wipes : o = .clear ∨ (∃ keyAlias, o = .deleteKey keyAlias) → MayWipe q s₀ h s

/-- What is shown of a call when it is over: if an answer said that the binding is dead, the phone has been wiped. -/
def Settled (s₀ : Phone) (h : List Acted) (s : Phone) : Prop := (∃ a ∈ h, Fatal a) → Wiped s₀ s

theorem Calm.settled (hc : Calm s₀ h s) : Settled s₀ h s := by
  rintro ⟨a, ha, hfatal⟩
  exact absurd hfatal (hc.quiet a ha)

/-- The calls on the seams of a login and of the rest that wipes nothing. -/
def Command.harmless : Command → Bool
  | .save _ => false
  | .clear => false
  | .deleteKey _ => false
  | .send _ request => request.endpoint.logsIn
  | _ => true

theorem harmless_wait : ∀ o : Command, o.isWait = true → o.harmless = true := by
  intro o ho
  cases o <;> trivial

/-- An answer that a binding is dead is not given to a harmless call. -/
theorem not_fatal_of_harmless {o : Command} {r : Option (Answer o)} (ho : o.harmless = true)
    (hA : Heeded opts h s ⟨o, r⟩) : ¬ Fatal ⟨o, r⟩ := by
  rintro ⟨idempotency, request, response, ha, hsays, henrols⟩
  obtain ⟨hlogin, -⟩ := hA.dead idempotency request response ha hsays henrols
  obtain rfl : o = .send idempotency request := congrArg Act.op ha
  simp only [Command.harmless] at ho
  rw [ho] at hlogin
  cases hlogin

/-- Harmless calls keep the phone calm. -/
theorem keeps_calm {q : ClientCall} :
    Keeps Phone.exec (Heeded opts) (Careful q s₀) (fun o => o.harmless = true) (Calm s₀) := by
  refine fun h s o hs ho => ⟨⟨fun _ _ _ _ => hs.persisted, ?_⟩, fun world r s' hx hA => ⟨?_, ?_⟩⟩
  · rintro (rfl | ⟨keyAlias, rfl⟩) <;> cases ho
  · refine (exec_persisted hx ?_ ?_).trans hs.persisted
    · rintro b rfl
      cases ho
    · rintro rfl
      cases ho
  · intro a ha
    rcases List.mem_cons.mp ha with rfl | ha
    · exact not_fatal_of_harmless ho hA
    · exact hs.quiet a ha

theorem harmless_backchannel : Backchannel opts fun o => o.harmless = true where
  wait := harmless_wait
  loginChallenge _ := rfl
  login _ _ _ := rfl
  load := rfl
  now := rfl
  session := rfl
  setSession _ := rfl
  sign _ _ _ := rfl

/-! ## A request under the session -/

/-- Where a request under the session leaves the phone that ends with the error `e`. -/
structure OnError (s₀ : Phone) (h : List Acted) (s : Phone) (e : MobileError) : Prop where
  /-- The error says that the stored binding is dead. -/
  dead : e.terminalForBinding = true → Doomed s₀ h s
  /-- It does not. -/
  other : e.terminalForBinding = false → Calm s₀ h s
  /-- The error says that the session is not valid any more. -/
  denied : e.code = .protocol .access_denied ∧ e.httpStatus = some 401 → Repeats h

/-- How a request under the session ends. -/
def Outcome (s₀ : Phone) (h : List Acted) (s : Phone) : Except Thrown α → Prop
  | .ok _ => Calm s₀ h s
  | .error e => OnError s₀ h s (toMobileError e)

/-- An error of the app's own leaves the phone calm. -/
theorem Calm.onError_local (hc : Calm s₀ h s) (code : LocalErrorCode) (detail : Option String) :
    OnError s₀ h s (.local code detail) where
  dead hterminal := by simp at hterminal
  other _ := hc
  denied hdenied := by simp [MobileError.local] at hdenied

/-- What is known of an answer is known of the request that it was given to. -/
theorem Calm.cons {idempotency : Idempotency} {request : HttpRequest} {result : Option SendResult} (hc : Calm s₀ h s)
    (hpersisted : s'.persisted = s.persisted)
    (hresult : ∀ response, result = some (.response response) → response.saysDead = false) :
    Calm s₀ (⟨.send idempotency request, result⟩ :: h) s' := by
  refine ⟨hpersisted.trans hc.persisted, fun a ha => ?_⟩
  rcases List.mem_cons.mp ha with rfl | ha
  · rintro ⟨_, _, response, heq, hsays, -⟩
    obtain ⟨⟨rfl, rfl⟩, hres⟩ : (idempotency = _ ∧ request = _) ∧ _ := by simpa using heq
    rw [hresult response (by simpa using hres)] at hsays
    cases hsays
  · exact hc.quiet a ha

/-- What an answer to a request under the session makes of a calm phone. -/
theorem Calm.outcome_response {spec : CallSpec α} {idempotency : Idempotency} {request : HttpRequest}
    {response : HttpResponse} (hc : Calm s₀ h s) (henrols : request.endpoint.enrols = false)
    (hA : Heeded opts h s ⟨.send idempotency request, some (.response response)⟩)
    (hpersisted : s'.persisted = s.persisted) (hgranted : s.granted ⊆ s'.granted) :
    Outcome s₀ (⟨.send idempotency request, some (.response response)⟩ :: h) s'
      ((readResponse spec response).mapError .mobile) := by
  have hcalm : response.saysDead = false → Calm s₀ (⟨.send idempotency request, some (.response response)⟩ :: h) s' :=
    fun hsays => hc.cons hpersisted fun response' hres => by
      obtain rfl : response = response' := by simpa using hres
      exact hsays
  cases hrefuses : response.refuses with
  | true =>
    rw [readResponse_of_refuses hrefuses]
    refine ⟨fun hterminal => ?_, fun hother => hcalm ?_, ?_⟩
    · have hsays : response.saysDead = true := by
        rw [HttpResponse.saysDead, hrefuses, Bool.true_and]
        exact hterminal
      obtain ⟨-, -, -, b, hb, hspeaks⟩ := hA.dead _ _ _ rfl hsays henrols
      exact ⟨hpersisted.trans hc.persisted, b, hc.persisted ▸ hb, _, List.mem_cons_self, _, _, _, rfl, hsays,
        hspeaks.mono hgranted⟩
    · rw [HttpResponse.saysDead, hrefuses, Bool.true_and]
      exact hother
    · rintro ⟨hcode, hstatus⟩
      refine ⟨_, List.mem_cons_self, ?_⟩
      have hstatus : response.status = 401 := by
        simpa [toMobileError, HttpResponse.error] using hstatus
      have hcode : response.error.code = .protocol .access_denied := hcode
      simp [denies, HttpResponse.saysDenied, hrefuses, hcode, hstatus]
  | false =>
    have hsays : response.saysDead = false := by rw [HttpResponse.saysDead, hrefuses, Bool.false_and]
    cases hread : readResponse spec response with
    | ok value => exact hcalm hsays
    | error e =>
      rcases readResponse_error hread with ⟨hrefuses', -⟩ | ⟨code, detail, rfl⟩
      · rw [hrefuses] at hrefuses'
        cases hrefuses'
      · exact (hcalm hsays).onError_local code detail

/-- The attempts of a request under the session, from a calm phone. -/
theorem sending_session {q : ClientCall} {spec : CallSpec α} (henrols : spec.endpoint.enrols = false) :
    Sending opts (Heeded opts) (Careful q s₀) spec.idempotency spec.request
      (fun n h s => Calm s₀ h s ∧ attempted h + 1 = n) fun h s r => match r with
        | .ok response => Outcome s₀ h s ((readResponse spec response).mapError .mobile)
        | .error e => Outcome (α := α) s₀ h s (.error e) where
  wait n h s o hs ho := by
    obtain ⟨hΦ, hkeep⟩ := keeps_calm h s o hs.1 (harmless_wait o ho)
    refine ⟨hΦ, fun world r s' hx hA => ⟨hkeep world r s' hx hA, ?_⟩⟩
    rw [← hs.2]
    cases o <;> first
      | rfl
      | exact absurd ho (by simp [Command.isWait])
  send n h s hs := by
    refine ⟨fun _ _ _ _ => hs.1.persisted, ?_⟩
    rintro (hclear | ⟨keyAlias, hdelete⟩)
    · cases hclear
    · cases hdelete
  again n h s world r s' hs hx hA hunanswered := by
    refine ⟨hs.1.cons (exec_persisted hx (by simp) (by simp)) fun response hr => ?_, by rw [← hs.2]; rfl⟩
    subst hr
    by_contra hsays
    obtain ⟨-, -, hfinal, -⟩ := hA.dead _ _ _ rfl (by simpa using hsays) henrols
    exact hfinal (hs.2.symm ▸ hunanswered)
  response n h s world response s' hs hx hA _ :=
    hs.1.outcome_response henrols hA (exec_persisted hx (by simp) (by simp)) (exec_granted hx)
  raised n h s world e s' hs hx hA := by
    obtain ⟨code, detail, rfl⟩ := hA.transport _ _ _ rfl
    have hc : Calm s₀ (⟨.send spec.idempotency spec.request, some (.raised (.local code detail))⟩ :: h) s' :=
      hs.1.cons (exec_persisted hx (by simp) (by simp)) fun response hr => by simp at hr
    exact hc.onError_local code detail
  failed n h s code detail hs := hs.1.onError_local code detail
  other n h s hs := hs.1.onError_local .unknown none

/-- A request under the session is sent from a calm phone. -/
theorem turn_call_session {q : ClientCall} {spec : CallSpec α} (henrols : spec.endpoint.enrols = false)
    (hc : Calm s₀ h s) (hfresh : attempted h = 0) :
    Turn (Heeded opts) (Careful q s₀) (Outcome s₀) h s (call opts spec) := by
  refine turn_call (sending_session henrols) ⟨hc, by rw [hfresh]⟩

/-- `ensureSession` ends with a call on a seam that is no request. -/
theorem turn_ensureSession_fresh {A : List Acted → Phone → Acted → Prop} : Turn A (fun _ _ _ => True)
    (fun h _ r => ∀ token, r = .ok token → attempted h = 0) h s (ensureSession opts) := by
  have hlogin : ∀ h s, Turn A (fun _ _ _ => True) (fun h _ r => ∀ token, r = .ok token → attempted h = 0) h s (do
      await (.setSession none)
      login opts) := by
    intro h s
    have hΦ : ∀ (h : List Acted) (s : Phone) (o : Command), True := fun _ _ _ => trivial
    have he : ∀ (h : List Acted) (s : Phone) (e : Thrown) (token : String),
        (.error e : Except Thrown String) = .ok token → attempted h = 0 := fun _ _ _ _ h => nomatch h
    unfold login
    refine during_bind_of_forall hΦ he fun _ h s => during_bind_of_forall hΦ he fun binding h s => ?_
    refine during_bind_of_forall hΦ he fun challenge h s => during_bind_of_forall hΦ he fun payload h s => ?_
    refine during_bind_of_forall hΦ he fun signature h s => during_bind_of_forall hΦ he fun result h s => ?_
    refine during_bind_of_forall hΦ he fun now h s => turn_setSession_bind trivial ?_
    exact fun _ _ => rfl
  unfold ensureSession
  refine turn_session_bind trivial ?_
  cases hsession : s.session with
  | none => exact hlogin _ _
  | some live =>
    refine turn_await_bind.mpr ⟨trivial, fun _ _ _ _ => by simp, fun world now s' _ _ => ?_⟩
    exact during_ite (fun _ _ _ => rfl) fun _ => hlogin _ _

/-! ## The methods -/

theorem repeats_cons (a : Acted) (h : List Acted) (hr : Repeats h) : Repeats (a :: h) := by
  obtain ⟨b, hmem, hdenies⟩ := hr
  exact ⟨b, List.mem_cons_of_mem _ hmem, hdenies⟩

/-- A request that is repeated keeps the phone calm. -/
theorem keeps_repeated {q : ClientCall} : Keeps Phone.exec (Heeded opts) (Careful q s₀)
    (fun o => o.harmless = true ∨ ∃ idempotency request, o = .send idempotency request ∧ request.endpoint.enrols = false)
    fun h s => Calm s₀ h s ∧ Repeats h := by
  rintro h s o ⟨hc, hr⟩ (ho | ⟨idempotency, request, rfl, henrols⟩)
  · exact keeps_calm.and_past repeats_cons h s o ⟨hc, hr⟩ ho
  · refine ⟨⟨fun _ _ _ _ => hc.persisted, ?_⟩, fun world r s' hx hA => ⟨?_, repeats_cons _ _ hr⟩⟩
    · rintro (hclear | ⟨keyAlias, hdelete⟩)
      · cases hclear
      · cases hdelete
    · refine hc.cons (exec_persisted hx (by simp) (by simp)) fun response hres => ?_
      subst hres
      by_contra hsays
      obtain ⟨-, hfirst, -⟩ := hA.dead _ _ _ rfl (by simpa using hsays) henrols
      exact hfirst hr

theorem Doomed.mayWipe {q : ClientCall} (hd : Doomed s₀ h s) : MayWipe q s₀ h s := by
  obtain ⟨b, hb, hdead⟩ := hd.dead
  exact .inr ⟨b, hb, .inl hdead⟩

/-- `reset` wipes the phone, if there is a reason to. -/
theorem turn_reset_wiped {q : ClientCall} (hmay : MayWipe q s₀ h s) (hstored : s.persisted = s₀.persisted) :
    Turn (Heeded opts) (Careful q s₀) (fun _ s r => r = .ok () ∧ Wiped s₀ s) h s (reset opts) := by
  have hplain : ∀ {h s o}, (∀ i request, o ≠ .send i request) → MayWipe q s₀ h s → Careful q s₀ h s o :=
    fun ho hmay => ⟨fun i request hsend _ => absurd hsend (ho i request), fun _ => hmay⟩
  unfold reset
  refine turn_setSession_bind (hplain (by simp) hmay) ?_
  have hmay₁ : MayWipe q s₀ (⟨.setSession none, some ()⟩ :: h) { s with session := none } :=
    hmay.mono (List.subset_cons_self _ _) (List.Subset.refl _)
  refine turn_await_bind.mpr ⟨hplain (by simp) hmay₁, fun world s' hx hA => ?_, fun world stored s' hx hA => ?_⟩
  · exact absurd (hA.loaded rfl) (by simp)
  obtain ⟨rfl, rfl⟩ := exec_load hx
  have hmay₂ := hmay₁.mono (List.subset_cons_self (⟨.load, some s.persisted⟩ : Acted) _) (List.Subset.refl _)
  refine turn_await_bind.mpr ⟨hplain (by simp) hmay₂, fun world s' hx hA => ?_, fun world r s' hx hA => ?_⟩
  · exact absurd (hA.cleared rfl) (by simp)
  have hmay₃ := hmay₂.mono (List.subset_cons_self (⟨.clear, some r⟩ : Acted) _) (exec_granted hx)
  have hcleared : s'.persisted = none := by
    simp only [Phone.exec, Option.some.injEq, Prod.mk.injEq] at hx
    obtain ⟨hanswer, rfl⟩ := hx
    rw [if_pos hanswer]
  refine During.recover (Q := fun _ _ _ => False) ?_ fun _ _ _ hf => hf.elim
  refine turn_await_bind.mpr ⟨hplain (by simp) hmay₃, fun world s' hx hA => ?_, fun world r s' hx hA => ?_⟩
  · exact absurd (hA.deleted _ _ rfl) (by simp)
  obtain rfl := Option.some.inj (hA.deleted _ _ rfl)
  have hnone := (exec_persisted hx (by simp) (by simp)).trans hcleared
  simp only [Phone.exec, Option.some.injEq, Prod.mk.injEq] at hx
  obtain ⟨hanswer, rfl⟩ := hx
  rw [hanswer] at hnone ⊢
  refine ⟨rfl, hnone, fun b hb => ?_⟩
  have halias : (s.persisted.map PersistedBinding.keyAlias).getD opts.keyAlias = b.keyAlias := by
    rw [hstored, hb]
    rfl
  dsimp only
  rw [halias]
  exact Function.update_self _ _ _

/-- A call under the session keeps what `Careful` and `Settled` say. -/
theorem turn_authed_settled {q : ClientCall} {spec : CallSpec α} (henrols : spec.endpoint.enrols = false)
    (hc : Calm s₀ h s) :
    Turn (Heeded opts) (Careful q s₀) (fun h s r => match r with
      | .ok _ => Calm s₀ h s
      | .error _ => Settled s₀ h s) h s (authed opts spec) := by
  have hsession : Turn (Heeded opts) (Careful q s₀) (fun h s r => Calm s₀ h s ∧ ∀ token, r = .ok token → attempted h = 0)
      h s (ensureSession opts) := by
    have hcalm : Turn (Heeded opts) (Careful q s₀) (fun h s _ => Calm s₀ h s) h s (ensureSession opts) :=
      (only_ensureSession harmless_backchannel).during keeps_calm hc
    exact (hcalm.and turn_ensureSession_fresh).mono (fun _ _ _ hΦ => hΦ.1) fun h s r hr => hr
  unfold authed
  refine During.bind (Q := fun _ h s => Calm s₀ h s ∧ attempted h = 0) (hsession.weaken fun h s r hr => ?_) ?_
  · cases r with
    | ok token => exact ⟨hr.1, hr.2 token rfl⟩
    | error e => exact hr.1.settled
  rintro token h s ⟨hc, hfresh⟩
  refine During.recover (Q := fun e h s => OnError s₀ h s (toMobileError e))
    (During.weaken (turn_call_session henrols hc hfresh) fun h s r hr => ?_) fun e h s he => ?_
  · cases r <;> exact hr
  refine during_ite (fun hterminal => ?_) fun hother => ?_
  · have hdoomed := he.dead hterminal
    refine During.bind (Q := fun _ _ s => Wiped s₀ s)
      ((turn_reset_wiped hdoomed.mayWipe hdoomed.persisted).weaken fun h s r hr => ?_) fun _ h s hwiped _ => hwiped
    obtain ⟨rfl, hwiped⟩ := hr
    exact hwiped
  have hc : Calm s₀ h s := he.other (by simpa using hother)
  refine during_ite (fun hdenied => ?_) fun _ => hc.settled
  -- the request is repeated, which no answer may follow that a binding is dead
  have hrepeats : Repeats h := he.denied ⟨hdenied.1, hdenied.2.1⟩
  have honly : Only (fun o => o.harmless = true ∨
      ∃ idempotency request, o = .send idempotency request ∧ request.endpoint.enrols = false) (do
        await (.setSession none)
        let fresh ← ensureSession opts
        call opts { spec with bearer := some fresh }) := by
    refine Only.bind (only_await (.inl rfl)) fun _ => ?_
    refine ((only_ensureSession harmless_backchannel).mono fun _ ho => .inl ho).bind fun fresh => ?_
    exact only_call (fun o ho => .inl (harmless_wait o ho)) (.inr ⟨_, _, rfl, henrols⟩)
  refine (honly.during keeps_repeated ⟨hc, hrepeats⟩).weaken fun h s r hr => ?_
  cases r with
  | ok value => exact hr.1
  | error e => exact hr.1.settled

/-- A revocation wipes the phone after its own binding has been revoked. -/
theorem turn_revokeBinding_settled {bindingId : String} {reason : Option String} (hc : Calm s₀ h s) :
    Turn (Heeded opts) (Careful (.revokeBinding bindingId reason) s₀) (fun h s _ => Settled s₀ h s) h s
      (revokeBinding opts bindingId reason) := by
  unfold revokeBinding
  refine During.bind (Q := fun _ h s => Calm s₀ h s ∧ Revoked h bindingId) ?_ ?_
  · refine ((turn_authed_settled rfl hc).and (turn_authed_answered _)).mono (fun _ _ _ hΦ => hΦ.1) fun h s r hr => ?_
    cases r with
    | error e => exact hr.1
    | ok value =>
      obtain ⟨token, response, hmem, hread⟩ := hr.2 value rfl
      refine ⟨hr.1, _, _, _, hmem, rfl, ?_, hread⟩
      simp [HttpRequest.text, CallSpec.request, revokeBindingCall, member, zString]
  rintro _ h s ⟨hc, hrevoked⟩
  obtain ⟨hΦ, hkeep⟩ := (keeps_calm : Keeps Phone.exec (Heeded opts) (Careful (.revokeBinding bindingId reason) s₀)
    (fun o => o.harmless = true) (Calm s₀)) h s .load hc rfl
  refine turn_await_bind.mpr ⟨hΦ, fun world s' hx hA => ?_, fun world stored s' hx hA => ?_⟩
  · exact absurd (hA.loaded rfl) (by simp)
  have hc' : Calm s₀ (⟨.load, some stored⟩ :: h) s' := hkeep world (some stored) s' hx hA
  obtain ⟨rfl, rfl⟩ := exec_load hx
  refine during_ite (fun hown => ?_) fun _ => hc'.settled
  obtain ⟨b, hb, rfl⟩ := Option.map_eq_some_iff.mp hown
  have hmay : MayWipe (.revokeBinding b.bindingId reason) s₀ (⟨.load, some s'.persisted⟩ :: h) s' := by
    obtain ⟨idempotency, request, response, hmem, hread⟩ := hrevoked
    exact .inr ⟨b, hc.persisted ▸ hb, .inr ⟨⟨reason, rfl⟩, idempotency, request, response,
      List.mem_cons_of_mem _ hmem, hread⟩⟩
  exact (turn_reset_wiped hmay hc'.persisted).weaken fun h s r hr _ => hr.2

theorem turn_decide_settled {q : ClientCall} {txn : PendingTransaction} {decision : Decision} {report : Option Bool}
    (hc : Calm s₀ h s) :
    Turn (Heeded opts) (Careful q s₀) (fun h s _ => Settled s₀ h s) h s (decide opts txn decision report) := by
  have hkeeps : Keeps Phone.exec (Heeded opts) (Careful q s₀) (fun o => o.harmless = true) (Calm s₀) := keeps_calm
  have hsettled : ∀ h s (_ : Thrown), Calm s₀ h s → Settled s₀ h s := fun _ _ _ hc => hc.settled
  unfold decide
  refine (only_requireBinding (C := fun o => o.harmless = true) rfl).during_bind hkeeps hc hsettled fun binding h s hc => ?_
  refine (only_ensureSession harmless_backchannel).during_bind hkeeps hc hsettled fun _ h s hc => ?_
  refine turn_wait_bind hkeeps hc rfl (fun _ _ hc => hc.settled) fun now h s hc => ?_
  refine (only_throwIf _ _).during_bind hkeeps hc hsettled fun _ h s hc => ?_
  refine turn_expectPayload_bind hc.settled ?_
  refine (only_sign (C := fun o => o.harmless = true) rfl).during_bind hkeeps hc hsettled fun signature h s hc => ?_
  refine (turn_authed_settled rfl hc).weaken fun h s r hr => ?_
  cases r with
  | ok value => exact hr.settled
  | error e => exact hr

/-- The calls on the seams of an enrolment. -/
def Command.enrolling : Command → Bool
  | .clear => false
  | .deleteKey _ => false
  | .send _ request => request.endpoint.enrols
  | _ => true

theorem enrolling_commands : Enrolling opts fun o => o.enrolling = true where
  wait o ho := by cases o <;> trivial
  attestationChallenge := rfl
  enrolStart _ _ _ _ _ := rfl
  enrolActivate _ _ _ := rfl
  keyStoreCapabilities := rfl
  biometricCapabilities := rfl
  generate _ := rfl
  attest _ := rfl
  capture _ _ := rfl
  toDto := rfl
  dispose := rfl
  now := rfl
  save _ := rfl
  sign _ _ _ := rfl

/-- An enrolment has no answers about a binding that is stored, and wipes nothing. -/
theorem turn_enrol_settled {q : ClientCall} {input : EnrolInput} (hh : ∀ a ∈ h, ¬ Fatal a) :
    Turn (Heeded opts) (Careful q s₀) (fun h s _ => Settled s₀ h s) h s (enrol opts input) := by
  have hkeeps : Keeps Phone.exec (Heeded opts) (Careful q s₀) (fun o => o.enrolling = true)
      fun h _ => ∀ a ∈ h, ¬ Fatal a := by
    refine fun h s o hh ho => ⟨⟨fun idempotency request hsend henrols => ?_, ?_⟩, fun world r s' _ _ a ha => ?_⟩
    · subst hsend
      exact absurd (henrols.symm.trans ho) (by simp)
    · rintro (rfl | ⟨keyAlias, rfl⟩) <;> cases ho
    · rcases List.mem_cons.mp ha with rfl | ha
      · rintro ⟨idempotency, request, response, heq, -, henrols⟩
        obtain rfl : o = .send idempotency request := congrArg Act.op heq
        exact absurd (henrols.symm.trans ho) (by simp)
      · exact hh a ha
  refine ((only_enrol enrolling_commands input).during hkeeps hh).weaken fun h s _ hquiet => ?_
  rintro ⟨a, ha, hfatal⟩
  exact absurd hfatal (hquiet a ha)

/-- Each call of the app settles what the broker has said, and wipes the phone for a reason only. -/
theorem method_settled (q : ClientCall) :
    Turn (Heeded opts) (Careful q s) (fun h s' _ => Settled s h s') [] s (q.method opts) := by
  have hstart : Calm s [] s := ⟨rfl, fun a ha => absurd ha List.not_mem_nil⟩
  have hvoid : ∀ {α : Type} {p : Client α},
      Turn (Heeded opts) (Careful q s) (fun h s' _ => Settled s h s') [] s p →
      Turn (Heeded opts) (Careful q s) (fun h s' _ => Settled s h s') [] s (void p) := by
    intro α p hp
    refine During.bind (Q := fun _ h s' => Settled s h s') (hp.weaken fun h s r hr => ?_) fun _ h s hs => hs
    cases r <;> exact hr
  have hauthed : ∀ {α : Type} {spec : CallSpec α}, spec.endpoint.enrols = false →
      Turn (Heeded opts) (Careful q s) (fun h s' _ => Settled s h s') [] s (authed opts spec) := by
    intro α spec henrols
    refine (turn_authed_settled henrols hstart).weaken fun h s r hr => ?_
    cases r with
    | ok value => exact hr.settled
    | error e => exact hr
  have hload : Only (fun o => o.harmless = true) (await .load) := only_await rfl
  cases q with
  | enrol input => exact hvoid (turn_enrol_settled hstart.quiet)
  | login =>
    exact hvoid (((only_login harmless_backchannel).during keeps_calm hstart).weaken fun _ _ _ hc => hc.settled)
  | pullPending => exact hvoid (hauthed rfl)
  | decide txn decision report => exact hvoid (turn_decide_settled hstart)
  | listBindings => exact hvoid (hauthed rfl)
  | revokeBinding bindingId reason => exact turn_revokeBinding_settled hstart
  | listConsents => exact hvoid (hauthed rfl)
  | revokeConsent consentId => exact hauthed rfl
  | activity => exact hvoid (hauthed rfl)
  | currentBinding => exact hvoid ((hload.during keeps_calm hstart).weaken fun _ _ _ hc => hc.settled)
  | isEnrolled =>
    exact hvoid (((hload.bind fun _ => only_pure _).during keeps_calm hstart).weaken fun _ _ _ hc => hc.settled)
  | reset => exact (turn_reset_wiped (.inl rfl) rfl).weaken fun _ _ _ hr _ => hr.2

/-! ## Runs -/

/-- The phone is wiped exactly when it should be. -/
structure WipesExactly (tr : List (Entry Command Answer ClientCall Phone))
    (c : Config Command Answer Thrown Unit Phone) : Prop where
  /-- When a call is over in which the broker said that the stored binding is dead, the binding and its key are
  gone. -/
  dead : ∀ l₁ s t a l₂ b, tr = l₁ ++ ⟨s, .act t a⟩ :: l₂ → s.persisted = some b → SaysDead s a b.bindingId →
    c.calls.length = t + 1 → (∀ u, ¬ InProgress c u) → c.store.persisted = none ∧ c.store.keys b.keyAlias = none
  /-- A call clears the stored binding and deletes a key for one of the reasons only. -/
  only : ∀ l₁ s t a l₂, tr = l₁ ++ ⟨s, .act t a⟩ :: l₂ → a.op = .clear ∨ (∃ keyAlias, a.op = .deleteKey keyAlias) →
    ∃ s₀ q, (⟨s₀, .arrive t q⟩ : Entry Command Answer ClientCall Phone) ∈ l₂ ∧ MayWipe q s₀ (own t l₂) s

theorem SaysDead.fatal {a : Acted} {bindingId : String} (hdead : SaysDead s a bindingId) : Fatal a := by
  obtain ⟨idempotency, request, response, rfl, hsays, hspeaks⟩ := hdead
  refine ⟨idempotency, request, response, rfl, hsays, ?_⟩
  unfold SpeaksOf at hspeaks
  split_ifs at hspeaks with henrols
  · simpa using henrols
  · simpa using henrols

theorem phone_settled (opts : ProtocolClientOptions) (init : Phone) : Machine.Lasting (phone opts init)
    (fun _ => True) (Heeded opts) Careful fun _ s h s' _ => Settled s h s' where
  init := trivial
  call q s _ := (method_settled q).weaken fun _ _ _ hs => ⟨trivial, hs⟩

/-- In every run of calls one after another whose steps are all as `Heeded` says, the phone is wiped exactly when it
should be. -/
theorem wipes_exactly {init : Phone} {tr : List (Entry Command Answer ClientCall Phone)}
    {c : Config Command Answer Thrown Unit Phone} (hr : (phone opts init).Serial tr c)
    (hheeded : ∀ l₁ s t a l₂, tr = l₁ ++ ⟨s, .act t a⟩ :: l₂ → Heeded opts (own t l₂) s a) : WipesExactly tr c := by
  have hact : ∀ {l₁ s t a l₂}, tr = l₁ ++ ⟨s, .act t a⟩ :: l₂ → ∃ q s₀,
      (⟨s₀, .arrive t q⟩ : Entry Command Answer ClientCall Phone) ∈ l₂ ∧ Careful q s₀ (own t l₂) s a.op := by
    rintro l₁ s t a l₂ rfl
    refine hr.at_act (phone_settled opts init) fun k₁ s' t' a' k₂ hk => ?_
    exact hheeded (l₁ ++ ⟨s, .act t a⟩ :: k₁) s' t' a' k₂ (by simp [hk])
  refine ⟨fun l₁ s t a l₂ b htr hb hdead hlast hover => ?_, fun l₁ s t a l₂ htr hwipes => ?_⟩
  · obtain ⟨q, s₀, ha, hcareful⟩ := hact htr
    have hmem : a ∈ own t tr := mem_own.mpr ⟨_, htr ▸ List.mem_append_right _ List.mem_cons_self, rfl⟩
    have harrived : (⟨s₀, .arrive t q⟩ : Entry Command Answer ClientCall Phone) ∈ tr :=
      htr ▸ List.mem_append_right _ (List.mem_cons_of_mem _ ha)
    obtain ⟨x, hsettled⟩ := hr.at_rest (phone_settled opts init) hheeded harrived hlast hover
    have hwiped : Wiped s₀ c.store := hsettled ⟨a, hmem, hdead.fatal⟩
    obtain ⟨idempotency, request, response, rfl, -, henrols⟩ := hdead.fatal
    have hstored : s.persisted = s₀.persisted := hcareful.sends idempotency request rfl henrols
    exact ⟨hwiped.persisted, hwiped.keys b (hstored ▸ hb)⟩
  · obtain ⟨q, s₀, ha, hcareful⟩ := hact htr
    exact ⟨s₀, q, ha, hcareful.wipes hwipes⟩

/-- Whether an entry is a login challenge that is refused because the stored binding is dead. -/
def refusesLogin (t : ℕ) (e : Entry Command Answer ClientCall Phone) : Bool :=
  match e.event with
  | .act u ⟨.send _ request, some (.response response)⟩ =>
    u == t && response.saysDead && request.endpoint == .loginChallenge &&
      request.text "bindingId" == some sampleBinding.bindingId && e.before.persisted == some sampleBinding
  | _ => false

/-- A phone whose binding has been revoked lists its devices: the broker refuses the login challenge, and the phone
keeps the binding. -/
theorem not_wipesExactly_sampleRevoked : ∃ tr c, (phone sampleOptions samplePhone).Serial tr c ∧ ¬ WipesExactly tr c := by
  obtain ⟨tr, c, hr, hrun⟩ := (phone sampleOptions samplePhone).exists_of_playSerial
    (.arrive .listBindings :: goes (worldOf fun _ => refusal 401 .binding_not_active) 0 4).reverse
    (p := fun run => run.1.any (refusesLogin 0) && (run.2.calls.length == 1 && run.2.calls.all Machine.ended &&
      run.2.store.persisted.isSome)) (by decide +kernel)
  simp only [Bool.and_eq_true, beq_iff_eq] at hrun
  obtain ⟨hrefuses, ⟨hone, hended⟩, hstored⟩ := hrun
  refine ⟨tr, c, hr, fun hexactly => ?_⟩
  obtain ⟨⟨s, ev⟩, he, hlogin⟩ := List.any_eq_true.mp hrefuses
  obtain ⟨l₁, l₂, htr⟩ := List.append_of_mem he
  unfold refusesLogin at hlogin
  split at hlogin
  · rename_i u idempotency request response hev
    simp only [Bool.and_eq_true, beq_iff_eq] at hlogin
    obtain ⟨⟨⟨⟨rfl, hsays⟩, hendpoint⟩, hnames⟩, hb⟩ := hlogin
    dsimp only at hev hb
    subst hev
    have hdead : SaysDead s ⟨.send idempotency request, some (.response response)⟩ sampleBinding.bindingId := by
      refine ⟨_, _, _, rfl, hsays, ?_⟩
      simp [SpeaksOf, hendpoint, hnames, Endpoint.enrols, Endpoint.logsIn]
    have hover : ∀ t, ¬ InProgress c t := Machine.not_inProgress_of_ended hended
    have hgone := (hexactly.dead l₁ s _ _ l₂ sampleBinding htr hb hdead hone hover).1
    simp [hgone] at hstored
  · simp at hlogin

/-- What `Heeded` asks of a step, where nothing is revoked and no gateway answers. -/
def heeds (h : List Acted) (s : Phone) : Acted → Bool
  | ⟨.send _ request, some (.response response)⟩ =>
    !response.saysDead || request.endpoint.enrols ||
      (!request.endpoint.logsIn && request.endpoint != .revokeBinding && h.all (fun a => !denies a) &&
        !isRetryableStatus response.status &&
        s.persisted.any fun b => request.bearer.any fun token => s.granted.contains (token, b.bindingId))
  | ⟨.send _ _, some (.raised _)⟩ => false
  | ⟨.load, r⟩ => r.isSome
  | ⟨.clear, r⟩ => r.isSome
  | ⟨.deleteKey _, some (.ok _)⟩ => true
  | ⟨.deleteKey _, some (.error _)⟩ => false
  | ⟨.deleteKey _, none⟩ => false
  | _ => true

theorem heeded_of_heeds {a : Acted} (ha : heeds h s a = true) : Heeded opts h s a := by
  refine ⟨?_, ?_, ?_, ?_, ?_⟩
  · rintro idempotency request response rfl hsays henrols
    simp only [heeds, hsays, henrols, Bool.not_true, Bool.false_or, Bool.and_eq_true, Bool.not_eq_true',
      List.all_eq_true, bne_iff_ne, ne_eq] at ha
    obtain ⟨⟨⟨⟨hlogin, hrevoke⟩, hdenies⟩, hfinal⟩, hstored⟩ := ha
    refine ⟨hlogin, ?_, ?_, ?_⟩
    · rintro ⟨b, hb, hdenied⟩
      rw [hdenies b hb] at hdenied
      cases hdenied
    · rintro ⟨-, hretry⟩
      rw [hfinal] at hretry
      cases hretry
    · obtain ⟨b, hb, hstored⟩ := (Option.any_eq_true _ _).mp hstored
      obtain ⟨token, htoken, hgranted⟩ := (Option.any_eq_true _ _).mp hstored
      refine ⟨b, hb, ?_⟩
      unfold SpeaksOf
      simp only [henrols, hlogin, hrevoke, Bool.false_eq_true, if_false, false_and, or_self]
      exact ⟨token, htoken, by simpa using hgranted⟩
  · rintro idempotency request e rfl
    cases ha
  · obtain ⟨o, r⟩ := a
    rintro rfl
    exact ha
  · obtain ⟨o, r⟩ := a
    rintro rfl
    exact ha
  · rintro keyAlias r rfl
    cases r with
    | none => cases ha
    | some answer =>
      cases answer with
      | error e => cases ha
      | ok u => rfl

/-- Whether every step of a run is as `heeds` says. -/
def allHeed : List (Entry Command Answer ClientCall Phone) → Bool
  | [] => true
  | ⟨s, .act t a⟩ :: tr => heeds (own t tr) s a && allHeed tr
  | _ :: tr => allHeed tr

theorem heeds_of_allHeed {tr l₁ l₂ : List (Entry Command Answer ClientCall Phone)} {t : ℕ} {a : Acted}
    (hall : allHeed tr = true) (htr : tr = l₁ ++ ⟨s, .act t a⟩ :: l₂) : heeds (own t l₂) s a = true := by
  subst htr
  induction l₁ with
  | nil =>
    simp only [List.nil_append, allHeed, Bool.and_eq_true] at hall
    exact hall.1
  | cons e l₁ ih =>
    refine ih ?_
    obtain ⟨s', ev⟩ := e
    cases ev with
    | act u b =>
      simp only [List.cons_append, allHeed, Bool.and_eq_true] at hall
      exact hall.2
    | arrive u q => exact hall
    | env => exact hall

/-- The citizen logs in, and lists the devices after the binding has been revoked. -/
def sampleWiped : List (Move ClientCall World) :=
  .arrive .login :: goes (worldOf sampleBroker) 0 6 ++
    .arrive .listBindings :: goes (worldOf fun _ => refusal 401 .binding_not_active) 1 7

/-- An answer under the session that the binding is dead wipes the phone. -/
theorem wipes_exactly_sampleWiped : ∃ tr c, (phone sampleOptions samplePhone).Serial tr c ∧
    tr.any (fun e => match e.event with
      | .act _ ⟨.clear, _⟩ => true
      | _ => false) = true ∧ WipesExactly tr c := by
  obtain ⟨tr, c, hr, hrun⟩ := (phone sampleOptions samplePhone).exists_of_playSerial sampleWiped.reverse
    (p := fun run => run.1.any (fun e => match e.event with
      | .act _ ⟨.clear, _⟩ => true
      | _ => false) && allHeed run.1) (by decide +kernel)
  obtain ⟨hclears, hall⟩ := (Bool.and_eq_true _ _).mp hrun
  exact ⟨tr, c, hr, hclears, wipes_exactly hr fun l₁ s t a l₂ htr => heeded_of_heeds (heeds_of_allHeed hall htr)⟩

end SdidBridge.Mobile
