import SdidBridge.Mobile.Turns

/-!
# Whose session the client holds

The client keeps one session and one stored binding. A login obtains a token for the stored binding, and `reset`
drops the session before it clears the store, so that between two calls the session in memory is one of the stored
binding: `Phone.SessionFits`. An enrolment that stores another binding does not drop the session. What is sent
under a session is for the stored binding in every run in which no enrolment does so.
-/

namespace SdidBridge.Mobile

open Concurrent Prog

variable {opts : ProtocolClientOptions} {h : List Acted} {s : Phone}

/-- The token was obtained by a login for the stored binding. -/
def Phone.Grants (s : Phone) (token : String) : Prop :=
  ∃ b, s.persisted = some b ∧ (token, b.bindingId) ∈ s.granted

/-- The session in memory is one of the stored binding. -/
def Phone.SessionFits (s : Phone) : Prop := ∀ live, s.session = some live → s.Grants live.token

/-- A request that is sent under a session has a token of the stored binding. -/
def BearerFits (s : Phone) : Command → Prop
  | .send _ request => ∀ token, request.bearer = some token → s.Grants token
  | _ => True

/-- A binding is stored only where the session in memory, if there is one, is a session of that binding. -/
def StoresFit (s : Phone) : Command → Prop
  | .save b => ∀ live, s.session = some live → (live.token, b.bindingId) ∈ s.granted
  | _ => True

/-- What is assumed of a step: see `StoresFit`. -/
def StoringFits (_ : List Acted) (s : Phone) (a : Acted) : Prop := StoresFit s a.op

/-- What is shown of a step: see `BearerFits`. -/
def SendingFits (_ : List Acted) (s : Phone) (o : Command) : Prop := BearerFits s o

/-- The calls on the seams that neither store nor clear a binding, nor assign the session. -/
def Command.quiet : Command → Bool
  | .save _ => false
  | .clear => false
  | .setSession _ => false
  | _ => true

/-- A request without a session. -/
def Command.anonymous : Command → Bool
  | .send _ request => request.bearer.isNone
  | _ => true

theorem bearerFits_anonymous {o : Command} (ho : o.anonymous = true) : BearerFits s o := by
  cases o with
  | send idempotency request =>
    intro token htoken
    simp [Command.anonymous, htoken] at ho
  | _ => trivial

section Quiet

variable {world : World} {s' : Phone} {o : Command} {r : Option (Answer o)}

theorem exec_quiet (hx : Phone.exec world s o = some (r, s')) (ho : o.quiet = true) :
    s'.session = s.session ∧ s'.persisted = s.persisted ∧ s.granted ⊆ s'.granted := by
  refine ⟨exec_session hx ?_, exec_persisted hx ?_ ?_, exec_granted hx⟩
  · rintro x rfl
    simp [Command.quiet] at ho
  · rintro b rfl
    simp [Command.quiet] at ho
  · rintro rfl
    simp [Command.quiet] at ho

theorem Phone.Grants.quiet {token : String} (hg : s.Grants token) (hx : Phone.exec world s o = some (r, s'))
    (ho : o.quiet = true) : s'.Grants token := by
  obtain ⟨-, hpersisted, hgranted⟩ := exec_quiet hx ho
  obtain ⟨b, hb, hmem⟩ := hg
  exact ⟨b, hpersisted.trans hb, hgranted hmem⟩

theorem Phone.SessionFits.quiet (hf : s.SessionFits) (hx : Phone.exec world s o = some (r, s'))
    (ho : o.quiet = true) : s'.SessionFits := by
  intro live hlive
  rw [(exec_quiet hx ho).1] at hlive
  exact (hf live hlive).quiet hx ho

end Quiet

/-! ## The session of the stored binding -/

/-- What is known of the phone and kept by every quiet call holds during calls that send nothing else. -/
theorem keeps_quiet {A : List Acted → Phone → Acted → Prop} {C : Command → Prop} {P : Phone → Prop}
    (hP : ∀ {s s' : Phone} {world : World} {o : Command} {r : Option (Answer o)},
      P s → Phone.exec world s o = some (r, s') → o.quiet = true → P s')
    (hquiet : ∀ o, C o → o.quiet = true) (hsend : ∀ s o, P s → C o → BearerFits s o) :
    Keeps Phone.exec A SendingFits C fun _ s => P s :=
  fun _ s o hs ho => ⟨hsend s o hs ho, fun _ _ _ hx _ => hP hs hx (hquiet o ho)⟩

/-- A call that is quiet and has no session. -/
def Command.plain (o : Command) : Prop := o.quiet = true ∧ o.anonymous = true

theorem keeps_plain {A : List Acted → Phone → Acted → Prop} {P : Phone → Prop}
    (hP : ∀ {s s' : Phone} {world : World} {o : Command} {r : Option (Answer o)},
      P s → Phone.exec world s o = some (r, s') → o.quiet = true → P s') :
    Keeps Phone.exec A SendingFits Command.plain fun _ s => P s :=
  keeps_quiet hP (fun _ ho => ho.1) fun _ _ _ ho => bearerFits_anonymous ho.2

theorem plain_wait : ∀ o : Command, o.isWait = true → o.plain := by
  intro o ho
  cases o <;> simp_all [Command.isWait, Command.plain, Command.quiet, Command.anonymous]

/-- The phone holds the binding `b`, and its session is one of it. -/
def Phone.Holds (b : PersistedBinding) (s : Phone) : Prop := s.SessionFits ∧ s.persisted = some b

theorem Phone.Holds.quiet {b : PersistedBinding} {s' : Phone} {world : World} {o : Command} {r : Option (Answer o)}
    (hs : s.Holds b) (hx : Phone.exec world s o = some (r, s')) (ho : o.quiet = true) : s'.Holds b :=
  ⟨hs.1.quiet hx ho, (exec_quiet hx ho).2.1.trans hs.2⟩

/-- A login that is answered has obtained its token for the binding that it names. -/
theorem granted_of_login {world : World} {s' : Phone} {bindingId challengeId signature : String}
    {response : HttpResponse} {result : LoginResponse}
    (hx : Phone.exec world s (.send .consumesNonce (loginCall bindingId challengeId signature).request) =
      some (some (.response response), s'))
    (hr : readResponse (loginCall bindingId challengeId signature) response = .ok result) :
    (result.sessionToken, bindingId) ∈ s'.granted := by
  have hread : readResponse (loginCall "" "" "") response = .ok result := hr
  have hnamed : (loginCall bindingId challengeId signature).request.text "bindingId" = some bindingId := by
    simp [HttpRequest.text, CallSpec.request, loginCall, member, zString]
  have hendpoint : (loginCall bindingId challengeId signature).request.endpoint = .login := rfl
  have hgrant : grantOf (loginCall bindingId challengeId signature).request (some (.response response)) =
      some (result.sessionToken, bindingId) := by
    simp only [grantOf, hendpoint, hread, hnamed, if_true]
  simp only [Phone.exec, Option.some.injEq, Prod.mk.injEq] at hx
  obtain ⟨hanswer, rfl⟩ := hx
  rw [hanswer, hgrant]
  simp

/-- A login leaves a session of the stored binding. -/
theorem turn_login (hs : s.SessionFits) : Turn StoringFits SendingFits (fun _ s r => match r with
    | .ok token => s.SessionFits ∧ s.Grants token
    | .error _ => s.SessionFits) h s (login opts) := by
  unfold login
  refine turn_requireBinding_bind (keeps_plain Phone.SessionFits.quiet) ⟨rfl, rfl⟩ hs (fun _ _ _ hs => hs) ?_
  intro binding h hpersisted hs
  have hheld : s.Holds binding := ⟨hs, hpersisted⟩
  have hkeeps : Keeps Phone.exec StoringFits SendingFits Command.plain fun _ s => s.Holds binding :=
    keeps_plain Phone.Holds.quiet
  refine (only_call plain_wait ⟨rfl, rfl⟩).during_bind hkeeps hheld (fun _ _ _ hs => hs.1) fun challenge h s hheld => ?_
  refine turn_expectPayload_bind hheld.1 ?_
  refine (only_sign ⟨rfl, rfl⟩).during_bind hkeeps hheld (fun _ _ _ hs => hs.1) fun signature h s hheld => ?_
  refine During.bind (Q := fun result _ s => s.Holds binding ∧ (result.sessionToken, binding.bindingId) ∈ s.granted)
    (turn_call (sending_of_keeps hkeeps plain_wait ⟨rfl, rfl⟩ (fun _ _ _ hs => hs.1) ?_) hheld)
    fun result h s hgranted => ?_
  · intro h s world response s' _ hx hheld
    cases hr : readResponse (loginCall binding.bindingId challenge.challengeId signature) response with
    | ok result =>
      simp only [hr, Except.mapError]
      exact ⟨hheld, granted_of_login hx hr⟩
    | error e =>
      simp only [hr, Except.mapError]
      exact hheld.1
  have hnow : Keeps Phone.exec StoringFits SendingFits Command.plain fun _ s =>
      s.Holds binding ∧ (result.sessionToken, binding.bindingId) ∈ s.granted :=
    keeps_plain fun hs hx ho => ⟨hs.1.quiet hx ho, (exec_quiet hx ho).2.2 hs.2⟩
  refine turn_wait_bind hnow hgranted ⟨rfl, rfl⟩ (fun _ _ hs => hs.1.1) fun now h s hgranted => ?_
  obtain ⟨⟨-, hpersisted⟩, hgranted⟩ := hgranted
  have hgrants : s.Grants result.sessionToken := ⟨binding, hpersisted, hgranted⟩
  refine turn_setSession_bind trivial ⟨?_, hgrants⟩
  rintro live ⟨⟩
  exact hgrants

/-- Every session that a call establishes is one of the stored binding. -/
theorem turn_ensureSession (hs : s.SessionFits) : Turn StoringFits SendingFits (fun _ s r => match r with
    | .ok token => s.SessionFits ∧ s.Grants token
    | .error _ => s.SessionFits) h s (ensureSession opts) := by
  have hlogin : ∀ h s, s.SessionFits → Turn StoringFits SendingFits (fun _ s r => match r with
      | .ok token => s.SessionFits ∧ s.Grants token
      | .error _ => s.SessionFits) h s (do
        await (.setSession none)
        login opts) := by
    exact fun h s hs => turn_setSession_bind trivial (turn_login (by simp [Phone.SessionFits]))
  unfold ensureSession
  refine turn_session_bind trivial ?_
  cases hsession : s.session with
  | none => exact hlogin _ _ hs
  | some live =>
    have hlive : s.SessionFits ∧ s.Grants live.token := ⟨hs, hs live hsession⟩
    have hkeeps : Keeps Phone.exec StoringFits SendingFits Command.plain fun _ s =>
        s.SessionFits ∧ s.Grants live.token :=
      keeps_plain fun hs hx ho => ⟨hs.1.quiet hx ho, hs.2.quiet hx ho⟩
    refine turn_wait_bind hkeeps hlive ⟨rfl, rfl⟩ (fun _ _ hs => hs.1) fun now h s hlive => ?_
    exact during_ite (fun _ => hlive) fun _ => hlogin _ _ hlive.1

/-- The calls on the seams that wipe the stores. -/
def Command.wipes : Command → Bool
  | .load => true
  | .clear => true
  | .deleteKey _ => true
  | _ => false

/-- `reset` drops the session before it clears the store. -/
theorem turn_reset : Turn StoringFits SendingFits (fun _ s _ => s.SessionFits) h s (reset opts) := by
  have hkeeps : Keeps Phone.exec StoringFits SendingFits (fun o => o.wipes = true) fun _ s => s.session = none := by
    refine fun h s o hs ho => ⟨?_, fun world r s' hx _ => (exec_session hx ?_).trans hs⟩
    · cases o <;> trivial
    · rintro x rfl
      simp [Command.wipes] at ho
  have hstores : Only (fun o => o.wipes = true) (do
      let current ← await .load
      await .clear
      Prog.recover (do settle (← await (.deleteKey ((current.map PersistedBinding.keyAlias).getD opts.keyAlias))))
        fun _ => .ret ()) := by
    refine Only.bind (only_await (by rfl)) fun current => Only.bind (only_await (by rfl)) fun _ => ?_
    exact Only.recover (only_settle_await (by rfl)) fun _ => only_pure _
  unfold reset
  refine turn_setSession_bind trivial ((hstores.during hkeeps rfl).weaken fun h s _ hs => ?_)
  intro live hlive
  simp [hs] at hlive

/-- A call under the session sends a token of the stored binding. -/
theorem turn_authed {α : Type} {spec : CallSpec α} (hs : s.SessionFits) :
    Turn StoringFits SendingFits (fun _ s _ => s.SessionFits) h s (authed opts spec) := by
  have hkeeps : ∀ token, Keeps Phone.exec StoringFits SendingFits
      (fun o => o.isWait = true ∨ o = .send spec.idempotency { spec with bearer := some token }.request)
      fun _ s => s.SessionFits ∧ s.Grants token := by
    refine fun token => keeps_quiet (fun hs hx ho => ⟨hs.1.quiet hx ho, hs.2.quiet hx ho⟩) ?_ ?_
    · rintro o (ho | rfl)
      · exact (plain_wait o ho).1
      · rfl
    · rintro s o hs (ho | rfl)
      · exact bearerFits_anonymous (plain_wait o ho).2
      · intro token' htoken
        obtain ⟨rfl, -⟩ : token = token' ∧ token' ≠ "" := by simpa [CallSpec.request] using htoken
        exact hs.2
  have hcall : ∀ token h s, s.SessionFits ∧ s.Grants token → Turn StoringFits SendingFits
      (fun _ s _ => s.SessionFits ∧ s.Grants token) h s (call opts { spec with bearer := some token }) :=
    fun token h s hs => (only_call (fun _ ho => .inl ho) (.inr rfl)).during (hkeeps token) hs
  unfold authed
  refine During.bind (Q := fun token _ s => s.SessionFits ∧ s.Grants token) ((turn_ensureSession hs).weaken ?_) ?_
  · intro h s r hr
    cases r <;> exact hr
  intro token h s hs
  refine During.recover (Q := fun _ _ s => s.SessionFits) ((hcall token h s hs).weaken ?_) fun error h s hs => ?_
  · intro h s r hr
    cases r <;> exact hr.1
  refine during_ite (fun _ => ?_) fun _ => during_ite (fun _ => ?_) fun _ => hs
  · refine During.bind (Q := fun _ _ s => s.SessionFits) (turn_reset.weaken fun h s r hr => ?_) fun _ h s hs => hs
    cases r <;> exact hr
  · refine turn_setSession_bind trivial ?_
    refine During.bind (Q := fun token _ s => s.SessionFits ∧ s.Grants token)
      ((turn_ensureSession (by simp [Phone.SessionFits])).weaken ?_) ?_
    · intro h s r hr
      cases r <;> exact hr
    · exact fun fresh h s hs => (hcall fresh h s hs).weaken fun _ _ _ hs => hs.1

theorem turn_decide {txn : PendingTransaction} {decision : Decision} {report : Option Bool} (hs : s.SessionFits) :
    Turn StoringFits SendingFits (fun _ s _ => s.SessionFits) h s (decide opts txn decision report) := by
  have hkeeps : Keeps Phone.exec StoringFits SendingFits Command.plain fun _ s => s.SessionFits :=
    keeps_plain Phone.SessionFits.quiet
  unfold decide
  refine turn_requireBinding_bind hkeeps ⟨rfl, rfl⟩ hs (fun _ _ _ hs => hs) fun binding h _ hs => ?_
  refine During.bind (Q := fun _ _ s => s.SessionFits) ((turn_ensureSession hs).weaken fun h s r hr => ?_) ?_
  · cases r with
    | ok token => exact hr.1
    | error e => exact hr
  intro _ h s hs
  refine turn_wait_bind hkeeps hs ⟨rfl, rfl⟩ (fun _ _ hs => hs) fun now h s hs => ?_
  refine (only_throwIf _ _).during_bind hkeeps hs (fun _ _ _ hs => hs) fun _ h s hs => ?_
  refine turn_expectPayload_bind hs ?_
  exact (only_sign ⟨rfl, rfl⟩).during_bind hkeeps hs (fun _ _ _ hs => hs) fun signature h s hs => turn_authed hs

theorem turn_revokeBinding {bindingId : String} {reason : Option String} (hs : s.SessionFits) :
    Turn StoringFits SendingFits (fun _ s _ => s.SessionFits) h s (revokeBinding opts bindingId reason) := by
  unfold revokeBinding
  refine During.bind (Q := fun _ _ s => s.SessionFits) ((turn_authed hs).weaken fun h s r hr => ?_) ?_
  · cases r <;> exact hr
  intro _ h s hs
  refine turn_wait_bind (keeps_plain Phone.SessionFits.quiet) hs ⟨rfl, rfl⟩ (fun _ _ hs => hs) ?_
  intro current h s hs
  exact during_ite (fun _ => turn_reset) fun _ => hs

/-- An enrolment changes no session, and stores what it should. -/
theorem turn_enrol {input : EnrolInput} (hs : s.SessionFits) :
    Turn StoringFits SendingFits (fun _ s _ => s.SessionFits) h s (enrol opts input) := by
  have hkeeps : Keeps Phone.exec StoringFits SendingFits (fun o => o.plain ∨ ∃ b, o = .save b)
      fun _ s => s.SessionFits := by
    rintro h s o hs (ho | ⟨b, rfl⟩)
    · exact keeps_plain Phone.SessionFits.quiet h s o hs ho
    refine ⟨trivial, fun world r s' hx hA live hlive => ?_⟩
    have hsession := exec_session hx (by simp)
    simp only [Phone.exec, Option.some.injEq, Prod.mk.injEq] at hx
    obtain ⟨-, rfl⟩ := hx
    rw [hsession] at hlive
    split
    · exact ⟨b, rfl, hA live hlive⟩
    · exact hs live hlive
  have henrolling : Enrolling opts fun o => o.plain ∨ ∃ b, o = .save b :=
    { wait := fun o ho => .inl (plain_wait o ho)
      attestationChallenge := .inl ⟨rfl, rfl⟩
      enrolStart := fun _ _ _ _ _ => .inl ⟨rfl, rfl⟩
      enrolActivate := fun _ _ _ => .inl ⟨rfl, rfl⟩
      keyStoreCapabilities := .inl ⟨rfl, rfl⟩
      biometricCapabilities := .inl ⟨rfl, rfl⟩
      generate := fun _ => .inl ⟨rfl, rfl⟩
      attest := fun _ => .inl ⟨rfl, rfl⟩
      capture := fun _ _ => .inl ⟨rfl, rfl⟩
      toDto := .inl ⟨rfl, rfl⟩
      dispose := .inl ⟨rfl, rfl⟩
      now := .inl ⟨rfl, rfl⟩
      save := fun binding => .inr ⟨binding, rfl⟩
      sign := fun _ _ _ => .inl ⟨rfl, rfl⟩ }
  exact (only_enrol henrolling input).during hkeeps hs

/-- Each call of the app keeps the session one of the stored binding, and sends what it should. -/
theorem method_fits (q : ClientCall) (hs : s.SessionFits) :
    Turn StoringFits SendingFits (fun _ s _ => s.SessionFits) h s (q.method opts) := by
  have hvoid : ∀ {α : Type} {p : Client α}, Turn StoringFits SendingFits (fun _ s _ => s.SessionFits) h s p →
      Turn StoringFits SendingFits (fun _ s _ => s.SessionFits) h s (void p) := by
    intro α p hp
    refine During.bind (Q := fun _ _ s => s.SessionFits) (hp.weaken fun h s r hr => ?_) fun _ h s hs => hs
    cases r <;> exact hr
  have hload : Turn StoringFits SendingFits (fun _ s _ => s.SessionFits) h s (await .load) :=
    (only_await (C := Command.plain) ⟨rfl, rfl⟩).during (keeps_plain Phone.SessionFits.quiet) hs
  cases q with
  | enrol input => exact hvoid (turn_enrol hs)
  | login =>
    refine hvoid ((turn_login hs).weaken fun h s r hr => ?_)
    cases r with
    | ok token => exact hr.1
    | error e => exact hr
  | decide txn decision report => exact hvoid (turn_decide hs)
  | revokeBinding bindingId reason => exact turn_revokeBinding hs
  | currentBinding => exact hvoid hload
  | isEnrolled =>
    exact hvoid ((only_await (C := Command.plain) ⟨rfl, rfl⟩).bind (fun _ => only_pure _) |>.during
      (keeps_plain Phone.SessionFits.quiet) hs)
  | reset => exact turn_reset
  | revokeConsent consentId => exact turn_authed hs
  | pullPending => exact hvoid (turn_authed hs)
  | listBindings => exact hvoid (turn_authed hs)
  | listConsents => exact hvoid (turn_authed hs)
  | activity => exact hvoid (turn_authed hs)

/-! ## Runs -/

theorem phone_fits (opts : ProtocolClientOptions) (persisted : Option PersistedBinding) (keys : String → Option ℕ)
    (nextKey : ℕ) : Machine.Lasting (phone opts (.start persisted keys nextKey)) Phone.SessionFits StoringFits
      (fun _ _ => SendingFits) fun _ _ _ _ _ => True where
  init := by simp [phone, Phone.start, Phone.SessionFits]
  call q s hs := (method_fits q hs).weaken fun _ _ _ hs => ⟨hs, trivial⟩

/-- In every run of calls one after another, from the start of the app, in which each binding is stored while the
client holds no session but one of that binding, every request under a session has a token that a login obtained for
the binding that is stored at that moment. -/
theorem bearer_fits {persisted : Option PersistedBinding} {keys : String → Option ℕ} {nextKey : ℕ}
    {tr : List (Entry Command Answer ClientCall Phone)} {c : Config Command Answer Thrown Unit Phone}
    (hr : (phone opts (.start persisted keys nextKey)).Serial tr c)
    (hstores : ∀ e ∈ tr, ∀ t a, e.event = .act t a → StoresFit e.before a.op) :
    ∀ e ∈ tr, ∀ t a, e.event = .act t a → BearerFits e.before a.op := by
  rintro ⟨s, ev⟩ he t a rfl
  obtain ⟨l₁, l₂, rfl⟩ := List.append_of_mem he
  obtain ⟨q, s₀, -, hfits⟩ := hr.at_act (phone_fits opts persisted keys nextKey) fun k₁ s' t' a' k₂ hk =>
    hstores ⟨s', .act t' a'⟩ (by simp [hk]) t' a' rfl
  exact hfits

/-- A request under a session that is not one of the stored binding. -/
def foreignBearer (e : Entry Command Answer ClientCall Phone) : Bool :=
  match e.event with
  | .act _ ⟨.send _ request, _⟩ => request.bearer.any fun token =>
      !e.before.persisted.any fun b => e.before.granted.contains (token, b.bindingId)
  | _ => false

/-- The citizen logs in, enrols again, and lists the devices. -/
def sampleReenrolled : List (Move ClientCall World) :=
  .arrive .login :: goes (worldOf sampleBroker) 0 6 ++
    .arrive (.enrol ⟨"1199780012345678", "Test Phone"⟩) :: goes (worldOf sampleBroker) 1 12 ++
    .arrive .listBindings :: goes (worldOf sampleBroker) 2 3

/-- After a second enrolment, the client sends the session of the first binding. -/
theorem not_bearerFits_sampleReenrolled : ∃ tr c, (phone sampleOptions samplePhone).Serial tr c ∧
    ∃ e ∈ tr, ∃ t a, e.event = .act t a ∧ ¬ BearerFits e.before a.op := by
  obtain ⟨tr, c, hr, hrun⟩ := (phone sampleOptions samplePhone).exists_of_playSerial sampleReenrolled.reverse
    (p := fun run => run.1.any foreignBearer) (by decide +kernel)
  obtain ⟨⟨s, ev⟩, he, hforeign⟩ := List.any_eq_true.mp hrun
  unfold foreignBearer at hforeign
  split at hforeign
  · rename_i t idempotency request r hev
    refine ⟨tr, c, hr, _, he, _, _, hev, fun hfits => ?_⟩
    obtain ⟨token, htoken, hnone⟩ := (Option.any_eq_true _ _).mp hforeign
    obtain ⟨b, hb, hmem⟩ := hfits token htoken
    dsimp only at hb hmem
    simp [hb, hmem] at hnone
  · simp at hforeign

/-- The citizen enrols, logs in, and lists the devices under that session. -/
def sampleListed : List (Move ClientCall World) :=
  .arrive (.enrol ⟨"1199780012345678", "Test Phone"⟩) :: goes (worldOf sampleBroker) 0 12 ++
    .arrive .login :: goes (worldOf sampleBroker) 1 6 ++ .arrive .listBindings :: goes (worldOf sampleBroker) 2 3

/-- Whether an entry is a request under a session. -/
def sendsBearer (e : Entry Command Answer ClientCall Phone) : Bool :=
  match e.event with
  | .act _ ⟨.send _ request, _⟩ => request.bearer.isSome
  | _ => false

/-- Whether an entry stores a binding only where there is no session. -/
def storesAnonymously (e : Entry Command Answer ClientCall Phone) : Bool :=
  match e.event with
  | .act _ ⟨.save _, _⟩ => e.before.session.isNone
  | _ => true

/-- Where the binding is stored before the login, the request under the session is for the stored binding. -/
theorem bearer_fits_sampleListed : ∃ tr c, (phone sampleOptions samplePhone).Serial tr c ∧
    tr.any sendsBearer = true ∧ ∀ e ∈ tr, ∀ t a, e.event = .act t a → BearerFits e.before a.op := by
  obtain ⟨tr, c, hr, hrun⟩ := (phone sampleOptions samplePhone).exists_of_playSerial sampleListed.reverse
    (p := fun run => run.1.any sendsBearer && run.1.all storesAnonymously) (by decide +kernel)
  obtain ⟨hsends, hstores⟩ := (Bool.and_eq_true _ _).mp hrun
  refine ⟨tr, c, hr, hsends, bearer_fits hr fun e he t a ha => ?_⟩
  have hnone := List.all_eq_true.mp hstores e he
  obtain ⟨o, r⟩ := a
  cases o with
  | save b =>
    intro live hlive
    simp [storesAnonymously, ha, hlive] at hnone
  | _ => trivial

end SdidBridge.Mobile
