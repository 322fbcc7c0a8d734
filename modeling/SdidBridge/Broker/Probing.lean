import SdidBridge.Broker.Biometrics
import SdidBridge.Concurrent.Alike
import SdidBridge.Sdid.Resilience

/-!
# What enrolments tell about who is known

Whether SDID knows a national id number decides which branch of `EnrolmentService.start` runs: the reference is
fetched and compared, or the identity is unknown. `World` is what SDID knows, and `Visits` are enrolments one after
another in a world, with the broker's store and the breaker of its adapter, whose `execute` fetches the reference.

As long as no sample is accepted, every world is like the one in which nobody is known: the same limits and lockouts
count, the breaker takes the same steps, and only the audit trail differs (`alike_start`). So a sequence of enrolments
has the same outcomes in any two worlds (`outcomes_alike`).
-/

namespace SdidBridge

open Concurrent Prog

/-! ## Worlds -/

/-- A modality as the adapter spells it. -/
def Modality.text : Modality → String
  | .face => "face"
  | .fingerprint => "fingerprint"

/-- An identity that SDID knows: its answer is well formed, and says what the broker reads of it. -/
structure KnownIdentity where
  /-- The answer. -/
  reply : Sdid.Reply
  /-- What the broker reads of it. -/
  reference : ReferenceBiometric
  wellFormed : Sdid.referenceResultSchema reply = true
  sdidSubject : Sdid.member "sdidSubject" reply.value = .str reference.sdidSubject
  txnRef : Sdid.member "txnRef" reply.value = .str reference.txnRef

/-- Which identities SDID knows. -/
abbrev World := String → Modality → Option KnownIdentity

namespace World

/-- Nobody is known. -/
def nobody : World := fun _ _ => none

/-- What SDID answers an attempt. -/
def attempt (W : World) (nid : String) (modality : Modality) : Except Sdid.SdidError Sdid.Reply :=
  match W nid modality with
  | some known => .ok known.reply
  | none => .error .unknownIdentity

/-- What the enrolment service makes of a call's result: the reference, or an error by its name. -/
def read (W : World) (nid : String) (modality : Modality) :
    Except Sdid.SdidError Sdid.Reply → Option (SdidAnswer ReferenceBiometric)
  | .ok _ => (W nid modality).map fun known => .ok known.reference
  | .error .unknownIdentity => some .unknownIdentity
  | .error (.unavailable _) => some .unavailable
  | .error (.timeout _) => some .unavailable
  | .error .circuitOpen => some .unavailable
  | .error .malformedResponse => some .unavailable
  | .error (.configuration _ _) => none
  | .error (.other _) => none

/-- Fetch a reference through the adapter: what the enrolment service sees, and the breaker afterwards. The first
attempt that is admitted gets a definite answer. -/
def fetch (opts : Sdid.ResilienceOptions) (W : World) (nid : String) (modality : Modality)
    (breaker : Sdid.CircuitBreaker) (now : Time) :
    Option (Option (SdidAnswer ReferenceBiometric) × Sdid.CircuitBreaker) :=
  (runAlone Sdid.exec (Sdid.execute opts (.getReferenceBiometric nid modality.text))
    [.unit, .answer (W.attempt nid modality), .unit] ⟨breaker, now⟩).map
      fun (_, s, x) => (W.read nid modality x, s.breaker)

/-- The answer of an SDID that is reached. -/
def answer (W : World) (nid : String) (modality : Modality) : SdidAnswer ReferenceBiometric :=
  match W nid modality with
  | some known => .ok known.reference
  | none => .unknownIdentity

/-- A call that the breaker admits gets the answer and closes the circuit, whoever is known; one that it refuses leaves
the breaker as it is. -/
theorem fetch_eq (opts : Sdid.ResilienceOptions) (W : World) (nid : String) (modality : Modality)
    (breaker : Sdid.CircuitBreaker) (now : Time) :
    W.fetch opts nid modality breaker now = match breaker.beforeAttempt now with
      | some b => some (some (W.answer nid modality), b.onSuccess)
      | none => some (some .unavailable, breaker) := by
  have hbind : ∀ {α β : Type} (p : Prog Sdid.Op Sdid.Op.Res Sdid.SdidError α) (f : α → Sdid.Call β),
      p >>= f = p.bind f := fun _ _ => rfl
  have hpure : ∀ {α : Type} (a : α), (pure a : Sdid.Call α) = .ret a := fun _ => rfl
  unfold fetch Sdid.execute Sdid.attempts attempt answer
  cases hadmitted : breaker.beforeAttempt now with
  | none => simp [hbind, onlyIf, Prog.bind, Sdid.await, perform, runAlone, Sdid.exec, hadmitted, read]
  | some b =>
    cases hknown : W nid modality with
    | none => simp [hbind, onlyIf, Prog.bind, Sdid.await, perform, runAlone, Sdid.exec, hadmitted, read, Sdid.settled,
        Except.bind, throwing]
    | some known => simp [hbind, hpure, onlyIf, Prog.bind, Sdid.await, perform, runAlone, Sdid.exec, hadmitted, read,
        Sdid.settled, Except.bind, Sdid.validateBoundary, Sdid.Method.schema, known.wellFormed, hknown]

end World

/-! ## Visits -/

/-- What a store of the broker runs on. -/
inductive Backend where
  | postgres
  | redis
  deriving DecidableEq

/-- What a command runs on. -/
def Op.backend : Op → Option Backend
  | .ambient _ => none
  | .service _ => none
  | .jwt _ => none
  | .challenge _ => some .redis
  | .nonce _ => some .redis
  | .stash _ => some .redis
  | .flag _ => some .redis
  | .counter _ => some .redis
  | .set _ => some .redis
  | .citizen _ => some .postgres
  | .binding _ => some .postgres
  | .rp _ => some .postgres
  | .subject _ => some .postgres
  | .txn _ => some .postgres
  | .code _ => some .postgres
  | .consent _ => some .postgres
  | .audit _ => some .postgres

/-- An enrolment that is started, and what it meets besides SDID. -/
structure Visit where
  /-- The request. -/
  body : EnrolStartRequest
  /-- The address it comes from. -/
  ip : String
  /-- The time since the last visit, in milliseconds. -/
  elapsed : ℕ
  /-- What the platform verifiers answer, `none` when they throw. -/
  attest : DevicePlatform → AttestationRequest → Option AttestationResult
  /-- What the match engine answers to the sample and a reference. -/
  compare : String → String → MatchResult
  /-- What is down. -/
  down : Backend → Bool

/-- The broker's store, and the breaker of its adapter. -/
structure Site where
  /-- The store. -/
  store : Store
  /-- The breaker. -/
  breaker : Sdid.CircuitBreaker

/-- Time passes. -/
def Site.after (ms : ℕ) (s : Site) : Site :=
  { s with store := { s.store with ambient := { s.store.ambient with now := s.store.now + ms } } }

section Visits

variable (D : Deployment) (opts : Sdid.ResilienceOptions) (W : World)

/-- Execute a command during a visit. -/
def Visit.exec (v : Visit) (i : Oracle) (s : Site) : (o : Op) → Option (Option o.Res × Site)
  | .service (.getReferenceBiometric nid modality) =>
    (W.fetch opts nid modality s.breaker s.store.now).map fun (r, breaker) => (r, { s with breaker })
  | .service (.matchSample sample reference) => some (some (v.compare sample reference), s)
  | .service (.verifyAttestation platform request) => some (v.attest platform request, s)
  | o =>
    if o.backend.any v.down then some (none, s)
    else (o.exec D.engine i s.store).map fun (r, store) => (r, { s with store })

/-- Visits one after another, with their outcomes. The observer of the audit stream counts no event of an enrolment, so
that nothing else runs. -/
inductive Visits : Site → List Visit → List (Except Failure EnrolStartResponse) → Site → Prop
  /-- There is no visit. -/
  | nil (s : Site) : Visits s [] [] s
  /-- A visit, and those after it. -/
  | cons {s s₁ s₂ : Site} {v : Visit} {vs h x xs}
    (hv : Alone (v.exec D opts W) (s.after v.elapsed) (start D v.body v.ip) h s₁ x)
    (hvs : Visits s₁ vs xs s₂) : Visits s (v :: vs) (x :: xs) s₂

end Visits

/-- A visit's sample is not accepted in a world: it does not match the reference of a known identity, or it is no
capture of a living person. -/
def Visit.Rejected (v : Visit) (W : World) : Prop :=
  ∀ known, W v.body.nid v.body.sample.modality = some known →
    (v.compare v.body.sample.data known.reference.data).matched = false ∨
      (v.compare v.body.sample.data known.reference.data).padPassed = false

/-! ## Commands that no world decides -/

/-- The commands of an enrolment that ask nothing about an identity. -/
@[reducible] def Op.unbiased : Op → Bool
  | .ambient .now => true
  | .service (.verifyAttestation _ _) => true
  | .nonce _ => true
  | .flag _ => true
  | .counter _ => true
  | .set _ => true
  | .audit (.append _) => true
  | _ => false

/-- The same, but for the audit trail. -/
def UpToAudit (s s' : Site) : Prop := ∃ rows, s' = { s with store := { s.store with audit := rows } }

theorem UpToAudit.refl (s : Site) : UpToAudit s s := ⟨s.store.audit, rfl⟩

theorem UpToAudit.symm {s s' : Site} (h : UpToAudit s s') : UpToAudit s' s := by
  obtain ⟨rows, rfl⟩ := h
  exact ⟨s.store.audit, rfl⟩

theorem UpToAudit.trans {s s' s'' : Site} (h : UpToAudit s s') (h' : UpToAudit s' s'') : UpToAudit s s'' := by
  obtain ⟨rows, rfl⟩ := h
  obtain ⟨rows', rfl⟩ := h'
  exact ⟨rows', rfl⟩

theorem UpToAudit.after {s s' : Site} (h : UpToAudit s s') (ms : ℕ) : UpToAudit (s.after ms) (s'.after ms) := by
  obtain ⟨rows, rfl⟩ := h
  exact ⟨rows, rfl⟩

section Unbiased

variable {D : Deployment} {opts : Sdid.ResilienceOptions} {W W' : World} {v : Visit}

/-- An event is stored or refused for its own columns, not for the rows that are there. -/
theorem append_isSome (deps : AuditDeps) (rows rows' : List AuditRow) (id id' : Uuid) (ts : ℤ) (e : AuditEventInput) :
    (deps.append rows 0 id ts e).isSome = (deps.append rows' 0 id' ts e).isSome := by
  unfold AuditDeps.append AuditDeps.rowOf
  dsimp only
  split <;> rfl

theorem exec_append {deps : AuditDeps} {i : Oracle} {now : Time} {rows rows' : List AuditRow} {e : AuditEventInput}
    {r : Option Unit} (hx : (AuditOp.append e).exec deps i now rows = some (r, rows')) :
    ∃ id, i = .uuid id ∧ r = if (deps.append rows 0 id now e).isSome then some () else none := by
  unfold AuditOp.exec at hx
  cases i with
  | uuid id =>
    refine ⟨id, rfl, ?_⟩
    cases happend : deps.append rows 0 id now e with
    | none => simp_all
    | some rows'' => simp_all
  | _ => simp at hx

/-- On the store, such a command is answered alike whatever the audit trail holds. -/
theorem exec_upToAudit {E : Engine} {o : Op} {i i' : Oracle} {s t t' : Store} {rows : List AuditRow} {r r' : Option o.Res}
    (ho : o.unbiased = true) (hservice : ∀ o', o ≠ .service o') (hx : o.exec E i s = some (r, t))
    (hx' : o.exec E i' { s with audit := rows } = some (r', t')) :
    r = r' ∧ ∃ rows', t' = { t with audit := rows' } := by
  unfold Op.exec at hx hx'
  cases o with
  | service o' => exact absurd rfl (hservice o')
  | ambient o =>
    cases o with
    | now =>
      simp only [AmbientOp.exec, Option.map_some, Option.some.injEq, Prod.mk.injEq] at hx hx'
      obtain ⟨rfl, rfl⟩ := hx
      obtain ⟨rfl, rfl⟩ := hx'
      exact ⟨rfl, rows, rfl⟩
    | _ => simp [Op.unbiased] at ho
  | audit o =>
    cases o with
    | select => simp [Op.unbiased] at ho
    | append e =>
      simp only [Option.map_eq_some_iff] at hx hx'
      obtain ⟨⟨r₁, l⟩, hx, heq⟩ := hx
      obtain ⟨⟨r₁', l'⟩, hx', heq'⟩ := hx'
      obtain ⟨rfl, rfl⟩ := Prod.mk.inj heq
      obtain ⟨rfl, rfl⟩ := Prod.mk.inj heq'
      obtain ⟨id, -, hr⟩ := exec_append hx
      obtain ⟨id', -, hr'⟩ := exec_append hx'
      refine ⟨?_, l', rfl⟩
      rw [hr, hr', append_isSome E.audit rows s.audit id' id]
      rfl
  | nonce o =>
    simp only [Option.some.injEq, Prod.mk.injEq] at hx hx'
    obtain ⟨rfl, rfl⟩ := hx
    obtain ⟨rfl, rfl⟩ := hx'
    exact ⟨rfl, rows, rfl⟩
  | flag o =>
    simp only [Option.some.injEq, Prod.mk.injEq] at hx hx'
    obtain ⟨rfl, rfl⟩ := hx
    obtain ⟨rfl, rfl⟩ := hx'
    exact ⟨rfl, rows, rfl⟩
  | counter o =>
    simp only [Option.some.injEq, Prod.mk.injEq] at hx hx'
    obtain ⟨rfl, rfl⟩ := hx
    obtain ⟨rfl, rfl⟩ := hx'
    exact ⟨rfl, rows, rfl⟩
  | set o =>
    simp only [Option.some.injEq, Prod.mk.injEq] at hx hx'
    obtain ⟨rfl, rfl⟩ := hx
    obtain ⟨rfl, rfl⟩ := hx'
    exact ⟨rfl, rows, rfl⟩
  | _ => simp [Op.unbiased] at ho

/-- A command that asks no service is executed on the store, unless what it runs on is down. -/
theorem Visit.exec_eq {o : Op} (hservice : ∀ o', o ≠ .service o') (i : Oracle) (s : Site) :
    v.exec D opts W i s o = if o.backend.any v.down then some (none, s)
      else (o.exec D.engine i s.store).map fun (r, store) => (r, { s with store }) := by
  unfold Visit.exec
  split
  · exact absurd rfl (hservice _)
  · exact absurd rfl (hservice _)
  · exact absurd rfl (hservice _)
  · rfl

/-- In any two worlds such a command is answered alike. -/
theorem answeredAlike_of_unbiased {o : Op} (ho : o.unbiased = true) :
    AnsweredAlike (v.exec D opts W) (v.exec D opts W') UpToAudit o := by
  rintro i i' s s' r r' s₁ s₁' ⟨rows, rfl⟩ hx hx'
  by_cases hservice : ∀ o', o ≠ .service o'
  · rw [v.exec_eq hservice] at hx hx'
    by_cases hdown : o.backend.any v.down = true
    · simp only [hdown, if_true, Option.some.injEq, Prod.mk.injEq] at hx hx'
      obtain ⟨rfl, rfl⟩ := hx
      obtain ⟨rfl, rfl⟩ := hx'
      exact ⟨rfl, rows, rfl⟩
    · simp only [hdown, if_false, Option.map_eq_some_iff, Bool.false_eq_true] at hx hx'
      obtain ⟨⟨r₁, t⟩, hx, heq⟩ := hx
      obtain ⟨⟨r₁', t'⟩, hx', heq'⟩ := hx'
      obtain ⟨rfl, rfl⟩ := Prod.mk.inj heq
      obtain ⟨rfl, rfl⟩ := Prod.mk.inj heq'
      obtain ⟨hres, rows', rfl⟩ := exec_upToAudit ho hservice hx hx'
      exact ⟨hres, rows', rfl⟩
  · -- The one service among them is a platform verifier, which the visit fixes.
    simp only [not_forall, not_not] at hservice
    obtain ⟨o', rfl⟩ := hservice
    cases o' with
    | verifyAttestation platform request =>
      simp only [Visit.exec, Option.some.injEq, Prod.mk.injEq] at hx hx'
      obtain ⟨rfl, rfl⟩ := hx
      obtain ⟨rfl, rfl⟩ := hx'
      exact ⟨rfl, rows, rfl⟩
    | _ => simp [Op.unbiased] at ho

/-- Such a command can be executed. -/
theorem exists_exec_of_unbiased {o : Op} (ho : o.unbiased = true) (s : Site) :
    ∃ i r s', v.exec D opts W i s o = some (r, s') := by
  by_cases hservice : ∀ o', o ≠ .service o'
  · have hstore : ∃ i r t, o.exec D.engine i s.store = some (r, t) := by
      refine ⟨.uuid ⟨List.replicate 32 0, rfl⟩, ?_⟩
      unfold Op.exec
      cases o with
      | ambient o =>
        cases o with
        | now => exact ⟨_, _, rfl⟩
        | _ => simp [Op.unbiased] at ho
      | audit o =>
        cases o with
        | select => simp [Op.unbiased] at ho
        | append e =>
          simp only [AuditOp.exec]
          cases D.engine.audit.append s.store.audit 0 ⟨List.replicate 32 0, rfl⟩ s.store.now e with
          | none => exact ⟨_, _, rfl⟩
          | some rows => exact ⟨_, _, rfl⟩
      | service o' => exact absurd rfl (hservice o')
      | _ => first | exact ⟨_, _, rfl⟩ | simp [Op.unbiased] at ho
    obtain ⟨i, r, t, hx⟩ := hstore
    refine ⟨i, ?_⟩
    rw [v.exec_eq hservice, hx]
    split
    · exact ⟨_, _, rfl⟩
    · exact ⟨_, _, rfl⟩
  · simp only [not_forall, not_not] at hservice
    obtain ⟨o', rfl⟩ := hservice
    cases o' with
    | verifyAttestation platform request => exact ⟨.unit, _, _, rfl⟩
    | _ => simp [Op.unbiased] at ho

/-! ## The gates and the failures -/

/-- A program that asks nothing about an identity. -/
abbrev UnbiasedOnly {α : Type} (p : H α) : Prop := p.Only fun o => o.unbiased = true

theorem unbiased_await {o : Op} (ho : o.unbiased = true) : UnbiasedOnly (await o) := only_perform _ ho

theorem unbiased_hit (key : String) (limit window : ℕ) : UnbiasedOnly (hit key limit window) :=
  .bind (unbiased_await rfl) fun _ => .bind (.onlyIf (unbiased_await rfl)) fun _ => only_throwIf _ _

theorem unbiased_recordFailure (key : String) (maxFailures window : ℕ) :
    UnbiasedOnly (recordFailure key maxFailures window) :=
  .bind (unbiased_await rfl) fun _ => .bind (.onlyIf (unbiased_await rfl)) fun _ => .onlyIf (unbiased_await rfl)

theorem unbiased_consumeAttestationNonce (id : String) : UnbiasedOnly (consumeAttestationNonce id) :=
  .bind (unbiased_await rfl) fun _ => .bind (only_orThrow _ _) fun _ => .bind (only_throwIf _ _) fun _ =>
    only_pure _

theorem unbiased_raiseDetection (d : AnomalyDetection) (ctx : AnomalyContext) :
    UnbiasedOnly (raiseDetection d ctx) :=
  .bind (unbiased_await rfl) fun _ => .onlyIf (unbiased_await rfl)

theorem unbiased_countEvent (pattern : AnomalyPattern) (scopeKey : String) (threshold window : ℕ)
    (ctx : AnomalyContext) : UnbiasedOnly (countEvent pattern scopeKey threshold window ctx) :=
  .bind (unbiased_await rfl) fun _ => .bind (.onlyIf (unbiased_await rfl)) fun _ =>
    .onlyIf (unbiased_raiseDetection _ _)

theorem unbiased_recordEnrolmentAttempt (ip nid : String) : UnbiasedOnly (recordEnrolmentAttempt D ip nid) :=
  .ite (.recover (.bind (unbiased_await rfl) fun _ => .bind (unbiased_await rfl) fun _ =>
    .bind (unbiased_await rfl) fun _ => .onlyIf (unbiased_raiseDetection _ _)) fun _ => only_pure _)
    (only_pure _)

theorem unbiased_countRejection (ip : String) (err : Failure) : UnbiasedOnly (countRejection D ip err) := by
  unfold countRejection
  split
  · exact .ite (.recover (unbiased_countEvent _ _ _ _ _) fun _ => only_pure _) (only_pure _)
  · exact only_pure _

theorem unbiased_verifyAttestation (a : AttestationInput) (jwk : PublicKeyJwk) :
    UnbiasedOnly (verifyAttestation D a jwk) := by
  unfold verifyAttestation
  split
  · refine .bind (only_throwIf _ _) fun _ => .bind (only_orThrow _ _) fun _ =>
      .bind (.recover (unbiased_consumeAttestationNonce _) fun _ => only_throwing _) fun _ =>
        .bind (unbiased_await rfl) fun _ =>
          .bind (.recover (unbiased_await rfl) fun _ => only_throwing _) fun r => ?_
    dsimp only
    split
    · exact only_throwing _
    · exact only_throwing _
    · exact only_pure _
  · refine .bind ?_ fun _ => .bind (only_orThrow _ _) fun claims => .bind ?_ fun _ =>
      .bind (only_throwIf _ _) fun _ => .bind (only_throwIf _ _) fun _ => only_pure _
    · unfold burnNonce
      split
      · exact .recover (.bind (unbiased_consumeAttestationNonce _) fun _ => only_pure _) fun _ => only_pure _
      · exact only_pure _
    · unfold assertNotNull
      split
      · exact only_throwing _
      · exact only_pure _

theorem unbiased_enrolmentGates (req : EnrolStartRequest) (ip nid : String) :
    UnbiasedOnly (enrolmentGates D req ip nid) :=
  .bind (unbiased_recordEnrolmentAttempt _ _) fun _ => .bind (unbiased_hit _ _ _) fun _ =>
    .bind (unbiased_hit _ _ _) fun _ => .bind (.bind (unbiased_await rfl) fun _ => only_throwIf _ _) fun _ =>
      .bind (.recover (unbiased_verifyAttestation _ _) fun _ => .bind (unbiased_await rfl) fun _ =>
        .bind (unbiased_countRejection _ _) fun _ => only_throwing _) fun _ =>
          .bind (only_throwIf _ _) fun _ => only_pure _

theorem unbiased_failEnrolment {α : Type} (nid : String) (reason : EnrolmentFailureReason) (ref : Option String) :
    UnbiasedOnly (failEnrolment nid reason ref : H α) :=
  .bind (unbiased_await rfl) fun _ => .bind (unbiased_recordFailure _ _ _) fun _ => only_throwing _

/-! ## Known and unknown identities -/

/-- The append of an event that names no relying party and no binding fails only when Postgres is down. -/
theorem append_answered {e : AuditEventInput} (hrp : e.rpId = none) (hbinding : e.deviceBindingId = none) {i : Oracle}
    {s s₁ : Site} {r : Option Unit} (hx : v.exec D opts W i s (.audit (.append e)) = some (r, s₁)) :
    UpToAudit s s₁ ∧ r = if v.down .postgres then none else some () := by
  rw [v.exec_eq (by simp)] at hx
  by_cases hdown : v.down .postgres = true
  · simp only [Op.backend, Option.any_some, hdown, if_true, Option.some.injEq, Prod.mk.injEq] at hx
    obtain ⟨rfl, rfl⟩ := hx
    rw [if_pos hdown]
    exact ⟨.refl s, rfl⟩
  · simp only [Op.backend, Option.any_some, hdown, if_false, Option.map_eq_some_iff, Bool.false_eq_true] at hx
    obtain ⟨⟨r₁, t⟩, hx, heq⟩ := hx
    obtain ⟨rfl, rfl⟩ := Prod.mk.inj heq
    simp only [Op.exec, Option.map_eq_some_iff] at hx
    obtain ⟨⟨r₂, rows⟩, hx, heq⟩ := hx
    obtain ⟨rfl, rfl⟩ := Prod.mk.inj heq
    obtain ⟨id, -, hr⟩ := exec_append hx
    refine ⟨⟨rows, rfl⟩, ?_⟩
    rw [hr, if_neg hdown]
    simp [AuditDeps.append, AuditDeps.rowOf, AuditDeps.uuidColumn, hrp, hbinding]

/-- Two failed enrolments throw the same, whatever their events say about the reason. -/
theorem alike_failEnrolment {W W' : World} {α : Type} {Q : α → α → Prop} (nid : String)
    (reason reason' : EnrolmentFailureReason) (ref ref' : Option String) :
    Alike (v.exec D opts W) (v.exec D opts W') UpToAudit Q
      (failEnrolment nid reason ref : H α) (failEnrolment nid reason' ref') := by
  refine alike_perform (T := fun _ _ => True) ?_ fun _ _ _ =>
    .bind ((unbiased_recordFailure _ _ _).alike fun o ho => answeredAlike_of_unbiased ho) fun _ _ _ =>
      alike_throwing _
  intro i i' s s' r r' s₁ s₁' hs hx hx'
  obtain ⟨ht, rfl⟩ := append_answered rfl rfl hx
  obtain ⟨ht', rfl⟩ := append_answered rfl rfl hx'
  refine ⟨ht.symm.trans (hs.trans ht'), ?_⟩
  split
  · exact .none
  · exact .some trivial

/-- Where an append fails, what follows an event does not matter. -/
theorem alike_of_down {W W' : World} {α β : Type} (hdown : v.down .postgres = true) {e e' : AuditEventInput}
    (hrp : e.rpId = none) (hbinding : e.deviceBindingId = none) (hrp' : e'.rpId = none)
    (hbinding' : e'.deviceBindingId = none) {Q : α → β → Prop} {f : Unit → H α} {g : Unit → H β} :
    Alike (v.exec D opts W) (v.exec D opts W') UpToAudit Q (auditAppend e >>= f) (auditAppend e' >>= g) := by
  refine alike_perform (T := fun _ _ => False) ?_ fun _ _ h => h.elim
  intro i i' s s' r r' s₁ s₁' hs hx hx'
  obtain ⟨ht, rfl⟩ := append_answered hrp hbinding hx
  obtain ⟨ht', rfl⟩ := append_answered hrp' hbinding' hx'
  rw [if_pos hdown]
  exact ⟨ht.symm.trans (hs.trans ht'), .none⟩

/-- A sample that is rejected ends as the enrolment of an unknown identity does. -/
theorem alike_rejected (nid : String) (reference : ReferenceBiometric)
    (hrejected : (v.compare v.body.sample.data reference.data).matched = false ∨
      (v.compare v.body.sample.data reference.data).padPassed = false) :
    Alike (v.exec D opts .nobody) (v.exec D opts W) UpToAudit (fun _ _ => False)
      (failEnrolment nid .sdidIdentityNotMatchable none : H MatchOutcome)
      (do
        let result ← await (.service (.matchSample v.body.sample.data reference.data))
        Biometrics.concludeMatch nid reference.sdidSubject reference.txnRef result) := by
  refine alike_perform_right (T := fun result => result.matched = false ∨ result.padPassed = false) ?_ ?_
  · intro i s s' r s₁ hs hx
    simp only [Visit.exec, Option.some.injEq, Prod.mk.injEq] at hx
    obtain ⟨rfl, rfl⟩ := hx
    exact ⟨hs, _, rfl, hrejected⟩
  · intro result hresult
    by_cases hdown : v.down .postgres = true
    · exact alike_of_down hdown rfl rfl rfl rfl
    · -- The event of the comparison is stored, and the failure follows.
      refine alike_perform_right (T := fun _ => True) ?_ fun _ _ => ?_
      · intro i s s' r s₁ hs hx
        obtain ⟨ht, rfl⟩ := append_answered rfl rfl hx
        rw [if_neg hdown]
        exact ⟨hs.trans ht, (), rfl, trivial⟩
      · rw [if_pos hresult]
        exact alike_failEnrolment _ _ _ _ _

/-- In any world that rejects the sample, the match throws what it throws in the one in which nobody is known. -/
theorem alike_matchAgainstReference (nid : String) (hrejected : v.Rejected W) :
    Alike (v.exec D opts .nobody) (v.exec D opts W) UpToAudit (fun _ _ => False)
      (matchAgainstReference v.body nid) (matchAgainstReference v.body nid) := by
  rw [Biometrics.matchAgainstReference_eq]
  refine alike_perform (T := fun a a' => (a = .unavailable ∧ a' = .unavailable) ∨
    (a = .unknownIdentity ∧ a' = W.answer v.body.nid v.body.sample.modality)) ?_ ?_
  · rintro i i' s s' r r' s₁ s₁' ⟨rows, rfl⟩ hx hx'
    simp only [Visit.exec, World.fetch_eq] at hx hx'
    cases hadmitted : s.breaker.beforeAttempt s.store.now with
    | none =>
      simp only [Store.now] at hadmitted hx hx'
      simp only [hadmitted, Option.map_some, Option.some.injEq, Prod.mk.injEq] at hx hx'
      obtain ⟨rfl, rfl⟩ := hx
      obtain ⟨rfl, rfl⟩ := hx'
      exact ⟨⟨rows, rfl⟩, .some (.inl ⟨rfl, rfl⟩)⟩
    | some b =>
      simp only [Store.now] at hadmitted hx hx'
      simp only [hadmitted, Option.map_some, Option.some.injEq, Prod.mk.injEq] at hx hx'
      obtain ⟨rfl, rfl⟩ := hx
      obtain ⟨rfl, rfl⟩ := hx'
      exact ⟨⟨rows, rfl⟩, .some (.inr ⟨rfl, rfl⟩)⟩
  · rintro a a' (⟨rfl, rfl⟩ | ⟨rfl, rfl⟩)
    · exact alike_throwing _
    · unfold World.answer
      cases hknown : W v.body.nid v.body.sample.modality with
      | none => exact alike_failEnrolment _ _ _ _ _
      | some known => exact alike_rejected nid known.reference (hrejected known hknown)

/-- In any world that rejects the sample, an enrolment ends as in the one in which nobody is known. -/
theorem alike_start (hrejected : v.Rejected W) :
    Alike (v.exec D opts .nobody) (v.exec D opts W) UpToAudit (· = ·)
      (start D v.body v.ip) (start D v.body v.ip) := by
  refine .bind ((only_throwIf _ _).alike (C := fun o => o.unbiased = true) fun o ho => answeredAlike_of_unbiased ho)
    fun _ _ _ => .bind ((unbiased_enrolmentGates _ _ _).alike fun o ho => answeredAlike_of_unbiased ho) ?_
  rintro verdict _ rfl
  exact .bind (alike_matchAgainstReference _ hrejected) fun _ _ h => h.elim

/-- The match runs in any world. -/
theorem exists_matchAgainstReference (nid : String) (s : Site) :
    ∃ h s' x, Alone (v.exec D opts W) s (matchAgainstReference v.body nid) h s' x := by
  have hexec : ∀ o : Op, o.unbiased = true → ∀ s, ∃ i r s', v.exec D opts W i s o = some (r, s') :=
    fun o ho s => exists_exec_of_unbiased ho s
  have hfetch : ∀ s, ∃ i r s', v.exec D opts W i s
      (.service (.getReferenceBiometric v.body.nid v.body.sample.modality)) = some (r, s') := by
    intro s
    simp only [Visit.exec, World.fetch_eq]
    cases s.breaker.beforeAttempt s.store.now with
    | none => exact ⟨.unit, _, _, rfl⟩
    | some b => exact ⟨.unit, _, _, rfl⟩
  refine Only.exists_alone (C := fun o => ∀ s, ∃ i r s', v.exec D opts W i s o = some (r, s')) ?_ (fun _ ho => ho) s
  refine .bind (only_perform _ hfetch) fun answer => ?_
  cases answer with
  | unknownIdentity => exact (unbiased_failEnrolment _ _ _).mono hexec
  | unavailable => exact only_throwing _
  | ok reference =>
    exact .bind (only_perform _ fun s => ⟨.unit, _, _, rfl⟩) fun _ =>
      .bind (only_perform _ (hexec _ rfl)) fun _ =>
        .ite ((unbiased_failEnrolment _ _ _).mono hexec) (only_pure _)

/-- An enrolment runs in any world that rejects the sample. -/
theorem exists_start (hrejected : v.Rejected W) (s : Site) :
    ∃ h s' x, Alone (v.exec D opts W) s (start D v.body v.ip) h s' x := by
  have hexec : ∀ o : Op, o.unbiased = true → ∀ s, ∃ i r s', v.exec D opts W i s o = some (r, s') :=
    fun o ho s => exists_exec_of_unbiased ho s
  refine exists_alone_bind ((only_throwIf (C := fun o => o.unbiased = true) _ _).exists_alone hexec s)
    fun _ s₁ _ _ => ?_
  refine exists_alone_bind ((unbiased_enrolmentGates _ _ _).exists_alone hexec s₁) fun _ s₂ verdict _ => ?_
  refine exists_alone_bind (exists_matchAgainstReference _ s₂) fun h s₃ outcome hmatched => ?_
  -- The match does not return, since it throws where nobody is known.
  obtain ⟨h', s₃', x, hnobody⟩ : ∃ h s' x, Alone (v.exec D opts .nobody) s₂
      (matchAgainstReference v.body (D.pseudoNid v.body.nid)) h s' x := exists_matchAgainstReference _ s₂
  obtain ⟨-, hends⟩ := alike_matchAgainstReference _ hrejected (.refl s₂) hnobody hmatched
  cases hends with
  | ok hfalse => exact hfalse.elim

end Unbiased

/-! ## Sequences of visits -/

section Outcomes

variable {D : Deployment} {opts : Sdid.ResilienceOptions} {W : World}

/-- In any world that rejects the samples, a sequence of visits runs. -/
theorem exists_visits {vs : List Visit} (hrejected : ∀ v ∈ vs, v.Rejected W) (s : Site) : ∃ xs s', Visits D opts W s vs xs s' := by
  induction vs generalizing s with
  | nil => exact ⟨[], s, .nil s⟩
  | cons v vs ih =>
    obtain ⟨h, s₁, x, hv⟩ := exists_start (hrejected v List.mem_cons_self) (s.after v.elapsed)
    obtain ⟨xs, s₂, hvs⟩ := ih (fun v hv => hrejected v (List.mem_cons_of_mem _ hv)) s₁
    exact ⟨x :: xs, s₂, .cons hv hvs⟩

/-- In any world that rejects the samples, visits have the outcomes that they have where nobody is known. -/
theorem outcomes_of_nobody {vs : List Visit} {s s' s₁ s₁' : Site} {xs xs' : List (Except Failure EnrolStartResponse)}
    (hrejected : ∀ v ∈ vs, v.Rejected W) (hs : UpToAudit s s') (hvs : Visits D opts .nobody s vs xs s₁)
    (hvs' : Visits D opts W s' vs xs' s₁') : xs = xs' := by
  induction hvs generalizing s' xs' with
  | nil s =>
    cases hvs'
    rfl
  | cons hv _ ih =>
    cases hvs' with
    | cons hv' hrest' =>
      obtain ⟨ht, hends⟩ := alike_start (hrejected _ List.mem_cons_self) (hs.after _) hv hv'
      rw [hends.eq, ih (fun v hv => hrejected v (List.mem_cons_of_mem _ hv)) ht hrest']

/-- In any two worlds that reject the samples, a sequence of enrolments has the same outcomes. -/
theorem outcomes_alike (D : Deployment) (opts : Sdid.ResilienceOptions) (W₁ W₂ : World) (vs : List Visit) (s : Site)
    (h₁ : ∀ v ∈ vs, v.Rejected W₁) (h₂ : ∀ v ∈ vs, v.Rejected W₂) :
    ∃ xs, (∀ xs', (∃ s', Visits D opts W₁ s vs xs' s') ↔ xs' = xs) ∧
      ∀ xs', (∃ s', Visits D opts W₂ s vs xs' s') ↔ xs' = xs := by
  obtain ⟨xs, t, hnobody⟩ : ∃ xs t, Visits D opts .nobody s vs xs t :=
    exists_visits (fun v _ _ h => by simp [World.nobody] at h) s
  have hsame : ∀ W : World, (∀ v ∈ vs, v.Rejected W) → ∀ xs', (∃ s', Visits D opts W s vs xs' s') ↔ xs' = xs := by
    intro W hW xs'
    constructor
    · rintro ⟨s', hvs⟩
      exact (outcomes_of_nobody hW (.refl s) hnobody hvs).symm
    · rintro rfl
      obtain ⟨xs'', s', hvs⟩ : ∃ xs s', Visits D opts W s vs xs s' := exists_visits hW s
      rw [outcomes_of_nobody hW (.refl s) hnobody hvs]
      exact ⟨s', hvs⟩
  exact ⟨xs, hsame W₁ h₁, hsame W₂ h₂⟩

/-- An identity that SDID knows. -/
def sampleIdentity : KnownIdentity where
  reply := ⟨.obj [("reference", .obj [("modality", .str "face"), ("format", .str "mock")]),
    ("sdidSubject", .str "sdid-subject"), ("txnRef", .str "ref")], some 4⟩
  reference := ⟨"face", "sdid-subject", "ref"⟩
  wellFormed := by decide
  sdidSubject := by decide
  txnRef := by decide

/-- A visit with the sample of somebody else. -/
def sampleVisit : Visit where
  body := {
    nid := "1199080012345678"
    devicePublicKeyJwk := ⟨"EC", "P-256", "x", "y"⟩
    attestation := { platform := .sim, token := "mock" }
    deviceLabel := "phone"
    sample := ⟨.face, "other"⟩ }
  ip := "10.0.0.1"
  elapsed := 1000
  attest _ _ := none
  compare sample reference := ⟨sample == reference, .noMatch, true⟩
  down _ := false

/-- A new installation. -/
def sampleSite : Site := ⟨.empty, .new 5 30000⟩

/-- Six visits tell nothing about whether the identity is known. -/
theorem outcomes_alike_sampleProbing :
    ∃ xs, (∀ xs', (∃ s', Visits sampleDeployment {} .nobody sampleSite (List.replicate 6 sampleVisit) xs' s') ↔
        xs' = xs) ∧
      ∀ xs', (∃ s', Visits sampleDeployment {} (fun _ _ => some sampleIdentity) sampleSite
        (List.replicate 6 sampleVisit) xs' s') ↔ xs' = xs := by
  refine outcomes_alike sampleDeployment {} .nobody (fun _ _ => some sampleIdentity) _ sampleSite ?_ ?_
  · intro v _ known hknown
    simp [World.nobody] at hknown
  · intro v hv known hknown
    obtain rfl := List.eq_of_mem_replicate hv
    obtain rfl := Option.some.inj hknown
    exact .inl rfl

end Outcomes

end SdidBridge
