import SdidBridge.Shared.Json
import SdidBridge.Concurrent.System

/-!
# The resilience wrapper of the SDID adapter

`ResilientSdidProvider` makes each call to SDID in attempts that a circuit breaker admits, waits
between two attempts, and refuses an answer that is malformed. The breaker is shared by all calls:
`beforeAttempt`, `onSuccess` and `onFailure` are the commands on it, and between two of them any
other call may run. That is more than the event loop allows, which runs what follows an awaited
attempt at once, and every run of the event loop is among the runs here.

The breaker admits the next attempt whenever it may have been reset and no attempt is in flight, as
long as no half-open probe ended in a configuration error: that is the one way out of an attempt on
which the probe's flag is not taken back (`admitted_when_idle`).
-/

namespace SdidBridge.Sdid

open Concurrent Prog

/-! ## The circuit breaker -/

/-- The modes of the breaker. -/
inductive CircuitState where
  | closed
  | opened
  | halfOpen
  deriving DecidableEq

/-- The breaker. -/
structure CircuitBreaker where
  /-- How many failures in a row open the circuit. -/
  threshold : ℕ
  /-- How long the circuit stays open, in milliseconds. -/
  resetMs : ℕ
  /-- The mode, which does not see that the time of an open circuit is over. -/
  internal : CircuitState
  /-- The failures in a row. -/
  consecutiveFailures : ℕ
  /-- When the circuit was last opened. -/
  openedAt : ℕ
  /-- Whether a half-open probe is under way. -/
  probeInFlight : Bool
  deriving DecidableEq

namespace CircuitBreaker

/-- A new breaker. -/
def new (threshold resetMs : ℕ) : CircuitBreaker where
  threshold
  resetMs
  internal := .closed
  consecutiveFailures := 0
  openedAt := 0
  probeInFlight := false

/-- The mode at the time `now`. -/
def state (now : ℕ) (b : CircuitBreaker) : CircuitState :=
  if b.internal = .opened ∧ b.openedAt + b.resetMs ≤ now then .halfOpen else b.internal

/-- Ask for an attempt, which is refused with `none`. -/
def beforeAttempt (now : ℕ) (b : CircuitBreaker) : Option CircuitBreaker :=
  match b.state now with
  | .opened => none
  | .halfOpen =>
    if b.probeInFlight then none
    else some { b with internal := .halfOpen, probeInFlight := true }
  | .closed => some b

/-- An attempt got an answer. -/
def onSuccess (b : CircuitBreaker) : CircuitBreaker :=
  { b with internal := .closed, consecutiveFailures := 0, probeInFlight := false }

/-- Open the circuit. -/
def trip (now : ℕ) (b : CircuitBreaker) : CircuitBreaker :=
  { b with internal := .opened, openedAt := now, consecutiveFailures := 0 }

/-- An attempt failed. -/
def onFailure (now : ℕ) (b : CircuitBreaker) : CircuitBreaker :=
  let b := { b with probeInFlight := false }
  if b.internal = .halfOpen then b.trip now
  else
    let b := { b with consecutiveFailures := b.consecutiveFailures + 1 }
    if b.threshold ≤ b.consecutiveFailures then b.trip now else b

/-- At least `resetMs` has passed since the circuit was last opened, if it is open. -/
def Rested (now : ℕ) (b : CircuitBreaker) : Prop :=
  b.internal = .opened → b.openedAt + b.resetMs ≤ now

@[simp] theorem onSuccess_probeInFlight (b : CircuitBreaker) : b.onSuccess.probeInFlight = false :=
  rfl

@[simp] theorem onFailure_probeInFlight (now : ℕ) (b : CircuitBreaker) :
    (b.onFailure now).probeInFlight = false := by
  unfold onFailure trip
  dsimp only
  split_ifs <;> rfl

/-- What an attempt that is admitted does: it becomes the probe of a half-open circuit, or passes a
closed one. -/
theorem beforeAttempt_eq_some {now : ℕ} {b b' : CircuitBreaker} (h : b.beforeAttempt now = some b') :
    (b.state now = .halfOpen ∧ b'.internal = .halfOpen ∧ b'.probeInFlight = true) ∨ b' = b := by
  unfold beforeAttempt at h
  split at h
  · simp at h
  · rename_i hs
    split_ifs at h
    simp only [Option.some.injEq] at h
    subst h
    exact .inl ⟨hs, rfl, rfl⟩
  · simp only [Option.some.injEq] at h
    exact .inr h.symm

/-- A breaker that has rested refuses an attempt only for the sake of another one, its probe. -/
theorem beforeAttempt_isSome {now : ℕ} {b : CircuitBreaker} (hrest : b.Rested now)
    (hflag : b.probeInFlight = false) : (b.beforeAttempt now).isSome = true := by
  have hopen : b.state now ≠ .opened := by
    unfold state
    split_ifs with h
    · simp
    · exact fun hi => h ⟨hi, hrest hi⟩
  unfold beforeAttempt
  split
  · contradiction
  · simp [hflag]
  · rfl

end CircuitBreaker

/-! ## What SDID answers -/

/-- The errors of the adapter. -/
inductive SdidError where
  | unknownIdentity
  | unavailable (message : String)
  | timeout (timeoutMs : ℕ)
  | circuitOpen
  | malformedResponse
  | configuration (optionPath openQuestion : String)
  /-- Any other error that the strategy throws. -/
  | other (message : String)
  deriving DecidableEq

/-- What a strategy answers, before it is validated: a value, and how many bytes its member
`reference.data` has if that is an array of bytes. -/
structure Reply where
  /-- The value. -/
  value : JsValue
  /-- The length of the reference. -/
  dataBytes : Option ℕ

/-- The methods of a strategy. -/
inductive Method where
  | getReferenceBiometric (nid : String) (modality : String)
  | getAttributes (idOrSubject : String) (scopes : List String)
  | reassert (idOrSubject : String)

/-- A member of an object, `undefined` when there is none. -/
def member (k : String) : JsValue → JsValue
  | .obj ms => ((ms.find? (·.1 == k)).map (·.2)).getD .undefined
  | _ => .undefined

/-- A text that is not empty. -/
def nonEmptyString : JsValue → Bool
  | .str s => s != ""
  | _ => false

/-- A text of an enumeration. -/
def oneOf (texts : List String) : JsValue → Bool
  | .str s => texts.contains s
  | _ => false

/-- A member that may be missing. -/
def optional (schema : JsValue → Bool) : JsValue → Bool
  | .undefined => true
  | v => schema v

/-- Whether a value is a truth value. -/
def isBoolean : JsValue → Bool
  | .bool _ => true
  | _ => false

/-- The answer of `getReferenceBiometric`. -/
def referenceResultSchema (r : Reply) : Bool :=
  let reference := member "reference" r.value
  oneOf ["face", "fingerprint"] (member "modality" reference) && r.dataBytes.any (0 < ·) &&
    oneOf ["iso-19794", "jpeg2000", "mock"] (member "format" reference) &&
    nonEmptyString (member "sdidSubject" r.value) && nonEmptyString (member "txnRef" r.value)

/-- The answer of `getAttributes`, which has no other members. -/
def attributeSetSchema (r : Reply) : Bool :=
  match r.value with
  | .obj ms =>
    optional nonEmptyString (member "name" r.value) &&
      optional nonEmptyString (member "dateOfBirth" r.value) &&
      optional nonEmptyString (member "address" r.value) &&
      optional isBoolean (member "faceReferenceAvailable" r.value) &&
      ms.all fun m => ["name", "dateOfBirth", "address", "faceReferenceAvailable"].contains m.1
  | _ => false

/-- The answer of `reassert`. -/
def reassertResultSchema (r : Reply) : Bool :=
  isBoolean (member "valid" r.value) && oneOf ["AL1", "AL2", "AL3"] (member "assurance" r.value) &&
    nonEmptyString (member "txnRef" r.value)

/-- The schema of a method. -/
def Method.schema : Method → Reply → Bool
  | .getReferenceBiometric _ _ => referenceResultSchema
  | .getAttributes _ _ => attributeSetSchema
  | .reassert _ => reassertResultSchema

/-- A malformed answer is an error. -/
def validateBoundary (schema : Reply → Bool) (r : Reply) : Except SdidError Reply :=
  if schema r then .ok r else .error .malformedResponse

/-! ## The calls -/

/-- The commands of a call. -/
inductive Op where
  /-- Wait before the attempt `n`. -/
  | sleep (n : ℕ)
  /-- `breaker.beforeAttempt`, which fails when the attempt is refused. -/
  | beforeAttempt
  /-- The attempt, until it is settled or its time is over. -/
  | attempt (m : Method)
  /-- `breaker.onSuccess`. -/
  | onSuccess
  /-- `breaker.onFailure`. -/
  | onFailure

/-- Their answers. -/
@[reducible] def Op.Res : Op → Type
  | .sleep _ => Unit
  | .beforeAttempt => Unit
  | .attempt _ => Except SdidError Reply
  | .onSuccess => Unit
  | .onFailure => Unit

/-- A call. -/
abbrev Call := Prog Op Op.Res SdidError

/-- Issue a command. The one command that can fail is `beforeAttempt`. -/
def await (o : Op) : Call o.Res := perform .circuitOpen o

/-- What a call does with a settled attempt; `retry` goes on with the next one. -/
def settled (m : Method) (answer : Except SdidError Reply) (retry : SdidError → Call Reply) :
    Call Reply :=
  match answer.bind (validateBoundary m.schema) with
  | .ok result => do
    await .onSuccess
    pure result
  | .error (.configuration optionPath openQuestion) =>
    throwing (.configuration optionPath openQuestion)
  | .error .unknownIdentity => do
    await .onSuccess
    throwing .unknownIdentity
  | .error err => do
    await .onFailure
    retry err

/-- The attempts from the number `n` on, of which `left` are left. -/
def attempts (m : Method) : (left n : ℕ) → (lastError : SdidError) → Call Reply
  | 0, _, lastError => throwing lastError
  | left + 1, n, _ => do
    onlyIf (0 < n) (await (.sleep n))
    await .beforeAttempt
    let answer ← await (.attempt m)
    settled m answer (attempts m left (n + 1))

/-- The settings of the wrapper. -/
structure ResilienceOptions where
  /-- How long an attempt may take, in milliseconds. -/
  timeoutMs : ℕ := 5000
  /-- How many attempts follow the first one. -/
  retries : ℕ := 2
  /-- How many failures in a row open the circuit. -/
  breakerFailureThreshold : ℕ := 5
  /-- How long the circuit stays open. -/
  breakerResetMs : ℕ := 30000

/-- A call of the provider. The last error is set when it is thrown, since there is an attempt. -/
def execute (opts : ResilienceOptions) (m : Method) : Call Reply :=
  attempts m (opts.retries + 1) 0 (.other "")

/-- The breaker and the clock. -/
structure Shared where
  /-- The breaker. -/
  breaker : CircuitBreaker
  /-- The time, in milliseconds. -/
  now : ℕ

/-- What the environment decides. -/
inductive Input where
  /-- Nothing is decided. -/
  | unit
  /-- The attempt is settled. -/
  | answer (a : Except SdidError Reply)
  /-- The clock shows another time. -/
  | clock (now : ℕ)

/-- Execute a command. -/
def exec (i : Input) (s : Shared) : (o : Op) → Option (Option o.Res × Shared)
  | .sleep _ => some (some (), s)
  | .beforeAttempt =>
    match s.breaker.beforeAttempt s.now with
    | some b => some (some (), { s with breaker := b })
    | none => some (none, s)
  | .attempt _ =>
    match i with
    | .answer a => some (some a, s)
    | _ => none
  | .onSuccess => some (some (), { s with breaker := s.breaker.onSuccess })
  | .onFailure => some (some (), { s with breaker := s.breaker.onFailure s.now })

/-- A provider and the calls that are made of it. -/
def provider (opts : ResilienceOptions) : Machine Op Op.Res SdidError Reply Method Shared Input where
  handler := execute opts
  exec
  fallible _ := false
  env i s :=
    match i with
    | .clock now => some { s with now }
    | _ => none
  init := ⟨.new opts.breakerFailureThreshold opts.breakerResetMs, 0⟩

/-- One step of a run. -/
abbrev Step := Entry Op Op.Res Method Shared

variable {opts : ResilienceOptions} {tr l₁ l₂ : List Step} {c : Config Op Op.Res SdidError Reply Shared}
  {s s' : Shared} {t : ℕ}

/-- Call `t` has an attempt in flight: it was admitted, and the breaker does not yet know how it
ended. -/
def InFlight (c : Config Op Op.Res SdidError Reply Shared) (t : ℕ) : Prop :=
  ∃ o k, c.calls[t]? = some (.call o k) ∧ (o = .onSuccess ∨ o = .onFailure ∨ ∃ m, o = .attempt m)

/-- The attempt that call `t` is making after the steps `l` is the probe of a half-open circuit. -/
def Probing (l : List Step) (t : ℕ) : Prop :=
  ∃ l₁ s l₂, l = l₁ ++ ⟨s, .act t ⟨.beforeAttempt, some ()⟩⟩ :: l₂ ∧ own t l₁ = [] ∧
    s.breaker.state s.now = .halfOpen

/-- No probe ended in a configuration error. -/
def ProbesConfigured (tr : List Step) : Prop :=
  ∀ l₁ s t m optionPath openQuestion l₂,
    tr = l₁ ++ ⟨s, .act t ⟨.attempt m, some (.error (.configuration optionPath openQuestion))⟩⟩ :: l₂ →
      ¬ Probing l₂ t

/-! ## The commands of one call -/

/-- An attempt of the newest command that is not a configuration error. -/
def Settles (a : Act Op Op.Res) : Prop :=
  ∃ m answer, a = ⟨.attempt m, some answer⟩ ∧
    ∀ optionPath openQuestion, answer ≠ .error (.configuration optionPath openQuestion)

/-- What follows the newest command of a call: the attempt after it was admitted, and the breaker's
command after the attempt. -/
def Follows (h : List (Act Op Op.Res)) (o : Op) : Prop :=
  (∀ h', h = ⟨.beforeAttempt, some ()⟩ :: h' → ∃ m, o = .attempt m) ∧
  (∀ a h', h = a :: h' → Settles a → o = .onSuccess ∨ o = .onFailure)

/-- A call does not end right after it was admitted, nor right after an attempt that is settled. -/
def Ends (h : List (Act Op Op.Res)) : Prop :=
  (∀ h', h ≠ ⟨.beforeAttempt, some ()⟩ :: h') ∧ ∀ a h', h = a :: h' → ¬ Settles a

/-- After a command that neither admits nor settles an attempt, any command may come, and the end. -/
theorem Ends.follows {h : List (Act Op Op.Res)} (hh : Ends h) (o : Op) : Follows h o :=
  ⟨fun h' hh' => absurd hh' (hh.1 h'), fun a h' hh' ha => absurd ha (hh.2 a h' hh')⟩

theorem ends_cons {a : Act Op Op.Res} {h : List (Act Op Op.Res)} (hb : a ≠ ⟨.beforeAttempt, some ()⟩)
    (ha : ¬ Settles a) : Ends (a :: h) := by
  constructor
  · intro h' hh
    exact hb (List.cons.inj hh).1
  · intro a' h' hh
    rwa [← (List.cons.inj hh).1]

/-- A command that is no attempt settles none. -/
theorem not_settles {o : Op} {r : Option o.Res} (ho : ∀ m, o ≠ .attempt m) : ¬ Settles ⟨o, r⟩ := by
  rintro ⟨m, answer, ha, -⟩
  exact ho m (congrArg Act.op ha)

/-- An attempt that fails to be executed, or ends in a configuration error, settles nothing. -/
theorem not_settles_attempt {m : Method} {r : Option (Except SdidError Reply)}
    (hr : ∀ answer, r = some answer → ∃ p q, answer = .error (.configuration p q)) :
    ¬ Settles ⟨.attempt m, r⟩ := by
  rintro ⟨m', answer, ha, hno⟩
  cases ha
  obtain ⟨p, q, rfl⟩ := hr answer rfl
  exact hno p q rfl

/-- The rest of a call after its attempt is settled. -/
theorem along_settled {m : Method} {answer : Except SdidError Reply} {h : List (Act Op Op.Res)}
    {retry : SdidError → Call Reply}
    (hretry : ∀ h' e, Ends h' → Along Follows (fun h _ => Ends h) h' (retry e)) :
    Along Follows (fun h _ => Ends h) (⟨.attempt m, some answer⟩ :: h) (settled m answer retry) := by
  -- The breaker's command comes next, and after it anything may come.
  have hnext : ∀ o, o = .onSuccess ∨ o = .onFailure →
      Follows (⟨.attempt m, some answer⟩ :: h) o := by
    intro o ho
    exact ⟨fun h' hh => by simp at hh, fun a h' _ _ => ho⟩
  have hsuccess : ∀ (r : Option Unit) h', Ends (⟨.onSuccess, r⟩ :: h') :=
    fun r h' => ends_cons (by simp) (not_settles (by simp))
  have hfailure : ∀ (r : Option Unit) h', Ends (⟨.onFailure, r⟩ :: h') :=
    fun r h' => ends_cons (by simp) (not_settles (by simp))
  unfold settled
  split
  · exact along_perform_bind.mpr ⟨hnext _ (.inl rfl), hsuccess _ _, fun r => hsuccess _ _⟩
  · -- A configuration error is the end of the call, and settles nothing.
    rename_i optionPath openQuestion herror
    have hanswer : answer = .error (.configuration optionPath openQuestion) := by
      cases answer with
      | error e => simpa [Except.bind] using herror
      | ok r =>
        simp only [Except.bind, validateBoundary] at herror
        split_ifs at herror
        simp at herror
    refine ends_cons (by simp) (not_settles_attempt ?_)
    intro answer' heq
    exact ⟨optionPath, openQuestion, (Option.some.inj heq).symm.trans hanswer⟩
  · exact along_perform_bind.mpr ⟨hnext _ (.inl rfl), hsuccess _ _, fun r => hsuccess _ _⟩
  · exact along_perform_bind.mpr
      ⟨hnext _ (.inr rfl), hfailure _ _, fun r => hretry _ _ (hfailure _ _)⟩

/-- What holds along the attempts of a call. -/
theorem along_attempts (m : Method) (left n : ℕ) (e : SdidError) {h : List (Act Op Op.Res)}
    (hh : Ends h) : Along Follows (fun h _ => Ends h) h (attempts m left n e) := by
  induction left generalizing n e h with
  | zero => exact hh
  | succ left ih =>
    have hgo : ∀ {h}, Ends h → Along Follows (fun h _ => Ends h) h (do
        await .beforeAttempt
        let answer ← await (.attempt m)
        settled m answer (attempts m left (n + 1))) := by
      intro h hh
      refine along_perform_bind.mpr ⟨hh.follows _, ?_, fun r => along_perform_bind.mpr ⟨?_, ?_, ?_⟩⟩
      · exact ends_cons (by simp) (not_settles (by simp))
      · refine ⟨fun _ _ => ⟨m, rfl⟩, fun a h' hh ha => ?_⟩
        obtain ⟨rfl, -⟩ := List.cons.inj hh
        exact absurd ha (not_settles (by simp))
      · exact ends_cons (by simp) (not_settles_attempt (by simp))
      · intro answer
        exact along_settled fun h' e hh' => ih (n + 1) e hh'
    have hsleep : ∀ (r : Option Unit) h', Ends (⟨.sleep n, r⟩ :: h') :=
      fun r h' => ends_cons (by simp) (not_settles (by simp))
    unfold attempts
    rw [along_bind, along_onlyIf]
    refine ⟨fun _ => ?_, fun _ => hgo hh⟩
    exact (along_perform _ _).mpr ⟨hh.follows _, hsleep _ _, fun r => hgo (hsleep _ _)⟩

/-- What holds along every call. -/
theorem along_execute (m : Method) :
    Along Follows (fun h _ => Ends h) [] ((provider opts).handler m) :=
  along_attempts m _ _ _ ⟨by simp, by simp⟩

/-- What a call that was admitted does next, when all that it did since is to settle its attempt. -/
theorem next_of_admitted {h h₁ h₂ : List (Act Op Op.Res)} {p : Call Reply}
    (hp : Along Follows (fun h _ => Ends h) h p) (hh : h = h₁ ++ ⟨.beforeAttempt, some ()⟩ :: h₂)
    (hsettles : ∀ a ∈ h₁, Settles a) :
    ∃ o k, p = .call o k ∧ ((h₁ = [] ∧ ∃ m, o = .attempt m) ∨ o = .onSuccess ∨ o = .onFailure) := by
  -- The newest command is the admission, or an attempt that is settled.
  have hnot : ¬ Ends h := by
    rintro ⟨hbefore, hattempt⟩
    cases h₁ with
    | nil => exact hbefore h₂ hh
    | cons a h₁ => exact hattempt a _ hh (hsettles a List.mem_cons_self)
  cases p with
  | ret v => exact absurd hp hnot
  | raise e => exact absurd hp hnot
  | call o k =>
    obtain ⟨⟨hbefore, hattempt⟩, -⟩ := hp
    refine ⟨o, k, rfl, ?_⟩
    cases h₁ with
    | nil => exact .inl ⟨rfl, hbefore h₂ hh⟩
    | cons a h₁ => exact .inr (hattempt a _ hh (hsettles a List.mem_cons_self))

/-! ## The flag of the probe -/

/-- Some probe is still under way: it was admitted by the half-open circuit, and all that it did since
is to settle its attempt. -/
def Held (tr : List Step) : Prop :=
  ∃ l₁ s t l₂, tr = l₁ ++ ⟨s, .act t ⟨.beforeAttempt, some ()⟩⟩ :: l₂ ∧
    s.breaker.state s.now = .halfOpen ∧ ∀ a ∈ own t l₁, Settles a

/-- The flag is set by the admission of a probe, and no command of the breaker leaves it set. -/
theorem exec_probeInFlight {i : Input} {o : Op} {r : Option o.Res} (h : exec i s o = some (r, s'))
    (hflag : s'.breaker.probeInFlight = true) :
    (s.breaker.probeInFlight = true ∧ o ≠ .onSuccess ∧ o ≠ .onFailure) ∨
      ((⟨o, r⟩ : Act Op Op.Res) = ⟨.beforeAttempt, some ()⟩ ∧ s.breaker.state s.now = .halfOpen) := by
  cases o with
  | sleep n =>
    simp only [exec, Option.some.injEq, Prod.mk.injEq] at h
    obtain ⟨-, rfl⟩ := h
    exact .inl ⟨hflag, by simp, by simp⟩
  | beforeAttempt =>
    simp only [exec] at h
    split at h
    · rename_i b hb
      simp only [Option.some.injEq, Prod.mk.injEq] at h
      obtain ⟨rfl, rfl⟩ := h
      rcases CircuitBreaker.beforeAttempt_eq_some hb with ⟨hs, -, -⟩ | rfl
      · exact .inr ⟨rfl, hs⟩
      · exact .inl ⟨hflag, by simp, by simp⟩
    · simp only [Option.some.injEq, Prod.mk.injEq] at h
      obtain ⟨-, rfl⟩ := h
      exact .inl ⟨hflag, by simp, by simp⟩
  | attempt m =>
    simp only [exec] at h
    split at h
    · simp only [Option.some.injEq, Prod.mk.injEq] at h
      obtain ⟨-, rfl⟩ := h
      exact .inl ⟨hflag, by simp, by simp⟩
    · simp at h
  | onSuccess =>
    simp only [exec, Option.some.injEq, Prod.mk.injEq] at h
    obtain ⟨-, rfl⟩ := h
    simp at hflag
  | onFailure =>
    simp only [exec, Option.some.injEq, Prod.mk.injEq] at h
    obtain ⟨-, rfl⟩ := h
    simp at hflag

/-- An attempt always answers. -/
theorem exec_attempt {i : Input} {m : Method} {r : Option (Except SdidError Reply)}
    (h : exec i s (.attempt m) = some (r, s')) : ∃ answer, r = some answer := by
  simp only [exec] at h
  split at h
  · simp only [Option.some.injEq, Prod.mk.injEq] at h
    exact ⟨_, h.1.symm⟩
  · simp at h

/-- The probe that holds the flag keeps it over a step of another call, or one that is no command. -/
theorem Held.cons_of_ne {e : Step} (hh : Held tr)
    (he : ∀ l₁ s t l₂ a, tr = l₁ ++ ⟨s, .act t ⟨.beforeAttempt, some ()⟩⟩ :: l₂ →
      (∀ a ∈ own t l₁, Settles a) → s.breaker.state s.now = .halfOpen → e.event = .act t a →
        Settles a) : Held (e :: tr) := by
  obtain ⟨l₁, s₀, t, l₂, htr, hhalf, hsettles⟩ := hh
  refine ⟨e :: l₁, s₀, t, l₂, by rw [htr, List.cons_append], hhalf, ?_⟩
  intro a ha
  rcases mem_own.mp ha with ⟨e', he', hact⟩
  rcases List.mem_cons.mp he' with rfl | hold
  · exact he l₁ s₀ t l₂ a htr hsettles hhalf hact
  · exact hsettles a (mem_own.mpr ⟨e', hold, hact⟩)

/-- The flag is set only while a probe is under way. -/
theorem held_of_probeInFlight (hr : (provider opts).Reach tr c) (hconf : ProbesConfigured tr)
    (hflag : c.store.breaker.probeInFlight = true) : Held tr := by
  induction hr with
  | init => simp [provider, CircuitBreaker.new] at hflag
  | @step tr c m e c' hr hs ih =>
    have hconf' : ProbesConfigured tr := by
      rintro l₁ s t m p q l₂ rfl
      exact hconf (⟨c.store, e⟩ :: l₁) s t m p q l₂ rfl
    have hlead := Machine.step_leads hs
    rcases Machine.step_calls hs with ⟨q, rfl, -⟩ | ⟨u, o, k, r, rfl, hk, -⟩ | ⟨rfl, -⟩
    · have hsame : c'.store = c.store := hlead
      rw [hsame] at hflag
      exact (ih hconf' hflag).cons_of_ne (by simp)
    · -- A command: only the admission of a probe sets the flag, and only the probe could keep it.
      obtain ⟨i, hexec⟩ | ⟨-, hfallible, -⟩ := hlead
      · rcases exec_probeInFlight hexec hflag with ⟨hold, hnosucc, hnofail⟩ | ⟨hact, hhalf⟩
        · refine (ih hconf' hold).cons_of_ne ?_
          intro l₁ s₀ t l₂ a htr hsettles hhalf hev
          simp only [Event.act.injEq] at hev
          obtain ⟨rfl, rfl⟩ := hev
          obtain ⟨q, -, hres⟩ := hr.residue hk
          have hown : own u tr = own u l₁ ++ ⟨.beforeAttempt, some ()⟩ :: own u l₂ := by
            rw [htr, own_append, Machine.own_cons_self]
          obtain ⟨o', k', hcall, hnext⟩ :=
            next_of_admitted (hres.along (along_execute q)) hown hsettles
          cases hcall
          rcases hnext with ⟨hnil, m', rfl⟩ | rfl | rfl
          · obtain ⟨answer, rfl⟩ := exec_attempt hexec
            refine ⟨m', answer, rfl, ?_⟩
            rintro p q rfl
            exact hconf [] _ u m' p q tr rfl ⟨l₁, s₀, l₂, htr, hnil, hhalf⟩
          · exact absurd rfl hnosucc
          · exact absurd rfl hnofail
        · exact ⟨[], c.store, u, tr, by rw [hact, List.nil_append], hhalf, by simp [own]⟩
      · simp [provider] at hfallible
    · obtain ⟨i, henv⟩ := hlead
      have hsame : c'.store.breaker = c.store.breaker := by
        simp only [provider] at henv
        split at henv
        · simp only [Option.some.injEq] at henv
          rw [← henv]
        · simp at henv
      rw [hsame] at hflag
      exact (ih hconf' hflag).cons_of_ne (by simp)

/-- The circuit breaker does not wedge. In every run in which no probe ended in a configuration error,
whenever no attempt is in flight and the circuit has rested, the next attempt is admitted. -/
theorem admitted_when_idle (hr : (provider opts).Reach tr c) (hconf : ProbesConfigured tr)
    (hidle : ∀ t, ¬ InFlight c t) (hrest : c.store.breaker.Rested c.store.now) :
    (c.store.breaker.beforeAttempt c.store.now).isSome = true := by
  refine CircuitBreaker.beforeAttempt_isSome hrest ?_
  by_contra hflag
  rw [Bool.not_eq_false] at hflag
  obtain ⟨l₁, s, t, l₂, htr, -, hsettles⟩ := held_of_probeInFlight hr hconf hflag
  -- The call that holds the flag has not ended, so that its attempt is still in flight.
  have hdid : Did tr t ⟨.beforeAttempt, some ()⟩ := by
    rw [htr]
    exact did_here l₁ l₂
  obtain ⟨p, hp⟩ : ∃ p, c.calls[t]? = some p := ⟨_, List.getElem?_eq_getElem (hr.did_lt hdid)⟩
  obtain ⟨q, -, hres⟩ := hr.residue hp
  have hown : own t tr = own t l₁ ++ ⟨.beforeAttempt, some ()⟩ :: own t l₂ := by
    rw [htr, own_append, Machine.own_cons_self]
  obtain ⟨o, k, rfl, hnext⟩ := next_of_admitted (hres.along (along_execute q)) hown hsettles
  refine hidle t ⟨o, k, hp, ?_⟩
  rcases hnext with ⟨-, m, rfl⟩ | rfl | rfl
  · exact .inr (.inr ⟨m, rfl⟩)
  · exact .inl rfl
  · exact .inr (.inl rfl)

/-! ## Two outages -/

/-- An attempt of call `t` that times out, newest step first. -/
def sampleTimeout (t : ℕ) : List (Move Method Input) :=
  [.go t .unit, .go t (.answer (.error (.timeout 5000))), .go t .unit]

/-- Two calls whose five attempts time out, which opens the circuit: a third attempt of the second
call is refused. Then the circuit rests. -/
def sampleOutage : List (Move Method Input) :=
  [.env (.clock 30000), .go 1 .unit, .go 1 .unit] ++ sampleTimeout 1 ++ [.go 1 .unit] ++
    sampleTimeout 1 ++ [.arrive (.reassert "subject")] ++ sampleTimeout 0 ++ [.go 0 .unit] ++
    sampleTimeout 0 ++ [.go 0 .unit] ++ sampleTimeout 0 ++ [.arrive (.reassert "subject")]

/-- After the outage a probe ends in `e`. -/
def sampleProbe (e : SdidError) : List (Move Method Input) :=
  [.go 2 (.answer (.error e)), .go 2 .unit, .arrive (.getReferenceBiometric "1" "face")] ++
    sampleOutage

/-- Whether a call is over. -/
def isOver : Call Reply → Bool
  | .call _ _ => false
  | _ => true

/-- Whether a step is an attempt that ended in a configuration error. -/
def isMisconfigured (e : Step) : Bool :=
  match e.event with
  | .act _ ⟨.attempt _, some (.error (.configuration _ _))⟩ => true
  | _ => false

theorem not_inFlight (h : c.calls.all isOver = true) : ¬ InFlight c t := by
  rintro ⟨o, k, hcall, -⟩
  have hover := List.all_eq_true.mp h _ (List.mem_of_getElem? hcall)
  simp [isOver] at hover

theorem probesConfigured (h : tr.all (fun e => !isMisconfigured e) = true) : ProbesConfigured tr := by
  rintro l₁ s t m p q l₂ rfl
  have hno := List.all_eq_true.mp h _ (List.mem_append_right _ List.mem_cons_self)
  simp [isMisconfigured] at hno

/-- A probe that ends in a configuration error wedges the breaker: no attempt is in flight and the
circuit has rested, and the next attempt is refused. -/
theorem wedged_sampleProbe :
    ∃ tr c, (provider {}).Reach tr c ∧ (∀ t, ¬ InFlight c t) ∧
      c.store.breaker.Rested c.store.now ∧
      (c.store.breaker.beforeAttempt c.store.now).isSome = false := by
  obtain ⟨tr, c, hr, hp⟩ := (provider {}).exists_of_play
    (sampleProbe (.configuration "oidc.referenceBiometric" "A2"))
    (p := fun x => x.2.calls.all isOver && decide (x.2.store.breaker.internal ≠ .opened) &&
      !(x.2.store.breaker.beforeAttempt x.2.store.now).isSome) (by decide +kernel)
  simp only [Bool.and_eq_true, decide_eq_true_eq, Bool.not_eq_true'] at hp
  obtain ⟨⟨hover, hopen⟩, hrefused⟩ := hp
  exact ⟨tr, c, hr, fun t => not_inFlight hover, fun h => absurd h hopen, hrefused⟩

/-- After an outage the next attempt is admitted. -/
theorem admitted_when_idle_sampleOutage :
    ∃ tr c, (provider {}).Reach tr c ∧ c.store.breaker.internal = .opened ∧
      (c.store.breaker.beforeAttempt c.store.now).isSome = true := by
  obtain ⟨tr, c, hr, hp⟩ := (provider {}).exists_of_play sampleOutage
    (p := fun x => x.2.calls.all isOver && x.1.all (fun e => !isMisconfigured e) &&
      decide (x.2.store.breaker.internal = .opened) &&
      decide (x.2.store.breaker.openedAt + x.2.store.breaker.resetMs ≤ x.2.store.now))
    (by decide +kernel)
  simp only [Bool.and_eq_true, decide_eq_true_eq] at hp
  obtain ⟨⟨⟨hover, hconf⟩, hopen⟩, hrest⟩ := hp
  exact ⟨tr, c, hr, hopen, admitted_when_idle hr (probesConfigured hconf)
    (fun t => not_inFlight hover) fun _ => hrest⟩

end SdidBridge.Sdid
