import SdidBridge.Mobile.Phone
import SdidBridge.Mobile.Seams

/-!
# What the client signs

The client signs only payloads that it has rebuilt, so that each one names the purpose of the flow that
runs: `SignedIn` lists them for each call. `signs_only_named` holds of every run, in which the calls may
overlap and the broker, the transport, the key store and the clock answer anything.
-/

namespace SdidBridge.Mobile

open Concurrent Prog

variable {opts : ProtocolClientOptions} {α β : Type}

/-! ## Payloads -/

/-- The kind of a purpose. -/
inductive PurposeKind where
  | activation
  | login
  | attestation
  | cibaApprove
  | cibaDeny
  deriving DecidableEq

/-- The kind of a purpose. -/
def purposeKind : ChallengePurpose → PurposeKind
  | .activation => .activation
  | .login => .login
  | .attestation => .attestation
  | .cibaApprove _ => .cibaApprove
  | .cibaDeny _ => .cibaDeny

/-- A payload is the protocol's name followed by its purpose. -/
theorem buildChallengePayload_eq (p : ChallengePurpose) (c n : String) :
    buildChallengePayload p c n = "sdid-bridge:v1:" ++ (purposeString p ++ (":" ++ (c ++ (":" ++ n)))) := by
  unfold buildChallengePayload CHALLENGE_PROTOCOL_VERSION
  simp only [String.append_assoc]
  rfl

/-- What a payload starts with after the protocol's name tells the kind of its purpose. -/
theorem purposeKind_eq_of_payload {p p' : ChallengePurpose} {c c' n n' : String}
    (h : buildChallengePayload p c n = buildChallengePayload p' c' n') : purposeKind p = purposeKind p' := by
  rw [buildChallengePayload_eq, buildChallengePayload_eq, String.append_right_inj] at h
  have htake := congrArg (fun s : String => s.toList.take 6) h
  cases p <;> cases p' <;> first
    | rfl
    | exact absurd htake (by simp [purposeString])

/-! ## What each call signs -/

/-- A payload for the purpose `p`. -/
def Names (p : ChallengePurpose) (payload : String) : Prop :=
  ∃ challengeId nonce, payload = buildChallengePayload p challengeId nonce

/-- What a call of the app may sign: the payload of its flow, and of a login where it needs a session. -/
def ClientCall.SignedIn : ClientCall → String → Prop
  | .enrol _, payload => Names .activation payload
  | .decide txn decision _, payload => Names .login payload ∨
      payload = buildChallengePayload (decisionPurpose txn decision) txn.challenge.challengeId txn.challenge.nonce
  | .currentBinding, _ => False
  | .isEnrolled, _ => False
  | .reset, _ => False
  | _, payload => Names .login payload

/-- The kinds of the purposes that a call of the app may sign. -/
def ClientCall.kinds : ClientCall → List PurposeKind
  | .enrol _ => [.activation]
  | .decide _ .approve _ => [.login, .cibaApprove]
  | .decide _ .deny _ => [.login, .cibaDeny]
  | .currentBinding => []
  | .isEnrolled => []
  | .reset => []
  | _ => [.login]

/-- A call on a seam signs only what `P` allows. -/
def Command.Signs (P : String → Prop) : Command → Prop
  | .sign _ payload _ => P payload
  | _ => True

section Signs

variable {P : String → Prop}

theorem signs_wait : ∀ o : Command, o.isWait = true → o.Signs P := by
  intro o ho
  cases o <;> trivial

theorem signs_backchannel (hP : ∀ payload, Names .login payload → P payload) :
    Backchannel opts (Command.Signs P) where
  wait := signs_wait
  loginChallenge _ := trivial
  login _ _ _ := trivial
  load := trivial
  now := trivial
  session := trivial
  setSession _ := trivial
  sign challengeId nonce _ := hP _ ⟨challengeId, nonce, rfl⟩

theorem signs_wiping : Wiping (Command.Signs P) where
  load := trivial
  setSession _ := trivial
  clear := trivial
  deleteKey _ := trivial

theorem signs_enrolling (hP : ∀ payload, Names .activation payload → P payload) :
    Enrolling opts (Command.Signs P) where
  wait := signs_wait
  attestationChallenge := trivial
  enrolStart _ _ _ _ _ := trivial
  enrolActivate _ _ _ := trivial
  keyStoreCapabilities := trivial
  biometricCapabilities := trivial
  generate _ := trivial
  attest _ := trivial
  capture _ _ := trivial
  toDto := trivial
  dispose := trivial
  now := trivial
  save _ := trivial
  sign challengeId nonce _ := hP _ ⟨challengeId, nonce, rfl⟩

end Signs

/-- Each call of the app signs only what it may. -/
theorem method_signs (q : ClientCall) : Only (Command.Signs q.SignedIn) (q.method opts) := by
  refine only_method ?_
  cases q with
  | enrol input => exact signs_enrolling fun _ h => h
  | login => exact signs_backchannel fun _ h => h
  | decide txn decision report =>
    exact ⟨signs_backchannel fun _ h => .inl h, signs_wiping, fun _ => .inr rfl, fun _ _ _ => trivial⟩
  | currentBinding => trivial
  | isEnrolled => trivial
  | reset => exact signs_wiping
  | pullPending => exact ⟨signs_backchannel fun _ h => h, signs_wiping, fun _ => trivial⟩
  | listBindings => exact ⟨signs_backchannel fun _ h => h, signs_wiping, fun _ => trivial⟩
  | revokeBinding bindingId reason => exact ⟨signs_backchannel fun _ h => h, signs_wiping, fun _ => trivial⟩
  | listConsents => exact ⟨signs_backchannel fun _ h => h, signs_wiping, fun _ => trivial⟩
  | revokeConsent consentId => exact ⟨signs_backchannel fun _ h => h, signs_wiping, fun _ => trivial⟩
  | activity => exact ⟨signs_backchannel fun _ h => h, signs_wiping, fun _ => trivial⟩

theorem Names.kind {p p' : ChallengePurpose} {payload : String} (h : Names p payload) (h' : Names p' payload) :
    purposeKind p' = purposeKind p := by
  obtain ⟨c, n, rfl⟩ := h
  obtain ⟨c', n', hpayload⟩ := h'
  exact (purposeKind_eq_of_payload hpayload).symm

/-- Whatever purpose a signed payload can be read as, it is of a kind that the call may sign. -/
theorem ClientCall.SignedIn.kind {q : ClientCall} {payload : String} (h : q.SignedIn payload)
    {p : ChallengePurpose} (hp : Names p payload) : purposeKind p ∈ q.kinds := by
  have hlogin : Names .login payload → purposeKind p = .login := fun hl => hl.kind hp
  cases q with
  | enrol input =>
    rw [Names.kind h hp]
    simp [kinds, purposeKind]
  | decide txn decision report =>
    rcases h with hl | hown
    · cases decision <;> simp [kinds, hlogin hl]
    · rw [Names.kind ⟨_, _, hown⟩ hp]
      cases decision <;> simp [kinds, decisionPurpose, purposeKind]
  | currentBinding => exact h.elim
  | isEnrolled => exact h.elim
  | reset => exact h.elim
  | login => simpa [kinds] using hlogin h
  | pullPending => simpa [kinds] using hlogin h
  | listBindings => simpa [kinds] using hlogin h
  | revokeBinding bindingId reason => simpa [kinds] using hlogin h
  | listConsents => simpa [kinds] using hlogin h
  | revokeConsent consentId => simpa [kinds] using hlogin h
  | activity => simpa [kinds] using hlogin h

/-- An approval is signed only for the citizen who approves. -/
theorem approve_of_kind {q : ClientCall} (h : .cibaApprove ∈ q.kinds) :
    ∃ txn report, q = .decide txn .approve report := by
  cases q with
  | decide txn decision report =>
    cases decision with
    | approve => exact ⟨txn, report, rfl⟩
    | deny => simp [ClientCall.kinds] at h
  | _ => simp [ClientCall.kinds] at h

/-- In every run, a payload that is passed to the key store names the purpose of the flow that runs, and is
of no other purpose; a decision is signed for the transaction that the call was given. Where nothing is
approved, no payload of an approval is signed. -/
theorem signs_only_named {init : Phone} {tr : List (Entry Command Answer ClientCall Phone)}
    {c : Config Command Answer Thrown Unit Phone} (hr : (phone opts init).Reach tr c) {t : ℕ}
    {keyAlias payload : String} {prompt : SignPromptSpec} {r : Option (Except MobileError String)}
    (hd : Did tr t ⟨.sign keyAlias payload prompt, r⟩) :
    (∃ q, Arrived tr t q ∧ q.SignedIn payload ∧ ∀ p, Names p payload → purposeKind p ∈ q.kinds) ∧
    ((∀ t txn report, ¬ Arrived tr t (.decide txn .approve report)) →
      ∀ authReqId, ¬ Names (.cibaApprove authReqId) payload) := by
  obtain ⟨l₁, s, l₂, rfl⟩ := hd.split
  obtain ⟨q, ha, hsigned⟩ := hr.act_along (fun q => (method_signs q) [])
  have harrived : Arrived (l₁ ++ ⟨s, .act t ⟨.sign keyAlias payload prompt, r⟩⟩ :: l₂) t q :=
    ha.mono (older_subset l₁ l₂)
  have hkinds : ∀ p, Names p payload → purposeKind p ∈ q.kinds := fun p hp => ClientCall.SignedIn.kind hsigned hp
  refine ⟨⟨q, harrived, hsigned, hkinds⟩, fun hnone authReqId happrove => ?_⟩
  obtain ⟨txn, report, rfl⟩ := approve_of_kind (hkinds _ happrove)
  exact hnone t txn report harrived

/-- The citizen denies, and the client logs in first. -/
def sampleDeny : List (Move ClientCall World) :=
  .arrive (.decide sampleTransaction .deny none) :: goes (worldOf sampleBroker) 0 11

/-- The payload that an entry passes to the key store. -/
def signedBy (t : ℕ) (e : Entry Command Answer ClientCall Phone) : Option String :=
  match e.event with
  | .act u ⟨.sign _ payload _, _⟩ => if u = t then some payload else none
  | _ => none

theorem did_of_signedBy {tr : List (Entry Command Answer ClientCall Phone)} {t : ℕ} {payload : String}
    (h : payload ∈ tr.filterMap (signedBy t)) :
    ∃ keyAlias prompt r, Did tr t ⟨.sign keyAlias payload prompt, r⟩ := by
  obtain ⟨⟨s, ev⟩, he, hsigned⟩ := List.mem_filterMap.mp h
  unfold signedBy at hsigned
  split at hsigned
  · rename_i u keyAlias payload' prompt r hev
    obtain ⟨rfl, rfl⟩ : u = t ∧ payload' = payload := by simpa using hsigned
    exact ⟨keyAlias, prompt, r, _, he, hev⟩
  · simp at hsigned

/-- A run in which the citizen denies signs nothing but the login and the denial. -/
theorem signs_only_named_sampleDeny : ∃ tr c payload, (phone sampleOptions samplePhone).Reach tr c ∧
    payload = sampleTransaction.challenge.denyPayload ∧ payload ∈ tr.filterMap (signedBy 0) ∧
    ∃ q, Arrived tr 0 q ∧ q.SignedIn payload ∧ ∀ p, Names p payload → purposeKind p ∈ q.kinds := by
  obtain ⟨tr, c, hr, hrun⟩ := (phone sampleOptions samplePhone).exists_of_play sampleDeny.reverse
    (p := fun run => sampleTransaction.challenge.denyPayload ∈ run.1.filterMap (signedBy 0)) (by decide +kernel)
  have hmem : sampleTransaction.challenge.denyPayload ∈ tr.filterMap (signedBy 0) := of_decide_eq_true hrun
  obtain ⟨keyAlias, prompt, r, hdid⟩ := did_of_signedBy hmem
  exact ⟨tr, c, _, hr, rfl, hmem, (signs_only_named hr hdid).1⟩

end SdidBridge.Mobile
