import SdidBridge.Broker.Keys

/-!
# Attestation tokens are accepted once

`attestation.service.ts` in its strict mode, with the nonces that it consumes: calls that issue a nonce
and calls that verify any attestation for any key, interleaved in any way.

A verdict is given only after a nonce was taken, and before the verifier is asked. So a nonce leads to at
most one verdict, whatever the verifiers answer. If they accept a token only for the nonce inside it,
then a token leads to at most one verdict, since the nonces that are drawn are different
(`accepted_at_most_once`).
-/

namespace SdidBridge

open Concurrent Machine Prog

/-- What the attestation service is asked. -/
inductive AttestationCall where
  | issueAttestationNonce
  | verify (attestation : AttestationInput) (devicePublicKeyJwk : PublicKeyJwk)

/-- What it returns. -/
inductive AttestationReply where
  | nonce (n : IssuedNonce)
  | verdict (v : AttestationVerdict)

/-- The program of a call. -/
def attestationHandler (D : Deployment) : AttestationCall → H AttestationReply
  | .issueAttestationNonce => do return .nonce (← issueAttestationNonce D)
  | .verify attestation jwk => do return .verdict (← verifyAttestation D attestation jwk)

/-- The attestation service of a deployment. -/
abbrev attestationService (D : Deployment) :
    Machine Op Op.Res Failure AttestationReply AttestationCall Store Oracle :=
  served D (attestationHandler D)

/-- What precedes a nonce in its call: the draws of its id and of its value. -/
def NonceOnPath (h : Path) : Op → Prop
  | .nonce (.set k record _) => h = [⟨.ambient (.randomBytes 32 .base64url), some record.nonce⟩,
      ⟨.ambient (.randomBytes 16 .base64url), some k⟩]
  | _ => True

/-- What a verdict rests on: a nonce that was taken, and then a verifier that accepted the token for
it. -/
def VerdictOn (a : AttestationInput) (jwk : PublicKeyJwk) (h : Path) (k n : String) : Prop :=
  a.nonceId = some k ∧ ∃ purpose now platform level genuine cap evidence,
    h = [⟨.service (.verifyAttestation a.platform ⟨a.token, a.keyAttestation, n, jwk, now⟩),
        some (.ok platform level genuine cap evidence)⟩,
      ⟨.ambient .now, some now⟩, ⟨.nonce (.getdel k), some (some ⟨purpose, n⟩)⟩]

/-- How a call returns. -/
def AttestationReturnsOn (q : AttestationCall) (_ : AttestationReply) (h : Path) : Prop :=
  match q with
  | .issueAttestationNonce => True
  | .verify a jwk => ∃ k n, VerdictOn a jwk h k n

/-- The paths of every call in the strict mode. -/
theorem attestation_paths {D : Deployment} (hstrict : D.config.ATTESTATION_MODE = .strict)
    (q : AttestationCall) :
    Yields NonceOnPath [] (attestationHandler D q) (AttestationReturnsOn q) := by
  cases q with
  | issueAttestationNonce =>
    simp [attestationHandler, issueAttestationNonce, NonceOnPath, AttestationReturnsOn]
  | verify a jwk =>
    simp only [attestationHandler, verifyAttestation, hstrict, verifyStrict, consumeAttestationNonce,
      yields_bind, yields_throwIf, yields_orThrow, yields_recover_throwing, yields_await, yields_pure,
      yields_newDate, NonceOnPath, true_and]
    intro hplatform k hk r record hr hpurpose now result
    obtain ⟨hk, -⟩ := Option.filter_eq_some_iff.mp hk
    subst hr
    split
    · trivial
    · trivial
    · exact ⟨k, record.nonce, hk, record.purpose, now, _, _, _, _, _, rfl⟩

/-! ## The runs of the service -/

section Runs

variable {D : Deployment} {tr l₁ l₂ : List (Entry Op Op.Res AttestationCall Store)}
  {c : Config Op Op.Res Failure AttestationReply Store} {s : Store} {t u : ℕ} {k k' n : String}
  {record record' : NonceRecord} {ttl ttl' : ℕ}

/-- Call `u` has accepted the attestation `a` for a key. -/
def Accepted (tr : List (Entry Op Op.Res AttestationCall Store))
    (c : Config Op Op.Res Failure AttestationReply Store) (u : ℕ) (a : AttestationInput)
    (jwk : PublicKeyJwk) : Prop :=
  Arrived tr u (.verify a jwk) ∧ ∃ r, c.calls[u]? = some (.ret r)

/-- Call `t` has stored the nonce `n` under the id `k`. -/
def IssuedNonceAs (tr : List (Entry Op Op.Res AttestationCall Store)) (t : ℕ) (k n : String) : Prop :=
  ∃ purpose ttl, Did tr t ⟨.nonce (.set k ⟨purpose, n⟩ ttl), some ()⟩

/-- The attestation nonces of the service. -/
abbrev attestationNonces (D : Deployment) : Object (attestationService D) NonceOp NonceOp.Res
    (List (Timed NonceRecord)) :=
  (nonces D).onMachine (attestationService D) rfl rfl

theorem attestationNonces_init (k : String) (v : NonceRecord) :
    ¬ Holds ((attestationNonces D).get (attestationService D).init) k v := by
  rintro ⟨e, he, -⟩
  cases he

/-- A nonce that was taken was issued. -/
theorem issued_of_taken (hr : (attestationService D).Reach tr c)
    (hd : Did tr u ⟨.nonce (.getdel k), some (some record)⟩) : ∃ t, IssuedNonceAs tr t k record.nonce := by
  obtain ⟨l₁, s, l₂, rfl⟩ := hd.split
  obtain ⟨m₁, s₁, t, b, m₂, rfl, ⟨ttl, rfl⟩, -⟩ := (nonces_tickets (D := D)).put_of_taken
    (X := attestationNonces D) rfl attestationNonces_init (a := ⟨.getdel k, some (some record)⟩) hr rfl
  have hput : Did (m₁ ++ ⟨s₁, .act t ⟨.nonce (.set k record ttl), some ()⟩⟩ :: m₂) t
      ⟨.nonce (.set k record ttl), some ()⟩ := did_here _ _
  exact ⟨t, record.purpose, ttl, hput.mono (older_subset _ _)⟩

theorem VerdictOn.took {a : AttestationInput} {jwk : PublicKeyJwk} (h : VerdictOn a jwk (own u tr) k n) :
    ∃ purpose, Did tr u ⟨.nonce (.getdel k), some (some ⟨purpose, n⟩)⟩ := by
  obtain ⟨-, purpose, now, platform, level, genuine, cap, evidence, hown⟩ := h
  refine ⟨purpose, mem_own.mp ?_⟩
  rw [hown]
  simp

/-- The verifiers accept a token only for the nonce that is bound inside it. -/
def VerifiersBind (boundNonce : String → Option String)
    (tr : List (Entry Op Op.Res AttestationCall Store)) : Prop :=
  ∀ t platform request platform' level genuine cap evidence,
    Did tr t ⟨.service (.verifyAttestation platform request),
      some (.ok platform' level genuine cap evidence)⟩ →
    boundNonce request.token = some request.expectedNonce

theorem VerdictOn.bound {boundNonce : String → Option String} (hbind : VerifiersBind boundNonce tr)
    {a : AttestationInput} {jwk : PublicKeyJwk} (h : VerdictOn a jwk (own u tr) k n) :
    boundNonce a.token = some n := by
  obtain ⟨-, purpose, now, platform, level, genuine, cap, evidence, hown⟩ := h
  refine hbind u a.platform ⟨a.token, a.keyAttestation, n, jwk, now⟩ platform level genuine cap evidence ?_
  rw [← mem_own, hown]
  simp

section Strict

variable (hstrict : D.config.ATTESTATION_MODE = .strict)

include hstrict

/-- A nonce is stored right after it was drawn. -/
theorem nonce_onPath {r : Option Unit} (hr : (attestationService D).Reach
      (l₁ ++ ⟨s, .act t ⟨.nonce (.set k record ttl), r⟩⟩ :: l₂) c) :
    own t l₂ = [⟨.ambient (.randomBytes 32 .base64url), some record.nonce⟩,
      ⟨.ambient (.randomBytes 16 .base64url), some k⟩] := by
  obtain ⟨q, -, hpath⟩ := hr.act_along fun q => (attestation_paths hstrict q).along
  exact hpath

/-- An id of a nonce is used once. -/
theorem nonce_set_once {r r' : Option Unit} (hr : (attestationService D).Reach
      (l₁ ++ ⟨s, .act t ⟨.nonce (.set k record ttl), r⟩⟩ :: l₂) c) :
    ¬ Did l₂ u ⟨.nonce (.set k record' ttl'), r'⟩ := by
  intro hd
  refine named_once (P := fun k a => ∃ record ttl r, a = ⟨.nonce (.set k record ttl), r⟩) (by simp) ?_ hr
    ⟨record, ttl, r, rfl⟩ hd ⟨record', ttl', r', rfl⟩
  rintro l₁ s t a l₂ c k hr ⟨record, ttl, r, rfl⟩
  exact ⟨record.nonce, [], nonce_onPath hstrict hr⟩

/-- The value of a nonce is stored under one id. -/
theorem nonce_key_unique (hr : (attestationService D).Reach tr c) (h : IssuedNonceAs tr t k n)
    (h' : IssuedNonceAs tr u k' n) : t = u ∧ k = k' := by
  obtain ⟨purpose, ttl, hd⟩ := h
  obtain ⟨purpose', ttl', hd'⟩ := h'
  obtain ⟨l₁, s, l₂, rfl⟩ := hd.split
  obtain ⟨m₁, s', m₂, htr⟩ := hd'.split
  have hown := nonce_onPath hstrict hr
  have hown' := nonce_onPath hstrict (htr ▸ hr)
  -- Both calls drew the value, so that they are one call.
  have hdraw : Did l₂ t ⟨.ambient (.randomBytes 32 .base64url), some n⟩ := by
    rw [← mem_own, hown]
    simp
  have hdraw' : Did m₂ u ⟨.ambient (.randomBytes 32 .base64url), some n⟩ := by
    rw [← mem_own, hown']
    simp
  obtain ⟨rfl, -⟩ := draw_unique hr (hdraw.mono (older_subset _ _))
    (htr ▸ hdraw'.mono (older_subset m₁ m₂))
  -- That call had drawn two texts before either command, so that it was one command.
  have hl₂ : l₂ <:+ l₁ ++ ⟨s, .act t ⟨.nonce (.set k ⟨purpose, n⟩ ttl), some ()⟩⟩ :: l₂ :=
    List.suffix_append_of_suffix (List.suffix_cons _ _)
  have hm₂ : m₂ <:+ l₁ ++ ⟨s, .act t ⟨.nonce (.set k ⟨purpose, n⟩ ttl), some ()⟩⟩ :: l₂ := by
    rw [htr]
    exact List.suffix_append_of_suffix (List.suffix_cons _ _)
  have hsame : own t l₂ = own t m₂ := by
    rcases List.suffix_or_suffix_of_suffix hl₂ hm₂ with ⟨x, rfl⟩ | ⟨x, rfl⟩
    · have hx : own t x = [] := by
        have hlength := congrArg List.length hown'
        rw [own_append, hown, List.length_append] at hlength
        simpa using hlength
      rw [own_append, hx, List.nil_append]
    · have hx : own t x = [] := by
        have hlength := congrArg List.length hown
        rw [own_append, hown', List.length_append] at hlength
        simpa using hlength
      rw [own_append, hx, List.nil_append]
  rw [hown, hown'] at hsame
  simpa using hsame

/-- No nonce is put twice under one key. -/
theorem attestation_put_once {k : String} {v w : NonceRecord} {a b : Act NonceOp NonceOp.Res}
    (hr : (attestationService D).Reach (l₁ ++ ⟨s, .act t ((attestationNonces D).embed a)⟩ :: l₂) c)
    (ha : ∃ ttl, a = ⟨.set k v ttl, some ()⟩) (hd : Did l₂ u ((attestationNonces D).embed b)) :
    ¬ ∃ ttl, b = ⟨.set k w ttl, some ()⟩ := by
  obtain ⟨ttl, rfl⟩ := ha
  rintro ⟨ttl', rfl⟩
  exact nonce_set_once hstrict hr hd

/-- A nonce is taken by one call. -/
theorem taker_unique (hr : (attestationService D).Reach tr c)
    (hd : Did tr t ⟨.nonce (.getdel k), some (some record)⟩)
    (hd' : Did tr u ⟨.nonce (.getdel k), some (some record')⟩) : t = u := by
  refine (hr.unique (P := fun _ a => ∃ v, a = ⟨.nonce (.getdel k), some (some v)⟩) ?_ hd ⟨_, rfl⟩
    hd' ⟨_, rfl⟩).1
  rintro l₁ s t a l₂ c hr ⟨v, rfl⟩ u b hd ⟨w, rfl⟩
  exact (nonces_tickets (D := D)).taken_once (X := attestationNonces D) rfl attestationNonces_init
    (attestation_put_once hstrict) (a := ⟨.getdel k, some (some v)⟩) hr rfl
    (b := ⟨.getdel k, some (some w)⟩) hd rfl

/-- What an accepted attestation rests on. -/
theorem verdictOn_of_accepted (hr : (attestationService D).Reach tr c) {a : AttestationInput}
    {jwk : PublicKeyJwk} (h : Accepted tr c u a jwk) : ∃ k n, VerdictOn a jwk (own u tr) k n := by
  obtain ⟨harrived, r, hret⟩ := h
  obtain ⟨q, harrived', hends⟩ := hr.ret_along (fun q => (attestation_paths hstrict q).along) hret
  obtain rfl := hr.arrived_unique harrived' harrived
  exact hends r rfl

/-- In the strict mode, every verdict consumed a nonce that was issued under the id that it names; each
nonce leads to at most one verdict; and a token leads to at most one verdict, when the verifiers accept
it only for the nonce inside it. -/
theorem accepted_at_most_once (hr : (attestationService D).Reach tr c) :
    (∀ u a jwk, Accepted tr c u a jwk → ∃ t k n, a.nonceId = some k ∧ IssuedNonceAs tr t k n) ∧
    (∀ u u' a a' jwk jwk', Accepted tr c u a jwk → Accepted tr c u' a' jwk' →
      a.nonceId = a'.nonceId → u = u') ∧
    ∀ boundNonce, VerifiersBind boundNonce tr →
      ∀ u u' a a' jwk jwk', Accepted tr c u a jwk → Accepted tr c u' a' jwk' →
        a.token = a'.token → u = u' := by
  refine ⟨?_, ?_, ?_⟩
  · intro u a jwk haccepted
    obtain ⟨k, n, hverdict⟩ := verdictOn_of_accepted hstrict hr haccepted
    obtain ⟨purpose, htook⟩ := hverdict.took
    obtain ⟨t, hissued⟩ := issued_of_taken hr htook
    exact ⟨t, k, n, hverdict.1, hissued⟩
  · intro u u' a a' jwk jwk' haccepted haccepted' hid
    obtain ⟨k, n, hverdict⟩ := verdictOn_of_accepted hstrict hr haccepted
    obtain ⟨k', n', hverdict'⟩ := verdictOn_of_accepted hstrict hr haccepted'
    have hk : k = k' := by
      rw [hverdict.1, hverdict'.1] at hid
      exact Option.some.inj hid
    subst hk
    obtain ⟨purpose, htook⟩ := hverdict.took
    obtain ⟨purpose', htook'⟩ := hverdict'.took
    exact taker_unique hstrict hr htook htook'
  · intro boundNonce hbind u u' a a' jwk jwk' haccepted haccepted' htoken
    obtain ⟨k, n, hverdict⟩ := verdictOn_of_accepted hstrict hr haccepted
    obtain ⟨k', n', hverdict'⟩ := verdictOn_of_accepted hstrict hr haccepted'
    have hbound : boundNonce a.token = some n := VerdictOn.bound hbind hverdict
    have hbound' : boundNonce a'.token = some n' := VerdictOn.bound hbind hverdict'
    have hn : n = n' := by
      rw [htoken, hbound'] at hbound
      exact (Option.some.inj hbound).symm
    subst hn
    obtain ⟨purpose, htook⟩ := hverdict.took
    obtain ⟨purpose', htook'⟩ := hverdict'.took
    -- The nonce inside the token was issued under one id, and that id is taken once.
    obtain ⟨t, hissued⟩ := issued_of_taken hr htook
    obtain ⟨t', hissued'⟩ := issued_of_taken hr htook'
    obtain ⟨-, rfl⟩ := nonce_key_unique hstrict hr hissued hissued'
    exact taker_unique hstrict hr htook htook'

end Strict

end Runs

/-- A deployment in strict mode. -/
def strictDeployment : Deployment :=
  { sampleDeployment with config := { sampleDeployment.config with ATTESTATION_MODE := .strict } }

/-- A token that is the nonce inside it. -/
def sampleAttestation : AttestationInput where
  platform := .android
  token := sampleSecret 'B'
  nonceId := some (sampleId 'A')

/-- Call 1 presents the token for the nonce of call 0, and call 3 presents it again for the nonce of
call 2. -/
def sampleReplay : List (Move AttestationCall Oracle) :=
  [.arrive .issueAttestationNonce, .go 0 (.text (sampleId 'A')), .go 0 (.text (sampleSecret 'B')),
    .go 0 .unit, .go 0 .unit, .arrive (.verify sampleAttestation ⟨"EC", "P-256", "x", "y"⟩), .go 1 .unit,
    .go 1 .unit, .go 1 (.attestation (.ok .android .strongbox true .AL2 .null)),
    .arrive .issueAttestationNonce, .go 2 (.text (sampleId 'C')), .go 2 (.text (sampleSecret 'D')),
    .go 2 .unit, .go 2 .unit, .arrive (.verify { sampleAttestation with nonceId := some (sampleId 'C') }
      ⟨"EC", "P-256", "x", "y"⟩), .go 3 .unit, .go 3 .unit,
    .go 3 (.attestation (.rejected .nonceMismatch "nonce"))]

/-- Whether an entry, if it is an acceptance, is for the nonce that the token is. -/
def bindsSelf (e : Entry Op Op.Res AttestationCall Store) : Bool :=
  match e.event with
  | .act _ ⟨.service (.verifyAttestation _ request), some (.ok _ _ _ _ _)⟩ =>
    request.token == request.expectedNonce
  | _ => true

/-- Whether an entry is the arrival of the sample attestation as call 1. -/
def attestationArrives (e : Entry Op Op.Res AttestationCall Store) : Bool :=
  match e.event with
  | .arrive 1 (.verify a _) => a.token == sampleSecret 'B'
  | _ => false

/-- Whether a call has returned. -/
def hasReturned : Option (H AttestationReply) → Bool
  | some (.ret _) => true
  | _ => false

/-- The token of call 1 is accepted by call 1, and by no other call. -/
theorem accepted_at_most_once_sampleReplay : ∃ tr c a jwk,
    (attestationService strictDeployment).Reach tr c ∧ VerifiersBind some tr ∧ Accepted tr c 1 a jwk ∧
    ∀ u a' jwk', Accepted tr c u a' jwk' → a'.token = a.token → u = 1 := by
  obtain ⟨tr, c, hr, hrun⟩ := (attestationService strictDeployment).exists_of_play sampleReplay.reverse
    (p := fun run => run.1.all bindsSelf && run.1.any attestationArrives && hasReturned run.2.calls[1]?)
    (by decide +kernel)
  simp only [Bool.and_eq_true, List.all_eq_true, List.any_eq_true] at hrun
  obtain ⟨⟨hbinds, e, he, harrives⟩, hret⟩ := hrun
  have hbind : VerifiersBind some tr := by
    rintro t platform request platform' level genuine cap evidence ⟨e', he', hev⟩
    have := hbinds e' he'
    rw [bindsSelf, hev] at this
    rw [beq_iff_eq.mp this]
  unfold attestationArrives at harrives
  split at harrives
  swap
  · simp at harrives
  rename_i a jwk hev
  unfold hasReturned at hret
  split at hret
  swap
  · simp at hret
  rename_i r hcall
  have haccepted : Accepted tr c 1 a jwk := ⟨⟨e, he, hev⟩, r, hcall⟩
  obtain ⟨-, -, htoken⟩ := accepted_at_most_once rfl hr
  exact ⟨tr, c, a, jwk, hr, hbind, haccepted,
    fun u a' jwk' h ht => htoken some hbind u 1 a' a jwk' jwk h haccepted ht⟩

end SdidBridge
