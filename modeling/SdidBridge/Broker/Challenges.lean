import SdidBridge.Broker.Keys

/-!
# The challenge service under any calls

`challenge.service.ts` by itself: its six operations, called in any order and interleaved in any way,
with whatever ids, purposes, and bindings an adversary chooses. The broker calls them with fewer.

A challenge is stored under an id that was just drawn, so that no id is used twice, in either key space
(`named_once`). A consumption takes what is stored (`Tickets`): what it returns is therefore built from
what one call issued, and nobody returns it again (`single_use_and_separation`).
-/

namespace SdidBridge

open Concurrent Machine Prog

/-- The operations of the challenge service. -/
inductive ChallengeRequest where
  | issue (purpose : ChallengePurpose) (bindingId : String)
  | issueCiba (authReqId bindingId : String)
  | issueAttestationNonce
  | consume (challengeId : String) (expectedPurpose : ChallengePurpose) (bindingId : String)
  | consumeCiba (challengeId authReqId bindingId : String) (decision : Decision)
  | consumeAttestationNonce (nonceId : String)

/-- What they return. -/
inductive ChallengeReply where
  | issued (c : IssuedChallenge)
  | issuedCiba (c : IssuedCibaChallenge)
  | issuedNonce (n : IssuedNonce)
  /-- The text that a device must have signed. -/
  | payload (text : String)
  /-- The value of an attestation nonce. -/
  | nonce (text : String)

/-- The program of an operation. -/
def challengeHandler (D : Deployment) : ChallengeRequest → H ChallengeReply
  | .issue purpose bindingId => do return .issued (← issue D purpose bindingId)
  | .issueCiba authReqId bindingId => do return .issuedCiba (← issueCiba D authReqId bindingId)
  | .issueAttestationNonce => do return .issuedNonce (← issueAttestationNonce D)
  | .consume challengeId purpose bindingId => do return .payload (← consume challengeId purpose bindingId)
  | .consumeCiba challengeId authReqId bindingId decision => do
    return .payload (← consumeCiba challengeId authReqId bindingId decision)
  | .consumeAttestationNonce nonceId => do return .nonce (← consumeAttestationNonce nonceId)

/-- The challenge service of a deployment. -/
abbrev challengeService (D : Deployment) :
    Machine Op Op.Res Failure ChallengeReply ChallengeRequest Store Oracle :=
  served D (challengeHandler D)

/-- The id that an operation consumes. -/
def ChallengeRequest.consumes : ChallengeRequest → Option String
  | .consume challengeId _ _ => some challengeId
  | .consumeCiba challengeId _ _ _ => some challengeId
  | .consumeAttestationNonce nonceId => some nonceId
  | _ => none

/-- What an operation stores under the id `k` with the nonce `n`. -/
def ChallengeRequest.Stores (q : ChallengeRequest) (k n : String) (o : Op) : Prop :=
  match q with
  | .issue purpose bindingId =>
    ∃ ttl, o = .challenge (.set k ⟨purposeString purpose, n, bindingId⟩ ttl)
  | .issueCiba authReqId bindingId => ∃ ttl, o = .challenge (.set k ⟨cibaPurpose authReqId, n, bindingId⟩ ttl)
  | .issueAttestationNonce => ∃ ttl, o = .nonce (.set k ⟨purposeString .attestation, n⟩ ttl)
  | _ => False

/-- The operation that issues what an operation consumes. -/
def ChallengeRequest.issuer : ChallengeRequest → Option ChallengeRequest
  | .consume _ purpose bindingId => some (.issue purpose bindingId)
  | .consumeCiba _ authReqId bindingId _ => some (.issueCiba authReqId bindingId)
  | .consumeAttestationNonce _ => some .issueAttestationNonce
  | _ => none

/-- What an operation that consumes returns for the nonce `n`. -/
def ChallengeRequest.Answers (q : ChallengeRequest) (n : String) (r : ChallengeReply) : Prop :=
  match q with
  | .consume challengeId purpose _ => r = .payload (buildChallengePayload purpose challengeId n)
  | .consumeCiba challengeId authReqId _ decision =>
    r = .payload (buildChallengePayload (decision.purpose authReqId) challengeId n)
  | .consumeAttestationNonce _ => r = .nonce n
  | _ => False

/-- What an operation that consumes under the id `k` and returns has taken: the nonce `n`. -/
def ChallengeRequest.Took (q : ChallengeRequest) (k n : String) (a : Cmd) : Prop :=
  match q with
  | .consume challengeId purpose bindingId => challengeId = k ∧
      a = ⟨.challenge (.getdel k), some (some ⟨purposeString purpose, n, bindingId⟩)⟩
  | .consumeCiba challengeId authReqId bindingId _ => challengeId = k ∧
      a = ⟨.challenge (.getdel k), some (some ⟨cibaPurpose authReqId, n, bindingId⟩)⟩
  | .consumeAttestationNonce nonceId => nonceId = k ∧
      a = ⟨.nonce (.getdel k), some (some ⟨purposeString .attestation, n⟩)⟩
  | _ => False

/-- What an operation returns for a challenge that it issued under the id `k` with the nonce `n`. -/
def ChallengeRequest.Returns (q : ChallengeRequest) (k n : String) (r : ChallengeReply) : Prop :=
  match q with
  | .issue purpose _ => ∃ expiresAt, r = .issued ⟨k, n, buildChallengePayload purpose k n, expiresAt⟩
  | .issueCiba authReqId _ => ∃ expiresAt, r = .issuedCiba
      ⟨⟨k, n, buildChallengePayload (.cibaApprove authReqId) k n, expiresAt⟩,
        buildChallengePayload (.cibaApprove authReqId) k n, buildChallengePayload (.cibaDeny authReqId) k n⟩
  | .issueAttestationNonce => ∃ expiresAt, r = .issuedNonce ⟨k, n, expiresAt⟩
  | _ => False

/-! ## The paths of the operations -/

/-- What precedes a command of an operation: a challenge is stored right after it was drawn, and a
consumption issues no command but its `GETDEL`. -/
def ChallengeOnPath (q : ChallengeRequest) (h : Path) (o : Op) : Prop :=
  match o with
  | .challenge (.set k record _) => q.Stores k record.nonce o ∧ DrawsId h k record.nonce
  | .nonce (.set k record _) => q.Stores k record.nonce o ∧ DrawsId h k record.nonce
  | .challenge (.getdel _) => True
  | .nonce (.getdel _) => True
  | _ => q.consumes = none

/-- How an operation that returns has got there: with what it has stored, or with what it has taken. -/
def ChallengeReturnsOn (q : ChallengeRequest) (r : ChallengeReply) (h : Path) : Prop :=
  (∃ k n o res, q.Stores k n o ∧ q.Returns k n r ∧ (⟨o, some res⟩ : Cmd) ∈ h) ∨
    ∃ k n a, q.Took k n a ∧ q.Answers n r ∧ h = [a]

/-- The paths of every operation. -/
theorem challenge_paths (D : Deployment) (q : ChallengeRequest) :
    Yields (ChallengeOnPath q) [] (challengeHandler D q) (ChallengeReturnsOn q) := by
  cases q with
  | issue purpose bindingId =>
    simp [challengeHandler, issue, ChallengeOnPath, ChallengeReturnsOn,
      ChallengeRequest.Stores, ChallengeRequest.Returns, ChallengeRequest.Took,
      ChallengeRequest.consumes, DrawsId]
  | issueCiba authReqId bindingId =>
    simp [challengeHandler, issueCiba, ChallengeOnPath, ChallengeReturnsOn,
      ChallengeRequest.Stores, ChallengeRequest.Returns, ChallengeRequest.Took,
      ChallengeRequest.consumes, DrawsId]
  | issueAttestationNonce =>
    simp [challengeHandler, issueAttestationNonce, ChallengeOnPath,
      ChallengeReturnsOn, ChallengeRequest.Stores, ChallengeRequest.Returns, ChallengeRequest.Took,
      ChallengeRequest.consumes, DrawsId]
  | consume challengeId purpose bindingId =>
    simp only [challengeHandler, consume, yields_bind, yields_await, yields_orThrow, yields_throwIf,
      yields_pure, ChallengeOnPath, not_or, not_not, true_and]
    rintro _ record rfl ⟨hp, hb⟩
    exact .inr ⟨challengeId, record.nonce, _, ⟨rfl, by rw [← hp, ← hb]⟩, rfl, rfl⟩
  | consumeCiba challengeId authReqId bindingId decision =>
    simp only [challengeHandler, consumeCiba, yields_bind, yields_await, yields_orThrow,
      yields_throwIf, yields_pure, ChallengeOnPath, not_or, not_not, true_and]
    rintro _ record rfl ⟨hp, hb⟩
    exact .inr ⟨challengeId, record.nonce, _, ⟨rfl, by rw [← hp, ← hb]⟩, rfl, rfl⟩
  | consumeAttestationNonce nonceId =>
    simp only [challengeHandler, consumeAttestationNonce, yields_bind, yields_await, yields_orThrow,
      yields_throwIf, yields_pure, ChallengeOnPath, not_not, true_and]
    rintro _ record rfl hp
    exact .inr ⟨nonceId, record.nonce, _, ⟨rfl, by rw [← hp]⟩, rfl, rfl⟩

/-! ## The runs of the service -/

section Runs

variable {D : Deployment} {tr l₁ l₂ : List (Entry Op Op.Res ChallengeRequest Store)}
  {c : Config Op Op.Res Failure ChallengeReply Store} {s : Store} {t u : ℕ} {a b : Cmd}
  {k n n' : String} {q q' : ChallengeRequest} {o : Op}

/-- Call `t` serves the operation `q`, and has stored the nonce `n` under the id `k`. -/
def Issued (tr : List (Entry Op Op.Res ChallengeRequest Store)) (t : ℕ) (q : ChallengeRequest)
    (k n : String) : Prop :=
  Arrived tr t q ∧ ∃ o res, q.Stores k n o ∧ Did tr t ⟨o, some res⟩

theorem Issued.mono (h : Issued l₁ t q k n) (hl : l₁ ⊆ l₂) : Issued l₂ t q k n := by
  obtain ⟨harrived, o, res, hs, hd⟩ := h
  exact ⟨harrived.mono hl, o, res, hs, hd.mono hl⟩

/-- Whoever stores a challenge has drawn its id. -/
theorem ChallengeRequest.Stores.onPath (hs : q'.Stores k n o) {h : Path}
    (hpath : ChallengeOnPath q h o) : q.Stores k n o ∧ DrawsId h k n := by
  cases q' with
  | issue purpose bindingId => obtain ⟨ttl, rfl⟩ := hs; exact hpath
  | issueCiba authReqId bindingId => obtain ⟨ttl, rfl⟩ := hs; exact hpath
  | issueAttestationNonce => obtain ⟨ttl, rfl⟩ := hs; exact hpath
  | consume challengeId purpose bindingId => exact hs.elim
  | consumeCiba challengeId authReqId bindingId decision => exact hs.elim
  | consumeAttestationNonce nonceId => exact hs.elim

/-- A command stores one nonce. -/
theorem ChallengeRequest.Stores.nonce_eq (hs : q.Stores k n o) (hs' : q'.Stores k n' o) : n = n' := by
  have hnonce : ∀ {q : ChallengeRequest} {n}, q.Stores k n o →
      (∃ p b ttl, o = .challenge (.set k ⟨p, n, b⟩ ttl)) ∨ ∃ p ttl, o = .nonce (.set k ⟨p, n⟩ ttl) := by
    intro q n hs
    cases q with
    | issue purpose bindingId => exact .inl ⟨_, _, hs⟩
    | issueCiba authReqId bindingId => exact .inl ⟨_, _, hs⟩
    | issueAttestationNonce => exact .inr ⟨_, hs⟩
    | consume challengeId purpose bindingId => exact hs.elim
    | consumeCiba challengeId authReqId bindingId decision => exact hs.elim
    | consumeAttestationNonce nonceId => exact hs.elim
  rcases hnonce hs with ⟨p, b, ttl, rfl⟩ | ⟨p, ttl, rfl⟩ <;> rcases hnonce hs' with
    ⟨p', b', ttl', heq⟩ | ⟨p', ttl', heq⟩ <;> simp_all

theorem challenge_onPath (hr : (challengeService D).Reach (l₁ ++ ⟨s, .act t a⟩ :: l₂) c) :
    ∃ q, Arrived l₂ t q ∧ ChallengeOnPath q (own t l₂) a.op :=
  hr.act_along fun q => (challenge_paths D q).along

/-- An id is stored under once, in whichever key space. -/
theorem stored_once (hr : (challengeService D).Reach (l₁ ++ ⟨s, .act t a⟩ :: l₂) c)
    (hs : q.Stores k n a.op) (hd : Did l₂ u b) : ¬ q'.Stores k n' b.op := by
  intro hs'
  refine named_once (P := fun k a => ∃ q n, ChallengeRequest.Stores q k n a.op) ?_ ?_ hr ⟨q, n, hs⟩ hd
    ⟨q', n', hs'⟩
  · rintro k m e r ⟨q, n, hs⟩
    cases q <;> simp [ChallengeRequest.Stores] at hs
  · rintro l₁ s t a l₂ c k hr ⟨q, n, hs⟩
    obtain ⟨q', -, hpath⟩ := challenge_onPath hr
    exact ⟨n, (hs.onPath hpath).2⟩

/-- The request of a call that has stored a challenge. -/
theorem issued_of_did (hr : (challengeService D).Reach tr c) {res : o.Res}
    (hd : Did tr t ⟨o, some res⟩) (hs : q'.Stores k n o) : ∃ q, Issued tr t q k n ∧ q.Stores k n o := by
  obtain ⟨l₁, s, l₂, rfl⟩ := hd.split
  obtain ⟨q, harrived, hpath⟩ := challenge_onPath hr
  have hs' := (hs.onPath hpath).1
  exact ⟨q, ⟨harrived.mono (older_subset _ _), o, res, hs', hd⟩, hs'⟩

/-- An id names one challenge. -/
theorem issued_unique (hr : (challengeService D).Reach tr c) (h : Issued tr t q k n)
    (h' : Issued tr u q' k n') : t = u ∧ q = q' ∧ n = n' := by
  obtain ⟨harrived, o, res, hs, hd⟩ := h
  obtain ⟨harrived', o', res', hs', hd'⟩ := h'
  obtain ⟨rfl, hcmd⟩ := hr.unique (P := fun _ a => ∃ q n, ChallengeRequest.Stores q k n a.op)
    (fun hr ⟨q, n, hs⟩ u b hd ⟨q', n', hs'⟩ => stored_once hr hs hd hs') hd ⟨q, n, hs⟩ hd' ⟨q', n', hs'⟩
  obtain rfl : o = o' := congrArg Act.op hcmd
  exact ⟨rfl, hr.arrived_unique harrived harrived', hs.nonce_eq hs'⟩

/-- The challenges of the service. -/
abbrev serviceChallenges (D : Deployment) : Object (challengeService D) ChallengeOp ChallengeOp.Res
    (List (Timed ChallengeRecord)) :=
  (challenges D).onMachine (challengeService D) rfl rfl

/-- The attestation nonces of the service. -/
abbrev serviceNonces (D : Deployment) : Object (challengeService D) NonceOp NonceOp.Res
    (List (Timed NonceRecord)) :=
  (nonces D).onMachine (challengeService D) rfl rfl

theorem challenges_init (k : String) (v : ChallengeRecord) :
    ¬ Holds ((serviceChallenges D).get (challengeService D).init) k v := by
  rintro ⟨e, he, -⟩
  cases he

theorem nonces_init (k : String) (v : NonceRecord) :
    ¬ Holds ((serviceNonces D).get (challengeService D).init) k v := by
  rintro ⟨e, he, -⟩
  cases he

/-- A challenge is stored by an operation that issues one. -/
theorem stores_of_set {record : ChallengeRecord} {ttl : ℕ} {r : Option Unit}
    (hr : (challengeService D).Reach tr c) (hd : Did tr t ⟨.challenge (.set k record ttl), r⟩) :
    ∃ q : ChallengeRequest, q.Stores k record.nonce (.challenge (.set k record ttl)) := by
  obtain ⟨l₁, s, l₂, rfl⟩ := hd.split
  obtain ⟨q, -, hpath⟩ := challenge_onPath hr
  exact ⟨q, hpath.1⟩

/-- An attestation nonce is stored by the operation that issues one. -/
theorem stores_of_set_nonce {record : NonceRecord} {ttl : ℕ} {r : Option Unit}
    (hr : (challengeService D).Reach tr c) (hd : Did tr t ⟨.nonce (.set k record ttl), r⟩) :
    ∃ q : ChallengeRequest, q.Stores k record.nonce (.nonce (.set k record ttl)) := by
  obtain ⟨l₁, s, l₂, rfl⟩ := hd.split
  obtain ⟨q, -, hpath⟩ := challenge_onPath hr
  exact ⟨q, hpath.1⟩

/-- What is taken from the challenges was issued as one. -/
theorem issued_of_getdel {record : ChallengeRecord} (hr : (challengeService D).Reach
      (l₁ ++ ⟨s, .act u ⟨.challenge (.getdel k), some (some record)⟩⟩ :: l₂) c) :
    ∃ t q ttl, Issued l₂ t q k record.nonce ∧
      q.Stores k record.nonce (.challenge (.set k record ttl)) := by
  obtain ⟨m₁, s₁, t, b, m₂, rfl, ⟨ttl, rfl⟩, -⟩ := (challenges_tickets (D := D)).put_of_taken
    (X := serviceChallenges D) rfl challenges_init (a := ⟨.getdel k, some (some record)⟩) hr rfl
  obtain ⟨c₀, -, -, hr₀, -, -⟩ := hr.entry
  have hd : Did (m₁ ++ ⟨s₁, .act t ⟨.challenge (.set k record ttl), some ()⟩⟩ :: m₂) t
      ⟨.challenge (.set k record ttl), some ()⟩ := did_here _ _
  obtain ⟨q₀, hs₀⟩ := stores_of_set hr₀ hd
  obtain ⟨q, hissued, hs⟩ := issued_of_did hr₀ hd hs₀
  exact ⟨t, q, ttl, hissued, hs⟩

/-- What is taken from the attestation nonces was issued as one. -/
theorem issued_of_getdel_nonce {record : NonceRecord} (hr : (challengeService D).Reach
      (l₁ ++ ⟨s, .act u ⟨.nonce (.getdel k), some (some record)⟩⟩ :: l₂) c) :
    ∃ t q ttl, Issued l₂ t q k record.nonce ∧ q.Stores k record.nonce (.nonce (.set k record ttl)) := by
  obtain ⟨m₁, s₁, t, b, m₂, rfl, ⟨ttl, rfl⟩, -⟩ := (nonces_tickets (D := D)).put_of_taken
    (X := serviceNonces D) rfl nonces_init (a := ⟨.getdel k, some (some record)⟩) hr rfl
  obtain ⟨c₀, -, -, hr₀, -, -⟩ := hr.entry
  have hd : Did (m₁ ++ ⟨s₁, .act t ⟨.nonce (.set k record ttl), some ()⟩⟩ :: m₂) t
      ⟨.nonce (.set k record ttl), some ()⟩ := did_here _ _
  obtain ⟨q₀, hs₀⟩ := stores_of_set_nonce hr₀ hd
  obtain ⟨q, hissued, hs⟩ := issued_of_did hr₀ hd hs₀
  exact ⟨t, q, ttl, hissued, hs⟩

/-- What an operation has taken was issued by the operation that it names. -/
theorem issued_of_took (hr : (challengeService D).Reach (l₁ ++ ⟨s, .act u a⟩ :: l₂) c)
    (ht : q.Took k n a) : ∃ t q₀, q.issuer = some q₀ ∧ Issued l₂ t q₀ k n := by
  cases q with
  | consume challengeId purpose bindingId =>
    obtain ⟨rfl, rfl⟩ := ht
    obtain ⟨t, q₀, ttl, hissued, hs⟩ := issued_of_getdel hr
    refine ⟨t, q₀, ?_, hissued⟩
    cases q₀ <;> simp only [ChallengeRequest.Stores, Op.challenge.injEq, ChallengeOp.set.injEq,
      ChallengeRecord.mk.injEq, true_and, exists_and_left, reduceCtorEq, exists_const] at hs
    · rw [ChallengeRequest.issuer, purposeString_injective hs.1.1, hs.1.2]
    · exact absurd hs.1.1 (purposeString_ne_cibaPurpose _ _)
  | consumeCiba challengeId authReqId bindingId decision =>
    obtain ⟨rfl, rfl⟩ := ht
    obtain ⟨t, q₀, ttl, hissued, hs⟩ := issued_of_getdel hr
    refine ⟨t, q₀, ?_, hissued⟩
    cases q₀ <;> simp only [ChallengeRequest.Stores, Op.challenge.injEq, ChallengeOp.set.injEq,
      ChallengeRecord.mk.injEq, true_and, exists_and_left, reduceCtorEq, exists_const] at hs
    · exact absurd hs.1.1.symm (purposeString_ne_cibaPurpose _ _)
    · rw [ChallengeRequest.issuer, cibaPurpose_injective hs.1.1, hs.1.2]
  | consumeAttestationNonce nonceId =>
    obtain ⟨rfl, rfl⟩ := ht
    obtain ⟨t, q₀, ttl, hissued, hs⟩ := issued_of_getdel_nonce hr
    refine ⟨t, q₀, ?_, hissued⟩
    cases q₀ <;> simp [ChallengeRequest.Stores] at hs
    rfl
  | issue purpose bindingId => exact ht.elim
  | issueCiba authReqId bindingId => exact ht.elim
  | issueAttestationNonce => exact ht.elim

/-- No challenge is put twice under one key. -/
theorem challenge_put_once {k : String} {v w : ChallengeRecord} {a b : Act ChallengeOp ChallengeOp.Res}
    (hr : (challengeService D).Reach (l₁ ++ ⟨s, .act t ((serviceChallenges D).embed a)⟩ :: l₂) c)
    (ha : ∃ ttl, a = ⟨.set k v ttl, some ()⟩) (hd : Did l₂ u ((serviceChallenges D).embed b)) :
    ¬ ∃ ttl, b = ⟨.set k w ttl, some ()⟩ := by
  obtain ⟨ttl, rfl⟩ := ha
  rintro ⟨ttl', rfl⟩
  obtain ⟨c₀, -, -, hr₀, -, -⟩ := hr.entry
  obtain ⟨q, hs⟩ := stores_of_set hr (did_here l₁ l₂)
  obtain ⟨q', hs'⟩ := stores_of_set hr₀ hd
  exact stored_once hr hs hd hs'

/-- No attestation nonce is put twice under one key. -/
theorem nonce_put_once {k : String} {v w : NonceRecord} {a b : Act NonceOp NonceOp.Res}
    (hr : (challengeService D).Reach (l₁ ++ ⟨s, .act t ((serviceNonces D).embed a)⟩ :: l₂) c)
    (ha : ∃ ttl, a = ⟨.set k v ttl, some ()⟩) (hd : Did l₂ u ((serviceNonces D).embed b)) :
    ¬ ∃ ttl, b = ⟨.set k w ttl, some ()⟩ := by
  obtain ⟨ttl, rfl⟩ := ha
  rintro ⟨ttl', rfl⟩
  obtain ⟨c₀, -, -, hr₀, -, -⟩ := hr.entry
  obtain ⟨q, hs⟩ := stores_of_set_nonce hr (did_here l₁ l₂)
  obtain ⟨q', hs'⟩ := stores_of_set_nonce hr₀ hd
  exact stored_once hr hs hd hs'

/-- A challenge is taken by one call. -/
theorem getdel_unique (hr : (challengeService D).Reach tr c) {v w : ChallengeRecord}
    (hd : Did tr t ⟨.challenge (.getdel k), some (some v)⟩)
    (hd' : Did tr u ⟨.challenge (.getdel k), some (some w)⟩) : t = u := by
  refine (hr.unique (P := fun _ a => ∃ v, a = ⟨.challenge (.getdel k), some (some v)⟩) ?_ hd ⟨v, rfl⟩
    hd' ⟨w, rfl⟩).1
  rintro l₁ s t a l₂ c hr ⟨v, rfl⟩ u b hd ⟨w, rfl⟩
  exact (challenges_tickets (D := D)).taken_once (X := serviceChallenges D) rfl challenges_init
    challenge_put_once (a := ⟨.getdel k, some (some v)⟩) hr rfl (b := ⟨.getdel k, some (some w)⟩) hd rfl

/-- An attestation nonce is taken by one call. -/
theorem getdel_nonce_unique (hr : (challengeService D).Reach tr c) {v w : NonceRecord}
    (hd : Did tr t ⟨.nonce (.getdel k), some (some v)⟩)
    (hd' : Did tr u ⟨.nonce (.getdel k), some (some w)⟩) : t = u := by
  refine (hr.unique (P := fun _ a => ∃ v, a = ⟨.nonce (.getdel k), some (some v)⟩) ?_ hd ⟨v, rfl⟩
    hd' ⟨w, rfl⟩).1
  rintro l₁ s t a l₂ c hr ⟨v, rfl⟩ u b hd ⟨w, rfl⟩
  exact (nonces_tickets (D := D)).taken_once (X := serviceNonces D) rfl nonces_init nonce_put_once
    (a := ⟨.getdel k, some (some v)⟩) hr rfl (b := ⟨.getdel k, some (some w)⟩) hd rfl

/-- Where an operation takes from. -/
theorem ChallengeRequest.Took.cmd (ht : q.Took k n a) :
    (∃ record, a = ⟨.challenge (.getdel k), some (some record)⟩ ∧
      q.issuer ≠ some .issueAttestationNonce) ∨
    ∃ record, a = ⟨.nonce (.getdel k), some (some record)⟩ ∧ q.issuer = some .issueAttestationNonce := by
  cases q with
  | consume challengeId purpose bindingId => exact .inl ⟨_, ht.2, by simp [issuer]⟩
  | consumeCiba challengeId authReqId bindingId decision => exact .inl ⟨_, ht.2, by simp [issuer]⟩
  | consumeAttestationNonce nonceId => exact .inr ⟨_, ht.2, rfl⟩
  | issue purpose bindingId => exact ht.elim
  | issueCiba authReqId bindingId => exact ht.elim
  | issueAttestationNonce => exact ht.elim

/-- Under one id, one call takes what it returns. -/
theorem took_unique (hr : (challengeService D).Reach tr c) (hd : Did tr t a) (ht : q.Took k n a)
    (hd' : Did tr u b) (ht' : q'.Took k n' b) : t = u := by
  -- Both take from the key space in which the id was issued.
  have hsame : q.issuer = q'.issuer := by
    obtain ⟨l₁, s, l₂, rfl⟩ := hd.split
    obtain ⟨m₁, s', m₂, htr⟩ := hd'.split
    obtain ⟨v, q₀, hq₀, hissued⟩ := issued_of_took hr ht
    obtain ⟨v', q₀', hq₀', hissued'⟩ := issued_of_took (htr ▸ hr) ht'
    obtain ⟨-, hq, -⟩ := issued_unique hr (hissued.mono (older_subset _ _))
      (htr ▸ hissued'.mono (older_subset m₁ m₂))
    rw [hq₀, hq₀', hq]
  rcases ht.cmd with ⟨v, rfl, hq⟩ | ⟨v, rfl, hq⟩ <;>
    rcases ht'.cmd with ⟨w, rfl, hq'⟩ | ⟨w, rfl, hq'⟩
  · exact getdel_unique hr hd hd'
  · exact absurd (hsame.trans hq') hq
  · exact absurd (hsame.symm.trans hq) hq'
  · exact getdel_nonce_unique hr hd hd'

/-! ## Consumption -/

/-- What a consumption that returned has taken. -/
theorem took_of_returned (hr : (challengeService D).Reach tr c) (harrived : Arrived tr u q)
    (hq : q.consumes = some k) {r : ChallengeReply} (hret : c.calls[u]? = some (.ret r)) :
    ∃ n a, q.Took k n a ∧ q.Answers n r ∧ Did tr u a := by
  obtain ⟨q', harrived', hends⟩ := hr.ret_along (fun q => (challenge_paths D q).along) hret
  obtain rfl := hr.arrived_unique harrived' harrived
  rcases hends r rfl with ⟨k', n, o, res, hs, -⟩ | ⟨k', n, a, ht, hanswers, hown⟩
  · cases q' <;> simp [ChallengeRequest.Stores, ChallengeRequest.consumes] at hs hq
  · have hk : k' = k := by
      cases q' <;> simp_all [ChallengeRequest.Took, ChallengeRequest.consumes]
    subst hk
    refine ⟨n, a, ht, hanswers, mem_own.mp ?_⟩
    rw [hown]
    exact List.mem_singleton_self a

/-- What an operation that issues and returned has stored. -/
theorem issued_of_returned (hr : (challengeService D).Reach tr c) (harrived : Arrived tr t q)
    (hq : q.consumes = none) {r : ChallengeReply} (hret : c.calls[t]? = some (.ret r)) :
    ∃ k n, Issued tr t q k n ∧ q.Returns k n r := by
  obtain ⟨q', harrived', hends⟩ := hr.ret_along (fun q => (challenge_paths D q).along) hret
  obtain rfl := hr.arrived_unique harrived' harrived
  rcases hends r rfl with ⟨k, n, o, res, hs, hreturns, hmem⟩ | ⟨k, n, a, ht, -⟩
  · exact ⟨k, n, ⟨harrived, o, res, hs, mem_own.mp hmem⟩, hreturns⟩
  · cases q' <;> simp [ChallengeRequest.Took, ChallengeRequest.consumes] at ht hq

/-- Something can be consumed under an id now. -/
def Consumable (s : Store) (k : String) : Prop :=
  (lookup s.now k s.challenges).isSome = true ∨ (lookup s.now k s.nonces).isSome = true

theorem lookup_without {α : Type} {now : Time} {k k' : String} {es : List (Timed α)}
    (h : (lookup now k (without k' es)).isSome = true) : (lookup now k es).isSome = true := by
  simp only [lookup, Option.isSome_map, List.find?_isSome] at h ⊢
  obtain ⟨e, he, hp⟩ := h
  exact ⟨e, List.mem_of_mem_filter he, hp⟩

/-- A consumption issues no command but its `GETDEL`. -/
theorem ChallengeOnPath.getdel {h : Path} (hpath : ChallengeOnPath q h o) (hq : q.consumes ≠ none) :
    (∃ k, o = .challenge (.getdel k)) ∨ ∃ k, o = .nonce (.getdel k) := by
  unfold ChallengeOnPath at hpath
  split at hpath
  · cases q <;> simp [ChallengeRequest.consumes, ChallengeRequest.Stores] at hq hpath
  · cases q <;> simp [ChallengeRequest.consumes, ChallengeRequest.Stores] at hq hpath
  · exact .inl ⟨_, rfl⟩
  · exact .inr ⟨_, rfl⟩
  · exact absurd hpath hq

/-- A command of a consumption leaves nothing to consume that was not there before. -/
theorem consumable_before (hr : (challengeService D).Reach (l₁ ++ ⟨s, .act u a⟩ :: l₂) c)
    (harrived : Arrived l₂ u q) (hq : q.consumes ≠ none) {s' : Store}
    (hl : (challengeService D).Leads ⟨s, .act u a⟩ s') (h : Consumable s' k) : Consumable s k := by
  obtain ⟨q', harrived', hpath⟩ := challenge_onPath hr
  obtain ⟨c₀, -, -, hr₀, -, -⟩ := hr.entry
  obtain rfl := hr₀.arrived_unique harrived' harrived
  rcases hl with ⟨i, hx⟩ | ⟨-, -, rfl⟩
  swap
  · exact h
  obtain ⟨o, r⟩ := a
  rcases hpath.getdel hq with ⟨k, rfl⟩ | ⟨k, rfl⟩
  · simp only [served, Op.exec, ChallengeOp.exec, Option.some.injEq, Prod.mk.injEq] at hx
    rw [← hx.2] at h
    exact h.imp lookup_without id
  · simp only [served, Op.exec, NonceOp.exec, Option.some.injEq, Prod.mk.injEq] at hx
    rw [← hx.2] at h
    exact h.imp id lookup_without

/-- Whatever is stored under an id was issued. -/
theorem issued_of_holds (hr : (challengeService D).Reach tr c) {v : ChallengeRecord}
    (h : Holds c.store.challenges k v) :
    ∃ t q n ttl, Issued tr t q k n ∧ q.Stores k n (.challenge (.set k v ttl)) := by
  obtain ⟨m₁, s₁, t, b, m₂, rfl, ⟨ttl, rfl⟩, -⟩ := (challenges_tickets (D := D)).put_of_stored
    (X := serviceChallenges D) rfl challenges_init hr h
  have hd : Did (m₁ ++ ⟨s₁, .act t ⟨.challenge (.set k v ttl), some ()⟩⟩ :: m₂) t
      ⟨.challenge (.set k v ttl), some ()⟩ := did_here _ _
  obtain ⟨q₀, hs₀⟩ := stores_of_set hr hd
  obtain ⟨q, hissued, hs⟩ := issued_of_did hr hd hs₀
  exact ⟨t, q, v.nonce, ttl, hissued, hs⟩

/-- Whatever is stored under an id was issued. -/
theorem issued_of_holds_nonce (hr : (challengeService D).Reach tr c) {v : NonceRecord}
    (h : Holds c.store.nonces k v) :
    ∃ t q n ttl, Issued tr t q k n ∧ q.Stores k n (.nonce (.set k v ttl)) := by
  obtain ⟨m₁, s₁, t, b, m₂, rfl, ⟨ttl, rfl⟩, -⟩ := (nonces_tickets (D := D)).put_of_stored
    (X := serviceNonces D) rfl nonces_init hr h
  have hd : Did (m₁ ++ ⟨s₁, .act t ⟨.nonce (.set k v ttl), some ()⟩⟩ :: m₂) t
      ⟨.nonce (.set k v ttl), some ()⟩ := did_here _ _
  obtain ⟨q₀, hs₀⟩ := stores_of_set_nonce hr hd
  obtain ⟨q, hissued, hs⟩ := issued_of_did hr hd hs₀
  exact ⟨t, q, v.nonce, ttl, hissued, hs⟩

/-- An operation stores in one key space. -/
theorem ChallengeRequest.Stores.apart {v : ChallengeRecord} {w : NonceRecord} {ttl ttl' : ℕ}
    (hs : q.Stores k n (.challenge (.set k v ttl))) : ¬ q.Stores k n' (.nonce (.set k w ttl')) := by
  cases q <;> simp [Stores] at hs ⊢

theorem holds_of_isSome {α : Type} {now : Time} {es : List (Timed α)}
    (h : (lookup now k es).isSome = true) : ∃ v, Holds es k v := by
  obtain ⟨v, hv⟩ := Option.isSome_iff_exists.mp h
  exact ⟨v, holds_of_lookup hv⟩

/-- Once a `GETDEL` has found a challenge, nothing is ever consumable under its id. -/
theorem gone_of_getdel (hr : (challengeService D).Reach tr c) {v : ChallengeRecord}
    (hd : Did tr u ⟨.challenge (.getdel k), some (some v)⟩) : ¬ Consumable c.store k := by
  obtain ⟨l₁, s, l₂, rfl⟩ := hd.split
  rintro (h | h)
  · obtain ⟨w, hw⟩ := holds_of_isSome h
    exact (challenges_tickets (D := D)).gone (X := serviceChallenges D) rfl challenges_init
      challenge_put_once (a := ⟨.getdel k, some (some v)⟩) hr rfl hw
  · -- The id was issued as a challenge, so that it was not issued as a nonce.
    obtain ⟨w, hw⟩ := holds_of_isSome h
    obtain ⟨t, q, n, ttl, hissued, hs⟩ := issued_of_holds_nonce hr hw
    obtain ⟨t', q', ttl', hissued', hs'⟩ := issued_of_getdel hr
    obtain ⟨-, rfl, -⟩ := issued_unique hr hissued (hissued'.mono (older_subset _ _))
    exact hs'.apart hs

/-- Once a `GETDEL` has found an attestation nonce, nothing is ever consumable under its id. -/
theorem gone_of_getdel_nonce (hr : (challengeService D).Reach tr c) {v : NonceRecord}
    (hd : Did tr u ⟨.nonce (.getdel k), some (some v)⟩) : ¬ Consumable c.store k := by
  obtain ⟨l₁, s, l₂, rfl⟩ := hd.split
  rintro (h | h)
  · obtain ⟨w, hw⟩ := holds_of_isSome h
    obtain ⟨t, q, n, ttl, hissued, hs⟩ := issued_of_holds hr hw
    obtain ⟨t', q', ttl', hissued', hs'⟩ := issued_of_getdel_nonce hr
    obtain ⟨-, rfl, -⟩ := issued_unique hr hissued (hissued'.mono (older_subset _ _))
    exact hs.apart hs'
  · obtain ⟨w, hw⟩ := holds_of_isSome h
    exact (nonces_tickets (D := D)).gone (X := serviceNonces D) rfl nonces_init
      nonce_put_once (a := ⟨.getdel k, some (some v)⟩) hr rfl hw

/-- Call `u` has consumed the id `k` by the operation `q`, and returned `r`. -/
def Consumed (tr : List (Entry Op Op.Res ChallengeRequest Store))
    (c : Config Op Op.Res Failure ChallengeReply Store) (u : ℕ) (q : ChallengeRequest) (k : String)
    (r : ChallengeReply) : Prop :=
  Arrived tr u q ∧ q.consumes = some k ∧ c.calls[u]? = some (.ret r)

/-- What holds of the challenges and the attestation nonces of a run. -/
structure ChallengesSingleUse (tr : List (Entry Op Op.Res ChallengeRequest Store))
    (c : Config Op Op.Res Failure ChallengeReply Store) : Prop where
  /-- An operation that issues and returns has stored what it returns. -/
  issued : ∀ t q r, Arrived tr t q → q.consumes = none → c.calls[t]? = some (.ret r) →
    ∃ k n, Issued tr t q k n ∧ q.Returns k n r
  /-- An id names one challenge or nonce, of one call. -/
  named : ∀ t t' q q' k n n', Issued tr t q k n → Issued tr t' q' k n' → t = t' ∧ q = q' ∧ n = n'
  /-- What a consumption returns is built from what was issued under that id, for the same purpose and
  the same binding. -/
  payload : ∀ u q k r, Consumed tr c u q k r →
    ∃ t q₀ n, q.issuer = some q₀ ∧ Issued tr t q₀ k n ∧ q.Answers n r
  /-- Each is consumed at most once. -/
  once : ∀ u u' q q' k r r', Consumed tr c u q k r → Consumed tr c u' q' k r' → u = u'
  /-- An attestation nonce is consumed as one only. -/
  nonceOnly : ∀ t k n, Issued tr t .issueAttestationNonce k n → ∀ u q r, Consumed tr c u q k r →
    q = .consumeAttestationNonce k
  /-- A signing challenge is never consumed as an attestation nonce. -/
  challengeOnly : ∀ t q k n, Issued tr t q k n → q ≠ .issueAttestationNonce →
    ∀ u r, ¬ Consumed tr c u (.consumeAttestationNonce k) k r
  /-- No command of a consumption, whether it fails or returns, makes anything consumable. -/
  failed : ∀ l₁ s u a l₂ q s', tr = l₁ ++ ⟨s, .act u a⟩ :: l₂ → Arrived l₂ u q → q.consumes ≠ none →
    (⟨s, .act u a⟩, s') ∈ steps tr c.store → ∀ k, Consumable s' k → Consumable s k
  /-- What a consumption has found, whether it then failed or returned, is never consumable again. -/
  gone : ∀ u k, ((∃ v, Did tr u ⟨.challenge (.getdel k), some (some v)⟩) ∨
    ∃ v, Did tr u ⟨.nonce (.getdel k), some (some v)⟩) → ¬ Consumable c.store k

/-- Challenges and nonces are used once and for one purpose, in every run of the challenge service. -/
theorem single_use_and_separation (hr : (challengeService D).Reach tr c) :
    ChallengesSingleUse tr c := by
  have hpayload : ∀ u q k r, Consumed tr c u q k r →
      ∃ t q₀ n, q.issuer = some q₀ ∧ Issued tr t q₀ k n ∧ q.Answers n r := by
    rintro u q k r ⟨harrived, hq, hret⟩
    obtain ⟨n, a, ht, hanswers, hd⟩ := took_of_returned hr harrived hq hret
    obtain ⟨l₁, s, l₂, rfl⟩ := hd.split
    obtain ⟨t, q₀, hq₀, hissued⟩ := issued_of_took hr ht
    exact ⟨t, q₀, n, hq₀, hissued.mono (older_subset _ _), hanswers⟩
  refine ⟨fun t q r harrived hq => issued_of_returned hr harrived hq,
    fun t t' q q' k n n' => issued_unique hr, hpayload, ?_, ?_, ?_, ?_, ?_⟩
  · rintro u u' q q' k r r' ⟨harrived, hq, hret⟩ ⟨harrived', hq', hret'⟩
    obtain ⟨n, a, ht, -, hd⟩ := took_of_returned hr harrived hq hret
    obtain ⟨n', b, ht', -, hd'⟩ := took_of_returned hr harrived' hq' hret'
    exact took_unique hr hd ht hd' ht'
  · rintro t k n hissued u q r hconsumed
    obtain ⟨t', q₀, n', hq₀, hissued', -⟩ := hpayload u q k r hconsumed
    obtain ⟨-, rfl, -⟩ := issued_unique hr hissued hissued'
    have hk := hconsumed.2.1
    cases q <;> simp_all [ChallengeRequest.issuer, ChallengeRequest.consumes]
  · rintro t q k n hissued hq u r hconsumed
    obtain ⟨t', q₀, n', hq₀, hissued', -⟩ := hpayload u _ k r hconsumed
    obtain ⟨-, rfl, -⟩ := issued_unique hr hissued hissued'
    exact hq (Option.some.inj hq₀).symm
  · rintro l₁ s u a l₂ q s' rfl harrived hq hstep k
    exact consumable_before hr harrived hq (hr.steps_lead _ hstep)
  · rintro u k (⟨v, hd⟩ | ⟨v, hd⟩)
    · exact gone_of_getdel hr hd
    · exact gone_of_getdel_nonce hr hd

end Runs

/-- The challenge of call 0 is denied by call 1, and presented again by call 2. -/
def sampleDenial : List (Move ChallengeRequest Oracle) :=
  [.arrive (.issueCiba "request" "binding"), .go 0 (.text (sampleId 'A')), .go 0 (.text (sampleSecret 'B')),
    .go 0 .unit, .go 0 .unit, .arrive (.consumeCiba (sampleId 'A') "request" "binding" .deny), .go 1 .unit,
    .arrive (.consumeCiba (sampleId 'A') "request" "binding" .approve), .go 2 .unit]

/-- Whether a call has returned the text. -/
def returnsPayload (text : String) : Option (H ChallengeReply) → Bool
  | some (.ret (.payload text')) => text' == text
  | _ => false

theorem eq_of_returnsPayload {text : String} {p : Option (H ChallengeReply)}
    (h : returnsPayload text p = true) : p = some (.ret (.payload text)) := by
  unfold returnsPayload at h
  split at h
  · rw [beq_iff_eq.mp h]
  · simp at h

/-- Whether an entry is the arrival of the consumption by call 1. -/
def consumptionArrives (e : Entry Op Op.Res ChallengeRequest Store) : Bool :=
  match e.event with
  | .arrive 1 (.consumeCiba challengeId authReqId bindingId .deny) =>
    challengeId == sampleId 'A' && authReqId == "request" && bindingId == "binding"
  | _ => false

theorem eq_of_consumptionArrives {e : Entry Op Op.Res ChallengeRequest Store}
    (h : consumptionArrives e = true) :
    e.event = .arrive 1 (.consumeCiba (sampleId 'A') "request" "binding" .deny) := by
  unfold consumptionArrives at h
  split at h
  · rename_i he
    simp only [Bool.and_eq_true, beq_iff_eq] at h
    rw [he, h.1.1, h.1.2, h.2]
  · simp at h

/-- What call 1 returns was issued by call 0, and whoever else returns for that id is call 1. -/
theorem single_use_and_separation_sampleDenial :
    ∃ tr c q r, (challengeService sampleDeployment).Reach tr c ∧ Consumed tr c 1 q (sampleId 'A') r ∧
      (∃ t n, Issued tr t (.issueCiba "request" "binding") (sampleId 'A') n ∧ q.Answers n r) ∧
      ∀ u q' r', Consumed tr c u q' (sampleId 'A') r' → u = 1 := by
  obtain ⟨tr, c, hr, hrun⟩ := (challengeService sampleDeployment).exists_of_play sampleDenial.reverse
    (p := fun run => run.1.any consumptionArrives && returnsPayload
      ("sdid-bridge:v1:ciba-deny:request:" ++ sampleId 'A' ++ ":" ++ sampleSecret 'B') run.2.calls[1]?)
    (by decide +kernel)
  simp only [Bool.and_eq_true, List.any_eq_true] at hrun
  obtain ⟨⟨e, he, harrives⟩, hret⟩ := hrun
  have hconsumed : Consumed tr c 1 (.consumeCiba (sampleId 'A') "request" "binding" .deny) (sampleId 'A') _ :=
    ⟨⟨e, he, eq_of_consumptionArrives harrives⟩, rfl, eq_of_returnsPayload hret⟩
  have hsingle := single_use_and_separation hr
  obtain ⟨t, q₀, n, hq₀, hissued, hanswers⟩ := hsingle.payload _ _ _ _ hconsumed
  obtain rfl := Option.some.inj hq₀
  exact ⟨tr, c, _, _, hr, hconsumed, ⟨t, n, hissued, hanswers⟩,
    fun u q' r' h => hsingle.once _ _ _ _ _ _ _ h hconsumed⟩

end SdidBridge
