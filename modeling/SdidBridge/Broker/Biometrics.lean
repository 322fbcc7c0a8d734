import SdidBridge.Attestation.Texts
import SdidBridge.Broker.Machine
import SdidBridge.Concurrent.Cleanup

/-!
# The biometric window

The start of an enrolment again, with the buffers that the bytes of a sample and of a reference pass through. A buffer
is a cell of a heap, and a cell is only ever made for such bytes. The commands that touch no buffer may have any answer
or fail (`Behaviour`), and so may SDID and the reading of a buffer.

`EnrolmentService.start` and the match engine zero the copy of the sample and the reference on every path. The buffer
that the sample was decoded to stays behind (`heap_biometricWindow`): the heap is zero exactly when nothing was decoded
or what was decoded is zero (`zeroized_iff`).
-/

namespace SdidBridge.Biometrics

open Concurrent Prog Codec Attestation

/-! ## Buffers -/

/-- The formats of a reference. -/
inductive ReferenceFormat where
  | iso19794
  | jpeg2000
  | mock
  deriving DecidableEq

/-- `BiometricReference`, whose bytes are in the buffer `data`. -/
structure BiometricReference where
  /-- The buffer. -/
  data : ℕ
  /-- The format. -/
  format : ReferenceFormat

/-- `ReferenceBiometricResult`. -/
structure ReferenceBiometricResult where
  /-- The reference. -/
  reference : BiometricReference
  /-- The subject by which SDID knows the citizen. -/
  sdidSubject : String
  /-- The reference of the request at SDID. -/
  txnRef : String

/-- The commands. -/
inductive BufferOp where
  /-- A command that touches no buffer. -/
  | outside (o : Op)
  /-- `Buffer.from(data, 'base64')`. -/
  | bufferFrom (data : String)
  /-- `new Uint8Array(source)`, which copies the bytes. -/
  | uint8Array (source : ℕ)
  /-- `sdid.getReferenceBiometric`. -/
  | getReferenceBiometric (nid : String) (modality : Modality)
  /-- Read the bytes of a buffer. -/
  | read (buffer : ℕ)
  /-- `buffer.fill(0)`. -/
  | fill (buffer : ℕ)

/-- Their answers. -/
@[reducible] def BufferOp.Res : BufferOp → Type
  | .outside o => o.Res
  | .bufferFrom _ => ℕ
  | .uint8Array _ => ℕ
  | .getReferenceBiometric _ _ => SdidAnswer ReferenceBiometricResult
  | .read _ => Bytes
  | .fill _ => Unit

/-- What SDID sends: the bytes of a reference, and its texts. -/
structure SentReference where
  /-- The bytes. -/
  bytes : Bytes
  /-- The format. -/
  format : ReferenceFormat
  /-- The subject by which SDID knows the citizen. -/
  sdidSubject : String
  /-- The reference of the request at SDID. -/
  txnRef : String

/-- What the surroundings do at a command. -/
structure Behaviour where
  /-- The answer to a command that touches no buffer; it fails with `none`. -/
  outside : (o : Op) → Option o.Res
  /-- The answer of SDID; it fails with `none`. -/
  sdid : Option (SdidAnswer SentReference)
  /-- Whether a buffer can be read. -/
  readable : Bool

/-- `Buffer.from(data, 'base64')`: decoding ends at the first `=`, the characters of URLs are read too, and other
characters are ignored. -/
def bufferFromBase64 (data : String) : Bytes :=
  base64.decode (((data.toList.takeWhile (· ≠ '=')).map fun c =>
    if c = '-' then '+' else if c = '_' then '/' else c).filter (base64.symbols.contains ·))

/-- `bytes.fill(0)`. -/
def zeros (bytes : Bytes) : Bytes := bytes.map fun _ => 0

/-- Execute a command on the heap of buffers. A new buffer comes after the others. -/
def exec (i : Behaviour) (heap : List Bytes) : (o : BufferOp) → Option (Option o.Res × List Bytes)
  | .outside o => some (i.outside o, heap)
  | .bufferFrom data => some (some heap.length, heap ++ [bufferFromBase64 data])
  | .uint8Array source => some (some heap.length, heap ++ [heap.getD source []])
  | .getReferenceBiometric _ _ =>
    match i.sdid with
    | some (.ok r) =>
      some (some (.ok ⟨⟨heap.length, r.format⟩, r.sdidSubject, r.txnRef⟩), heap ++ [r.bytes])
    | some .unknownIdentity => some (some .unknownIdentity, heap)
    | some .unavailable => some (some .unavailable, heap)
    | none => some (none, heap)
  | .read buffer => some (if i.readable then heap[buffer]? else none, heap)
  | .fill buffer => some (some (), heap.modify buffer zeros)

/-! ## The programs -/

/-- A program over buffers. -/
abbrev B := Prog BufferOp BufferOp.Res Failure

/-- Await a command. -/
def awaitBuffer (o : BufferOp) : B o.Res := perform .internal o

/-- A program that touches no buffer. -/
def outside {α : Type} (p : H α) : B α := p.embed .outside

/-- `zeroize`. -/
def zeroize : List (Option ℕ) → B Unit
  | [] => pure ()
  | some buffer :: buffers => do
    awaitBuffer (.fill buffer)
    zeroize buffers
  | none :: buffers => zeroize buffers

/-- The liveness signal of a capture. -/
structure Liveness where
  /-- How it was taken. -/
  method : String
  /-- Its score, from 0 to 1. -/
  score : ℚ

/-- `BiometricSample`, whose bytes are in the buffer `data`. -/
structure BiometricSample where
  /-- The buffer. -/
  data : ℕ
  /-- The liveness signal. -/
  liveness : Liveness

/-- `PAD_THRESHOLD`. -/
def PAD_THRESHOLD : ℚ := 4 / 5

/-- The band of two templates that can be compared, by the fraction of equal bytes. -/
def templateBand (a b : Bytes) : MatchScoreBand :=
  if a.length ≠ b.length ∨ a.length = 0 then .noMatch
  else
    let equal := (a.zip b).countP fun (x, y) => x ^^^ y == 0
    if equal = a.length then .high
    else if 9 * a.length ≤ 10 * equal then .medium
    else if 3 * a.length ≤ 4 * equal then .low
    else .noMatch

/-- `compareMockTemplates`. -/
def compareMockTemplates (sample : BiometricSample) (reference : BiometricReference) : B MatchScoreBand :=
  if reference.format ≠ .mock then pure .noMatch
  else do
    let a ← awaitBuffer (.read sample.data)
    let b ← awaitBuffer (.read reference.data)
    return templateBand a b

/-- What `MockMatchEngine.match` does inside its `try`. -/
def compared (sample : BiometricSample) (reference : BiometricReference) : B MatchResult :=
  if sample.liveness.method ≠ "" ∧ PAD_THRESHOLD ≤ sample.liveness.score then do
    let scoreBand ← compareMockTemplates sample reference
    return ⟨decide (scoreBand = .high ∨ scoreBand = .medium), scoreBand, true⟩
  else pure ⟨false, .noMatch, false⟩

/-- `MockMatchEngine.match`. -/
def matchSample (sample : BiometricSample) (reference : BiometricReference) : B MatchResult :=
  ensuring (zeroize [some sample.data, some reference.data])
    ((compared sample reference).recover fun _ => throwing .internal)

/-- Ask SDID for the reference. -/
def receiveReference (req : EnrolStartRequest) (pseudoNid : String) : B ReferenceBiometricResult := do
  let answer ← awaitBuffer (.getReferenceBiometric req.nid req.sample.modality)
  match answer with
  | .unknownIdentity => outside (failEnrolment pseudoNid .sdidIdentityNotMatchable none)
  | .unavailable => outside (refuse .sdid_unavailable "Identity authority unavailable" 503)
  | .ok result => pure result

/-- The biometric window. -/
def biometricWindow (req : EnrolStartRequest) (liveness : Liveness) (pseudoNid : String) :
    B (ReferenceBiometricResult × MatchResult) := do
  let decoded ← awaitBuffer (.bufferFrom req.sample.data)
  let sampleBytes ← awaitBuffer (.uint8Array decoded)
  -- The `finally` knows the reference only if it was received.
  let received ← (receiveReference req pseudoNid).caught
  ensuring (zeroize [some sampleBytes, received.toOption.map (·.reference.data)]) do
    let result ← settle received
    let matchResult ← matchSample ⟨sampleBytes, liveness⟩ result.reference
    return (result, matchResult)

/-- What follows the biometric window, up to the binding. -/
def concludeMatch (pseudoNid sdidSubject txnRef : String) (result : MatchResult) : H MatchOutcome := do
  auditAppend {
    actor := someCitizenActor
    action := .enrolmentMatchCompleted
    subjectRef := some pseudoNid
    matchResult := some (.obj [("matched", .bool result.matched),
      ("scoreBand", .str result.scoreBand.text), ("padPassed", .bool result.padPassed)])
    sdidTxnRef := some txnRef
    result := if result.matched ∧ result.padPassed then .success else .failure }
  if result.matched = false ∨ result.padPassed = false then
    failEnrolment pseudoNid (if result.padPassed then .matchFailed else .padFailed) (some txnRef)
  else return ⟨sdidSubject, txnRef⟩

section Start

variable (D : Deployment)

/-- The start of an enrolment up to its attestation gate. -/
def attestationGate (req : EnrolStartRequest) (ip : String) : H AttestationVerdict := do
  throwIf (req.valid = false) invalidBody
  let pseudoNid := D.pseudoNid req.nid
  recordEnrolmentAttempt D ip pseudoNid
  hit ("enrol:nid:" ++ pseudoNid) 5 3600
  hit ("enrol:ip:" ++ ip) 20 3600
  assertNotLockedOut ("enrol:nid:" ++ pseudoNid) ENROL_MAX_FAILURES
  (verifyAttestation D req.attestation req.devicePublicKeyJwk).recover fun err => do
    auditAppend (attestationFailedEvent pseudoNid req.attestation.platform err)
    countRejection D ip err
    throwing err

/-- The start of an enrolment after its attestation gate. -/
def afterGate (req : EnrolStartRequest) (liveness : Liveness) (verdict : AttestationVerdict) :
    B EnrolStartResponse := do
  throwIf (req.sample.modality = .fingerprint)
    (.bridge ⟨.invalid_request, "Fingerprint enrolment is not supported; use face", 400⟩)
  let pseudoNid := D.pseudoNid req.nid
  let (received, matchResult) ← biometricWindow req liveness pseudoNid
  let outcome ← outside (concludeMatch pseudoNid received.sdidSubject received.txnRef matchResult)
  outside (bindDevice D req pseudoNid verdict outcome)

/-- `EnrolmentService.start`. -/
def start (req : EnrolStartRequest) (liveness : Liveness) (ip : String) : B EnrolStartResponse := do
  let verdict ← outside (attestationGate D req ip)
  afterGate D req liveness verdict

/-- The match engine seen from the broker is this one, and what follows it is the same. -/
theorem matchAgainstReference_eq (req : EnrolStartRequest) (pseudoNid : String) :
    matchAgainstReference req pseudoNid = (do
      let answer ← await (.service (.getReferenceBiometric req.nid req.sample.modality))
      match answer with
      | .unknownIdentity => failEnrolment pseudoNid .sdidIdentityNotMatchable none
      | .unavailable => refuse .sdid_unavailable "Identity authority unavailable" 503
      | .ok reference => do
        let result ← await (.service (.matchSample req.sample.data reference.data))
        concludeMatch pseudoNid reference.sdidSubject reference.txnRef result) := rfl

/-- The broker's enrolment has the same gate. -/
theorem start_eq (req : EnrolStartRequest) (ip : String) :
    SdidBridge.start D req ip = (do
      let verdict ← attestationGate D req ip
      throwIf (req.sample.modality = .fingerprint)
        (.bridge ⟨.invalid_request, "Fingerprint enrolment is not supported; use face", 400⟩)
      let outcome ← matchAgainstReference req (D.pseudoNid req.nid)
      bindDevice D req (D.pseudoNid req.nid) verdict outcome) := by
  unfold SdidBridge.start attestationGate enrolmentGates
  simp only [bind_bind]
  rfl

end Start

/-! ## What the programs do to the heap -/

/-- Whether buffers hold zeros only. -/
def AllZero (heap : List Bytes) : Prop := ∀ buffer ∈ heap, ∀ b ∈ buffer, b = 0

/-- The heap after some buffers were zeroed. -/
def zeroed (heap : List Bytes) : List (Option ℕ) → List Bytes
  | [] => heap
  | some buffer :: buffers => zeroed (heap.modify buffer zeros) buffers
  | none :: buffers => zeroed heap buffers

theorem zeros_zero {bytes : Bytes} : ∀ b ∈ zeros bytes, b = 0 := by
  intro b hb
  obtain ⟨-, -, rfl⟩ := List.mem_map.mp hb
  rfl

@[simp] theorem zeros_zeros (bytes : Bytes) : zeros (zeros bytes) = zeros bytes := by
  simp [zeros]

section Heap

variable {heap heap' : List Bytes} {h : List (Act BufferOp BufferOp.Res)} {α : Type}

/-- A program that touches no buffer. -/
theorem heap_outside {p : H α} {x : Except Failure α} (hp : Alone exec heap (outside p) h heap' x) :
    heap' = heap := by
  refine Alone.embed_store (fun hx => ?_) hp
  exact (congrArg Prod.snd (Option.some.inj hx)).symm

/-- What follows a command that is always answered. -/
theorem rest_of_always {o : BufferOp} {v : o.Res} {heap₁ : List Bytes} {f : o.Res → B α} {x : Except Failure α}
    (ho : ∀ i, exec i heap o = some (some v, heap₁)) (hp : Alone exec heap (awaitBuffer o >>= f) h heap' x) :
    ∃ h', Alone exec heap₁ (f v) h' heap' x := by
  rcases alone_bind.mp hp with ⟨e, -, hthrew⟩ | ⟨w, heap₂, h₁, h₂, -, hanswered, hrest⟩
  · obtain ⟨i, r, hx, -, hend⟩ := alone_perform.mp hthrew
    cases (ho i).symm.trans hx
    cases hend
  · obtain ⟨i, r, hx, -, hend⟩ := alone_perform.mp hanswered
    cases (ho i).symm.trans hx
    cases hend
    exact ⟨h₂, hrest⟩

/-- Reading a buffer. -/
theorem heap_read {buffer : ℕ} {x : Except Failure Bytes}
    (hp : Alone exec heap (awaitBuffer (.read buffer)) h heap' x) : heap' = heap := by
  obtain ⟨i, r, hx, -, -⟩ := alone_perform.mp hp
  exact (congrArg Prod.snd (Option.some.inj hx)).symm

/-- `zeroize` never throws. -/
theorem heap_zeroize {buffers : List (Option ℕ)} {x : Except Failure Unit}
    (hp : Alone exec heap (zeroize buffers) h heap' x) : x = .ok () ∧ heap' = zeroed heap buffers := by
  induction buffers generalizing heap h with
  | nil =>
    obtain ⟨-, rfl, rfl⟩ := alone_pure.mp hp
    exact ⟨rfl, rfl⟩
  | cons buffer buffers ih =>
    cases buffer with
    | none => exact ih hp
    | some buffer =>
      obtain ⟨h', hrest⟩ := rest_of_always (fun _ => rfl) hp
      exact ih hrest

/-- The engine only reads what it compares. -/
theorem heap_compared {sample : BiometricSample} {reference : BiometricReference} {x : Except Failure MatchResult}
    (hp : Alone exec heap (compared sample reference) h heap' x) : heap' = heap := by
  have hcompare : ∀ {h heap' y}, Alone exec heap (compareMockTemplates sample reference) h heap' y →
      heap' = heap := by
    intro h heap' y hp
    unfold compareMockTemplates at hp
    split_ifs at hp with hformat
    · exact (alone_pure.mp hp).2.1
    · rcases alone_bind.mp hp with ⟨e, -, hthrew⟩ | ⟨a, heap₁, h₁, h₂, -, hfirst, hrest⟩
      · exact heap_read hthrew
      · rcases alone_bind.mp hrest with ⟨e, -, hthrew⟩ | ⟨b, heap₂, h₃, h₄, -, hsecond, hend⟩
        · exact (heap_read hthrew).trans (heap_read hfirst)
        · exact (alone_pure.mp hend).2.1.trans ((heap_read hsecond).trans (heap_read hfirst))
  unfold compared at hp
  split_ifs at hp with hpad
  · rcases alone_bind.mp hp with ⟨e, -, hthrew⟩ | ⟨band, heap₁, h₁, h₂, -, hband, hend⟩
    · exact hcompare hthrew
    · exact (alone_pure.mp hend).2.1.trans (hcompare hband)
  · exact (alone_pure.mp hp).2.1

/-- The engine leaves both buffers zeroed, however it ends. -/
theorem heap_matchSample {sample : BiometricSample} {reference : BiometricReference} {x : Except Failure MatchResult}
    (hp : Alone exec heap (matchSample sample reference) h heap' x) :
    heap' = zeroed heap [some sample.data, some reference.data] := by
  obtain ⟨y, heap₁, h₁, h₂, -, hbody, hcleanup⟩ := alone_ensuring.mp hp
  have hread : heap₁ = heap := by
    rcases alone_recover.mp hbody with ⟨result, -, hcompared⟩ | ⟨e, heap₂, h₃, h₄, -, hcompared, hthrow⟩
    · exact heap_compared hcompared
    · exact (alone_throwing.mp hthrow).2.1.trans (heap_compared hcompared)
  rw [← hread]
  rcases hcleanup with ⟨e, -, hzeroize⟩ | ⟨-, hzeroize⟩
  · exact (heap_zeroize hzeroize).2
  · exact (heap_zeroize hzeroize).2

/-- An enrolment that fails ends in an exception. -/
theorem throws_failEnrolment {pseudoNid : String} {reason : EnrolmentFailureReason} {sdidTxnRef : Option String}
    {x : Except Failure α} (hx : CanEnd (failEnrolment pseudoNid reason sdidTxnRef) x) : ∃ e, x = .error e := by
  rcases canEnd_bind.mp hx with ⟨e, rfl, -⟩ | ⟨u, -, hrest⟩
  · exact ⟨e, rfl⟩
  · rcases canEnd_bind.mp hrest with ⟨e, rfl, -⟩ | ⟨v, -, hend⟩
    · exact ⟨e, rfl⟩
    · exact ⟨_, hend⟩

/-- A reference that is received is in a new buffer. -/
theorem heap_receiveReference {req : EnrolStartRequest} {pseudoNid : String}
    {x : Except Failure ReferenceBiometricResult}
    (hp : Alone exec heap (receiveReference req pseudoNid) h heap' x) :
    (∃ result bytes, x = .ok result ∧ result.reference.data = heap.length ∧ heap' = heap ++ [bytes]) ∨
      ((∃ e, x = .error e) ∧ heap' = heap) := by
  rcases alone_bind.mp hp with ⟨e, rfl, hthrew⟩ | ⟨answer, heap₁, h₁, h₂, -, hasked, hrest⟩
  · obtain ⟨i, r, hx, -, hend⟩ := alone_perform.mp hthrew
    refine .inr ⟨⟨e, rfl⟩, ?_⟩
    cases r with
    | some answer => cases hend
    | none =>
      simp only [exec] at hx
      split at hx
      · cases hx
      · cases hx
      · cases hx
      · cases hx
        rfl
  · obtain ⟨i, r, hx, -, hend⟩ := alone_perform.mp hasked
    cases r with
    | none => cases hend
    | some answer' =>
      cases hend
      simp only [exec] at hx
      split at hx
      · rename_i sent hsdid
        cases hx
        obtain ⟨-, rfl, rfl⟩ := alone_pure.mp hrest
        exact .inl ⟨_, sent.bytes, rfl, rfl, rfl⟩
      · cases hx
        exact .inr ⟨throws_failEnrolment hrest.canEnd, heap_outside hrest⟩
      · cases hx
        exact .inr ⟨⟨_, hrest.canEnd⟩, heap_outside hrest⟩
      · cases hx

/-- Inside the `try`, a reference that was received is zeroed with the sample. -/
theorem heap_settle_matchSample {received : Except Failure ReferenceBiometricResult} {sample : BiometricSample}
    {x : Except Failure (ReferenceBiometricResult × MatchResult)}
    (hp : Alone exec heap (do
      let result ← settle received
      let matchResult ← matchSample sample result.reference
      return (result, matchResult)) h heap' x) :
    heap' = received.toOption.elim heap fun result => zeroed heap [some sample.data, some result.reference.data] := by
  rcases alone_bind.mp hp with ⟨e, -, hthrew⟩ | ⟨result, heap₁, h₁, h₂, -, hsettled, hrest⟩
  · obtain ⟨-, rfl, hreceived⟩ := alone_settle.mp hthrew
    rw [← hreceived]
    rfl
  · obtain ⟨-, rfl, hreceived⟩ := alone_settle.mp hsettled
    rw [← hreceived]
    rcases alone_bind.mp hrest with ⟨e, -, hthrew⟩ | ⟨matchResult, heap₂, h₃, h₄, -, hmatched, hend⟩
    · exact heap_matchSample hthrew
    · rw [(alone_pure.mp hend).2.1]
      exact heap_matchSample hmatched

/-- The biometric window leaves the buffer that the sample was decoded to, and zeros. -/
theorem heap_biometricWindow {req : EnrolStartRequest} {liveness : Liveness} {pseudoNid : String}
    {x : Except Failure (ReferenceBiometricResult × MatchResult)}
    (hp : Alone exec [] (biometricWindow req liveness pseudoNid) h heap x) :
    ∃ others, heap = bufferFromBase64 req.sample.data :: others ∧ AllZero others := by
  obtain ⟨h₁, hcopy⟩ := rest_of_always (fun _ => rfl) hp
  obtain ⟨h₂, hreceive⟩ := rest_of_always (fun _ => rfl) hcopy
  generalize bufferFromBase64 req.sample.data = decoded at hreceive
  rcases alone_bind.mp hreceive with ⟨e, -, hthrew⟩ | ⟨received, heap₁, h₃, h₄, -, hcaught, hrest⟩
  · obtain ⟨y, hy, -⟩ := alone_caught.mp hthrew
    cases hy
  obtain ⟨y, hy, hreceived⟩ := alone_caught.mp hcaught
  cases hy
  obtain ⟨z, heap₂, h₅, h₆, -, hbody, hcleanup⟩ := alone_ensuring.mp hrest
  have hmatched := heap_settle_matchSample hbody
  have hzeroed : heap = zeroed heap₂ [some 1, received.toOption.map (·.reference.data)] := by
    rcases hcleanup with ⟨e, -, hzeroize⟩ | ⟨-, hzeroize⟩
    · exact (heap_zeroize hzeroize).2
    · exact (heap_zeroize hzeroize).2
  rcases heap_receiveReference hreceived with ⟨result, bytes, rfl, hdata, rfl⟩ | ⟨⟨e, rfl⟩, rfl⟩
  · -- The engine zeroed the copy and the reference, and the `finally` zeroes them again.
    have hdata' : result.reference.data = 2 := hdata
    have hheap : heap = [decoded, zeros (zeros decoded), zeros (zeros bytes)] := by
      rw [hzeroed, hmatched]
      simp only [hdata', Except.toOption, Option.map_some, Option.elim_some]
      rfl
    refine ⟨_, hheap, ?_⟩
    intro buffer hbuffer
    rcases List.mem_pair.mp hbuffer with rfl | rfl
    · exact zeros_zero
    · exact zeros_zero
  · -- There is no reference.
    have hheap : heap = [decoded, zeros decoded] := by
      rw [hzeroed, hmatched]
      rfl
    refine ⟨_, hheap, ?_⟩
    intro buffer hbuffer
    rw [List.mem_singleton.mp hbuffer]
    exact zeros_zero

end Heap

/-! ## The broker's enrolment -/

section Broker

variable {D : Deployment} {req : EnrolStartRequest} {liveness : Liveness} {ip pseudoNid : String}
  {heap heap' : List Bytes} {h : List (Act BufferOp BufferOp.Res)}

/-- What the engine throws says nothing. -/
theorem throws_matchSample {sample : BiometricSample} {reference : BiometricReference} {e : Failure}
    (hp : Alone exec heap (matchSample sample reference) h heap' (.error e)) : e = .internal := by
  obtain ⟨y, heap₁, h₁, h₂, -, hbody, hcleanup⟩ := alone_ensuring.mp hp
  rcases hcleanup with ⟨e', -, hzeroize⟩ | ⟨rfl, -⟩
  · cases (heap_zeroize hzeroize).1
  · rcases alone_recover.mp hbody with ⟨result, hy, -⟩ | ⟨e', heap₂, h₃, h₄, -, -, hthrow⟩
    · cases hy
    · exact Except.error.inj (alone_throwing.mp hthrow).2.2

/-- What a failed enrolment throws does not depend on what would be returned. -/
theorem canEnd_failEnrolment {α β : Type} {reason : EnrolmentFailureReason} {sdidTxnRef : Option String} {e : Failure}
    (hx : CanEnd (failEnrolment pseudoNid reason sdidTxnRef : H α) (.error e)) :
    CanEnd (failEnrolment pseudoNid reason sdidTxnRef : H β) (.error e) := by
  rcases canEnd_bind.mp hx with ⟨e', he, hthrew⟩ | ⟨u, haudited, hrest⟩
  · cases he
    exact hthrew.thrown _
  · rcases canEnd_bind.mp hrest with ⟨e', he, hthrew⟩ | ⟨v, hrecorded, hend⟩
    · cases he
      exact haudited.bind (hthrew.thrown _)
    · cases hend
      exact haudited.bind (hrecorded.bind rfl)

/-- Where no reference is received, the broker's match throws the same. -/
theorem broker_of_receiveReference {e : Failure}
    (hp : Alone exec heap (receiveReference req pseudoNid) h heap' (.error e)) :
    CanEnd (matchAgainstReference req pseudoNid) (.error e) := by
  rw [matchAgainstReference_eq]
  have hanswered : ∀ answer, CanEnd (await (.service (.getReferenceBiometric req.nid req.sample.modality)))
      (.ok answer) := canEnd_answered _ _
  rcases alone_bind.mp hp with ⟨e', he, hthrew⟩ | ⟨answer, heap₁, h₁, h₂, -, -, hrest⟩
  · cases he
    obtain ⟨i, r, -, -, hend⟩ := alone_perform.mp hthrew
    cases r with
    | some answer => cases hend
    | none =>
      cases hend
      exact (canEnd_failed _ _).thrown _
  · cases answer with
    | ok result => cases (alone_pure.mp hrest).2.2
    | unknownIdentity => exact (hanswered .unknownIdentity).bind (canEnd_failEnrolment hrest.canEnd)
    | unavailable =>
      cases hrest.canEnd
      exact (hanswered .unavailable).bind rfl

/-- The broker's match goes on with the result of the window. -/
theorem broker_of_biometricWindow {x : Except Failure (ReferenceBiometricResult × MatchResult)}
    (hp : Alone exec heap (biometricWindow req liveness pseudoNid) h heap' x) :
    (∃ e, x = .error e ∧ CanEnd (matchAgainstReference req pseudoNid) (.error e)) ∨
      ∃ received result, x = .ok (received, result) ∧ ∀ y,
        CanEnd (concludeMatch pseudoNid received.sdidSubject received.txnRef result) y →
          CanEnd (matchAgainstReference req pseudoNid) y := by
  obtain ⟨h₁, hcopy⟩ := rest_of_always (fun _ => rfl) hp
  obtain ⟨h₂, hreceive⟩ := rest_of_always (fun _ => rfl) hcopy
  rcases alone_bind.mp hreceive with ⟨e, -, hthrew⟩ | ⟨received, heap₁, h₃, h₄, -, hcaught, hrest⟩
  · obtain ⟨y, hy, -⟩ := alone_caught.mp hthrew
    cases hy
  obtain ⟨y, hy, hreceived⟩ := alone_caught.mp hcaught
  cases hy
  obtain ⟨z, heap₂, h₅, h₆, -, hbody, hcleanup⟩ := alone_ensuring.mp hrest
  rcases hcleanup with ⟨e, -, hzeroize⟩ | ⟨rfl, -⟩
  · cases (heap_zeroize hzeroize).1
  rcases alone_bind.mp hbody with ⟨e, rfl, hthrew⟩ | ⟨result, heap₃, h₇, h₈, -, hsettled, hmatch⟩
  · obtain ⟨-, -, rfl⟩ := alone_settle.mp hthrew
    exact .inl ⟨e, rfl, broker_of_receiveReference hreceived⟩
  rw [matchAgainstReference_eq]
  -- The broker receives the same reference, with any bytes.
  have hasked : CanEnd (await (.service (.getReferenceBiometric req.nid req.sample.modality)))
      (.ok (.ok ⟨"", result.sdidSubject, result.txnRef⟩)) := canEnd_answered _ _ _
  rcases alone_bind.mp hmatch with ⟨e, rfl, hthrew⟩ | ⟨matchResult, heap₄, h₉, h₁₀, -, -, hend⟩
  · obtain rfl := throws_matchSample hthrew
    exact .inl ⟨_, rfl, hasked.bind ((canEnd_failed _ _).thrown _)⟩
  · obtain ⟨-, -, rfl⟩ := alone_pure.mp hend
    exact .inr ⟨result, matchResult, rfl, fun y hy => hasked.bind ((canEnd_answered _ _ matchResult).bind hy)⟩

/-- As an enrolment with buffers ends, the broker's enrolment can end. -/
theorem broker_of_start {x : Except Failure EnrolStartResponse}
    (hr : Alone exec heap (start D req liveness ip) h heap' x) : CanEnd (SdidBridge.start D req ip) x := by
  rw [start_eq]
  rcases alone_bind.mp hr with ⟨e, rfl, hthrew⟩ | ⟨verdict, heap₁, h₁, h₂, -, hpassed, hrest⟩
  · exact hthrew.canEnd.thrown _
  refine hpassed.canEnd.bind ?_
  rcases alone_throwIf_bind.mp hrest with ⟨hfingerprint, -, -, rfl⟩ | ⟨hface, hwindow⟩
  · rw [throwIf_bind hfingerprint]
    exact rfl
  rw [throwIf, if_neg hface]
  change CanEnd (matchAgainstReference req (D.pseudoNid req.nid) >>= _) x
  rcases alone_bind.mp hwindow with ⟨e, rfl, hthrew⟩ | ⟨⟨received, matchResult⟩, heap₂, h₅, h₆, -, hmatched, hrest⟩
  · rcases broker_of_biometricWindow hthrew with ⟨e', heq, hend⟩ | ⟨received, result, heq, -⟩
    · cases heq
      exact hend.thrown _
    · cases heq
  rcases broker_of_biometricWindow hmatched with ⟨e', heq, -⟩ | ⟨received', result, heq, hmatches⟩
  · cases heq
  cases heq
  rcases alone_bind.mp hrest with ⟨e, rfl, hthrew⟩ | ⟨outcome, heap₃, h₇, h₈, -, hconcluded, hbound⟩
  · exact (hmatches _ hthrew.canEnd).thrown _
  · exact (hmatches _ hconcluded.canEnd).bind hbound.canEnd

end Broker

/-! ## The whole enrolment -/

section Zeroized

variable {D : Deployment} {req : EnrolStartRequest} {liveness : Liveness} {ip : String}
  {h : List (Act BufferOp BufferOp.Res)} {heap : List Bytes} {x : Except Failure EnrolStartResponse}

/-- The commands `h` passed the attestation gate: the first of them led to a verdict. -/
def PassedGate (D : Deployment) (req : EnrolStartRequest) (ip : String) (h : List (Act BufferOp BufferOp.Res)) :
    Prop :=
  ∃ h₁ h₂ verdict, h = h₂ ++ h₁ ∧ Alone exec [] (outside (attestationGate D req ip)) h₁ [] (.ok verdict)

/-- After the gate, nothing was decoded, or the heap is what the biometric window left. -/
theorem heap_start (hr : Alone exec [] (start D req liveness ip) h heap x) (hgate : PassedGate D req ip h) :
    (req.sample.modality = .fingerprint ∧ heap = []) ∨
      (req.sample.modality ≠ .fingerprint ∧
        ∃ others, heap = bufferFromBase64 req.sample.data :: others ∧ AllZero others) := by
  obtain ⟨h₁, h₂, verdict, rfl, hverdict⟩ := hgate
  rcases alone_bind.mp hr with ⟨e, -, hthrew⟩ | ⟨verdict', heap₁, h₃, h₄, -, hpassed, hrest⟩
  · cases (hverdict.agree hthrew).2
  obtain rfl := heap_outside hpassed
  rcases alone_throwIf_bind.mp hrest with ⟨hfingerprint, -, rfl, -⟩ | ⟨hface, hwindow⟩
  · exact .inl ⟨hfingerprint, rfl⟩
  refine .inr ⟨hface, ?_⟩
  -- What follows the window touches no buffer.
  rcases alone_bind.mp hwindow with ⟨e, -, hthrew⟩ | ⟨⟨received, matchResult⟩, heap₂, h₅, h₆, -, hmatched, hrest⟩
  · exact heap_biometricWindow hthrew
  obtain ⟨others, hheap, hzero⟩ := heap_biometricWindow hmatched
  rcases alone_bind.mp hrest with ⟨e, -, hthrew⟩ | ⟨outcome, heap₃, h₇, h₈, -, hconcluded, hbound⟩
  · exact ⟨others, (heap_outside hthrew).trans hheap, hzero⟩
  · exact ⟨others, (heap_outside hbound).trans ((heap_outside hconcluded).trans hheap), hzero⟩

/-- **When the biometric bytes are zeroized.** However an enrolment ends that passed its attestation gate, and whatever
its surroundings do, all buffers hold zeros exactly when the sample was not decoded, for it is a fingerprint, or was
decoded to zeros. -/
theorem zeroized_iff (hr : Alone exec [] (start D req liveness ip) h heap x) (hgate : PassedGate D req ip h) :
    AllZero heap ↔ req.sample.modality = .fingerprint ∨ ∀ b ∈ bufferFromBase64 req.sample.data, b = 0 := by
  rcases heap_start hr hgate with ⟨hfingerprint, rfl⟩ | ⟨hface, others, rfl, hzero⟩
  · constructor
    · intro _
      exact .inl hfingerprint
    · intro _ buffer hbuffer
      exact absurd hbuffer List.not_mem_nil
  · constructor
    · intro hall
      exact .inr (hall _ List.mem_cons_self)
    · rintro (hfingerprint | hdecoded) buffer hbuffer
      · exact absurd hfingerprint hface
      · rcases List.mem_cons.mp hbuffer with rfl | hother
        · exact hdecoded
        · exact hzero buffer hother

/-- A run that made a buffer passed the gate. -/
theorem passedGate_of_ne (hr : Alone exec [] (start D req liveness ip) h heap x) (hne : heap ≠ []) :
    PassedGate D req ip h := by
  rcases alone_bind.mp hr with ⟨e, -, hthrew⟩ | ⟨verdict, heap₁, h₁, h₂, rfl, hpassed, -⟩
  · exact absurd (heap_outside hthrew) hne
  · obtain rfl := heap_outside hpassed
    exact ⟨h₁, h₂, verdict, rfl, hpassed⟩

/-- A request with a sample. -/
def sampleRequest (sample : SampleDto) : EnrolStartRequest where
  nid := "1199080012345678"
  devicePublicKeyJwk := ⟨"EC", "P-256", "x", "y"⟩
  attestation := { platform := .sim, token := "mock" }
  deviceLabel := "phone"
  sample

/-- Nothing was counted before, and SDID is not available. -/
def sampleBehaviour : Behaviour where
  outside
    | .counter (.incr _) => some 1
    | .counter (.expire _ _) => some ()
    | .counter (.get _) => some none
    | _ => none
  sdid := some .unavailable
  readable := true

/-- A sample of one byte stays in the buffer that it was decoded to. -/
theorem start_sampleRequest : ∃ h x,
    Alone exec [] (start sampleDeployment (sampleRequest ⟨.face, "AQ=="⟩) ⟨"active-blink", 1⟩ "10.0.0.1") h [[1], [0]]
      x := by
  have hrun : (runAlone exec (start sampleDeployment (sampleRequest ⟨.face, "AQ=="⟩) ⟨"active-blink", 1⟩ "10.0.0.1")
      (List.replicate 9 sampleBehaviour) []).any (fun r => decide (r.2.1 = [[1], [0]])) = true := by decide
  obtain ⟨⟨h, heap, x⟩, hrun, hheap⟩ := (Option.any_eq_true _ _).mp hrun
  obtain rfl : heap = [[1], [0]] := of_decide_eq_true hheap
  exact ⟨h, x, alone_of_runAlone hrun⟩

/-- Not every enrolment leaves zeros only. -/
theorem not_zeroized : ¬ ∀ (D : Deployment) (req : EnrolStartRequest) (liveness : Liveness) (ip : String)
    (h : List (Act BufferOp BufferOp.Res)) (heap : List Bytes) (x : Except Failure EnrolStartResponse),
      Alone exec [] (start D req liveness ip) h heap x → PassedGate D req ip h → AllZero heap := by
  intro hall
  obtain ⟨h, x, hr⟩ := start_sampleRequest
  have hzero := hall _ _ _ _ _ _ _ hr (passedGate_of_ne hr (List.cons_ne_nil _ _))
  exact absurd (hzero [1] List.mem_cons_self 1 List.mem_cons_self) (by decide)

/-- The sample of one byte is a run of the theorem. -/
theorem zeroized_iff_sampleRequest : ∃ h x,
    Alone exec [] (start sampleDeployment (sampleRequest ⟨.face, "AQ=="⟩) ⟨"active-blink", 1⟩ "10.0.0.1") h [[1], [0]]
      x ∧ (AllZero [[1], [0]] ↔ Modality.face = .fingerprint ∨ ∀ b ∈ bufferFromBase64 "AQ==", b = 0) := by
  obtain ⟨h, x, hr⟩ := start_sampleRequest
  exact ⟨h, x, hr, zeroized_iff hr (passedGate_of_ne hr (List.cons_ne_nil _ _))⟩

end Zeroized

end SdidBridge.Biometrics
