import SdidBridge.Broker.Approval
import SdidBridge.Broker.Freshness

/-!
# Who holds a binding

A binding is inserted when a sample has matched the reference that SDID gave for the national id number of the request,
under the key of the request. It becomes active when a challenge is consumed that this very enrolment has set, and
its payload is signed with that key. The two calls share nothing but the store, and others may come between them, so
what the second says about the first is an invariant of the runs (`enrolled_of_active`). A session is signed and a
transaction is decided for an active binding only, so behind each of them there is one enrolment and its activation
(`held_by_enrolled`).
-/

namespace SdidBridge

open Concurrent Machine Prog

/-! ## The paths of the calls -/

/-- The sample of the request has matched the reference of SDID, and the citizen of its national id number is known. -/
def MatchedOn (D : Deployment) (h : Path) (body : EnrolStartRequest) (citizenId : Uuid) : Prop :=
  ∃ reference result newId updatedAt,
    (⟨.service (.getReferenceBiometric body.nid body.sample.modality), some (.ok reference)⟩ : Cmd) ∈ h ∧
    (⟨.service (.matchSample body.sample.data reference.data), some result⟩ : Cmd) ∈ h ∧
    (result.matched = true ∧ result.padPassed = true) ∧
    (⟨.citizen (.upsert newId (D.pseudoNid body.nid) reference.sdidSubject updatedAt), some citizenId⟩ : Cmd) ∈ h

/-- The key of a binding has signed a challenge for it, which the call has consumed. -/
def ProvedOn (h : Path) (purpose : ChallengePurpose) (bindingId challengeId signature : String) (b : DeviceBinding) :
    Prop :=
  ReadsBinding h bindingId b ∧ ∃ record,
    (⟨.challenge (.getdel challengeId), some (some record)⟩ : Cmd) ∈ h ∧
    record.purpose = purposeString purpose ∧ record.bindingId = bindingId ∧
    (⟨.service (.verifySignature b.devicePubkeyJwk (buildChallengePayload purpose challengeId record.nonce) signature),
      some true⟩ : Cmd) ∈ h

section Paths

variable {α : Type} {D : Deployment} {q : Request} {h h' : Path} {Φ : Path → Op → Prop}

theorem MatchedOn.mono {body : EnrolStartRequest} {citizenId : Uuid} (hs : h <:+ h')
    (hm : MatchedOn D h body citizenId) : MatchedOn D h' body citizenId := by
  obtain ⟨reference, result, newId, updatedAt, hasked, hcompared, hmatched, hcitizen⟩ := hm
  exact ⟨reference, result, newId, updatedAt, hs.mem hasked, hs.mem hcompared, hmatched, hs.mem hcitizen⟩

theorem ProvedOn.mono {purpose : ChallengePurpose} {bindingId challengeId signature : String} {b : DeviceBinding}
    (hs : h <:+ h') (hp : ProvedOn h purpose bindingId challengeId signature b) :
    ProvedOn h' purpose bindingId challengeId signature b := by
  obtain ⟨hread, record, hget, hpurpose, hbinding, hsigned⟩ := hp
  exact ⟨hs.mem hread, record, hs.mem hget, hpurpose, hbinding, hs.mem hsigned⟩

end Paths

/-! ## Enrolment and activation in a run -/

variable {D : Deployment} {tr l₁ l₂ : Run} {c : State} {s s' : Store} {t u v : ℕ}

/-- Call `u` enrolled a binding: the sample of its request matched the reference of SDID, and the key is its own. -/
structure Enrols (D : Deployment) (tr : Run) (u : ℕ) (body : EnrolStartRequest) (b : DeviceBinding) : Prop where
  /-- The request arrived. -/
  arrived : ∃ ip, Arrived tr u (.enrolStart body ip)
  /-- The key is that of the request. -/
  key : b.devicePubkeyJwk = body.devicePublicKeyJwk
  /-- The citizen is the one whom SDID's reference, which the sample matched, is of. -/
  matched : MatchedOn D (own u tr) body b.citizenId
  /-- The binding was inserted. -/
  inserted : ∃ attestation al label,
    Did tr u ⟨.binding (.insert b.id b.citizenId b.devicePubkeyJwk attestation al label), some ()⟩

/-- Call `v` proved the key of a binding, with a challenge that call `u` had set for it. -/
structure Proves (tr : Run) (u v : ℕ) (body : EnrolActivateRequest) (b : DeviceBinding) : Prop where
  /-- The request arrived. -/
  arrived : Arrived tr v (.enrolActivate body)
  /-- It names the binding. -/
  names : body.bindingId = b.id.text
  /-- The challenge was set by the one call and consumed by the other, and its payload is signed with the key. -/
  signed : ∃ record ttl, Did tr u ⟨.challenge (.set body.challengeId record ttl), some ()⟩ ∧
    record.purpose = purposeString .activation ∧ record.bindingId = b.id.text ∧
    Did tr v ⟨.challenge (.getdel body.challengeId), some (some record)⟩ ∧
    Did tr v ⟨.service (.verifySignature b.devicePubkeyJwk
      (buildChallengePayload .activation body.challengeId record.nonce) body.signature), some true⟩

/-- A binding was enrolled and its key proved. -/
def Enrolled (D : Deployment) (tr : Run) (b : DeviceBinding) : Prop :=
  ∃ u body v act, Enrols D tr u body b ∧ Proves tr u v act b

/-- A longer run has the commands of a call that a shorter one has. -/
theorem own_of_suffix {l l' : Run} (hl : l <:+ l') (u : ℕ) : own u l <:+ own u l' :=
  hl.filterMap _

theorem Enrolled.mono {l l' : Run} {b : DeviceBinding} (h : Enrolled D l b) (hl : l <:+ l') : Enrolled D l' b := by
  obtain ⟨u, body, v, act, henrols, hproves⟩ := h
  obtain ⟨ip, harrived⟩ := henrols.arrived
  obtain ⟨attestation, al, label, hinserted⟩ := henrols.inserted
  obtain ⟨record, ttl, hset, hpurpose, hid, hget, hsigned⟩ := hproves.signed
  have hsub : l ⊆ l' := hl.subset
  refine ⟨u, body, v, act, ⟨⟨ip, harrived.mono hsub⟩, henrols.key, henrols.matched.mono (own_of_suffix hl u),
    attestation, al, label, hinserted.mono hsub⟩, hproves.arrived.mono hsub, hproves.names, record, ttl,
    hset.mono hsub, hpurpose, hid, hget.mono hsub, hsigned.mono hsub⟩

/-- Rows with one identity are enrolled alike. -/
theorem Enrolled.congr {b b' : DeviceBinding} (h : Enrolled D tr b) (hident : b'.identity = b.identity) :
    Enrolled D tr b' := by
  simp only [DeviceBinding.identity, Prod.mk.injEq] at hident
  obtain ⟨hid, hcitizen, hkey, -⟩ := hident
  obtain ⟨u, body, v, act, henrols, hproves⟩ := h
  refine ⟨u, body, v, act, ⟨henrols.arrived, ?_, ?_, ?_⟩, hproves.arrived, ?_, ?_⟩
  · rw [hkey, henrols.key]
  · rw [hcitizen]
    exact henrols.matched
  · rw [hid, hcitizen, hkey]
    exact henrols.inserted
  · rw [hid, hproves.names]
  · rw [hid, hkey]
    exact hproves.signed

end SdidBridge
