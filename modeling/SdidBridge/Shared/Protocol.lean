import Mathlib.Tactic.Common

/-!
# The shared vocabulary

The assurance levels, the error codes, and the challenge payloads of `packages/shared`.
-/

namespace SdidBridge

/-- A time, in milliseconds. -/
abbrev Time := ℕ

/-- The assurance levels. -/
inductive AssuranceLevel where
  | AL1
  | AL2
  | AL3
  deriving DecidableEq

/-- The rank of an assurance level. -/
def alRank : AssuranceLevel → ℕ
  | .AL1 => 1
  | .AL2 => 2
  | .AL3 => 3

/-- Whether `actual` satisfies the required minimum `min`. -/
def alMeets (actual min : AssuranceLevel) : Bool := alRank actual ≥ alRank min

/-- The text of an assurance level. -/
def AssuranceLevel.text : AssuranceLevel → String
  | .AL1 => "AL1"
  | .AL2 => "AL2"
  | .AL3 => "AL3"

/-- The machine-readable error codes. -/
inductive ErrorCode where
  | invalid_request
  | enrolment_failed
  | attestation_rejected
  | attestation_unavailable
  | binding_not_found
  | binding_not_active
  | challenge_invalid
  | signature_invalid
  | assurance_insufficient
  | rate_limited
  | locked_out
  | unauthorized_client
  | access_denied
  | authorization_pending
  | expired_token
  | slow_down
  | invalid_grant
  | invalid_client
  | invalid_scope
  | unknown_user_id
  | sdid_unavailable
  | internal_error
  deriving DecidableEq

/-- The text of an error code. -/
def ErrorCode.text : ErrorCode → String
  | .invalid_request => "invalid_request"
  | .enrolment_failed => "enrolment_failed"
  | .attestation_rejected => "attestation_rejected"
  | .attestation_unavailable => "attestation_unavailable"
  | .binding_not_found => "binding_not_found"
  | .binding_not_active => "binding_not_active"
  | .challenge_invalid => "challenge_invalid"
  | .signature_invalid => "signature_invalid"
  | .assurance_insufficient => "assurance_insufficient"
  | .rate_limited => "rate_limited"
  | .locked_out => "locked_out"
  | .unauthorized_client => "unauthorized_client"
  | .access_denied => "access_denied"
  | .authorization_pending => "authorization_pending"
  | .expired_token => "expired_token"
  | .slow_down => "slow_down"
  | .invalid_grant => "invalid_grant"
  | .invalid_client => "invalid_client"
  | .invalid_scope => "invalid_scope"
  | .unknown_user_id => "unknown_user_id"
  | .sdid_unavailable => "sdid_unavailable"
  | .internal_error => "internal_error"

/-- The error that the bridge reports to a client. -/
structure BridgeError where
  /-- The code. -/
  code : ErrorCode
  /-- The message. -/
  message : String
  /-- The HTTP status. -/
  httpStatus : ℕ
  deriving DecidableEq

/-- What a challenge is for. -/
inductive ChallengePurpose where
  | activation
  | login
  | attestation
  | cibaApprove (authReqId : String)
  | cibaDeny (authReqId : String)
  deriving DecidableEq

/-- The text of a purpose. -/
def purposeString : ChallengePurpose → String
  | .activation => "activation"
  | .login => "login"
  | .attestation => "attestation"
  | .cibaApprove authReqId => "ciba-approve:" ++ authReqId
  | .cibaDeny authReqId => "ciba-deny:" ++ authReqId

/-- The version of the challenge protocol. -/
def CHALLENGE_PROTOCOL_VERSION : String := "v1"

/-- The text that a device signs. -/
def buildChallengePayload (purpose : ChallengePurpose) (challengeId nonce : String) : String :=
  "sdid-bridge:" ++ CHALLENGE_PROTOCOL_VERSION ++ ":" ++ purposeString purpose ++ ":" ++
    challengeId ++ ":" ++ nonce

/-- The text that a CIBA challenge is stored under, whatever the decision will be. -/
def cibaPurpose (authReqId : String) : String := "ciba:" ++ authReqId

/-- The stored purpose of a CIBA challenge names its request. -/
theorem cibaPurpose_injective : Function.Injective cibaPurpose := fun _ _ h =>
  (String.append_right_inj _).mp h

/-- The text of a purpose names it. -/
theorem purposeString_injective : Function.Injective purposeString := by
  intro p p' h
  have htake := congrArg (fun s : String => s.toList.take 6) h
  cases p <;> cases p' <;> first
    | rfl
    | exact congrArg _ ((String.append_right_inj _).mp h)
    | exact absurd htake (by simp [purposeString])

/-- No signing challenge of another kind is stored under the purpose of a CIBA challenge. -/
theorem purposeString_ne_cibaPurpose (p : ChallengePurpose) (authReqId : String) :
    purposeString p ≠ cibaPurpose authReqId := by
  intro h
  have := congrArg (fun s : String => s.toList.take 5) h
  cases p <;> simp [purposeString, cibaPurpose] at this

/-! ## Payloads -/

/-- The text has no colon. -/
def Colonless (s : String) : Prop := ':' ∉ s.toList

/-- A request that the purpose names has an id without a colon. -/
def ChallengePurpose.Colonless : ChallengePurpose → Prop
  | .cibaApprove authReqId => SdidBridge.Colonless authReqId
  | .cibaDeny authReqId => SdidBridge.Colonless authReqId
  | _ => True

/-- The first field of a purpose. -/
def ChallengePurpose.kind : ChallengePurpose → String
  | .activation => "activation"
  | .login => "login"
  | .attestation => "attestation"
  | .cibaApprove _ => "ciba-approve"
  | .cibaDeny _ => "ciba-deny"

/-- The characters of a payload after the first field of its purpose. -/
def ChallengePurpose.fields (challengeId nonce : String) : ChallengePurpose → List Char
  | .cibaApprove authReqId => authReqId.toList ++ ':' :: (challengeId.toList ++ ':' :: nonce.toList)
  | .cibaDeny authReqId => authReqId.toList ++ ':' :: (challengeId.toList ++ ':' :: nonce.toList)
  | _ => challengeId.toList ++ ':' :: nonce.toList

theorem kind_colonless : ∀ p : ChallengePurpose, Colonless p.kind
  | .activation => (by decide : ':' ∉ "activation".toList)
  | .login => (by decide : ':' ∉ "login".toList)
  | .attestation => (by decide : ':' ∉ "attestation".toList)
  | .cibaApprove _ => (by decide : ':' ∉ "ciba-approve".toList)
  | .cibaDeny _ => (by decide : ':' ∉ "ciba-deny".toList)

/-- What stands before the first colon is determined by the text, and so is what stands after it. -/
theorem cut_at_colon {a a' b b' : List Char} (ha : ':' ∉ a) (ha' : ':' ∉ a') (h : a ++ ':' :: b = a' ++ ':' :: b') :
    a = a' ∧ b = b' := by
  induction a generalizing a' with
  | nil =>
    cases a' with
    | nil => exact ⟨rfl, (List.cons.inj h).2⟩
    | cons c cs =>
      have hc : ':' = c := (List.cons.inj h).1
      exact absurd (hc ▸ List.mem_cons_self) ha'
  | cons d ds ih =>
    cases a' with
    | nil =>
      have hd : d = ':' := (List.cons.inj h).1
      exact absurd (hd ▸ List.mem_cons_self) ha
    | cons c cs =>
      obtain ⟨rfl, htail⟩ := List.cons.inj h
      obtain ⟨rfl, hrest⟩ := ih (List.not_mem_of_not_mem_cons ha) (List.not_mem_of_not_mem_cons ha') htail
      exact ⟨rfl, hrest⟩

theorem toList_buildChallengePayload (p : ChallengePurpose) (challengeId nonce : String) :
    (buildChallengePayload p challengeId nonce).toList =
      "sdid-bridge:v1:".toList ++ (p.kind.toList ++ ':' :: p.fields challengeId nonce) := by
  have hcolon : ":".toList = [':'] := rfl
  have hversion : "sdid-bridge:" ++ CHALLENGE_PROTOCOL_VERSION ++ ":" = "sdid-bridge:v1:" := by decide
  have happrove : "ciba-approve:".toList = "ciba-approve".toList ++ [':'] := by decide
  have hdeny : "ciba-deny:".toList = "ciba-deny".toList ++ [':'] := by decide
  unfold buildChallengePayload
  rw [hversion]
  cases p <;>
    simp only [purposeString, ChallengePurpose.kind, ChallengePurpose.fields, String.toList_append, happrove, hdeny,
      hcolon, List.append_assoc, List.cons_append, List.nil_append]

section Payloads

variable {p p' : ChallengePurpose} {c c' n n' : String}

/-- The fields of one kind determine the purpose, the challenge and the nonce. -/
theorem fields_injective (hp : p.Colonless) (hp' : p'.Colonless) (hc : Colonless c) (hc' : Colonless c')
    (hkind : p.kind = p'.kind) (h : p.fields c n = p'.fields c' n') : p = p' ∧ c = c' ∧ n = n' := by
  have hlast : ∀ {b b' : String}, c.toList ++ ':' :: b.toList = c'.toList ++ ':' :: b'.toList → c = c' ∧ b = b' := by
    intro b b' hcut
    obtain ⟨hfirst, hrest⟩ := cut_at_colon hc hc' hcut
    exact ⟨String.toList_injective hfirst, String.toList_injective hrest⟩
  cases p with
  | activation =>
    cases p' with
    | activation => exact ⟨rfl, hlast h⟩
    | _ => exact absurd hkind (by simp [ChallengePurpose.kind])
  | login =>
    cases p' with
    | login => exact ⟨rfl, hlast h⟩
    | _ => exact absurd hkind (by simp [ChallengePurpose.kind])
  | attestation =>
    cases p' with
    | attestation => exact ⟨rfl, hlast h⟩
    | _ => exact absurd hkind (by simp [ChallengePurpose.kind])
  | cibaApprove a =>
    cases p' with
    | cibaApprove a' =>
      obtain ⟨hid, hrest⟩ := cut_at_colon hp hp' h
      obtain rfl := String.toList_injective hid
      exact ⟨rfl, hlast hrest⟩
    | _ => exact absurd hkind (by simp [ChallengePurpose.kind])
  | cibaDeny a =>
    cases p' with
    | cibaDeny a' =>
      obtain ⟨hid, hrest⟩ := cut_at_colon hp hp' h
      obtain rfl := String.toList_injective hid
      exact ⟨rfl, hlast hrest⟩
    | _ => exact absurd hkind (by simp [ChallengePurpose.kind])

/-- A payload determines its purpose, its challenge and its nonce. -/
theorem buildChallengePayload_inj (hp : p.Colonless) (hp' : p'.Colonless) (hc : Colonless c) (hc' : Colonless c')
    (h : buildChallengePayload p c n = buildChallengePayload p' c' n') : p = p' ∧ c = c' ∧ n = n' := by
  have hlist := congrArg String.toList h
  rw [toList_buildChallengePayload, toList_buildChallengePayload] at hlist
  obtain ⟨hkind, hfields⟩ :=
    cut_at_colon (kind_colonless p) (kind_colonless p') (List.append_cancel_left hlist)
  exact fields_injective hp hp' hc hc' (String.toList_injective hkind) hfields

end Payloads

/-- Payloads of challenges and requests without colons in their ids are equal only for one purpose, one challenge and
one nonce; an approval is never a payload of another kind. -/
theorem payloads_separated (p p' : ChallengePurpose) (c c' n n' : String) (hp : p.Colonless) (hp' : p'.Colonless)
    (hc : Colonless c) (hc' : Colonless c') :
    (buildChallengePayload p c n = buildChallengePayload p' c' n' → p = p' ∧ c = c' ∧ n = n') ∧
    ((∃ authReqId, p = .cibaApprove authReqId) → (∀ authReqId, p' ≠ .cibaApprove authReqId) →
      buildChallengePayload p c n ≠ buildChallengePayload p' c' n') := by
  refine ⟨buildChallengePayload_inj hp hp' hc hc', ?_⟩
  rintro ⟨authReqId, rfl⟩ hother heq
  exact hother authReqId (buildChallengePayload_inj hp hp' hc hc' heq).1.symm

/-- A login whose nonce has the fields of an approval. -/
theorem payloads_separated_login : buildChallengePayload (.cibaApprove "A") "B" "C" ≠
    buildChallengePayload .login "A" "B:C" :=
  (payloads_separated (.cibaApprove "A") .login "B" "A" "C" "B:C" (by simp [ChallengePurpose.Colonless, Colonless])
    trivial (by simp [Colonless]) (by simp [Colonless])).2 ⟨"A", rfl⟩ (by simp)

end SdidBridge
