import SdidBridge.Audit.Canonical
import SdidBridge.Shared.IsoDate
import SdidBridge.Shared.Protocol
import SdidBridge.Shared.Uuid

/-!
# The audit service

`append` and `verifyChain` of `audit.service.ts` over the table `audit_events`. The hash of a row is
computed from the event in memory, and checked again from what the columns give back, so that the
model keeps the two apart: a uuid column stores a uuid and gives back its canonical text, and a
`jsonb` column stores the value of a JSON text and gives it back with its keys in some order. The
digest and the order of the keys are parameters of the service.

A table is the list of its rows in the order of their sequence numbers.
-/

namespace SdidBridge

/-- The actions that are audited. -/
inductive AuditAction where
  | enrolmentStarted
  | enrolmentMatchCompleted
  | enrolmentBindingCreated
  | enrolmentBindingActivated
  | enrolmentFailed
  | authChallengeIssued
  | authLoginSucceeded
  | authLoginFailed
  | cibaRequestCreated
  | cibaRequestApproved
  | cibaRequestDenied
  | cibaRequestExpired
  | cibaTokensIssued
  | oidcCodeIssued
  | oidcTokensIssued
  | tokenRevoked
  | consentGranted
  | consentRevoked
  | deviceRevoked
  | rpRegistered
  | rpUpdated
  | rpSuspended
  | sdidReferenceFetched
  | sdidReassert
  | keyGenerated
  | keyPromoted
  | keyRetired
  | keyRotated
  | keySigningFailed
  | keyUsageSummary
  | keyCustodyHealthChanged
  | adminAction
  deriving DecidableEq

/-- The text of an action. -/
def AuditAction.text : AuditAction → String
  | .enrolmentStarted => "enrolment.started"
  | .enrolmentMatchCompleted => "enrolment.match_completed"
  | .enrolmentBindingCreated => "enrolment.binding_created"
  | .enrolmentBindingActivated => "enrolment.binding_activated"
  | .enrolmentFailed => "enrolment.failed"
  | .authChallengeIssued => "auth.challenge_issued"
  | .authLoginSucceeded => "auth.login_succeeded"
  | .authLoginFailed => "auth.login_failed"
  | .cibaRequestCreated => "ciba.request_created"
  | .cibaRequestApproved => "ciba.request_approved"
  | .cibaRequestDenied => "ciba.request_denied"
  | .cibaRequestExpired => "ciba.request_expired"
  | .cibaTokensIssued => "ciba.tokens_issued"
  | .oidcCodeIssued => "oidc.code_issued"
  | .oidcTokensIssued => "oidc.tokens_issued"
  | .tokenRevoked => "token.revoked"
  | .consentGranted => "consent.granted"
  | .consentRevoked => "consent.revoked"
  | .deviceRevoked => "device.revoked"
  | .rpRegistered => "rp.registered"
  | .rpUpdated => "rp.updated"
  | .rpSuspended => "rp.suspended"
  | .sdidReferenceFetched => "sdid.reference_fetched"
  | .sdidReassert => "sdid.reassert"
  | .keyGenerated => "key.generated"
  | .keyPromoted => "key.promoted"
  | .keyRetired => "key.retired"
  | .keyRotated => "key.rotated"
  | .keySigningFailed => "key.signing_failed"
  | .keyUsageSummary => "key.usage_summary"
  | .keyCustodyHealthChanged => "key.custody_health_changed"
  | .adminAction => "admin.action"

/-- The outcomes that are audited. -/
inductive AuditResult where
  | success
  | failure
  | denied
  deriving DecidableEq

/-- The text of an outcome. -/
def AuditResult.text : AuditResult → String
  | .success => "success"
  | .failure => "failure"
  | .denied => "denied"

/-- An event as its caller passes it. The ids are texts, in the spelling that the caller has. -/
structure AuditEventInput where
  /-- Who acted. -/
  actor : JsValue
  /-- What was done. -/
  action : AuditAction
  /-- The citizen, by a pseudonym. -/
  subjectRef : Option String := none
  /-- The relying party. -/
  rpId : Option String := none
  /-- The device binding. -/
  deviceBindingId : Option String := none
  /-- The assurance level. -/
  assurance : Option AssuranceLevel := none
  /-- The outcome of a biometric match. -/
  matchResult : Option JsValue := none
  /-- The reference that SDID gave. -/
  sdidTxnRef : Option String := none
  /-- The outcome. -/
  result : AuditResult
  /-- What else is known. -/
  context : Option JsValue := none

/-- A value of a `jsonb` column: a JSON value. -/
structure Jsonb where
  /-- The value. -/
  value : JsValue
  /-- It is JSON. -/
  json : value.isJson = true

/-- A row of the table `audit_events`. -/
structure AuditRow where
  /-- The sequence number. -/
  seq : ℕ
  /-- The id of the event. -/
  id : Uuid
  /-- When it was appended, in milliseconds. -/
  ts : ℤ
  /-- Who acted. -/
  actor : Jsonb
  /-- What was done. -/
  action : String
  /-- The citizen, by a pseudonym. -/
  subjectRef : Option String
  /-- The relying party. -/
  rpId : Option Uuid
  /-- The device binding. -/
  deviceBindingId : Option Uuid
  /-- The assurance level. -/
  assurance : Option String
  /-- The outcome of a biometric match. -/
  matchResult : Option Jsonb
  /-- The reference that SDID gave. -/
  sdidTxnRef : Option String
  /-- The outcome. -/
  result : String
  /-- What else is known. -/
  context : Option Jsonb
  /-- The hash of the row before. -/
  prevHash : String
  /-- The hash of the row. -/
  hash : String

/-- What `computeHash` is given besides the hash of the row before. -/
structure AuditFields where
  /-- The id of the event. -/
  id : String
  /-- When it was appended. -/
  ts : ℤ
  /-- Who acted. -/
  actor : JsValue
  /-- What was done. -/
  action : String
  /-- The citizen, by a pseudonym. -/
  subjectRef : Option String
  /-- The relying party. -/
  rpId : Option String
  /-- The device binding. -/
  deviceBindingId : Option String
  /-- The assurance level. -/
  assurance : Option String
  /-- The outcome of a biometric match. -/
  matchResult : Option JsValue
  /-- The reference that SDID gave. -/
  sdidTxnRef : Option String
  /-- The outcome. -/
  result : String
  /-- What else is known. -/
  context : Option JsValue

/-- A text or `null`. -/
def textOrNull : Option String → JsValue
  | some s => .str s
  | none => .null

/-- The object whose canonical text is hashed. -/
def AuditFields.toJs (f : AuditFields) : JsValue := .obj [
  ("id", .str f.id),
  ("ts", .str (String.ofList (toISOString f.ts))),
  ("actor", f.actor),
  ("action", .str f.action),
  ("subjectRef", textOrNull f.subjectRef),
  ("rpId", textOrNull f.rpId),
  ("deviceBindingId", textOrNull f.deviceBindingId),
  ("assurance", textOrNull f.assurance),
  ("matchResult", f.matchResult.getD .null),
  ("sdidTxnRef", textOrNull f.sdidTxnRef),
  ("result", .str f.result),
  ("context", f.context.getD .null)]

/-- The text that is hashed after the hash of the row before. -/
def AuditFields.text (f : AuditFields) : String := String.ofList (stableStringify f.toJs)

/-- The fields of an event that is appended. -/
def AuditEventInput.fields (e : AuditEventInput) (id : Uuid) (ts : ℤ) : AuditFields where
  id := id.text
  ts := ts
  actor := e.actor
  action := e.action.text
  subjectRef := e.subjectRef
  rpId := e.rpId
  deviceBindingId := e.deviceBindingId
  assurance := e.assurance.map (·.text)
  matchResult := e.matchResult
  sdidTxnRef := e.sdidTxnRef
  result := e.result.text
  context := e.context

/-- The fields of a row as the driver gives them back. -/
def AuditRow.fields (r : AuditRow) : AuditFields where
  id := r.id.text
  ts := r.ts
  actor := r.actor.value
  action := r.action
  subjectRef := r.subjectRef
  rpId := r.rpId.map (·.text)
  deviceBindingId := r.deviceBindingId.map (·.text)
  assurance := r.assurance
  matchResult := r.matchResult.map (·.value)
  sdidTxnRef := r.sdidTxnRef
  result := r.result
  context := r.context.map (·.value)

mutual

/-- The value that `JSON.stringify` writes: without undefined members, and with `null` for an
undefined element and for a number that JSON cannot carry. -/
def toJson : JsValue → JsValue
  | .undefined => .null
  | .null => .null
  | .bool b => .bool b
  | .num n => if n.isFinite then .num n else .null
  | .str s => .str s
  | .arr vs => .arr (toJsonElements vs)
  | .obj ms => .obj (toJsonMembers ms)

/-- The elements that `JSON.stringify` writes. -/
def toJsonElements : List JsValue → List JsValue
  | [] => []
  | v :: vs => toJson v :: toJsonElements vs

/-- The members that `JSON.stringify` writes. -/
def toJsonMembers : List (String × JsValue) → List (String × JsValue)
  | [] => []
  | (k, v) :: ms => if v.isUndefined then toJsonMembers ms else (k, toJson v) :: toJsonMembers ms

end

/-- What is written is JSON. -/
theorem isJson_toJson (v : JsValue) : (toJson v).isJson = true := by
  induction v using JsValue.induct with
  | undefined => rfl
  | null => rfl
  | bool b => rfl
  | num n =>
    simp only [toJson]
    split_ifs with h
    · exact h
    · rfl
  | str s => rfl
  | arr vs ih =>
    simp only [toJson, JsValue.isJson]
    induction vs with
    | nil => rfl
    | cons v vs ihs =>
      simp only [toJsonElements, elementsJson, Bool.and_eq_true]
      exact ⟨ih v List.mem_cons_self, ihs fun v hv => ih v (List.mem_cons_of_mem _ hv)⟩
  | obj ms ih =>
    simp only [toJson, JsValue.isJson]
    induction ms with
    | nil => rfl
    | cons m ms ihs =>
      obtain ⟨k, v⟩ := m
      have hrest := ihs fun m hm => ih m (List.mem_cons_of_mem _ hm)
      simp only [toJsonMembers]
      split_ifs with h
      · exact hrest
      · simp only [membersJson, Bool.and_eq_true]
        exact ⟨ih (k, v) List.mem_cons_self, hrest⟩

/-- The code that the audit service relies on: the digest of a text in hexadecimal digits, and what
a `jsonb` column gives back for a JSON value. -/
structure AuditDeps where
  /-- `createHash('sha256').update(text).digest('hex')`. -/
  sha256 : String → String
  /-- The value that a `jsonb` column gives back. -/
  jsonb : JsValue → Jsonb

/-- The hash that the first row links to. -/
def GENESIS_HASH : String := "genesis"

namespace AuditDeps

variable (D : AuditDeps)

/-- The hash of a row, from the hash of the row before and the row's fields. -/
def computeHash (prevHash : String) (f : AuditFields) : String := D.sha256 (prevHash ++ f.text)

/-- A uuid column's value for a text that the driver sends: the insert fails on a text that is no
uuid. -/
def uuidColumn : Option String → Option (Option Uuid)
  | none => some none
  | some s => (Uuid.ofText s).map some

/-- The hash that the next row links to. -/
def lastHash (rows : List AuditRow) : String := (rows.getLast?.map (·.hash)).getD GENESIS_HASH

/-- The row that an event is stored as, or `none` when the insert fails. -/
def rowOf (prevHash : String) (seq : ℕ) (id : Uuid) (ts : ℤ) (e : AuditEventInput) :
    Option AuditRow :=
  match uuidColumn e.rpId, uuidColumn e.deviceBindingId with
  | some rpId, some deviceBindingId => some {
      seq := seq
      id := id
      ts := ts
      actor := D.jsonb (toJson e.actor)
      action := e.action.text
      subjectRef := e.subjectRef
      rpId := rpId
      deviceBindingId := deviceBindingId
      assurance := e.assurance.map (·.text)
      matchResult := e.matchResult.map fun v => D.jsonb (toJson v)
      sdidTxnRef := e.sdidTxnRef
      result := e.result.text
      context := e.context.map fun v => D.jsonb (toJson v)
      prevHash := prevHash
      hash := D.computeHash prevHash (e.fields id ts) }
  | _, _ => none

/-- Append an event with the id and the time that were drawn for it. The identity column passes over
`skipped` numbers, those of inserts that were rolled back. The append throws when the insert
fails, and leaves the table as it is. -/
def append (rows : List AuditRow) (skipped : ℕ) (id : Uuid) (ts : ℤ) (e : AuditEventInput) :
    Option (List AuditRow) :=
  let seq := (rows.getLast?.map (·.seq)).getD 0 + 1 + skipped
  (D.rowOf (lastHash rows) seq id ts e).map fun row => rows ++ [row]

/-- The answer of `verifyChain`. -/
structure Verification where
  /-- Whether the chain is intact. -/
  intact : Bool
  /-- The sequence number of the first row that is not. -/
  brokenAtSeq : Option ℕ
  /-- The number of rows. -/
  count : ℕ
  deriving DecidableEq

/-- Check the rows from one on whose predecessor has the hash `prev`. -/
def verifyFrom (count : ℕ) (prev : String) : List AuditRow → Verification
  | [] => ⟨true, none, count⟩
  | r :: rs =>
    if r.prevHash ≠ prev then ⟨false, some r.seq, count⟩
    else if D.computeHash prev r.fields ≠ r.hash then ⟨false, some r.seq, count⟩
    else verifyFrom count r.hash rs

/-- Walk the chain of a table. -/
def verifyChain (rows : List AuditRow) : Verification := D.verifyFrom rows.length GENESIS_HASH rows

/-- The rows from one on whose predecessor has the hash `prev` are chained, and have the hashes that
their fields have. -/
def Chained (prev : String) : List AuditRow → Prop
  | [] => True
  | r :: rs => r.prevHash = prev ∧ D.computeHash prev r.fields = r.hash ∧ Chained r.hash rs

/-- `verifyChain` finds a table intact when its rows are chained. -/
theorem verifyFrom_intact {count : ℕ} {prev : String} {rows : List AuditRow} :
    (D.verifyFrom count prev rows).intact = true ↔ D.Chained prev rows := by
  induction rows generalizing prev with
  | nil => simp [verifyFrom, Chained]
  | cons r rs ih =>
    simp only [verifyFrom, Chained]
    split_ifs with h₁ h₂
    · simp [h₁]
    · simp [h₂]
    · rw [ih]
      tauto

/-- An intact table is reported as such, with the number of its rows. -/
theorem verifyChain_eq {rows : List AuditRow} :
    D.verifyChain rows = ⟨true, none, rows.length⟩ ↔ D.Chained GENESIS_HASH rows := by
  rw [← @verifyFrom_intact D rows.length]
  constructor
  · intro h
    rw [verifyChain] at h
    rw [h]
  · intro h
    unfold verifyChain
    generalize GENESIS_HASH = prev at *
    generalize rows.length = n at *
    induction rows generalizing prev with
    | nil => rfl
    | cons r rs ih =>
      simp only [verifyFrom] at h ⊢
      split_ifs at h ⊢
      exact ih r.hash h

/-- A chain and a row that links to its last hash. -/
theorem chained_append {prev : String} {rows : List AuditRow} {row : AuditRow} :
    D.Chained prev (rows ++ [row]) ↔ D.Chained prev rows ∧
      row.prevHash = (rows.getLast?.map (·.hash)).getD prev ∧
      D.computeHash row.prevHash row.fields = row.hash := by
  induction rows generalizing prev with
  | nil =>
    simp only [List.nil_append, Chained, and_true, List.getLast?_nil, Option.map_none,
      Option.getD_none, true_and]
    constructor
    · rintro ⟨h₁, h₂⟩
      exact ⟨h₁, by rw [h₁, h₂]⟩
    · rintro ⟨h₁, h₂⟩
      exact ⟨h₁, by rw [← h₁, h₂]⟩
  | cons r rs ih =>
    have hlast : ((r :: rs).getLast?.map (·.hash)).getD prev =
        (rs.getLast?.map (·.hash)).getD r.hash := by
      cases rs with
      | nil => rfl
      | cons r' rs' => rw [List.getLast?_cons_cons]; simp [List.getLast?_cons]
    rw [List.cons_append, Chained, Chained, ih, hlast]
    tauto

end AuditDeps

end SdidBridge
