import Mathlib.Algebra.Ring.Int.Defs
import Mathlib.Data.Fintype.Pi
import Mathlib.Data.List.Sort
import SdidBridge.Shared.Json
import SdidBridge.Concurrent.Object

/-!
# The signing keys and the state of a replica

The table `signing_keys` is shared by all replicas of the broker. A command on it is one SQL
statement; what a rotation's transaction has changed is seen by nobody else until it commits, and
since the advisory lock lets one rotation in at a time there is one such transaction at most.

A replica keeps a cache of the table (`PostgresDevKeyCustody`), and the published key set, the usage
tallies and the health of `KeysService`. A command on a replica is what the process does between two
awaits.
-/

namespace SdidBridge.Keys

open Concurrent

/-! ## The table -/

/-- The status of a key. -/
inductive KeyStatus where
  | active
  | retired
  deriving DecidableEq

/-- A row of `signing_keys`. The key itself is not looked into. -/
structure KeyRow where
  /-- The id, which is the primary key. -/
  kid : String
  /-- The status. -/
  status : KeyStatus
  /-- When the transaction that inserted it began. -/
  createdAt : ℕ
  deriving DecidableEq

/-- What a rotation's transaction has changed. -/
structure Rotation where
  /-- When it began. -/
  startedAt : ℕ
  /-- The keys that its update has retired. -/
  retired : Option (List String)
  /-- The key that it has inserted. -/
  inserted : Option KeyRow
  deriving DecidableEq

/-- The table, and the transaction of the rotation that holds the lock. -/
structure SigningKeys where
  /-- The committed rows. -/
  rows : List KeyRow
  /-- The open transaction. -/
  rotation : Option Rotation

/-- The keys that are active. -/
def activeKids (rows : List KeyRow) : List String :=
  (rows.filter fun row => row.status = .active).map (·.kid)

/-- Retire the keys with the given ids. -/
def retire (kids : List String) (row : KeyRow) : KeyRow :=
  if row.kid ∈ kids then { row with status := .retired } else row

/-- The rows after a rotation commits. -/
def Rotation.apply (x : Rotation) (rows : List KeyRow) : List KeyRow :=
  rows.map (retire (x.retired.getD [])) ++ x.inserted.toList

/-- The statements. -/
inductive KeyOp where
  /-- `pool.connect`. -/
  | connect
  /-- `SELECT ... ORDER BY created_at ASC`. -/
  | select
  /-- `INSERT ... ON CONFLICT DO NOTHING RETURNING kid` of the first key: whether it was inserted. -/
  | insertFirst (kid : String)
  /-- `BEGIN`, with the time that `now()` has in the transaction. -/
  | begin
  /-- `SELECT pg_advisory_xact_lock`, which waits for the lock. -/
  | lock (startedAt : ℕ)
  /-- `UPDATE ... SET status = 'retired' WHERE status = 'active' RETURNING kid`. -/
  | retireActive
  /-- `INSERT` of the key that is promoted. -/
  | insert (kid : String)
  /-- `COMMIT`. -/
  | commit
  /-- `ROLLBACK`, of a transaction that holds the lock or of one that does not. -/
  | rollback (locked : Bool)

/-- Their answers. -/
@[reducible] def KeyOp.Res : KeyOp → Type
  | .connect => Unit
  | .select => List KeyRow
  | .insertFirst _ => Bool
  | .begin => ℕ
  | .lock _ => Unit
  | .retireActive => List String
  | .insert _ => Unit
  | .commit => Unit
  | .rollback _ => Unit

/-- Execute a statement. A statement that has to wait is not executed, and one of a transaction that
is not open is none. -/
def KeyOp.exec (now : ℕ) (k : SigningKeys) : (o : KeyOp) → Option (Option o.Res × SigningKeys)
  | .connect => some (some (), k)
  | .select => some (some (k.rows.insertionSort fun a b => a.createdAt ≤ b.createdAt), k)
  | .insertFirst kid =>
    if kid ∈ k.rows.map (·.kid) then some (some false, k)
    else if (k.rotation.bind (·.inserted)).any (·.kid == kid) then none
    else some (some true, { k with rows := k.rows ++ [⟨kid, .active, now⟩] })
  | .begin => some (some now, k)
  | .lock startedAt =>
    match k.rotation with
    | some _ => none
    | none => some (some (), { k with rotation := some ⟨startedAt, none, none⟩ })
  | .retireActive =>
    match k.rotation with
    | some x =>
      some (some (activeKids k.rows),
        { k with rotation := some { x with retired := some (activeKids k.rows) } })
    | none => none
  | .insert kid =>
    match k.rotation with
    | some x =>
      if kid ∈ k.rows.map (·.kid) then some (none, k)
      else some (some (),
        { k with rotation := some { x with inserted := some ⟨kid, .active, x.startedAt⟩ } })
    | none => none
  | .commit =>
    match k.rotation with
    | some x => some (some (), ⟨x.apply k.rows, none⟩)
    | none => none
  | .rollback locked => some (some (), if locked then { k with rotation := none } else k)

/-! ## The usage tallies -/

/-- What is counted of a key. -/
inductive UsageField where
  | signatures
  | probeSignatures
  | failures
  | suppressedFailureRows
  deriving DecidableEq

instance : Fintype UsageField where
  elems := {.signatures, .probeSignatures, .failures, .suppressedFailureRows}
  complete f := by cases f <;> decide

/-- The counts of a key that wait for the next summary. -/
abbrev UsageTally := UsageField → ℤ

/-- One more of a field. -/
def UsageField.one (f : UsageField) : UsageTally := fun g => if g = f then 1 else 0

/-- The tallies by key, in the order in which the keys were first counted. -/
structure UsageMap where
  /-- The tallies. -/
  entries : List (String × UsageTally)
  /-- A key has one tally. -/
  nodup : (entries.map Prod.fst).Nodup

namespace UsageMap

/-- No tallies. -/
def empty : UsageMap := ⟨[], List.nodup_nil⟩

/-- The tally of a key. -/
def get (u : UsageMap) (kid : String) : Option UsageTally :=
  (u.entries.find? (·.1 == kid)).map (·.2)

/-- The entries with the tally of a key set. -/
def put (kid : String) (x : UsageTally) : List (String × UsageTally) → List (String × UsageTally)
  | [] => [(kid, x)]
  | e :: es => if e.1 = kid then (kid, x) :: es else e :: put kid x es

theorem mem_put {kid k : String} {x : UsageTally} {es : List (String × UsageTally)} :
    k ∈ (put kid x es).map Prod.fst ↔ k = kid ∨ k ∈ es.map Prod.fst := by
  induction es with
  | nil => simp [put]
  | cons e es ih =>
    unfold put
    split_ifs with h
    · simp [← h]
    · rw [List.map_cons, List.mem_cons, ih, List.map_cons, List.mem_cons]
      exact or_left_comm

theorem nodup_put {kid : String} {x : UsageTally} {es : List (String × UsageTally)}
    (h : (es.map Prod.fst).Nodup) : ((put kid x es).map Prod.fst).Nodup := by
  induction es with
  | nil => simp [put]
  | cons e es ih =>
    rw [List.map_cons, List.nodup_cons] at h
    unfold put
    split_ifs with he
    · rw [List.map_cons, List.nodup_cons, ← he]
      exact h
    · rw [List.map_cons, List.nodup_cons, mem_put, not_or]
      exact ⟨⟨he, h.1⟩, ih h.2⟩

/-- Set the tally of a key. -/
def set (u : UsageMap) (kid : String) (x : UsageTally) : UsageMap :=
  ⟨put kid x u.entries, nodup_put u.nodup⟩

/-- Forget a key. -/
def delete (u : UsageMap) (kid : String) : UsageMap :=
  ⟨u.entries.filter (·.1 != kid), (List.filter_sublist.map _).nodup u.nodup⟩

/-- Count one more of a field. -/
def tally (u : UsageMap) (kid : String) (f : UsageField) : UsageMap :=
  u.set kid ((u.get kid).getD 0 + f.one)

/-- Take what was reported of one key off its tally. -/
def subtractOne (u : UsageMap) (reported : String × UsageTally) : UsageMap :=
  match u.get reported.1 with
  | none => u
  | some x => if x - reported.2 = 0 then u.delete reported.1 else u.set reported.1 (x - reported.2)

/-- Take what was reported off the tallies. -/
def subtract (u : UsageMap) (reported : List (String × UsageTally)) : UsageMap :=
  reported.foldl subtractOne u

end UsageMap

/-! ## A replica -/

/-- What became of a key. -/
inductive CustodyEventType where
  | keyGenerated
  | keyPromoted
  | keyRetired
  deriving DecidableEq

/-- An event of the custody. -/
structure CustodyEvent where
  /-- What happened. -/
  type : CustodyEventType
  /-- To which key. -/
  kid : String
  deriving DecidableEq

/-- What a signature is for. -/
inductive Purpose where
  | token
  | probe
  deriving DecidableEq

/-- Where a signature is counted. -/
def Purpose.field : Purpose → UsageField
  | .token => .signatures
  | .probe => .probeSignatures

/-- The memory of a replica. -/
structure Replica where
  /-- The keys in the custody's cache. -/
  keys : List String
  /-- The active key of the cache. -/
  active : Option String
  /-- The published key set. -/
  publicJwks : List String
  /-- The tallies. -/
  usage : UsageMap
  /-- When a failure of a key was last audited. -/
  lastFailureAuditAt : String → ℕ
  /-- The custody's events that are still to be audited. -/
  pendingEvents : List CustodyEvent
  /-- The last verdict on the custody's health. -/
  lastHealthy : Option Bool
  /-- Whether the process is stopping. -/
  shuttingDown : Bool

/-- A replica that starts. -/
def Replica.new : Replica where
  keys := []
  active := none
  publicJwks := []
  usage := .empty
  lastFailureAuditAt _ := 0
  pendingEvents := []
  lastHealthy := none
  shuttingDown := false

/-- The shortest time between two audits of a failure of one key. -/
def SIGNING_FAILURE_AUDIT_INTERVAL_MS : ℕ := 60000

/-- Count a failed signature: whether it is to be audited. -/
def Replica.recordSigningFailure (x : Replica) (now : ℕ) (kid : String) : Bool × Replica :=
  let usage := x.usage.tally kid .failures
  if now < x.lastFailureAuditAt kid + SIGNING_FAILURE_AUDIT_INTERVAL_MS then
    (false, { x with usage := usage.tally kid .suppressedFailureRows })
  else
    (true, { x with usage, lastFailureAuditAt := Function.update x.lastFailureAuditAt kid now })

/-- How a signature ended. -/
inductive SignAnswer where
  /-- The key is not in the cache. -/
  | missing
  /-- The signature was made and counted. -/
  | signed
  /-- The signature failed and was counted; whether that is to be audited. -/
  | failed (audited : Bool)
  deriving DecidableEq

/-- What a replica does between two awaits. -/
inductive LocalOp where
  /-- The end of `reload`. -/
  | install (rows : List KeyRow)
  /-- Read the active key of the cache. -/
  | activeKid
  /-- `custody.listPublicJwks`. -/
  | listPublicJwks
  /-- `this.publicJwks = ...`. -/
  | setJwks (kids : List String)
  /-- `jwks`. -/
  | jwks
  /-- `custody.sign` with a key of the cache, and the count of how that ended. -/
  | sign (kid : String) (purpose : Purpose)
  /-- The count of a signature that was not even tried. -/
  | signingFailed (kid : String)
  /-- `noteHealth`, up to its audit: whether there is one, and the verdict before. -/
  | noteHealth (healthy : Bool)
  /-- The start of `flushUsageSummary`: the tallies. -/
  | snapshot
  /-- The end of `flushUsageSummary`. -/
  | subtract (reported : List (String × UsageTally))
  /-- The custody tells its listener. -/
  | emit (events : List CustodyEvent)
  /-- The next event to be audited. -/
  | shiftEvent
  /-- The process is told to stop. -/
  | setShuttingDown
  /-- Whether it is stopping. -/
  | isShuttingDown
  /-- `custody.close`. -/
  | close

/-- Their answers. -/
@[reducible] def LocalOp.Res : LocalOp → Type
  | .install _ => Unit
  | .activeKid => Option String
  | .listPublicJwks => List String
  | .setJwks _ => Unit
  | .jwks => List String
  | .sign _ _ => SignAnswer
  | .signingFailed _ => Bool
  | .noteHealth _ => Option (Option Bool)
  | .snapshot => List (String × UsageTally)
  | .subtract _ => Unit
  | .emit _ => Unit
  | .shiftEvent => Option CustodyEvent
  | .setShuttingDown => Unit
  | .isShuttingDown => Bool
  | .close => Unit

/-- What the environment decides. -/
inductive Input where
  /-- Nothing is decided. -/
  | unit
  /-- A random text is drawn. -/
  | text (s : String)
  /-- Whether a signature succeeds. -/
  | signature (ok : Bool)
  /-- The clock shows another time. -/
  | clock (now : ℕ)

/-- Execute a command of a replica. -/
def LocalOp.exec (i : Input) (now : ℕ) (x : Replica) : (o : LocalOp) → Option (Option o.Res × Replica)
  | .install rows =>
    some (some (), { x with keys := rows.map (·.kid), active := (activeKids rows).head? })
  | .activeKid => some (some x.active, x)
  | .listPublicJwks => some (some x.keys, x)
  | .setJwks kids => some (some (), { x with publicJwks := kids })
  | .jwks => some (some x.publicJwks, x)
  | .sign kid purpose =>
    if kid ∈ x.keys then
      match i with
      | .signature true => some (some .signed, { x with usage := x.usage.tally kid purpose.field })
      | .signature false =>
        let (audited, x) := x.recordSigningFailure now kid
        some (some (.failed audited), x)
      | _ => none
    else some (some .missing, x)
  | .signingFailed kid =>
    let (audited, x) := x.recordSigningFailure now kid
    some (some audited, x)
  | .noteHealth healthy =>
    if x.lastHealthy = some healthy then some (some none, x)
    else if x.lastHealthy = none ∧ healthy then
      some (some none, { x with lastHealthy := some healthy })
    else some (some (some x.lastHealthy), { x with lastHealthy := some healthy })
  | .snapshot => some (some x.usage.entries, x)
  | .subtract reported => some (some (), { x with usage := x.usage.subtract reported })
  | .emit events => some (some (), { x with pendingEvents := x.pendingEvents ++ events })
  | .shiftEvent => some (some x.pendingEvents.head?, { x with pendingEvents := x.pendingEvents.tail })
  | .setShuttingDown => some (some (), { x with shuttingDown := true })
  | .isShuttingDown => some (some x.shuttingDown, x)
  | .close => some (some (), { x with keys := [], active := none })

end SdidBridge.Keys
