import Mathlib.Order.WithBot
import SdidBridge.Logging.Redact

/-!
# Log lines

`JsonLogger.write` of `logging/json-logger.ts` makes the one line of a record: the time, the level, the scrubbed message,
the id of the request, and the redacted fields. The id of a request is one that its header carries, or a fresh uuid
(`sanitizeRequestId` of `logging/correlation.ts`).
-/

namespace SdidBridge.Logging

open Shared

/-! ## Levels -/

inductive BrokerLogLevel where
  | debug
  | info
  | warn
  | error
  deriving DecidableEq

inductive BrokerLogThreshold where
  | level (level : BrokerLogLevel)
  | silent
  deriving DecidableEq

def LEVEL_RANK : BrokerLogThreshold → WithTop ℕ
  | .level .debug => 10
  | .level .info => 20
  | .level .warn => 30
  | .level .error => 40
  | .silent => ⊤

def levelText : BrokerLogLevel → JsString
  | .debug => js "debug"
  | .info => js "info"
  | .warn => js "warn"
  | .error => js "error"

/-! ## Request ids -/

/-- `[A-Za-z0-9_.:-]`. -/
def isIdUnit (u : UInt16) : Bool :=
  decide ((0x41 ≤ u ∧ u ≤ 0x5a) ∨ (0x61 ≤ u ∧ u ≤ 0x7a) ∨ (0x30 ≤ u ∧ u ≤ 0x39) ∨ u ∈ js "_.:-")

/-- `SAFE_REQUEST_ID`. -/
def isSafeRequestId (raw : JsString) : Bool := decide (8 ≤ raw.length ∧ raw.length ≤ 64) && raw.all isIdUnit

/-- `sanitizeRequestId`, for a header that is a text or not, with the uuid that is made otherwise. -/
def sanitizeRequestId (raw : Option JsString) (fresh : Uuid) : JsString :=
  match raw with
  | some raw => if isSafeRequestId raw then raw else units fresh.text.toList
  | none => units fresh.text.toList

/-! ## Records -/

/-- The keys that fields do not overwrite. -/
def isReserved (key : JsString) : Bool := decide (key ∈ [js "ts", js "level", js "msg", js "requestId"])

/-- `Object.entries` of a redacted record. -/
def objectEntries : JsTree → List (JsString × JsTree)
  | .object members => ownOrder members
  | _ => []

/-- The fields of a call: a plain object. -/
structure Fields (heap : Heap) where
  ref : Ref
  isRecord : ∃ members, heap ref = .object members

/-- The member of a record for the id of the request, if there is one. -/
def requestIdMember : Option JsString → List (JsString × JsTree)
  | none => []
  | some [] => []
  | some id => [(js "requestId", textLeaf id)]

/-- A record before its fields. -/
def baseRecord (now : TimeValue) (requestId : Option JsString) (level : BrokerLogLevel) (msg : JsString) :
    List (JsString × JsTree) :=
  [(js "ts", textLeaf (units (toISOString now.val))), (js "level", textLeaf (levelText level)),
    (js "msg", textLeaf (scrubString msg))] ++ requestIdMember requestId

/-- `JsonLogger.write`: the line that goes to the sink, if there is one. -/
def write (threshold : BrokerLogThreshold) (now : TimeValue) (requestId : Option JsString) (heap : Heap)
    (level : BrokerLogLevel) (msg : JsString) (fields : Option (Fields heap)) : Except JsError (Option JsString) := do
  if LEVEL_RANK (.level level) < LEVEL_RANK threshold then return none
  let record := baseRecord now requestId level msg
  let record ←
    match fields with
    | none => pure record
    | some fields => do
      let safe ← redact heap (.ref fields.ref)
      pure (assignFrom isReserved record (objectEntries safe))
  let text ← jsonStringify (.object record)
  return text.map fun text => text ++ [0x0a]

end SdidBridge.Logging
