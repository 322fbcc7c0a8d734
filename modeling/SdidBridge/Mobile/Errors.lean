import Mathlib.Tactic.Common
import SdidBridge.Shared.Json
import SdidBridge.Shared.Protocol

/-!
# The errors of the mobile app

`apps/mobile/src/core/errors.ts`, as far as the client looks at its errors: the code, where the failure
came from, the HTTP status, and the detail for the app's own log.
-/

namespace SdidBridge.Mobile

/-- Failures that never reach the broker. -/
inductive LocalErrorCode where
  | network_unreachable
  | network_timeout
  | server_unreachable
  | unexpected_response
  | biometric_unavailable
  | biometric_not_enrolled
  | biometric_cancelled
  | biometric_failed
  | secure_hardware_unavailable
  | keystore_failed
  | attestation_failed_local
  | not_enrolled
  | interrupted
  | unknown
  deriving DecidableEq

/-- A code of the broker, or one of the app's own. -/
inductive MobileErrorCode where
  | protocol (code : ErrorCode)
  | app (code : LocalErrorCode)
  deriving DecidableEq

/-- Where a failure came from. -/
inductive MobileErrorSource where
  | protocol
  | transport
  | device
  | client
  deriving DecidableEq

/-- The error that the core throws. -/
structure MobileError where
  /-- The code. -/
  code : MobileErrorCode
  /-- Where the failure came from. -/
  source : MobileErrorSource
  /-- The HTTP status of the broker's answer. -/
  httpStatus : Option ℕ := none
  /-- The detail for the app's own log. -/
  detail : Option String := none
  deriving DecidableEq

/-- `TERMINAL_FOR_BINDING`: the codes that mean that the device's binding is finished. -/
def TERMINAL_FOR_BINDING : List MobileErrorCode :=
  [.protocol .binding_not_found, .protocol .binding_not_active]

/-- Whether the local binding is dead and enrolment must be redone. -/
def MobileError.terminalForBinding (e : MobileError) : Bool := e.code ∈ TERMINAL_FOR_BINDING

/-- `MobileError.local`. -/
def MobileError.local (code : LocalErrorCode) (detail : Option String := none) : MobileError where
  code := .app code
  source :=
    match code with
    | .network_unreachable | .network_timeout | .server_unreachable => .transport
    | .unexpected_response | .unknown | .interrupted => .client
    | _ => .device
  detail := detail

/-- The app's own errors never finish a binding. -/
@[simp] theorem MobileError.terminalForBinding_local (code : LocalErrorCode) (detail : Option String) :
    (MobileError.local code detail).terminalForBinding = false := by
  simp [terminalForBinding, MobileError.local, TERMINAL_FOR_BINDING]

/-- All codes of the broker. -/
def ERROR_CODES : List ErrorCode :=
  [.invalid_request, .enrolment_failed, .attestation_rejected, .attestation_unavailable, .binding_not_found,
    .binding_not_active, .challenge_invalid, .signature_invalid, .assurance_insufficient, .rate_limited,
    .locked_out, .unauthorized_client, .access_denied, .authorization_pending, .expired_token, .slow_down,
    .invalid_grant, .invalid_client, .invalid_scope, .unknown_user_id, .sdid_unavailable, .internal_error]

/-- `isErrorCode`, with the code. -/
def isErrorCode (raw : String) : Option ErrorCode := ERROR_CODES.find? fun code => code.text == raw

/-- The text of a code is recognised. -/
@[simp] theorem isErrorCode_text (code : ErrorCode) : isErrorCode code.text = some code := by
  cases code <;> decide

/-- The member of an object, `undefined` where there is none. -/
def member (body : JsValue) (key : String) : JsValue :=
  match body with
  | .obj ms => (ms.lookup key).getD .undefined
  | _ => .undefined

/-- The first characters of a text, as many as make up `n` code units. -/
def sliceUnits : ℕ → List Char → List Char
  | _, [] => []
  | n, c :: cs =>
    let units := if c.toNat < 0x10000 then 1 else 2
    if units ≤ n then c :: sliceUnits (n - units) cs else []

/-- `MobileError.fromBrokerBody`. -/
def MobileError.fromBrokerBody (body : JsValue) (httpStatus : ℕ) : MobileError :=
  match member body "error" with
  | .str raw =>
    match isErrorCode raw with
    | some code => ⟨.protocol code, .protocol, some httpStatus, none⟩
    | none => ⟨.app .unknown, .protocol, some httpStatus,
        some ("unmapped_code=" ++ String.ofList (sliceUnits 64 raw.toList))⟩
  | _ => ⟨.app .unknown, .protocol, some httpStatus, some "no_error_code"⟩

/-- The answer of the broker keeps its status. -/
@[simp] theorem MobileError.httpStatus_fromBrokerBody (body : JsValue) (httpStatus : ℕ) :
    (MobileError.fromBrokerBody body httpStatus).httpStatus = some httpStatus := by
  unfold fromBrokerBody
  split
  · split <;> rfl
  · rfl

/-- What an exception can be: the core's own, or anything else. -/
inductive Thrown where
  | mobile (e : MobileError)
  | other
  deriving DecidableEq

/-- `toMobileError`. The detail names the class of the exception. -/
def toMobileError : Thrown → MobileError
  | .mobile e => e
  | .other => .local .unknown

end SdidBridge.Mobile
