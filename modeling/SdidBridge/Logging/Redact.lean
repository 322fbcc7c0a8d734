import SdidBridge.Shared.Stringify

/-!
# Redaction

`redact` of `logging/redact.ts`: the copy of a value that goes into a log line. A value is a leaf, or a reference into
a heap of arrays, maps, sets and plain objects, which may share their parts and contain themselves. The copy is made
along a walk with three limits and a set of the objects that it has seen.
-/

namespace SdidBridge.Logging

open Codec Shared

/-! ## Values -/

/-- The identity of an object. -/
abbrev Ref := ℕ

/-- The time of a valid date, in milliseconds. -/
abbrev TimeValue := {ms : ℤ // -8640000000000000 ≤ ms ∧ ms ≤ 8640000000000000}

/-- A value that the walk does not enter. -/
inductive Leaf where
  | primitive (p : Primitive)
  /-- A byte array. -/
  | binary (byteLength : ℕ)
  /-- A date, without a time if it is invalid. -/
  | date (time : Option TimeValue)
  | error (name message : JsString) (stack : Option JsString)

inductive Value where
  | leaf (l : Leaf)
  | ref (r : Ref)

/-- The items of an array. The language limits their number. -/
abbrev Items := {items : List Value // items.length < 2 ^ 32}

/-- What an object holds: keyed values in the order in which they were added. -/
inductive Node where
  | array (items : Items)
  | map (entries : List (JsString × Value))
  | set (items : Items)
  | object (members : List (JsString × Value))

abbrev Heap := Ref → Node

/-- The objects of a `WeakSet`. -/
abbrev Seen := List Ref

/-! ## Field names -/

def REDACTED : JsString := js "[redacted]"

def REDACTED_NID : JsString := js "[redacted-nid]"

def TRUNCATED : JsString := js "…[truncated]"

def DENIED_FIELD_NAMES : List String :=
  [ -- Biometrics.
    "sample", "samples", "biometric", "biometricsample", "reference", "referencebiometric", "referencetemplate",
    "template", "liveness", "faceimage", "fingerprint",
    -- The raw national identity number.
    "nid", "rawnid", "nationalid", "nationalidnumber", "idnumber",
    -- Credentials and tokens.
    "token", "tokens", "accesstoken", "idtoken", "refreshtoken", "sessiontoken", "authorization",
    "proxyauthorization", "cookie", "setcookie", "bearer", "jwt", "assertion", "clientsecret", "secret", "password",
    "passphrase", "apikey", "credentials", "credentialsjson", "privatekey", "privatejwk", "p8", "pepper", "salt",
    "pairwisesalt",
    -- Challenge material.
    "nonce", "challenge", "challengepayload", "payload", "signature", "code", "codeverifier", "authreqid", "pushtoken",
    "devicetoken", "registrationtoken",
    -- Attestation blobs.
    "attestationtoken", "keyattestation", "integritytoken"]

/-- `toLowerCase`, as far as a name in ASCII can tell: beyond `A` to `Z`, only the Kelvin sign and the dotted `I` have a
lower case with an ASCII letter in it. -/
def lowerUnit (u : UInt16) : JsString :=
  if 0x41 ≤ u ∧ u ≤ 0x5a then [u + 0x20]
  else if u = 0x212a then [0x6b]
  else if u = 0x130 then [0x69, 0x307]
  else [u]

/-- `[_\-\s]`. -/
def isSkipped (u : UInt16) : Bool := u = 0x5f || u = 0x2d || isJsSpace (Char.ofNat u.toNat)

/-- `normalizeKey`. -/
def normalizeKey (key : JsString) : JsString := (key.flatMap lowerUnit).filter fun u => !isSkipped u

def DENIED : List JsString := DENIED_FIELD_NAMES.map fun name => normalizeKey (js name)

/-- `isDeniedField`. -/
def isDeniedField (key : JsString) : Bool := decide (normalizeKey key ∈ DENIED)

example : ["pushToken", "push_token", "PUSH-TOKEN", "deviceLabel"].map (fun key => isDeniedField (js key)) =
    [true, true, true, false] := by
  decide

/-! ## Leaves -/

/-- The shortest run of digits that is scrubbed. -/
def NID_LENGTH : ℕ := 16

def MAX_STRING_LENGTH : ℕ := 512

def MAX_DEPTH : ℕ := 6

def MAX_ARRAY_ITEMS : ℕ := 32

def MAX_OBJECT_KEYS : ℕ := 64

/-- `scrubString`. -/
def scrubString (value : JsString) : JsString :=
  let scrubbed := replaceRuns isDigitUnit NID_LENGTH REDACTED_NID value
  if MAX_STRING_LENGTH < scrubbed.length then scrubbed.take MAX_STRING_LENGTH ++ TRUNCATED else scrubbed

/-- The decimal digits of a number. -/
def digitUnits (n : ℕ) : JsString := units (Nat.toDigits 10 n)

/-- `String(value)` for a number. -/
def numberUnits : JsNumber → JsString
  | .nonFinite => js "NaN"
  | n => units (numberText n)

/-- `toString` for a bigint. -/
def bigintUnits (n : ℤ) : JsString := if n < 0 then 0x2d :: digitUnits n.natAbs else digitUnits n.natAbs

/-- A text as a value. -/
def textLeaf (text : JsString) : JsTree := .leaf (.string text)

/-- The stack of an error, if it is not empty. -/
def stackLeaf : Option JsString → JsTree
  | none => .leaf .undefined
  | some [] => .leaf .undefined
  | some stack => textLeaf (scrubString stack)

/-- `redactInner` for a value that it does not enter. -/
def redactLeaf : Leaf → Except JsError JsTree
  | .primitive .null => .ok (.leaf .null)
  | .primitive .undefined => .ok (.leaf .undefined)
  | .primitive (.string text) => .ok (textLeaf (scrubString text))
  | .primitive (.bool b) => .ok (.leaf (.bool b))
  | .primitive (.number n) =>
    .ok (if HasRun isDigitUnit NID_LENGTH (numberUnits n) then textLeaf REDACTED_NID else .leaf (.number n))
  | .primitive (.bigint n) => .ok (textLeaf (scrubString (bigintUnits n)))
  | .primitive .function => .ok (textLeaf REDACTED)
  | .primitive .symbol => .ok (textLeaf REDACTED)
  | .binary byteLength => .ok (textLeaf (js "[binary " ++ digitUnits byteLength ++ js " bytes]"))
  -- `toISOString` throws for an invalid date.
  | .date none => .error .rangeError
  | .date (some time) => .ok (textLeaf (units (toISOString time.val)))
  | .error name message stack =>
    .ok (.object [(js "name", textLeaf name), (js "message", textLeaf (scrubString message)),
      (js "stack", stackLeaf stack)])

/-! ## The walk -/

def CIRCULAR : JsString := js "[circular]"

def DEPTH_LIMIT : JsString := js "[depth-limit]"

def KEY_LIMIT : JsString := js "[key-limit]"

/-- The key that stands for the keys over the limit. -/
def ELLIPSIS : JsString := js "…"

/-- The item that stands for the items over the limit. -/
def moreText (n : ℕ) : JsString := js "[+" ++ digitUnits (n - MAX_ARRAY_ITEMS) ++ js " more]"

/-- The key whose assignment sets the prototype, and adds no member. -/
def isProto (key : JsString) : Bool := decide (key = js "__proto__")

/-- `Object.fromEntries`. -/
def fromEntries {β : Type} (entries : List (JsString × β)) : List (JsString × β) :=
  assignFrom (fun _ => false) [] entries

/-- `out[key] = value`. -/
def setProperty {β : Type} (key : JsString) (value : β) (out : List (JsString × β)) : List (JsString × β) :=
  if isProto key then out else assign key value out

section Copies

variable (inner : Value → Seen → Except JsError (JsTree × Seen))

/-- The copies of the items of an array. -/
def redactItems : List Value → Seen → Except JsError (List JsTree × Seen)
  | [], seen => .ok ([], seen)
  | v :: items, seen => do
    let (t, seen) ← inner v seen
    let (ts, seen) ← redactItems items seen
    return (t :: ts, seen)

/-- The array branch of `redactInner`. -/
def redactArray (items : List Value) (seen : Seen) : Except JsError (JsTree × Seen) := do
  let (ts, seen) ← redactItems inner (items.take MAX_ARRAY_ITEMS) seen
  return (.array (if MAX_ARRAY_ITEMS < items.length then ts ++ [textLeaf (moreText items.length)] else ts), seen)

/-- The loop over the members of an object, after `keys` of them. -/
def redactMembers : ℕ → List (JsString × Value) → List (JsString × JsTree) → Seen →
    Except JsError (List (JsString × JsTree) × Seen)
  | _, [], out, seen => .ok (out, seen)
  | keys, (k, v) :: members, out, seen =>
    if MAX_OBJECT_KEYS ≤ keys then .ok (setProperty ELLIPSIS (textLeaf KEY_LIMIT) out, seen)
    else if isDeniedField k then redactMembers (keys + 1) members (setProperty k (textLeaf REDACTED) out) seen
    else do
      let (t, seen) ← inner v seen
      redactMembers (keys + 1) members (setProperty k t out) seen

/-- The object branch of `redactInner`. -/
def redactObject (members : List (JsString × Value)) (seen : Seen) : Except JsError (JsTree × Seen) := do
  let (out, seen) ← redactMembers inner 0 (ownOrder members) [] seen
  return (.object out, seen)

/-- The branches of `redactInner` for an object. A map is copied as an object, and a set as an array. -/
def redactNode (node : Node) (seen : Seen) : Except JsError (JsTree × Seen) :=
  match node with
  | .array items => redactArray inner items.val seen
  | .map entries => redactObject inner (fromEntries entries) seen
  | .set items => redactArray inner items.val seen
  | .object members => redactObject inner members seen

end Copies

/-- `redactInner`, with the levels that are left of `MAX_DEPTH`. -/
def redactInner (heap : Heap) : ℕ → Value → Seen → Except JsError (JsTree × Seen)
  | _, .leaf l, seen => do
    let t ← redactLeaf l
    return (t, seen)
  | 0, .ref r, seen => .ok (textLeaf (if r ∈ seen then CIRCULAR else DEPTH_LIMIT), seen)
  | levels + 1, .ref r, seen =>
    if r ∈ seen then .ok (textLeaf CIRCULAR, seen)
    else redactNode (redactInner heap levels) (heap r) (r :: seen)

/-- `redact`. -/
def redact (heap : Heap) (value : Value) : Except JsError JsTree := do
  let (t, _) ← redactInner heap MAX_DEPTH value []
  return t

end SdidBridge.Logging
