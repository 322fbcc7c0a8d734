import SdidBridge.Attestation.KeyDescription
import SdidBridge.Attestation.Verifiers

/-!
# The readers of App Attest

What `app-attest.ts` reads with the CBOR reader and the DER reader: the attestation object, the certified
nonce, and the key in the authenticator's data. A reader answers the message that it throws.
-/

namespace SdidBridge.Attestation

/-! ## Values -/

/-- `decodeCbor` without limits of the caller's. What is too long for an array is over the limit on bytes. -/
def decodeCborBytes (bytes : Bytes) : Except CborError CborValue :=
  match decodeWith utf8Decoder DEFAULT_CBOR_LIMITS bytes with
  | .ok value => .ok value
  | .error (.raised error) => .error error
  | .error .fault => .error (cborError "unexpected end of input")

/-- `get` of a map. -/
def cborGet (entries : List (CborKey × CborValue)) (key : CborKey) : Option CborValue :=
  (entries.find? fun e => e.1 = key).map Prod.snd

/-- `cborAsMap`. -/
def cborAsMap (value : Option CborValue) (what : String) : Except CborError (List (CborKey × CborValue)) :=
  match value with
  | some (.map entries) => .ok entries
  | _ => .error (cborError s!"{what} is not a map")

/-- `cborAsBytes`. -/
def cborAsBytes (value : Option CborValue) (what : String) : Except CborError Bytes :=
  match value with
  | some (.bytes b) => .ok b
  | _ => .error (cborError s!"{what} is not a byte string")

/-- `cborAsText`. -/
def cborAsText (value : Option CborValue) (what : String) : Except CborError String :=
  match value with
  | some (.text s) => .ok s
  | _ => .error (cborError s!"{what} is not a text string")

/-- `cborAsArray`. -/
def cborAsArray (value : Option CborValue) (what : String) : Except CborError (List CborValue) :=
  match value with
  | some (.array items) => .ok items
  | _ => .error (cborError s!"{what} is not an array")

/-- The message of an error. -/
def cborThrowing {α : Type} (x : Except CborError α) : Except String α := x.mapError CborError.message

/-! ## The attestation object -/

/-- The format of App Attest. -/
def APP_ATTEST_FMT : String := "apple-appattest"

/-- The certificates of the statement, from the certificate `index` on. -/
def readX5c : ℕ → List CborValue → Except CborError (List Bytes)
  | _, [] => .ok []
  | index, entry :: rest => do
    let der ← cborAsBytes (some entry) s!"x5c[{index}]"
    let ders ← readX5c (index + 1) rest
    return der :: ders

/-- `decodeAttestationObject`. -/
def decodeAttestationObject (bytes : Bytes) : Except String AttestationObject := do
  let value ← cborThrowing (decodeCborBytes bytes)
  let root ← cborThrowing (cborAsMap (some value) "attestation object")
  let fmt ← cborThrowing (cborAsText (cborGet root (.text "fmt")) "fmt")
  if fmt ≠ APP_ATTEST_FMT then throw ("unexpected fmt " ++ String.ofList (quote fmt))
  let attStmt ← cborThrowing (cborAsMap (cborGet root (.text "attStmt")) "attStmt")
  let x5cRaw ← cborThrowing (cborAsArray (cborGet attStmt (.text "x5c")) "x5c")
  if x5cRaw = [] then throw "x5c is empty"
  let x5c ← cborThrowing (readX5c 0 x5cRaw)
  let authData ← cborThrowing (cborAsBytes (cborGet root (.text "authData")) "authData")
  match cborGet attStmt (.text "receipt") with
  | none => return { x5c, receipt := none, authData }
  | some .undefined => return { x5c, receipt := none, authData }
  | some value =>
    let receipt ← cborThrowing (cborAsBytes (some value) "receipt")
    return { x5c, receipt := some receipt, authData }

/-- `decodeAttestationObject` of the bytes that a token is the base64 of. -/
def decodeToken (token : String) : Except String AttestationObject := do
  let bytes ← decodeBase64Strict token "app attest object"
  decodeAttestationObject bytes

/-! ## The nonce and the key -/

/-- `parseNonceExtension`. -/
def parseNonceExtension (der : Bytes) : Except String Bytes := do
  let node ← throwing (parseDerBytes der)
  let fields ← throwing (derSequence node "app attest nonce extension")
  match fields with
  | [] => throw "nonce extension is empty"
  | first :: _ =>
    let inner ← throwing (derExplicit first "nonce")
    throwing (derOctetString inner "nonce")

/-- `coseKeyToRawPoint`. -/
def coseKeyToRawPoint (bytes : Bytes) : Except String Bytes := do
  let value ← cborThrowing (decodeCborBytes bytes)
  let key ← cborThrowing (cborAsMap (some value) "COSE key")
  match cborGet key (.number 1) with
  | some (.number 2) => pure ()
  | _ => throw "COSE key is not EC2"
  match cborGet key (.number (-1)) with
  | some (.number 1) => pure ()
  | _ => throw "COSE key is not P-256"
  let x ← cborThrowing (cborAsBytes (cborGet key (.number (-2))) "COSE key x")
  let y ← cborThrowing (cborAsBytes (cborGet key (.number (-3))) "COSE key y")
  if x.length ≠ 32 ∨ y.length ≠ 32 then throw "COSE key coordinates must be 32 bytes"
  return 0x04 :: (x ++ y)

end SdidBridge.Attestation
