import SdidBridge.Concurrent.System
import SdidBridge.Keys.Custody
import SdidBridge.Keys.Signatures
import SdidBridge.Shared.JsMap

/-!
# Custody of the signing keys in a remote backend

`AdapterBackedKeyCustody` stands before a key service or an HSM that a deployment supplies as an adapter object. It holds
the public halves of the keys that the adapter has listed, and asks the adapter for every signature. The calls of one
instance share its three fields, and between two awaits one call runs alone, so a command on the fields is what a call does
to them in one go. What an adapter answers, or throws, is for the environment to decide.
-/

namespace SdidBridge.Keys.Remote

open Concurrent Prog Attestation

/-! ## The adapter -/

/-- What an adapter throws: an `Error` with its message, or something else. -/
inductive Thrown where
  | error (message : String)
  | other

/-- `err instanceof Error ? err.message : 'unknown'`. -/
def Thrown.text : Thrown → String
  | .error message => message
  | .other => "unknown"

/-- `RemoteKeyDescriptor`: a key as the backend knows it. -/
structure RemoteKeyDescriptor where
  /-- The handle of the backend. -/
  keyRef : String
  /-- The id that is published. -/
  kid : String
  /-- The algorithm. -/
  alg : SigningAlg
  /-- Whether it signs. -/
  status : KeyStatus
  /-- When it was made, if the backend knows. -/
  createdAt : Option ℕ

/-- A JSON Web Key: the members of the object. -/
abbrev Jwk := List (String × JsValue)

/-- A public key as a backend gives it. -/
inductive Material where
  /-- A JSON Web Key. -/
  | jwk (members : Jwk)
  /-- A `SubjectPublicKeyInfo`. -/
  | spki (der : Bytes)

/-- `RemoteCustodyAdapter`: which object it is, its name, and which of the optional methods it has. -/
structure RemoteCustodyAdapter where
  /-- Which object. -/
  object : ℕ
  /-- The name of the backend. -/
  name : String
  /-- Whether it has `rotate`. -/
  rotates : Bool
  /-- Whether it has `health`. -/
  reportsHealth : Bool
  /-- Whether it has `close`. -/
  closes : Bool

/-! ## The fields of an instance -/

/-- `SigningKeyDescriptor`. -/
structure SigningKeyDescriptor where
  /-- The id. -/
  kid : String
  /-- The algorithm. -/
  alg : SigningAlg
  /-- Whether it signs. -/
  status : KeyStatus
  /-- When it was made. -/
  createdAt : ℕ

/-- `CachedKey`. -/
structure CachedKey where
  /-- The key as the backend lists it. -/
  remote : RemoteKeyDescriptor
  /-- What operators are told of it. -/
  descriptor : SigningKeyDescriptor
  /-- What is published of it. -/
  publicJwk : Jwk

/-- What a reload reads: the keys by their ids, and the first that is active. -/
structure KeySet where
  /-- The keys. -/
  keys : List (String × CachedKey)
  /-- The active key. -/
  active : Option String

/-- No keys. -/
def KeySet.empty : KeySet := ⟨[], none⟩

/-- One round of the loop of `reload`. -/
def KeySet.add (x : KeySet) (k : CachedKey) : KeySet where
  keys := JsMap.set k.remote.kid k x.keys
  active := if k.remote.status = .active ∧ x.active = none then some k.remote.kid else x.active

/-- `CustodyEvent`, with the key that was active before a promotion. -/
structure RemoteEvent where
  /-- What happened. -/
  type : CustodyEventType
  /-- To which key. -/
  kid : String
  /-- Its algorithm. -/
  alg : SigningAlg
  /-- `detail.previousActiveKid`, of an event that has a detail. -/
  previousActiveKid : Option (Option String)

/-- The fields of an instance, and what its listeners have been told. -/
structure Fields where
  /-- The adapter, once it is built. -/
  adapter : Option RemoteCustodyAdapter
  /-- The keys and the active one. -/
  keySet : KeySet
  /-- The events, oldest first. -/
  emitted : List RemoteEvent

/-- `capabilities.rotate`. -/
def Fields.rotates (x : Fields) : Bool := x.adapter.any (·.rotates)

/-! ## The commands -/

/-- A command of a call. -/
inductive Op where
  /-- `factory()`. -/
  | factory
  /-- `adapter.listKeys()`. -/
  | listKeys (a : RemoteCustodyAdapter)
  /-- `adapter.getPublicKey(key)`. -/
  | getPublicKey (a : RemoteCustodyAdapter) (key : RemoteKeyDescriptor)
  /-- `adapter.sign({ key, data })`. -/
  | sign (a : RemoteCustodyAdapter) (key : RemoteKeyDescriptor) (data : Bytes)
  /-- `adapter.rotate()`. -/
  | rotate (a : RemoteCustodyAdapter)
  /-- `adapter.health()`. -/
  | health (a : RemoteCustodyAdapter)
  /-- `adapter.close()`. -/
  | closeAdapter (a : RemoteCustodyAdapter)
  /-- `this.adapter = ...`. -/
  | setAdapter (a : RemoteCustodyAdapter)
  /-- Read the fields. -/
  | view
  /-- The end of `reload`. -/
  | install (x : KeySet)
  /-- Tell the listeners, and read the fields. -/
  | emit (events : List RemoteEvent)
  /-- The start of `close`: forget everything, and read which adapter there was. -/
  | clear

/-- The answer of a backend to `health`. -/
structure BackendHealth where
  /-- Whether it can sign. -/
  healthy : Bool
  /-- What it says. -/
  detail : Option String

/-- The answer of a backend to `rotate`. -/
structure BackendRotation where
  /-- The key that was promoted. -/
  promotedKid : String
  /-- The keys that were retired. -/
  retiredKids : List String

/-- The answers. -/
@[reducible] def Op.Res : Op → Type
  | .factory => Except Thrown RemoteCustodyAdapter
  | .listKeys _ => Except Thrown (List RemoteKeyDescriptor)
  | .getPublicKey _ _ => Except Thrown Material
  | .sign _ _ _ => Except Thrown Bytes
  | .rotate _ => Except Thrown BackendRotation
  | .health _ => Except Thrown BackendHealth
  | .closeAdapter _ => Except Thrown Unit
  | .setAdapter _ => Unit
  | .view => Fields
  | .install _ => Unit
  | .emit _ => Fields
  | .clear => Option RemoteCustodyAdapter

/-- What the environment decides. -/
inductive Answer where
  | factory (r : Except Thrown RemoteCustodyAdapter)
  | listKeys (r : Except Thrown (List RemoteKeyDescriptor))
  | getPublicKey (r : Except Thrown Material)
  | sign (r : Except Thrown Bytes)
  | rotate (r : Except Thrown BackendRotation)
  | health (r : Except Thrown BackendHealth)
  | closeAdapter (r : Except Thrown Unit)
  /-- A command on the fields. -/
  | fields

/-- Execute a command. -/
def Op.exec : Answer → Fields → (o : Op) → Option (Option o.Res × Fields)
  | .factory r, x, .factory => some (some r, x)
  | .listKeys r, x, .listKeys _ => some (some r, x)
  | .getPublicKey r, x, .getPublicKey _ _ => some (some r, x)
  | .sign r, x, .sign _ _ _ => some (some r, x)
  | .rotate r, x, .rotate _ => some (some r, x)
  | .health r, x, .health _ => some (some r, x)
  | .closeAdapter r, x, .closeAdapter _ => some (some r, x)
  | .fields, x, .setAdapter a => some (some (), { x with adapter := some a })
  | .fields, x, .view => some (some x, x)
  | .fields, x, .install keySet => some (some (), { x with keySet })
  | .fields, x, .emit events =>
    some (some { x with emitted := x.emitted ++ events }, { x with emitted := x.emitted ++ events })
  | .fields, x, .clear => some (some x.adapter, { x with adapter := none, keySet := .empty })
  | _, _, _ => none

/-! ## The methods -/

/-- What a method throws. -/
inductive Failure where
  /-- `KeyCustodyUnavailableError`. -/
  | unavailable (message : String)
  /-- `KeyCustodySigningError`. -/
  | signing (kid message : String)
  /-- `KeyCustodyRotationUnsupportedError`. -/
  | rotationUnsupported (message : String)
  /-- A `TypeError`: a property of `null` is read. -/
  | typeError
  /-- What the adapter has thrown. -/
  | thrown (e : Thrown)

/-- `err instanceof Error ? err.message : 'unknown'`. The message of a `TypeError` is the engine's. -/
def Failure.text : Failure → String
  | .unavailable message => message
  | .signing _ message => message
  | .rotationUnsupported message => message
  | .typeError => "Cannot read properties of null (reading 'name')"
  | .thrown e => e.text

/-- A part of a method. -/
abbrev Call := Prog Op Op.Res Failure

/-- `KeyCustodyProvider`, of the two that have a remote backend. -/
inductive KeyCustodyProvider where
  | kms
  | hsm
  deriving DecidableEq

/-- What an instance is made with, and the key export of the runtime. -/
structure Setup where
  /-- Which boundary it is. -/
  provider : KeyCustodyProvider
  /-- `createPublicKey({ key, format: 'der', type: 'spki' }).export({ format: 'jwk' })`. -/
  exportSpki : Bytes → Except Thrown Jwk

/-- Issue a command. None of them fails but by what it answers. -/
def await (o : Op) : Call o.Res := perform (.thrown .other) o

/-- The value of an answer, or what was thrown. -/
def rethrow {α : Type} : Except Thrown α → Call α
  | .ok a => pure a
  | .error e => throwing (.thrown e)

/-- An `Error` of the engine's own. -/
def plain {α : Type} : Except String α → Call α
  | .ok a => pure a
  | .error message => throwing (.thrown (.error message))

/-- The members of a public key, in the form that it was given. -/
def Material.members (C : Setup) : Material → Except Thrown Jwk
  | .spki der => C.exportSpki der
  | .jwk members => .ok members

/-- The stamp of `toPublicJwk`: the members of the descriptor, and no private one. -/
def stamp (remote : RemoteKeyDescriptor) (jwk : Jwk) : Jwk :=
  let jwk := JsMap.set "kid" (.str remote.kid) jwk
  let jwk := JsMap.set "alg" (.str remote.alg.text) jwk
  let jwk := JsMap.set "use" (.str "sig") jwk
  JsMap.delete "d" jwk

/-- `toPublicJwk`. -/
def toPublicJwk (C : Setup) (material : Material) (remote : RemoteKeyDescriptor) : Except Thrown Jwk := do
  let jwk ← material.members C
  return stamp remote jwk

/-- What operators are told of a key. -/
def describe (remote : RemoteKeyDescriptor) : SigningKeyDescriptor where
  kid := remote.kid
  alg := remote.alg
  status := remote.status
  createdAt := remote.createdAt.getD 0

/-- `requireAdapter`. -/
def requireAdapter (x : Fields) : Call RemoteCustodyAdapter :=
  orThrow x.adapter
    (.unavailable "custody adapter has not been initialised — init() must run before any signing")

/-- `this.adapter.name`. -/
def adapterName (x : Fields) : Call String :=
  (orThrow x.adapter .typeError) >>= fun a => pure a.name

/-- The loop of `reload`. -/
def loadKeys (C : Setup) (a : RemoteCustodyAdapter) : KeySet → List RemoteKeyDescriptor → Call KeySet
  | x, [] => pure x
  | x, remote :: remotes => do
    let answer ← await (.getPublicKey a remote)
    let material ← rethrow answer
    let publicJwk ← rethrow (toPublicJwk C material remote)
    loadKeys C a (x.add ⟨remote, describe remote, publicJwk⟩) remotes

/-- `reload`, from where it has its adapter. -/
def reloadFrom (C : Setup) (a : RemoteCustodyAdapter) : Call Unit := do
  let answer ← await (.listKeys a)
  let remotes ← rethrow answer
  let x ← loadKeys C a .empty remotes
  await (.install x)

/-- `reload`. -/
def reload (C : Setup) : Call Unit := do
  let x ← await .view
  let a ← requireAdapter x
  reloadFrom C a

/-- `init`. -/
def init (C : Setup) : Call Unit := do
  let answer ← await .factory
  let a ← rethrow answer
  await (.setAdapter a)
  reloadFrom C a
  let x ← await .view
  onlyIf (x.keySet.active = none) do
    let name ← adapterName x
    throwing (.unavailable (name ++ " exposes " ++ toString x.keySet.keys.length ++ " key(s) but none is active — " ++
      "the broker cannot mint tokens. Provision and activate an ES256 signing key in the custody " ++
      "backend; the broker will not create one for you (06 §3)."))

/-- `activeKid`. -/
def activeKid : Call String := do
  let x ← await .view
  orThrow x.keySet.active (.unavailable "no active signing key in custody")

/-- `listPublicJwks`. -/
def listPublicJwks : Call (List Jwk) := do
  let x ← await .view
  return x.keySet.keys.map (·.2.publicJwk)

/-- `listKeys`. -/
def listKeys : Call (List SigningKeyDescriptor) := do
  let x ← await .view
  return x.keySet.keys.map (·.2.descriptor)

/-- The key to sign with, after one reload if it is not there. -/
def keyToSign (C : Setup) (x : Fields) (a : RemoteCustodyAdapter) (kid : String) : Call CachedKey :=
  match JsMap.get kid x.keySet.keys with
  | some cached => pure cached
  | none => do
    reloadFrom C a
    let x ← await .view
    orThrow (JsMap.get kid x.keySet.keys) (.signing kid ("no key with kid=" ++ kid ++ " in custody"))

/-- The answer to a request for a signature, or the error that names the backend. -/
def signatureOf (a : RemoteCustodyAdapter) (kid : String) : Except Thrown Bytes → Call Bytes
  | .ok raw => pure raw
  | .error e => throwing (.signing kid (a.name ++ " refused the signature: " ++ e.text))

/-- `assertJwsSignatureShape`. -/
def assertJwsSignatureShape (signature : Bytes) (alg : SigningAlg) : Except String Unit :=
  let expected := ALG_COORDINATE_BYTES alg * 2
  if signature.length ≠ expected then
    .error ("custody returned a " ++ toString signature.length ++ "-byte signature; " ++ alg.text ++
      " JWS requires exactly " ++ toString expected ++ " bytes of raw r||s (see the DER note in key-custody.ts)")
  else .ok ()

/-- `sign`. -/
def sign (C : Setup) (kid : String) (data : Bytes) : Call Bytes := do
  let x ← await .view
  let a ← requireAdapter x
  let cached ← keyToSign C x a kid
  let answer ← await (.sign a cached.remote data)
  let raw ← signatureOf a kid answer
  let signature ← plain (normalizeEcdsaSignature raw cached.descriptor.alg)
  plain (assertJwsSignatureShape signature cached.descriptor.alg)
  return signature

/-- `CustodyHealth`. -/
structure CustodyHealth where
  /-- Whether this replica can sign. -/
  healthy : Bool
  /-- Which boundary it is. -/
  provider : KeyCustodyProvider
  /-- The active key. -/
  activeKid : Option String
  /-- What operators are told. -/
  detail : String

/-- The body of the `try` of `healthCheck`: a verdict that ends it, or none. -/
def probe (C : Setup) (a : RemoteCustodyAdapter) : Call (Option CustodyHealth) :=
  if a.reportsHealth then do
    let answer ← await (.health a)
    let result ← rethrow answer
    let x ← await .view
    if result.healthy then do
      let b ← requireAdapter x
      reloadFrom C b
      return none
    else do
      let detail ← match result.detail with
        | some detail => pure detail
        | none => adapterName x >>= fun name => pure (name ++ " reported unhealthy")
      return some ⟨false, C.provider, x.keySet.active, detail⟩
  else do
    reloadFrom C a
    return none

/-- The `catch` of `healthCheck`. A `TypeError` comes from a field that is `null`, and reading it again is another. -/
def probeFailed (C : Setup) : Failure → Call (Option CustodyHealth)
  | .typeError => throwing .typeError
  | err => do
    let x ← await .view
    let name ← adapterName x
    return some ⟨false, C.provider, x.keySet.active, name ++ ": " ++ err.text⟩

/-- What `healthCheck` says after the reload. -/
def verdict (C : Setup) (x : Fields) : Call CustodyHealth := do
  let name ← adapterName x
  if x.keySet.active = none then return ⟨false, C.provider, none, name ++ " has no active key"⟩
  else return ⟨true, C.provider, x.keySet.active, name ++ ": " ++ toString x.keySet.keys.length ++ " key(s)"⟩

/-- `healthCheck`. -/
def healthCheck (C : Setup) : Call CustodyHealth := do
  let x ← await .view
  match x.adapter with
  | none => return ⟨false, C.provider, none, "custody adapter has not been initialised"⟩
  | some a =>
    let early ← (probe C a).recover (probeFailed C)
    match early with
    | some health => return health
    | none =>
      let x ← await .view
      verdict C x

/-- `RotationResult`. -/
structure RotationResult where
  /-- The key that was promoted. -/
  promotedKid : String
  /-- The keys that were retired. -/
  retiredKids : List String
  /-- The algorithm of the one that was promoted. -/
  alg : SigningAlg

/-- The events of a rotation. -/
def rotationEvents (result : BackendRotation) (before : Option String) : List RemoteEvent :=
  result.retiredKids.map (fun kid => ⟨.keyRetired, kid, .ES256, none⟩) ++
    [⟨.keyPromoted, result.promotedKid, .ES256, some before⟩]

/-- `rotate`. -/
def rotate (C : Setup) : Call RotationResult := do
  let x ← await .view
  let a ← requireAdapter x
  throwIf (a.rotates = false) (.rotationUnsupported (a.name ++
    " does not support programmatic rotation. This is normal for an HSM whose keys are created in a custodian " ++
    "ceremony: rotate out-of-band, then the broker picks the new active key up on its next health check. Supply a " ++
    "rotate() on the adapter if the backend can do it under our own credential."))
  let before := x.keySet.active
  let answer ← await (.rotate a)
  let result ← rethrow answer
  reload C
  let x ← await (.emit (rotationEvents result before))
  let alg := ((JsMap.get result.promotedKid x.keySet.keys).map (·.descriptor.alg)).getD .ES256
  return ⟨result.promotedKid, result.retiredKids, alg⟩

/-- `close`. -/
def close : Call Unit := do
  let adapter ← await .clear
  match adapter with
  | some a => onlyIf (a.closes = true) do
      let answer ← await (.closeAdapter a)
      rethrow answer
  | none => pure ()

/-! ## The instance -/

/-- The calls of an instance. -/
inductive Request where
  | init
  | activeKid
  | listPublicJwks
  | listKeys
  | sign (kid : String) (data : Bytes)
  | healthCheck
  | rotate
  | close

/-- What they return. -/
inductive Reply where
  | done
  | kid (kid : String)
  | jwks (keys : List Jwk)
  | keys (keys : List SigningKeyDescriptor)
  | signature (bytes : Bytes)
  | health (h : CustodyHealth)
  | rotation (r : RotationResult)

/-- The programs that serve the calls. -/
def handler (C : Setup) : Request → Call Reply
  | .init => init C >>= fun _ => pure .done
  | .activeKid => activeKid >>= fun kid => pure (.kid kid)
  | .listPublicJwks => listPublicJwks >>= fun keys => pure (.jwks keys)
  | .listKeys => listKeys >>= fun keys => pure (.keys keys)
  | .sign kid data => sign C kid data >>= fun bytes => pure (.signature bytes)
  | .healthCheck => healthCheck C >>= fun h => pure (.health h)
  | .rotate => rotate C >>= fun r => pure (.rotation r)
  | .close => close >>= fun _ => pure .done

/-- An instance. -/
def custody (C : Setup) : Machine Op Op.Res Failure Reply Request Fields Answer where
  handler := handler C
  exec := Op.exec
  fallible _ := false
  env _ _ := none
  init := ⟨none, .empty, []⟩

/-- A step of an instance, with the fields before it. -/
abbrev Step := Entry Op Op.Res Request Fields

/-- A run of an instance. -/
abbrev Run := List Step

/-- The fields and the calls of an instance. -/
abbrev State := Concurrent.Config Op Op.Res Failure Reply Fields

/-- A command with its answer. -/
abbrev Cmd := Act Op Op.Res

end SdidBridge.Keys.Remote
