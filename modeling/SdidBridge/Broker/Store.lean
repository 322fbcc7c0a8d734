import SdidBridge.Broker.Schema
import SdidBridge.Concurrent.Object
import SdidBridge.Concurrent.Table

/-!
# The broker's store and its commands

Each table of Postgres, each key space of Redis, and each service that the broker calls is an object
with its own commands. A command is one SQL statement, one Redis command, or one call of a service,
and is executed at once. An SQL parameter that a request spelled is a text, and the statement fails
when the text is no uuid; an insert fails on a key that is taken. Rows are never deleted, so that
the references between tables hold once a row is inserted with ids that were read, and are not
checked again.

A random text is one that was not drawn before, and a token is one that was not signed before: that
is what it means here that nobody guesses an id or a token.
-/

namespace SdidBridge

open Concurrent

/-- What the environment decides: values that are drawn at random, and the answers of services. -/
inductive Oracle where
  /-- Nothing is decided. -/
  | unit
  /-- A uuid is drawn. -/
  | uuid (u : Uuid)
  /-- A text is drawn. -/
  | text (s : String)
  /-- A token and its id are drawn. -/
  | token (token jti : String)
  /-- Time passes. -/
  | elapse (ms : ℕ)
  /-- SDID answers with a reference biometric. -/
  | reference (a : SdidAnswer ReferenceBiometric)
  /-- SDID answers a re-assertion. -/
  | reassert (r : ReassertResult)
  /-- SDID answers with attributes. -/
  | attributes (a : SdidAnswer AttributeSet)
  /-- The match engine answers. -/
  | matched (r : MatchResult)
  /-- A platform verifier answers. -/
  | attestation (r : AttestationResult)
  /-- A push service answers. -/
  | push (r : PushOutcome)

/-! ## The clock and the random source -/

/-- Whether a uuid has the version and the variant that `uuidv7` sets. -/
def Uuid.isV7 (u : Uuid) : Bool :=
  u.digits[12]? == some 7 && (match u.digits[16]? with
    | some d => 8 ≤ d.val && d.val < 12
    | none => false)

/-- How random bytes are written. -/
inductive Encoding where
  | hex
  | base64url
  deriving DecidableEq

/-- Whether a text is one of `n` bytes in the encoding. -/
def Encoding.spells (e : Encoding) (n : ℕ) (s : String) : Bool :=
  match e with
  | .hex => s.toList.length == 2 * n && s.toList.all fun c => c.isDigit || ('a' ≤ c && c ≤ 'f')
  | .base64url => s.toList.length == (4 * n + 2) / 3 &&
      s.toList.all fun c => c.isAlphanum || c == '-' || c == '_'

/-- The commands of the process itself. -/
inductive AmbientOp where
  /-- `new Date()` and `Date.now()`. -/
  | now
  /-- `uuidv7()`. -/
  | uuidv7
  /-- `randomBytes(n).toString(encoding)`. -/
  | randomBytes (n : ℕ) (encoding : Encoding)

/-- Their answers. -/
@[reducible] def AmbientOp.Res : AmbientOp → Type
  | .now => Time
  | .uuidv7 => Uuid
  | .randomBytes _ _ => String

/-- The clock, and the random texts that have been drawn. -/
structure Ambient where
  /-- The time. -/
  now : Time
  /-- What has been drawn. -/
  drawn : List String

/-- Execute a command of the process. -/
def AmbientOp.exec (i : Oracle) (s : Ambient) : (o : AmbientOp) → Option (Option o.Res × Ambient)
  | .now => some (some s.now, s)
  | .uuidv7 =>
    match i with
    | .uuid u => if u.isV7 then some (some u, s) else none
    | _ => none
  | .randomBytes n encoding =>
    match i with
    | .text x =>
      if encoding.spells n x ∧ x ∉ s.drawn then some (some x, { s with drawn := x :: s.drawn })
      else none
    | _ => none

/-! ## The services -/

/-- The calls of services. -/
inductive ServiceOp where
  /-- `sdid.getReferenceBiometric`. -/
  | getReferenceBiometric (nid : String) (modality : Modality)
  /-- `sdid.reassert`. -/
  | reassert (subject : String)
  /-- `sdid.getAttributes`. -/
  | getAttributes (subject : String) (scopes : List String)
  /-- `matchEngine.match`. -/
  | matchSample (sample reference : String)
  /-- `verifiers[platform].verify`. -/
  | verifyAttestation (platform : DevicePlatform) (request : AttestationRequest)
  /-- `transport.send`. -/
  | sendPush (platform : PushPlatform) (token : String)
  /-- `webcrypto.subtle.verify` with the imported key: `false` also when the key does not import. -/
  | verifySignature (jwk : PublicKeyJwk) (payload signature : String)

/-- Their answers. -/
@[reducible] def ServiceOp.Res : ServiceOp → Type
  | .getReferenceBiometric _ _ => SdidAnswer ReferenceBiometric
  | .reassert _ => ReassertResult
  | .getAttributes _ _ => SdidAnswer AttributeSet
  | .matchSample _ _ => MatchResult
  | .verifyAttestation _ _ => AttestationResult
  | .sendPush _ _ => PushOutcome
  | .verifySignature _ _ _ => Bool

/-- Call a service: it answers what the environment decides, but for a signature, whose check is a
function of the key, the text, and the signature. -/
def ServiceOp.exec (verifies : PublicKeyJwk → String → String → Bool) (i : Oracle) :
    (o : ServiceOp) → Option (Option o.Res)
  | .getReferenceBiometric _ _ => match i with | .reference a => some (some a) | _ => none
  | .reassert _ => match i with | .reassert r => some (some r) | _ => none
  | .getAttributes _ _ => match i with | .attributes a => some (some a) | _ => none
  | .matchSample _ _ => match i with | .matched r => some (some r) | _ => none
  | .verifyAttestation _ _ => match i with | .attestation r => some (some r) | _ => none
  | .sendPush _ _ => match i with | .push r => some (some r) | _ => none
  | .verifySignature jwk payload signature => some (some (verifies jwk payload signature))

/-! ## The signing keys -/

/-- The commands of `KeysService`. -/
inductive JwtOp where
  /-- `signJwt`. -/
  | sign (claims : TokenClaims) (audience : String) (ttlSeconds : ℕ)
  /-- `verifyJwt`, which fails when the token is refused. -/
  | verify (token : String) (audience : Option String)

/-- Their answers. -/
@[reducible] def JwtOp.Res : JwtOp → Type
  | .sign _ _ _ => String
  | .verify _ _ => SignedJwt

/-- Sign or verify a token. Nobody else has the broker's keys: what verifies was signed here. -/
def JwtOp.exec (i : Oracle) (now : Time) (jwts : List SignedJwt) :
    (o : JwtOp) → Option (Option o.Res × List SignedJwt)
  | .sign claims audience ttl =>
    match i with
    | .token token jti =>
      if token ∈ jwts.map (·.token) then none
      else some (some token,
        { token, claims, aud := audience, iat := now / 1000, exp := now / 1000 + ttl, jti } :: jwts)
    | _ => none
  | .verify token audience =>
    some (jwts.find? fun j => j.token == token && (audience.all (· == j.aud)) &&
      decide (now / 1000 < j.exp), jwts)

/-! ## The key spaces of Redis -/

/-- A value that Redis keeps until a time, if one is set. -/
structure Timed (α : Type) where
  /-- The key. -/
  key : String
  /-- The value. -/
  value : α
  /-- When it expires. -/
  expiresAt : Option Time

/-- The live value under a key. -/
def lookup {α : Type} (now : Time) (k : String) (es : List (Timed α)) : Option α :=
  (es.find? fun e => e.key == k && e.expiresAt.all (now < ·)).map (·.value)

/-- The entries without a key. -/
def without {α : Type} (k : String) (es : List (Timed α)) : List (Timed α) :=
  es.filter fun e => e.key != k

/-- The commands of the challenges, `challenge:<id>`. -/
inductive ChallengeOp where
  /-- `SET ... EX`. -/
  | set (challengeId : String) (record : ChallengeRecord) (ttlSeconds : ℕ)
  /-- `GETDEL`. -/
  | getdel (challengeId : String)

/-- Their answers. -/
@[reducible] def ChallengeOp.Res : ChallengeOp → Type
  | .set _ _ _ => Unit
  | .getdel _ => Option ChallengeRecord

/-- Execute a command of the challenges. -/
def ChallengeOp.exec (now : Time) (es : List (Timed ChallengeRecord)) :
    (o : ChallengeOp) → Option o.Res × List (Timed ChallengeRecord)
  | .set k v ttl => (some (), ⟨k, v, some (now + ttl * 1000)⟩ :: without k es)
  | .getdel k => (some (lookup now k es), without k es)

/-- The commands of the attestation nonces, `attnonce:<id>`. -/
inductive NonceOp where
  /-- `SET ... EX`. -/
  | set (nonceId : String) (record : NonceRecord) (ttlSeconds : ℕ)
  /-- `GETDEL`. -/
  | getdel (nonceId : String)

/-- Their answers. -/
@[reducible] def NonceOp.Res : NonceOp → Type
  | .set _ _ _ => Unit
  | .getdel _ => Option NonceRecord

/-- Execute a command of the attestation nonces. -/
def NonceOp.exec (now : Time) (es : List (Timed NonceRecord)) :
    (o : NonceOp) → Option o.Res × List (Timed NonceRecord)
  | .set k v ttl => (some (), ⟨k, v, some (now + ttl * 1000)⟩ :: without k es)
  | .getdel k => (some (lookup now k es), without k es)

/-- The commands of the code flows, `codeflow:<authReqId>`. -/
inductive StashOp where
  /-- `SET ... EX`. -/
  | set (authReqId : String) (stash : CodeFlowStash) (ttlSeconds : ℕ)
  /-- `GET`. -/
  | get (authReqId : String)
  /-- `DEL`. -/
  | del (authReqId : String)

/-- Their answers. -/
@[reducible] def StashOp.Res : StashOp → Type
  | .set _ _ _ => Unit
  | .get _ => Option CodeFlowStash
  | .del _ => Unit

/-- Execute a command of the code flows. -/
def StashOp.exec (now : Time) (es : List (Timed CodeFlowStash)) :
    (o : StashOp) → Option o.Res × List (Timed CodeFlowStash)
  | .set k v ttl => (some (), ⟨k, v, some (now + ttl * 1000)⟩ :: without k es)
  | .get k => (some (lookup now k es), es)
  | .del k => (some (), without k es)

/-- The commands of the denylist and of the flags, `revoked:<jti>` and `anom:alerted:<key>`. -/
inductive FlagOp where
  /-- `SET ... EX`. -/
  | set (key : String) (ttlSeconds : ℕ)
  /-- `SET ... EX ... NX`: whether the flag was set. -/
  | setNx (key : String) (ttlSeconds : ℕ)
  /-- `GET`. -/
  | get (key : String)

/-- Their answers. -/
@[reducible] def FlagOp.Res : FlagOp → Type
  | .set _ _ => Unit
  | .setNx _ _ => Bool
  | .get _ => Bool

/-- Execute a command of the flags. -/
def FlagOp.exec (now : Time) (es : List (Timed Unit)) : (o : FlagOp) → Option o.Res × List (Timed Unit)
  | .set k ttl => (some (), ⟨k, (), some (now + ttl * 1000)⟩ :: without k es)
  | .setNx k ttl =>
    if (lookup now k es).isSome then (some false, es)
    else (some true, ⟨k, (), some (now + ttl * 1000)⟩ :: without k es)
  | .get k => (some (lookup now k es).isSome, es)

/-- The commands of the counters, `rl:<key>`, `lockout:<key>`, and `anom:<pattern>:<key>`. -/
inductive CounterOp where
  /-- `INCR`. -/
  | incr (key : String)
  /-- `EXPIRE`. -/
  | expire (key : String) (seconds : ℕ)
  /-- `GET`. -/
  | get (key : String)
  /-- `DEL`. -/
  | del (key : String)

/-- Their answers. -/
@[reducible] def CounterOp.Res : CounterOp → Type
  | .incr _ => ℕ
  | .expire _ _ => Unit
  | .get _ => Option ℕ
  | .del _ => Unit

/-- The expiry of the live entry under a key. -/
def expiryOf {α : Type} (now : Time) (k : String) (es : List (Timed α)) : Option Time :=
  (es.find? fun e => e.key == k && e.expiresAt.all (now < ·)).bind (·.expiresAt)

/-- Execute a command of the counters. -/
def CounterOp.exec (now : Time) (es : List (Timed ℕ)) : (o : CounterOp) → Option o.Res × List (Timed ℕ)
  | .incr k =>
    let n := (lookup now k es).getD 0 + 1
    (some n, ⟨k, n, expiryOf now k es⟩ :: without k es)
  | .expire k seconds =>
    match lookup now k es with
    | some n => (some (), ⟨k, n, some (now + seconds * 1000)⟩ :: without k es)
    | none => (some (), es)
  | .get k => (some (lookup now k es), es)
  | .del k => (some (), without k es)

/-- The commands of the sets, `anom:enrol:src:<handle>`. -/
inductive SetOp where
  /-- `SADD`. -/
  | sadd (key member : String)
  /-- `EXPIRE`. -/
  | expire (key : String) (seconds : ℕ)
  /-- `SCARD`. -/
  | scard (key : String)

/-- Their answers. -/
@[reducible] def SetOp.Res : SetOp → Type
  | .sadd _ _ => Unit
  | .expire _ _ => Unit
  | .scard _ => ℕ

/-- Execute a command of the sets. -/
def SetOp.exec (now : Time) (es : List (Timed (List String))) :
    (o : SetOp) → Option o.Res × List (Timed (List String))
  | .sadd k m =>
    let ms := (lookup now k es).getD []
    (some (), ⟨k, if m ∈ ms then ms else m :: ms, expiryOf now k es⟩ :: without k es)
  | .expire k seconds =>
    match lookup now k es with
    | some ms => (some (), ⟨k, ms, some (now + seconds * 1000)⟩ :: without k es)
    | none => (some (), es)
  | .scard k => (some ((lookup now k es).getD []).length, es)

/-! ## The tables of Postgres -/

/-- A statement with a uuid parameter: it fails when the text is no uuid. -/
def withUuid {α σ : Type} (text : String) (s : σ) (f : Uuid → Option α × σ) : Option α × σ :=
  match Uuid.ofText text with
  | some u => f u
  | none => (none, s)

/-- The commands of `citizens`. -/
inductive CitizenOp where
  /-- The citizen with an id. -/
  | select (id : String)
  /-- The citizen with a pseudonym. -/
  | selectByPseudoNid (pseudoNid : String)
  /-- Insert a citizen, or set the SDID subject of the one with that pseudonym: the id. -/
  | upsert (id : Uuid) (pseudoNid sdidSubject : String) (updatedAt : Time)
  /-- Suspend a citizen. -/
  | suspend (id : String) (now : Time)

/-- Their answers. -/
@[reducible] def CitizenOp.Res : CitizenOp → Type
  | .select _ => Option Citizen
  | .selectByPseudoNid _ => Option Citizen
  | .upsert _ _ _ _ => Uuid
  | .suspend _ _ => Unit

/-- The row of a citizen who enrols for the first time. -/
def Citizen.enrolled (id : Uuid) (pseudoNid sdidSubject : String) (now : Time) : Citizen where
  id := id
  pseudoNid := pseudoNid
  sdidSubject := some sdidSubject
  status := .active
  createdAt := now
  updatedAt := now

/-- Execute a command of `citizens`. The upsert sets the columns that its `set` clause names. -/
def CitizenOp.exec (now : Time) (rows : List Citizen) : (o : CitizenOp) → Option o.Res × List Citizen
  | .select id => withUuid id rows fun u => (some (rows.find? fun c => c.id = u), rows)
  | .selectByPseudoNid p => (some (rows.find? fun c => c.pseudoNid = p), rows)
  | .upsert id p subject updatedAt =>
    match rows.find? fun c => c.pseudoNid = p with
    | some c => (some c.id, Table.update (fun c => c.pseudoNid = p)
        (fun c => { c with sdidSubject := some subject, updatedAt := updatedAt }) rows)
    | none =>
      match Table.insert (fun c => c.id = id) (Citizen.enrolled id p subject now) rows with
      | some rows' => (some id, rows')
      | none => (none, rows)
  | .suspend id t => withUuid id rows fun u => (some (), Table.update (fun c => c.id = u)
      (fun c => { c with status := .suspended, updatedAt := t }) rows)

/-- The commands of `device_bindings`. -/
inductive BindingOp where
  /-- The binding with an id. -/
  | select (id : String)
  /-- The active bindings of a citizen. -/
  | selectActiveOf (citizenId : Uuid)
  /-- All active bindings. -/
  | selectActive
  /-- How many bindings of a citizen are not revoked. -/
  | countLive (citizenId : Uuid)
  /-- Insert a binding. -/
  | insert (id citizenId : Uuid) (jwk : PublicKeyJwk) (attestation : JsValue)
      (assuranceLevel : AssuranceLevel) (deviceLabel : String)
  /-- Activate a binding, whatever its status. -/
  | activate (id : String) (activatedAt : Time)
  /-- Revoke a binding, and drop its push address. -/
  | revoke (id : String) (now : Time) (reason : String)
  /-- Revoke the active bindings of a citizen, and drop their push addresses. -/
  | revokeActiveOf (citizenId : String) (now : Time) (reason : String)
  /-- Note a re-assertion on the active bindings of a citizen. -/
  | setLastReasserted (citizenId : String) (now : Time)
  /-- Note a use of a binding. -/
  | setLastUsed (id : Uuid) (now : Time)
  /-- Set the push address of a binding. -/
  | setPushToken (id : String) (platform : PushPlatform) (token : String) (now : Time)
  /-- Drop the push address of a binding. -/
  | clearPushToken (id : String) (now : Time)

/-- Their answers. -/
@[reducible] def BindingOp.Res : BindingOp → Type
  | .select _ => Option DeviceBinding
  | .selectActiveOf _ => List DeviceBinding
  | .selectActive => List DeviceBinding
  | .countLive _ => ℕ
  | .insert _ _ _ _ _ _ => Unit
  | .activate _ _ => Unit
  | .revoke _ _ _ => Unit
  | .revokeActiveOf _ _ _ => Unit
  | .setLastReasserted _ _ => Unit
  | .setLastUsed _ _ => Unit
  | .setPushToken _ _ _ _ => Unit
  | .clearPushToken _ _ => Unit

/-- The row of a new binding. -/
def DeviceBinding.enrolled (id citizenId : Uuid) (jwk : PublicKeyJwk) (attestation : JsValue)
    (assuranceLevel : AssuranceLevel) (deviceLabel : String) (now : Time) : DeviceBinding where
  id := id
  citizenId := citizenId
  devicePubkeyJwk := jwk
  attestation := attestation
  assuranceLevel := assuranceLevel
  status := .pending
  deviceLabel := deviceLabel
  enrolledAt := now
  activatedAt := none
  lastUsedAt := none
  lastReassertedAt := none
  revokedAt := none
  revokeReason := none
  pushPlatform := none
  pushToken := none
  pushTokenUpdatedAt := none

/-- A binding after it is revoked. -/
def DeviceBinding.revokedWith (b : DeviceBinding) (now : Time) (reason : String) : DeviceBinding :=
  { b with
    status := .revoked
    revokedAt := some now
    revokeReason := some reason
    pushPlatform := none
    pushToken := none
    pushTokenUpdatedAt := some now }

/-- Execute a command of `device_bindings`. -/
def BindingOp.exec (now : Time) (rows : List DeviceBinding) :
    (o : BindingOp) → Option o.Res × List DeviceBinding
  | .select id => withUuid id rows fun u => (some (rows.find? fun b => b.id = u), rows)
  | .selectActiveOf c => (some (rows.filter fun b => b.citizenId = c ∧ b.status = .active), rows)
  | .selectActive => (some (rows.filter fun b => b.status = .active), rows)
  | .countLive c => (some (Table.count (fun b => b.citizenId = c ∧ b.status ≠ .revoked) rows), rows)
  | .insert id citizenId jwk attestation al label =>
    match Table.insert (fun b => b.id = id)
        (DeviceBinding.enrolled id citizenId jwk attestation al label now) rows with
    | some rows' => (some (), rows')
    | none => (none, rows)
  | .activate id t => withUuid id rows fun u => (some (), Table.update (fun b => b.id = u)
      (fun b => { b with status := .active, activatedAt := some t }) rows)
  | .revoke id t reason => withUuid id rows fun u => (some (), Table.update (fun b => b.id = u)
      (fun b => b.revokedWith t reason) rows)
  | .revokeActiveOf citizenId t reason => withUuid citizenId rows fun u => (some (),
      Table.update (fun b => b.citizenId = u ∧ b.status = .active)
        (fun b => b.revokedWith t reason) rows)
  | .setLastReasserted citizenId t => withUuid citizenId rows fun u => (some (),
      Table.update (fun b => b.citizenId = u ∧ b.status = .active)
        (fun b => { b with lastReassertedAt := some t }) rows)
  | .setLastUsed id t => (some (), Table.update (fun b => b.id = id)
      (fun b => { b with lastUsedAt := some t }) rows)
  | .setPushToken id platform token t => withUuid id rows fun u => (some (),
      Table.update (fun b => b.id = u) (fun b => { b with
        pushPlatform := some platform
        pushToken := some token
        pushTokenUpdatedAt := some t }) rows)
  | .clearPushToken id t => withUuid id rows fun u => (some (),
      Table.update (fun b => b.id = u) (fun b => { b with
        pushPlatform := none
        pushToken := none
        pushTokenUpdatedAt := some t }) rows)

/-- The commands of `relying_parties`. -/
inductive RpOp where
  /-- The relying party with a client id. -/
  | selectByClientId (clientId : String)
  /-- The relying party with an id. -/
  | select (id : String)
  /-- The relying parties with one of the ids. -/
  | selectAmong (ids : List Uuid)
  /-- Insert a relying party. -/
  | insert (row : RelyingParty)
  /-- Suspend a relying party: how many rows it changed. -/
  | suspend (id : String)

/-- Their answers. -/
@[reducible] def RpOp.Res : RpOp → Type
  | .selectByClientId _ => Option RelyingParty
  | .select _ => Option RelyingParty
  | .selectAmong _ => List RelyingParty
  | .insert _ => Unit
  | .suspend _ => ℕ

/-- Execute a command of `relying_parties`. -/
def RpOp.exec (now : Time) (rows : List RelyingParty) : (o : RpOp) → Option o.Res × List RelyingParty
  | .selectByClientId c => (some (rows.find? fun r => r.clientId = c), rows)
  | .select id => withUuid id rows fun u => (some (rows.find? fun r => r.id = u), rows)
  | .selectAmong ids => (some (rows.filter fun r => r.id ∈ ids), rows)
  | .insert row =>
    match Table.insert (fun r => r.id = row.id ∨ r.clientId = row.clientId)
        { row with createdAt := now } rows with
    | some rows' => (some (), rows')
    | none => (none, rows)
  | .suspend id => withUuid id rows fun u => (some (Table.count (fun r => r.id = u) rows),
      Table.update (fun r => r.id = u) (fun r => { r with status := .suspended }) rows)

/-- The commands of `pairwise_subjects`. -/
inductive SubjectOp where
  /-- The subject of a citizen at a relying party. -/
  | select (citizenId rpId : Uuid)
  /-- The row of a subject at a relying party. -/
  | selectBySubject (rpId : Uuid) (subject : String)
  /-- Insert a row, or do nothing on a conflict. -/
  | insert (row : PairwiseSubject)

/-- Their answers. -/
@[reducible] def SubjectOp.Res : SubjectOp → Type
  | .select _ _ => Option PairwiseSubject
  | .selectBySubject _ _ => Option PairwiseSubject
  | .insert _ => Unit

/-- Execute a command of `pairwise_subjects`. -/
def SubjectOp.exec (rows : List PairwiseSubject) :
    (o : SubjectOp) → Option o.Res × List PairwiseSubject
  | .select c r => (some (rows.find? fun s => s.citizenId = c ∧ s.rpId = r), rows)
  | .selectBySubject r x => (some (rows.find? fun s => s.rpId = r ∧ s.subject = x), rows)
  | .insert row =>
    match Table.insert (fun s => s.citizenId = row.citizenId ∧ s.rpId = row.rpId ∨
        s.rpId = row.rpId ∧ s.subject = row.subject) row rows with
    | some rows' => (some (), rows')
    | none => (some (), rows)

/-- The decisions of a citizen. -/
inductive Decision where
  | approve
  | deny
  deriving DecidableEq

/-- The status that a decision leads to. -/
def Decision.status : Decision → TxnStatus
  | .approve => .approved
  | .deny => .denied

/-- The commands of `auth_transactions`. -/
inductive TxnOp where
  /-- The transaction with a request id. -/
  | select (authReqId : String)
  /-- The open transactions of a citizen, oldest first. -/
  | selectPendingOf (citizenId : String) (now : Time)
  /-- Insert a transaction. -/
  | insert (id : Uuid) (authReqId : String) (citizenId rpId : Uuid) (flow : Flow)
      (scopes : List String) (requestedAl : AssuranceLevel) (bindingMessage : Option String)
      (expiresAt : Time)
  /-- Decide a transaction that is pending: how many rows it changed. -/
  | resolve (id : Uuid) (decision : Decision) (deviceBindingId : Uuid) (now : Time)
      (reportSuspicious : Bool)
  /-- Mark a pending transaction as expired: how many rows it changed. -/
  | expire (id : Uuid)
  /-- Consume an approved transaction: how many rows it changed. -/
  | consume (id : Uuid)

/-- Their answers. -/
@[reducible] def TxnOp.Res : TxnOp → Type
  | .select _ => Option AuthTransaction
  | .selectPendingOf _ _ => List AuthTransaction
  | .insert _ _ _ _ _ _ _ _ _ => Unit
  | .resolve _ _ _ _ _ => ℕ
  | .expire _ => ℕ
  | .consume _ => ℕ

/-- The row of a new transaction. -/
def AuthTransaction.started (id : Uuid) (authReqId : String) (citizenId rpId : Uuid) (flow : Flow)
    (scopes : List String) (requestedAl : AssuranceLevel) (bindingMessage : Option String)
    (expiresAt now : Time) : AuthTransaction where
  id := id
  authReqId := authReqId
  citizenId := citizenId
  rpId := rpId
  flow := flow
  scopes := scopes
  requestedAl := requestedAl
  bindingMessage := bindingMessage
  status := .pending
  deviceBindingId := none
  suspiciousReport := none
  createdAt := now
  expiresAt := expiresAt
  resolvedAt := none

/-- Update the transaction `id` when it has the status `old`: how many rows that changed. -/
def updateTxn (id : Uuid) (old : TxnStatus) (f : AuthTransaction → AuthTransaction)
    (rows : List AuthTransaction) : Option ℕ × List AuthTransaction :=
  (some (Table.count (fun t => t.id = id ∧ t.status = old) rows),
    Table.update (fun t => t.id = id ∧ t.status = old) f rows)

/-- Execute a command of `auth_transactions`. -/
def TxnOp.exec (now : Time) (rows : List AuthTransaction) :
    (o : TxnOp) → Option o.Res × List AuthTransaction
  | .select a => (some (rows.find? fun t => t.authReqId = a), rows)
  | .selectPendingOf c t₀ => withUuid c rows fun u => (some ((rows.filter fun t =>
      t.citizenId = u ∧ t.status = .pending ∧ t₀ < t.expiresAt).insertionSort
        fun a b => a.createdAt ≤ b.createdAt), rows)
  | .insert id a citizenId rpId flow scopes al message expiresAt =>
    match Table.insert (fun t => t.id = id ∨ t.authReqId = a)
        (AuthTransaction.started id a citizenId rpId flow scopes al message expiresAt now) rows with
    | some rows' => (some (), rows')
    | none => (none, rows)
  | .resolve id d bindingId t suspicious => updateTxn id .pending (fun x => { x with
      status := d.status
      deviceBindingId := some bindingId
      resolvedAt := some t
      suspiciousReport :=
        if suspicious then some "citizen-reported-suspicious" else x.suspiciousReport }) rows
  | .expire id => updateTxn id .pending (fun x => { x with status := .expired }) rows
  | .consume id => updateTxn id .approved (fun x => { x with status := .consumed }) rows

/-- The commands of `authorization_codes`. -/
inductive CodeOp where
  /-- The code with a digest. -/
  | select (codeHash : String)
  /-- Insert a code. -/
  | insert (row : AuthorizationCode)
  /-- Consume a code that is not consumed: how many rows it changed. -/
  | consume (codeHash : String) (now : Time)

/-- Their answers. -/
@[reducible] def CodeOp.Res : CodeOp → Type
  | .select _ => Option AuthorizationCode
  | .insert _ => Unit
  | .consume _ _ => ℕ

/-- Execute a command of `authorization_codes`. -/
def CodeOp.exec (rows : List AuthorizationCode) : (o : CodeOp) → Option o.Res × List AuthorizationCode
  | .select h => (some (rows.find? fun c => c.codeHash = h), rows)
  | .insert row =>
    match Table.insert (fun c => c.codeHash = row.codeHash) row rows with
    | some rows' => (some (), rows')
    | none => (none, rows)
  | .consume h t => (some (Table.count (fun c => c.codeHash = h ∧ c.consumedAt = none) rows),
      Table.update (fun c => c.codeHash = h ∧ c.consumedAt = none)
        (fun c => { c with consumedAt := some t }) rows)

/-- The commands of `consent_grants`. -/
inductive ConsentOp where
  /-- A citizen's grant with an id. -/
  | selectOwn (id citizenId : String)
  /-- The grants of a citizen to a relying party that are not revoked. -/
  | selectLive (citizenId rpId : Uuid)
  /-- Insert a grant. -/
  | insert (id : Uuid) (citizenId rpId : String) (scopes : List String) (source : String)
  /-- Revoke a grant. -/
  | revoke (id : String) (now : Time)

/-- Their answers. -/
@[reducible] def ConsentOp.Res : ConsentOp → Type
  | .selectOwn _ _ => Option ConsentGrant
  | .selectLive _ _ => List ConsentGrant
  | .insert _ _ _ _ _ => Unit
  | .revoke _ _ => Unit

/-- The row of a new grant. -/
def ConsentGrant.made (id citizenId rpId : Uuid) (scopes : List String) (source : String)
    (now : Time) : ConsentGrant where
  id := id
  citizenId := citizenId
  rpId := rpId
  scopes := scopes
  source := source
  grantedAt := now
  revokedAt := none

/-- Execute a command of `consent_grants`. -/
def ConsentOp.exec (now : Time) (rows : List ConsentGrant) :
    (o : ConsentOp) → Option o.Res × List ConsentGrant
  | .selectOwn id c => withUuid id rows fun u => withUuid c rows fun v =>
      (some (rows.find? fun g => g.id = u ∧ g.citizenId = v), rows)
  | .selectLive c r => (some (rows.filter fun g => g.citizenId = c ∧ g.rpId = r ∧ g.revokedAt = none),
      rows)
  | .insert id c r scopes source => withUuid c rows fun u => withUuid r rows fun v =>
      match Table.insert (fun g => g.id = id) (ConsentGrant.made id u v scopes source now) rows with
      | some rows' => (some (), rows')
      | none => (none, rows)
  | .revoke id t => withUuid id rows fun u => (some (), Table.update (fun g => g.id = u)
      (fun g => { g with revokedAt := some t }) rows)

/-- The commands of `audit_events`. -/
inductive AuditOp where
  /-- `AuditService.append`. Its transaction is one command, since the advisory lock lets no other
  append between its statements. -/
  | append (event : AuditEventInput)
  /-- All rows in their order. -/
  | select

/-- Their answers. -/
@[reducible] def AuditOp.Res : AuditOp → Type
  | .append _ => Unit
  | .select => List AuditRow

/-- Execute a command of `audit_events`. An append fails on an id that is no uuid. -/
def AuditOp.exec (deps : AuditDeps) (i : Oracle) (now : Time) (rows : List AuditRow) :
    (o : AuditOp) → Option (Option o.Res × List AuditRow)
  | .append event =>
    match i with
    | .uuid id =>
      match deps.append rows 0 id now event with
      | some rows' => some (some (), rows')
      | none => some (none, rows)
    | _ => none
  | .select => some (some rows, rows)

/-! ## The store -/

/-- A command of the broker. -/
inductive Op where
  | ambient (o : AmbientOp)
  | service (o : ServiceOp)
  | jwt (o : JwtOp)
  | challenge (o : ChallengeOp)
  | nonce (o : NonceOp)
  | stash (o : StashOp)
  | flag (o : FlagOp)
  | counter (o : CounterOp)
  | set (o : SetOp)
  | citizen (o : CitizenOp)
  | binding (o : BindingOp)
  | rp (o : RpOp)
  | subject (o : SubjectOp)
  | txn (o : TxnOp)
  | code (o : CodeOp)
  | consent (o : ConsentOp)
  | audit (o : AuditOp)

/-- The answer of a command. -/
@[reducible] def Op.Res : Op → Type
  | .ambient o => o.Res
  | .service o => o.Res
  | .jwt o => o.Res
  | .challenge o => o.Res
  | .nonce o => o.Res
  | .stash o => o.Res
  | .flag o => o.Res
  | .counter o => o.Res
  | .set o => o.Res
  | .citizen o => o.Res
  | .binding o => o.Res
  | .rp o => o.Res
  | .subject o => o.Res
  | .txn o => o.Res
  | .code o => o.Res
  | .consent o => o.Res
  | .audit o => o.Res

/-- What the handlers share. -/
structure Store where
  /-- The clock, and what has been drawn at random. -/
  ambient : Ambient
  /-- The tokens that have been signed. -/
  jwts : List SignedJwt
  /-- `challenge:*`. -/
  challenges : List (Timed ChallengeRecord)
  /-- `attnonce:*`. -/
  nonces : List (Timed NonceRecord)
  /-- `codeflow:*`. -/
  stashes : List (Timed CodeFlowStash)
  /-- `revoked:*` and `anom:alerted:*`. -/
  flags : List (Timed Unit)
  /-- `rl:*`, `lockout:*`, and `anom:*`. -/
  counters : List (Timed ℕ)
  /-- `anom:enrol:src:*`. -/
  sets : List (Timed (List String))
  /-- `citizens`. -/
  citizens : List Citizen
  /-- `device_bindings`. -/
  bindings : List DeviceBinding
  /-- `relying_parties`. -/
  rps : List RelyingParty
  /-- `pairwise_subjects`. -/
  subjects : List PairwiseSubject
  /-- `auth_transactions`. -/
  txns : List AuthTransaction
  /-- `authorization_codes`. -/
  codes : List AuthorizationCode
  /-- `consent_grants`. -/
  consents : List ConsentGrant
  /-- `audit_events`. -/
  audit : List AuditRow

/-- The time. -/
def Store.now (s : Store) : Time := s.ambient.now

/-- The store of a new installation. -/
def Store.empty : Store :=
  ⟨⟨0, []⟩, [], [], [], [], [], [], [], [], [], [], [], [], [], [], []⟩

/-- The code outside the broker that its commands run on. -/
structure Engine where
  /-- The digest and the `jsonb` columns of the audit service. -/
  audit : AuditDeps
  /-- Whether a signature over a text verifies under a key. -/
  verifies : PublicKeyJwk → String → String → Bool

/-- Execute a command on the store. -/
def Op.exec (E : Engine) (i : Oracle) (s : Store) : (o : Op) → Option (Option o.Res × Store)
  | .ambient o => (o.exec i s.ambient).map fun (r, x) => (r, { s with ambient := x })
  | .service o => (o.exec E.verifies i).map fun r => (r, s)
  | .jwt o => (o.exec i s.now s.jwts).map fun (r, x) => (r, { s with jwts := x })
  | .challenge o => let (r, x) := o.exec s.now s.challenges; some (r, { s with challenges := x })
  | .nonce o => let (r, x) := o.exec s.now s.nonces; some (r, { s with nonces := x })
  | .stash o => let (r, x) := o.exec s.now s.stashes; some (r, { s with stashes := x })
  | .flag o => let (r, x) := o.exec s.now s.flags; some (r, { s with flags := x })
  | .counter o => let (r, x) := o.exec s.now s.counters; some (r, { s with counters := x })
  | .set o => let (r, x) := o.exec s.now s.sets; some (r, { s with sets := x })
  | .citizen o => let (r, x) := o.exec s.now s.citizens; some (r, { s with citizens := x })
  | .binding o => let (r, x) := o.exec s.now s.bindings; some (r, { s with bindings := x })
  | .rp o => let (r, x) := o.exec s.now s.rps; some (r, { s with rps := x })
  | .subject o => let (r, x) := o.exec s.subjects; some (r, { s with subjects := x })
  | .txn o => let (r, x) := o.exec s.now s.txns; some (r, { s with txns := x })
  | .code o => let (r, x) := o.exec s.codes; some (r, { s with codes := x })
  | .consent o => let (r, x) := o.exec s.now s.consents; some (r, { s with consents := x })
  | .audit o => (o.exec E.audit i s.now s.audit).map fun (r, x) => (r, { s with audit := x })

/-- Every command but those of the process itself can fail. -/
def Op.fallible : Op → Bool
  | .ambient _ => false
  | _ => true

/-- A step of the clock. -/
def Store.elapse (i : Oracle) (s : Store) : Option Store :=
  match i with
  | .elapse ms => some { s with ambient := { s.ambient with now := s.now + ms } }
  | _ => none

end SdidBridge
