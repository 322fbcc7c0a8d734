import SdidBridge.Keys.Custody

/-!
# The key service

The programs of `KeysService` and of the custody behind it, for any number of replicas over one
table. Every await is a point at which other calls may run, on this replica or another.
-/

namespace SdidBridge.Keys

open Concurrent Prog

/-- Why a usage summary is written. -/
inductive FlushReason where
  | interval
  | rotation
  | shutdown
  deriving DecidableEq

/-- The audit rows of the key service. -/
inductive KeyAuditEvent where
  /-- `key.usage_summary`. -/
  | usageSummary (reason : FlushReason) (windowSeconds : ℕ) (keys : List (String × UsageTally))
  /-- `key.signing_failed`. -/
  | signingFailed (kid : String) (purpose : Purpose)
  /-- `key.custody_health_changed`. -/
  | custodyHealthChanged (healthy : Bool) (previous : Option Bool)
  /-- `key.generated`, `key.promoted` and `key.retired`. -/
  | lifecycle (event : CustodyEvent)
  /-- `key.rotated`. -/
  | rotated (promotedKid : String) (retiredKids : List String) (overlapSeconds : ℕ)

/-- The commands. -/
inductive Op where
  /-- A statement on the table. -/
  | table (o : KeyOp)
  /-- What replica `r` does between two awaits. -/
  | on (r : ℕ) (o : LocalOp)
  /-- `audit.append` by replica `r`. -/
  | append (r : ℕ) (event : KeyAuditEvent)
  /-- `Date.now`. -/
  | now
  /-- `randomBytes`. -/
  | randomBytes

/-- Their answers. -/
@[reducible] def Op.Res : Op → Type
  | .table o => o.Res
  | .on _ o => o.Res
  | .append _ _ => Unit
  | .now => ℕ
  | .randomBytes => String

/-- The table, the replicas, the audit rows of the key service, and the clock. -/
structure Store where
  /-- The table. -/
  table : SigningKeys
  /-- The replicas. -/
  replica : ℕ → Replica
  /-- The audit rows, newest first. -/
  audit : List KeyAuditEvent
  /-- The time, in milliseconds. -/
  now : ℕ

/-- Execute a command. -/
def Op.exec (i : Input) (s : Store) : (o : Op) → Option (Option o.Res × Store)
  | .table o => (o.exec s.now s.table).map fun p => (p.1, { s with table := p.2 })
  | .on r o =>
    (o.exec i s.now (s.replica r)).map fun p =>
      (p.1, { s with replica := Function.update s.replica r p.2 })
  | .append _ event => some (some (), { s with audit := event :: s.audit })
  | .now => some (some s.now, s)
  | .randomBytes => match i with | .text x => some (some x, s) | _ => none

/-- Whether a command can fail: the database can, but for a rollback, which the server does by itself
when it loses the client. -/
def Op.fallible : Op → Bool
  | .table (.rollback _) => false
  | .table _ => true
  | .append _ _ => true
  | _ => false

/-- What a call throws. -/
inductive KeyError where
  /-- The database failed. -/
  | database
  /-- `KeyCustodyUnavailableError`. -/
  | custodyUnavailable
  /-- `KeyCustodySigningError`. -/
  | signing (kid : String)
  /-- The custody is not healthy. -/
  | custodyUnhealthy
  /-- The key set is empty. -/
  | emptyJwks
  /-- `jwtVerify` refuses the token. -/
  | unverified
  deriving DecidableEq

/-- A call. -/
abbrev Call := Prog Op Op.Res KeyError

/-- Issue a command. -/
def await (o : Op) : Call o.Res := perform .database o

/-- The settings. -/
structure KeysConfig where
  BROKER_ISSUER : String
  KEY_USAGE_SUMMARY_INTERVAL_SECONDS : ℕ
  SESSION_TTL_SECONDS : ℕ

/-! ## The custody -/

/-- Read the table into the cache. -/
def reload (r : ℕ) : Call Unit := do
  let rows ← await (.table .select)
  await (.on r (.install rows))

/-- Insert the first key. -/
def generateActiveKey (r : ℕ) : Call Unit := do
  let kid ← await .randomBytes
  let inserted ← await (.table (.insertFirst kid))
  onlyIf (inserted = true) (await (.on r (.emit [⟨.keyGenerated, kid⟩, ⟨.keyPromoted, kid⟩])))

/-- The custody's part of a boot. -/
def init (r : ℕ) : Call Unit := do
  reload r
  let active ← await (.on r .activeKid)
  onlyIf (active = none) (do
    generateActiveKey r
    reload r)

/-- The `catch` of a rotation: the transaction is rolled back, which held the lock or did not. -/
def rollingBack {α : Type} (locked : Bool) (p : Call α) : Call α :=
  p.recover fun _ => do
    await (.table (.rollback locked))
    throwing .custodyUnavailable

/-- The statements of a rotation under its lock. -/
def swapActive : Call (String × List String) := do
  let retiredKids ← await (.table .retireActive)
  let kid ← await .randomBytes
  await (.table (.insert kid))
  await (.table .commit)
  return (kid, retiredKids)

/-- The transaction of a rotation: the key that it promoted, and those that it retired. -/
def rotationTransaction : Call (String × List String) := do
  let startedAt ← rollingBack false (await (.table .begin))
  rollingBack false (await (.table (.lock startedAt)))
  rollingBack true swapActive

/-- The custody's part of a rotation. -/
def custodyRotate (r : ℕ) : Call (String × List String) := do
  await (.table .connect)
  let result ← rotationTransaction
  reload r
  await (.on r (.emit (result.2.map (⟨.keyRetired, ·⟩) ++
    [⟨.keyGenerated, result.1⟩, ⟨.keyPromoted, result.1⟩])))
  return result

/-- Whether the custody can be reached and has an active key. -/
def healthCheck (r : ℕ) : Call Bool :=
  recover (do
    reload r
    let active ← await (.on r .activeKid)
    return active.isSome) fun _ => pure false

/-- `custody.sign`, and the count of how it ended: the error if it failed, and whether that is to be
audited. -/
def sign (r : ℕ) (kid : String) (purpose : Purpose) : Call (Option (KeyError × Bool)) := do
  let first ← await (.on r (.sign kid purpose))
  match first with
  | .signed => return none
  | .failed audited => return some (.signing kid, audited)
  | .missing =>
    -- Another replica may have rotated: one reload, and one more look.
    let again ← recover (do
      reload r
      let answer ← await (.on r (.sign kid purpose))
      return (KeyError.signing kid, answer)) fun e => pure (e, .missing)
    match again with
    | (_, .signed) => return none
    | (e, .failed audited) => return some (e, audited)
    | (e, .missing) =>
      let audited ← await (.on r (.signingFailed kid))
      return some (e, audited)

/-! ## The service -/

/-- Refresh the published key set: the new one. -/
def publish (r : ℕ) : Call (List String) := do
  let kids ← await (.on r .listPublicJwks)
  await (.on r (.setJwks kids))
  return kids

/-- The claims of a token. -/
structure Claims where
  /-- What the caller gave, but for the claims below. -/
  payload : List (String × JsValue)
  iss : String
  aud : String
  iat : ℕ
  exp : ℕ
  jti : Option String

/-- A token: the key in its header, its claims, and the key that signed them, if one did. -/
structure Jws where
  /-- The key in the header. -/
  kid : String
  /-- The claims. -/
  claims : Claims
  /-- The key that signed. -/
  signedBy : Option String

/-- Assemble a token around a signature of the custody. -/
def signCompactJws (r : ℕ) (claims : Claims) (purpose : Purpose) : Call Jws := do
  let active ← await (.on r .activeKid)
  let kid ← orThrow active .custodyUnavailable
  let failed ← sign r kid purpose
  match failed with
  | none => return ⟨kid, claims, some kid⟩
  | some (e, audited) =>
    -- The caller sees the failure of the signature, and not one of its audit.
    onlyIf (audited = true)
      ((await (.append r (.signingFailed kid purpose))).recover fun _ => pure ())
    throwing e

/-- Sign a token. What the caller gave does not override the claims that are set here. -/
def signJwt (C : KeysConfig) (r : ℕ) (payload : List (String × JsValue)) (audience : String)
    (ttlSeconds : ℕ) (jti : Option String) : Call Jws := do
  let now ← await .now
  let jti ← (match jti with
    | some x => pure x
    | none => await .randomBytes : Call String)
  signCompactJws r {
    payload := payload.filter fun m => !(["iss", "aud", "iat", "exp", "jti"].contains m.1)
    iss := C.BROKER_ISSUER
    aud := audience
    iat := now / 1000
    exp := now / 1000 + ttlSeconds
    jti := some jti } .token

/-- `jose.jwtVerify` with a key set. -/
def jwtVerify (jwks : List String) (issuer : String) (audience : Option String) (now : ℕ) (j : Jws) :
    Call Claims := do
  throwIf (¬ (j.kid ∈ jwks ∧ j.signedBy = some j.kid ∧ j.claims.iss = issuer ∧
    (∀ a, audience = some a → j.claims.aud = a) ∧ now / 1000 < j.claims.exp)) .unverified
  return j.claims

/-- Verify a token of the broker. -/
def verifyJwt (C : KeysConfig) (r : ℕ) (j : Jws) (audience : Option String) : Call Claims := do
  let jwks ← await (.on r .jwks)
  let now ← await .now
  jwtVerify jwks C.BROKER_ISSUER audience now j

/-- Audit a change of the custody's health. -/
def noteHealth (r : ℕ) (healthy : Bool) : Call Unit := do
  let changed ← await (.on r (.noteHealth healthy))
  match changed with
  | none => return ()
  | some previous =>
    (await (.append r (.custodyHealthChanged healthy previous))).recover fun _ => pure ()

/-- The readiness probe. -/
def probeSigning (C : KeysConfig) (r : ℕ) : Call Unit := do
  let healthy ← healthCheck r
  noteHealth r healthy
  throwIf (healthy = false) .custodyUnhealthy
  let kids ← publish r
  throwIf (kids = []) .emptyJwks
  let now ← await .now
  let token ← signCompactJws r {
    payload := [("probe", .bool true)]
    iss := C.BROKER_ISSUER
    aud := "readiness-probe"
    iat := now / 1000
    exp := now / 1000 + 60
    jti := none } .probe
  let _ ← verifyJwt C r token (some "readiness-probe")

/-- Write the usage summary. -/
def flushUsageSummary (C : KeysConfig) (r : ℕ) (reason : FlushReason) : Call Unit := do
  let keys ← await (.on r .snapshot)
  onlyIf (keys ≠ []) (do
    let written ← recover (do
      await (.append r (.usageSummary reason C.KEY_USAGE_SUMMARY_INTERVAL_SECONDS keys))
      return true) fun e => do
        let stopping ← await (.on r .isShuttingDown)
        throwIf (stopping = false) e
        return false
    onlyIf (written = true) (await (.on r (.subtract keys))))

/-- Audit the custody's events, at most `rounds` of them: the loop ends when none is left, and every
run of it is one with enough rounds. -/
def drainLifecycleEvents (r : ℕ) : ℕ → Call Unit
  | 0 => return ()
  | rounds + 1 => do
    let event ← await (.on r .shiftEvent)
    match event with
    | none => return ()
    | some event =>
      await (.append r (.lifecycle event))
      drainLifecycleEvents r rounds

/-- Promote a fresh key. -/
def rotate (C : KeysConfig) (r rounds : ℕ) : Call (String × List String) := do
  flushUsageSummary C r .rotation
  let result ← custodyRotate r
  let _ ← publish r
  drainLifecycleEvents r rounds
  await (.append r (.rotated result.1 result.2 C.SESSION_TTL_SECONDS))
  return result

/-- A replica starts. -/
def onModuleInit (r rounds : ℕ) : Call Unit := do
  init r
  let _ ← publish r
  drainLifecycleEvents r rounds

/-- A replica stops. -/
def onModuleDestroy (C : KeysConfig) (r : ℕ) : Call Unit := do
  await (.on r .setShuttingDown)
  flushUsageSummary C r .shutdown
  await (.on r .close)

/-- What is asked of a replica. -/
inductive Request where
  | boot (r rounds : ℕ)
  | shutdown (r : ℕ)
  | rotate (r rounds : ℕ)
  | probe (r : ℕ)
  | sign (r : ℕ) (payload : List (String × JsValue)) (audience : String) (ttlSeconds : ℕ)
    (jti : Option String)
  | verify (r : ℕ) (token : Jws) (audience : Option String)
  | jwks (r : ℕ)
  /-- The timer of the usage summary, which keeps a failure to itself. -/
  | interval (r : ℕ)
  | flush (r : ℕ) (reason : FlushReason)

/-- What a call returns. -/
inductive Reply where
  | done
  | rotated (promotedKid : String) (retiredKids : List String)
  | token (j : Jws)
  | claims (c : Claims)
  | jwks (kids : List String)

/-- The program that serves a request. -/
def handler (C : KeysConfig) : Request → Call Reply
  | .boot r rounds => do
    onModuleInit r rounds
    return .done
  | .shutdown r => do
    onModuleDestroy C r
    return .done
  | .rotate r rounds => do
    let result ← rotate C r rounds
    return .rotated result.1 result.2
  | .probe r => do
    probeSigning C r
    return .done
  | .sign r payload audience ttlSeconds jti => do
    let j ← signJwt C r payload audience ttlSeconds jti
    return .token j
  | .verify r j audience => do
    let c ← verifyJwt C r j audience
    return .claims c
  | .jwks r => do
    let kids ← await (.on r .jwks)
    return .jwks kids
  | .interval r => do
    (flushUsageSummary C r .interval).recover fun _ => pure ()
    return .done
  | .flush r reason => do
    flushUsageSummary C r reason
    return .done

/-- The replicas of a deployment. -/
def replicas (C : KeysConfig) : Machine Op Op.Res KeyError Reply Request Store Input where
  handler := handler C
  exec := Op.exec
  fallible := Op.fallible
  env i s := match i with | .clock now => some { s with now } | _ => none
  init := ⟨⟨[], none⟩, fun _ => .new, [], 0⟩

/-- One step of a run. -/
abbrev Step := Entry Op Op.Res Request Store

/-- A state of the deployment. -/
abbrev State := Config Op Op.Res KeyError Reply Store

/-- A command with its answer. -/
abbrev Cmd := Act Op Op.Res

/-! ## The objects

The table is changed by its statements alone, and a replica by its own commands. -/

/-- What the clock changes. -/
theorem env_eq {C : KeysConfig} {i : Input} {s s' : Store} (h : (replicas C).env i s = some s') :
    ∃ now, s' = { s with now } := by
  simp only [replicas] at h
  split at h
  · simp only [Option.some.injEq] at h
    exact ⟨_, h.symm⟩
  · simp at h

/-- What a command changes that is none of the table and of no replica. -/
theorem exec_other {C : KeysConfig} {i : Input} {s s' : Store} {o : Op} {r : Option o.Res}
    (hx : (replicas C).exec i s o = some (r, s')) (htable : ∀ k, o ≠ .table k) (hon : ∀ r k, o ≠ .on r k) :
    s'.table = s.table ∧ s'.replica = s.replica := by
  cases o with
  | table k => exact absurd rfl (htable k)
  | on n k => exact absurd rfl (hon n k)
  | append r e =>
    simp only [replicas, Op.exec, Option.some.injEq, Prod.mk.injEq] at hx
    rw [← hx.2]
    exact ⟨rfl, rfl⟩
  | now =>
    simp only [replicas, Op.exec, Option.some.injEq, Prod.mk.injEq] at hx
    rw [← hx.2]
    exact ⟨rfl, rfl⟩
  | randomBytes =>
    simp only [replicas, Op.exec] at hx
    split at hx
    · simp only [Option.some.injEq, Prod.mk.injEq] at hx
      rw [← hx.2]
      exact ⟨rfl, rfl⟩
    · simp at hx

/-- What a statement changes. -/
theorem exec_table {C : KeysConfig} {i : Input} {s s' : Store} {o : KeyOp} {r : Option o.Res}
    (hx : (replicas C).exec i s (.table o) = some (r, s')) :
    o.exec s.now s.table = some (r, s'.table) ∧ s'.replica = s.replica := by
  obtain ⟨⟨r', k⟩, hk, heq⟩ := Option.map_eq_some_iff.mp hx
  simp only [Prod.mk.injEq] at heq
  obtain ⟨rfl, rfl⟩ := heq
  exact ⟨hk, rfl⟩

/-- What a command of a replica changes. -/
theorem exec_on {C : KeysConfig} {i : Input} {s s' : Store} {n : ℕ} {o : LocalOp} {r : Option o.Res}
    (hx : (replicas C).exec i s (.on n o) = some (r, s')) :
    o.exec i s.now (s.replica n) = some (r, s'.replica n) ∧ s'.table = s.table ∧
      ∀ m, m ≠ n → s'.replica m = s.replica m := by
  obtain ⟨⟨r', x⟩, hk, heq⟩ := Option.map_eq_some_iff.mp hx
  simp only [Prod.mk.injEq] at heq
  obtain ⟨rfl, rfl⟩ := heq
  refine ⟨?_, rfl, fun m hm => Function.update_of_ne hm _ _⟩
  dsimp only
  rw [Function.update_self]
  exact hk

/-- The table. -/
def tableObject (C : KeysConfig) : Object (replicas C) KeyOp KeyOp.Res SigningKeys where
  get s := s.table
  embed a := ⟨.table a.op, a.res⟩
  view
    | ⟨.table o, r⟩ => some ⟨o, r⟩
    | _ => none
  view_eq := by
    rintro ⟨o, r⟩ ⟨o', r'⟩
    cases o <;> simp
  Step k a k' := (∃ now, a.op.exec now k = some (a.res, k')) ∨ (a.res = none ∧ k' = k)
  exec_step := by
    rintro i s o r s' a hx hv
    cases o <;> simp only [Option.some.injEq, reduceCtorEq] at hv
    subst hv
    exact .inl ⟨s.now, (exec_table hx).1⟩
  exec_frame := by
    rintro i s o r s' hx hv
    cases o with
    | table o => simp at hv
    | on n o => exact (exec_on hx).2.1
    | _ => exact (exec_other hx (by simp) (by simp)).1
  fail_step := by
    rintro s o a hv
    cases o <;> simp only [Option.some.injEq, reduceCtorEq] at hv
    subst hv
    exact .inr ⟨rfl, rfl⟩
  env_frame hx := by
    obtain ⟨now, rfl⟩ := env_eq hx
    rfl

/-- The replica `n`. -/
def replicaObject (C : KeysConfig) (n : ℕ) : Object (replicas C) LocalOp LocalOp.Res Replica where
  get s := s.replica n
  embed a := ⟨.on n a.op, a.res⟩
  view
    | ⟨.on m o, r⟩ => if m = n then some ⟨o, r⟩ else none
    | _ => none
  view_eq := by
    rintro ⟨o, r⟩ ⟨o', r'⟩
    cases o with
    | on m o =>
      by_cases hm : m = n
      · subst hm
        simp
      · simp [hm]
    | _ => simp
  Step x a x' := (∃ i now, a.op.exec i now x = some (a.res, x')) ∨ (a.res = none ∧ x' = x)
  exec_step := by
    rintro i s o r s' a hx hv
    cases o with
    | on m o =>
      simp only [Option.ite_none_right_eq_some, Option.some.injEq] at hv
      obtain ⟨rfl, rfl⟩ := hv
      exact .inl ⟨i, s.now, (exec_on hx).1⟩
    | _ => simp at hv
  exec_frame := by
    rintro i s o r s' hx hv
    cases o with
    | on m o =>
      have hm : n ≠ m := by
        rintro rfl
        simp at hv
      exact (exec_on hx).2.2 n hm
    | table o => exact congrFun (exec_table hx).2 n
    | _ => exact congrFun (exec_other hx (by simp) (by simp)).2 n
  fail_step := by
    rintro s o a hv
    cases o with
    | on m o =>
      simp only [Option.ite_none_right_eq_some, Option.some.injEq] at hv
      obtain ⟨rfl, rfl⟩ := hv
      exact .inr ⟨rfl, rfl⟩
    | _ => simp at hv
  env_frame hx := by
    obtain ⟨now, rfl⟩ := env_eq hx
    rfl

/-! ## A deployment to run -/

/-- A deployment. -/
def sampleConfig : KeysConfig := ⟨"https://broker.example", 300, 3600⟩

/-- The next commands of call `t`, each with what the environment decides. -/
def goes (t : ℕ) (is : List Input) : List (Move Request Input) := is.map (Move.go t)

/-- Call `t` boots replica `r` on an empty table, up to the insert of the first key, oldest step
first. -/
def sampleFirstBoot (t r : ℕ) (kid : String) : List (Move Request Input) :=
  .arrive (.boot r 0) :: goes t [.unit, .unit, .unit, .text kid, .unit]

end SdidBridge.Keys
