import SdidBridge.Broker.Machine

/-!
# The objects of the broker's store

Each table and each key space of the store is an object with its own commands: it is changed by them
alone, and a command that fails changes nothing. What holds of the history of an object is proved in
`Keys.lean` and `Tables.lean`, over the few commands of that object.
-/

namespace SdidBridge

open Concurrent

variable {Op' : Type} {Res' : Op' → Type} {τ : Type}

/-- What a command does to an object: it runs, or it fails and does nothing. -/
def Attempts (Runs : τ → Act Op' Res' → τ → Prop) (s : τ) (a : Act Op' Res') (s' : τ) : Prop :=
  Runs s a s' ∨ (a.res = none ∧ s' = s)

/-- The part `get` of the store as an object. The side conditions are checked on every command. -/
def part (D : Deployment) (get : Store → τ) (embed : Act Op' Res' → Cmd)
    (view : Cmd → Option (Act Op' Res')) (Runs : τ → Act Op' Res' → τ → Prop)
    (runs : ∀ {i s o r s' a}, Op.exec D.engine i s o = some (r, s') → view ⟨o, r⟩ = some a →
      Runs (get s) a (get s') := by
        intro i s o r s' a hx hv
        cases o <;> simp only [Option.some.injEq, reduceCtorEq] at hv
        simp [Op.exec] at hx
        grind)
    (view_eq : ∀ {a a'}, view a = some a' ↔ a = embed a' := by
      rintro ⟨o, r⟩ ⟨o', r'⟩
      cases o <;> simp)
    (frame : ∀ {i s o r s'}, Op.exec D.engine i s o = some (r, s') → view ⟨o, r⟩ = none →
      get s' = get s := by
        intro i s o r s' hx hv
        cases o <;> simp_all [Op.exec] <;> grind)
    (failed : ∀ {o a}, view ⟨o, none⟩ = some a → a.res = none := by intro o a hv; cases o <;> grind)
    (elapse : ∀ (s : Store) (x : Ambient), x.drawn = s.ambient.drawn →
      get { s with ambient := x } = get s := by intro s x hx; first | rfl | exact hx) :
    Object (broker D) Op' Res' τ where
  get := get
  embed := embed
  view := view
  view_eq := view_eq
  Step := Attempts Runs
  exec_step hx hv := .inl (runs hx hv)
  exec_frame hx hv := frame hx hv
  fail_step hv := .inr ⟨failed hv, rfl⟩
  env_frame := by
    intro i s s' h
    simp only [broker, Store.elapse] at h
    split at h <;> simp only [Option.some.injEq, reduceCtorEq] at h
    rw [← h]
    exact elapse _ _ rfl

section Objects

variable (D : Deployment)

/-- The random source. -/
def draws : Object (broker D) AmbientOp AmbientOp.Res (List String) :=
  part D (·.ambient.drawn) (fun a => ⟨.ambient a.op, a.res⟩)
    (fun | ⟨.ambient o, r⟩ => some ⟨o, r⟩ | _ => none)
    (fun s a s' => ∃ i now x, a.op.exec i ⟨now, s⟩ = some (a.res, x) ∧ s' = x.drawn)
    (by
      intro i s o r s' a hx hv
      cases o <;> simp only [Option.some.injEq, reduceCtorEq] at hv
      simp only [Op.exec, Option.map_eq_some_iff, Prod.exists, Prod.mk.injEq] at hx
      obtain ⟨r', x, hx, rfl, rfl⟩ := hx
      rw [← hv]
      exact ⟨i, s.ambient.now, x, hx, rfl⟩)

/-- The signed tokens. -/
def jwts : Object (broker D) JwtOp JwtOp.Res (List SignedJwt) :=
  part D (·.jwts) (fun a => ⟨.jwt a.op, a.res⟩)
    (fun | ⟨.jwt o, r⟩ => some ⟨o, r⟩ | _ => none)
    fun s a s' => ∃ i now, a.op.exec i now s = some (a.res, s')

/-- `challenge:*`. -/
def challenges : Object (broker D) ChallengeOp ChallengeOp.Res (List (Timed ChallengeRecord)) :=
  part D (·.challenges) (fun a => ⟨.challenge a.op, a.res⟩)
    (fun | ⟨.challenge o, r⟩ => some ⟨o, r⟩ | _ => none)
    fun s a s' => ∃ now, a.op.exec now s = (a.res, s')

/-- `attnonce:*`. -/
def nonces : Object (broker D) NonceOp NonceOp.Res (List (Timed NonceRecord)) :=
  part D (·.nonces) (fun a => ⟨.nonce a.op, a.res⟩)
    (fun | ⟨.nonce o, r⟩ => some ⟨o, r⟩ | _ => none)
    fun s a s' => ∃ now, a.op.exec now s = (a.res, s')

/-- `codeflow:*`. -/
def stashes : Object (broker D) StashOp StashOp.Res (List (Timed CodeFlowStash)) :=
  part D (·.stashes) (fun a => ⟨.stash a.op, a.res⟩)
    (fun | ⟨.stash o, r⟩ => some ⟨o, r⟩ | _ => none)
    fun s a s' => ∃ now, a.op.exec now s = (a.res, s')

/-- `revoked:*` and `anom:alerted:*`. -/
def flags : Object (broker D) FlagOp FlagOp.Res (List (Timed Unit)) :=
  part D (·.flags) (fun a => ⟨.flag a.op, a.res⟩)
    (fun | ⟨.flag o, r⟩ => some ⟨o, r⟩ | _ => none)
    fun s a s' => ∃ now, a.op.exec now s = (a.res, s')

/-- `citizens`. -/
def citizens : Object (broker D) CitizenOp CitizenOp.Res (List Citizen) :=
  part D (·.citizens) (fun a => ⟨.citizen a.op, a.res⟩)
    (fun | ⟨.citizen o, r⟩ => some ⟨o, r⟩ | _ => none)
    fun s a s' => ∃ now, a.op.exec now s = (a.res, s')

/-- `device_bindings`. -/
def bindings : Object (broker D) BindingOp BindingOp.Res (List DeviceBinding) :=
  part D (·.bindings) (fun a => ⟨.binding a.op, a.res⟩)
    (fun | ⟨.binding o, r⟩ => some ⟨o, r⟩ | _ => none)
    fun s a s' => ∃ now, a.op.exec now s = (a.res, s')

/-- `relying_parties`. -/
def rps : Object (broker D) RpOp RpOp.Res (List RelyingParty) :=
  part D (·.rps) (fun a => ⟨.rp a.op, a.res⟩)
    (fun | ⟨.rp o, r⟩ => some ⟨o, r⟩ | _ => none)
    fun s a s' => ∃ now, a.op.exec now s = (a.res, s')

/-- `pairwise_subjects`. -/
def subjects : Object (broker D) SubjectOp SubjectOp.Res (List PairwiseSubject) :=
  part D (·.subjects) (fun a => ⟨.subject a.op, a.res⟩)
    (fun | ⟨.subject o, r⟩ => some ⟨o, r⟩ | _ => none)
    fun s a s' => a.op.exec s = (a.res, s')

/-- `auth_transactions`. -/
def txns : Object (broker D) TxnOp TxnOp.Res (List AuthTransaction) :=
  part D (·.txns) (fun a => ⟨.txn a.op, a.res⟩)
    (fun | ⟨.txn o, r⟩ => some ⟨o, r⟩ | _ => none)
    fun s a s' => ∃ now, a.op.exec now s = (a.res, s')

/-- `authorization_codes`. -/
def codes : Object (broker D) CodeOp CodeOp.Res (List AuthorizationCode) :=
  part D (·.codes) (fun a => ⟨.code a.op, a.res⟩)
    (fun | ⟨.code o, r⟩ => some ⟨o, r⟩ | _ => none)
    fun s a s' => a.op.exec s = (a.res, s')

/-- `consent_grants`. -/
def consents : Object (broker D) ConsentOp ConsentOp.Res (List ConsentGrant) :=
  part D (·.consents) (fun a => ⟨.consent a.op, a.res⟩)
    (fun | ⟨.consent o, r⟩ => some ⟨o, r⟩ | _ => none)
    fun s a s' => ∃ now, a.op.exec now s = (a.res, s')

/-- `audit_events`. -/
def auditEvents : Object (broker D) AuditOp AuditOp.Res (List AuditRow) :=
  part D (·.audit) (fun a => ⟨.audit a.op, a.res⟩)
    (fun | ⟨.audit o, r⟩ => some ⟨o, r⟩ | _ => none)
    fun s a s' => ∃ i now, a.op.exec D.engine.audit i now s = some (a.res, s')

end Objects

end SdidBridge
