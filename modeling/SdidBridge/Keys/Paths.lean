import SdidBridge.Keys.Service

/-!
# The paths of the key service

Three parts of the service change what is told apart below: the transaction of a rotation, the
refresh of the published key set, and the usage summary. Everything else is routine, but for the last
command of a replica that stops. What these keep, and every routine command, holds along every call
(`along_handler`).
-/

namespace SdidBridge.Keys

open Concurrent Prog

/-- The commands that are of none of the three parts, and do not stop a replica. -/
def Routine : Op → Prop
  | .table (.lock _) => False
  | .table .retireActive => False
  | .table (.insert _) => False
  | .table .commit => False
  | .table (.rollback _) => False
  | .on _ .listPublicJwks => False
  | .on _ (.setJwks _) => False
  | .on _ .snapshot => False
  | .on _ (.subtract _) => False
  | .append _ (.usageSummary _ _ _) => False
  | .on _ .close => False
  | _ => True

section Routine

variable {r : ℕ}

theorem routine_reload : Only Routine (reload r) :=
  (only_perform _ trivial).bind fun _ => only_perform _ trivial

theorem routine_generateActiveKey : Only Routine (generateActiveKey r) :=
  (only_perform _ trivial).bind fun _ => (only_perform _ trivial).bind fun _ =>
    (only_perform _ trivial).onlyIf

theorem routine_init : Only Routine (init r) :=
  routine_reload.bind fun _ => (only_perform _ trivial).bind fun _ =>
    (routine_generateActiveKey.bind fun _ => routine_reload).onlyIf

theorem routine_healthCheck : Only Routine (healthCheck r) :=
  (routine_reload.bind fun _ => (only_perform _ trivial).bind fun _ => only_pure _).recover
    fun _ => only_pure _

theorem routine_sign (kid : String) (purpose : Purpose) : Only Routine (sign r kid purpose) := by
  refine (only_perform _ trivial).bind fun first => ?_
  cases first with
  | signed => exact only_pure _
  | failed audited => exact only_pure _
  | missing =>
    refine Only.bind ?_ fun again => ?_
    · refine Only.recover ?_ fun e => only_pure _
      exact routine_reload.bind fun _ => (only_perform _ trivial).bind fun _ => only_pure _
    · obtain ⟨e, answer⟩ := again
      cases answer with
      | signed => exact only_pure _
      | failed audited => exact only_pure _
      | missing => exact (only_perform _ trivial).bind fun _ => only_pure _

theorem routine_signCompactJws (claims : Claims) (purpose : Purpose) :
    Only Routine (signCompactJws r claims purpose) := by
  refine (only_perform _ trivial).bind fun active => (only_orThrow _ _).bind fun kid =>
    (routine_sign kid purpose).bind fun failed => ?_
  cases failed with
  | none => exact only_pure _
  | some x =>
    refine Only.bind (Only.onlyIf ?_) fun _ => only_throwing _
    exact (only_perform _ trivial).recover fun _ => only_pure _

theorem routine_signJwt (C : KeysConfig) (payload : List (String × JsValue)) (audience : String)
    (ttlSeconds : ℕ) (jti : Option String) :
    Only Routine (signJwt C r payload audience ttlSeconds jti) := by
  refine (only_perform _ trivial).bind fun now => Only.bind ?_ fun _ => routine_signCompactJws _ _
  cases jti with
  | some x => exact only_pure _
  | none => exact only_perform _ trivial

theorem routine_verifyJwt (C : KeysConfig) (j : Jws) (audience : Option String) :
    Only Routine (verifyJwt C r j audience) :=
  (only_perform _ trivial).bind fun _ => (only_perform _ trivial).bind fun _ =>
    (only_throwIf _ _).bind fun _ => only_pure _

theorem routine_noteHealth (healthy : Bool) : Only Routine (noteHealth r healthy) := by
  refine (only_perform _ trivial).bind fun changed => ?_
  cases changed with
  | none => exact only_pure _
  | some previous => exact (only_perform _ trivial).recover fun _ => only_pure _

theorem routine_drainLifecycleEvents (rounds : ℕ) :
    Only Routine (drainLifecycleEvents r rounds) := by
  induction rounds with
  | zero => exact only_pure _
  | succ rounds ih =>
    refine (only_perform _ trivial).bind fun event => ?_
    cases event with
    | none => exact only_pure _
    | some event => exact (only_perform _ trivial).bind fun _ => ih

end Routine

/-! ## The commands of the three parts -/

section Parts

variable {P : Op → Prop} {r : ℕ}

theorem only_publish (hon : ∀ k, P (.on r k)) : Only P (publish r) :=
  (only_perform _ (hon _)).bind fun _ => (only_perform _ (hon _)).bind fun _ => only_pure _

theorem only_flushUsageSummary (C : KeysConfig) (reason : FlushReason) (hon : ∀ k, P (.on r k))
    (happend : ∀ e, P (.append r e)) : Only P (flushUsageSummary C r reason) := by
  refine (only_perform _ (hon _)).bind fun keys => Only.onlyIf (Only.bind ?_ fun written =>
    Only.onlyIf (only_perform _ (hon _)))
  refine Only.recover ((only_perform _ (happend _)).bind fun _ => only_pure _) fun e => ?_
  exact (only_perform _ (hon _)).bind fun _ => (only_throwIf _ _).bind fun _ => only_pure _

theorem Only.rollingBack {α : Type} {p : Call α} {locked : Bool} (hp : Only P p)
    (htable : ∀ k, P (.table k)) : Only P (rollingBack locked p) :=
  hp.recover fun _ => (only_perform _ (htable _)).bind fun _ => only_throwing _

theorem only_rotationTransaction (htable : ∀ k, P (.table k)) (hrandom : P .randomBytes) :
    Only P rotationTransaction := by
  refine (Only.rollingBack (only_perform _ (htable _)) htable).bind fun _ =>
    (Only.rollingBack (only_perform _ (htable _)) htable).bind fun _ => Only.rollingBack ?_ htable
  exact (only_perform _ (htable _)).bind fun _ => (only_perform _ hrandom).bind fun _ =>
    (only_perform _ (htable _)).bind fun _ => (only_perform _ (htable _)).bind fun _ => only_pure _

end Parts

section Along

variable {Φ : List Cmd → Op → Prop} {J : List Cmd → Prop}

/-- A part that keeps `J`, however it ends. -/
def Keeps (Φ : List Cmd → Op → Prop) (J : List Cmd → Prop) {α : Type} (p : Call α) : Prop :=
  ∀ h, J h → Along Φ (fun h' _ => J h') h p

theorem keeps_pure {α : Type} (a : α) : Keeps Φ J (pure a : Call α) := fun _ h => h

theorem Keeps.bind {α β : Type} {p : Call α} {f : α → Call β} (hp : Keeps Φ J p)
    (hf : ∀ a, Keeps Φ J (f a)) : Keeps Φ J (p >>= f) := by
  intro h hh
  refine Along.bind (Q := fun _ h => J h) ((hp h hh).mono (fun _ _ h => h) ?_) fun a h' hh' => hf a h' hh'
  intro h' r hr
  cases r <;> exact hr

theorem Keeps.recover {α : Type} {p : Call α} {f : KeyError → Call α} (hp : Keeps Φ J p)
    (hf : ∀ e, Keeps Φ J (f e)) : Keeps Φ J (p.recover f) := by
  intro h hh
  rw [along_recover]
  refine (hp h hh).mono (fun _ _ h => h) fun h' r hr => ?_
  cases r with
  | ok a => exact hr
  | error e => exact hf e h' hr

variable (hroutine : ∀ h o, J h → Routine o → Φ h o ∧ ∀ a, J (⟨o, a⟩ :: h))
  (hpublish : ∀ r, Keeps Φ J (publish r))
  (hflush : ∀ C r reason, Keeps Φ J (flushUsageSummary C r reason))
  (hrotation : Keeps Φ J rotationTransaction)

include hroutine

/-- Routine commands keep `J`. -/
theorem keeps_of_routine {α : Type} {p : Call α} (hp : Only Routine p) : Keeps Φ J p :=
  fun _ hh => hp.along hroutine hh

include hpublish hflush hrotation

/-- What the routine commands and the three parts keep holds along every call. -/
theorem along_handler (C : KeysConfig) (h₀ : J []) (q : Request)
    (hclose : ∀ r, q = .shutdown r → Keeps Φ J (await (.on r .close))) :
    Along Φ (fun h _ => J h) [] ((replicas C).handler q) := by
  have routine : ∀ {α : Type} {p : Call α}, Only Routine p → Keeps Φ J p :=
    fun hp => keeps_of_routine hroutine hp
  have one : ∀ {o : Op}, Routine o → Keeps Φ J (await o) := fun ho => routine (only_perform _ ho)
  suffices h : Keeps Φ J ((replicas C).handler q) from h [] h₀
  cases q with
  | boot r rounds =>
    refine Keeps.bind ?_ fun _ => keeps_pure _
    exact (routine routine_init).bind fun _ => (hpublish r).bind fun _ =>
      routine (routine_drainLifecycleEvents rounds)
  | shutdown r =>
    refine Keeps.bind ?_ fun _ => keeps_pure _
    exact Keeps.bind (one trivial) fun _ => (hflush C r _).bind fun _ => hclose r rfl
  | rotate r rounds =>
    refine Keeps.bind ?_ fun _ => keeps_pure _
    refine (hflush C r _).bind fun _ => Keeps.bind ?_ fun result => (hpublish r).bind fun _ =>
      (routine (routine_drainLifecycleEvents rounds)).bind fun _ => Keeps.bind (one trivial) fun _ =>
        keeps_pure _
    exact Keeps.bind (one trivial) fun _ => hrotation.bind fun _ =>
      (routine routine_reload).bind fun _ => Keeps.bind (one trivial) fun _ => keeps_pure _
  | probe r =>
    refine Keeps.bind ?_ fun _ => keeps_pure _
    refine (routine routine_healthCheck).bind fun healthy =>
      (routine (routine_noteHealth healthy)).bind fun _ =>
      (routine (only_throwIf _ _)).bind fun _ => (hpublish r).bind fun kids =>
      (routine (only_throwIf _ _)).bind fun _ => Keeps.bind (one trivial) fun now =>
      (routine (routine_signCompactJws _ _)).bind fun j =>
      (routine (routine_verifyJwt C j _)).bind fun _ => keeps_pure _
  | sign r payload audience ttlSeconds jti =>
    exact (routine (routine_signJwt C payload audience ttlSeconds jti)).bind fun _ => keeps_pure _
  | verify r j audience =>
    exact (routine (routine_verifyJwt C j audience)).bind fun _ => keeps_pure _
  | jwks r => exact Keeps.bind (one trivial) fun _ => keeps_pure _
  | interval r =>
    exact ((hflush C r _).recover fun _ => keeps_pure _).bind fun _ => keeps_pure _
  | flush r reason => exact (hflush C r reason).bind fun _ => keeps_pure _

end Along

end SdidBridge.Keys
