import SdidBridge.Concurrent.Paired
import SdidBridge.Broker.Denylist

/-!
# What a relying party's call can tell

At the endpoints that authenticate their client, what a command is about is the client's own: its subjects,
its hits, and the transactions and codes that it has been compared with (`yields_asks`). Two commands read a
row before they look at whose it is. The grants go on from a row of another as from none (`blind_cibaGrant`,
`blind_codeGrant`), so that a call cannot tell what is another's from what is not there (`blind_handler`).
-/

namespace SdidBridge

open Concurrent Machine

variable {D : Deployment} {b : RelyingParty}

/-! ## The commands of a client's calls -/

section Paths

variable {q : Request} {h : Path} {rp : RelyingParty}

/-- The relying party that the request is made by. -/
def OwnRp (q : Request) (h : Path) (rp : RelyingParty) : Prop :=
  ∃ clientId, q.client = some clientId ∧ ReadsActive h clientId rp

theorem OwnRp.cons (a : Cmd) (hown : OwnRp q h rp) : OwnRp q (a :: h) rp := by
  obtain ⟨clientId, hclient, hreads⟩ := hown
  exact ⟨clientId, hclient, hreads.mono (List.suffix_cons _ _)⟩

/-- The key of the hits that a relying party may have within a minute. -/
def hitsKey (rpId : Uuid) : String := "rl:" ++ ("ciba:rp:" ++ rpId.text)

/-- The commands that every part of a client's call may issue: what they are about is the relying party's. -/
def Op.OfRp (rp : RelyingParty) : Op → Prop
  | .ambient _ => True
  | .service _ => True
  | .jwt (.sign _ _ _) => True
  | .flag (.set _ _) => True
  | .counter (.incr key) => key = hitsKey rp.id
  | .counter (.expire _ _) => True
  | .binding (.select _) => True
  | .binding (.selectActiveOf _) => True
  | .binding (.clearPushToken _ _) => True
  | .subject (.select _ rpId) => rpId = rp.id
  | .subject (.selectBySubject rpId _) => rpId = rp.id
  | .subject (.insert _) => True
  | .consent (.insert _ _ _ _ _) => True
  | .audit (.append _) => True
  | _ => False

/-- The command inserts a transaction. -/
def Op.startsTxn : Op → Bool
  | .txn (.insert _ _ _ _ _ _ _ _ _) => true
  | _ => false

/-- What precedes a command of a client's call. -/
def AsksOn (q : Request) (h : Path) : Op → Prop
  | .rp (.selectByClientId _) => True
  | .txn (.select _) => True
  | .code (.select _) => True
  | .jwt (.verify token aud) => aud = none ∧ ∃ creds, q = .introspect creds (some token)
  | .flag (.get key) => ∃ token j, (⟨.jwt (.verify token none), some j⟩ : Cmd) ∈ h ∧ key = "revoked:" ++ j.jti
  | .txn (.insert _ _ _ _ _ _ _ _ _) => ∀ a ∈ h, a.op.startsTxn = false
  | .txn (.expire id) => ∃ rp authReqId T, OwnRp q h rp ∧ ReadsTxn h authReqId T ∧ T.rpId = rp.id ∧ T.id = id
  | .txn (.consume id) => ∃ rp authReqId T, OwnRp q h rp ∧ ReadsTxn h authReqId T ∧ T.rpId = rp.id ∧ T.id = id
  | .code (.consume codeHash _) => ∃ rp digest row, OwnRp q h rp ∧
      (⟨.code (.select digest), some (some row)⟩ : Cmd) ∈ h ∧ row.rpId = rp.id ∧ row.codeHash = codeHash
  | o => ∃ rp, OwnRp q h rp ∧ o.OfRp rp

theorem Op.OfRp.asksOn {o : Op} (ho : o.OfRp rp) (hown : OwnRp q h rp) : AsksOn q h o := by
  unfold AsksOn
  split
  all_goals first
    | exact ho.elim
    | exact ⟨rp, hown, ho⟩

theorem Op.OfRp.startsTxn {o : Op} (ho : o.OfRp rp) : o.startsTxn = false := by
  unfold Op.startsTxn
  split
  · exact ho.elim
  · rfl

/-! ### Parts of the calls -/

theorem ofRp_hit {limit window : ℕ} :
    (hit ("ciba:rp:" ++ rp.id.text) limit window).Only (Op.OfRp rp) :=
  .bind (Prog.only_perform _ rfl) fun _ => .bind (.onlyIf (Prog.only_perform _ trivial)) fun _ =>
    Prog.only_throwIf _ _

theorem ofRp_wake {citizenId : Uuid} : (wake citizenId).Only (Op.OfRp rp) := by
  refine .bind (.recover (Prog.only_perform _ trivial) fun _ => Prog.only_pure _) fun _ =>
    .bind (.forEach (fun target => ?_) _) fun _ => Prog.only_pure _
  exact .recover (.bind (Prog.only_perform _ trivial) fun _ => .onlyIf (.bind (Prog.only_perform _ trivial)
    fun _ => Prog.only_perform _ trivial)) fun _ => Prog.only_pure _

theorem ofRp_mint {citizenId : Uuid} {scopes : List String} {acr : AssuranceLevel} {authTime : Time}
    {nonce : Option String} : (mint D rp citizenId scopes acr authTime nonce).Only (Op.OfRp rp) := by
  refine .bind (.bind (Prog.only_perform _ rfl) fun existing => ?_) fun sub =>
    .bind (Prog.only_perform _ trivial) fun _ => .bind (Prog.only_perform _ trivial) fun _ => Prog.only_pure _
  cases existing with
  | some row => exact Prog.only_pure _
  | none => exact .bind (Prog.only_perform _ trivial) fun _ => Prog.only_pure _

/-- The commands of a CIBA grant once it has read its transaction. -/
def Op.Grants (rp : RelyingParty) (txn : AuthTransaction) (o : Op) : Prop :=
  o.OfRp rp ∨ o = .txn (.expire txn.id) ∨ o = .txn (.consume txn.id)

theorem grants_cibaGrantOf {txn : AuthTransaction} : (cibaGrantOf D rp txn).Only (Op.Grants rp txn) := by
  refine .bind (Prog.only_perform _ (.inl trivial)) fun now => .ite ?_ ?_
  · exact .bind (Prog.only_perform _ (.inr (.inl rfl))) fun _ =>
      .bind (.onlyIf (Prog.only_perform _ (.inl trivial))) fun _ => Prog.only_throwing _
  · refine .bind (Prog.only_throwIf _ _) fun _ => .bind (Prog.only_throwIf _ _) fun _ =>
      .bind (Prog.only_throwIf _ _) fun _ => .bind (Prog.only_throwIf _ _) fun _ => .bind ?_ fun _ =>
        .bind (Prog.only_orThrow _ _) fun _ => .bind (Prog.only_perform _ (.inr (.inr rfl))) fun _ =>
          .bind (Prog.only_throwIf _ _) fun _ => .bind (ofRp_mint.mono fun _ h => .inl h) fun _ =>
            .bind (Prog.only_perform _ (.inl trivial)) fun _ => .bind (Prog.only_perform _ (.inl trivial)) fun _ =>
              .bind (Prog.only_perform _ (.inl trivial)) fun _ =>
                .bind (Prog.only_perform _ (.inl trivial)) fun _ => Prog.only_pure _
    unfold approvingBinding
    split
    · exact Prog.only_perform _ (.inl trivial)
    · exact Prog.only_pure _

/-- `codeGrant` once it has read and checked its code. -/
def redeem (D : Deployment) (rp : RelyingParty) (row : AuthorizationCode) (now : Time) : H TokenResponse := do
  let consumed ← await (.code (.consume row.codeHash now))
  Prog.throwIf (consumed = 0) (.bridge ⟨.invalid_grant, "Invalid authorization code", 400⟩)
  let response ← mint D rp row.citizenId row.scopes row.assurance row.authTime row.nonce
  auditAppend {
    actor := rpActor rp.id
    action := .oidcTokensIssued
    subjectRef := some row.citizenId.text
    rpId := some rp.id.text
    assurance := some row.assurance
    result := .success
    context := some (.obj [("scopes", .strs row.scopes), ("flow", .str "code")]) }
  return response

/-- `codeGrant` up to its checks. -/
theorem codeGrant_eq {body : TokenRequest} : codeGrant D rp body = (do
    let code ← Prog.orThrow (truthy body.code) missingCodeParameters
    let redirectUri ← Prog.orThrow (truthy body.redirect_uri) missingCodeParameters
    let codeVerifier ← Prog.orThrow (truthy body.code_verifier) missingCodeParameters
    let found ← await (.code (.select (D.sha256Hex code)))
    let now ← newDate
    let row ← Prog.orThrow found (.bridge ⟨.invalid_grant, "Invalid authorization code", 400⟩)
    Prog.throwIf (row.rpId ≠ rp.id ∨ row.consumedAt ≠ none ∨ row.expiresAt ≤ now ∨
        row.redirectUri ≠ redirectUri ∨ D.base64urlSha256 codeVerifier ≠ row.codeChallenge)
      (.bridge ⟨.invalid_grant, "Invalid authorization code", 400⟩)
    redeem D rp row now) := rfl

/-- The commands of a redemption. -/
def Op.RedeemsCode (rp : RelyingParty) (row : AuthorizationCode) (now : Time) (o : Op) : Prop :=
  o.OfRp rp ∨ o = .code (.consume row.codeHash now)

theorem redeemsCode_redeem {row : AuthorizationCode} {now : Time} :
    (redeem D rp row now).Only (Op.RedeemsCode rp row now) :=
  .bind (Prog.only_perform _ (.inr rfl)) fun _ => .bind (Prog.only_throwIf _ _) fun _ =>
    .bind (ofRp_mint.mono fun _ h => .inl h) fun _ => .bind (Prog.only_perform _ (.inl trivial)) fun _ =>
      Prog.only_pure _

/-! ### The paths -/

/-- A part of a call whose commands are about the relying party's. -/
theorem yields_ofRp {α : Type} {p : H α} {K : Path → Prop} (hp : p.Only (Op.OfRp rp)) (hown : OwnRp q h rp)
    (hK : ∀ h o r, o.OfRp rp → K h → K (⟨o, r⟩ :: h)) (h₀ : K h) :
    Yields (AsksOn q) h p fun _ h' => OwnRp q h' rp ∧ K h' := by
  refine Only.yields hp (J := fun h => OwnRp q h rp ∧ K h) ?_ ⟨hown, h₀⟩
  rintro h o ⟨hown, h₀⟩ ho
  exact ⟨ho.asksOn hown, fun r => ⟨hown.cons _, hK h o r ho h₀⟩⟩

theorem yields_asks_cibaGrant {body : TokenRequest} (hown : OwnRp q h rp) :
    Yields (AsksOn q) h (cibaGrant D rp body) fun _ _ => True := by
  simp only [cibaGrant, yields_bind, yields_orThrow, yields_await, yields_throwIf]
  intro authReqId hauthReqId
  refine ⟨trivial, ?_⟩
  rintro row txn rfl hrp
  have hmine : txn.rpId = rp.id := not_not.mp hrp
  refine (Only.yields grants_cibaGrantOf
    (J := fun h => OwnRp q h rp ∧ ReadsTxn h authReqId txn) ?_ ⟨hown.cons _, List.mem_cons_self⟩).mono
      fun _ _ _ => trivial
  rintro h o ⟨hown, hread⟩ ho
  refine ⟨?_, fun r => ⟨hown.cons _, List.mem_cons_of_mem _ hread⟩⟩
  rcases ho with ho | rfl | rfl
  · exact ho.asksOn hown
  · exact ⟨rp, authReqId, txn, hown, hread, hmine, rfl⟩
  · exact ⟨rp, authReqId, txn, hown, hread, hmine, rfl⟩

theorem yields_asks_codeGrant {body : TokenRequest} (hown : OwnRp q h rp) :
    Yields (AsksOn q) h (codeGrant D rp body) fun _ _ => True := by
  rw [codeGrant_eq]
  simp only [yields_bind, yields_orThrow, yields_await, yields_newDate, yields_throwIf]
  intro code hcode redirectUri hredirectUri verifier hverifier
  refine ⟨trivial, fun found => ⟨⟨rp, hown.cons _, trivial⟩, ?_⟩⟩
  rintro now row rfl hchecks
  have hmine : row.rpId = rp.id := not_not.mp (not_or.mp hchecks).1
  refine (Only.yields redeemsCode_redeem (J := fun h => OwnRp q h rp ∧
    (⟨.code (.select (D.sha256Hex code)), some (some row)⟩ : Cmd) ∈ h) ?_
      ⟨(hown.cons _).cons _, List.mem_cons_of_mem _ List.mem_cons_self⟩).mono fun _ _ _ => trivial
  rintro h o ⟨hown, hread⟩ ho
  refine ⟨?_, fun r => ⟨hown.cons _, List.mem_cons_of_mem _ hread⟩⟩
  rcases ho with ho | rfl
  · exact ho.asksOn hown
  · exact ⟨rp, _, row, hown, hread, hmine, rfl⟩

theorem yields_asks_token {creds : Option Credentials} {body : TokenRequest} :
    Yields (AsksOn (.token creds body)) [] (token D creds body) fun _ _ => True := by
  rw [token, yields_bind]
  refine (yields_authenticateClient fun _ _ => trivial).mono ?_
  rintro rp h ⟨cr, rfl, hreads⟩
  have hown : OwnRp (.token (some cr) body) h rp := ⟨cr.clientId, rfl, hreads⟩
  rw [yields_ite, yields_ite]
  exact ⟨fun _ => yields_asks_cibaGrant hown,
    fun _ => ⟨fun _ => yields_asks_codeGrant hown, fun _ => yields_refuse _ _ _⟩⟩

theorem yields_asks_introspect {creds : Option Credentials} {token : Option String} :
    Yields (AsksOn (.introspect creds token)) [] (introspect D creds token) fun _ _ => True := by
  rw [introspect, yields_bind]
  refine (yields_authenticateClient fun _ _ => trivial).mono fun rp h _ => ?_
  cases htoken : truthy token with
  | none => exact trivial
  | some x =>
    refine And.intro ⟨rfl, creds, by rw [truthy_eq_some htoken]⟩ fun payload => ?_
    cases payload with
    | none => exact trivial
    | some payload =>
      refine And.intro ⟨x, payload, List.mem_cons_self, rfl⟩ fun revoked => ?_
      cases revoked with
      | none => exact trivial
      | some revoked => cases revoked <;> exact trivial

theorem yields_asks_revoke {creds : Option Credentials} {token : Option String} :
    Yields (AsksOn (.revoke creds token)) [] (revoke D creds token) fun _ _ => True := by
  rw [revoke, yields_bind]
  refine (yields_authenticateClient fun _ _ => trivial).mono ?_
  rintro rp h ⟨cr, rfl, hreads⟩
  have hown : OwnRp (.revoke (some cr) token) h rp := ⟨cr.clientId, rfl, hreads⟩
  cases (truthy token).bind D.decodeJwt with
  | none => exact trivial
  | some payload =>
    have honly : ((denyToken rp payload).recover fun _ => pure ()).Only (Op.OfRp rp) := by
      refine .recover ?_ fun _ => Prog.only_pure _
      unfold denyToken
      split
      · exact Prog.only_pure _
      · exact .ite (.bind (Prog.only_perform _ trivial) fun _ => .bind (Prog.only_perform _ trivial) fun _ =>
          Prog.only_perform _ trivial) (Prog.only_pure _)
    exact (yields_ofRp (K := fun _ => True) honly hown (fun _ _ _ _ h => h) trivial).mono fun _ _ _ => trivial

theorem yields_asks_bcAuthorize {creds : Option Credentials} {body : BcAuthorizeRequest} :
    Yields (AsksOn (.bcAuthorize creds body)) [] (bcAuthorize D creds body) fun _ _ => True := by
  rw [bcAuthorize, yields_bind, yields_throwIf]
  intro _
  rw [yields_bind]
  refine (yields_authenticateClient_path fun _ _ => trivial).mono ?_
  rintro rp h ⟨cr, rfl, hactive, rfl⟩
  have hown : OwnRp (.bcAuthorize (some cr) body)
      [⟨.rp (.selectByClientId cr.clientId), some (some rp)⟩] rp :=
    ⟨cr.clientId, rfl, List.mem_cons_self, hactive⟩
  rw [yields_bind]
  -- No transaction has been started yet.
  have hkeep : ∀ h o r, Op.OfRp rp o → (∀ a ∈ h, a.op.startsTxn = false) →
      ∀ a ∈ (⟨o, r⟩ :: h : Path), a.op.startsTxn = false := by
    intro h o r ho hnone a ha
    rcases List.mem_cons.mp ha with rfl | ha
    · exact ho.startsTxn
    · exact hnone a ha
  refine (yields_ofRp ofRp_hit hown hkeep (by simp [Op.startsTxn])).mono ?_
  rintro _ h ⟨hown, hnone⟩
  simp only [citizenForSubject, yields_bind, yields_throwIf, yields_orThrow, yields_await, yields_pure,
    yields_randomBytes, yields_uuidv7, yields_newDate]
  intro _ _ _
  refine ⟨⟨rp, hown, rfl⟩, fun row citizenId _ => ⟨⟨rp, hown.cons _, trivial⟩, fun bindings _ => ?_⟩⟩
  refine ⟨⟨rp, (hown.cons _).cons _, trivial⟩, fun authReqId => ⟨⟨rp, ((hown.cons _).cons _).cons _, trivial⟩,
    fun id => ⟨⟨rp, (((hown.cons _).cons _).cons _).cons _, trivial⟩, fun now => ?_⟩⟩⟩
  have hown' := ((((hown.cons ⟨.subject (.selectBySubject rp.id body.login_hint), some row⟩).cons
    ⟨.binding (.selectActiveOf citizenId), some bindings⟩).cons
    ⟨.ambient (.randomBytes 32 .base64url), some authReqId⟩).cons ⟨.ambient .uuidv7, some id⟩).cons
    ⟨.ambient .now, some now⟩
  refine ⟨by simpa [AsksOn, Op.startsTxn] using hnone, fun _ => ?_⟩
  refine (yields_ofRp (K := fun _ => True) ofRp_wake (hown'.cons _) (fun _ _ _ _ h => h) trivial).mono ?_
  rintro _ h ⟨hown, -⟩
  rw [yields_auditAppend]
  exact ⟨⟨rp, hown, trivial⟩, trivial⟩

/-- The client id that a request is authenticated with, where the endpoint authenticates its client. -/
def Request.authenticated : Request → Option String
  | .token creds _ => creds.map (·.clientId)
  | .introspect creds _ => creds.map (·.clientId)
  | .revoke creds _ => creds.map (·.clientId)
  | .bcAuthorize creds _ => creds.map (·.clientId)
  | _ => none

theorem yields_asks {clientId : String} (hq : q.authenticated = some clientId) :
    Yields (AsksOn q) [] (handler D q) fun _ _ => True := by
  cases q with
  | token creds body => exact yields_asks_token.reply.mono fun _ _ _ => trivial
  | introspect creds token => exact yields_asks_introspect.reply.mono fun _ _ _ => trivial
  | revoke creds token => exact yields_asks_revoke.reply.mono fun _ _ _ => trivial
  | bcAuthorize creds body => exact yields_asks_bcAuthorize.reply.mono fun _ _ _ => trivial
  | _ => simp [Request.authenticated] at hq

end Paths

/-! ## What a client's call can tell -/

/-- The answer is a row of the relying party's, or none. -/
def Foreign {α : Type} (rpId : α → Uuid) (b : RelyingParty) (r : Option (Option α)) : Prop :=
  ∃ row, r = some row ∧ ∀ x, row = some x → rpId x = b.id

/-- The answers to a command that stores give which differ in what is the relying party's `b`. -/
def Alike (b : RelyingParty) : (o : Op) → Option o.Res → Option o.Res → Prop
  | .rp (.selectByClientId clientId), r, r' =>
    r = r' ∧ ∀ rp, r = some (some rp) → clientId ≠ b.clientId → rp.id ≠ b.id
  | .txn (.select _), r, r' =>
    r = r' ∨ Foreign AuthTransaction.rpId b r ∧ Foreign AuthTransaction.rpId b r'
  | .code (.select _), r, r' =>
    r = r' ∨ Foreign AuthorizationCode.rpId b r ∧ Foreign AuthorizationCode.rpId b r'
  | _, r, r' => r = r'

/-- The command reads a row before it is known whose it is. -/
def Op.readsAny : Op → Bool
  | .txn (.select _) => true
  | .code (.select _) => true
  | _ => false

theorem Alike.eq {o : Op} {r r' : Option o.Res} (h : Alike b o r r') (ho : o.readsAny = false) : r = r' := by
  unfold Alike at h
  split at h
  · exact h.1
  · simp [Op.readsAny] at ho
  · simp [Op.readsAny] at ho
  · exact h

theorem alike_none (o : Op) : Alike b o none none := by
  unfold Alike
  split
  · exact ⟨rfl, by simp⟩
  · exact .inl rfl
  · exact .inl rfl
  · rfl

theorem alike_of_eq {o : Op} {r r' : Option o.Res} (h : r = r') (ho : ∀ clientId, o ≠ .rp (.selectByClientId clientId)) :
    Alike b o r r' := by
  unfold Alike
  split
  · exact absurd rfl (ho _)
  · exact .inl h
  · exact .inl h
  · exact h

section Blind

variable {rp : RelyingParty}

theorem Op.OfRp.readsAny {o : Op} (ho : o.OfRp rp) : o.readsAny = false := by
  unfold Op.readsAny
  split
  · exact ho.elim
  · exact ho.elim
  · rfl

/-- A program that reads no row before it is known whose it is. -/
theorem blind_of_reads {α : Type} {p : H α} (hp : p.Only fun o => o.readsAny = false) :
    Blind (Alike b) (fun _ => True) p :=
  blind_of_only hp fun _ ho _ _ h => h.eq ho

/-- Authentication by another client id yields another relying party. -/
theorem blind_authenticateClient {cr : Credentials} (hother : cr.clientId ≠ b.clientId) :
    Blind (Alike b) (fun rp => rp.id ≠ b.id) (authenticateClient D (some cr)) := by
  refine blind_perform_bind (fun row hV => ?_) fun r r' hV => .inl hV.1
  refine Blind.bind (blind_orThrow (Q := fun rp => row = some rp) _ fun _ h => h) ?_
  rintro rp rfl
  exact Blind.bind (blind_orThrow (Q := fun _ => True) _ fun _ _ => trivial) fun _ _ =>
    Blind.bind (blind_throwIf (Q := fun _ => True) _ fun _ => trivial) fun _ _ =>
      Blind.bind (blind_throwIf (Q := fun _ => True) _ fun _ => trivial) fun _ _ =>
        blind_pure (hV.2 rp rfl hother)

/-- A CIBA grant goes on from a transaction of another relying party as from none. -/
theorem blind_cibaGrant {body : TokenRequest} (hrp : rp.id ≠ b.id) :
    Blind (Alike b) (fun _ => True) (cibaGrant D rp body) := by
  refine Blind.bind (blind_orThrow (Q := fun _ => True) _ fun _ _ => trivial) fun authReqId _ => ?_
  -- A row of the other one is refused in the words that none is.
  have hforeign : ∀ row, (∀ T : AuthTransaction, row = some T → T.rpId = b.id) → (do
      let txn ← Prog.orThrow row (.bridge ⟨.invalid_grant, "Unknown auth_req_id", 400⟩)
      Prog.throwIf (txn.rpId ≠ rp.id) (.bridge ⟨.invalid_grant, "Unknown auth_req_id", 400⟩)
      cibaGrantOf D rp txn : H TokenResponse) = .raise (.bridge ⟨.invalid_grant, "Unknown auth_req_id", 400⟩) := by
    intro row hrow
    cases row with
    | none => rfl
    | some T =>
      have hne : T.rpId ≠ rp.id := by
        rw [hrow T rfl]
        exact Ne.symm hrp
      exact Prog.throwIf_bind hne _ _
  refine blind_perform_bind (fun row hV => ?_) fun r r' hV => ?_
  · refine Blind.bind (blind_orThrow (Q := fun _ => True) _ fun _ _ => trivial) fun txn _ =>
      Blind.bind (blind_throwIf (Q := fun _ => True) _ fun _ => trivial) fun _ _ => blind_of_reads ?_
    refine grants_cibaGrantOf.mono fun o ho => ?_
    rcases ho with ho | rfl | rfl
    · exact ho.readsAny
    · rfl
    · rfl
  · rcases hV with rfl | ⟨⟨row, rfl, hrow⟩, row', rfl, hrow'⟩
    · exact .inl rfl
    · refine .inr ⟨row, row', rfl, rfl, ?_, ?_⟩
      · exact (hforeign row hrow).trans (hforeign row' hrow').symm
      · rw [hforeign row hrow]
        trivial

/-- A redemption goes on from a code of another relying party as from none. -/
theorem blind_codeGrant {body : TokenRequest} (hrp : rp.id ≠ b.id) :
    Blind (Alike b) (fun _ => True) (codeGrant D rp body) := by
  rw [codeGrant_eq]
  refine Blind.bind (blind_orThrow (Q := fun _ => True) _ fun _ _ => trivial) fun code _ =>
    Blind.bind (blind_orThrow (Q := fun _ => True) _ fun _ _ => trivial) fun redirectUri _ =>
      Blind.bind (blind_orThrow (Q := fun _ => True) _ fun _ _ => trivial) fun verifier _ => ?_
  have hforeign : ∀ row, (∀ k : AuthorizationCode, row = some k → k.rpId = b.id) → (do
      let now ← newDate
      let row ← Prog.orThrow row (.bridge ⟨.invalid_grant, "Invalid authorization code", 400⟩)
      Prog.throwIf (row.rpId ≠ rp.id ∨ row.consumedAt ≠ none ∨ row.expiresAt ≤ now ∨
          row.redirectUri ≠ redirectUri ∨ D.base64urlSha256 verifier ≠ row.codeChallenge)
        (.bridge ⟨.invalid_grant, "Invalid authorization code", 400⟩)
      redeem D rp row now : H TokenResponse) = (do
      let _ ← newDate
      Prog.throwing (.bridge ⟨.invalid_grant, "Invalid authorization code", 400⟩)) := by
    intro row hrow
    cases row with
    | none => rfl
    | some k =>
      have hne : k.rpId ≠ rp.id := by
        rw [hrow k rfl]
        exact Ne.symm hrp
      change newDate.bind _ = newDate.bind _
      congr 1
      funext now
      exact Prog.throwIf_bind (.inl hne) _ _
  refine blind_perform_bind (fun row hV => ?_) fun r r' hV => ?_
  · refine Blind.bind (Q := fun _ => True) (blind_of_reads (Prog.only_perform _ rfl)) fun now _ =>
      Blind.bind (blind_orThrow (Q := fun _ => True) _ fun _ _ => trivial) fun k _ =>
        Blind.bind (blind_throwIf (Q := fun _ => True) _ fun _ => trivial) fun _ _ => blind_of_reads ?_
    refine redeemsCode_redeem.mono fun o ho => ?_
    rcases ho with ho | rfl
    · exact ho.readsAny
    · rfl
  · rcases hV with rfl | ⟨⟨row, rfl, hrow⟩, row', rfl, hrow'⟩
    · exact .inl rfl
    · refine .inr ⟨row, row', rfl, rfl, ?_, ?_⟩
      · exact (hforeign row hrow).trans (hforeign row' hrow').symm
      · rw [hforeign row hrow]
        exact blind_of_reads (.bind (Prog.only_perform _ rfl) fun _ => Prog.only_throwing _)

theorem reads_authenticateClient {creds : Option Credentials} :
    (authenticateClient D creds).Only fun o => o.readsAny = false :=
  .bind (Prog.only_orThrow _ _) fun _ => .bind (Prog.only_perform _ rfl) fun _ =>
    .bind (Prog.only_orThrow _ _) fun _ => .bind (Prog.only_orThrow _ _) fun _ =>
      .bind (Prog.only_throwIf _ _) fun _ => .bind (Prog.only_throwIf _ _) fun _ => Prog.only_pure _

theorem blind_introspect {creds : Option Credentials} {token : Option String} :
    Blind (Alike b) (fun _ => True) (introspect D creds token) := by
  refine blind_of_reads (.bind reads_authenticateClient fun rp => ?_)
  cases truthy token with
  | none => exact Prog.only_pure _
  | some x =>
    exact .recover (.bind (Prog.only_perform _ rfl) fun _ => .bind (Prog.only_perform _ rfl) fun _ =>
      .ite (Prog.only_pure _) (Prog.only_pure _)) fun _ => Prog.only_pure _

theorem blind_revoke {creds : Option Credentials} {token : Option String} :
    Blind (Alike b) (fun _ => True) (revoke D creds token) := by
  refine blind_of_reads (only_revoke.mono fun o ho => ?_)
  unfold Op.Revokes at ho
  split at ho <;> first | rfl | exact ho.elim

theorem blind_bcAuthorize {creds : Option Credentials} {body : BcAuthorizeRequest} :
    Blind (Alike b) (fun _ => True) (bcAuthorize D creds body) := by
  refine blind_of_reads (.bind (Prog.only_throwIf _ _) fun _ => .bind reads_authenticateClient fun rp => ?_)
  have hofRp : ∀ {α : Type} {p : H α}, p.Only (Op.OfRp rp) → p.Only fun o => o.readsAny = false :=
    fun hp => hp.mono fun _ ho => ho.readsAny
  exact .bind (hofRp ofRp_hit) fun _ => .bind (Prog.only_throwIf _ _) fun _ =>
    .bind (Prog.only_throwIf _ _) fun _ => .bind (Prog.only_throwIf _ _) fun _ =>
      .bind (.bind (Prog.only_perform _ rfl) fun _ => Prog.only_pure _) fun _ =>
        .bind (Prog.only_orThrow _ _) fun _ => .bind (Prog.only_perform _ rfl) fun _ =>
          .bind (Prog.only_throwIf _ _) fun _ => .bind (Prog.only_perform _ rfl) fun _ =>
            .bind (Prog.only_perform _ rfl) fun _ => .bind (Prog.only_perform _ rfl) fun _ =>
              .bind (Prog.only_perform _ rfl) fun _ => .bind (hofRp ofRp_wake) fun _ =>
                .bind (Prog.only_perform _ rfl) fun _ => Prog.only_pure _

theorem blind_token {cr : Credentials} {body : TokenRequest} (hother : cr.clientId ≠ b.clientId) :
    Blind (Alike b) (fun _ => True) (token D (some cr) body) := by
  refine Blind.bind (blind_authenticateClient hother) fun rp hrp => ?_
  by_cases hciba : body.grant_type = CIBA_GRANT_TYPE
  · rw [if_pos hciba]
    exact blind_cibaGrant hrp
  rw [if_neg hciba]
  by_cases hcode : body.grant_type = "authorization_code"
  · rw [if_pos hcode]
    exact blind_codeGrant hrp
  · rw [if_neg hcode]
    trivial

/-- The endpoints that authenticate their client are blind to what is another relying party's, as far as
related stores answer alike. -/
theorem blind_handler {q : Request} {clientId : String} (hq : q.authenticated = some clientId)
    (hother : clientId ≠ b.clientId) : Blind (Alike b) (fun _ => True) (handler D q) := by
  have hreply : ∀ {α : Type} {p : H α} {f : α → Reply}, Blind (Alike b) (fun _ => True) p →
      Blind (Alike b) (fun _ => True) (p.reply f) := fun hp => Blind.bind hp fun _ _ => trivial
  cases q with
  | token creds body =>
    obtain ⟨cr, rfl, rfl⟩ := Option.map_eq_some_iff.mp hq
    exact hreply (blind_token hother)
  | introspect creds token => exact hreply blind_introspect
  | revoke creds token => exact hreply blind_revoke
  | bcAuthorize creds body => exact hreply blind_bcAuthorize
  | _ => simp [Request.authenticated] at hq

end Blind

end SdidBridge
