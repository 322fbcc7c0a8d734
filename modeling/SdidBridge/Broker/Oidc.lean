import SdidBridge.Broker.Ciba

/-!
# The OIDC endpoints

`oidc.controller.ts` and `token.service.ts`: the token endpoint with its two grants, user info,
introspection and revocation, and the authorization page with its poll. The pages themselves and
the discovery document are left out.
-/

namespace SdidBridge

open Concurrent Prog

/-- How a citizen authenticates. -/
def AMR_VALUES : List String := ["hwk", "bio"]

/-- The grant type of CIBA. -/
def CIBA_GRANT_TYPE : String := "urn:openid:params:grant-type:ciba"

/-! ## Tokens -/

/-- A set of tokens. -/
structure TokenResponse where
  /-- The access token. -/
  access_token : String
  /-- The id token. -/
  id_token : String
  /-- For how long the access token is valid, in seconds. -/
  expires_in : ℕ
  /-- The scopes. -/
  scope : String

/-- The claims of an id token. -/
def idTokenClaims (sub : String) (acr : AssuranceLevel) (authTime : Time) (nonce : Option String) :
    TokenClaims :=
  { sub := some sub
    acr := some acr
    amr := AMR_VALUES
    auth_time := some (authTime / 1000)
    nonce := nonce.filter (· ≠ "") }

/-- The claims of an access token. -/
def accessTokenClaims (sub : String) (acr : AssuranceLevel) (scopes : List String)
    (clientId : String) : TokenClaims :=
  { sub := some sub
    scope := some (" ".intercalate scopes)
    acr := some acr
    token_use := some "access"
    client_id := some clientId }

/-- `TokenService.mint`. -/
def mint (D : Deployment) (rp : RelyingParty) (citizenId : Uuid) (scopes : List String)
    (acr : AssuranceLevel) (authTime : Time) (nonce : Option String) : H TokenResponse := do
  let sub ← subjectFor D citizenId rp.id rp.pairwiseSalt
  let idToken ← await (.jwt (.sign (idTokenClaims sub acr authTime nonce) rp.clientId
    D.config.ID_TOKEN_TTL_SECONDS))
  let accessToken ← await (.jwt (.sign (accessTokenClaims sub acr scopes rp.clientId) rp.clientId
    D.config.ACCESS_TOKEN_TTL_SECONDS))
  return ⟨accessToken, idToken, D.config.ACCESS_TOKEN_TTL_SECONDS, " ".intercalate scopes⟩

/-- A request at the token endpoint. -/
structure TokenRequest where
  /-- The grant type. -/
  grant_type : String
  /-- The transaction of a CIBA grant. -/
  auth_req_id : Option String := none
  /-- The authorization code. -/
  code : Option String := none
  /-- Where the code was sent. -/
  redirect_uri : Option String := none
  /-- The PKCE verifier. -/
  code_verifier : Option String := none

/-- A text that is there and is not empty. -/
def truthy (s : Option String) : Option String := s.filter (· ≠ "")

/-- The event of a transaction that is marked as expired. -/
def requestExpiredEvent (rp : RelyingParty) (txn : AuthTransaction) : AuditEventInput where
  actor := rpActor rp.id
  action := .cibaRequestExpired
  subjectRef := some txn.citizenId.text
  rpId := some rp.id.text
  result := .failure
  context := some (.obj [("flow", .str txn.flow.text)])

/-- The end of a poll that finds its transaction pending and expired: it is marked, once. -/
def markExpired {α : Type} (rp : RelyingParty) (txn : AuthTransaction) : H α := do
  let marked ← await (.txn (.expire txn.id))
  onlyIf (marked > 0) (auditAppend (requestExpiredEvent rp txn))
  refuse .expired_token "Authentication request expired" 400

/-- The row of a binding that a transaction names. -/
def approvingBinding (deviceBindingId : Option Uuid) : H (Option DeviceBinding) :=
  match deviceBindingId with
  | some id => await (.binding (.select id.text))
  | none => return none

/-- `cibaGrant` once it has read its transaction. -/
def cibaGrantOf (D : Deployment) (rp : RelyingParty) (txn : AuthTransaction) : H TokenResponse := do
  let now ← newDate
  if txn.status = .pending ∧ txn.expiresAt ≤ now then markExpired rp txn
  else
  throwIf (txn.status = .pending)
    (.bridge ⟨.authorization_pending, "Citizen has not yet approved", 400⟩)
  throwIf (txn.status = .expired)
    (.bridge ⟨.expired_token, "Authentication request expired", 400⟩)
  throwIf (txn.status = .denied) (.bridge ⟨.access_denied, "Citizen denied the request", 400⟩)
  throwIf (txn.status ≠ .approved)
    (.bridge ⟨.invalid_grant, "Authentication request already used", 400⟩)
  let bindingRow ← approvingBinding txn.deviceBindingId
  let binding ← orThrow bindingRow (.bridge ⟨.invalid_grant, "Approval binding missing", 400⟩)
  let acr := binding.assuranceLevel
  let authTime := txn.resolvedAt.getD now
  let consumed ← await (.txn (.consume txn.id))
  throwIf (consumed = 0) (.bridge ⟨.invalid_grant, "Authentication request already used", 400⟩)
  let response ← mint D rp txn.citizenId txn.scopes acr authTime none
  let consentId ← uuidv7
  await (.consent (.insert consentId txn.citizenId.text rp.id.text txn.scopes "ciba-approval"))
  auditAppend (consentGrantedEvent txn.citizenId.text rp.id.text
    (.obj [("scopes", .strs txn.scopes), ("source", .str "ciba-approval")]))
  auditAppend {
    actor := rpActor rp.id
    action := .cibaTokensIssued
    subjectRef := some txn.citizenId.text
    rpId := some rp.id.text
    deviceBindingId := some binding.id.text
    assurance := some acr
    result := .success
    context := some (.obj [("scopes", .strs txn.scopes), ("flow", .str txn.flow.text)]) }
  return response

/-- `OidcController.cibaGrant`. -/
def cibaGrant (D : Deployment) (rp : RelyingParty) (body : TokenRequest) : H TokenResponse := do
  let authReqId ← orThrow (truthy body.auth_req_id)
    (.bridge ⟨.invalid_request, "auth_req_id is required", 400⟩)
  let row ← await (.txn (.select authReqId))
  let txn ← orThrow row (.bridge ⟨.invalid_grant, "Unknown auth_req_id", 400⟩)
  throwIf (txn.rpId ≠ rp.id) (.bridge ⟨.invalid_grant, "Unknown auth_req_id", 400⟩)
  cibaGrantOf D rp txn

/-- What a redemption without all its parameters is answered. -/
def missingCodeParameters : Failure :=
  .bridge ⟨.invalid_request, "code, redirect_uri and code_verifier are required", 400⟩

/-- `OidcController.codeGrant`. -/
def codeGrant (D : Deployment) (rp : RelyingParty) (body : TokenRequest) : H TokenResponse := do
  let code ← orThrow (truthy body.code) missingCodeParameters
  let redirectUri ← orThrow (truthy body.redirect_uri) missingCodeParameters
  let codeVerifier ← orThrow (truthy body.code_verifier) missingCodeParameters
  let found ← await (.code (.select (D.sha256Hex code)))
  let now ← newDate
  let row ← orThrow found (.bridge ⟨.invalid_grant, "Invalid authorization code", 400⟩)
  throwIf (row.rpId ≠ rp.id ∨ row.consumedAt ≠ none ∨ row.expiresAt ≤ now ∨
      row.redirectUri ≠ redirectUri ∨ D.base64urlSha256 codeVerifier ≠ row.codeChallenge)
    (.bridge ⟨.invalid_grant, "Invalid authorization code", 400⟩)
  let consumed ← await (.code (.consume row.codeHash now))
  throwIf (consumed = 0) (.bridge ⟨.invalid_grant, "Invalid authorization code", 400⟩)
  let response ← mint D rp row.citizenId row.scopes row.assurance row.authTime row.nonce
  auditAppend {
    actor := rpActor rp.id
    action := .oidcTokensIssued
    subjectRef := some row.citizenId.text
    rpId := some rp.id.text
    assurance := some row.assurance
    result := .success
    context := some (.obj [("scopes", .strs row.scopes), ("flow", .str "code")]) }
  return response

/-- `OidcController.token`. -/
def token (D : Deployment) (creds : Option Credentials) (body : TokenRequest) : H TokenResponse := do
  let rp ← authenticateClient D creds
  if body.grant_type = CIBA_GRANT_TYPE then cibaGrant D rp body
  else if body.grant_type = "authorization_code" then codeGrant D rp body
  else refuse .invalid_request "Unsupported grant_type" 400

/-! ## What a token is good for -/

/-- What `userinfo` answers. -/
structure UserInfo where
  /-- The pairwise subject. -/
  sub : String
  /-- The assurance level. -/
  acr : Option AssuranceLevel
  /-- The attributes, each only when its scope was granted. -/
  attributes : AttributeSet

/-- No attributes. -/
def AttributeSet.none : AttributeSet := ⟨.none, .none, .none⟩

/-- The attributes that the scopes cover. -/
def AttributeSet.within (a : AttributeSet) (scopes : List String) : AttributeSet where
  name := if "profile" ∈ scopes then a.name else .none
  dateOfBirth := if "profile" ∈ scopes then a.dateOfBirth else .none
  address := if "address" ∈ scopes then a.address else .none

/-- The attributes of a citizen, asked for on demand. -/
def releasedAttributes (citizen : Citizen) (scopes : List String) : H AttributeSet :=
  match citizen.sdidSubject.filter (· ≠ "") with
  | some subject =>
    if "profile" ∈ scopes ∨ "address" ∈ scopes then do
      let answer ← (await (.service (.getAttributes subject scopes))).recover fun _ =>
        refuse .sdid_unavailable "Attribute source unavailable" 503
      match answer with
      | .ok attrs => return attrs.within scopes
      | .unknownIdentity => return AttributeSet.none
      | .unavailable => refuse .sdid_unavailable "Attribute source unavailable" 503
    else return AttributeSet.none
  | none => return AttributeSet.none

/-- What `userinfo` answers to a token that it does not accept. -/
def invalidAccessToken : Failure := .bridge ⟨.access_denied, "Invalid access token", 401⟩

/-- `OidcController.userinfo`. -/
def userinfo (bearer : Option String) : H UserInfo := do
  let token ← orThrow (truthy bearer) (.bridge ⟨.access_denied, "Bearer access token required", 401⟩)
  let payload ← (await (.jwt (.verify token none))).recover fun _ => throwing invalidAccessToken
  throwIf (payload.claims.token_use ≠ some "access") invalidAccessToken
  let revoked ← await (.flag (.get ("revoked:" ++ payload.jti)))
  throwIf (revoked = true) (.bridge ⟨.access_denied, "Token revoked", 401⟩)
  let clientId ← orThrow payload.claims.client_id invalidAccessToken
  let sub ← orThrow payload.claims.sub invalidAccessToken
  let rpRow ← loadByClientId clientId
  let rp ← orThrow rpRow invalidAccessToken
  let resolved ← citizenForSubject rp.id sub
  let citizenId ← orThrow resolved invalidAccessToken
  let citizenRow ← await (.citizen (.select citizenId.text))
  let citizen ← orThrow citizenRow invalidAccessToken
  let scopes := splitScopes (payload.claims.scope.getD "")
  let grants ← await (.consent (.selectLive citizen.id rp.id))
  throwIf (grants.any (fun g => scopes.all (· ∈ g.scopes)) = false)
    (.bridge ⟨.access_denied, "No active consent for requested scopes", 403⟩)
  let attributes ← releasedAttributes citizen scopes
  return ⟨sub, payload.claims.acr, attributes⟩

/-- `OidcController.introspect`: the token's claims when it is active. -/
def introspect (D : Deployment) (creds : Option Credentials) (token : Option String) :
    H (Option SignedJwt) := do
  let _ ← authenticateClient D creds
  match truthy token with
  | none => return none
  | some token =>
    (do
      let payload ← await (.jwt (.verify token none))
      let revoked ← await (.flag (.get ("revoked:" ++ payload.jti)))
      if revoked then return none else return some payload).recover fun _ => pure none

/-- The denylist entry and the event of a token that its audience revokes. -/
def denyToken (rp : RelyingParty) (payload : DecodedJwt) : H Unit :=
  match payload.jti with
  | none => pure ()
  | some jti =>
    if rp.clientId ∈ payload.aud then do
      let now ← newDate
      let ttl := (max (payload.exp.getD 0 - (now / 1000 : ℕ)) 1).toNat
      await (.flag (.set ("revoked:" ++ jti) ttl))
      auditAppend {
        actor := rpActor rp.id
        action := .tokenRevoked
        rpId := some rp.id.text
        result := .success
        context := some (.obj [("jti", .str jti),
          ("tokenUse", payload.token_use.getD (.str "unknown"))]) }
    else pure ()

/-- `OidcController.revoke`: the answer is the same whatever happens. -/
def revoke (D : Deployment) (creds : Option Credentials) (token : Option String) : H Unit := do
  let rp ← authenticateClient D creds
  match (truthy token).bind D.decodeJwt with
  | none => pure ()
  | some payload => (denyToken rp payload).recover fun _ => pure ()

/-! ## The code flow -/

/-- A request at the authorization endpoint. -/
structure AuthorizeRequest where
  /-- The client. -/
  client_id : String
  /-- Where the code is to be sent. -/
  redirect_uri : String
  /-- The scopes. -/
  scope : String
  /-- The relying party's state. -/
  state : Option String := none
  /-- The relying party's nonce. -/
  nonce : Option String := none
  /-- The PKCE challenge. -/
  code_challenge : String
  /-- The assurance level asked for. -/
  acr_values : Option String := none
  /-- The pairwise subject of the citizen. -/
  login_hint : Option String := none

/-- The assurance level that a text names. -/
def AssuranceLevel.ofText (s : String) : Option AssuranceLevel :=
  [AssuranceLevel.AL1, .AL2, .AL3].find? fun l => l.text = s

/-- The assurance level that an authorization request asks for. -/
def requestedLevel (rp : RelyingParty) (acrValues : Option String) : H AssuranceLevel :=
  match acrValues with
  | none => return .AL2
  | some s => do
    let level ← orThrow (AssuranceLevel.ofText s)
      (.bridge ⟨.invalid_request, "Unsupported acr_values", 400⟩)
    throwIf (alMeets rp.maxAssurance level = false)
      (.bridge ⟨.invalid_request, "Requested assurance exceeds client maximum", 400⟩)
    return level

/-- The pages of the authorization endpoint. -/
inductive AuthorizePage where
  /-- The page that polls for the approval. -/
  | approval (rpName authReqId : String)
  /-- The page without a citizen. -/
  | accessDenied

/-- `OidcController.authorize`. -/
def authorize (D : Deployment) (q : AuthorizeRequest) : H AuthorizePage := do
  let loginHint ← orThrow (truthy q.login_hint)
    (.bridge ⟨.invalid_request, "login_hint is required", 400⟩)
  let rpRow ← loadByClientId q.client_id
  let rp ← orThrow rpRow (.bridge ⟨.invalid_client, "Unknown or suspended client", 401⟩)
  throwIf (rp.status ≠ .active) (.bridge ⟨.invalid_client, "Unknown or suspended client", 401⟩)
  throwIf (.code ∉ rp.allowedFlows)
    (.bridge ⟨.unauthorized_client, "Client may not use the code flow", 400⟩)
  throwIf (q.redirect_uri ∉ rp.redirectUris)
    (.bridge ⟨.invalid_request, "redirect_uri is not registered", 400⟩)
  let scopes := splitScopes q.scope
  throwIf (scopes = [] ∨ scopes.all (· ∈ rp.allowedScopes) = false)
    (.bridge ⟨.invalid_scope, "Requested scopes exceed the client grant", 400⟩)
  let requestedAl ← requestedLevel rp q.acr_values
  let resolved ← citizenForSubject rp.id loginHint
  match resolved with
  | none => return .accessDenied
  | some citizenId =>
    let ttlSeconds := D.config.CIBA_REQUEST_TTL_SECONDS
    let authReqId ← randomBytes 32 .base64url
    let now ← newDate
    let id ← uuidv7
    await (.txn (.insert id authReqId citizenId rp.id .code scopes requestedAl none
      (now + ttlSeconds * 1000)))
    await (.stash (.set authReqId ⟨q.code_challenge, q.nonce, q.redirect_uri, q.state⟩ ttlSeconds))
    wake citizenId
    auditAppend {
      actor := rpActor rp.id
      action := .cibaRequestCreated
      subjectRef := some citizenId.text
      rpId := some rp.id.text
      result := .success
      context := some (.obj [("flow", .str "code"), ("scopes", .strs scopes),
        ("requestedAl", .str requestedAl.text)]) }
    return .approval rp.name authReqId

/-- What the authorization page is answered. -/
inductive PollResult where
  | pending
  | denied
  /-- Approved, and where to go with the code. -/
  | approved (redirectUri code : String) (state : Option String)
  deriving DecidableEq

/-- The row of a new code. -/
def newCode (D : Deployment) (row : AuthTransaction) (stash : CodeFlowStash)
    (binding : DeviceBinding) (code : String) (authTime expiresAt : Time) : AuthorizationCode where
  codeHash := D.sha256Hex code
  citizenId := row.citizenId
  rpId := row.rpId
  scopes := row.scopes
  redirectUri := stash.redirectUri
  codeChallenge := stash.codeChallenge
  nonce := stash.nonce
  assurance := binding.assuranceLevel
  authTime := authTime
  expiresAt := expiresAt
  consumedAt := none

/-- When a transaction was decided, or now. -/
def resolvedOrNow (row : AuthTransaction) : H Time :=
  match row.resolvedAt with
  | some t => return t
  | none => newDate

/-- `authorizePoll` once it holds an approved transaction, its stash, and its binding. -/
def issueCode (D : Deployment) (txn : String) (row : AuthTransaction) (stash : CodeFlowStash)
    (binding : DeviceBinding) (now : Time) : H PollResult := do
  let consumed ← await (.txn (.consume row.id))
  if consumed = 0 then return .denied
  let code ← randomBytes 32 .base64url
  let authTime ← resolvedOrNow row
  await (.code (.insert (newCode D row stash binding code authTime
    (now + D.config.AUTH_CODE_TTL_SECONDS * 1000))))
  await (.stash (.del txn))
  auditAppend {
    actor := citizenActor row.citizenId.text
    action := .oidcCodeIssued
    subjectRef := some row.citizenId.text
    rpId := some row.rpId.text
    deviceBindingId := some binding.id.text
    assurance := some binding.assuranceLevel
    result := .success
    context := some (.obj [("flow", .str "code"), ("scopes", .strs row.scopes)]) }
  return .approved stash.redirectUri code stash.state

/-- `OidcController.authorizePoll`. -/
def authorizePoll (D : Deployment) (txn : Option String) : H PollResult :=
  match truthy txn with
  | none => return .denied
  | some txn => do
    let found ← await (.txn (.select txn))
    match found with
    | none => return .denied
    | some row =>
      if row.flow ≠ .code then return .denied
      let now ← newDate
      if row.status = .pending then return (if now < row.expiresAt then .pending else .denied)
      if row.status ≠ .approved then return .denied
      let stashRaw ← await (.stash (.get txn))
      match stashRaw with
      | none => return .denied
      | some stash =>
        let bindingRow ← approvingBinding row.deviceBindingId
        match bindingRow with
        | none => return .denied
        | some binding => issueCode D txn row stash binding now

end SdidBridge
