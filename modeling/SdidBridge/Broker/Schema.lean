import SdidBridge.Audit.Service

/-!
# The rows of the broker's store

The tables of `db/schema.ts` and the values that the broker keeps in Redis, with the types that
their constraints give them. A uuid column holds a `Uuid`; the code sees its canonical text.
-/

namespace SdidBridge

/-- The status of a citizen. -/
inductive CitizenStatus where
  | active
  | suspended
  | deceasedPerSdid
  deriving DecidableEq

/-- A row of `citizens`. -/
structure Citizen where
  /-- The id. -/
  id : Uuid
  /-- The keyed hash of the national id number. -/
  pseudoNid : String
  /-- The subject by which SDID knows the citizen. -/
  sdidSubject : Option String
  /-- The status. -/
  status : CitizenStatus
  /-- When the row was inserted. -/
  createdAt : Time
  /-- When the row was last changed. -/
  updatedAt : Time

/-- A device's public key. -/
structure PublicKeyJwk where
  /-- The key type. -/
  kty : String
  /-- The curve. -/
  crv : String
  /-- The first coordinate. -/
  x : String
  /-- The second coordinate. -/
  y : String
  deriving DecidableEq

/-- The status of a device binding. -/
inductive BindingStatus where
  | pending
  | active
  | revoked
  deriving DecidableEq

/-- The services that deliver a wake-up. -/
inductive PushPlatform where
  | fcm
  | apns
  deriving DecidableEq

/-- A row of `device_bindings`. -/
structure DeviceBinding where
  /-- The id. -/
  id : Uuid
  /-- The citizen. -/
  citizenId : Uuid
  /-- The device's public key. -/
  devicePubkeyJwk : PublicKeyJwk
  /-- What the attestation said. -/
  attestation : JsValue
  /-- The assurance level. -/
  assuranceLevel : AssuranceLevel
  /-- The status. -/
  status : BindingStatus
  /-- The citizen's name for the device. -/
  deviceLabel : String
  /-- When the row was inserted. -/
  enrolledAt : Time
  /-- When the binding was activated. -/
  activatedAt : Option Time
  /-- When the binding was last used. -/
  lastUsedAt : Option Time
  /-- When SDID last re-asserted the citizen's identity. -/
  lastReassertedAt : Option Time
  /-- When the binding was revoked. -/
  revokedAt : Option Time
  /-- Why the binding was revoked. -/
  revokeReason : Option String
  /-- The service of the push address. -/
  pushPlatform : Option PushPlatform
  /-- The push address. -/
  pushToken : Option String
  /-- When the push address was last changed. -/
  pushTokenUpdatedAt : Option Time

/-- The status of a relying party. -/
inductive RpStatus where
  | active
  | suspended
  deriving DecidableEq

/-- The flows by which a transaction is started. -/
inductive Flow where
  | code
  | ciba
  deriving DecidableEq

/-- The text of a flow. -/
def Flow.text : Flow → String
  | .code => "code"
  | .ciba => "ciba"

/-- How a relying party authenticates. -/
inductive AuthMethod where
  | secret
  | privateKeyJwt
  | mtls
  deriving DecidableEq

/-- A row of `relying_parties`. -/
structure RelyingParty where
  /-- The id. -/
  id : Uuid
  /-- The client id. -/
  clientId : String
  /-- The name. -/
  name : String
  /-- The address of the logo. -/
  logoUri : Option String
  /-- How it authenticates. -/
  authMethod : AuthMethod
  /-- The digest of the client secret. -/
  clientSecretHash : Option String
  /-- The scopes it may ask for. -/
  allowedScopes : List String
  /-- The highest assurance level it may ask for. -/
  maxAssurance : AssuranceLevel
  /-- The flows it may use. -/
  allowedFlows : List Flow
  /-- Where a code may be sent. -/
  redirectUris : List String
  /-- The status. -/
  status : RpStatus
  /-- The salt of its pairwise subjects. -/
  pairwiseSalt : String
  /-- When the row was inserted. -/
  createdAt : Time

/-- A row of `pairwise_subjects`. -/
structure PairwiseSubject where
  /-- The citizen. -/
  citizenId : Uuid
  /-- The relying party. -/
  rpId : Uuid
  /-- The subject by which the relying party knows the citizen. -/
  subject : String

/-- The status of a transaction. -/
inductive TxnStatus where
  | pending
  | approved
  | denied
  | expired
  | consumed
  deriving DecidableEq

/-- A row of `auth_transactions`. -/
structure AuthTransaction where
  /-- The id. -/
  id : Uuid
  /-- The id that the relying party is given. -/
  authReqId : String
  /-- The citizen. -/
  citizenId : Uuid
  /-- The relying party. -/
  rpId : Uuid
  /-- The flow. -/
  flow : Flow
  /-- The scopes asked for. -/
  scopes : List String
  /-- The assurance level asked for. -/
  requestedAl : AssuranceLevel
  /-- The message that the device shows. -/
  bindingMessage : Option String
  /-- The status. -/
  status : TxnStatus
  /-- The binding that decided. -/
  deviceBindingId : Option Uuid
  /-- The citizen's report that the request was unexpected. -/
  suspiciousReport : Option String
  /-- When the row was inserted. -/
  createdAt : Time
  /-- Until when the transaction can be decided. -/
  expiresAt : Time
  /-- When the transaction was decided. -/
  resolvedAt : Option Time

/-- A row of `authorization_codes`. -/
structure AuthorizationCode where
  /-- The digest of the code. -/
  codeHash : String
  /-- The citizen. -/
  citizenId : Uuid
  /-- The relying party. -/
  rpId : Uuid
  /-- The scopes. -/
  scopes : List String
  /-- Where the code was sent. -/
  redirectUri : String
  /-- The PKCE challenge. -/
  codeChallenge : String
  /-- The relying party's nonce. -/
  nonce : Option String
  /-- The assurance level. -/
  assurance : AssuranceLevel
  /-- When the citizen approved. -/
  authTime : Time
  /-- Until when the code can be redeemed. -/
  expiresAt : Time
  /-- When the code was redeemed. -/
  consumedAt : Option Time

/-- A row of `consent_grants`. -/
structure ConsentGrant where
  /-- The id. -/
  id : Uuid
  /-- The citizen. -/
  citizenId : Uuid
  /-- The relying party. -/
  rpId : Uuid
  /-- The scopes. -/
  scopes : List String
  /-- What the grant came from. -/
  source : String
  /-- When the grant was made. -/
  grantedAt : Time
  /-- When the grant was revoked. -/
  revokedAt : Option Time

/-- What is stored for a signing challenge. -/
structure ChallengeRecord where
  /-- The purpose. -/
  purpose : String
  /-- The nonce. -/
  nonce : String
  /-- The binding that it was issued for, as the issuer spelled it. -/
  bindingId : String
  deriving DecidableEq

/-- What is stored for an attestation nonce. -/
structure NonceRecord where
  /-- The purpose. -/
  purpose : String
  /-- The nonce. -/
  nonce : String
  deriving DecidableEq

/-- What is stored for a code flow between its start and its code. -/
structure CodeFlowStash where
  /-- The PKCE challenge. -/
  codeChallenge : String
  /-- The relying party's nonce. -/
  nonce : Option String
  /-- Where the code is to be sent. -/
  redirectUri : String
  /-- The relying party's state. -/
  state : Option String
  deriving DecidableEq

/-- The claims that the broker puts into a token. -/
structure TokenClaims where
  /-- The subject. -/
  sub : Option String := none
  /-- The device binding of a session. -/
  binding_id : Option String := none
  /-- The assurance level. -/
  acr : Option AssuranceLevel := none
  /-- How the citizen authenticated. -/
  amr : List String := []
  /-- When the citizen authenticated, in seconds. -/
  auth_time : Option ℕ := none
  /-- The relying party's nonce. -/
  nonce : Option String := none
  /-- The scopes. -/
  scope : Option String := none
  /-- The use of the token. -/
  token_use : Option String := none
  /-- The client that the token was issued to. -/
  client_id : Option String := none
  /-- Whether the token is signed only to see that signing works. -/
  probe : Bool := false
  deriving DecidableEq

/-- A token that the broker has signed, with the claims that signing adds. -/
structure SignedJwt where
  /-- The text of the token. -/
  token : String
  /-- Its claims. -/
  claims : TokenClaims
  /-- The audience. -/
  aud : String
  /-- When it was issued, in seconds. -/
  iat : ℕ
  /-- Until when it is valid, in seconds. -/
  exp : ℕ
  /-- Its own id. -/
  jti : String
  deriving DecidableEq

/-- What SDID answers to a request about an identity. -/
inductive SdidAnswer (α : Type) where
  /-- The answer. -/
  | ok (a : α)
  /-- SDID does not know the identity. -/
  | unknownIdentity
  /-- SDID is not available: a timeout, an open circuit, or a malformed answer. -/
  | unavailable

/-- The reference biometric of a citizen. Its bytes are passed to the match engine only. -/
structure ReferenceBiometric where
  /-- The bytes. -/
  data : String
  /-- The subject by which SDID knows the citizen. -/
  sdidSubject : String
  /-- The reference of the request at SDID. -/
  txnRef : String

/-- The answer to a re-assertion. -/
structure ReassertResult where
  /-- Whether the identity is still valid. -/
  valid : Bool
  /-- The assurance level. -/
  assurance : AssuranceLevel
  /-- The reference of the request at SDID. -/
  txnRef : String

/-- The attributes of a citizen. -/
structure AttributeSet where
  /-- The name. -/
  name : Option String
  /-- The date of birth. -/
  dateOfBirth : Option String
  /-- The address. -/
  address : Option String

/-- How well a sample matched, roughly. -/
inductive MatchScoreBand where
  | high
  | medium
  | low
  | noMatch
  deriving DecidableEq

/-- The text of a band. -/
def MatchScoreBand.text : MatchScoreBand → String
  | .high => "high"
  | .medium => "medium"
  | .low => "low"
  | .noMatch => "no-match"

/-- The outcome of a biometric match. -/
structure MatchResult where
  /-- Whether the sample matched. -/
  matched : Bool
  /-- How well. -/
  scoreBand : MatchScoreBand
  /-- Whether the capture was of a living person. -/
  padPassed : Bool

/-- The biometric modalities. -/
inductive Modality where
  | face
  | fingerprint
  deriving DecidableEq

/-- The platforms of a device. -/
inductive DevicePlatform where
  | android
  | ios
  | sim
  deriving DecidableEq

/-- The text of a platform. -/
def DevicePlatform.text : DevicePlatform → String
  | .android => "android"
  | .ios => "ios"
  | .sim => "sim"

/-- How well a device protects its key. -/
inductive KeySecurityLevel where
  | software
  | trustedEnvironment
  | strongbox
  deriving DecidableEq

/-- The text of a level. -/
def KeySecurityLevel.text : KeySecurityLevel → String
  | .software => "software"
  | .trustedEnvironment => "trusted-environment"
  | .strongbox => "strongbox"

/-- Why an attestation was refused. -/
inductive AttestationRejectionCode where
  | malformed
  | nonceMismatch
  | appMismatch
  | chainInvalid
  | deviceIntegrity
  | appIntegrity
  | keyMismatch
  | stale
  | verifierUnavailable
  deriving DecidableEq

/-- The text of a reason. -/
def AttestationRejectionCode.text : AttestationRejectionCode → String
  | .malformed => "malformed"
  | .nonceMismatch => "nonce_mismatch"
  | .appMismatch => "app_mismatch"
  | .chainInvalid => "chain_invalid"
  | .deviceIntegrity => "device_integrity"
  | .appIntegrity => "app_integrity"
  | .keyMismatch => "key_mismatch"
  | .stale => "stale"
  | .verifierUnavailable => "verifier_unavailable"

/-- What a platform verifier is asked. -/
structure AttestationRequest where
  /-- The platform's token. -/
  token : String
  /-- The attestation of the key. -/
  keyAttestation : Option String
  /-- The nonce that the token has to carry. -/
  expectedNonce : String
  /-- The key that is enrolled. -/
  devicePublicKeyJwk : PublicKeyJwk
  /-- The time of the check. -/
  now : Time

/-- What a platform verifier answers. -/
inductive AttestationResult where
  /-- The attestation holds. -/
  | ok (platform : DevicePlatform) (keySecurityLevel : KeySecurityLevel) (appGenuine : Bool)
      (assuranceCap : AssuranceLevel) (evidence : JsValue)
  /-- The attestation is refused. -/
  | rejected (code : AttestationRejectionCode) (detail : String)
  deriving DecidableEq

/-- What a push service answers. -/
inductive PushOutcome where
  | delivered
  | unregistered
  | failed (detail : String)
  deriving DecidableEq

end SdidBridge
