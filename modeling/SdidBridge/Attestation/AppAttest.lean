import Mathlib.Data.Set.Function
import SdidBridge.Attestation.IntegrityPolicy

/-!
# What App Attest binds

An accepted attestation object certifies one digest over its authenticator's data, the issued nonce and the enrolled
key. The digests are of concatenations without separators, but what stands last in each has a fixed length: two
acceptances under one certified digest are of one nonce, one key and one authenticator's data, as long as no two of
the bytes that were hashed collide (`appAttest_binds`).
-/

namespace SdidBridge.Attestation

/-! ## What an acceptance rests on -/

/-- What an accepted attestation object is made of, and what its parts say. -/
structure AppAttested (N : NodeCrypto) (C : N.Config) (request : AttestationRequest) (object : AttestationObject)
    (leaf : N.Certificate) (certified point leafPoint : Bytes) (authData : AuthenticatorData) : Prop where
  /-- The object is what the client sent. -/
  decoded : decodeToken request.token = .ok object
  /-- Its certificates are a certification path to one of Apple's roots, and the leaf is the first of them. -/
  path : ∃ chain, List.Forall₂ (fun der cert => N.parse der = .ok cert) object.x5c chain ∧
    ChainHolds N.engine chain C.iosAnchors request.now ∧ chain.head? = some leaf
  /-- The leaf certifies the digest. -/
  certifies : ∃ extension,
    findCertificateExtension (N.raw leaf) APPLE_APP_ATTEST_NONCE_OID = .ok (some extension) ∧
    parseNonceExtension extension = .ok certified
  /-- The point is that of the enrolled key. -/
  enrolled : jwkToRawPoint N.engine request.devicePublicKeyJwk "devicePublicKeyJwk" = .ok point
  /-- The digest is over the authenticator's data, the nonce and the point. -/
  bound : certified = N.sha256 (object.authData ++ N.sha256 (utf8 request.expectedNonce ++ point))
  /-- The authenticator's data is read from the bytes that are hashed. -/
  parsed : parseAuthenticatorData object.authData = .ok authData
  /-- The leaf's key has a point. -/
  key : ∃ key, N.publicKey leaf = .ok key ∧ keyObjectToRawPoint N.readers key = .ok (some leafPoint)
  /-- The data names our app. -/
  app : authData.rpIdHash = N.sha256 (utf8 C.ios.appId)
  /-- It names the leaf's key. -/
  credential : authData.credentialId = N.sha256 leafPoint
  /-- The key is a new one. -/
  fresh : authData.signCount = 0
  /-- The environment is one of Apple's, and not that of development in production. -/
  environment : authData.aaguid = AAGUID_PRODUCTION ∨
    authData.aaguid = AAGUID_DEVELOPMENT ∧ C.ios.production = false
  /-- A key in the data is the leaf's. -/
  agreement : ∀ cose ∈ authData.credentialPublicKey, coseKeyToRawPoint cose = .ok leafPoint

section Accepted

variable {N : NodeCrypto} {C : N.Config} {request : AttestationRequest}

/-- The request is accepted. -/
def AcceptedIos (N : NodeCrypto) (C : N.Config) (request : AttestationRequest) : Prop :=
  ∃ platform level genuine cap evidence,
    (N.verifiers C).verifyIos request = .ok platform level genuine cap evidence

theorem checkCredentialKey_eq_ok {authData : AuthenticatorData} {leafPoint : Bytes} (hpoint : leafPoint ≠ []) :
    checkCredentialKey appAttestReader authData leafPoint = .ok () ↔
      ∀ cose ∈ authData.credentialPublicKey, coseKeyToRawPoint cose = .ok leafPoint := by
  unfold checkCredentialKey
  cases authData.credentialPublicKey with
  | none => simp [pure, Except.pure]
  | some cose =>
    simp only [bind_eq_ok, decoding_eq_ok, rejectIf_eq_ok, Bool.not_eq_false, Option.mem_def, Option.some.injEq,
      forall_eq']
    constructor
    · rintro ⟨cosePoint, hcose, hsame⟩
      rw [← eq_of_bytesEqual hsame]
      exact hcose
    · intro hcose
      exact ⟨leafPoint, hcose, bytesEqual_self hpoint⟩

theorem keyObject_point_ne_nil {key : KeyObject} {point : Bytes}
    (h : keyObjectToRawPoint N.readers key = .ok (some point)) : point ≠ [] := by
  obtain ⟨-, x, y, -, hpoint⟩ := keyObjectToRawPoint_eq_some.mp h
  intro hnil
  have hlength := point_length hpoint
  rw [hnil] at hlength
  exact absurd hlength (by decide)

/-- Every acceptance has all of it. -/
theorem appAttested_of_accepted (h : AcceptedIos N C request) :
    ∃ object leaf certified point leafPoint authData,
      AppAttested N C request object leaf certified point leafPoint authData := by
  obtain ⟨platform, level, genuine, cap, evidence, h⟩ := h
  replace h := eq_ok_of_verdict h
  simp only [verifyAppAttest, checkCertifiedNonce, checkAuthData, bind_eq_ok, decoding_eq_ok, faulting_eq_ok,
    orReject_eq_ok, rejectIf_eq_ok, Bool.not_eq_false] at h
  obtain ⟨-, -, object, hobject, chain, hchain, detail, hpath, leaf, hleaf, -, ⟨point, hpoint, found, hfound,
    extension, rfl, certified, hcertified, hbound⟩, authData, hparsed, found', hkey, leafPoint, rfl, ⟨⟩,
    hchecks, -⟩ := h
  obtain ⟨-, hcredential, -, happ, -, hcount, -, haaguid, -, hproduction, hcose⟩ := hchecks
  obtain ⟨key, hread, hleafPoint⟩ := except_bind_eq_ok.mp hkey
  have henvironment : authData.aaguid = AAGUID_PRODUCTION ∨
      authData.aaguid = AAGUID_DEVELOPMENT ∧ C.ios.production = false := by
    by_cases hprod : authData.aaguid = AAGUID_PRODUCTION
    · exact .inl hprod
    · have hdev : authData.aaguid = AAGUID_DEVELOPMENT := by
        by_contra hdev
        exact haaguid ⟨hprod, hdev⟩
      refine .inr ⟨hdev, ?_⟩
      by_contra hp
      have hset : C.ios.production = true := by simpa using hp
      exact hproduction ⟨hdev, hset⟩
  refine ⟨object, leaf, certified, point, leafPoint, authData, {
    decoded := hobject
    path := ⟨chain, mapM_eq_ok.mp hchain, (verifyCertificateChain_ok_iff _ _ _).mp ⟨detail, hpath⟩,
      head_of_elim hleaf⟩
    certifies := ⟨extension, mapError_eq_ok.mp hfound, hcertified⟩
    enrolled := hpoint
    bound := eq_of_bytesEqual hbound
    parsed := hparsed
    key := ⟨key, hread, hleafPoint⟩
    app := eq_of_bytesEqual happ
    credential := eq_of_bytesEqual hcredential
    fresh := not_not.mp hcount
    environment := henvironment
    agreement := (checkCredentialKey_eq_ok (keyObject_point_ne_nil hleafPoint)).mp hcose }⟩

/-- What is hashed for the certified digest of a request. -/
def Hashed (N : NodeCrypto) (request : AttestationRequest) : Set Bytes :=
  { bs | ∃ point object, jwkToRawPoint N.engine request.devicePublicKeyJwk "devicePublicKeyJwk" = .ok point ∧
    decodeToken request.token = .ok object ∧ (bs = utf8 request.expectedNonce ++ point ∨
      bs = object.authData ++ N.sha256 (utf8 request.expectedNonce ++ point)) }

/-- The leaf of a request's object certifies the digest. -/
def Certifies (N : NodeCrypto) (request : AttestationRequest) (certified : Bytes) : Prop :=
  ∃ object chain leaf extension, decodeToken request.token = .ok object ∧ object.x5c.mapM N.parse = .ok chain ∧
    chain.head? = some leaf ∧
    findCertificateExtension (N.raw leaf) APPLE_APP_ATTEST_NONCE_OID = .ok (some extension) ∧
    parseNonceExtension extension = .ok certified

/-- A token has one object, whose leaf certifies one digest. -/
theorem Certifies.unique {request' : AttestationRequest} {certified certified' : Bytes}
    (h : Certifies N request certified) (h' : Certifies N request' certified')
    (htoken : request.token = request'.token) : certified = certified' := by
  obtain ⟨object, chain, leaf, extension, hobject, hchain, hleaf, hfound, hcertified⟩ := h
  obtain ⟨object', chain', leaf', extension', hobject', hchain', hleaf', hfound', hcertified'⟩ := h'
  rw [← htoken] at hobject'
  obtain rfl := Except.ok.inj (hobject.symm.trans hobject')
  obtain rfl := Except.ok.inj (hchain.symm.trans hchain')
  obtain rfl := Option.some.inj (hleaf.symm.trans hleaf')
  obtain rfl := Option.some.inj (Except.ok.inj (hfound.symm.trans hfound'))
  exact Except.ok.inj (hcertified.symm.trans hcertified')

variable {object object' : AttestationObject} {leaf leaf' : N.Certificate}
  {certified point leafPoint certified' point' leafPoint' : Bytes} {authData authData' : AuthenticatorData}

theorem AppAttested.certifiesDigest (h : AppAttested N C request object leaf certified point leafPoint authData) :
    Certifies N request certified := by
  obtain ⟨chain, hchain, -, hleaf⟩ := h.path
  obtain ⟨extension, hfound, hcertified⟩ := h.certifies
  exact ⟨object, chain, leaf, extension, h.decoded, mapM_eq_ok.mpr hchain, hleaf, hfound, hcertified⟩

/-- One certified digest is of one nonce, one key and one authenticator's data. -/
theorem AppAttested.binds {request' : AttestationRequest}
    (h : AppAttested N C request object leaf certified point leafPoint authData)
    (h' : AppAttested N C request' object' leaf' certified point' leafPoint' authData')
    (hinj : Set.InjOn N.sha256 (Hashed N request ∪ Hashed N request')) :
    request.expectedNonce = request'.expectedNonce ∧ point = point' ∧ object.authData = object'.authData := by
  have houter : N.sha256 (object.authData ++ N.sha256 (utf8 request.expectedNonce ++ point)) =
      N.sha256 (object'.authData ++ N.sha256 (utf8 request'.expectedNonce ++ point')) := by
    rw [← h.bound, ← h'.bound]
  have hdata : object.authData ++ N.sha256 (utf8 request.expectedNonce ++ point) =
      object'.authData ++ N.sha256 (utf8 request'.expectedNonce ++ point') :=
    hinj (.inl ⟨point, object, h.enrolled, h.decoded, .inr rfl⟩)
      (.inr ⟨point', object', h'.enrolled, h'.decoded, .inr rfl⟩) houter
  -- The digest that stands last has 32 bytes in both.
  obtain ⟨hauthData, hinner⟩ := List.append_inj' hdata (by rw [N.sha256_length, N.sha256_length])
  have hclient : utf8 request.expectedNonce ++ point = utf8 request'.expectedNonce ++ point' :=
    hinj (.inl ⟨point, object, h.enrolled, h.decoded, .inl rfl⟩)
      (.inr ⟨point', object', h'.enrolled, h'.decoded, .inl rfl⟩) hinner
  -- The point that stands last has 65 bytes in both.
  obtain ⟨hnonce, hpoint⟩ := List.append_inj' hclient (by rw [point_length h.enrolled, point_length h'.enrolled])
  exact ⟨utf8_injective hnonce, hpoint, hauthData⟩

theorem digest_ne_nil (bs : Bytes) : N.sha256 bs ≠ [] := by
  intro hnil
  have hlength := N.sha256_length bs
  rw [hnil] at hlength
  exact absurd hlength (by decide)

/-- An attestation object that has all of it is accepted. -/
theorem accepted_of_appAttested
    (h : AppAttested N C request object leaf certified point leafPoint authData) (hsized : TokenSized request)
    (hnonce : request.expectedNonce ≠ "") : AcceptedIos N C request := by
  obtain ⟨chain, hchain, hpath, hfirst⟩ := h.path
  obtain ⟨detail, hpath⟩ := (verifyCertificateChain_ok_iff _ _ _).mpr hpath
  obtain ⟨extension, hfound, hcertified⟩ := h.certifies
  obtain ⟨key, hkey, hpoint⟩ := h.key
  have hleaf : chain.head?.elim (.error "no leaf") Except.ok = .ok leaf := by rw [hfirst]; rfl
  have hbound : bytesEqual certified
      (N.sha256 (object.authData ++ N.sha256 (utf8 request.expectedNonce ++ point))) = true := by
    rw [h.bound]
    exact bytesEqual_self (digest_ne_nil _)
  have hcredential : bytesEqual authData.credentialId (N.sha256 leafPoint) = true := by
    rw [h.credential]
    exact bytesEqual_self (digest_ne_nil _)
  have happ : bytesEqual authData.rpIdHash (N.sha256 (utf8 C.ios.appId)) = true := by
    rw [h.app]
    exact bytesEqual_self (digest_ne_nil _)
  have haaguid : ¬(authData.aaguid ≠ AAGUID_PRODUCTION ∧ authData.aaguid ≠ AAGUID_DEVELOPMENT) := by
    rintro ⟨hprod, hdev⟩
    exact h.environment.elim hprod fun henvironment => hdev henvironment.1
  have hproduction : ¬(authData.aaguid = AAGUID_DEVELOPMENT ∧ C.ios.production = true) := by
    rintro ⟨hdev, hset⟩
    rcases h.environment with hprod | ⟨-, hunset⟩
    · rw [hdev] at hprod
      exact absurd hprod (by decide)
    · rw [hset] at hunset
      exact absurd hunset (by decide)
  have hattested : N.engine.rawPoint leaf = .ok (some leafPoint) := except_bind_eq_ok.mpr ⟨key, hkey, hpoint⟩
  have hverified : ∃ result, verifyAppAttest N.engine appAttestReader C.ios C.iosAnchors request = .ok result ∧
      ∃ platform level genuine cap evidence, result = .ok platform level genuine cap evidence := by
    simp only [verifyAppAttest, checkCertifiedNonce, checkAuthData, bind_eq_ok, decoding_eq_ok, faulting_eq_ok,
      orReject_eq_ok, rejectIf_eq_ok, Bool.not_eq_false]
    exact ⟨_, ⟨(), checkRequest_eq_ok.mpr ⟨hsized, hnonce⟩, object, h.decoded, chain, mapM_eq_ok.mpr hchain, detail,
      hpath, leaf, hleaf, (), ⟨point, h.enrolled, some extension, mapError_eq_ok.mpr hfound, extension, rfl,
      certified, hcertified, hbound⟩, authData, h.parsed, some leafPoint, hattested, leafPoint, rfl, (),
      ⟨(), hcredential, (), happ, (), not_not.mpr h.fresh, (), haaguid, (), hproduction,
        (checkCredentialKey_eq_ok (keyObject_point_ne_nil hpoint)).mpr h.agreement⟩, rfl⟩, _, _, _, _, _, rfl⟩
  obtain ⟨result, hverified, platform, level, genuine, cap, evidence, rfl⟩ := hverified
  refine ⟨platform, level, genuine, cap, evidence, ?_⟩
  have hverdict : (N.verifiers C).verifyIos request =
      verdict "ios" (verifyAppAttest N.engine appAttestReader C.ios C.iosAnchors request) := rfl
  rw [hverdict, hverified]
  rfl

end Accepted

/-! ## A sample -/

/-- A leaf with the certified digest of the sample. -/
def sampleCredCertDer : Bytes :=
  [0x30, 0x82, 0x01, 0x3d, 0x30, 0x81, 0xe4, 0xa0, 0x03, 0x02, 0x01, 0x02, 0x02, 0x01, 0x02, 0x30, 0x0a, 0x06,
    0x08, 0x2a, 0x86, 0x48, 0xce, 0x3d, 0x04, 0x03, 0x02, 0x30, 0x0c, 0x31, 0x0a, 0x30, 0x08, 0x06, 0x03, 0x55,
    0x04, 0x03, 0x0c, 0x01, 0x52, 0x30, 0x1e, 0x17, 0x0d, 0x32, 0x36, 0x31, 0x31, 0x31, 0x38, 0x31, 0x39, 0x31,
    0x35, 0x30, 0x34, 0x5a, 0x17, 0x0d, 0x33, 0x36, 0x31, 0x31, 0x31, 0x35, 0x31, 0x39, 0x31, 0x35, 0x30, 0x34,
    0x5a, 0x30, 0x0c, 0x31, 0x0a, 0x30, 0x08, 0x06, 0x03, 0x55, 0x04, 0x03, 0x0c, 0x01, 0x4c, 0x30, 0x59, 0x30,
    0x13, 0x06, 0x07, 0x2a, 0x86, 0x48, 0xce, 0x3d, 0x02, 0x01, 0x06, 0x08, 0x2a, 0x86, 0x48, 0xce, 0x3d, 0x03,
    0x01, 0x07, 0x03, 0x42, 0x00, 0x04, 0xe5, 0x9b, 0xc0, 0xb4, 0x50, 0xdf, 0xf0, 0x34, 0x2e, 0x00, 0xe8, 0x8d,
    0xdb, 0x83, 0xd3, 0xb2, 0xb0, 0x80, 0x6c, 0xac, 0x2f, 0xa8, 0x55, 0x5e, 0x3d, 0xd1, 0xe3, 0x1b, 0xe5, 0x1e,
    0xb0, 0x87, 0xd3, 0xdd, 0x93, 0xbb, 0x1e, 0x83, 0x08, 0xec, 0x30, 0x23, 0x99, 0xb2, 0xd0, 0x36, 0x50, 0xb7,
    0xff, 0x48, 0x7c, 0xd2, 0x3a, 0xb3, 0x54, 0x15, 0x26, 0xbe, 0xda, 0x41, 0x6f, 0x7d, 0xd3, 0xd0, 0xa3, 0x37,
    0x30, 0x35, 0x30, 0x33, 0x06, 0x09, 0x2a, 0x86, 0x48, 0x86, 0xf7, 0x63, 0x64, 0x08, 0x02, 0x04, 0x26, 0x30,
    0x24, 0xa1, 0x22, 0x04, 0x20, 0x9d, 0x8e, 0xa9, 0x3c, 0xbd, 0xb3, 0xf1, 0x94, 0x89, 0xa0, 0x7f, 0xd9, 0xdf,
    0x48, 0x5d, 0x08, 0xf2, 0xc1, 0x1d, 0x59, 0x45, 0x79, 0x2f, 0x94, 0x60, 0x5c, 0x47, 0xe7, 0xf4, 0x76, 0xe6,
    0x78, 0x30, 0x0a, 0x06, 0x08, 0x2a, 0x86, 0x48, 0xce, 0x3d, 0x04, 0x03, 0x02, 0x03, 0x48, 0x00, 0x30, 0x45,
    0x02, 0x21, 0x00, 0xa9, 0xc0, 0xaa, 0xf7, 0xcb, 0xf2, 0xc5, 0x89, 0x83, 0x00, 0xa2, 0x0a, 0x28, 0xe0, 0x2c,
    0x09, 0xf6, 0x90, 0x08, 0x4b, 0xb2, 0xa8, 0xa5, 0x14, 0x29, 0x77, 0xc0, 0x7d, 0x1f, 0x70, 0x91, 0x0b, 0x02,
    0x20, 0x16, 0x61, 0xce, 0x71, 0x28, 0x78, 0x06, 0xec, 0x23, 0x06, 0xfd, 0x85, 0x00, 0xcc, 0x5a, 0xe6, 0xc1,
    0x2b, 0x13, 0x77, 0xa6, 0x9e, 0x7a, 0x86, 0xe8, 0xfc, 0x14, 0x46, 0xd4, 0x1e, 0xf5, 0x56]

/-- The point of its key. -/
def sampleCredPoint : Bytes :=
  [0x04, 0xe5, 0x9b, 0xc0, 0xb4, 0x50, 0xdf, 0xf0, 0x34, 0x2e, 0x00, 0xe8, 0x8d, 0xdb, 0x83, 0xd3, 0xb2, 0xb0,
    0x80, 0x6c, 0xac, 0x2f, 0xa8, 0x55, 0x5e, 0x3d, 0xd1, 0xe3, 0x1b, 0xe5, 0x1e, 0xb0, 0x87, 0xd3, 0xdd, 0x93,
    0xbb, 0x1e, 0x83, 0x08, 0xec, 0x30, 0x23, 0x99, 0xb2, 0xd0, 0x36, 0x50, 0xb7, 0xff, 0x48, 0x7c, 0xd2, 0x3a,
    0xb3, 0x54, 0x15, 0x26, 0xbe, 0xda, 0x41, 0x6f, 0x7d, 0xd3, 0xd0]

/-- The point of the enrolled key. -/
def sampleDevicePoint : Bytes :=
  [0x04, 0x89, 0x54, 0xf8, 0xcd, 0xa4, 0x50, 0x62, 0x18, 0xb2, 0x43, 0xda, 0x4b, 0xd2, 0xa1, 0xcd, 0x69, 0x98,
    0x38, 0x7a, 0xaa, 0x4b, 0xe0, 0xe4, 0x2c, 0x84, 0xc2, 0x9b, 0x11, 0xeb, 0xcc, 0xc0, 0x5d, 0xe6, 0x7f, 0x36,
    0x0f, 0x25, 0x29, 0x12, 0x72, 0xc0, 0x04, 0x66, 0x96, 0x56, 0xd9, 0xdc, 0x22, 0x56, 0x8e, 0xfe, 0x4a, 0xaf,
    0x37, 0xce, 0xe9, 0x35, 0x51, 0xe1, 0x36, 0x6c, 0x4f, 0xc1, 0x46]

/-- The digest of the name of the app. -/
def sampleAppDigest : Bytes :=
  [0xac, 0xdd, 0xef, 0xec, 0x8a, 0x08, 0x26, 0xdc, 0x0e, 0x51, 0xc3, 0x8f, 0x23, 0x77, 0xc9, 0x29, 0x34, 0xf7,
    0xbe, 0x39, 0x03, 0xed, 0x6b, 0x59, 0xb1, 0x8e, 0x27, 0x86, 0x3d, 0xfa, 0x5f, 0x7c]

/-- The digest of the point of the leaf. -/
def sampleCredentialId : Bytes :=
  [0xac, 0x14, 0xa1, 0x79, 0x0d, 0x1b, 0x29, 0x97, 0x8f, 0x7e, 0x27, 0x59, 0x81, 0x6c, 0x57, 0x60, 0xf4, 0x20,
    0x89, 0x23, 0x70, 0x46, 0xf3, 0x31, 0x60, 0x42, 0x63, 0x14, 0x69, 0xad, 0xe1, 0x97]

/-- The digest of the nonce and the enrolled point. -/
def sampleClientHash : Bytes :=
  [0x7c, 0x1e, 0x3a, 0x0e, 0x63, 0x30, 0x49, 0x49, 0x64, 0x8b, 0x5f, 0xfd, 0xd5, 0xf3, 0xbd, 0xd8, 0x05, 0xb1,
    0x80, 0xb4, 0xab, 0x4b, 0x03, 0x2d, 0xc6, 0x10, 0x93, 0x45, 0x2e, 0x63, 0x68, 0x15]

/-- The digest that the leaf certifies. -/
def sampleCertified : Bytes :=
  [0x9d, 0x8e, 0xa9, 0x3c, 0xbd, 0xb3, 0xf1, 0x94, 0x89, 0xa0, 0x7f, 0xd9, 0xdf, 0x48, 0x5d, 0x08, 0xf2, 0xc1,
    0x1d, 0x59, 0x45, 0x79, 0x2f, 0x94, 0x60, 0x5c, 0x47, 0xe7, 0xf4, 0x76, 0xe6, 0x78]

/-- The authenticator's data. -/
def sampleAuthData : Bytes :=
  sampleAppDigest ++ [0x40, 0, 0, 0, 0] ++ AAGUID_PRODUCTION ++ [0, 32] ++ sampleCredentialId

/-- The attestation object, as CBOR. -/
def sampleObjectCbor : Bytes :=
  [0xa3, 0x63, 0x66, 0x6d, 0x74, 0x6f, 0x61, 0x70, 0x70, 0x6c, 0x65, 0x2d, 0x61, 0x70, 0x70, 0x61, 0x74, 0x74,
    0x65, 0x73, 0x74, 0x67, 0x61, 0x74, 0x74, 0x53, 0x74, 0x6d, 0x74, 0xa1, 0x63, 0x78, 0x35, 0x63, 0x81, 0x59,
    0x01, 0x41, 0x30, 0x82, 0x01, 0x3d, 0x30, 0x81, 0xe4, 0xa0, 0x03, 0x02, 0x01, 0x02, 0x02, 0x01, 0x02, 0x30,
    0x0a, 0x06, 0x08, 0x2a, 0x86, 0x48, 0xce, 0x3d, 0x04, 0x03, 0x02, 0x30, 0x0c, 0x31, 0x0a, 0x30, 0x08, 0x06,
    0x03, 0x55, 0x04, 0x03, 0x0c, 0x01, 0x52, 0x30, 0x1e, 0x17, 0x0d, 0x32, 0x36, 0x31, 0x31, 0x31, 0x38, 0x31,
    0x39, 0x31, 0x35, 0x30, 0x34, 0x5a, 0x17, 0x0d, 0x33, 0x36, 0x31, 0x31, 0x31, 0x35, 0x31, 0x39, 0x31, 0x35,
    0x30, 0x34, 0x5a, 0x30, 0x0c, 0x31, 0x0a, 0x30, 0x08, 0x06, 0x03, 0x55, 0x04, 0x03, 0x0c, 0x01, 0x4c, 0x30,
    0x59, 0x30, 0x13, 0x06, 0x07, 0x2a, 0x86, 0x48, 0xce, 0x3d, 0x02, 0x01, 0x06, 0x08, 0x2a, 0x86, 0x48, 0xce,
    0x3d, 0x03, 0x01, 0x07, 0x03, 0x42, 0x00, 0x04, 0xe5, 0x9b, 0xc0, 0xb4, 0x50, 0xdf, 0xf0, 0x34, 0x2e, 0x00,
    0xe8, 0x8d, 0xdb, 0x83, 0xd3, 0xb2, 0xb0, 0x80, 0x6c, 0xac, 0x2f, 0xa8, 0x55, 0x5e, 0x3d, 0xd1, 0xe3, 0x1b,
    0xe5, 0x1e, 0xb0, 0x87, 0xd3, 0xdd, 0x93, 0xbb, 0x1e, 0x83, 0x08, 0xec, 0x30, 0x23, 0x99, 0xb2, 0xd0, 0x36,
    0x50, 0xb7, 0xff, 0x48, 0x7c, 0xd2, 0x3a, 0xb3, 0x54, 0x15, 0x26, 0xbe, 0xda, 0x41, 0x6f, 0x7d, 0xd3, 0xd0,
    0xa3, 0x37, 0x30, 0x35, 0x30, 0x33, 0x06, 0x09, 0x2a, 0x86, 0x48, 0x86, 0xf7, 0x63, 0x64, 0x08, 0x02, 0x04,
    0x26, 0x30, 0x24, 0xa1, 0x22, 0x04, 0x20, 0x9d, 0x8e, 0xa9, 0x3c, 0xbd, 0xb3, 0xf1, 0x94, 0x89, 0xa0, 0x7f,
    0xd9, 0xdf, 0x48, 0x5d, 0x08, 0xf2, 0xc1, 0x1d, 0x59, 0x45, 0x79, 0x2f, 0x94, 0x60, 0x5c, 0x47, 0xe7, 0xf4,
    0x76, 0xe6, 0x78, 0x30, 0x0a, 0x06, 0x08, 0x2a, 0x86, 0x48, 0xce, 0x3d, 0x04, 0x03, 0x02, 0x03, 0x48, 0x00,
    0x30, 0x45, 0x02, 0x21, 0x00, 0xa9, 0xc0, 0xaa, 0xf7, 0xcb, 0xf2, 0xc5, 0x89, 0x83, 0x00, 0xa2, 0x0a, 0x28,
    0xe0, 0x2c, 0x09, 0xf6, 0x90, 0x08, 0x4b, 0xb2, 0xa8, 0xa5, 0x14, 0x29, 0x77, 0xc0, 0x7d, 0x1f, 0x70, 0x91,
    0x0b, 0x02, 0x20, 0x16, 0x61, 0xce, 0x71, 0x28, 0x78, 0x06, 0xec, 0x23, 0x06, 0xfd, 0x85, 0x00, 0xcc, 0x5a,
    0xe6, 0xc1, 0x2b, 0x13, 0x77, 0xa6, 0x9e, 0x7a, 0x86, 0xe8, 0xfc, 0x14, 0x46, 0xd4, 0x1e, 0xf5, 0x56, 0x68,
    0x61, 0x75, 0x74, 0x68, 0x44, 0x61, 0x74, 0x61, 0x58, 0x57, 0xac, 0xdd, 0xef, 0xec, 0x8a, 0x08, 0x26, 0xdc,
    0x0e, 0x51, 0xc3, 0x8f, 0x23, 0x77, 0xc9, 0x29, 0x34, 0xf7, 0xbe, 0x39, 0x03, 0xed, 0x6b, 0x59, 0xb1, 0x8e,
    0x27, 0x86, 0x3d, 0xfa, 0x5f, 0x7c, 0x40, 0x00, 0x00, 0x00, 0x00, 0x61, 0x70, 0x70, 0x61, 0x74, 0x74, 0x65,
    0x73, 0x74, 0x00, 0x00, 0x00, 0x00, 0x00, 0x00, 0x00, 0x00, 0x20, 0xac, 0x14, 0xa1, 0x79, 0x0d, 0x1b, 0x29,
    0x97, 0x8f, 0x7e, 0x27, 0x59, 0x81, 0x6c, 0x57, 0x60, 0xf4, 0x20, 0x89, 0x23, 0x70, 0x46, 0xf3, 0x31, 0x60,
    0x42, 0x63, 0x14, 0x69, 0xad, 0xe1, 0x97]

/-- What `node:crypto` answers about the sample. -/
def sampleApple : NodeCrypto :=
  sampleCrypto sampleCredCertDer (sampleKey ((sampleCredPoint.drop 1).take 32) (sampleCredPoint.drop 33)) [
    (utf8 "T.rw.app", ⟨sampleAppDigest, by decide⟩),
    (sampleCredPoint, ⟨sampleCredentialId, by decide⟩),
    (utf8 "nonce" ++ sampleDevicePoint, ⟨sampleClientHash, by decide⟩),
    (sampleAuthData ++ sampleClientHash, ⟨sampleCertified, by decide⟩)]

/-- The configuration of the sample. -/
def sampleAppleConfig : sampleApple.Config where
  android := { packageName := "rw.app", certificateDigests := ["AQID"] }
  ios := { appId := "T.rw.app", production := true }
  maxTokenAgeMs := 120000
  androidAnchors := [SampleCertificate.root]
  iosAnchors := [SampleCertificate.root]

/-- The request of the sample at a time. -/
def sampleAppleRequest (now : Time) : AttestationRequest where
  token := toBase64 sampleObjectCbor
  keyAttestation := none
  expectedNonce := "nonce"
  devicePublicKeyJwk := { kty := "EC", crv := "P-256", x := toBase64Url ((sampleDevicePoint.drop 1).take 32),
                          y := toBase64Url (sampleDevicePoint.drop 33) }
  now

theorem sampleObject_decoded : decodeAttestationObject sampleObjectCbor =
    .ok { x5c := [sampleCredCertDer], receipt := none, authData := sampleAuthData } := by
  decide +kernel

/-- The sample has all that an acceptance rests on, while the leaf is valid. -/
theorem sample_appAttested (now : Time) (hnow : 1795029304000 ≤ (now : ℤ) ∧ (now : ℤ) ≤ 2110389304000) :
    AppAttested sampleApple sampleAppleConfig (sampleAppleRequest now)
      { x5c := [sampleCredCertDer], receipt := none, authData := sampleAuthData } SampleCertificate.leaf
      sampleCertified sampleDevicePoint sampleCredPoint
      { rpIdHash := sampleAppDigest, flags := 0x40, signCount := 0, aaguid := AAGUID_PRODUCTION,
        credentialId := sampleCredentialId, credentialPublicKey := none } := by
  have hdevice : (0x04 : UInt8) :: ((sampleDevicePoint.drop 1).take 32 ++ sampleDevicePoint.drop 33) =
      sampleDevicePoint := by decide
  have hleaf : (0x04 : UInt8) :: ((sampleCredPoint.drop 1).take 32 ++ sampleCredPoint.drop 33) =
      sampleCredPoint := by decide
  obtain ⟨henrolled, -⟩ := sampleKey_point (x := (sampleDevicePoint.drop 1).take 32) (y := sampleDevicePoint.drop 33)
    (by decide) (by decide) (N := sampleApple)
  obtain ⟨-, hcertified⟩ := sampleKey_point (x := (sampleCredPoint.drop 1).take 32) (y := sampleCredPoint.drop 33)
    (by decide) (by decide) (N := sampleApple)
  rw [hdevice] at henrolled
  rw [hleaf] at hcertified
  have hbound : sampleCertified =
      sampleApple.sha256 (sampleAuthData ++ sampleApple.sha256 (utf8 "nonce" ++ sampleDevicePoint)) := by
    decide +kernel
  exact {
    decoded := except_bind_eq_ok.mpr
      ⟨sampleObjectCbor, decodeBase64Strict_eq_ok.mpr ⟨List.cons_ne_nil _ _, rfl⟩, sampleObject_decoded⟩
    path := ⟨[SampleCertificate.leaf], .cons sample_parse .nil, sample_chainHolds hnow, rfl⟩
    certifies := ⟨[0x30, 0x24, 0xa1, 0x22, 0x04, 0x20] ++ sampleCertified, by decide +kernel, by decide +kernel⟩
    enrolled := henrolled
    bound := hbound
    parsed := by decide +kernel
    key := ⟨_, rfl, hcertified⟩
    app := by decide +kernel
    credential := by decide +kernel
    fresh := rfl
    environment := .inl rfl
    agreement := by simp }

/-- The sample is accepted, while the leaf is valid. -/
theorem sample_acceptedIos (now : Time) (hnow : 1795029304000 ≤ (now : ℤ) ∧ (now : ℤ) ≤ 2110389304000) :
    AcceptedIos sampleApple sampleAppleConfig (sampleAppleRequest now) := by
  refine accepted_of_appAttested (sample_appAttested now hnow) ⟨?_, ?_⟩ (by decide : "nonce" ≠ "")
  · intro hempty
    have hlength := utf16Length_toBase64 sampleObjectCbor
    have htoken : toBase64 sampleObjectCbor = "" := hempty
    rw [htoken] at hlength
    exact absurd hlength (by decide +kernel)
  · have hlength : utf16Length (sampleAppleRequest now).token = _ := utf16Length_toBase64 sampleObjectCbor
    rw [hlength]
    decide +kernel

/-- What is hashed for the sample does not collide. -/
theorem sample_injOn (now now' : Time) : Set.InjOn sampleApple.sha256
    (Hashed sampleApple (sampleAppleRequest now) ∪ Hashed sampleApple (sampleAppleRequest now')) := by
  have hhashed : ∀ now bs, bs ∈ Hashed sampleApple (sampleAppleRequest now) →
      bs = utf8 "nonce" ++ sampleDevicePoint ∨ bs = sampleAuthData ++ sampleClientHash := by
    rintro now bs ⟨point, object, hpoint, hobject, hbs⟩
    have hsample := sample_appAttested 1800000000000 (by decide)
    obtain rfl := Except.ok.inj (hpoint.symm.trans hsample.enrolled)
    obtain rfl := Except.ok.inj (hobject.symm.trans hsample.decoded)
    exact hbs
  have hdiffer : sampleApple.sha256 (utf8 "nonce" ++ sampleDevicePoint) ≠
      sampleApple.sha256 (sampleAuthData ++ sampleClientHash) := by decide +kernel
  have hcases : ∀ bs ∈ Hashed sampleApple (sampleAppleRequest now) ∪ Hashed sampleApple (sampleAppleRequest now'),
      bs = utf8 "nonce" ++ sampleDevicePoint ∨ bs = sampleAuthData ++ sampleClientHash := by
    rintro bs (hbs | hbs)
    · exact hhashed now bs hbs
    · exact hhashed now' bs hbs
  intro bs hbs bs' hbs' hsame
  rcases hcases bs hbs with rfl | rfl <;> rcases hcases bs' hbs' with rfl | rfl
  · rfl
  · exact absurd hsame hdiffer
  · exact absurd hsame.symm hdiffer
  · rfl

/-- Every acceptance has all of `AppAttested`. Two accepted requests whose leaves certify one digest, as two with one
token do, have one nonce, one enrolled point and one authenticator's data, if no two of the bytes that were hashed for
them collide. -/
theorem appAttest_binds (N : NodeCrypto) (C : N.Config) :
    (∀ request, AcceptedIos N C request → ∃ object leaf certified point leafPoint authData,
      AppAttested N C request object leaf certified point leafPoint authData) ∧
    ∀ request request', AcceptedIos N C request → AcceptedIos N C request' →
      Set.InjOn N.sha256 (Hashed N request ∪ Hashed N request') →
      ((∃ certified, Certifies N request certified ∧ Certifies N request' certified) ∨
        request.token = request'.token) →
      request.expectedNonce = request'.expectedNonce ∧
      (∃ point, jwkToRawPoint N.engine request.devicePublicKeyJwk "devicePublicKeyJwk" = .ok point ∧
        jwkToRawPoint N.engine request'.devicePublicKeyJwk "devicePublicKeyJwk" = .ok point) ∧
      ∃ object object', decodeToken request.token = .ok object ∧ decodeToken request'.token = .ok object' ∧
        object.authData = object'.authData := by
  refine ⟨fun request haccepted => appAttested_of_accepted haccepted, ?_⟩
  intro request request' haccepted haccepted' hinj hsame
  obtain ⟨object, leaf, certified, point, leafPoint, authData, h⟩ := appAttested_of_accepted haccepted
  obtain ⟨object', leaf', certified', point', leafPoint', authData', h'⟩ := appAttested_of_accepted haccepted'
  have hcertified : certified = certified' := by
    rcases hsame with ⟨shared, hshared, hshared'⟩ | htoken
    · have hfirst : certified = shared := h.certifiesDigest.unique hshared rfl
      have hsecond : shared = certified' := hshared'.unique h'.certifiesDigest rfl
      exact hfirst.trans hsecond
    · exact h.certifiesDigest.unique h'.certifiesDigest htoken
  subst hcertified
  obtain ⟨hnonce, hpoint, hauthData⟩ := h.binds h' hinj
  subst hpoint
  exact ⟨hnonce, ⟨point, h.enrolled, h'.enrolled⟩, object, object', h.decoded, h'.decoded, hauthData⟩

/-- Two acceptances of the sample's token, at two times. -/
theorem appAttest_binds_sample :
    (∃ object credCert certified point leafPoint authData, AppAttested sampleApple sampleAppleConfig
      (sampleAppleRequest 1800000000000) object credCert certified point leafPoint authData) ∧
    ∃ object object', decodeToken (sampleAppleRequest 1800000000000).token = .ok object ∧
      decodeToken (sampleAppleRequest 1800000060000).token = .ok object' ∧ object.authData = object'.authData := by
  have haccepted := sample_acceptedIos 1800000000000 (by decide)
  have haccepted' := sample_acceptedIos 1800000060000 (by decide)
  obtain ⟨hevidence, hbinds⟩ := appAttest_binds sampleApple sampleAppleConfig
  exact ⟨hevidence _ haccepted, (hbinds _ _ haccepted haccepted' (sample_injOn _ _) (.inr rfl)).2.2⟩

end SdidBridge.Attestation
