import SdidBridge.Attestation.AppAttest

/-!
# What is reported as an outage

The verifiers answer `verifier_unavailable` for what their checks do not catch. Of all that they call, only the reading
of a certificate's key is outside of a `try`: a chain that holds, and whose leaf has a key that `node:crypto` cannot
read or export, is reported as our outage, and nothing else of the client's is (`outage_iff`).
-/

namespace SdidBridge.Attestation

/-! ## Why a computation stops -/

/-- The computation stops for a reason of a kind. -/
def Stops {α : Type} (P : Stop → Prop) (x : Check α) : Prop := ∃ stop, x = .error stop ∧ P stop

/-- The kinds of reasons that are no refusals but that of an outage: an exception, and maybe that refusal. -/
structure Unforeseen (P : Stop → Prop) : Prop where
  fault : ∀ message, P (.fault message)
  rejected : ∀ code detail, code ≠ .verifierUnavailable → ¬P (.rejected code detail)

/-- An exception. -/
def IsFault : Stop → Prop
  | .fault _ => True
  | .rejected _ _ => False

/-- An exception, or the refusal that says the verifier is unavailable. -/
def IsOutage : Stop → Prop
  | .fault _ => True
  | .rejected code _ => code = .verifierUnavailable

theorem unforeseen_isFault : Unforeseen IsFault := ⟨fun _ => trivial, fun _ _ _ => id⟩

theorem unforeseen_isOutage : Unforeseen IsOutage := ⟨fun _ => trivial, fun _ _ hcode hsame => hcode hsame⟩

section Stops

variable {α β : Type} {P : Stop → Prop} {code : AttestationRejectionCode} {detail : String}

theorem not_stops_pure {a : α} : ¬Stops P (pure a : Check α) := by simp [Stops, pure, Except.pure]

theorem stops_bind {x : Check α} {f : α → Check β} :
    Stops P (x >>= f) ↔ Stops P x ∨ ∃ a, x = .ok a ∧ Stops P (f a) := by
  unfold Stops
  cases x <;> simp [bind, Except.bind]

theorem stops_rejectIf {c : Prop} [Decidable c] :
    Stops P (rejectIf c code detail) ↔ c ∧ P (.rejected code detail) := by
  unfold Stops rejectIf reject
  by_cases hc : c <;> simp [hc, pure, Except.pure]

theorem stops_decoding {what : String} {x : Except String α} :
    Stops P (decoding code what x) ↔ ∃ message, x = .error message ∧ P (.rejected code (what ++ message)) := by
  unfold Stops decoding reject
  cases x <;> simp [pure, Except.pure]

theorem stops_orReject {x : Option α} :
    Stops P (orReject x code detail) ↔ x = none ∧ P (.rejected code detail) := by
  unfold Stops orReject reject
  cases x <;> simp [pure, Except.pure]

theorem stops_faulting {x : Except String α} :
    Stops P (faulting x) ↔ ∃ message, x = .error message ∧ P (.fault message) := by
  unfold Stops faulting
  cases x <;> simp [pure, Except.pure]

end Stops

/-! ## Keys that cannot be read -/

/-- The curves of the keys that are exported as JSON. -/
def JWK_CURVES : List String := ["prime256v1", "secp384r1", "secp521r1", "secp256k1"]

/-- A key on a curve is exported as JSON exactly if the curve is one of the four. -/
def NodeCrypto.ExportsCurves (N : NodeCrypto) : Prop :=
  ∀ cert key, N.publicKey cert = .ok key → key.asymmetricKeyType = "ec" →
    ((∃ jwk, key.exported = .ok jwk) ↔ ∃ curve ∈ JWK_CURVES, key.namedCurve = some curve)

/-- The key of a certificate cannot be read, or is one on a curve that is not exported. -/
def UnreadableKey (N : NodeCrypto) (cert : N.Certificate) : Prop :=
  (∃ message, N.publicKey cert = .error message) ∨
    ∃ key, N.publicKey cert = .ok key ∧ key.asymmetricKeyType = "ec" ∧ ∀ curve ∈ JWK_CURVES, key.namedCurve ≠ some curve

section Keys

variable {N : NodeCrypto}

/-- The point of a key cannot be looked for exactly if the key is not exported. -/
theorem keyObjectToRawPoint_eq_error {E : CertificateEngine} {key : KeyObject} :
    (∃ message, keyObjectToRawPoint E key = .error message) ↔
      key.asymmetricKeyType = "ec" ∧ ∃ message, key.exported = .error message := by
  unfold keyObjectToRawPoint
  by_cases htype : key.asymmetricKeyType = "ec"
  · rw [if_neg (not_not.mpr htype)]
    cases hexported : key.exported with
    | error message => simp [bind, Except.bind, htype]
    | ok jwk =>
      simp only [bind, Except.bind, htype, true_and, reduceCtorEq, exists_false, iff_false, not_exists]
      intro message
      split
      · split_ifs
        · simp [pure, Except.pure]
        · split <;> simp [pure, Except.pure]
      · simp [pure, Except.pure]
  · simp [htype]

/-- A leaf faults exactly if its key is unreadable. -/
theorem rawPoint_eq_error (hexports : N.ExportsCurves) {cert : N.Certificate} :
    (∃ message, N.engine.rawPoint cert = .error message) ↔ UnreadableKey N cert := by
  have hpoint : N.engine.rawPoint cert = N.publicKey cert >>= keyObjectToRawPoint N.readers := rfl
  rw [hpoint]
  unfold UnreadableKey
  cases hkey : N.publicKey cert with
  | error message => simp [bind, Except.bind]
  | ok key =>
    have hbind : (Except.ok key >>= keyObjectToRawPoint N.readers : Except String (Option Bytes)) =
        keyObjectToRawPoint N.readers key := rfl
    rw [hbind, keyObjectToRawPoint_eq_error]
    simp only [reduceCtorEq, exists_false, false_or, Except.ok.injEq, exists_eq_left']
    refine and_congr_right fun htype => ?_
    have hexported := hexports cert key hkey htype
    constructor
    · rintro ⟨message, herror⟩ curve hcurve hnamed
      obtain ⟨jwk, hok⟩ := hexported.mpr ⟨curve, hcurve, hnamed⟩
      rw [herror] at hok
      exact absurd hok (by simp)
    · intro hnone
      cases hresult : key.exported with
      | error message => exact ⟨message, rfl⟩
      | ok jwk =>
        obtain ⟨curve, hcurve, hnamed⟩ := hexported.mp ⟨jwk, hresult⟩
        exact absurd hnamed (hnone curve hcurve)

end Keys

/-! ## The verifiers -/

/-- The checks before that of the leaf's key have passed. -/
def KeyReached (N : NodeCrypto) (input : AndroidKeyAttestationInput N.engine) (leaf : N.Certificate) : Prop :=
  ∃ ders chain extension description point, parseCertificateChainInput input.keyAttestation = .ok ders ∧
    ders.mapM N.parse = .ok chain ∧ ChainHolds N.engine chain input.trustAnchors input.now ∧
    chain.head? = some leaf ∧
    findCertificateExtension (N.raw leaf) ANDROID_KEY_ATTESTATION_OID = .ok (some extension) ∧
    parseKeyDescription extension = .ok description ∧
    (description.attestationChallenge = utf8 input.expectedNonce ∧ input.expectedNonce ≠ "") ∧
    jwkToRawPoint N.engine input.devicePublicKeyJwk "devicePublicKeyJwk" = .ok point

section Verifiers

variable {N : NodeCrypto} {input : AndroidKeyAttestationInput N.engine} {P : Stop → Prop}

theorem bytesEqual_utf8 {bs : Bytes} {s : String} : bytesEqual bs (utf8 s) = true ↔ bs = utf8 s ∧ s ≠ "" := by
  constructor
  · intro h
    obtain rfl := eq_of_bytesEqual h
    refine ⟨rfl, ?_⟩
    rintro rfl
    exact absurd h (by decide)
  · rintro ⟨rfl, hne⟩
    exact bytesEqual_self (utf8_ne_nil hne)

theorem not_stops_checkRootOfTrust (hP : Unforeseen P) (root : Option (Bool × ℤ)) :
    ¬Stops P (checkRootOfTrust root) := by
  unfold checkRootOfTrust
  split
  · exact not_stops_pure
  · simp [stops_bind, stops_rejectIf, hP.rejected]

theorem not_stops_checkApplicationId (hP : Unforeseen P) {E : CertificateEngine}
    (input : AndroidKeyAttestationInput E) (description : KeyDescription) :
    ¬Stops P (checkApplicationId E input description) := by
  unfold checkApplicationId
  dsimp only
  split
  · exact not_stops_pure
  · simp [stops_bind, stops_rejectIf, hP.rejected]

/-- A path has a first certificate. -/
theorem head_of_chainHolds {E : CertificateEngine} {chain anchors : List E.Certificate} {now : ℤ}
    (h : ChainHolds E chain anchors now) : ∃ leaf, chain.head? = some leaf := by
  cases chain with
  | nil => exact absurd h.length.1 (by simp)
  | cons leaf rest => exact ⟨leaf, rfl⟩

/-- A key attestation stops unforeseen exactly if the leaf's key is reached, and cannot be read. -/
theorem stops_verify (hP : Unforeseen P) (hexports : N.ExportsCurves) :
    Stops P (verifyAndroidKeyAttestation N.engine input) ↔ ∃ leaf, KeyReached N input leaf ∧ UnreadableKey N leaf := by
  have hroot := not_stops_checkRootOfTrust hP
  have happlication := not_stops_checkApplicationId hP input
  simp only [verifyAndroidKeyAttestation, stops_bind, stops_decoding, stops_faulting, stops_orReject,
    stops_rejectIf, decoding_eq_ok, faulting_eq_ok, orReject_eq_ok, rejectIf_eq_ok, Bool.not_eq_false, reduceCtorEq,
    ne_eq, not_false_eq_true, hP.rejected, hP.fault, and_false, and_true, exists_false, false_or, hroot, happlication,
    not_stops_pure]
  constructor
  · rintro ⟨chain, hsent, detail, hpath, hleaf | ⟨leaf, hleaf, found, hfound, extension, rfl, description,
      hdescription, u, hnonce, point, hpoint, hkey | ⟨_, _, _, _, _, _, _, _, _, hfalse⟩⟩⟩
    · obtain ⟨message, hmessage⟩ := hleaf
      have hholds := (verifyCertificateChain_ok_iff _ _ _).mp ⟨detail, hpath⟩
      obtain ⟨leaf, hfirst⟩ := head_of_chainHolds hholds
      rw [hfirst] at hmessage
      exact absurd hmessage (by simp)
    · obtain ⟨ders, hders, hchain⟩ := except_bind_eq_ok.mp hsent
      exact ⟨leaf, ⟨ders, chain, extension, description, point, hders, hchain,
        (verifyCertificateChain_ok_iff _ _ _).mp ⟨detail, hpath⟩, head_of_elim hleaf, mapError_eq_ok.mp hfound,
        mapError_eq_ok.mp hdescription, bytesEqual_utf8.mp hnonce, hpoint⟩, (rawPoint_eq_error hexports).mp hkey⟩
  · rintro ⟨leaf, ⟨ders, chain, extension, description, point, hders, hchain, hholds, hfirst, hfound, hdescription,
      hnonce, hpoint⟩, hkey⟩
    obtain ⟨detail, hpath⟩ := (verifyCertificateChain_ok_iff _ _ _).mpr hholds
    have hleaf : chain.head?.elim (.error "no leaf") Except.ok = .ok leaf := by rw [hfirst]; rfl
    exact ⟨chain, except_bind_eq_ok.mpr ⟨ders, hders, hchain⟩, detail, hpath, .inr ⟨leaf, hleaf, some extension,
      mapError_eq_ok.mpr hfound, extension, rfl, description, mapError_eq_ok.mpr hdescription, (),
      bytesEqual_utf8.mpr hnonce, point, hpoint, .inl ((rawPoint_eq_error hexports).mpr hkey)⟩⟩

/-- A verifier is unavailable exactly if its computation stops with an outage. -/
theorem verdict_unavailable {platform : String} {x : Check AttestationResult}
    (haccepts : ∀ result, x = .ok result → ∀ code detail, result ≠ .rejected code detail) :
    (∃ detail, verdict platform x = .rejected .verifierUnavailable detail) ↔ Stops IsOutage x := by
  unfold Stops
  cases x with
  | ok result => simpa [verdict] using haccepts result rfl .verifierUnavailable
  | error stop => cases stop <;> simp [verdict, IsOutage]

variable {C : N.Config} {request : AttestationRequest}

theorem not_stops_checkRequest (hP : Unforeseen P) {token : String} : ¬Stops P (checkRequest request token) := by
  simp [checkRequest, stops_bind, stops_rejectIf, hP.rejected]

theorem not_stops_checkPayload (hP : Unforeseen P) {config : AndroidVerifierConfig} {age : ℤ}
    {payload : IntegrityPayload} : ¬Stops P (checkPayload config age request payload) := by
  simp only [checkPayload, stops_bind, stops_rejectIf, hP.rejected, not_stops_pure, ne_eq, reduceCtorEq,
    not_false_eq_true, and_false, exists_false, or_false]

/-- The level of a key stops unforeseen exactly if its attestation does. -/
theorem stops_androidKeyLevel {V : Verifiers} :
    Stops P (androidKeyLevel V.engine V.android V.androidAnchors request) ↔
      ∃ keyAttestation, (keyAttestation ≠ "" ∧ request.keyAttestation = some keyAttestation) ∧
        Stops P (verifyAndroidKeyAttestation V.engine (keyInput V request keyAttestation)) := by
  unfold androidKeyLevel
  cases hattestation : request.keyAttestation with
  | none => simp [not_stops_pure]
  | some keyAttestation =>
    by_cases hempty : keyAttestation = ""
    · subst hempty
      have hnone : (some "").filter (· ≠ "") = none := by decide
      rw [hnone]
      simp [not_stops_pure, eq_comm]
    · have hsome : (some keyAttestation).filter (· ≠ "") = some keyAttestation := by simp [hempty]
      rw [hsome]
      dsimp only
      rw [stops_bind]
      constructor
      · rintro (h | ⟨⟨level, evidence⟩, -, h⟩)
        · exact ⟨keyAttestation, ⟨hempty, rfl⟩, h⟩
        · exact absurd h not_stops_pure
      · rintro ⟨keyAttestation', ⟨-, hsame⟩, h⟩
        obtain rfl := Option.some.inj hsame
        exact .inl h

/-- The token of a request is sound, and the check of its key attestation reaches the leaf's key. -/
def AndroidReached (N : NodeCrypto) (C : N.Config) (decoded : JsValue) (request : AttestationRequest)
    (leaf : N.Certificate) : Prop :=
  (TokenSized request ∧ request.expectedNonce ≠ "") ∧ PayloadPolicy (N.verifiers C) decoded request ∧
    ∃ keyAttestation, (keyAttestation ≠ "" ∧ request.keyAttestation = some keyAttestation) ∧
      KeyReached N (keyInput (N.verifiers C) request keyAttestation) leaf

/-- The Android verifier is unavailable exactly if the leaf's key is reached, and cannot be read. -/
theorem unavailable_android (hexports : N.ExportsCurves) {decoded : JsValue} :
    (∃ detail, (N.verifiers C).verifyAndroid (.ok decoded) request = .rejected .verifierUnavailable detail) ↔
      ∃ leaf, AndroidReached N C decoded request leaf ∧ UnreadableKey N leaf := by
  have hP := unforeseen_isOutage
  have haccepts : ∀ result, verifyPlayIntegrity (N.verifiers C).engine (N.verifiers C).android
      (N.verifiers C).maxTokenAgeMs (N.verifiers C).androidAnchors (.ok decoded) request = .ok result →
      ∀ code detail, result ≠ .rejected code detail := by
    intro result h code detail
    simp only [verifyPlayIntegrity, bind_eq_ok, decoding_eq_ok] at h
    obtain ⟨-, -, value, -, payload, -, age, -, ⟨level, evidence⟩, -, hresult⟩ := h
    obtain rfl := except_pure_eq_ok.mp hresult
    exact AttestationResult.noConfusion
  unfold Verifiers.verifyAndroid
  rw [verdict_unavailable haccepts]
  simp only [verifyPlayIntegrity, stops_bind, stops_decoding, decoding_eq_ok, not_stops_checkRequest hP,
    not_stops_checkPayload hP, not_stops_pure, hP.rejected, ne_eq, reduceCtorEq, not_false_eq_true, and_false,
    false_and, exists_false, false_or, or_false, stops_androidKeyLevel]
  constructor
  · rintro ⟨⟨⟩, hrequest, value, hvalue, payload, hpayload, age, hage, keyAttestation, hkey, hstops⟩
    obtain rfl := Except.ok.inj hvalue
    have hshaped := parseIntegrityPayload_eq_ok.mp hpayload
    obtain ⟨leaf, hreached, hunreadable⟩ := (stops_verify hP hexports).mp hstops
    have hpolicy := ((checkPayload_eq_ok hshaped.nonce_ne).mp hage).2
    exact ⟨leaf, ⟨checkRequest_eq_ok.mp hrequest, ⟨payload, hshaped, hpolicy⟩, keyAttestation, hkey, hreached⟩,
      hunreadable⟩
  · rintro ⟨leaf, ⟨hrequest, ⟨payload, hshaped, hpolicy⟩, keyAttestation, hkey, hreached⟩, hunreadable⟩
    exact ⟨(), checkRequest_eq_ok.mpr hrequest, decoded, rfl, payload, parseIntegrityPayload_eq_ok.mpr hshaped, _,
      (checkPayload_eq_ok hshaped.nonce_ne).mpr ⟨rfl, hpolicy⟩, keyAttestation, hkey,
      (stops_verify hP hexports).mpr ⟨leaf, hreached, hunreadable⟩⟩

/-- The object of a request is sound up to the leaf's key. -/
def IosReached (N : NodeCrypto) (C : N.Config) (request : AttestationRequest) (leaf : N.Certificate) : Prop :=
  (TokenSized request ∧ request.expectedNonce ≠ "") ∧
    ∃ object chain extension certified point authData, decodeToken request.token = .ok object ∧
      object.x5c.mapM N.parse = .ok chain ∧ ChainHolds N.engine chain C.iosAnchors request.now ∧
      chain.head? = some leaf ∧
      findCertificateExtension (N.raw leaf) APPLE_APP_ATTEST_NONCE_OID = .ok (some extension) ∧
      parseNonceExtension extension = .ok certified ∧
      jwkToRawPoint N.engine request.devicePublicKeyJwk "devicePublicKeyJwk" = .ok point ∧
      certified = N.sha256 (object.authData ++ N.sha256 (utf8 request.expectedNonce ++ point)) ∧
      parseAuthenticatorData object.authData = .ok authData

theorem not_stops_checkCredentialKey (hP : Unforeseen P) {R : AppAttestReader} {authData : AuthenticatorData}
    {point : Bytes} : ¬Stops P (checkCredentialKey R authData point) := by
  unfold checkCredentialKey
  split
  · exact not_stops_pure
  · simp [stops_bind, stops_rejectIf, stops_decoding, hP.rejected]

theorem not_stops_checkAuthData (hP : Unforeseen P) {E : CertificateEngine} {R : AppAttestReader}
    {config : IosVerifierConfig} {authData : AuthenticatorData} {point : Bytes} :
    ¬Stops P (checkAuthData E R config authData point) := by
  simp [checkAuthData, stops_bind, stops_rejectIf, hP.rejected, not_stops_checkCredentialKey hP]

theorem not_stops_checkCertifiedNonce (hP : Unforeseen P) {E : CertificateEngine} {R : AppAttestReader}
    {cert : E.Certificate} {authData : Bytes} : ¬Stops P (checkCertifiedNonce E R cert authData request) := by
  simp [checkCertifiedNonce, stops_bind, stops_rejectIf, stops_decoding, stops_orReject, hP.rejected]

/-- The nonce of a leaf is certified exactly if the digest is that of the request. -/
theorem checkCertifiedNonce_eq_ok {leaf : N.Certificate} {authData : Bytes} :
    checkCertifiedNonce N.engine appAttestReader leaf authData request = .ok () ↔
      ∃ extension certified point,
        findCertificateExtension (N.raw leaf) APPLE_APP_ATTEST_NONCE_OID = .ok (some extension) ∧
        parseNonceExtension extension = .ok certified ∧
        jwkToRawPoint N.engine request.devicePublicKeyJwk "devicePublicKeyJwk" = .ok point ∧
        certified = N.sha256 (authData ++ N.sha256 (utf8 request.expectedNonce ++ point)) := by
  simp only [checkCertifiedNonce, bind_eq_ok, decoding_eq_ok, orReject_eq_ok, rejectIf_eq_ok, Bool.not_eq_false]
  constructor
  · rintro ⟨point, hpoint, found, hfound, extension, rfl, certified, hcertified, hsame⟩
    exact ⟨extension, certified, point, mapError_eq_ok.mp hfound, hcertified, hpoint, eq_of_bytesEqual hsame⟩
  · rintro ⟨extension, certified, point, hfound, hcertified, hpoint, rfl⟩
    exact ⟨point, hpoint, some extension, mapError_eq_ok.mpr hfound, extension, rfl, _, hcertified,
      bytesEqual_self (digest_ne_nil _)⟩

/-- The iOS verifier is unavailable exactly if the leaf's key is reached, and cannot be read. -/
theorem unavailable_ios (hexports : N.ExportsCurves) :
    (∃ detail, (N.verifiers C).verifyIos request = .rejected .verifierUnavailable detail) ↔
      ∃ leaf, IosReached N C request leaf ∧ UnreadableKey N leaf := by
  have hP := unforeseen_isOutage
  have haccepts : ∀ result, verifyAppAttest N.engine appAttestReader C.ios C.iosAnchors request = .ok result →
      ∀ code detail, result ≠ .rejected code detail := by
    intro result h code detail
    simp only [verifyAppAttest, bind_eq_ok, decoding_eq_ok, faulting_eq_ok, orReject_eq_ok] at h
    obtain ⟨-, -, object, -, chain, -, found, -, leaf, -, -, -, authData, -, found', -, point, -, -, -, hresult⟩ := h
    obtain rfl := except_pure_eq_ok.mp hresult
    exact AttestationResult.noConfusion
  have hverdict : (N.verifiers C).verifyIos request =
      verdict "ios" (verifyAppAttest N.engine appAttestReader C.ios C.iosAnchors request) := rfl
  rw [hverdict, verdict_unavailable haccepts]
  simp only [verifyAppAttest, stops_bind, stops_decoding, stops_faulting, stops_orReject, decoding_eq_ok,
    faulting_eq_ok, not_stops_checkRequest hP, not_stops_checkCertifiedNonce hP, not_stops_checkAuthData hP,
    not_stops_pure, hP.rejected, hP.fault, ne_eq, reduceCtorEq, not_false_eq_true, and_false, and_true, exists_false,
    false_or, or_false]
  constructor
  · rintro ⟨⟨⟩, hrequest, object, hobject, chain, hchain, detail, hpath, hleaf | ⟨leaf, hleaf, ⟨⟩, hnonce, authData,
      hauthData, hkey⟩⟩
    · obtain ⟨message, hmessage⟩ := hleaf
      have hholds := (verifyCertificateChain_ok_iff _ _ _).mp ⟨detail, hpath⟩
      obtain ⟨leaf, hfirst⟩ := head_of_chainHolds hholds
      rw [hfirst] at hmessage
      exact absurd hmessage (by simp)
    · obtain ⟨extension, certified, point, hfound, hcertified, hpoint, hdigest⟩ := checkCertifiedNonce_eq_ok.mp hnonce
      exact ⟨leaf, ⟨checkRequest_eq_ok.mp hrequest, object, chain, extension, certified, point, authData, hobject,
        hchain, (verifyCertificateChain_ok_iff _ _ _).mp ⟨detail, hpath⟩, head_of_elim hleaf, hfound, hcertified,
        hpoint, hdigest, hauthData⟩, (rawPoint_eq_error hexports).mp hkey⟩
  · rintro ⟨leaf, ⟨hrequest, object, chain, extension, certified, point, authData, hobject, hchain, hholds, hfirst,
      hfound, hcertified, hpoint, hdigest, hauthData⟩, hkey⟩
    obtain ⟨detail, hpath⟩ := (verifyCertificateChain_ok_iff _ _ _).mpr hholds
    have hleaf : chain.head?.elim (.error "no leaf") Except.ok = .ok leaf := by rw [hfirst]; rfl
    exact ⟨(), checkRequest_eq_ok.mpr hrequest, object, hobject, chain, hchain, detail, hpath, .inr ⟨leaf, hleaf, (),
      checkCertifiedNonce_eq_ok.mpr ⟨extension, certified, point, hfound, hcertified, hpoint, hdigest⟩, authData,
      hauthData, (rawPoint_eq_error hexports).mpr hkey⟩⟩

end Verifiers

/-- The verifiers report no outage, and a key attestation stops with no exception, exactly if the certificate of
which the key is read has one that can be read: nothing that a client sends before that is an outage. -/
theorem outage_iff (N : NodeCrypto) (C : N.Config) (hexports : N.ExportsCurves) :
    (∀ input, (∀ message, verifyAndroidKeyAttestation N.engine input ≠ .error (.fault message)) ↔
      ∀ leaf, KeyReached N input leaf → ¬UnreadableKey N leaf) ∧
    (∀ decoded request,
      (∀ detail, (N.verifiers C).verifyAndroid (.ok decoded) request ≠ .rejected .verifierUnavailable detail) ↔
        ∀ leaf, AndroidReached N C decoded request leaf → ¬UnreadableKey N leaf) ∧
    (∀ request, (∀ detail, (N.verifiers C).verifyIos request ≠ .rejected .verifierUnavailable detail) ↔
      ∀ leaf, IosReached N C request leaf → ¬UnreadableKey N leaf) := by
  have hfault : ∀ input, (∃ message, verifyAndroidKeyAttestation N.engine input = .error (.fault message)) ↔
      ∃ leaf, KeyReached N input leaf ∧ UnreadableKey N leaf := by
    intro input
    rw [← stops_verify unforeseen_isFault hexports]
    constructor
    · rintro ⟨message, h⟩
      exact ⟨_, h, trivial⟩
    · rintro ⟨stop, h, hstop⟩
      cases stop with
      | fault message => exact ⟨message, h⟩
      | rejected code detail => exact hstop.elim
  refine ⟨fun input => ?_, fun decoded request => ?_, fun request => ?_⟩
  · simpa only [not_exists, not_and] using not_congr (hfault input)
  · simpa only [not_exists, not_and] using not_congr (unavailable_android hexports (C := C))
  · simpa only [not_exists, not_and] using not_congr (unavailable_ios hexports (C := C))

/-! ## A sample -/

/-- A leaf with a key on a curve that is not exported. -/
def sampleBrainpoolDer : Bytes :=
  [0x30, 0x82, 0x01, 0x68, 0x30, 0x82, 0x01, 0x0f, 0xa0, 0x03, 0x02, 0x01, 0x02, 0x02, 0x01, 0x02, 0x30, 0x0a,
    0x06, 0x08, 0x2a, 0x86, 0x48, 0xce, 0x3d, 0x04, 0x03, 0x02, 0x30, 0x0c, 0x31, 0x0a, 0x30, 0x08, 0x06, 0x03,
    0x55, 0x04, 0x03, 0x0c, 0x01, 0x52, 0x30, 0x1e, 0x17, 0x0d, 0x32, 0x36, 0x31, 0x31, 0x31, 0x38, 0x31, 0x39,
    0x31, 0x35, 0x30, 0x34, 0x5a, 0x17, 0x0d, 0x33, 0x36, 0x31, 0x31, 0x31, 0x35, 0x31, 0x39, 0x31, 0x35, 0x30,
    0x34, 0x5a, 0x30, 0x0c, 0x31, 0x0a, 0x30, 0x08, 0x06, 0x03, 0x55, 0x04, 0x03, 0x0c, 0x01, 0x4c, 0x30, 0x5a,
    0x30, 0x14, 0x06, 0x07, 0x2a, 0x86, 0x48, 0xce, 0x3d, 0x02, 0x01, 0x06, 0x09, 0x2b, 0x24, 0x03, 0x03, 0x02,
    0x08, 0x01, 0x01, 0x07, 0x03, 0x42, 0x00, 0x04, 0x95, 0xc6, 0x77, 0x0a, 0x1e, 0x70, 0xbe, 0x5e, 0x75, 0x5d,
    0xcd, 0xc2, 0x7e, 0x05, 0x92, 0x1e, 0xdf, 0x79, 0xad, 0xe2, 0xe9, 0x93, 0x1a, 0x6f, 0xba, 0x10, 0x59, 0x6d,
    0x15, 0x7e, 0x47, 0x6a, 0x74, 0xbd, 0x85, 0x63, 0x6e, 0xb1, 0xff, 0xb6, 0x01, 0xba, 0xe3, 0x73, 0xe0, 0xc8,
    0x46, 0x9f, 0xa2, 0x86, 0x33, 0x8b, 0xbf, 0xa2, 0xee, 0x41, 0x2c, 0x20, 0xf6, 0x08, 0xaa, 0xeb, 0xe7, 0xb6,
    0xa3, 0x61, 0x30, 0x5f, 0x30, 0x5d, 0x06, 0x0a, 0x2b, 0x06, 0x01, 0x04, 0x01, 0xd6, 0x79, 0x02, 0x01, 0x11,
    0x04, 0x4f, 0x30, 0x4d, 0x02, 0x01, 0x03, 0x0a, 0x01, 0x01, 0x02, 0x01, 0x04, 0x0a, 0x01, 0x03, 0x04, 0x05,
    0x6e, 0x6f, 0x6e, 0x63, 0x65, 0x04, 0x00, 0x30, 0x1e, 0xbf, 0x85, 0x45, 0x1a, 0x04, 0x18, 0x30, 0x16, 0x31,
    0x0d, 0x30, 0x0b, 0x04, 0x06, 0x72, 0x77, 0x2e, 0x61, 0x70, 0x70, 0x02, 0x01, 0x01, 0x31, 0x05, 0x04, 0x03,
    0x01, 0x02, 0x03, 0x30, 0x16, 0xbf, 0x85, 0x3e, 0x03, 0x02, 0x01, 0x00, 0xbf, 0x85, 0x40, 0x0b, 0x30, 0x09,
    0x04, 0x01, 0x00, 0x01, 0x01, 0xff, 0x0a, 0x01, 0x00, 0x30, 0x0a, 0x06, 0x08, 0x2a, 0x86, 0x48, 0xce, 0x3d,
    0x04, 0x03, 0x02, 0x03, 0x47, 0x00, 0x30, 0x44, 0x02, 0x20, 0x1b, 0x9a, 0xad, 0xfe, 0xb5, 0x9a, 0x9e, 0x3b,
    0xbe, 0x8a, 0x93, 0x80, 0xad, 0x7c, 0x17, 0x19, 0x05, 0xf2, 0x03, 0x49, 0x67, 0xfb, 0x15, 0x87, 0x7c, 0x96,
    0xbd, 0x2e, 0x38, 0x3b, 0x7e, 0xe4, 0x02, 0x20, 0x72, 0xd0, 0x7b, 0xb8, 0x69, 0x11, 0x91, 0xd3, 0x68, 0xf3,
    0x20, 0x01, 0xf8, 0x4f, 0xa5, 0x0b, 0xd7, 0x39, 0x04, 0xce, 0x77, 0x26, 0xe9, 0xb6, 0x99, 0x20, 0xb9, 0xd2,
    0x3b, 0xd0, 0x63, 0xcc]

/-- What `node:crypto` answers about it. -/
def sampleBrainpool : NodeCrypto :=
  sampleCrypto sampleBrainpoolDer ⟨"ec", some "brainpoolP256r1", .error "Unsupported JWK EC curve: brainpoolP256r1."⟩
    []

/-- The configuration of the sample. -/
def sampleBrainpoolConfig : sampleBrainpool.Config where
  android := { packageName := "rw.app", certificateDigests := ["AQID"] }
  ios := { appId := "T.rw.app", production := true }
  maxTokenAgeMs := 120000
  androidAnchors := [SampleCertificate.root]
  iosAnchors := [SampleCertificate.root]

/-- A request with the leaf as its key attestation, for a key of its own. -/
def sampleBrainpoolRequest : AttestationRequest where
  token := "token"
  keyAttestation := some (toBase64 sampleBrainpoolDer)
  expectedNonce := "nonce"
  devicePublicKeyJwk := { kty := "EC", crv := "P-256", x := toBase64Url sampleX, y := toBase64Url sampleY }
  now := 1800000000000

theorem sampleBrainpool_exportsCurves : sampleBrainpool.ExportsCurves := by
  intro cert key hkey htype
  cases cert with
  | leaf =>
    obtain rfl := Except.ok.inj hkey
    simp [JWK_CURVES]
  | root =>
    obtain rfl := Except.ok.inj hkey
    simp [JWK_CURVES, sampleRootKey, sampleKey]

/-- The check of the sample reaches the leaf's key. -/
theorem sampleBrainpool_reached : KeyReached sampleBrainpool
    (keyInput (sampleBrainpool.verifiers sampleBrainpoolConfig) sampleBrainpoolRequest (toBase64 sampleBrainpoolDer))
    SampleCertificate.leaf := by
  have hsent : parseCertificateChainInput (toBase64 sampleBrainpoolDer) = .ok [sampleBrainpoolDer] := by
    refine parseCertificateChainInput_toBase64 (List.cons_ne_nil _ _) ?_
    rw [utf16Length_toBase64]
    decide +kernel
  have hfound : findCertificateExtension sampleBrainpoolDer ANDROID_KEY_ATTESTATION_OID =
      .ok (some sampleExtension) := by decide +kernel
  obtain ⟨henrolled, -⟩ :=
    sampleKey_point (x := sampleX) (y := sampleY) (by decide) (by decide) (N := sampleBrainpool)
  exact ⟨[sampleBrainpoolDer], [SampleCertificate.leaf], sampleExtension, sampleDescription, _, hsent,
    mapM_eq_ok.mpr (.cons sample_parse .nil), sample_chainHolds (by decide), rfl, hfound, sampleExtension_parse,
    by decide, henrolled⟩

/-- The key of the sample cannot be read. -/
theorem sampleBrainpool_unreadable : UnreadableKey sampleBrainpool SampleCertificate.leaf :=
  .inr ⟨_, rfl, rfl, by decide⟩

theorem sampleBrainpool_androidReached :
    AndroidReached sampleBrainpool sampleBrainpoolConfig sampleDecoded sampleBrainpoolRequest SampleCertificate.leaf := by
  have hparsed : parseIntegrityPayload sampleDecoded = .ok ⟨"rw.app", "nonce", 1800000000000, "PLAY_RECOGNIZED", none,
      ["AQID"], none, ["MEETS_DEVICE_INTEGRITY"], none⟩ := by decide
  have hkey : toBase64 sampleBrainpoolDer ≠ "" := by decide +kernel
  exact ⟨⟨⟨by decide, by decide⟩, by decide⟩, ⟨_, parseIntegrityPayload_eq_ok.mp hparsed, by decide⟩, _, ⟨hkey, rfl⟩,
    sampleBrainpool_reached⟩

/-- A chain that the platform's root certifies, with a key on a curve that is not exported, is an exception, and is
reported as an outage. -/
theorem not_outage_sampleBrainpool : ¬∀ (N : NodeCrypto) (C : N.Config), N.ExportsCurves →
    (∀ input message, verifyAndroidKeyAttestation N.engine input ≠ .error (.fault message)) ∧
    (∀ decoded request detail,
      (N.verifiers C).verifyAndroid (.ok decoded) request ≠ .rejected .verifierUnavailable detail) ∧
    (∀ request detail, (N.verifiers C).verifyIos request ≠ .rejected .verifierUnavailable detail) := by
  intro h
  obtain ⟨-, handroid, -⟩ := h sampleBrainpool sampleBrainpoolConfig sampleBrainpool_exportsCurves
  obtain ⟨detail, hunavailable⟩ := (unavailable_android sampleBrainpool_exportsCurves).mpr
    ⟨_, sampleBrainpool_androidReached, sampleBrainpool_unreadable⟩
  exact handroid _ _ detail hunavailable

theorem outage_iff_sampleBrainpool :
    ¬∀ detail, (sampleBrainpool.verifiers sampleBrainpoolConfig).verifyAndroid (.ok sampleDecoded)
      sampleBrainpoolRequest ≠ .rejected .verifierUnavailable detail := by
  obtain ⟨-, handroid, -⟩ := outage_iff sampleBrainpool sampleBrainpoolConfig sampleBrainpool_exportsCurves
  intro h
  exact (handroid _ _).mp h _ sampleBrainpool_androidReached sampleBrainpool_unreadable

end SdidBridge.Attestation
