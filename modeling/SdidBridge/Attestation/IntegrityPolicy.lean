import SdidBridge.Attestation.AttestedKeys

/-!
# The policy on Play Integrity tokens

`ShapedAs` says what a decoded token is as a value, without the reader, and `IntegrityPolicy` what is asked of it.
The verifier accepts a request exactly when the policy holds and the token is neither empty nor too long
(`verifyAndroid_policy`).
-/

namespace SdidBridge.Attestation

/-! ## Shapes -/

/-- The member is an object. -/
def IsObject (value : Option JsValue) (object : JsValue) : Prop := ∃ ms, object = .obj ms ∧ value = some object

/-- The member is a text with a character in it. -/
def IsText (value : Option JsValue) (s : String) : Prop := s ≠ "" ∧ value = some (.str s)

/-- The member is missing, or of a kind. -/
def Optionally {α : Type} (Is : Option JsValue → α → Prop) (value : Option JsValue) : Option α → Prop
  | none => value = none
  | some a => value ≠ none ∧ Is value a

/-- The member is a list of texts, at most 64. One that is missing or `null` has none. -/
def IsTexts (value : Option JsValue) (ss : List String) : Prop :=
  (ss = [] ∧ (value = none ∨ value = some .null)) ∨
    (value = some (.arr (ss.map .str)) ∧ ss.length ≤ 64 ∧ ∀ s ∈ ss, s ≠ "")

/-- The member is a positive safe integer, as a number or as its text of at most 15 digits. -/
def IsTimestamp (value : Option JsValue) (t : ℤ) : Prop :=
  (∃ n m, value = some (.num n) ∧ positiveSafe n = some m ∧ t = m) ∨
    ∃ s, value = some (.str s) ∧ (1 ≤ s.toList.length ∧ s.toList.length ≤ 15 ∧
      (s.toList.all fun c => '0' ≤ c ∧ c ≤ '9') ∧ 0 < digitsValue s) ∧ t = digitsValue s

/-- The verdict on the licence of an app, in the details of an account, where there are any. -/
def IsLicensing (value : Option JsValue) (verdict : Option String) : Prop :=
  (value = none ∧ verdict = none) ∨
    ∃ details, IsObject value details ∧ Optionally IsText (defined details "appLicensingVerdict") verdict

/-- The fields of a decoded token, whether it is wrapped or not. -/
structure ShapedAs (decoded : JsValue) (payload : IntegrityPayload) : Prop where
  shape : ∃ body requestDetails appIntegrity deviceIntegrity,
    (∃ ms, decoded = .obj ms) ∧
    ((decoded.member "tokenPayloadExternal" = none ∧ body = decoded) ∨
      IsObject (decoded.member "tokenPayloadExternal") body) ∧
    IsObject (defined body "requestDetails") requestDetails ∧
    IsObject (defined body "appIntegrity") appIntegrity ∧
    IsObject (defined body "deviceIntegrity") deviceIntegrity ∧
    IsTexts (defined appIntegrity "certificateSha256Digest") payload.certificateDigests ∧
    IsTexts (defined deviceIntegrity "deviceRecognitionVerdict") payload.deviceVerdicts ∧
    IsText (defined requestDetails "requestPackageName") payload.requestPackageName ∧
    IsText (defined requestDetails "nonce") payload.nonce ∧
    IsTimestamp (defined requestDetails "timestampMillis") payload.timestampMillis ∧
    IsText (defined appIntegrity "appRecognitionVerdict") payload.appRecognitionVerdict ∧
    Optionally IsText (defined appIntegrity "packageName") payload.appPackageName ∧
    Optionally (fun value text => ∃ v ∈ value, stringOf v = .ok text) (defined appIntegrity "versionCode")
      payload.versionCode ∧
    IsLicensing (defined body "accountDetails") payload.appLicensingVerdict

section Shapes

variable {value : Option JsValue} {what : String}

theorem asObject_eq_ok {object : JsValue} : asObject value what = .ok object ↔ IsObject value object := by
  unfold asObject IsObject
  split
  · rename_i ms
    constructor
    · intro h
      exact ⟨ms, (Except.ok.inj h).symm, congrArg some (Except.ok.inj h)⟩
    · rintro ⟨ms', rfl, hvalue⟩
      rw [Option.some.inj hvalue]
  · rename_i hother
    constructor
    · simp
    · rintro ⟨ms, rfl, rfl⟩
      exact absurd rfl (hother ms)

theorem asString_eq_ok {s : String} : asString value what = .ok s ↔ IsText value s := by
  unfold asString IsText
  split
  · rename_i t
    split_ifs with hempty
    · subst hempty
      simp [eq_comm]
    · constructor
      · intro h
        obtain rfl := Except.ok.inj h
        exact ⟨hempty, rfl⟩
      · rintro ⟨-, hvalue⟩
        rw [JsValue.str.inj (Option.some.inj hvalue)]
  · rename_i hother
    constructor
    · simp
    · rintro ⟨-, rfl⟩
      exact absurd rfl (hother s)

theorem asStrings_eq_ok {vs : List JsValue} {ss : List String} {i : ℕ} :
    asStrings what i vs = .ok ss ↔ vs = ss.map .str ∧ ∀ s ∈ ss, s ≠ "" := by
  induction vs generalizing ss i with
  | nil =>
    rw [asStrings, Except.ok.injEq]
    constructor
    · rintro rfl
      simp
    · rintro ⟨hmap, -⟩
      exact (List.map_eq_nil_iff.mp hmap.symm).symm
  | cons v vs ih =>
    rw [asStrings]
    constructor
    · intro h
      obtain ⟨s, hs, h⟩ := except_bind_eq_ok.mp h
      obtain ⟨ss', hss, h⟩ := except_bind_eq_ok.mp h
      obtain rfl := except_pure_eq_ok.mp h
      obtain ⟨hne, hv⟩ := asString_eq_ok.mp hs
      obtain ⟨rfl, hrest⟩ := ih.mp hss
      rw [Option.some.inj hv]
      exact ⟨rfl, List.forall_mem_cons.mpr ⟨hne, hrest⟩⟩
    · rintro ⟨hmap, hall⟩
      cases ss with
      | nil => simp at hmap
      | cons s ss =>
        rw [List.map_cons, List.cons.injEq] at hmap
        obtain ⟨rfl, rfl⟩ := hmap
        obtain ⟨hne, hrest⟩ := List.forall_mem_cons.mp hall
        refine except_bind_eq_ok.mpr ⟨s, asString_eq_ok.mpr ⟨hne, rfl⟩, ?_⟩
        exact except_bind_eq_ok.mpr ⟨ss, ih.mpr ⟨rfl, hrest⟩, rfl⟩

theorem optionalStringArray_eq_ok {ss : List String} :
    optionalStringArray value what = .ok ss ↔ IsTexts value ss := by
  unfold optionalStringArray IsTexts
  split
  · simp [eq_comm]
  · simp [eq_comm]
  · rename_i vs
    constructor
    · intro h
      split_ifs at h with hmany
      obtain ⟨rfl, hall⟩ := asStrings_eq_ok.mp h
      rw [List.length_map] at hmany
      exact .inr ⟨rfl, not_lt.mp hmany, hall⟩
    · rintro (⟨-, hmissing⟩ | ⟨hvalue, hfew, hall⟩)
      · simp at hmissing
      · obtain rfl : vs = ss.map .str := JsValue.arr.inj (Option.some.inj hvalue)
        rw [List.length_map, if_neg (not_lt.mpr hfew)]
        exact asStrings_eq_ok.mpr ⟨rfl, hall⟩
  · rename_i hnone hnull harr
    constructor
    · simp
    · rintro (⟨-, hmissing | hmissing⟩ | ⟨hvalue, -⟩)
      · exact absurd hmissing hnone
      · exact absurd hmissing hnull
      · exact absurd hvalue (harr _)

theorem asEpochMillis_eq_ok {t : ℤ} : asEpochMillis value what = .ok t ↔ IsTimestamp value t := by
  unfold asEpochMillis IsTimestamp
  dsimp only
  split
  · rename_i n
    constructor
    · intro h
      cases hsafe : positiveSafe n with
      | none => simp [hsafe] at h
      | some m =>
        rw [hsafe] at h
        exact .inl ⟨n, m, rfl, hsafe, (Except.ok.inj h).symm⟩
    · rintro (⟨n', m, hvalue, hsafe, rfl⟩ | ⟨s, hvalue, -⟩)
      · obtain rfl := JsValue.num.inj (Option.some.inj hvalue)
        rw [hsafe]
        rfl
      · simp at hvalue
  · rename_i s
    constructor
    · intro h
      split_ifs at h with hdigits
      exact .inr ⟨s, rfl, hdigits, (Except.ok.inj h).symm⟩
    · rintro (⟨n, m, hvalue, -⟩ | ⟨s', hvalue, hdigits, rfl⟩)
      · simp at hvalue
      · obtain rfl := JsValue.str.inj (Option.some.inj hvalue)
        rw [if_pos hdigits]
  · rename_i hnum hstr
    constructor
    · simp
    · rintro (⟨n, m, rfl, -⟩ | ⟨s, rfl, -⟩)
      · exact absurd rfl (hnum n)
      · exact absurd rfl (hstr s)

/-- A member that may be missing. -/
theorem ifDefined_eq_ok {α : Type} {Is : Option JsValue → α → Prop} {read : JsValue → Except String α}
    {found : Option α} (h : ∀ v a, read v = .ok a ↔ Is (some v) a) :
    ifDefined value read = .ok found ↔ Optionally Is value found := by
  unfold ifDefined
  cases value with
  | none => cases found <;> simp [Optionally]
  | some v =>
    dsimp only
    cases hread : read v with
    | error message =>
      have hnot : ∀ a, ¬Is (some v) a := fun a ha => by
        have hok := (h v a).mpr ha
        rw [hread] at hok
        exact absurd hok (by simp)
      cases found <;> simp [Optionally, Except.map, hnot]
    | ok a =>
      have ha : ∀ b, Is (some v) b ↔ a = b := fun b => by rw [← h, hread, Except.ok.injEq]
      cases found <;> simp [Optionally, Except.map, ha]

theorem readLicensing_eq_ok {body : JsValue} {verdict : Option String} :
    readLicensing body = .ok verdict ↔ IsLicensing (defined body "accountDetails") verdict := by
  unfold readLicensing
  cases defined body "accountDetails" with
  | none =>
    constructor
    · intro h
      exact .inl ⟨rfl, (Except.ok.inj h).symm⟩
    · rintro (⟨-, rfl⟩ | ⟨details, ⟨ms, rfl, hvalue⟩, -⟩)
      · rfl
      · simp at hvalue
  | some v =>
    constructor
    · intro h
      obtain ⟨details, hdetails, h⟩ := except_bind_eq_ok.mp h
      exact .inr ⟨details, asObject_eq_ok.mp hdetails, (ifDefined_eq_ok fun v s => asString_eq_ok).mp h⟩
    · rintro (⟨hvalue, -⟩ | ⟨details, hdetails, hverdict⟩)
      · simp at hvalue
      · refine except_bind_eq_ok.mpr ⟨details, asObject_eq_ok.mpr hdetails, ?_⟩
        exact (ifDefined_eq_ok fun v s => asString_eq_ok).mpr hverdict

theorem payloadBody_eq_ok {root body : JsValue} : payloadBody root = .ok body ↔
    (root.member "tokenPayloadExternal" = none ∧ body = root) ∨
      IsObject (root.member "tokenPayloadExternal") body := by
  unfold payloadBody
  cases root.member "tokenPayloadExternal" with
  | none => simp [IsObject, eq_comm]
  | some inner => simp [asObject_eq_ok]

/-- A decoded token is parsed exactly when it has the shape, and to the fields that it has. -/
theorem parseIntegrityPayload_eq_ok {decoded : JsValue} {payload : IntegrityPayload} :
    parseIntegrityPayload decoded = .ok payload ↔ ShapedAs decoded payload := by
  unfold parseIntegrityPayload
  constructor
  · intro h
    obtain ⟨root, hroot, h⟩ := except_bind_eq_ok.mp h
    obtain ⟨body, hbody, h⟩ := except_bind_eq_ok.mp h
    obtain ⟨requestDetails, hrequest, h⟩ := except_bind_eq_ok.mp h
    obtain ⟨appIntegrity, happ, h⟩ := except_bind_eq_ok.mp h
    obtain ⟨deviceIntegrity, hdevice, h⟩ := except_bind_eq_ok.mp h
    obtain ⟨certificateDigests, hdigests, h⟩ := except_bind_eq_ok.mp h
    obtain ⟨deviceVerdicts, hverdicts, h⟩ := except_bind_eq_ok.mp h
    obtain ⟨requestPackageName, hpackage, h⟩ := except_bind_eq_ok.mp h
    obtain ⟨nonce, hnonce, h⟩ := except_bind_eq_ok.mp h
    obtain ⟨timestampMillis, htimestamp, h⟩ := except_bind_eq_ok.mp h
    obtain ⟨appRecognitionVerdict, hrecognition, h⟩ := except_bind_eq_ok.mp h
    obtain ⟨appPackageName, happPackage, h⟩ := except_bind_eq_ok.mp h
    obtain ⟨versionCode, hversion, h⟩ := except_bind_eq_ok.mp h
    obtain ⟨appLicensingVerdict, hlicensing, h⟩ := except_bind_eq_ok.mp h
    obtain rfl := except_pure_eq_ok.mp h
    obtain ⟨ms, rfl, hdecoded⟩ := asObject_eq_ok.mp hroot
    obtain rfl := Option.some.inj hdecoded
    exact ⟨body, requestDetails, appIntegrity, deviceIntegrity, ⟨ms, rfl⟩, payloadBody_eq_ok.mp hbody,
      asObject_eq_ok.mp hrequest, asObject_eq_ok.mp happ, asObject_eq_ok.mp hdevice,
      optionalStringArray_eq_ok.mp hdigests, optionalStringArray_eq_ok.mp hverdicts, asString_eq_ok.mp hpackage,
      asString_eq_ok.mp hnonce, asEpochMillis_eq_ok.mp htimestamp, asString_eq_ok.mp hrecognition,
      (ifDefined_eq_ok fun v s => asString_eq_ok).mp happPackage, (ifDefined_eq_ok fun v s => by simp).mp hversion,
      readLicensing_eq_ok.mp hlicensing⟩
  · rintro ⟨body, requestDetails, appIntegrity, deviceIntegrity, ⟨ms, rfl⟩, hbody, hrequest, happ, hdevice, hdigests,
      hverdicts, hpackage, hnonce, htimestamp, hrecognition, happPackage, hversion, hlicensing⟩
    refine except_bind_eq_ok.mpr ⟨.obj ms, rfl, except_bind_eq_ok.mpr ⟨body, payloadBody_eq_ok.mpr hbody, ?_⟩⟩
    refine except_bind_eq_ok.mpr ⟨_, asObject_eq_ok.mpr hrequest, except_bind_eq_ok.mpr ⟨_, asObject_eq_ok.mpr happ,
      except_bind_eq_ok.mpr ⟨_, asObject_eq_ok.mpr hdevice, ?_⟩⟩⟩
    refine except_bind_eq_ok.mpr ⟨_, optionalStringArray_eq_ok.mpr hdigests, except_bind_eq_ok.mpr ⟨_,
      optionalStringArray_eq_ok.mpr hverdicts, except_bind_eq_ok.mpr ⟨_, asString_eq_ok.mpr hpackage, ?_⟩⟩⟩
    refine except_bind_eq_ok.mpr ⟨_, asString_eq_ok.mpr hnonce, except_bind_eq_ok.mpr ⟨_,
      asEpochMillis_eq_ok.mpr htimestamp, except_bind_eq_ok.mpr ⟨_, asString_eq_ok.mpr hrecognition, ?_⟩⟩⟩
    refine except_bind_eq_ok.mpr ⟨_, (ifDefined_eq_ok fun v s => asString_eq_ok).mpr happPackage, ?_⟩
    refine except_bind_eq_ok.mpr ⟨_, (ifDefined_eq_ok fun v s => by simp).mpr hversion, ?_⟩
    exact except_bind_eq_ok.mpr ⟨_, readLicensing_eq_ok.mpr hlicensing, rfl⟩

end Shapes

/-! ## The policy -/

/-- The attestation that a request has of its key, as the Android verifier takes it. -/
def keyInput (V : Verifiers) (request : AttestationRequest) (keyAttestation : String) :
    AndroidKeyAttestationInput V.engine where
  keyAttestation
  expectedNonce := request.expectedNonce
  devicePublicKeyJwk := request.devicePublicKeyJwk
  packageName := V.android.packageName
  certificateDigests := V.android.certificateDigests
  now := request.now
  trustAnchors := V.androidAnchors

/-- The level of the enrolled key: the lowest one without an attestation, and the attested one with one that
verifies. -/
def KeyLevel (V : Verifiers) (request : AttestationRequest) (level : KeySecurityLevel) : Prop :=
  ((request.keyAttestation = none ∨ request.keyAttestation = some "") ∧ level = .software) ∨
    ∃ keyAttestation evidence, (keyAttestation ≠ "" ∧ request.keyAttestation = some keyAttestation) ∧
      verifyAndroidKeyAttestation V.engine (keyInput V request keyAttestation) = .ok (level, evidence)

/-- What is asked of a decoded token and its request, the key apart. -/
def PayloadPolicy (V : Verifiers) (decoded : JsValue) (request : AttestationRequest) : Prop :=
  ∃ payload, ShapedAs decoded payload ∧
    (payload.requestPackageName = V.android.packageName ∧
      ∀ name ∈ payload.appPackageName, name = V.android.packageName) ∧
    payload.nonce = request.expectedNonce ∧
    (-CLOCK_SKEW_TOLERANCE_MS ≤ request.now - payload.timestampMillis ∧
      request.now - payload.timestampMillis ≤ V.maxTokenAgeMs) ∧
    (payload.appRecognitionVerdict = APP_RECOGNITION_PLAY_RECOGNIZED ∧
      ∃ digest ∈ payload.certificateDigests, digest ∈ V.android.certificateDigests) ∧
    (DEVICE_VERDICT_DEVICE_INTEGRITY ∈ payload.deviceVerdicts ∨
      DEVICE_VERDICT_STRONG_INTEGRITY ∈ payload.deviceVerdicts)

/-- What is asked of a decoded token and its request, for a key of a level. -/
structure IntegrityPolicy (V : Verifiers) (decoded : JsValue) (request : AttestationRequest)
    (level : KeySecurityLevel) : Prop where
  /-- The token is sound, recent and about the request. -/
  payload : PayloadPolicy V decoded request
  /-- The key is not attested, or its attestation verifies. -/
  key : KeyLevel V request level

/-- The token is neither empty nor longer than is decoded. -/
def TokenSized (request : AttestationRequest) : Prop :=
  request.token ≠ "" ∧ utf16Length request.token ≤ MAX_TOKEN_CHARS

section Policy

variable {V : Verifiers} {request : AttestationRequest} {level : KeySecurityLevel}

theorem checkRequest_eq_ok {what : String} :
    checkRequest request what = .ok () ↔ TokenSized request ∧ request.expectedNonce ≠ "" := by
  unfold checkRequest TokenSized
  simp [and_assoc]

theorem stringsEqual_iff {a b : String} : stringsEqual a b = true ↔ a = b ∧ a ≠ "" := by
  constructor
  · intro h
    obtain rfl := eq_of_stringsEqual h
    refine ⟨rfl, ?_⟩
    rintro rfl
    exact absurd h (by decide)
  · rintro ⟨rfl, hne⟩
    have hbytes : utf8 a ≠ [] := fun hnil => hne (utf8_injective hnil)
    unfold stringsEqual bytesEqual
    simp [hbytes]

/-- The nonce of a token is not empty. -/
theorem ShapedAs.nonce_ne {decoded : JsValue} {payload : IntegrityPayload} (h : ShapedAs decoded payload) :
    payload.nonce ≠ "" := by
  obtain ⟨body, requestDetails, appIntegrity, deviceIntegrity, -, -, -, -, -, -, -, -, hnonce, -⟩ := h.shape
  exact hnonce.1

/-- The checks on a token that passes them, with its age. -/
theorem checkPayload_eq_ok {payload : IntegrityPayload} {age : ℤ} (hnonce : payload.nonce ≠ "") :
    checkPayload V.android V.maxTokenAgeMs request payload = .ok age ↔
      age = request.now - payload.timestampMillis ∧
      (payload.requestPackageName = V.android.packageName ∧
        ∀ name ∈ payload.appPackageName, name = V.android.packageName) ∧
      payload.nonce = request.expectedNonce ∧
      (-CLOCK_SKEW_TOLERANCE_MS ≤ request.now - payload.timestampMillis ∧
        request.now - payload.timestampMillis ≤ V.maxTokenAgeMs) ∧
      (payload.appRecognitionVerdict = APP_RECOGNITION_PLAY_RECOGNIZED ∧
        ∃ digest ∈ payload.certificateDigests, digest ∈ V.android.certificateDigests) ∧
      (DEVICE_VERDICT_DEVICE_INTEGRITY ∈ payload.deviceVerdicts ∨
        DEVICE_VERDICT_STRONG_INTEGRITY ∈ payload.deviceVerdicts) := by
  have happ : payload.appPackageName.any (· ≠ V.android.packageName) = false ↔
      ∀ name ∈ payload.appPackageName, name = V.android.packageName := by
    cases payload.appPackageName <;> simp
  simp only [checkPayload, bind_eq_ok, rejectIf_eq_ok, not_not, Bool.not_eq_false, not_forall, not_and_or, not_lt,
    Bool.not_eq_true, stringsEqual_iff]
  constructor
  · rintro ⟨-, hpackage, -, ⟨hsame, -⟩, -, hold, -, hnew, -, hrecognized, -, hname, -, ⟨digest, hdigest, hours⟩, -,
      hdevice, hage⟩
    exact ⟨except_pure_eq_ok.mp hage, ⟨hpackage, happ.mp hname⟩, hsame, ⟨hold, hnew⟩,
      ⟨hrecognized, digest, hdigest, hours⟩, hdevice⟩
  · rintro ⟨rfl, ⟨hpackage, hname⟩, hsame, ⟨hold, hnew⟩, ⟨hrecognized, digest, hdigest, hours⟩, hdevice⟩
    exact ⟨(), hpackage, (), ⟨hsame, hnonce⟩, (), hold, (), hnew, (), hrecognized, (), happ.mpr hname, (),
      ⟨digest, hdigest, hours⟩, (), hdevice, rfl⟩

/-- The level that is found is that of the key. -/
theorem androidKeyLevel_eq_ok : (∃ evidence,
    androidKeyLevel V.engine V.android V.androidAnchors request = .ok (level, evidence)) ↔ KeyLevel V request level := by
  unfold androidKeyLevel KeyLevel
  cases hattestation : request.keyAttestation with
  | none => simp [pure, Except.pure, eq_comm]
  | some keyAttestation =>
    by_cases hempty : keyAttestation = ""
    · subst hempty
      have hnone : (some "").filter (· ≠ "") = none := by decide
      rw [hnone]
      simp [pure, Except.pure, eq_comm]
    · have hsome : (some keyAttestation).filter (· ≠ "") = some keyAttestation := by simp [hempty]
      rw [hsome]
      dsimp only
      constructor
      · rintro ⟨evidence, h⟩
        obtain ⟨⟨level', evidence'⟩, hverified, h⟩ := bind_eq_ok.mp h
        obtain ⟨rfl, -⟩ := Prod.mk.inj (Except.ok.inj h)
        exact .inr ⟨keyAttestation, evidence', ⟨hempty, rfl⟩, hverified⟩
      · rintro (⟨hnone | hnone, -⟩ | ⟨keyAttestation', evidence, ⟨-, hsame⟩, hverified⟩)
        · exact absurd hnone (by simp)
        · exact absurd (Option.some.inj hnone) hempty
        · obtain rfl := Option.some.inj hsame
          exact ⟨_, bind_eq_ok.mpr ⟨(level, evidence), hverified, rfl⟩⟩

/-- The verifier accepts exactly what the policy asks for, of tokens that it decodes. -/
theorem verifyPlayIntegrity_eq_ok {decoded : JsValue} {platform : DevicePlatform} {genuine : Bool}
    {cap : AssuranceLevel} :
    (∃ evidence, V.verifyAndroid (.ok decoded) request = .ok platform level genuine cap evidence) ↔
      (TokenSized request ∧ IntegrityPolicy V decoded request level) ∧ platform = .android ∧ genuine = true ∧
        cap = deriveAssuranceCap true level V.android.requireStrongBox := by
  constructor
  · rintro ⟨evidence, h⟩
    obtain ⟨rfl, rfl, rfl, -⟩ := accepted_android h
    replace h := eq_ok_of_verdict h
    simp only [verifyPlayIntegrity, bind_eq_ok, decoding_eq_ok] at h
    obtain ⟨u, hrequest, value, hdecoded, payload, hparsed, age, hage, ⟨level', keyEvidence⟩, hlevel, hresult⟩ := h
    obtain rfl := Except.ok.inj hdecoded
    obtain ⟨-, rfl, -⟩ := AttestationResult.ok.inj (Except.ok.inj hresult)
    obtain ⟨hsized, hexpected⟩ := checkRequest_eq_ok.mp hrequest
    have hshaped := parseIntegrityPayload_eq_ok.mp hparsed
    have hnonce := hshaped.nonce_ne
    obtain ⟨-, hpolicy⟩ := (checkPayload_eq_ok hnonce).mp hage
    exact ⟨⟨hsized, ⟨payload, hshaped, hpolicy⟩, androidKeyLevel_eq_ok.mp ⟨_, hlevel⟩⟩, rfl, rfl, rfl⟩
  · rintro ⟨⟨hsized, ⟨payload, hshaped, hpolicy⟩, hkey⟩, rfl, rfl, rfl⟩
    have hnonce := hshaped.nonce_ne
    have hexpected : request.expectedNonce ≠ "" := hpolicy.2.1 ▸ hnonce
    obtain ⟨keyEvidence, hlevel⟩ := androidKeyLevel_eq_ok.mpr hkey
    have hchecked := (checkPayload_eq_ok hnonce).mpr ⟨rfl, hpolicy⟩
    have hverified : ∃ evidence, verifyPlayIntegrity V.engine V.android V.maxTokenAgeMs V.androidAnchors (.ok decoded)
        request = .ok (.ok .android level true (deriveAssuranceCap true level V.android.requireStrongBox) evidence) := by
      simp only [verifyPlayIntegrity, bind_eq_ok, decoding_eq_ok]
      exact ⟨_, (), checkRequest_eq_ok.mpr ⟨hsized, hexpected⟩, decoded, rfl, payload,
        parseIntegrityPayload_eq_ok.mpr hshaped, _, hchecked, (level, keyEvidence), hlevel, rfl⟩
    obtain ⟨evidence, hverified⟩ := hverified
    refine ⟨evidence, ?_⟩
    unfold Verifiers.verifyAndroid
    rw [hverified]
    rfl

end Policy

/-- The Android verifier accepts a decoded token exactly when the policy holds and the token is neither empty nor too
long; the cap is the second level exactly when the key is of hardware, and of a secure element where one is required. A
failure of the decoder and an exception are answered as an outage, and never as an acceptance. -/
theorem verifyAndroid_policy (V : Verifiers) (request : AttestationRequest) :
    (∀ decoded level, (∃ platform genuine cap evidence,
        V.verifyAndroid (.ok decoded) request = .ok platform level genuine cap evidence) ↔
      TokenSized request ∧ IntegrityPolicy V decoded request level) ∧
    (∀ decoded platform level genuine cap evidence,
      V.verifyAndroid (.ok decoded) request = .ok platform level genuine cap evidence →
      (cap = .AL2 ↔ level ≠ .software ∧ (V.android.requireStrongBox = true → level = .strongbox))) ∧
    (∀ message, TokenSized request → request.expectedNonce ≠ "" → V.verifyAndroid (.error message) request =
      .rejected .verifierUnavailable ("play integrity decode failed: " ++ message)) ∧
    (∀ message platform level genuine cap evidence,
      V.verifyAndroid (.error message) request ≠ .ok platform level genuine cap evidence) ∧
    ∀ decoded message,
      verifyPlayIntegrity V.engine V.android V.maxTokenAgeMs V.androidAnchors decoded request = .error (.fault message) →
      V.verifyAndroid decoded request = .rejected .verifierUnavailable ("android verifier fault: " ++ message) := by
  refine ⟨fun decoded level => ?_, ?_, ?_, ?_, ?_⟩
  · constructor
    · rintro ⟨platform, genuine, cap, h⟩
      exact (verifyPlayIntegrity_eq_ok.mp h).1
    · intro h
      exact ⟨.android, true, _, verifyPlayIntegrity_eq_ok.mpr ⟨h, rfl, rfl, rfl⟩⟩
  · intro decoded platform level genuine cap evidence h
    obtain ⟨-, -, -, rfl⟩ := verifyPlayIntegrity_eq_ok.mp ⟨evidence, h⟩
    rw [deriveAssuranceCap_eq_AL2]
    simp
  · intro message hsized hnonce
    have hrequest : checkRequest request "play integrity token" = .ok () := checkRequest_eq_ok.mpr ⟨hsized, hnonce⟩
    unfold Verifiers.verifyAndroid verifyPlayIntegrity
    rw [hrequest]
    rfl
  · intro message platform level genuine cap evidence h
    have hok := eq_ok_of_verdict h
    simp [verifyPlayIntegrity] at hok
  · intro decoded message h
    unfold Verifiers.verifyAndroid
    rw [h]
    rfl

/-- The configuration of a sample. -/
def sampleConfig : sampleAndroid.Config where
  android := { packageName := "rw.app", certificateDigests := ["AQID"] }
  ios := { appId := "T.rw.app", production := true }
  maxTokenAgeMs := 120000
  androidAnchors := [SampleCertificate.root]
  iosAnchors := [SampleCertificate.root]

/-- A decoded token of our app, which is not wrapped. -/
def sampleDecoded : JsValue :=
  .obj [
    ("requestDetails", .obj [("requestPackageName", .str "rw.app"), ("nonce", .str "nonce"),
      ("timestampMillis", .str "1800000000000")]),
    ("appIntegrity", .obj [("appRecognitionVerdict", .str "PLAY_RECOGNIZED"),
      ("certificateSha256Digest", .strs ["AQID"])]),
    ("deviceIntegrity", .obj [("deviceRecognitionVerdict", .strs ["MEETS_DEVICE_INTEGRITY"])])]

/-- A request with an empty token. -/
def sampleEmptyToken : AttestationRequest where
  token := ""
  keyAttestation := none
  expectedNonce := "nonce"
  devicePublicKeyJwk := { kty := "EC", crv := "P-256", x := "", y := "" }
  now := 1800000000000

/-- An empty token is refused, whatever it is decoded to. -/
theorem not_policy_sampleEmptyToken : ¬∀ (V : Verifiers) (decoded : JsValue) (request : AttestationRequest),
    (∃ platform level genuine cap evidence,
      V.verifyAndroid (.ok decoded) request = .ok platform level genuine cap evidence) ↔
    ∃ level, IntegrityPolicy V decoded request level := by
  intro h
  have hpolicy : IntegrityPolicy (sampleAndroid.verifiers sampleConfig) sampleDecoded sampleEmptyToken .software := by
    refine ⟨⟨⟨"rw.app", "nonce", 1800000000000, "PLAY_RECOGNIZED", none, ["AQID"], none, ["MEETS_DEVICE_INTEGRITY"],
      none⟩, parseIntegrityPayload_eq_ok.mp ?_, by decide⟩, .inl ⟨.inl rfl, rfl⟩⟩
    decide
  obtain ⟨platform, level, genuine, cap, hok⟩ := (h _ _ _).mpr ⟨_, hpolicy⟩
  exact (verifyPlayIntegrity_eq_ok.mp hok).1.1.1 rfl

end SdidBridge.Attestation
