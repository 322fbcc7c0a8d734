import SdidBridge.Attestation.AttestationObject
import SdidBridge.Attestation.Chain

/-!
# The verifiers over `node:crypto`

`NodeCrypto` is what the package calls of `node:crypto`, and all that is not in the package. With the package's
own readers it makes the engine that the verifiers run on.
-/

namespace SdidBridge.Attestation

/-- The members of an exported key that are read. -/
structure ExportedJwk where
  kty : Option String
  crv : Option String
  x : Option String
  y : Option String
  deriving DecidableEq

/-- A `KeyObject`. -/
structure KeyObject where
  /-- The type of the key. -/
  asymmetricKeyType : String
  /-- The curve in its `asymmetricKeyDetails`, if it has one. -/
  namedCurve : Option String
  /-- What `export({ format: 'jwk' })` answers or throws. -/
  exported : Except String ExportedJwk
  deriving DecidableEq

/-- What the package calls of `node:crypto`. -/
structure NodeCrypto where
  /-- An `X509Certificate`. -/
  Certificate : Type
  /-- `new X509Certificate`. -/
  parse : Bytes → Except String Certificate
  /-- `raw`. -/
  raw : Certificate → Bytes
  /-- `validFromDate.getTime()`, if it is finite. -/
  validFrom : Certificate → Option ℤ
  /-- `validToDate.getTime()`, if it is finite. -/
  validTo : Certificate → Option ℤ
  /-- `ca`. -/
  ca : Certificate → Bool
  /-- `publicKey`, which throws for a key that cannot be read. -/
  publicKey : Certificate → Except String KeyObject
  /-- `checkIssued`. -/
  checkIssued : Certificate → Certificate → Except String Bool
  /-- `verify`. -/
  verify : Certificate → KeyObject → Except String Bool
  /-- `createHash('sha256')`. -/
  sha256 : Bytes → Bytes
  /-- A digest has 32 bytes. -/
  sha256_length : ∀ bs, (sha256 bs).length = 32

/-- A text with a character in it. -/
def nonempty (s : Option String) : Option String := s.filter (· ≠ "")

/-- `keyObjectToRawPoint`. Only the reading of the exported key is inside of its `try`. -/
def keyObjectToRawPoint (E : CertificateEngine) (key : KeyObject) : Except String (Option Bytes) :=
  if key.asymmetricKeyType ≠ "ec" then .ok none
  else do
    let jwk ← key.exported
    match nonempty jwk.x, nonempty jwk.y with
    | some x, some y =>
      if jwk.kty ≠ some "EC" ∨ jwk.crv ≠ some "P-256" then return none
      else
        match jwkToRawPoint E { kty := "EC", crv := "P-256", x, y } "certificate key" with
        | .ok point => return some point
        | .error _ => return none
    | _, _ => return none

/-- The readers of App Attest. -/
def appAttestReader : AppAttestReader where
  decodeAttestationObject := decodeToken
  parseNonceExtension := parseNonceExtension
  coseKeyToRawPoint := coseKeyToRawPoint

namespace NodeCrypto

variable (N : NodeCrypto)

/-- `safeCheckIssued`. -/
def safeCheckIssued (child parent : N.Certificate) : Bool :=
  match N.checkIssued child parent with
  | .ok issued => issued
  | .error _ => false

/-- `safeVerify`. -/
def safeVerify (child parent : N.Certificate) : Bool :=
  match N.publicKey parent >>= N.verify child with
  | .ok verified => verified
  | .error _ => false

/-- The engine without the points of keys. -/
def readers : CertificateEngine where
  Certificate := N.Certificate
  parse := N.parse
  raw := N.raw
  validFrom := N.validFrom
  validTo := N.validTo
  ca := N.ca
  checkIssued := N.safeCheckIssued
  verify := N.safeVerify
  rawPoint := fun _ => .ok none
  findCertificateExtension := fun cert oid => throwing (findCertificateExtension (N.raw cert) oid)
  parseCertificateChainInput := parseCertificateChainInput
  parseKeyDescription := fun der => throwing (parseKeyDescription der)
  tryParseAttestationApplicationId := tryParseAttestationApplicationId
  decodeBase64UrlStrict := fun input => decodeBase64UrlStrict input ""
  sha256 := N.sha256

/-- The engine of the verifiers. -/
def engine : CertificateEngine :=
  { N.readers with rawPoint := fun cert => N.publicKey cert >>= keyObjectToRawPoint N.readers }

/-- What the verifiers are configured with. -/
structure Config where
  /-- The Android configuration. -/
  android : AndroidVerifierConfig
  /-- The iOS configuration. -/
  ios : IosVerifierConfig
  /-- How old a token can be. -/
  maxTokenAgeMs : ℤ
  /-- Google's roots. -/
  androidAnchors : List N.Certificate
  /-- Apple's roots. -/
  iosAnchors : List N.Certificate

/-- `createAttestationVerifiers`. -/
def verifiers (C : N.Config) : Verifiers where
  engine := N.engine
  reader := appAttestReader
  android := C.android
  ios := C.ios
  maxTokenAgeMs := C.maxTokenAgeMs
  androidAnchors := C.androidAnchors
  iosAnchors := C.iosAnchors

end NodeCrypto

/-! ## Points -/

/-- A reader whose message is changed reads the same. -/
theorem mapError_eq_ok {ε ε' α : Type} {x : Except ε α} {f : ε → ε'} {a : α} :
    x.mapError f = .ok a ↔ x = .ok a := by
  cases x <;> simp [Except.mapError]

section Points

variable {N : NodeCrypto} {jwk : PublicKeyJwk} {what : String} {point : Bytes}

/-- A coordinate of 32 bytes. -/
theorem coordinate_eq_ok {coordinate : String} {f : String → String} {bs : Bytes} (h : bs.length = 32) :
    (N.engine.decodeBase64UrlStrict coordinate).mapError f = .ok bs ↔ coordinate = toBase64Url bs := by
  have hne : bs ≠ [] := by
    rintro rfl
    exact absurd h (by decide)
  rw [mapError_eq_ok]
  exact decodeBase64UrlStrict_eq_ok.trans ⟨fun hdecoded => hdecoded.2, fun heq => ⟨hne, heq⟩⟩

/-- The point of a key is made of the 32 bytes of each coordinate. -/
theorem jwkToRawPoint_eq_ok : jwkToRawPoint N.engine jwk what = .ok point ↔
    (jwk.kty = "EC" ∧ jwk.crv = "P-256") ∧ ∃ x y : Bytes, (x.length = 32 ∧ y.length = 32) ∧
      (jwk.x = toBase64Url x ∧ jwk.y = toBase64Url y) ∧ point = 0x04 :: (x ++ y) := by
  unfold jwkToRawPoint
  constructor
  · intro h
    split_ifs at h with htype
    obtain ⟨x, hx, h⟩ := except_bind_eq_ok.mp h
    obtain ⟨y, hy, h⟩ := except_bind_eq_ok.mp h
    split_ifs at h with hlength
    rw [not_or, not_not, not_not] at htype hlength
    exact ⟨htype, x, y, hlength, ⟨(coordinate_eq_ok hlength.1).mp hx, (coordinate_eq_ok hlength.2).mp hy⟩,
      (Except.ok.inj h).symm⟩
  · rintro ⟨htype, x, y, hlength, ⟨hx, hy⟩, rfl⟩
    have hother : ¬(jwk.kty ≠ "EC" ∨ jwk.crv ≠ "P-256") := by simp [htype]
    have hshort : ¬(x.length ≠ 32 ∨ y.length ≠ 32) := by simp [hlength]
    rw [if_neg hother]
    refine except_bind_eq_ok.mpr ⟨x, (coordinate_eq_ok hlength.1).mpr hx, ?_⟩
    refine except_bind_eq_ok.mpr ⟨y, (coordinate_eq_ok hlength.2).mpr hy, ?_⟩
    rw [if_neg hshort]

/-- A point has 65 bytes. -/
theorem point_length (h : jwkToRawPoint N.engine jwk what = .ok point) : point.length = 65 := by
  obtain ⟨-, x, y, ⟨hx, hy⟩, -, rfl⟩ := jwkToRawPoint_eq_ok.mp h
  rw [List.length_cons, List.length_append, hx, hy]

/-- The text of a coordinate is not empty. -/
theorem nonempty_toBase64Url {bs : Bytes} (h : bs.length = 32) :
    nonempty (some (toBase64Url bs)) = some (toBase64Url bs) := by
  have hne : toBase64Url bs ≠ "" := by
    intro hempty
    have hlength := utf16Length_toBase64Url bs
    rw [hempty, base64Url.encode_length, h] at hlength
    exact absurd hlength (by decide)
  simp [nonempty, hne]

/-- A key has a point exactly when it is exported as a key on the curve P-256. -/
theorem keyObjectToRawPoint_eq_some {key : KeyObject} :
    keyObjectToRawPoint N.readers key = .ok (some point) ↔ key.asymmetricKeyType = "ec" ∧
      ∃ x y, key.exported = .ok ⟨some "EC", some "P-256", some x, some y⟩ ∧
        jwkToRawPoint N.engine { kty := "EC", crv := "P-256", x, y } "certificate key" = .ok point := by
  unfold keyObjectToRawPoint
  constructor
  · intro h
    split_ifs at h with htype
    · exact absurd (Except.ok.inj h) (by simp)
    · obtain ⟨⟨kty, crv, x?, y?⟩, hexported, h⟩ := except_bind_eq_ok.mp h
      dsimp only at h
      split at h
      · rename_i x y hx hy
        have hx? : x? = some x := (Option.filter_eq_some_iff.mp hx).1
        have hy? : y? = some y := (Option.filter_eq_some_iff.mp hy).1
        split_ifs at h with hcurve
        · exact absurd (Except.ok.inj h) (by simp)
        · rw [not_or, not_not, not_not] at hcurve
          split at h
          · rename_i point' hpoint
            obtain rfl : point' = point := Option.some.inj (Except.ok.inj h)
            rw [hcurve.1, hcurve.2, hx?, hy?] at hexported
            exact ⟨not_not.mp htype, x, y, hexported, hpoint⟩
          · exact absurd (Except.ok.inj h) (by simp)
      · exact absurd (Except.ok.inj h) (by simp)
  · rintro ⟨htype, x, y, hexported, hpoint⟩
    obtain ⟨-, x', y', hlength, ⟨rfl, rfl⟩, -⟩ := jwkToRawPoint_eq_ok.mp hpoint
    have hread : jwkToRawPoint N.readers ⟨"EC", "P-256", toBase64Url x', toBase64Url y'⟩ "certificate key" =
        .ok point := hpoint
    rw [if_neg (not_not.mpr htype)]
    refine except_bind_eq_ok.mpr ⟨_, hexported, ?_⟩
    dsimp only
    rw [nonempty_toBase64Url hlength.1, nonempty_toBase64Url hlength.2]
    simp only [ne_eq, not_true_eq_false, or_self, if_false, hread]
    rfl

end Points

end SdidBridge.Attestation
