import SdidBridge.Attestation.Verifiers
import SdidBridge.Broker.Approval
import SdidBridge.Broker.Freshness

/-!
# Where an assurance level comes from

In strict mode an enrolment gives its binding the cap of the verdict that it accepted, and the verdict is
about the key that is enrolled. So a binding of the second level was enrolled with a genuine app, a sound
device, and a key in hardware, and no binding is of the third. A level is set by the insert and by nothing
else, and a token carries the level of the binding that signed its approval (`assurance_provenance`).
-/

namespace SdidBridge

open Concurrent Machine Prog Attestation

/-! ## The path to an insert -/

/-- The platform's verifier has accepted a key at a level. -/
def AcceptedOn (h : Path) (jwk : PublicKeyJwk) (cap : AssuranceLevel) : Prop :=
  ∃ platform request platform' level genuine evidence,
    (⟨.service (.verifyAttestation platform request), some (.ok platform' level genuine cap evidence)⟩ : Cmd) ∈ h ∧
    request.devicePublicKeyJwk = jwk

/-- What precedes an insert: a verdict on the key, with the level as its cap. -/
def AssuredOnPath (h : Path) : Op → Prop
  | .binding (.insert _ _ jwk _ al _) => AcceptedOn h jwk al
  | _ => True

section Paths

variable {α : Type} {D : Deployment} {h h' : Path}

theorem AcceptedOn.mono {jwk : PublicKeyJwk} {cap : AssuranceLevel} (hs : h <:+ h') (hv : AcceptedOn h jwk cap) :
    AcceptedOn h' jwk cap := by
  obtain ⟨platform, request, platform', level, genuine, evidence, hasked, hjwk⟩ := hv
  exact ⟨platform, request, platform', level, genuine, evidence, hs.mem hasked, hjwk⟩

theorem Op.common_assuredOnPath {o : Op} (ho : o.common = true) (h : Path) : AssuredOnPath h o := by
  unfold AssuredOnPath
  split <;> simp_all [Op.common]

theorem CommonOnly.yields_assured {p : H α} (hp : CommonOnly p) :
    Yields AssuredOnPath h p fun _ h' => h <:+ h' :=
  hp.yields fun _ _ ho => Op.common_assuredOnPath ho _

/-- The strict mode accepts what the platform's verifier accepts, for the key that it was given. -/
theorem yields_verifyStrict (a : AttestationInput) (jwk : PublicKeyJwk) :
    Yields AssuredOnPath h (verifyStrict a jwk) fun verdict h' => AcceptedOn h' jwk verdict.assuranceCap := by
  simp only [verifyStrict, yields_bind, yields_throwIf, yields_orThrow]
  intro _ nonceId _
  rw [yields_recover_throwing]
  refine (common_consumeAttestationNonce nonceId).yields_assured.mono fun nonce h₁ _ => ?_
  simp only [yields_newDate]
  refine ⟨trivial, fun now => ?_⟩
  rw [yields_await_recover]
  refine ⟨trivial, trivial, fun result => ?_⟩
  cases result with
  | rejected code detail => cases code <;> trivial
  | ok platform level genuine cap evidence =>
    exact ⟨a.platform, _, platform, level, genuine, evidence, List.mem_cons_self, rfl⟩

/-- The gates of an enrolment let a device pass with the cap of its verdict. -/
theorem yields_enrolmentGates (hstrict : D.config.ATTESTATION_MODE = .strict) (body : EnrolStartRequest)
    (ip nid : String) : Yields AssuredOnPath h (enrolmentGates D body ip nid)
      fun verdict h' => AcceptedOn h' body.devicePublicKeyJwk verdict.assuranceCap := by
  have hfailures : CommonOnly (assertNotLockedOut ("enrol:nid:" ++ nid) ENROL_MAX_FAILURES) :=
    .bind (common_await (common_enrolCounter rfl)) fun _ => only_throwIf _ _
  simp only [enrolmentGates, yields_bind]
  refine (common_recordEnrolmentAttempt D ip nid).yields_assured.mono fun _ h₁ _ => ?_
  refine (common_hit _ _ _).yields_assured.mono fun _ h₂ _ => ?_
  refine (common_hit _ _ _).yields_assured.mono fun _ h₃ _ => ?_
  refine hfailures.yields_assured.mono fun _ h₄ _ => ?_
  have hverify : Yields AssuredOnPath h₄ (verifyAttestation D body.attestation body.devicePublicKeyJwk)
      fun verdict h' => AcceptedOn h' body.devicePublicKeyJwk verdict.assuranceCap := by
    unfold verifyAttestation
    rw [hstrict]
    exact yields_verifyStrict _ _
  refine (yields_recover hverify fun err h' => ?_).mono fun verdict h₅ hverdict => ?_
  · -- A refused device stops here.
    simp only [yields_bind, yields_auditAppend, yields_throwing]
    refine ⟨trivial, ?_⟩
    have hcount : CommonOnly (countRejection D ip err) := by
      unfold countRejection
      split
      · exact common_recordAttestationRejection _ _ _
      · exact only_pure _
    exact hcount.yields_assured.mono fun _ _ _ => trivial
  · simp only [yields_throwIf, yields_pure]
    exact fun _ => hverdict

/-- The match inserts nothing. -/
theorem assured_matchAgainstReference (body : EnrolStartRequest) (nid : String) :
    Yields AssuredOnPath h (matchAgainstReference body nid) fun _ h' => h <:+ h' := by
  have hcommon : ∀ {β : Type} {p : H β}, CommonOnly p → p.Only fun o => ∀ h', AssuredOnPath h' o :=
    fun hp => hp.mono fun _ ho h' => Op.common_assuredOnPath ho h'
  have honly : (matchAgainstReference body nid).Only fun o => ∀ h', AssuredOnPath h' o := by
    refine .bind (only_perform _ fun _ => trivial) fun answer => ?_
    cases answer with
    | unknownIdentity => exact hcommon (common_failEnrolment _ _ _)
    | unavailable => exact only_throwing _
    | ok reference =>
      exact .bind (hcommon (common_await rfl)) fun _ => .bind (hcommon (common_auditAppend _)) fun _ =>
        .ite (hcommon (common_failEnrolment _ _ _)) (only_pure _)
  refine Only.yields honly (J := fun h' => h <:+ h') (fun h' o hs ho => ?_) List.suffix_rfl
  exact ⟨ho h', fun _ => hs.trans (List.suffix_cons _ _)⟩

theorem yields_start (hstrict : D.config.ATTESTATION_MODE = .strict) (body : EnrolStartRequest) (ip : String) :
    Yields AssuredOnPath [] (start D body ip) fun _ _ => True := by
  simp only [start, yields_bind, yields_throwIf]
  intro _
  refine (yields_enrolmentGates hstrict body ip _).mono fun verdict h₁ hverdict => ?_
  refine (assured_matchAgainstReference body _).mono fun outcome h₂ hs => ?_
  replace hverdict := hverdict.mono hs
  simp only [bindDevice, yields_bind, yields_uuidv7, yields_newDate, yields_await, yields_ite, yields_auditAppend,
    yields_refuse]
  refine ⟨trivial, fun newId => ⟨trivial, fun updatedAt => ⟨trivial, fun citizenId => ⟨trivial, fun count => ?_⟩⟩⟩⟩
  refine ⟨fun _ => ⟨trivial, trivial⟩, fun _ => ⟨trivial, fun bindingId => ?_⟩⟩
  refine ⟨hverdict.mono ⟨[_, _, _, _, _], rfl⟩, fun _ => ⟨trivial, ?_⟩⟩
  simp only [issue, yields_bind, yields_randomBytes, yields_await, yields_newDate, yields_pure]
  simp [AssuredOnPath]

end Paths

/-! ## The level of a binding -/

variable {D : Deployment} {V : Verifiers} {tr l₁ l₂ : Run} {c : State} {s : Store} {t u : ℕ}

/-- The verifiers of a run answer as those of `V`. -/
def VerifiedBy (V : Verifiers) (tr : Run) : Prop :=
  ∀ t platform request result, Did tr t ⟨.service (.verifyAttestation platform request), some result⟩ →
    V.Answers platform request result

/-- The enrolment that created a binding accepted a verdict on its key: a genuine app on a sound device, and a key
in hardware, which is a secure element where that is required. -/
def Assured (V : Verifiers) (tr : Run) (b : DeviceBinding) : Prop :=
  ∃ t body ip attestation label platform request level evidence, Arrived tr t (.enrolStart body ip) ∧
    Did tr t ⟨.service (.verifyAttestation platform request),
      some (.ok platform level true b.assuranceLevel evidence)⟩ ∧
    request.devicePublicKeyJwk = b.devicePubkeyJwk ∧
    Did tr t ⟨.binding (.insert b.id b.citizenId b.devicePubkeyJwk attestation b.assuranceLevel label), some ()⟩ ∧
    V.Accepted platform request level ∧ level ≠ .software ∧
    (V.requiresStrongBox platform = true → level = .strongbox)

theorem VerifiedBy.mono {l l' : Run} (h : VerifiedBy V l') (hl : l ⊆ l') : VerifiedBy V l :=
  fun t platform request result hd => h t platform request result (hd.mono hl)

/-- What precedes an insert in a run. -/
theorem acceptedOn_of_insert (hstrict : D.config.ATTESTATION_MODE = .strict) {id citizenId : Uuid}
    {jwk : PublicKeyJwk} {attestation : JsValue} {al : AssuranceLevel} {label : String} {r : Option Unit}
    (hr : (broker D).Reach
      (l₁ ++ ⟨s, .act t ⟨.binding (.insert id citizenId jwk attestation al label), r⟩⟩ :: l₂) c) :
    (∃ body ip, Arrived l₂ t (.enrolStart body ip)) ∧ AcceptedOn (own t l₂) jwk al := by
  obtain ⟨q, harrived, body, ip, rfl⟩ := hr.act_along (Φ := fun q _ o => q.issues o) (Ψ := fun _ _ _ => True)
    fun q => footprint D q []
  have halong : Along AssuredOnPath (fun _ _ => True) [] ((broker D).handler (.enrolStart body ip)) :=
    Along.mono (yields_start hstrict body ip).reply (fun _ _ hΦ => hΦ) fun _ _ _ => trivial
  exact ⟨⟨body, ip, harrived⟩, hr.act_of_arrived (harrived.mono (older_subset l₁ l₂)) halong⟩

/-- A stored binding was inserted as it still is. -/
theorem inserted_of_binding (hr : (broker D).Reach tr c) : ∀ b ∈ c.store.bindings, ∃ u attestation label,
    Did tr u ⟨.binding (.insert b.id b.citizenId b.devicePubkeyJwk attestation b.assuranceLevel label), some ()⟩ := by
  induction hr with
  | init => simp [broker, Store.empty]
  | @step tr c m ev c' hr hs ih =>
    have hnew : tr ⊆ (⟨c.store, ev⟩ : Step) :: tr := List.subset_cons_self _ _
    have hl := step_leads hs
    intro b' hb'
    rcases (bindings D).row_origin bindings_writes hl hb' with
      ⟨t, a, hev, hinsert⟩ | ⟨b, hb, rfl | ⟨t, a, -, hc⟩⟩
    · obtain ⟨id, citizenId, jwk, attestation, al, label, now, rfl, rfl⟩ := hinsert
      exact ⟨t, attestation, label, _, List.mem_cons_self, hev⟩
    · obtain ⟨u, attestation, label, hd⟩ := ih b' hb
      exact ⟨u, attestation, label, hd.mono hnew⟩
    · obtain ⟨u, attestation, label, hd⟩ := ih b hb
      have hident : b'.identity = b.identity := hc.identity
      simp only [DeviceBinding.identity, Prod.mk.injEq] at hident
      rw [hident.1, hident.2.1, hident.2.2.1, hident.2.2.2]
      exact ⟨u, attestation, label, hd.mono hnew⟩

/-- The verdict behind a stored binding. -/
theorem verdict_of_binding (hstrict : D.config.ATTESTATION_MODE = .strict) (hr : (broker D).Reach tr c)
    (hv : VerifiedBy V tr) {b : DeviceBinding} (hb : b ∈ c.store.bindings) :
    ∃ t body ip attestation label platform request level evidence, Arrived tr t (.enrolStart body ip) ∧
      Did tr t ⟨.service (.verifyAttestation platform request),
        some (.ok platform level true b.assuranceLevel evidence)⟩ ∧
      request.devicePublicKeyJwk = b.devicePubkeyJwk ∧
      Did tr t ⟨.binding (.insert b.id b.citizenId b.devicePubkeyJwk attestation b.assuranceLevel label), some ()⟩ ∧
      V.Accepted platform request level ∧
      b.assuranceLevel = deriveAssuranceCap true level (V.requiresStrongBox platform) := by
  obtain ⟨t, attestation, label, hinserted⟩ := inserted_of_binding hr b hb
  have hins := hinserted
  obtain ⟨l₁, s, l₂, rfl⟩ := hinserted.split
  obtain ⟨⟨body, ip, harrived⟩, platform, request, platform', level, genuine, evidence, hasked, hjwk⟩ :=
    acceptedOn_of_insert hstrict hr
  have hold := older_subset (e := (⟨s, .act t ⟨.binding (.insert b.id b.citizenId b.devicePubkeyJwk attestation
    b.assuranceLevel label), some ()⟩⟩ : Step)) l₁ l₂
  have hdid := (mem_own.mp hasked).mono hold
  obtain ⟨rfl, rfl, hcap, haccepted⟩ := (hv t platform request _ hdid).accepted
  exact ⟨t, body, ip, attestation, label, platform', request, level, evidence,
    harrived.mono hold, hdid, hjwk, hins, haccepted, hcap⟩

/-- No binding is of the third level. -/
theorem assuranceLevel_ne_AL3 (hstrict : D.config.ATTESTATION_MODE = .strict) (hr : (broker D).Reach tr c)
    (hv : VerifiedBy V tr) {b : DeviceBinding} (hb : b ∈ c.store.bindings) : b.assuranceLevel ≠ .AL3 := by
  obtain ⟨-, -, -, -, -, platform, -, level, -, -, -, -, -, -, hcap⟩ := verdict_of_binding hstrict hr hv hb
  rw [hcap]
  exact deriveAssuranceCap_ne_AL3 _ _ _

/-- A binding of the second level was assured at its enrolment. -/
theorem assured_of_AL2 (hstrict : D.config.ATTESTATION_MODE = .strict) (hr : (broker D).Reach tr c)
    (hv : VerifiedBy V tr) {b : DeviceBinding} (hb : b ∈ c.store.bindings) (hal : b.assuranceLevel = .AL2) :
    Assured V tr b := by
  obtain ⟨t, body, ip, attestation, label, platform, request, level, evidence, harrived, hverdict, hjwk, hinserted,
    haccepted, hcap⟩ := verdict_of_binding hstrict hr hv hb
  have hneeds := deriveAssuranceCap_eq_AL2.mp (hcap.symm.trans hal)
  exact ⟨t, body, ip, attestation, label, platform, request, level, evidence, harrived, hverdict, hjwk, hinserted,
    haccepted, hneeds.2⟩

/-! ## The level of a token -/

/-- The grant of `body` is for the transaction `T`. -/
def GrantOf (D : Deployment) (tr : Run) (body : TokenRequest) (T : AuthTransaction) : Prop :=
  body.grant_type = CIBA_GRANT_TYPE ∧ body.auth_req_id = some T.authReqId ∨
  body.grant_type = "authorization_code" ∧ ∃ u row, Arrived tr u (.authorizePoll (some T.authReqId)) ∧
    Did tr u ⟨.code (.insert row), some ()⟩ ∧ body.code.map D.sha256Hex = some row.codeHash

/-- What holds of the levels in a run that led to the store `s`. -/
structure AssuranceProvenance (D : Deployment) (V : Verifiers) (tr : Run) (s : Store) : Prop where
  /-- A binding has the level that it was inserted with. -/
  constant : ∀ t id citizenId jwk attestation al label,
    Did tr t ⟨.binding (.insert id citizenId jwk attestation al label), some ()⟩ →
      ∀ b ∈ s.bindings, b.id = id → b.assuranceLevel = al
  /-- No binding is of the third level. -/
  bounded : ∀ b ∈ s.bindings, b.assuranceLevel ≠ .AL3
  /-- A binding of the second level was assured at its enrolment. -/
  assured : ∀ b ∈ s.bindings, b.assuranceLevel = .AL2 → Assured V tr b
  /-- A token of the second level is granted for a transaction whose approval was signed with the key of an assured
  binding, or is the session of one. -/
  signed : ∀ l₁ s t claims aud ttl r l₂, tr = l₁ ++ ⟨s, .act t ⟨.jwt (.sign claims aud ttl), r⟩⟩ :: l₂ →
    claims.acr = some .AL2 →
      (∃ creds body T b, Arrived l₂ t (.token creds body) ∧ GrantOf D l₂ body T ∧ Backed l₂ s T b ∧
        Assured V l₂ b) ∨
      ∃ b ∈ s.bindings, claims.binding_id = some b.id.text ∧ Assured V l₂ b

/-- What a grant signs at the second level was approved with the key of an assured binding. -/
theorem assured_of_granted (hstrict : D.config.ATTESTATION_MODE = .strict) (hr : (broker D).Reach tr c)
    (hv : VerifiedBy V tr) {body : TokenRequest} {sub : String}
    (hmint : CibaMintOn D (own t tr) body sub .AL2 ∨ CodeMintOn D (own t tr) body sub .AL2) :
    ∃ T b, GrantOf D tr body T ∧ Backed tr c.store T b ∧ Assured V tr b := by
  rcases hmint with hciba | hcode
  · obtain ⟨T, b, hbacked, hreq, hal, -⟩ := backed_of_cibaMint hr hciba
    exact ⟨T, b, .inl ⟨hciba.1, hreq⟩, hbacked, assured_of_AL2 hstrict hr hv hbacked.binding hal.symm⟩
  · obtain ⟨T, b, u, row, hbacked, hpoll, hins, hhash, hal, -⟩ := backed_of_codeMint hr hcode
    exact ⟨T, b, .inr ⟨hcode.1, u, row, hpoll, hins, hhash⟩, hbacked,
      assured_of_AL2 hstrict hr hv hbacked.binding hal.symm⟩

/-- A binding that has been read is there, with the level that was read. -/
theorem assured_of_session (hstrict : D.config.ATTESTATION_MODE = .strict) (hr : (broker D).Reach tr c)
    (hv : VerifiedBy V tr) {k : String} {b : DeviceBinding} (hread : ReadsBinding (own t tr) k b)
    (hal : b.assuranceLevel = .AL2) : ∃ b' ∈ c.store.bindings, b'.id = b.id ∧ Assured V tr b' := by
  obtain ⟨-, b', hb', hident⟩ := binding_of_read hr (mem_own.mp hread)
  simp only [DeviceBinding.identity, Prod.mk.injEq] at hident
  exact ⟨b', hb', hident.1, assured_of_AL2 hstrict hr hv hb' (hident.2.2.2.trans hal)⟩

/-- In strict mode, in every run whose verdicts are those of the verifiers, the levels come from what the verifiers
have checked. -/
theorem assurance_provenance (hstrict : D.config.ATTESTATION_MODE = .strict) (hr : (broker D).Reach tr c)
    (hv : VerifiedBy V tr) : AssuranceProvenance D V tr c.store := by
  constructor
  · rintro t id citizenId jwk attestation al label hd b hb rfl
    obtain ⟨b', hb', hident⟩ := stored_of_inserted hr hd
    simp only [DeviceBinding.identity, Prod.mk.injEq] at hident
    have hsame : b = b' := List.inj_on_of_nodup_map (bindings_nodup hr) hb hb' hident.1.symm
    rw [hsame, hident.2.2.2]
  · exact fun b hb => assuranceLevel_ne_AL3 hstrict hr hv hb
  · exact fun b hb hal => assured_of_AL2 hstrict hr hv hb hal
  · rintro l₁ s t claims aud ttl r l₂ rfl hacr
    obtain ⟨c₀, -, -, hr₀, hb₀, -⟩ := hr.entry
    replace hb₀ : c₀.store = s := hb₀
    subst hb₀
    have hv₀ : VerifiedBy V l₂ := hv.mono (older_subset l₁ l₂)
    obtain ⟨q, harrived, hsigns, -⟩ := onPath hr
    simp only [Follows, SignsOn] at hsigns
    split at hsigns
    · obtain ⟨b, hread, rfl⟩ := hsigns
      simp only [sessionClaims, Option.some.injEq] at hacr
      obtain ⟨b', hb', hid, hassured⟩ := assured_of_session hstrict hr₀ hv₀ hread hacr
      exact .inr ⟨b', hb', by rw [hid]; rfl, hassured⟩
    · rename_i creds body
      obtain ⟨-, -, sub, acr, -, hacr', hmint⟩ := hsigns
      rw [hacr', Option.some.injEq] at hacr
      subst hacr
      obtain ⟨T, b, hgrant, hbacked, hassured⟩ := assured_of_granted hstrict hr₀ hv₀ hmint
      exact .inl ⟨creds, body, T, b, harrived, hgrant, hbacked, hassured⟩
    · rw [hsigns] at hacr
      simp [probeClaims] at hacr
    · exact hsigns.elim

/-! ## A run -/

/-- A deployment in strict mode. -/
def sampleStrict : Deployment :=
  { sampleDeployment with config := { sampleDeployment.config with ATTESTATION_MODE := .strict } }

/-- A key, with the generator of the curve as its point. -/
def sampleJwk : PublicKeyJwk :=
  ⟨"EC", "P-256", "axfR8uEsQkf4vOblY6RA8ncDfYEt6zOg9KE5RdiYwpY", "T-NC4v4af5uO5-tKfA-eFivOM1drMV7Oy7ZAaDe_UfU"⟩

/-- The coordinates of the point. -/
def sampleX : Bytes :=
  [0x6b, 0x17, 0xd1, 0xf2, 0xe1, 0x2c, 0x42, 0x47, 0xf8, 0xbc, 0xe6, 0xe5, 0x63, 0xa4, 0x40, 0xf2,
    0x77, 0x03, 0x7d, 0x81, 0x2d, 0xeb, 0x33, 0xa0, 0xf4, 0xa1, 0x39, 0x45, 0xd8, 0x98, 0xc2, 0x96]

@[inherit_doc sampleX] def sampleY : Bytes :=
  [0x4f, 0xe3, 0x42, 0xe2, 0xfe, 0x1a, 0x7f, 0x9b, 0x8e, 0xe7, 0xeb, 0x4a, 0x7c, 0x0f, 0x9e, 0x16,
    0x2b, 0xce, 0x33, 0x57, 0x6b, 0x31, 0x5e, 0xce, 0xcb, 0xb6, 0x40, 0x68, 0x37, 0xbf, 0x51, 0xf5]

/-- The certificates of one device: a leaf that a pinned root issued, which describes the key as one of a trusted
environment. A certificate is abbreviated to whether it is the root. -/
def sampleEngine : CertificateEngine where
  Certificate := Bool
  parse der := .ok (der == utf8 "root")
  raw root := if root then utf8 "root" else utf8 "leaf"
  validFrom _ := some 0
  validTo _ := some 4102444800000
  ca root := root
  checkIssued _ issuer := issuer
  verify _ issuer := issuer
  rawPoint root := .ok (if root then none else some (0x04 :: (sampleX ++ sampleY)))
  findCertificateExtension root oid :=
    .ok (if root = false ∧ oid = ANDROID_KEY_ATTESTATION_OID then some (utf8 "description") else none)
  parseCertificateChainInput text := if text = "leaf,root" then .ok [utf8 "leaf", utf8 "root"] else .error "malformed"
  parseKeyDescription _ := .ok {
    attestationVersion := 100
    attestationSecurityLevel := SECURITY_LEVEL_TRUSTED_ENVIRONMENT
    keymasterVersion := 100
    keymasterSecurityLevel := SECURITY_LEVEL_TRUSTED_ENVIRONMENT
    attestationChallenge := utf8 (sampleSecret 'N')
    softwareEnforced := { present := false }
    hardwareEnforced := { present := true, origin := some ORIGIN_GENERATED, rootOfTrust := some (true, 0) } }
  tryParseAttestationApplicationId _ := none
  decodeBase64UrlStrict text :=
    if text = sampleJwk.x then .ok sampleX else if text = sampleJwk.y then .ok sampleY
    else .error ": not strict base64url"
  sha256 := id

/-- The verifiers of the deployment. -/
def sampleVerifiers : Verifiers where
  engine := sampleEngine
  reader := ⟨fun _ => .error "malformed", fun _ => .error "malformed", fun _ => .error "malformed"⟩
  android := { packageName := "rw.gov.sdid", certificateDigests := ["digest"] }
  ios := ⟨"TEAM.rw.gov.sdid", true⟩
  maxTokenAgeMs := 300000
  androidAnchors := [true]
  iosAnchors := [true]

/-- What Google's service decodes the token to. -/
def sampleDecoded : JsValue :=
  .obj [("requestDetails", .obj [("requestPackageName", .str "rw.gov.sdid"), ("nonce", .str (sampleSecret 'N')),
      ("timestampMillis", .str "1")]),
    ("appIntegrity", .obj [("appRecognitionVerdict", .str "PLAY_RECOGNIZED"),
      ("certificateSha256Digest", .strs ["digest"])]),
    ("deviceIntegrity", .obj [("deviceRecognitionVerdict", .strs ["MEETS_DEVICE_INTEGRITY"])])]

/-- The answer of the verifier. -/
def sampleVerdict : AttestationResult :=
  sampleVerifiers.verifyAndroid (.ok sampleDecoded)
    ⟨"token", some "leaf,root", sampleSecret 'N', sampleJwk, 0⟩

/-- A nonce is issued, and a device is enrolled with it: calls 0 and 1. -/
def sampleStrictEnrolment : Script :=
  .arrive (.attestationChallenge "10.0.0.1") ::
  Script.go 0 [.unit, .unit, .text (sampleId 'M'), .text (sampleSecret 'N'), .unit, .unit, sampleRowId] ++
  .arrive (.enrolStart {
    nid := "1199080012345678"
    devicePublicKeyJwk := sampleJwk
    attestation := ⟨.android, "token", some "leaf,root", some (sampleId 'M')⟩
    deviceLabel := "phone"
    sample := ⟨.face, "face"⟩ } "10.0.0.1") ::
  Script.go 1 [.unit, .unit, .unit, .unit, .unit, .unit, .unit, .attestation sampleVerdict,
    .reference (.ok ⟨"face", "sdid-subject", "ref"⟩), .matched ⟨true, .high, true⟩,
    sampleRowId, .uuid (sampleUuid 1), .unit, .unit, .unit, .uuid (sampleUuid 2), .unit,
    sampleRowId, .text (sampleId 'A'), .text (sampleSecret 'B'), .unit, .unit]

/-- The choices of a script that starts one call later. -/
def Script.later : Script → Script :=
  List.map fun
    | .go t i => .go (t + 1) i
    | .fail t => .fail (t + 1)
    | m => m

/-- The device is enrolled in strict mode, and a relying party is given its tokens. -/
def sampleStrictGrant : Script :=
  sampleStrictEnrolment ++
    Script.later (sampleGrant.drop (sampleEnrolment 0 [.unit, .unit, .unit, .unit, .unit] 2 'A' 'B').length)

/-- Whether the verdict of an entry is that of the verifiers. -/
def verdictAgrees (e : Step) : Bool :=
  match e.event with
  | .act _ ⟨.service (.verifyAttestation platform request), some result⟩ =>
    decide (platform = .android ∧ result = sampleVerifiers.verifyAndroid (.ok sampleDecoded) request)
  | _ => true

theorem verifiedBy_of_all (h : tr.all verdictAgrees = true) : VerifiedBy sampleVerifiers tr := by
  rintro t platform request result ⟨e, he, hev⟩
  have hagrees := List.all_eq_true.mp h e he
  simp only [verdictAgrees, hev, decide_eq_true_eq] at hagrees
  obtain ⟨rfl, hresult⟩ := hagrees
  exact ⟨.ok sampleDecoded, hresult⟩

/-- Whether an entry of call `t` signs a token of the second level. -/
def signsAL2 (t : ℕ) (e : Step) : Bool :=
  match e.event with
  | .act t' ⟨.jwt (.sign claims _ _), _⟩ => t' == t && claims.acr == some .AL2
  | _ => false

/-- The grant of the run signs at the second level, for a binding that was assured. -/
theorem assurance_provenance_sampleStrictGrant : ∃ tr c, (broker sampleStrict).Reach tr c ∧
    VerifiedBy sampleVerifiers tr ∧ (∃ e ∈ tr, signsAL2 10 e = true) ∧
    AssuranceProvenance sampleStrict sampleVerifiers tr c.store := by
  obtain ⟨tr, c, hr, hrun⟩ := (broker sampleStrict).exists_of_play sampleStrictGrant.reverse
    (p := fun run => run.1.all verdictAgrees && run.1.any (signsAL2 10)) (by decide +kernel)
  rw [Bool.and_eq_true, List.any_eq_true] at hrun
  have hv := verifiedBy_of_all hrun.1
  exact ⟨tr, c, hr, hv, hrun.2, assurance_provenance rfl hr hv⟩

end SdidBridge
