import SdidBridge.Attestation.Containers
import SdidBridge.Attestation.Node

/-!
# Attested keys

What an accepted key attestation of Android rests on (`evidence_of_verify`), and which security level it reports.
The readers are specified first: `ListIn`, `DescriptionIn` and `ExtensionIn` say in the nodes of the input what an
authorization list, a key description and an extension are, so that an entry that is read as missing is missing in
the bytes.
-/

namespace SdidBridge.Attestation

/-! ## What the readers find -/

/-- The accessor reads the value. -/
def ReadBy {α : Type} (accessor : DerNode → String → Except DerError α) (node : DerNode) (a : α) : Prop :=
  ∃ what, accessor node what = .ok a

/-- The node is a constructed one of its universal tag. -/
def IsConstructed (tagNumber : ℕ) (node : DerNode) : Prop :=
  (node.tagClass = .universal ∧ node.tagNumber = tagNumber) ∧ node.constructed = true

/-- What a list has under a tag: no child has the tag, or one child has it and wraps one node, which is read. -/
inductive Tagged {α : Type} (children : List DerNode) (tagNumber : ℕ) (Reads : DerNode → α → Prop) : Option α → Prop
  | absent (h : ∀ child ∈ children, isContext tagNumber child = false) : Tagged children tagNumber Reads none
  | present {child inner : DerNode} {a : α} (honly : children.filter (isContext tagNumber) = [child])
      (hform : child.constructed = true) (hinner : child.children = [inner]) (hread : Reads inner a) :
      Tagged children tagNumber Reads (some a)

/-- The second and the third field of a sequence say whether the bootloader is locked, and how the boot went. -/
def RootOfTrustIn (node : DerNode) (root : Bool × ℤ) : Prop :=
  IsConstructed DER_SEQUENCE node ∧ ∃ key locked state rest, node.children = key :: locked :: state :: rest ∧
    ReadBy derBoolean locked root.1 ∧ ReadBy derEnumerated state root.2

/-- The node is a sequence with the entries of the list. -/
structure ListIn (node : DerNode) (list : AndroidAuthorizationList) : Prop where
  /-- It is a sequence. -/
  sequence : IsConstructed DER_SEQUENCE node
  /-- Whether it has an entry. -/
  present : list.present = true ↔ node.children ≠ []
  /-- The origin of the key. -/
  origin : Tagged node.children TAG_ORIGIN (ReadBy derSmallInteger) list.origin
  /-- The root of trust. -/
  rootOfTrust : Tagged node.children TAG_ROOT_OF_TRUST RootOfTrustIn list.rootOfTrust
  /-- The application. -/
  attestationApplicationId : Tagged node.children TAG_ATTESTATION_APPLICATION_ID (ReadBy derOctetString)
    list.attestationApplicationId

/-- The bytes are a sequence of eight fields or more, with those of the description at their places. -/
def DescriptionIn (extension : Bytes) (description : KeyDescription) : Prop :=
  ∃ root version level keymaster keymasterLevel challenge uniqueId software hardware rest,
    parseDerBytes extension = .ok root ∧ IsConstructed DER_SEQUENCE root ∧
    root.children = version :: level :: keymaster :: keymasterLevel :: challenge :: uniqueId :: software ::
      hardware :: rest ∧
    ReadBy derEnumerated level description.attestationSecurityLevel ∧
    ReadBy derEnumerated keymasterLevel description.keymasterSecurityLevel ∧
    ReadBy derOctetString challenge description.attestationChallenge ∧
    ListIn software description.softwareEnforced ∧ ListIn hardware description.hardwareEnforced

/-- The node is an extension of a name with a value. -/
def IsExtension (oid : String) (value : Bytes) (extension : DerNode) : Prop :=
  IsConstructed DER_SEQUENCE extension ∧
    (∃ id ∈ extension.children.head?, ReadBy derOid id oid) ∧
    ∃ octets ∈ extension.children.getLast?,
      (octets.tagClass = .universal ∧ octets.tagNumber = DER_OCTET_STRING) ∧ octets.content = value

/-- The certificate has the extension in the only list of extensions of its first field. -/
def ExtensionIn (raw : Bytes) (oid : String) (value : Bytes) : Prop :=
  ∃ certificate tbs rest tag list extension, parseDerBytes raw = .ok certificate ∧
    IsConstructed DER_SEQUENCE certificate ∧ certificate.children = tbs :: rest ∧ IsConstructed DER_SEQUENCE tbs ∧
    tbs.children.filter (isContext 3) = [tag] ∧ tag.constructed = true ∧ tag.children = [list] ∧
    IsConstructed DER_SEQUENCE list ∧ extension ∈ list.children ∧ IsExtension oid value extension

section Readers

variable {node : DerNode} {what : String}

theorem derSequence_eq_ok {children : List DerNode} :
    derSequence node what = .ok children ↔ IsConstructed DER_SEQUENCE node ∧ node.children = children := by
  unfold derSequence IsConstructed
  rw [derExpect_bind_eq_ok, derCheck_bind_eq_ok, except_pure_eq_ok, ← and_assoc, eq_comm (a := children)]

theorem derExplicit_eq_ok {inner : DerNode} : derExplicit node what = .ok inner ↔
    (node.tagClass = .context ∧ node.constructed = true) ∧ node.children = [inner] := by
  unfold derExplicit
  rw [derCheck_bind_eq_ok]
  split
  · rename_i child hchild
    rw [except_pure_eq_ok, hchild, List.singleton_inj, eq_comm (a := inner)]
  · rename_i hmany
    simp only [throw, throwThe, MonadExceptOf.throw, reduceCtorEq, and_false, false_iff, not_and]
    exact fun _ hone => hmany inner hone

theorem derFindContext_eq_ok {children : List DerNode} {tagNumber : ℕ} {found : Option DerNode} :
    derFindContext children tagNumber = .ok found ↔ children.filter (isContext tagNumber) = found.toList := by
  unfold derFindContext
  split
  · rename_i hnone
    rw [except_pure_eq_ok, hnone]
    cases found <;> simp
  · rename_i child hone
    rw [except_pure_eq_ok, hone]
    cases found <;> simp [eq_comm]
  · rename_i hzero hmany
    simp only [throw, throwThe, MonadExceptOf.throw, reduceCtorEq, false_iff]
    intro h
    cases found with
    | none => exact hzero h
    | some child => exact hmany child h

/-- An entry is read exactly as it stands under its tag. -/
theorem readTagged_eq_ok {α : Type} {children : List DerNode} {tagNumber : ℕ}
    {read : DerNode → Except DerError α} {found : Option α} :
    readTagged children tagNumber what read = .ok found ↔
      Tagged children tagNumber (fun inner a => read inner = .ok a) found := by
  unfold readTagged
  constructor
  · intro h
    obtain ⟨tag, htag, h⟩ := except_bind_eq_ok.mp h
    rw [derFindContext_eq_ok] at htag
    cases tag with
    | none =>
      obtain rfl := except_pure_eq_ok.mp h
      exact .absent fun child hchild => by simpa using List.filter_eq_nil_iff.mp htag child hchild
    | some tag =>
      obtain ⟨inner, hinner, h⟩ := except_bind_eq_ok.mp h
      obtain ⟨a, ha, h⟩ := except_bind_eq_ok.mp h
      obtain rfl := except_pure_eq_ok.mp h
      obtain ⟨⟨-, hform⟩, hchildren⟩ := derExplicit_eq_ok.mp hinner
      exact .present htag hform hchildren ha
  · intro h
    cases h with
    | absent hnone =>
      have hempty : children.filter (isContext tagNumber) = [] :=
        List.filter_eq_nil_iff.mpr fun child hchild => by simp [hnone child hchild]
      exact except_bind_eq_ok.mpr ⟨none, derFindContext_eq_ok.mpr hempty, rfl⟩
    | present honly hform hinner hread =>
      rename_i child inner a
      have hcontext : isContext tagNumber child = true :=
        (List.mem_filter.mp (honly ▸ List.mem_singleton_self child)).2
      have hclass : child.tagClass = .context := (of_decide_eq_true hcontext).1
      refine except_bind_eq_ok.mpr ⟨some child, derFindContext_eq_ok.mpr honly, ?_⟩
      refine except_bind_eq_ok.mpr ⟨inner, derExplicit_eq_ok.mpr ⟨⟨hclass, hform⟩, hinner⟩, ?_⟩
      exact except_bind_eq_ok.mpr ⟨a, hread, rfl⟩

theorem Tagged.mono {α : Type} {children : List DerNode} {tagNumber : ℕ} {P Q : DerNode → α → Prop}
    {found : Option α} (h : Tagged children tagNumber P found) (himp : ∀ inner a, P inner a → Q inner a) :
    Tagged children tagNumber Q found := by
  cases h with
  | absent hnone => exact .absent hnone
  | present honly hform hinner hread => exact .present honly hform hinner (himp _ _ hread)

theorem rootOfTrustIn_of_read {root : Bool × ℤ} (h : readRootOfTrust what node = .ok root) :
    RootOfTrustIn node root := by
  unfold readRootOfTrust at h
  obtain ⟨rot, hrot, h⟩ := except_bind_eq_ok.mp h
  obtain ⟨hsequence, rfl⟩ := derSequence_eq_ok.mp hrot
  split at h
  · rename_i key locked state rest hfields
    obtain ⟨deviceLocked, hlocked, h⟩ := except_bind_eq_ok.mp h
    obtain ⟨bootState, hstate, h⟩ := except_bind_eq_ok.mp h
    obtain rfl := except_pure_eq_ok.mp h
    exact ⟨hsequence, key, locked, state, rest, hfields, ⟨_, hlocked⟩, ⟨_, hstate⟩⟩
  · simp [throw, throwThe, MonadExceptOf.throw] at h

theorem listIn_of_parse {list : AndroidAuthorizationList} (h : parseAuthorizationList node what = .ok list) :
    ListIn node list := by
  unfold parseAuthorizationList at h
  obtain ⟨children, hchildren, h⟩ := except_bind_eq_ok.mp h
  obtain ⟨purposes, -, h⟩ := except_bind_eq_ok.mp h
  obtain ⟨origin, horigin, h⟩ := except_bind_eq_ok.mp h
  obtain ⟨marker, -, h⟩ := except_bind_eq_ok.mp h
  obtain ⟨rootOfTrust, hroot, h⟩ := except_bind_eq_ok.mp h
  obtain ⟨applicationId, happlication, h⟩ := except_bind_eq_ok.mp h
  obtain ⟨osVersion, -, h⟩ := except_bind_eq_ok.mp h
  obtain ⟨osPatchLevel, -, h⟩ := except_bind_eq_ok.mp h
  obtain rfl := except_pure_eq_ok.mp h
  obtain ⟨hsequence, rfl⟩ := derSequence_eq_ok.mp hchildren
  exact {
    sequence := hsequence
    present := decide_eq_true_iff
    origin := (readTagged_eq_ok.mp horigin).mono fun _ _ hread => ⟨_, hread⟩
    rootOfTrust := (readTagged_eq_ok.mp hroot).mono fun _ _ hread => rootOfTrustIn_of_read hread
    attestationApplicationId := (readTagged_eq_ok.mp happlication).mono fun _ _ hread => ⟨_, hread⟩ }

theorem descriptionIn_of_parse {extension : Bytes} {description : KeyDescription}
    (h : parseKeyDescription extension = .ok description) : DescriptionIn extension description := by
  unfold parseKeyDescription at h
  obtain ⟨root, hroot, h⟩ := except_bind_eq_ok.mp h
  obtain ⟨fields, hfields, h⟩ := except_bind_eq_ok.mp h
  obtain ⟨hsequence, rfl⟩ := derSequence_eq_ok.mp hfields
  unfold readKeyDescription at h
  split at h
  · rename_i version level keymaster keymasterLevel challenge uniqueId software hardware rest height
    obtain ⟨attestationVersion, -, h⟩ := except_bind_eq_ok.mp h
    obtain ⟨attestationLevel, hlevel, h⟩ := except_bind_eq_ok.mp h
    obtain ⟨keymasterVersion, -, h⟩ := except_bind_eq_ok.mp h
    obtain ⟨keymasterLevel', hkeymaster, h⟩ := except_bind_eq_ok.mp h
    obtain ⟨attestationChallenge, hchallenge, h⟩ := except_bind_eq_ok.mp h
    obtain ⟨softwareEnforced, hsoftware, h⟩ := except_bind_eq_ok.mp h
    obtain ⟨hardwareEnforced, hhardware, h⟩ := except_bind_eq_ok.mp h
    obtain rfl := except_pure_eq_ok.mp h
    exact ⟨root, version, level, keymaster, keymasterLevel, challenge, uniqueId, software, hardware, rest, hroot,
      hsequence, height, ⟨_, hlevel⟩, ⟨_, hkeymaster⟩, ⟨_, hchallenge⟩, listIn_of_parse hsoftware,
      listIn_of_parse hhardware⟩
  · simp [throw, throwThe, MonadExceptOf.throw] at h

/-- The loop over the extensions ends at one of the name. -/
theorem isExtension_of_find {oid : String} {extensions : List DerNode} {value : Bytes}
    (h : findExtension oid extensions = .ok (some value)) : ∃ extension ∈ extensions, IsExtension oid value extension := by
  induction extensions with
  | nil => simp [findExtension, pure, Except.pure] at h
  | cons extension rest ih =>
    rw [findExtension] at h
    obtain ⟨parts, hparts, h⟩ := except_bind_eq_ok.mp h
    obtain ⟨hsequence, rfl⟩ := derSequence_eq_ok.mp hparts
    split at h
    · -- An extension without a name is passed over.
      obtain ⟨found, hfound, hextension⟩ := ih h
      exact ⟨found, List.mem_cons_of_mem _ hfound, hextension⟩
    · rename_i id parts hchildren
      obtain ⟨name, hname, h⟩ := except_bind_eq_ok.mp h
      dsimp only at h
      split_ifs at h with hother hoctets
      · obtain ⟨found, hfound, hextension⟩ := ih h
        exact ⟨found, List.mem_cons_of_mem _ hfound, hextension⟩
      · have hvalue : (parts.getLastD id).content = value := by
          simpa [pure, Except.pure] using h
        have hlast : parts.getLastD id ∈ extension.children.getLast? := by
          rw [hchildren, List.getLast?_cons]
          simp
        refine ⟨extension, List.mem_cons_self, hsequence, ⟨id, by rw [hchildren]; rfl, ?_⟩,
          parts.getLastD id, hlast, hoctets, hvalue⟩
        exact ⟨_, not_not.mp hother ▸ hname⟩
      · simp [pure, Except.pure] at h

theorem extensionIn_of_find {raw : Bytes} {oid : String} {value : Bytes}
    (h : findCertificateExtension raw oid = .ok (some value)) : ExtensionIn raw oid value := by
  unfold findCertificateExtension at h
  obtain ⟨root, hroot, h⟩ := except_bind_eq_ok.mp h
  obtain ⟨certificate, hcertificate, h⟩ := except_bind_eq_ok.mp h
  obtain ⟨hsequence, rfl⟩ := derSequence_eq_ok.mp hcertificate
  split at h
  · simp [pure, Except.pure] at h
  · rename_i tbs rest hfields
    obtain ⟨tbsChildren, htbs, h⟩ := except_bind_eq_ok.mp h
    obtain ⟨htbsSequence, rfl⟩ := derSequence_eq_ok.mp htbs
    obtain ⟨tag, htag, h⟩ := except_bind_eq_ok.mp h
    rw [derFindContext_eq_ok] at htag
    cases tag with
    | none => simp [pure, Except.pure] at h
    | some tag =>
      obtain ⟨inner, hinner, h⟩ := except_bind_eq_ok.mp h
      obtain ⟨extensions, hextensions, h⟩ := except_bind_eq_ok.mp h
      obtain ⟨⟨-, hform⟩, hwrapped⟩ := derExplicit_eq_ok.mp hinner
      obtain ⟨hlist, rfl⟩ := derSequence_eq_ok.mp hextensions
      obtain ⟨extension, hmem, hextension⟩ := isExtension_of_find h
      exact ⟨root, tbs, rest, tag, inner, extension, hroot, hsequence, hfields, htbsSequence, htag, hform, hwrapped,
        hlist, hmem, hextension⟩

end Readers

/-! ## What an acceptance rests on -/

/-- What an accepted key attestation is made of, and what its parts say. -/
structure KeyEvidence (N : NodeCrypto) (input : AndroidKeyAttestationInput N.engine) (chain : List N.Certificate)
    (leaf : N.Certificate) (description : KeyDescription) (point : Bytes) : Prop where
  /-- The chain is what the client sent, leaf first. -/
  sent : ∃ ders, parseCertificateChainInput input.keyAttestation = .ok ders ∧
    List.Forall₂ (fun der cert => N.parse der = .ok cert) ders chain
  /-- It is a certification path to one of the anchors. -/
  path : ChainHolds N.engine chain input.trustAnchors input.now
  /-- The leaf is its first certificate. -/
  first : chain.head? = some leaf
  /-- The leaf carries the description. -/
  described : ∃ extension, ExtensionIn (N.raw leaf) ANDROID_KEY_ATTESTATION_OID extension ∧
    parseKeyDescription extension = .ok description ∧ DescriptionIn extension description
  /-- The challenge is the issued nonce. -/
  challenge : description.attestationChallenge = utf8 input.expectedNonce
  /-- The point is that of the enrolled key. -/
  enrolled : jwkToRawPoint N.engine input.devicePublicKeyJwk "devicePublicKeyJwk" = .ok point
  /-- And it is that of the leaf's key. -/
  certified : ∃ key, N.publicKey leaf = .ok key ∧ keyObjectToRawPoint N.readers key = .ok (some point)
  /-- A root of trust, of the hardware before that of the software, is of a locked bootloader and a verified boot. -/
  boot : ∀ root ∈ description.hardwareEnforced.rootOfTrust.or description.softwareEnforced.rootOfTrust,
    root.1 = true ∧ root.2 = VERIFIED_BOOT_VERIFIED
  /-- An application that parses names our package, if it names any, and one of our digests, if it names any and
  some are configured. -/
  application : ∀ appId ∈ (description.softwareEnforced.attestationApplicationId.or
      description.hardwareEnforced.attestationApplicationId).bind tryParseAttestationApplicationId,
    (appId.packageNames ≠ [] → input.packageName ∈ appId.packageNames) ∧
    (appId.signatureDigests ≠ [] → input.certificateDigests ≠ [] →
      ∃ digest ∈ appId.signatureDigests, digest ∈ input.certificateDigests)

section Evidence

variable {N : NodeCrypto} {input : AndroidKeyAttestationInput N.engine} {description : KeyDescription}

theorem mapM_eq_ok {α β : Type} {f : α → Except String β} {xs : List α} {ys : List β} :
    xs.mapM f = .ok ys ↔ List.Forall₂ (fun x y => f x = .ok y) xs ys := by
  induction xs generalizing ys with
  | nil =>
    rw [List.mapM_nil, except_pure_eq_ok, List.forall₂_nil_left_iff]
  | cons x xs ih =>
    rw [List.mapM_cons]
    constructor
    · intro h
      obtain ⟨y, hy, h⟩ := except_bind_eq_ok.mp h
      obtain ⟨ys', hys, h⟩ := except_bind_eq_ok.mp h
      obtain rfl := except_pure_eq_ok.mp h
      exact .cons hy (ih.mp hys)
    · intro h
      cases h with
      | cons hy hys =>
        exact except_bind_eq_ok.mpr ⟨_, hy, except_bind_eq_ok.mpr ⟨_, ih.mpr hys, rfl⟩⟩

/-- A root of trust that passes is locked and verified. -/
theorem checkRootOfTrust_eq_ok {root : Option (Bool × ℤ)} :
    checkRootOfTrust root = .ok () ↔ ∀ r ∈ root, r.1 = true ∧ r.2 = VERIFIED_BOOT_VERIFIED := by
  cases root with
  | none => simp [checkRootOfTrust, pure, Except.pure]
  | some r => simp [checkRootOfTrust]

/-- An application that passes is ours as far as it says. -/
theorem checkApplicationId_eq_ok : checkApplicationId N.engine input description = .ok () ↔
    ∀ appId ∈ (description.softwareEnforced.attestationApplicationId.or
        description.hardwareEnforced.attestationApplicationId).bind tryParseAttestationApplicationId,
      (appId.packageNames ≠ [] → input.packageName ∈ appId.packageNames) ∧
      (appId.signatureDigests ≠ [] → input.certificateDigests ≠ [] →
        ∃ digest ∈ appId.signatureDigests, digest ∈ input.certificateDigests) := by
  have hreader : N.engine.tryParseAttestationApplicationId = tryParseAttestationApplicationId := rfl
  unfold checkApplicationId
  dsimp only
  rw [hreader]
  generalize (description.softwareEnforced.attestationApplicationId.or
    description.hardwareEnforced.attestationApplicationId).bind tryParseAttestationApplicationId = parsed
  cases parsed with
  | none => simp [pure, Except.pure]
  | some appId => simp

/-- The description that the leaf of the chain carries. -/
def Describes (N : NodeCrypto) (input : AndroidKeyAttestationInput N.engine) (description : KeyDescription) : Prop :=
  ∃ ders chain leaf extension, parseCertificateChainInput input.keyAttestation = .ok ders ∧
    ders.mapM N.parse = .ok chain ∧ chain.head? = some leaf ∧
    findCertificateExtension (N.raw leaf) ANDROID_KEY_ATTESTATION_OID = .ok (some extension) ∧
    parseKeyDescription extension = .ok description

/-- A chain carries one description. -/
theorem Describes.unique {description' : KeyDescription} (h : Describes N input description)
    (h' : Describes N input description') : description = description' := by
  obtain ⟨ders, chain, leaf, extension, hders, hchain, hleaf, hfound, hparsed⟩ := h
  obtain ⟨ders', chain', leaf', extension', hders', hchain', hleaf', hfound', hparsed'⟩ := h'
  obtain rfl := Except.ok.inj (hders.symm.trans hders')
  obtain rfl := Except.ok.inj (hchain.symm.trans hchain')
  obtain rfl := Option.some.inj (hleaf.symm.trans hleaf')
  obtain rfl := Option.some.inj (Except.ok.inj (hfound.symm.trans hfound'))
  exact Except.ok.inj (hparsed.symm.trans hparsed')

/-- What the checks of an accepted key attestation found. -/
theorem passed_of_verify {level : KeySecurityLevel} {evidence : List (String × JsValue)}
    (h : verifyAndroidKeyAttestation N.engine input = .ok (level, evidence)) :
    ∃ chain leaf description point, KeyEvidence N input chain leaf description point ∧
      Describes N input description ∧ level = (describedLevel description).1 := by
  simp only [verifyAndroidKeyAttestation, bind_eq_ok, decoding_eq_ok, faulting_eq_ok, orReject_eq_ok,
    rejectIf_eq_ok, Bool.not_eq_false] at h
  obtain ⟨chain, hsent, detail, hpath, leaf, hleaf, found, hfound, extension, rfl, description, hdescription, -,
    hnonce, point, henrolled, attested?, hattested, attested, rfl, -, hsame, u, hboot, u', happlication, hresult⟩ := h
  obtain ⟨ders, hders, hchain⟩ := except_bind_eq_ok.mp hsent
  obtain ⟨key, hkey, hpoint⟩ := except_bind_eq_ok.mp hattested
  obtain rfl : attested = point := eq_of_bytesEqual hsame
  have hextension : findCertificateExtension (N.raw leaf) ANDROID_KEY_ATTESTATION_OID = .ok (some extension) :=
    mapError_eq_ok.mp hfound
  have hparsed : parseKeyDescription extension = .ok description := mapError_eq_ok.mp hdescription
  have hhead : chain.head? = some leaf := head_of_elim hleaf
  have hlevel : (describedLevel description).1 = level := by
    simp only [pure, Except.pure, Except.ok.injEq, Prod.mk.injEq] at hresult
    exact hresult.1
  refine ⟨chain, leaf, description, attested, ?_, ⟨ders, chain, leaf, extension, hders, hchain, hhead, hextension,
    hparsed⟩, hlevel.symm⟩
  exact {
    sent := ⟨ders, hders, mapM_eq_ok.mp hchain⟩
    path := (verifyCertificateChain_ok_iff _ _ _).mp ⟨detail, hpath⟩
    first := hhead
    described := ⟨extension, extensionIn_of_find hextension, hparsed, descriptionIn_of_parse hparsed⟩
    challenge := eq_of_bytesEqual hnonce
    enrolled := henrolled
    certified := ⟨key, hkey, hpoint⟩
    boot := checkRootOfTrust_eq_ok.mp hboot
    application := checkApplicationId_eq_ok.mp happlication }

/-- What equals a text that is not empty is found equal to it. -/
theorem bytesEqual_self {bs : Bytes} (h : bs ≠ []) : bytesEqual bs bs = true := by
  have hlength : bs.length ≠ 0 := fun hzero => h (List.length_eq_zero_iff.mp hzero)
  unfold bytesEqual
  simp [hlength]

theorem utf8_ne_nil {s : String} (h : s ≠ "") : utf8 s ≠ [] := fun hnil => h (utf8_injective hnil)

/-- A key attestation that has all of it is accepted. -/
theorem verify_of_evidence {chain : List N.Certificate} {leaf : N.Certificate} {point : Bytes}
    (h : KeyEvidence N input chain leaf description point)
    (hextension : ∃ extension, findCertificateExtension (N.raw leaf) ANDROID_KEY_ATTESTATION_OID =
      .ok (some extension) ∧ parseKeyDescription extension = .ok description)
    (hnonce : input.expectedNonce ≠ "") :
    ∃ evidence, verifyAndroidKeyAttestation N.engine input = .ok ((describedLevel description).1, evidence) := by
  obtain ⟨ders, hders, hchain⟩ := h.sent
  obtain ⟨detail, hpath⟩ := (verifyCertificateChain_ok_iff _ _ _).mpr h.path
  obtain ⟨extension, hfound, hparsed⟩ := hextension
  obtain ⟨key, hkey, hpoint⟩ := h.certified
  have hsent : (N.engine.parseCertificateChainInput input.keyAttestation >>= List.mapM N.engine.parse) = .ok chain :=
    except_bind_eq_ok.mpr ⟨ders, hders, mapM_eq_ok.mpr hchain⟩
  have hleaf : chain.head?.elim (.error "no leaf") Except.ok = .ok leaf := by rw [h.first]; rfl
  have hchallenge : bytesEqual description.attestationChallenge (utf8 input.expectedNonce) = true := by
    rw [h.challenge]
    exact bytesEqual_self (utf8_ne_nil hnonce)
  have hattested : N.engine.rawPoint leaf = .ok (some point) := except_bind_eq_ok.mpr ⟨key, hkey, hpoint⟩
  have hsame : bytesEqual point point = true := by
    refine bytesEqual_self fun hnil => ?_
    have hlength := point_length h.enrolled
    rw [hnil] at hlength
    exact absurd hlength (by decide)
  simp only [verifyAndroidKeyAttestation, bind_eq_ok, decoding_eq_ok, faulting_eq_ok, orReject_eq_ok,
    rejectIf_eq_ok, Bool.not_eq_false]
  exact ⟨_, chain, hsent, detail, hpath, leaf, hleaf, some extension, mapError_eq_ok.mpr hfound, extension, rfl,
    description, mapError_eq_ok.mpr hparsed, (), hchallenge, point, h.enrolled, some point, hattested, point, rfl,
    (), hsame, (), checkRootOfTrust_eq_ok.mpr h.boot, (), checkApplicationId_eq_ok.mpr h.application, rfl⟩

end Evidence

/-! ## A sample -/

/-- A certificate authority, as DER. -/
def sampleRootDer : Bytes :=
  [0x30, 0x82, 0x01, 0x19, 0x30, 0x81, 0xc0, 0xa0, 0x03, 0x02, 0x01, 0x02, 0x02, 0x01, 0x01, 0x30, 0x0a, 0x06,
    0x08, 0x2a, 0x86, 0x48, 0xce, 0x3d, 0x04, 0x03, 0x02, 0x30, 0x0c, 0x31, 0x0a, 0x30, 0x08, 0x06, 0x03, 0x55,
    0x04, 0x03, 0x0c, 0x01, 0x52, 0x30, 0x1e, 0x17, 0x0d, 0x32, 0x36, 0x31, 0x31, 0x31, 0x38, 0x31, 0x39, 0x31,
    0x35, 0x30, 0x34, 0x5a, 0x17, 0x0d, 0x33, 0x36, 0x31, 0x31, 0x31, 0x35, 0x31, 0x39, 0x31, 0x35, 0x30, 0x34,
    0x5a, 0x30, 0x0c, 0x31, 0x0a, 0x30, 0x08, 0x06, 0x03, 0x55, 0x04, 0x03, 0x0c, 0x01, 0x52, 0x30, 0x59, 0x30,
    0x13, 0x06, 0x07, 0x2a, 0x86, 0x48, 0xce, 0x3d, 0x02, 0x01, 0x06, 0x08, 0x2a, 0x86, 0x48, 0xce, 0x3d, 0x03,
    0x01, 0x07, 0x03, 0x42, 0x00, 0x04, 0x42, 0x2c, 0x8a, 0xff, 0x35, 0x1a, 0x87, 0x4c, 0xe1, 0x94, 0xc6, 0xaa,
    0x5f, 0x21, 0xc6, 0x1d, 0xd7, 0x73, 0x84, 0xa8, 0x64, 0x7c, 0x6a, 0xc1, 0xc7, 0xe5, 0xda, 0x36, 0xe8, 0x4e,
    0x8e, 0x6b, 0x5a, 0x3e, 0xe0, 0xcd, 0x59, 0x4e, 0x12, 0x9f, 0xc3, 0xb0, 0xf9, 0x07, 0x1c, 0x1d, 0x6a, 0x49,
    0x2c, 0x79, 0xc6, 0x67, 0xa9, 0xc3, 0x0a, 0x65, 0xb8, 0x36, 0x44, 0x97, 0x8b, 0xbf, 0x30, 0x4a, 0xa3, 0x13,
    0x30, 0x11, 0x30, 0x0f, 0x06, 0x03, 0x55, 0x1d, 0x13, 0x01, 0x01, 0xff, 0x04, 0x05, 0x30, 0x03, 0x01, 0x01,
    0xff, 0x30, 0x0a, 0x06, 0x08, 0x2a, 0x86, 0x48, 0xce, 0x3d, 0x04, 0x03, 0x02, 0x03, 0x48, 0x00, 0x30, 0x45,
    0x02, 0x21, 0x00, 0xf5, 0xe5, 0x7b, 0x6b, 0xbe, 0x14, 0x3c, 0x1d, 0x2d, 0x29, 0x4c, 0x41, 0xf1, 0x11, 0xf1,
    0x89, 0x3f, 0x48, 0x4f, 0x6f, 0x42, 0x9f, 0x4b, 0x97, 0xcb, 0xba, 0xc6, 0xe8, 0x15, 0x72, 0xac, 0x7e, 0x02,
    0x20, 0x3a, 0x4b, 0x8d, 0xc0, 0x07, 0x4d, 0x28, 0xe1, 0x28, 0xe3, 0xeb, 0xe0, 0xbb, 0xe9, 0x13, 0xd1, 0x5e,
    0x59, 0x9b, 0xf3, 0x9c, 0x74, 0x8e, 0xfc, 0x6c, 0x19, 0x01, 0x6f, 0x47, 0x99, 0x0e, 0x08]

/-- The certificates of a sample: that of the authority, and a leaf that it issued. -/
inductive SampleCertificate where
  | leaf
  | root
  deriving DecidableEq

/-- A key on the curve P-256 with the coordinates. -/
def sampleKey (x y : Bytes) : KeyObject where
  asymmetricKeyType := "ec"
  namedCurve := some "prime256v1"
  exported := .ok ⟨some "EC", some "P-256", some (toBase64Url x), some (toBase64Url y)⟩

/-- The key of the authority. -/
def sampleRootKey : KeyObject :=
  sampleKey
    [0x42, 0x2c, 0x8a, 0xff, 0x35, 0x1a, 0x87, 0x4c, 0xe1, 0x94, 0xc6, 0xaa, 0x5f, 0x21, 0xc6, 0x1d, 0xd7, 0x73,
      0x84, 0xa8, 0x64, 0x7c, 0x6a, 0xc1, 0xc7, 0xe5, 0xda, 0x36, 0xe8, 0x4e, 0x8e, 0x6b]
    [0x5a, 0x3e, 0xe0, 0xcd, 0x59, 0x4e, 0x12, 0x9f, 0xc3, 0xb0, 0xf9, 0x07, 0x1c, 0x1d, 0x6a, 0x49, 0x2c, 0x79,
      0xc6, 0x67, 0xa9, 0xc3, 0x0a, 0x65, 0xb8, 0x36, 0x44, 0x97, 0x8b, 0xbf, 0x30, 0x4a]

/-- What is answered about the authority and a leaf with a key, and the digests of some bytes. -/
def sampleCrypto (leafDer : Bytes) (leafKey : KeyObject)
    (digests : List (Bytes × { digest : Bytes // digest.length = 32 })) : NodeCrypto where
  Certificate := SampleCertificate
  parse := fun der =>
    if der = leafDer then .ok .leaf
    else if der = sampleRootDer then .ok .root
    else .error "error:0680007B:asn1 encoding routines::header too long"
  raw := fun
    | .leaf => leafDer
    | .root => sampleRootDer
  validFrom := fun _ => some 1795029304000
  validTo := fun _ => some 2110389304000
  ca := fun cert => decide (cert = .root)
  publicKey := fun
    | .leaf => .ok leafKey
    | .root => .ok sampleRootKey
  checkIssued := fun _ parent => .ok (decide (parent = .root))
  verify := fun _ key => .ok (decide (key = sampleRootKey))
  sha256 := fun bs => ((digests.find? fun e => e.1 = bs).map Prod.snd).elim (List.replicate 32 0) Subtype.val
  sha256_length := fun bs => by
    cases (digests.find? fun e => e.1 = bs).map Prod.snd with
    | none => rfl
    | some digest => exact digest.2

section Sample

variable {leafDer : Bytes} {leafKey : KeyObject} {digests : List (Bytes × { digest : Bytes // digest.length = 32 })}

theorem sample_parse : (sampleCrypto leafDer leafKey digests).parse leafDer = .ok SampleCertificate.leaf := if_pos rfl

/-- A leaf alone is a path to the authority that issued it. -/
theorem sample_chainHolds {now : ℤ} (hnow : 1795029304000 ≤ now ∧ now ≤ 2110389304000) :
    ChainHolds (sampleCrypto leafDer leafKey digests).engine [SampleCertificate.leaf] [SampleCertificate.root] now where
  pinned := List.cons_ne_nil _ _
  length := ⟨Nat.le_refl 1, (by decide : 1 ≤ MAX_CHAIN_LENGTH)⟩
  valid := fun cert _ => ⟨1795029304000, 2110389304000, rfl, rfl, hnow⟩
  authority := fun _ hcert => absurd hcert List.not_mem_nil
  linked := .singleton _
  anchored := ⟨SampleCertificate.leaf, rfl, SampleCertificate.root, List.mem_singleton_self _, .inr ⟨rfl, rfl, rfl⟩⟩

end Sample

/-- A leaf that describes a key of a trusted environment, with a level of its key store that is not known, and of an
application of ours. -/
def sampleLeafDer : Bytes :=
  [0x30, 0x82, 0x01, 0x69, 0x30, 0x82, 0x01, 0x0e, 0xa0, 0x03, 0x02, 0x01, 0x02, 0x02, 0x01, 0x02, 0x30, 0x0a,
    0x06, 0x08, 0x2a, 0x86, 0x48, 0xce, 0x3d, 0x04, 0x03, 0x02, 0x30, 0x0c, 0x31, 0x0a, 0x30, 0x08, 0x06, 0x03,
    0x55, 0x04, 0x03, 0x0c, 0x01, 0x52, 0x30, 0x1e, 0x17, 0x0d, 0x32, 0x36, 0x31, 0x31, 0x31, 0x38, 0x31, 0x39,
    0x31, 0x35, 0x30, 0x34, 0x5a, 0x17, 0x0d, 0x33, 0x36, 0x31, 0x31, 0x31, 0x35, 0x31, 0x39, 0x31, 0x35, 0x30,
    0x34, 0x5a, 0x30, 0x0c, 0x31, 0x0a, 0x30, 0x08, 0x06, 0x03, 0x55, 0x04, 0x03, 0x0c, 0x01, 0x4c, 0x30, 0x59,
    0x30, 0x13, 0x06, 0x07, 0x2a, 0x86, 0x48, 0xce, 0x3d, 0x02, 0x01, 0x06, 0x08, 0x2a, 0x86, 0x48, 0xce, 0x3d,
    0x03, 0x01, 0x07, 0x03, 0x42, 0x00, 0x04, 0xbe, 0xb6, 0x35, 0x22, 0xcf, 0x34, 0x49, 0xca, 0xa2, 0xa9, 0x76,
    0xeb, 0x7d, 0xdf, 0xed, 0x9d, 0xc1, 0x95, 0x59, 0x55, 0x48, 0x87, 0x7e, 0x92, 0xbf, 0x12, 0x65, 0xa8, 0x9e,
    0x4e, 0x1f, 0xc4, 0xd7, 0xae, 0xe1, 0x7d, 0x94, 0xc8, 0x7b, 0x77, 0x0b, 0xc0, 0xd0, 0xae, 0x2f, 0x8d, 0xac,
    0xbd, 0xc2, 0xa0, 0x65, 0x8d, 0x34, 0x30, 0xb0, 0x2e, 0x41, 0xd3, 0x5d, 0x38, 0xbd, 0x22, 0xdd, 0x15, 0xa3,
    0x61, 0x30, 0x5f, 0x30, 0x5d, 0x06, 0x0a, 0x2b, 0x06, 0x01, 0x04, 0x01, 0xd6, 0x79, 0x02, 0x01, 0x11, 0x04,
    0x4f, 0x30, 0x4d, 0x02, 0x01, 0x03, 0x0a, 0x01, 0x01, 0x02, 0x01, 0x04, 0x0a, 0x01, 0x03, 0x04, 0x05, 0x6e,
    0x6f, 0x6e, 0x63, 0x65, 0x04, 0x00, 0x30, 0x1e, 0xbf, 0x85, 0x45, 0x1a, 0x04, 0x18, 0x30, 0x16, 0x31, 0x0d,
    0x30, 0x0b, 0x04, 0x06, 0x72, 0x77, 0x2e, 0x61, 0x70, 0x70, 0x02, 0x01, 0x01, 0x31, 0x05, 0x04, 0x03, 0x01,
    0x02, 0x03, 0x30, 0x16, 0xbf, 0x85, 0x3e, 0x03, 0x02, 0x01, 0x00, 0xbf, 0x85, 0x40, 0x0b, 0x30, 0x09, 0x04,
    0x01, 0x00, 0x01, 0x01, 0xff, 0x0a, 0x01, 0x00, 0x30, 0x0a, 0x06, 0x08, 0x2a, 0x86, 0x48, 0xce, 0x3d, 0x04,
    0x03, 0x02, 0x03, 0x49, 0x00, 0x30, 0x46, 0x02, 0x21, 0x00, 0xc3, 0x71, 0x97, 0x79, 0xaf, 0xa9, 0x74, 0x89,
    0x1a, 0xe3, 0xd3, 0x8b, 0x89, 0x1c, 0x3a, 0xd1, 0xd4, 0x1f, 0x63, 0x06, 0x33, 0xa6, 0x23, 0x62, 0x15, 0xea,
    0xf4, 0x36, 0x6b, 0xad, 0x71, 0x8e, 0x02, 0x21, 0x00, 0xf9, 0x29, 0xd3, 0xe7, 0x1a, 0xcb, 0xf3, 0xe3, 0x7b,
    0xe1, 0x4c, 0xa2, 0x78, 0x58, 0xaf, 0xa0, 0x86, 0x84, 0x1e, 0xb0, 0x25, 0x47, 0x4c, 0x98, 0x4e, 0xe2, 0x2e,
    0x84, 0xb9, 0x76, 0x9a, 0x5a]

/-- The first coordinate of its key. -/
def sampleX : Bytes :=
  [0xbe, 0xb6, 0x35, 0x22, 0xcf, 0x34, 0x49, 0xca, 0xa2, 0xa9, 0x76, 0xeb, 0x7d, 0xdf, 0xed, 0x9d, 0xc1, 0x95,
    0x59, 0x55, 0x48, 0x87, 0x7e, 0x92, 0xbf, 0x12, 0x65, 0xa8, 0x9e, 0x4e, 0x1f, 0xc4]

/-- The second coordinate. -/
def sampleY : Bytes :=
  [0xd7, 0xae, 0xe1, 0x7d, 0x94, 0xc8, 0x7b, 0x77, 0x0b, 0xc0, 0xd0, 0xae, 0x2f, 0x8d, 0xac, 0xbd, 0xc2, 0xa0,
    0x65, 0x8d, 0x34, 0x30, 0xb0, 0x2e, 0x41, 0xd3, 0x5d, 0x38, 0xbd, 0x22, 0xdd, 0x15]

/-- Its application, as DER. -/
def sampleApplicationId : Bytes :=
  [0x30, 0x16, 0x31, 0x0d, 0x30, 0x0b, 0x04, 0x06, 0x72, 0x77, 0x2e, 0x61, 0x70, 0x70, 0x02, 0x01, 0x01, 0x31,
    0x05, 0x04, 0x03, 0x01, 0x02, 0x03]

/-- Its description. -/
def sampleDescription : KeyDescription where
  attestationVersion := 3
  attestationSecurityLevel := 1
  keymasterVersion := 4
  keymasterSecurityLevel := 3
  attestationChallenge := [0x6e, 0x6f, 0x6e, 0x63, 0x65]
  softwareEnforced := { present := true, attestationApplicationId := some sampleApplicationId }
  hardwareEnforced := { present := true, origin := some 0, rootOfTrust := some (true, 0) }

/-- What `node:crypto` answers about it. -/
def sampleAndroid : NodeCrypto := sampleCrypto sampleLeafDer (sampleKey sampleX sampleY) []

/-- The leaf is sent for its own key. -/
def sampleKeyInput : AndroidKeyAttestationInput sampleAndroid.engine where
  keyAttestation := toBase64 sampleLeafDer
  expectedNonce := "nonce"
  devicePublicKeyJwk := { kty := "EC", crv := "P-256", x := toBase64Url sampleX, y := toBase64Url sampleY }
  packageName := "rw.app"
  certificateDigests := ["AQID"]
  now := 1800000000000
  trustAnchors := [SampleCertificate.root]

/-- What its extension holds. -/
def sampleExtension : Bytes :=
  [0x30, 0x4d, 0x02, 0x01, 0x03, 0x0a, 0x01, 0x01, 0x02, 0x01, 0x04, 0x0a, 0x01, 0x03, 0x04, 0x05, 0x6e, 0x6f, 0x6e,
    0x63, 0x65, 0x04, 0x00, 0x30, 0x1e, 0xbf, 0x85, 0x45, 0x1a, 0x04, 0x18, 0x30, 0x16, 0x31, 0x0d, 0x30, 0x0b, 0x04,
    0x06, 0x72, 0x77, 0x2e, 0x61, 0x70, 0x70, 0x02, 0x01, 0x01, 0x31, 0x05, 0x04, 0x03, 0x01, 0x02, 0x03, 0x30, 0x16,
    0xbf, 0x85, 0x3e, 0x03, 0x02, 0x01, 0x00, 0xbf, 0x85, 0x40, 0x0b, 0x30, 0x09, 0x04, 0x01, 0x00, 0x01, 0x01, 0xff,
    0x0a, 0x01, 0x00]

theorem sampleExtension_parse : parseKeyDescription sampleExtension = .ok sampleDescription := by decide

theorem sampleLeaf_extension : ∃ extension,
    findCertificateExtension sampleLeafDer ANDROID_KEY_ATTESTATION_OID = .ok (some extension) ∧
    parseKeyDescription extension = .ok sampleDescription := by
  refine ⟨sampleExtension, ?_, sampleExtension_parse⟩
  decide +kernel

theorem sampleLeaf_sent : parseCertificateChainInput (toBase64 sampleLeafDer) = .ok [sampleLeafDer] := by
  refine parseCertificateChainInput_toBase64 (List.cons_ne_nil _ _) ?_
  rw [utf16Length_toBase64]
  decide +kernel

/-- The point of a key that has the coordinates. -/
theorem sampleKey_point {x y : Bytes} (hx : x.length = 32) (hy : y.length = 32) {N : NodeCrypto} :
    jwkToRawPoint N.engine ⟨"EC", "P-256", toBase64Url x, toBase64Url y⟩ "devicePublicKeyJwk" =
      .ok (0x04 :: (x ++ y)) ∧
    keyObjectToRawPoint N.readers (sampleKey x y) = .ok (some (0x04 :: (x ++ y))) := by
  have hpoint : ∀ what, jwkToRawPoint N.engine ⟨"EC", "P-256", toBase64Url x, toBase64Url y⟩ what =
      .ok (0x04 :: (x ++ y)) := fun what => jwkToRawPoint_eq_ok.mpr ⟨⟨rfl, rfl⟩, x, y, ⟨hx, hy⟩, ⟨rfl, rfl⟩, rfl⟩
  exact ⟨hpoint _, keyObjectToRawPoint_eq_some.mpr ⟨rfl, _, _, rfl, hpoint _⟩⟩

/-- The sample has all that an acceptance rests on. -/
theorem sample_evidence : KeyEvidence sampleAndroid sampleKeyInput [SampleCertificate.leaf] SampleCertificate.leaf
    sampleDescription (0x04 :: (sampleX ++ sampleY)) := by
  obtain ⟨extension, hfound, hparsed⟩ := sampleLeaf_extension
  obtain ⟨henrolled, hcertified⟩ :=
    sampleKey_point (x := sampleX) (y := sampleY) (by decide) (by decide) (N := sampleAndroid)
  have happlication : tryParseAttestationApplicationId sampleApplicationId = some ⟨["rw.app"], ["AQID"]⟩ := by
    decide
  exact {
    sent := ⟨[sampleLeafDer], sampleLeaf_sent, .cons sample_parse .nil⟩
    path := sample_chainHolds (by decide)
    first := rfl
    described := ⟨extension, extensionIn_of_find hfound, hparsed, descriptionIn_of_parse hparsed⟩
    challenge := by decide
    enrolled := henrolled
    certified := ⟨sampleKey sampleX sampleY, rfl, hcertified⟩
    boot := by decide
    application := by
      intro appId happ
      obtain rfl : (⟨["rw.app"], ["AQID"]⟩ : AttestationApplicationId) = appId :=
        Option.some.inj (happlication.symm.trans happ)
      decide }

/-- The sample is accepted. -/
theorem sample_verify : ∃ evidence, verifyAndroidKeyAttestation sampleAndroid.engine sampleKeyInput =
    .ok (.trustedEnvironment, evidence) :=
  verify_of_evidence sample_evidence sampleLeaf_extension (by decide)

/-- Every accepted key attestation is a certification path to a pinned root whose leaf certifies the enrolled key
and describes it: with the issued nonce as its challenge, with a locked bootloader and a verified boot as far as a
root of trust is reported, and with our application as far as one is named. -/
theorem evidence_of_verify (N : NodeCrypto) (input : AndroidKeyAttestationInput N.engine)
    (result : KeySecurityLevel × List (String × JsValue))
    (h : verifyAndroidKeyAttestation N.engine input = .ok result) :
    ∃ chain leaf description point, KeyEvidence N input chain leaf description point := by
  obtain ⟨level, evidence⟩ := result
  obtain ⟨chain, leaf, description, point, hevidence, -, -⟩ := passed_of_verify h
  exact ⟨chain, leaf, description, point, hevidence⟩

theorem evidence_of_verify_sample : ∃ result chain first description point,
    verifyAndroidKeyAttestation sampleAndroid.engine sampleKeyInput = .ok result ∧
    KeyEvidence sampleAndroid sampleKeyInput chain first description point := by
  obtain ⟨evidence, h⟩ := sample_verify
  obtain ⟨chain, first, description, point, hevidence⟩ := evidence_of_verify _ _ _ h
  exact ⟨_, chain, first, description, point, h, hevidence⟩

/-! ## The level -/

/-- The level is one of a secure hardware. -/
def HardwareLevel (level : ℤ) : Prop := level = SECURITY_LEVEL_TRUSTED_ENVIRONMENT ∨ level = SECURITY_LEVEL_STRONGBOX

/-- The level is a known one. -/
def KnownLevel (level : ℤ) : Prop := level = SECURITY_LEVEL_SOFTWARE ∨ HardwareLevel level

/-- The hardware enforces something about a key that it made, as far as its origin is told. -/
def Backed (description : KeyDescription) : Prop :=
  description.hardwareEnforced.present = true ∧
    ∀ origin ∈ description.hardwareEnforced.origin.or description.softwareEnforced.origin, origin = ORIGIN_GENERATED

/-- The lower of two levels. -/
def lowerLevel : KeySecurityLevel → KeySecurityLevel → KeySecurityLevel
  | .strongbox, level => level
  | level, .strongbox => level
  | .trustedEnvironment, level => level
  | .software, _ => .software

/-- The reported level grants no trust to a level that is not known. -/
structure LevelTrusted (description : KeyDescription) (level : KeySecurityLevel) : Prop where
  /-- A level above the lowest one takes two known levels of hardware, and a key that is backed by it. -/
  hardware : level ≠ .software → (HardwareLevel description.attestationSecurityLevel ∧
    HardwareLevel description.keymasterSecurityLevel) ∧ Backed description
  /-- Then it is the lower of the two. -/
  lower : HardwareLevel description.attestationSecurityLevel → HardwareLevel description.keymasterSecurityLevel →
    Backed description → level = lowerLevel (toKeySecurityLevel description.attestationSecurityLevel)
      (toKeySecurityLevel description.keymasterSecurityLevel)
  /-- With a level that is not known it is the lowest one. -/
  unknown : (¬KnownLevel description.attestationSecurityLevel ∨ ¬KnownLevel description.keymasterSecurityLevel) →
    level = .software

/-- One level is of hardware, and hides that the other is above all that are known. -/
def Hidden (description : KeyDescription) : Prop :=
  HardwareLevel (min description.attestationSecurityLevel description.keymasterSecurityLevel) ∧
    SECURITY_LEVEL_STRONGBOX < max description.attestationSecurityLevel description.keymasterSecurityLevel

section Level

variable {description : KeyDescription}

/-- The level of a key that is backed. -/
theorem describedLevel_of_backed (h : Backed description) : (describedLevel description).1 =
    toKeySecurityLevel (min description.attestationSecurityLevel description.keymasterSecurityLevel) := by
  obtain ⟨hpresent, horigin⟩ := h
  unfold describedLevel
  cases hfound : description.hardwareEnforced.origin.or description.softwareEnforced.origin with
  | none => simp [hpresent]
  | some origin =>
    have hgenerated : origin = ORIGIN_GENERATED := horigin origin hfound
    simp [hpresent, hgenerated]

/-- The level of a key that is not. -/
theorem describedLevel_of_not_backed (h : ¬Backed description) : (describedLevel description).1 = .software := by
  unfold describedLevel
  dsimp only
  generalize toKeySecurityLevel (min description.attestationSecurityLevel description.keymasterSecurityLevel) = named
  cases hfound : description.hardwareEnforced.origin.or description.softwareEnforced.origin with
  | none =>
    have hempty : description.hardwareEnforced.present = false := by
      by_contra hpresent
      exact h ⟨by simpa using hpresent, by simp [hfound]⟩
    cases named <;> simp [hempty]
  | some origin =>
    by_cases hgenerated : origin = ORIGIN_GENERATED
    · have hempty : description.hardwareEnforced.present = false := by
        by_contra hpresent
        exact h ⟨by simpa using hpresent, by simp [hfound, hgenerated]⟩
      cases named <;> simp [hempty, hgenerated]
    · simp [hgenerated]

theorem toKeySecurityLevel_eq_software {level : ℤ} : toKeySecurityLevel level = .software ↔ ¬HardwareLevel level := by
  unfold toKeySecurityLevel HardwareLevel
  split_ifs with hstrong htrusted
  · simp [hstrong]
  · simp [htrusted]
  · simp [hstrong, htrusted]

theorem hardwareLevel_le {n : ℤ} (h : HardwareLevel n) : n ≤ SECURITY_LEVEL_STRONGBOX := by
  rcases h with rfl | rfl <;> decide

/-- Known levels of hardware are compared as their numbers are. -/
theorem toKeySecurityLevel_min {m n : ℤ} (hm : HardwareLevel m) (hn : HardwareLevel n) :
    toKeySecurityLevel (min m n) = lowerLevel (toKeySecurityLevel m) (toKeySecurityLevel n) := by
  rcases hm with rfl | rfl <;> rcases hn with rfl | rfl <;> decide

/-- Two levels whose lower one is of hardware are both of hardware, unless the other is above all that are known. -/
theorem hardware_of_min {m n : ℤ} (hmin : HardwareLevel (min m n)) (hmax : max m n ≤ SECURITY_LEVEL_STRONGBOX) :
    HardwareLevel m ∧ HardwareLevel n := by
  unfold HardwareLevel SECURITY_LEVEL_TRUSTED_ENVIRONMENT SECURITY_LEVEL_STRONGBOX at *
  have hm : m ≤ 2 := le_trans (le_max_left m n) hmax
  have hn : n ≤ 2 := le_trans (le_max_right m n) hmax
  have hlow : 1 ≤ min m n := by omega
  have hlowm : 1 ≤ m := le_trans hlow (min_le_left m n)
  have hlown : 1 ≤ n := le_trans hlow (min_le_right m n)
  constructor <;> omega

/-- The level of a description grants no trust to a level that is not known, unless the minimum hides it. -/
theorem levelTrusted_iff : LevelTrusted description (describedLevel description).1 ↔
    ¬(Hidden description ∧ Backed description) := by
  by_cases hbacked : Backed description
  · rw [describedLevel_of_backed hbacked]
    constructor
    · rintro h ⟨⟨hmin, hmax⟩, -⟩
      have hnamed := toKeySecurityLevel_eq_software.not_left.mpr hmin
      obtain ⟨⟨hm, hn⟩, -⟩ := h.hardware hnamed
      have hle : max description.attestationSecurityLevel description.keymasterSecurityLevel ≤
          SECURITY_LEVEL_STRONGBOX := max_le (hardwareLevel_le hm) (hardwareLevel_le hn)
      exact absurd hmax (not_lt.mpr hle)
    · intro hshown
      have hhardware : HardwareLevel (min description.attestationSecurityLevel description.keymasterSecurityLevel) →
          HardwareLevel description.attestationSecurityLevel ∧ HardwareLevel description.keymasterSecurityLevel :=
        fun hmin => hardware_of_min hmin (not_lt.mp fun hmax => hshown ⟨⟨hmin, hmax⟩, hbacked⟩)
      refine ⟨fun hlevel => ⟨hhardware ?_, hbacked⟩, fun hm hn _ => toKeySecurityLevel_min hm hn, fun hunknown => ?_⟩
      · by_contra hmin
        exact hlevel (toKeySecurityLevel_eq_software.mpr hmin)
      · rw [toKeySecurityLevel_eq_software]
        intro hmin
        obtain ⟨hm, hn⟩ := hhardware hmin
        exact hunknown.elim (fun h => h (.inr hm)) fun h => h (.inr hn)
  · rw [describedLevel_of_not_backed hbacked]
    constructor
    · exact fun _ h => hbacked h.2
    · exact fun _ => ⟨fun h => absurd rfl h, fun _ _ h => absurd h hbacked, fun _ => rfl⟩

end Level

/-- The level of an accepted key attestation grants no trust to a level that is not known exactly unless the lower of
the two levels is one of hardware, the other is above all that are known, and the key is backed. -/
theorem verify_levelTrusted_iff (N : NodeCrypto) (input : AndroidKeyAttestationInput N.engine)
    (description : KeyDescription) (level : KeySecurityLevel) (evidence : List (String × JsValue))
    (hdescribed : Describes N input description)
    (h : verifyAndroidKeyAttestation N.engine input = .ok (level, evidence)) :
    LevelTrusted description level ↔ ¬(Hidden description ∧ Backed description) := by
  obtain ⟨chain, leaf, description', point, -, hdescribed', rfl⟩ := passed_of_verify h
  obtain rfl := hdescribed'.unique hdescribed
  exact levelTrusted_iff

/-- The description that the leaf of the sample carries. -/
theorem sample_describes : Describes sampleAndroid sampleKeyInput sampleDescription := by
  obtain ⟨extension, hfound, hparsed⟩ := sampleLeaf_extension
  exact ⟨[sampleLeafDer], [SampleCertificate.leaf], SampleCertificate.leaf, extension, sampleLeaf_sent,
    mapM_eq_ok.mpr (.cons sample_parse .nil), rfl, hfound, hparsed⟩

theorem verify_levelTrusted_iff_sample : LevelTrusted sampleDescription .trustedEnvironment ↔
    ¬(Hidden sampleDescription ∧ Backed sampleDescription) := by
  obtain ⟨evidence, h⟩ := sample_verify
  exact verify_levelTrusted_iff _ _ _ _ _ sample_describes h

/-- An attestation is accepted as one of a trusted environment while the level of the key store is not known. -/
theorem not_levelTrusted_sample :
    ¬∀ (N : NodeCrypto) (input : AndroidKeyAttestationInput N.engine) (description : KeyDescription)
      (level : KeySecurityLevel) (evidence : List (String × JsValue)), Describes N input description →
      verifyAndroidKeyAttestation N.engine input = .ok (level, evidence) → LevelTrusted description level := by
  intro h
  obtain ⟨evidence, hverify⟩ := sample_verify
  have htrusted := h _ _ _ _ _ sample_describes hverify
  have hunknown : ¬KnownLevel sampleDescription.keymasterSecurityLevel := by
    unfold KnownLevel HardwareLevel
    decide
  exact absurd (htrusted.unknown (.inr hunknown)) (by decide)

end SdidBridge.Attestation
