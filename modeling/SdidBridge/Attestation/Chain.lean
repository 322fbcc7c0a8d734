import SdidBridge.Attestation.DerValues
import SdidBridge.Attestation.KeyAttestation

/-!
# Certification paths

What `verifyCertificateChain` decides with its three loops, said about the chain as a whole: `ChainHolds` is a
certification path from the leaf to a pinned root, and the code accepts a chain if and only if it is one
(`verifyCertificateChain_ok_iff`).
-/

namespace SdidBridge.Attestation

variable {E : CertificateEngine} {chain anchors : List E.Certificate} {now : ℤ}

/-- The certificate has a finite validity period, and `now` is in it. -/
def InValidity (E : CertificateEngine) (now : ℤ) (cert : E.Certificate) : Prop :=
  ∃ start stop, E.validFrom cert = some start ∧ E.validTo cert = some stop ∧ start ≤ now ∧ now ≤ stop

/-- The certificate is issued by another, and its signature verifies under the other's key. -/
def IssuedBy (E : CertificateEngine) (child parent : E.Certificate) : Prop :=
  E.checkIssued child parent = true ∧ E.verify child parent = true

/-- The certificate is the pinned one, or is issued by it. -/
def AnchoredBy (E : CertificateEngine) (top anchor : E.Certificate) : Prop :=
  E.raw top = E.raw anchor ∨ (E.ca anchor = true ∧ IssuedBy E top anchor)

/-- The chain is a certification path to one of the anchors. -/
structure ChainHolds (E : CertificateEngine) (chain anchors : List E.Certificate) (now : ℤ) : Prop where
  /-- There are anchors. -/
  pinned : anchors ≠ []
  /-- The chain has a leaf, and is not too long. -/
  length : 1 ≤ chain.length ∧ chain.length ≤ MAX_CHAIN_LENGTH
  /-- Every certificate is valid now. -/
  valid : ∀ cert ∈ chain, InValidity E now cert
  /-- Every certificate but the leaf is a certificate authority. -/
  authority : ∀ cert ∈ chain.tail, E.ca cert = true
  /-- Each certificate is issued by its successor. -/
  linked : chain.IsChain (IssuedBy E)
  /-- The last certificate is anchored. -/
  anchored : ∃ top ∈ chain.getLast?, ∃ anchor ∈ anchors, AnchoredBy E top anchor

/-! ## The loops -/

/-- One turn of the first loop, at the certificate `i`. -/
theorem checkValidity_cons {i : ℕ} {cert : E.Certificate} {rest : List E.Certificate} :
    checkValidity E now i (cert :: rest) = .ok () ↔
      InValidity E now cert ∧ (0 < i → E.ca cert = true) ∧ checkValidity E now (i + 1) rest = .ok () := by
  unfold InValidity
  rw [checkValidity]
  cases hstart : E.validFrom cert with
  | none => simp
  | some start =>
    cases hstop : E.validTo cert with
    | none => simp
    | some stop =>
      simp only [Option.some.injEq, exists_and_left, exists_eq_left']
      split_ifs with hearly hlate hca
      · simp [not_le.mpr hearly]
      · simp [not_le.mpr hlate]
      · simp [hca.1, hca.2]
      · have hin : start ≤ now ∧ now ≤ stop := ⟨not_lt.mp hearly, not_lt.mp hlate⟩
        have hauthority : 0 < i → E.ca cert = true := fun hi => by simpa [hi] using hca
        simp only [hin, and_self, true_and, iff_and_self]
        exact fun _ => hauthority

/-- The first loop after the leaf. -/
theorem checkValidity_succ {i : ℕ} : checkValidity E now (i + 1) chain = .ok () ↔
    (∀ cert ∈ chain, InValidity E now cert) ∧ ∀ cert ∈ chain, E.ca cert = true := by
  induction chain generalizing i with
  | nil => simp [checkValidity]
  | cons cert rest ih =>
    rw [checkValidity_cons, ih, List.forall_mem_cons, List.forall_mem_cons]
    have hpos : 0 < i + 1 := Nat.succ_pos i
    tauto

/-- The first loop. -/
theorem checkValidity_ok_iff : checkValidity E now 0 chain = .ok () ↔
    (∀ cert ∈ chain, InValidity E now cert) ∧ ∀ cert ∈ chain.tail, E.ca cert = true := by
  cases chain with
  | nil => simp [checkValidity]
  | cons leaf rest =>
    rw [checkValidity_cons, checkValidity_succ, List.forall_mem_cons, List.tail_cons]
    simp [and_assoc]

/-- The second loop. -/
theorem checkLinks_ok_iff {i : ℕ} : checkLinks E i chain = .ok () ↔ chain.IsChain (IssuedBy E) := by
  fun_induction checkLinks E i chain with
  | case1 i child parent rest hissued => simp [IssuedBy, hissued]
  | case2 i child parent rest hissued hverifies => simp [IssuedBy, hverifies]
  | case3 i child parent rest hissued hverifies ih =>
    rw [ih, List.isChain_cons_cons, iff_and_self]
    exact fun _ => ⟨by simpa using hissued, by simpa using hverifies⟩
  | case4 certs i hshort =>
    cases certs with
    | nil => simp
    | cons cert rest =>
      cases rest with
      | nil => simp
      | cons parent rest => exact absurd rfl (hshort cert parent rest)

/-- The third loop. -/
theorem checkAnchor_ok_iff {top : E.Certificate} :
    (∃ detail, checkAnchor E top anchors = .ok detail) ↔ ∃ anchor ∈ anchors, AnchoredBy E top anchor := by
  induction anchors with
  | nil => simp [checkAnchor]
  | cons anchor rest ih =>
    rw [checkAnchor, List.exists_mem_cons_iff]
    unfold AnchoredBy IssuedBy
    split_ifs with hraw hissued
    · simp [hraw]
    · simp [hissued]
    · have hnot : ¬(E.raw top = E.raw anchor ∨ E.ca anchor = true ∧ E.checkIssued top anchor = true ∧
          E.verify top anchor = true) := not_or.mpr ⟨hraw, hissued⟩
      rw [ih]
      exact (or_iff_right hnot).symm

/-- The code accepts a chain if and only if it is a certification path to one of the anchors. -/
theorem verifyCertificateChain_ok_iff (chain anchors : List E.Certificate) (now : ℤ) :
    (∃ detail, verifyCertificateChain E chain anchors now = .ok detail) ↔ ChainHolds E chain anchors now := by
  unfold verifyCertificateChain
  cases htop : chain.getLast? with
  | none =>
    rw [List.getLast?_eq_none_iff] at htop
    subst htop
    constructor
    · simp
    · intro h
      simpa using h.length.1
  | some top =>
    have hlength : 1 ≤ chain.length := by
      rw [Nat.one_le_iff_ne_zero, ne_eq, List.length_eq_zero_iff]
      rintro rfl
      simp at htop
    simp only
    split_ifs with hlong hnone
    · simp only [reduceCtorEq, exists_false, false_iff]
      intro h
      exact absurd h.length.2 (not_le.mpr hlong)
    · simp only [reduceCtorEq, exists_false, false_iff]
      exact fun h => h.pinned hnone
    · constructor
      · rintro ⟨detail, hok⟩
        simp only [except_bind_eq_ok] at hok
        obtain ⟨⟨⟩, hvalidity, ⟨⟩, hlinks, hanchor⟩ := hok
        obtain ⟨hvalid, hauthority⟩ := checkValidity_ok_iff.mp hvalidity
        exact ⟨hnone, ⟨hlength, not_lt.mp hlong⟩, hvalid, hauthority, checkLinks_ok_iff.mp hlinks,
          top, htop, checkAnchor_ok_iff.mp ⟨detail, hanchor⟩⟩
      · intro h
        obtain ⟨top', htop', hanchored⟩ := h.anchored
        obtain rfl : top = top' := Option.some.inj (htop.symm.trans htop')
        obtain ⟨detail, hanchor⟩ := checkAnchor_ok_iff.mpr hanchored
        refine ⟨detail, ?_⟩
        rw [checkValidity_ok_iff.mpr ⟨h.valid, h.authority⟩, checkLinks_ok_iff.mpr h.linked]
        exact hanchor

end SdidBridge.Attestation
