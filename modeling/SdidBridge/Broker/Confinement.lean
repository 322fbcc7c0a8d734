import SdidBridge.Broker.Machine
import SdidBridge.Concurrent.Lockstep

/-!
# Where national ids and samples go

A national id number and a biometric sample are members of one request, `EnrolStartRequest`. The broker sends the id to
SDID and the sample to the match engine, and keeps of the id its keyed hash only. So two brokers that hash differently
cannot be told apart when their citizens' ids hash alike: whoever has replaced the ids and the samples of a run has a
run with the same stores, the same answers of every command, and the same result of every call (`identity_confined`).
No table, no key of Redis, no row of the audit trail, no token and no answer has more of them than the hash.
-/

namespace SdidBridge

open Concurrent Prog

/-- The commands are the same, but for the national id that SDID is asked about and the sample that is compared. -/
inductive SameButIdentity : Op → Op → Prop
  | same (o : Op) : SameButIdentity o o
  | fetch (nid nid' : String) (modality : Modality) :
    SameButIdentity (.service (.getReferenceBiometric nid modality)) (.service (.getReferenceBiometric nid' modality))
  | compare (sample sample' reference : String) :
    SameButIdentity (.service (.matchSample sample reference)) (.service (.matchSample sample' reference))

/-- The deployment with another hash of national ids. -/
def Deployment.hashing (D : Deployment) (pseudoNid : String → String) : Deployment :=
  { D with pseudoNid }

/-- The request with another national id and another sample. -/
def EnrolStartRequest.withIdentity (r : EnrolStartRequest) (nid data : String) : EnrolStartRequest :=
  { r with nid, sample := { r.sample with data } }

/-- The requests are the same, but that an enrolment may have another sample and another national id with the same
hash. -/
inductive Disguise (pseudoNid pseudoNid' : String → String) : Request → Request → Prop
  | same {q : Request} (hq : ∀ body ip, q ≠ .enrolStart body ip) : Disguise pseudoNid pseudoNid' q q
  | enrol {body : EnrolStartRequest} {nid data : String} (ip : String) (hnid : pseudoNid' nid = pseudoNid body.nid)
    (hvalid : (body.withIdentity nid data).valid = body.valid) :
    Disguise pseudoNid pseudoNid' (.enrolStart body ip) (.enrolStart (body.withIdentity nid data) ip)

section Confinement

variable {D : Deployment} {pseudoNid' : String → String}

theorem sameButIdentity_refl (o : Op) : SameButIdentity o o := .same o

theorem like_matchAgainstReference (body : EnrolStartRequest) (nid data pseudoNid : String) :
    Like SameButIdentity (matchAgainstReference body pseudoNid)
      (matchAgainstReference (body.withIdentity nid data) pseudoNid) := by
  refine like_perform_bind (.fetch _ _ _) rfl fun answer answer' hanswer => ?_
  obtain rfl := eq_of_heq hanswer
  cases answer with
  | unknownIdentity => exact .refl sameButIdentity_refl _
  | unavailable => exact .refl sameButIdentity_refl _
  | ok reference =>
    refine like_perform_bind (.compare _ _ _) rfl fun result result' hresult => ?_
    obtain rfl := eq_of_heq hresult
    exact .refl sameButIdentity_refl _

theorem like_start (body : EnrolStartRequest) (nid data ip : String) (hnid : pseudoNid' nid = D.pseudoNid body.nid)
    (hvalid : (body.withIdentity nid data).valid = body.valid) :
    Like SameButIdentity (start D body ip) (start (D.hashing pseudoNid') (body.withIdentity nid data) ip) := by
  have hhash : (D.hashing pseudoNid').pseudoNid (body.withIdentity nid data).nid = D.pseudoNid body.nid := hnid
  unfold start
  rw [hvalid, hhash]
  exact .bind (.refl sameButIdentity_refl _) fun _ => .bind (.refl sameButIdentity_refl _) fun _ =>
    .bind (like_matchAgainstReference _ _ _ _) fun _ => .refl sameButIdentity_refl _

theorem dueCitizens_hashing (now : Time) (bindings : List DeviceBinding) :
    dueCitizens (D.hashing pseudoNid') now bindings = dueCitizens D now bindings := by
  induction bindings with
  | nil => rfl
  | cons b bs ih =>
    unfold dueCitizens
    rw [ih]
    rfl

/-- No other handler hashes a national id. -/
theorem handler_hashing {q : Request} (hq : ∀ body ip, q ≠ .enrolStart body ip) :
    handler (D.hashing pseudoNid') q = handler D q := by
  cases q with
  | enrolStart body ip => exact absurd rfl (hq body ip)
  | reverifySweep bearer limit =>
    simp only [handler, reverifySweep, sweep, dueCitizens_hashing]
    rfl
  | _ => rfl

/-- The programs of two such requests issue the same commands but for these two. -/
theorem like_handler {q q' : Request} (h : Disguise D.pseudoNid pseudoNid' q q') :
    Like SameButIdentity (handler D q) (handler (D.hashing pseudoNid') q') := by
  cases h with
  | same hq =>
    rw [handler_hashing hq]
    exact .refl sameButIdentity_refl _
  | enrol ip hnid hvalid =>
    exact .bind (like_start _ _ _ ip hnid hvalid) fun _ => .refl sameButIdentity_refl _

theorem indistinct_broker : Machine.Indistinct SameButIdentity (broker D) (broker (D.hashing pseudoNid')) where
  res ho := by cases ho <;> rfl
  exec {o o' i s r s₁} ho hx := by
    cases ho with
    | same o => exact ⟨r, HEq.rfl, hx⟩
    | fetch nid nid' modality => exact ⟨r, HEq.rfl, hx⟩
    | compare sample sample' reference => exact ⟨r, HEq.rfl, hx⟩
  fallible ho := by cases ho <;> rfl
  env := rfl
  init := rfl

/-- A run whose enrolments get other samples and other national ids with the same hashes is a run: before every step the
store is the same, every command but the two has the same arguments, all of them have the same answers, and the calls
end with the same results. -/
theorem identity_confined {tr : Run} {c : State} {f : ℕ → Request → Request} (hr : (broker D).Reach tr c)
    (hf : ∀ t q, Arrived tr t q → Disguise D.pseudoNid pseudoNid' q (f t q)) :
    ∃ tr' c', (broker (D.hashing pseudoNid')).Reach tr' c' ∧
      List.Forall₂ (Machine.SameStep SameButIdentity f) tr tr' ∧ c.store = c'.store ∧
      c.calls.map Prog.result = c'.calls.map Prog.result := by
  obtain ⟨tr', c', hr', htr, hc⟩ := hr.inStep indistinct_broker fun t q hq => like_handler (hf t q hq)
  refine ⟨tr', c', hr', htr, hc.store, ?_⟩
  have hresults : ∀ {l l' : List (H Reply)}, List.Forall₂ (Like SameButIdentity) l l' →
      l.map Prog.result = l'.map Prog.result := by
    intro l l' hl
    induction hl with
    | nil => rfl
    | cons hlike _ ih => rw [List.map_cons, List.map_cons, hlike.result_eq, ih]
  exact hresults hc.calls

/-- Two ids exchanged. -/
def sampleExchange (nid : String) : String :=
  if nid = "1199080012345678" then "1199080099999999"
  else if nid = "1199080099999999" then "1199080012345678" else nid

/-- Enrolments with exchanged ids and a sample that was blotted out. -/
def sampleDisguise (_ : ℕ) : Request → Request
  | .enrolStart body ip =>
    .enrolStart (body.withIdentity (sampleExchange body.nid)
      (if body.sample.data = "face" then "blot" else body.sample.data)) ip
  | q => q

theorem disguise_sampleDisguise (t : ℕ) (q : Request) :
    Disguise sampleDeployment.pseudoNid sampleExchange q (sampleDisguise t q) := by
  have hnid : ∀ nid, sampleExchange (sampleExchange nid) = nid := by
    intro nid
    unfold sampleExchange
    split_ifs <;> simp_all
  have hdigits : ∀ nid : String, ((sampleExchange nid).toList.length == 16 && (sampleExchange nid).toList.all (·.isDigit)) =
      (nid.toList.length == 16 && nid.toList.all (·.isDigit)) := by
    intro nid
    unfold sampleExchange
    split_ifs with h h'
    · rw [h]
      decide
    · rw [h']
      decide
    · rfl
  have hlength : ∀ data : String, lengthWithin 1 2000000 (if data = "face" then "blot" else data) =
      lengthWithin 1 2000000 data := by
    intro data
    split_ifs with h
    · rw [h]
      decide
    · rfl
  cases q with
  | enrolStart body ip =>
    refine .enrol ip (hnid _) ?_
    unfold EnrolStartRequest.valid EnrolStartRequest.withIdentity
    simp only [hdigits, hlength]
  | _ => exact .same (by simp)

/-- The enrolment of a citizen runs as well with another id and another sample. -/
theorem identity_confined_sampleDevice : ∃ tr c tr' c', (broker sampleDeployment).Reach tr c ∧
    c.store.citizens.map (·.pseudoNid) = ["1199080012345678"] ∧
    (broker (sampleDeployment.hashing sampleExchange)).Reach tr' c' ∧
    List.Forall₂ (Machine.SameStep SameButIdentity sampleDisguise) tr tr' ∧ c.store = c'.store ∧
    c.calls.map Prog.result = c'.calls.map Prog.result := by
  obtain ⟨tr, c, hr, hcitizens⟩ := (broker sampleDeployment).exists_of_play sampleDevice.reverse
    (p := fun x => x.2.store.citizens.map (·.pseudoNid) == ["1199080012345678"]) (by decide)
  obtain ⟨tr', c', hr', hsteps, hstore, hresults⟩ := identity_confined hr fun t q _ => disguise_sampleDisguise t q
  exact ⟨tr, c, tr', c', hr, beq_iff_eq.mp hcitizens, hr', hsteps, hstore, hresults⟩

end Confinement

end SdidBridge
