import SdidBridge.Broker.RateLimits

/-!
# The events of the anomaly detection

`anomaly.service.ts` by itself: it is told of enrolment attempts, of refused attestations, and of the events of the
audit stream, in any order, and the commands of its calls are interleaved in any way.

An event counts for one pattern and one source (`RecordedEvent.signal`). Enrolment attempts put a pseudonym into the set
of their source; every other event increments the counter of its pattern and source. What precedes each command of a
call is said once (`record_paths`): a detection is raised right after its call has read a count that reaches the
threshold.
-/

namespace SdidBridge

open Concurrent Machine Prog

/-! ## Events -/

/-- What the anomaly detection is told of. -/
inductive RecordedEvent where
  | enrolmentAttempt (sourceIp pseudoNid : String)
  | attestationRejection (sourceIp rejectionCode : String)
  | audit (event : AuditEventInput)

/-- The program of an event. -/
def recordEvent (D : Deployment) : RecordedEvent → H Unit
  | .enrolmentAttempt sourceIp pseudoNid => recordEnrolmentAttempt D sourceIp pseudoNid
  | .attestationRejection sourceIp rejectionCode => recordAttestationRejection D sourceIp rejectionCode
  | .audit event => onAuditEvent D event

/-- The anomaly detection of a deployment. -/
abbrev detector (D : Deployment) : Machine Op Op.Res Failure Unit RecordedEvent Store Oracle := served D (recordEvent D)

/-- From which count on a pattern is a detection. -/
def BrokerConfig.threshold (config : BrokerConfig) : AnomalyPattern → ℕ
  | .enrolmentProbing => config.ANOMALY_ENROL_PROBE_DISTINCT_NIDS
  | .attestationRejectionBurst => config.ANOMALY_ATTESTATION_REJECTION_THRESHOLD
  | .cibaInitiationFlood => config.ANOMALY_CIBA_INITIATION_THRESHOLD
  | .signatureFailureBurst => config.ANOMALY_SIGNATURE_FAILURE_THRESHOLD
  | .suspiciousDenialSpike => config.ANOMALY_SUSPICIOUS_DENIAL_THRESHOLD

/-- The window of a pattern. -/
def BrokerConfig.windowSeconds (config : BrokerConfig) : AnomalyPattern → ℕ
  | .enrolmentProbing => config.ANOMALY_ENROL_PROBE_WINDOW_SECONDS
  | .attestationRejectionBurst => config.ANOMALY_ATTESTATION_REJECTION_WINDOW_SECONDS
  | .cibaInitiationFlood => config.ANOMALY_CIBA_INITIATION_WINDOW_SECONDS
  | .signatureFailureBurst => config.ANOMALY_SIGNATURE_FAILURE_WINDOW_SECONDS
  | .suspiciousDenialSpike => config.ANOMALY_SUSPICIOUS_DENIAL_WINDOW_SECONDS

/-- The pattern of an event of the audit stream and its source, if it counts. -/
def AuditEventInput.signal (event : AuditEventInput) : Option (AnomalyPattern × String) :=
  match event.action, event.rpId.filter (· ≠ ""), event.deviceBindingId.filter (· ≠ "") with
  | .cibaRequestCreated, some rpId, _ => some (.cibaInitiationFlood, "rp:" ++ rpId)
  | .cibaRequestDenied, some rpId, _ =>
    if event.context.any (·.memberIsTrue "reportedSuspicious") then some (.suspiciousDenialSpike, "rp:" ++ rpId)
    else none
  | .authLoginFailed, _, some bindingId =>
    if event.context.any (·.memberIsText "reason" "signature_invalid") then
      some (.signatureFailureBurst, "binding:" ++ bindingId)
    else none
  | _, _, _ => none

/-- The pattern of an event and its source, if it counts. -/
def RecordedEvent.signal (D : Deployment) : RecordedEvent → Option (AnomalyPattern × String)
  | .enrolmentAttempt sourceIp _ => some (.enrolmentProbing, D.sourceHandle sourceIp)
  | .attestationRejection sourceIp _ => some (.attestationRejectionBurst, D.sourceHandle sourceIp)
  | .audit event => event.signal

/-! ## Keys -/

/-- The scope that a source is counted under. -/
def countScope (pattern : AnomalyPattern) (source : String) : String :=
  if pattern = .attestationRejectionBurst then "src:" ++ source else source

/-- The counter of a pattern and a source. -/
def countKey (pattern : AnomalyPattern) (source : String) : String :=
  "anom:" ++ pattern.text ++ ":" ++ countScope pattern source

/-- The set of a source. -/
def enrolKey (source : String) : String := "anom:enrol:src:" ++ source

/-- The flag of a detection. -/
def suppressionKey (pattern : AnomalyPattern) (source : String) : String :=
  "anom:alerted:" ++ pattern.text ++ ":" ++ source

/-- The text of a pattern ends where a colon follows. -/
theorem patternText_inj {p p' : AnomalyPattern} {x x' : List Char}
    (h : p.text.toList ++ ':' :: x = p'.text.toList ++ ':' :: x') : p = p' ∧ x = x' := by
  cases p <;> cases p' <;> simp_all [AnomalyPattern.text]

theorem suppressionKey_inj {p p' : AnomalyPattern} {source source' : String}
    (h : suppressionKey p source = suppressionKey p' source') : p = p' ∧ source = source' := by
  have hchars := congrArg String.toList h
  simp only [suppressionKey, String.toList_append, List.append_assoc, List.append_cancel_left_eq] at hchars
  obtain ⟨hpattern, hsource⟩ := patternText_inj hchars
  exact ⟨hpattern, String.toList_injective hsource⟩

theorem countKey_inj {p p' : AnomalyPattern} {source source' : String}
    (h : countKey p source = countKey p' source') : p = p' ∧ source = source' := by
  have hchars := congrArg String.toList h
  simp only [countKey, String.toList_append, List.append_assoc, List.append_cancel_left_eq] at hchars
  obtain ⟨rfl, hscope⟩ := patternText_inj hchars
  have hscope := String.toList_injective hscope
  unfold countScope at hscope
  split_ifs at hscope
  · refine ⟨rfl, ?_⟩
    have hsource := congrArg String.toList hscope
    simp only [String.toList_append, List.append_cancel_left_eq] at hsource
    exact String.toList_injective hsource
  · exact ⟨rfl, hscope⟩

theorem enrolKey_inj {source source' : String} (h : enrolKey source = enrolKey source') : source = source' := by
  have hchars := congrArg String.toList h
  simp only [enrolKey, String.toList_append, List.append_cancel_left_eq] at hchars
  exact String.toList_injective hchars

/-! ## Paths -/

/-- A call has counted `n` events of a pattern and a source. -/
def CountsTo (h : Path) (pattern : AnomalyPattern) (source : String) (n : ℕ) : Prop :=
  if pattern = .enrolmentProbing then ⟨.set (.scard (enrolKey source)), some n⟩ ∈ h
  else ⟨.counter (.incr (countKey pattern source)), some n⟩ ∈ h

/-- What precedes a command of a call. -/
def RecordsOn (D : Deployment) (q : RecordedEvent) (h : Path) : Op → Prop
  | .counter (.incr key) => h = [] ∧ ∃ pattern source, q.signal D = some (pattern, source) ∧
      pattern ≠ .enrolmentProbing ∧ key = countKey pattern source
  | .counter (.expire key seconds) => h = [⟨.counter (.incr key), some (1 : ℕ)⟩] ∧ ∃ pattern source,
      key = countKey pattern source ∧ seconds = D.config.windowSeconds pattern
  | .counter (.get _) => False
  | .counter (.del _) => False
  | .set (.sadd key nid) => ∃ ip, q = .enrolmentAttempt ip nid ∧ key = enrolKey (D.sourceHandle ip)
  | .set (.scard key) => ∃ nid, ⟨.set (.sadd key nid), some ()⟩ ∈ h
  | .flag (.setNx key seconds) => ∃ pattern source n, q.signal D = some (pattern, source) ∧
      key = suppressionKey pattern source ∧ seconds = D.config.windowSeconds pattern ∧
      D.config.threshold pattern ≤ n ∧ CountsTo h pattern source n
  | .flag (.set _ _) => False
  | .flag (.get _) => False
  | _ => True

/-- A counter that a call creates gets its expiry from the next command. -/
def DatesNext (h : Path) (o : Op) : Prop :=
  ∀ key, h = [⟨.counter (.incr key), some (1 : ℕ)⟩] → ∃ seconds, o = .counter (.expire key seconds)

/-- No call ends right after it has created a counter. -/
def DatesBefore (h : Path) : Prop := ∀ key, h ≠ [⟨.counter (.incr key), some (1 : ℕ)⟩]

theorem DatesBefore.next {h : Path} (hd : DatesBefore h) (o : Op) : DatesNext h o :=
  fun key hh => absurd hh (hd key)

/-- A path of two commands or more is past that. -/
theorem datesBefore_cons {a : Cmd} {h : Path} (hne : h ≠ []) : DatesBefore (a :: h) :=
  fun _ heq => hne (List.cons.inj heq).2

section Paths

variable {D : Deployment} {q : RecordedEvent} {h : Path}

/-- What the paths of the calls are. -/
abbrev Records (D : Deployment) (q : RecordedEvent) (h : Path) (p : H Unit) : Prop :=
  Along (fun h o => RecordsOn D q h o ∧ DatesNext h o) (fun h _ => DatesBefore h) h p

/-- A detection is raised after a count that reaches the threshold. -/
theorem records_raise {d : AnomalyDetection} {ctx : AnomalyContext}
    (hsignal : q.signal D = some (d.pattern, d.sourceHandle)) (hwindow : d.windowSeconds = D.config.windowSeconds d.pattern)
    (hthreshold : D.config.threshold d.pattern ≤ d.observed) (hcount : CountsTo h d.pattern d.sourceHandle d.observed)
    (hne : h ≠ []) (hdates : DatesBefore h) : Records D q h (raiseDetection d ctx) := by
  have hflag : ∀ r, DatesBefore (⟨.flag (.setNx (suppressionKey d.pattern d.sourceHandle) d.windowSeconds), r⟩ :: h) :=
    fun r => datesBefore_cons hne
  simp only [raiseDetection, auditAppend, await, along_bind, along_perform, along_onlyIf]
  refine ⟨⟨⟨_, _, _, hsignal, rfl, hwindow, hthreshold, hcount⟩, hdates.next _⟩, hflag _, fun first => ?_⟩
  refine ⟨fun _ => ⟨⟨trivial, (hflag _).next _⟩, fun r => ?_⟩, fun _ => hflag _⟩
  have happended : DatesBefore (⟨.audit (.append (d.event ctx)), r⟩ ::
      ⟨.flag (.setNx (suppressionKey d.pattern d.sourceHandle) d.windowSeconds), some first⟩ :: h) :=
    datesBefore_cons (List.cons_ne_nil _ _)
  cases r with
  | none => exact happended
  | some r => exact happended

/-- A call that counts increments, sets the expiry of a counter that it has created, and compares. -/
theorem records_count {pattern : AnomalyPattern} {source : String} {ctx : AnomalyContext}
    (hsignal : q.signal D = some (pattern, source)) (hpattern : pattern ≠ .enrolmentProbing)
    (hscope : scopeSource (countScope pattern source) = source) :
    Records D q [] (countEvent pattern (countScope pattern source) (D.config.threshold pattern)
      (D.config.windowSeconds pattern) ctx) := by
  have hcounts : ∀ {h : Path} {n : ℕ}, ⟨.counter (.incr (countKey pattern source)), some n⟩ ∈ h →
      CountsTo h pattern source n := by
    intro h n hmem
    unfold CountsTo
    rwa [if_neg hpattern]
  have hraise : ∀ {h : Path} {n : ℕ}, D.config.threshold pattern ≤ n → CountsTo h pattern source n → h ≠ [] →
      DatesBefore h → Records D q h (raiseDetection ⟨pattern, scopeSource (countScope pattern source), n,
        D.config.threshold pattern, D.config.windowSeconds pattern⟩ ctx) := by
    intro h n hn hcount hne hdates
    rw [hscope]
    exact records_raise hsignal rfl hn hcount hne hdates
  have hfailed : DatesBefore [⟨.counter (.incr (countKey pattern source)), none⟩] := by
    intro key heq
    simp at heq
  change Records D q [] (await (.counter (.incr (countKey pattern source))) >>= _)
  simp only [Records, await, along_bind, along_perform, along_onlyIf]
  refine ⟨⟨⟨rfl, pattern, source, hsignal, hpattern, rfl⟩, fun key heq => by cases heq⟩, hfailed, fun n => ⟨?_, ?_⟩⟩
  -- the counter is new, and its expiry is set
  · rintro rfl
    have hne : [(⟨.counter (.incr (countKey pattern source)), some (1 : ℕ)⟩ : Cmd)] ≠ [] := List.cons_ne_nil _ _
    refine ⟨⟨⟨rfl, pattern, source, rfl, rfl⟩, fun key heq => ?_⟩, fun r => ?_⟩
    · simp only [List.cons.injEq, and_true] at heq
      cases heq
      exact ⟨_, rfl⟩
    · cases r with
      | none => exact datesBefore_cons hne
      | some r =>
        refine ⟨fun hn => ?_, fun _ => datesBefore_cons hne⟩
        exact hraise hn (hcounts (List.mem_cons_of_mem _ List.mem_cons_self)) (List.cons_ne_nil _ _)
          (datesBefore_cons hne)
  · intro hne
    have hdates : DatesBefore [⟨.counter (.incr (countKey pattern source)), some n⟩] := by
      intro key heq
      simp only [List.cons.injEq, and_true] at heq
      cases heq
      exact hne rfl
    exact ⟨fun hn => hraise hn (hcounts List.mem_cons_self) (List.cons_ne_nil _ _) hdates, fun _ => hdates⟩

/-- A call that puts a pseudonym into a set, keeps the set for a window from now on, and compares. -/
theorem records_enrolment {ip nid : String} :
    Records D (.enrolmentAttempt ip nid) [] (recordEnrolmentAttempt D ip nid) := by
  unfold recordEnrolmentAttempt
  split_ifs
  swap
  · exact fun key => (List.cons_ne_nil _ _).symm
  have hsource : ∃ ip', RecordedEvent.enrolmentAttempt ip nid = .enrolmentAttempt ip' nid ∧
      enrolKey (D.sourceHandle ip) = enrolKey (D.sourceHandle ip') := ⟨ip, rfl, rfl⟩
  have hsadd : ∀ r, DatesBefore [⟨.set (.sadd (enrolKey (D.sourceHandle ip)) nid), r⟩] := by
    intro r key heq
    simp at heq
  have hnil : DatesBefore [] := fun key => (List.cons_ne_nil _ _).symm
  dsimp only
  rw [Records, along_recover]
  change Along _ _ [] (await (.set (.sadd (enrolKey (D.sourceHandle ip)) nid)) >>= _)
  simp only [await, along_bind, along_pure]
  refine ⟨⟨hsource, hnil.next _⟩, fun r => ?_⟩
  cases r with
  | none => exact hsadd none
  | some r =>
    refine ⟨⟨trivial, (hsadd _).next _⟩, fun r' => ?_⟩
    have hexpire : ∀ r' h', DatesBefore
        (⟨.set (.expire (enrolKey (D.sourceHandle ip)) (D.config.windowSeconds .enrolmentProbing)), r'⟩ ::
          ⟨.set (.sadd (enrolKey (D.sourceHandle ip)) nid), some r⟩ :: h') :=
      fun _ _ => datesBefore_cons (List.cons_ne_nil _ _)
    cases r' with
    | none => exact hexpire none []
    | some r' =>
      have hmem : (⟨.set (.sadd (enrolKey (D.sourceHandle ip)) nid), some ()⟩ : Cmd) ∈
          [⟨.set (.expire (enrolKey (D.sourceHandle ip)) (D.config.windowSeconds .enrolmentProbing)), some r'⟩,
            ⟨.set (.sadd (enrolKey (D.sourceHandle ip)) nid), some r⟩] := by simp
      refine ⟨⟨⟨nid, hmem⟩, (hexpire _ _).next _⟩, fun n => ?_⟩
      have hscard : ∀ n : Option ℕ, DatesBefore (⟨.set (.scard (enrolKey (D.sourceHandle ip))), n⟩ ::
          ⟨.set (.expire (enrolKey (D.sourceHandle ip)) (D.config.windowSeconds .enrolmentProbing)), some r'⟩ ::
            [⟨.set (.sadd (enrolKey (D.sourceHandle ip)) nid), some r⟩]) :=
        fun _ => datesBefore_cons (List.cons_ne_nil _ _)
      cases n with
      | none => exact hscard none
      | some n =>
        change Along _ _ _ (onlyIf _ _)
        rw [along_onlyIf]
        refine ⟨fun hn => ?_, fun _ => hscard n⟩
        have hcount : CountsTo (⟨.set (.scard (enrolKey (D.sourceHandle ip))), some n⟩ ::
            ⟨.set (.expire (enrolKey (D.sourceHandle ip)) (D.config.windowSeconds .enrolmentProbing)), some r'⟩ ::
              [⟨.set (.sadd (enrolKey (D.sourceHandle ip)) nid), some r⟩]) .enrolmentProbing (D.sourceHandle ip) n :=
          List.mem_cons_self
        refine Along.mono (records_raise rfl rfl hn hcount (List.cons_ne_nil _ _) (hscard n)) (fun _ _ h => h) ?_
        intro h' result hdates
        cases result <;> exact hdates

/-- A call that does nothing. -/
theorem records_pure : Records D q [] (pure ()) := fun _ => (List.cons_ne_nil _ _).symm

/-- A call whose failure is caught. -/
theorem records_recover {p : H Unit} (hp : Records D q [] p) : Records D q [] (p.recover fun _ => pure ()) := by
  rw [Records, along_recover]
  refine Along.mono hp (fun _ _ h => h) fun h result hdates => ?_
  cases result <;> exact hdates

/-- The paths of the calls. -/
theorem record_paths (q : RecordedEvent) : Records D q [] (recordEvent D q) := by
  cases q with
  | enrolmentAttempt ip nid => exact records_enrolment
  | attestationRejection ip code =>
    have hscope : scopeSource (countScope .attestationRejectionBurst (D.sourceHandle ip)) = D.sourceHandle ip := by
      simp [scopeSource, countScope]
    unfold recordEvent recordAttestationRejection
    split_ifs
    · exact records_recover (records_count rfl (by decide) hscope)
    · exact records_pure
  | audit event =>
    have hrp : ∀ {pattern : AnomalyPattern} {id : String}, pattern ≠ .attestationRejectionBurst →
        scopeSource (countScope pattern ("rp:" ++ id)) = "rp:" ++ id := by
      intro pattern id hpattern
      simp [scopeSource, countScope, hpattern]
    have hbinding : ∀ {pattern : AnomalyPattern} {id : String}, pattern ≠ .attestationRejectionBurst →
        scopeSource (countScope pattern ("binding:" ++ id)) = "binding:" ++ id := by
      intro pattern id hpattern
      simp [scopeSource, countScope, hpattern]
    unfold recordEvent onAuditEvent
    split_ifs
    swap
    · exact records_pure
    refine records_recover ?_
    have hsignal : RecordedEvent.signal D (.audit event) = event.signal := rfl
    unfold AuditEventInput.signal at hsignal
    unfold countAuditEvent
    split <;> rename_i hrpId hbindingId <;> simp only [*] at hsignal
    · exact records_count hsignal (by decide) (hrp (by decide))
    · split_ifs at hsignal ⊢
      · exact records_count hsignal (by decide) (hrp (by decide))
      · exact records_pure
    · split_ifs at hsignal ⊢
      · exact records_count hsignal (by decide) (hbinding (by decide))
      · exact records_pure
    · exact records_pure

end Paths

end SdidBridge
