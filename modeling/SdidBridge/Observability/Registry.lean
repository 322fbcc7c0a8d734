import SdidBridge.Attestation.DerValues
import SdidBridge.Observability.Labels

/-!
# The metrics registry

The registry of `observability/metrics.registry.ts` with its counters, gauges and histograms, and the text that it
renders. The arithmetic of the sample values is a parameter. A label value of a series is a value of a call that was not
refused, the placeholder, or the text of a bucket's bound, so calls without identifiers that look like enums leave
none in the text (`identifiers_refused`).
-/

namespace SdidBridge.Observability

open Codec Attestation

/-! ## Metrics -/

/-- What the registry does with numbers. -/
structure Arithmetic (N : Type) where
  zero : N
  one : N
  add : N → N → N
  le : N → N → Bool
  isInteger : N → Bool
  /-- `Number(value.toFixed(6))`. -/
  rounded : N → N
  /-- `String(value)`. -/
  text : N → String

/-- The labels of a call. -/
abbrev Labels := String → Option String

def MAX_SERIES_PER_METRIC : ℕ := 200

/-- The classes of metrics. A histogram has the bounds of its buckets. -/
inductive MetricType (N : Type) where
  | counter
  | gauge
  | histogram (buckets : List N)

/-- `SeriesState`. -/
inductive SeriesState (N : Type) where
  | value (n : N)
  | histogram (buckets : List ℕ) (sum : N) (count : ℕ)

structure Series (N : Type) where
  key : String
  values : List String
  state : SeriesState N

structure Metric (N : Type) where
  type : MetricType N
  name : String
  help : String
  labelNames : List String
  series : List (Series N)
  droppedSeries : ℕ

abbrev Registry (N : Type) := List (Metric N)

/-- What a call throws: a label value is refused, or a name is taken. -/
inductive RegistryError where
  | unsafeLabelValue (metric label reason : String)
  | alreadyRegistered (name : String)

/-- `sanitizeLabelValue`. -/
def sanitizeLabelValue (metric label value : String) (strict : Bool) : Except RegistryError String :=
  match unsafeLabelReason value with
  | none => .ok value
  | some reason => if strict then .error (.unsafeLabelValue metric label reason) else .ok REJECTED_LABEL_VALUE

/-- The values of a call's labels, in the order of the names. -/
def labelValues (metric : String) (labels : Labels) (strict : Bool) : List String → Except RegistryError (List String)
  | [] => .ok []
  | name :: names => do
    let value ← sanitizeLabelValue metric name ((labels name).getD "") strict
    let values ← labelValues metric labels strict names
    return value :: values

section Calls

variable {N : Type} (arithmetic : Arithmetic N)

/-- `newState`. -/
def newState (metric : Metric N) : SeriesState N :=
  match metric.type with
  | .counter => .value arithmetic.zero
  | .gauge => .value arithmetic.zero
  | .histogram buckets => .histogram (buckets.map fun _ => 0) arithmetic.zero 0

/-- The series with the state of one changed. -/
def changeSeries (key : String) (f : SeriesState N → SeriesState N) (series : List (Series N)) : List (Series N) :=
  series.map fun s => if s.key = key then { s with state := f s.state } else s

/-- `resolve`, and the change of the series that it answers. A new series over the limit is dropped. -/
def update (strict : Bool) (labels : Labels) (f : SeriesState N → SeriesState N) (metric : Metric N) :
    Except RegistryError (Metric N) := do
  let values ← labelValues metric.name labels strict metric.labelNames
  let key := String.intercalate "\x00" values
  if ∃ s ∈ metric.series, s.key = key then
    return { metric with series := changeSeries key f metric.series }
  if MAX_SERIES_PER_METRIC ≤ metric.series.length then
    return { metric with droppedSeries := metric.droppedSeries + 1 }
  return { metric with series := metric.series ++ [⟨key, values, f (newState arithmetic metric)⟩] }

/-- `state.value += amount`. -/
def addAmount (amount : N) : SeriesState N → SeriesState N
  | .value n => .value (arithmetic.add n amount)
  | state => state

/-- `state.value = value`. -/
def setValue (value : N) : SeriesState N → SeriesState N
  | .value _ => .value value
  | state => state

/-- The loop of `observe`. -/
def observeValue (metric : Metric N) (value : N) : SeriesState N → SeriesState N
  | .value n => .value n
  | .histogram counts sum count =>
    match metric.type with
    | .histogram buckets =>
      .histogram (List.zipWith (fun bound n => if arithmetic.le value bound then n + 1 else n) buckets counts)
        (arithmetic.add sum value) (count + 1)
    | _ => .histogram counts sum count

/-- The calls of a registry. A metric is called by its name. -/
inductive Call (N : Type) where
  | register (type : MetricType N) (name help : String) (labelNames : List String)
  | inc (name : String) (labels : Labels) (amount : N)
  | set (name : String) (value : N) (labels : Labels)
  | observe (name : String) (value : N) (labels : Labels)

/-- A metric whose class has a method. -/
abbrev Takes (N : Type) := MetricType N → Bool

def takesInc : Takes N
  | .histogram _ => false
  | _ => true

def takesSet : Takes N
  | .gauge => true
  | _ => false

def takesObserve : Takes N
  | .histogram _ => true
  | _ => false

/-- The metric with a name is changed, if its class has the method. -/
def onMetric (name : String) (takes : Takes N) (f : Metric N → Except RegistryError (Metric N)) :
    Registry N → Except RegistryError (Registry N)
  | [] => .ok []
  | metric :: rest =>
    if metric.name = name ∧ takes metric.type then do
      let changed ← f metric
      return changed :: rest
    else do
      let rest ← onMetric name takes f rest
      return metric :: rest

/-- A call. -/
def call (strict : Bool) (registry : Registry N) : Call N → Except RegistryError (Registry N)
  | .register type name help labelNames =>
    if ∃ metric ∈ registry, metric.name = name then .error (.alreadyRegistered name)
    else .ok (registry ++ [⟨type, name, help, labelNames, [], 0⟩])
  | .inc name labels amount =>
    onMetric name takesInc (update arithmetic strict labels (addAmount arithmetic amount)) registry
  | .set name value labels => onMetric name takesSet (update arithmetic strict labels (setValue value)) registry
  | .observe name value labels =>
    onMetric name takesObserve
      (fun metric => update arithmetic strict labels (observeValue arithmetic metric value) metric) registry

/-- The registry after calls. One that throws changes nothing. -/
def run (strict : Bool) (registry : Registry N) (calls : List (Call N)) : Registry N :=
  calls.foldl (fun registry c => (call arithmetic strict registry c).toOption.getD registry) registry

/-! ## The exposition -/

/-- A line of a family: a name, labels, and the text of a value. -/
structure Sample where
  name : String
  labels : List (String × String)
  value : String

/-- `formatValue`. -/
def formatValue (value : N) : String :=
  if arithmetic.isInteger value then arithmetic.text value else arithmetic.text (arithmetic.rounded value)

/-- The labels of a series. -/
def seriesLabels (labelNames values : List String) : List (String × String) :=
  labelNames.zipIdx.map fun n => (n.1, values.getD n.2 "")

/-- `exposeSeries`. -/
def exposeSeries (metric : Metric N) (series : Series N) : List Sample :=
  let plain := seriesLabels metric.labelNames series.values
  let bound (le : String) := seriesLabels (metric.labelNames ++ ["le"]) (series.values ++ [le])
  match metric.type, series.state with
  | .histogram buckets, .histogram counts sum count =>
    List.zipWith (fun b n => ⟨metric.name ++ "_bucket", bound (arithmetic.text b), toString n⟩) buckets counts ++
      [⟨metric.name ++ "_bucket", bound "+Inf", toString count⟩,
        ⟨metric.name ++ "_sum", plain, formatValue arithmetic sum⟩, ⟨metric.name ++ "_count", plain, toString count⟩]
  | _, .value n => [⟨metric.name, plain, formatValue arithmetic n⟩]
  | _, .histogram _ _ _ => []

/-- The samples of a metric. -/
def samples (metric : Metric N) : List Sample := metric.series.flatMap (exposeSeries arithmetic metric)

/-- `escapeLabelValue`. -/
def escapeLabelValue (value : String) : String :=
  String.ofList (value.toList.flatMap fun c =>
    if c = '\\' then ['\\', '\\'] else if c = '\n' then ['\\', 'n'] else if c = '"' then ['\\', '"'] else [c])

/-- `escapeHelp`. -/
def escapeHelp (help : String) : String :=
  String.ofList (help.toList.flatMap fun c => if c = '\\' then ['\\', '\\'] else if c = '\n' then ['\\', 'n'] else [c])

/-- `renderLabels`. -/
def renderLabels (labels : List (String × String)) : String :=
  if labels = [] then ""
  else "\x7b" ++ String.intercalate "," (labels.map fun l => l.1 ++ "=\"" ++ escapeLabelValue l.2 ++ "\"") ++ "\x7d"

def typeText : MetricType N → String
  | .counter => "counter"
  | .gauge => "gauge"
  | .histogram _ => "histogram"

/-- `expose`. -/
def expose (metric : Metric N) : List String :=
  ("# HELP " ++ metric.name ++ " " ++ escapeHelp metric.help) ::
    ("# TYPE " ++ metric.name ++ " " ++ typeText metric.type) ::
      (samples arithmetic metric).map fun s => s.name ++ renderLabels s.labels ++ " " ++ s.value

/-- `render`. -/
def render (registry : Registry N) : String :=
  String.intercalate "\n" (registry.flatMap (expose arithmetic)) ++ "\n"

/-- A text stands in the exposition as the value of a label, between the quotes of `renderLabels`. -/
def HasLabelValue (registry : Registry N) (value : String) : Prop :=
  ∃ metric ∈ registry, ∃ s ∈ samples arithmetic metric, ∃ label ∈ s.labels, escapeLabelValue label.2 = value

/-- A text is not escaped unless it has a character that is. -/
theorem escapeLabelValue_eq_self {value : String} (h : ∀ c ∈ value.toList, isAllowedChar c = true) :
    escapeLabelValue value = value := by
  have hchars : ∀ cs : List Char, (∀ c ∈ cs, isAllowedChar c = true) →
      (cs.flatMap fun c =>
        if c = '\\' then ['\\', '\\'] else if c = '\n' then ['\\', 'n'] else if c = '"' then ['\\', '"'] else [c]) =
        cs := by
    intro cs hcs
    induction cs with
    | nil => rfl
    | cons c cs ih =>
      obtain ⟨hc, hcs⟩ := List.forall_mem_cons.mp hcs
      have hslash : c ≠ '\\' := by rintro rfl; exact absurd hc (by decide)
      have hnewline : c ≠ '\n' := by rintro rfl; exact absurd hc (by decide)
      have hquote : c ≠ '"' := by rintro rfl; exact absurd hc (by decide)
      rw [List.flatMap_cons, ih hcs, if_neg hslash, if_neg hnewline, if_neg hquote]
      rfl
  unfold escapeLabelValue
  rw [hchars _ h, String.ofList_toList]

/-- What `unsafeLabelReason` lets through is not escaped. -/
theorem escapeLabelValue_of_safe {value : String} (h : unsafeLabelReason value = none) :
    escapeLabelValue value = value := by
  by_cases hempty : value = ""
  · rw [hempty]
    rfl
  · exact escapeLabelValue_eq_self ((unsafeLabelReason_eq_none hempty).mp h).2.1

/-! ## Clean calls -/

/-- The label values of a call: none is base64url of 16 bytes or more that looks like an enum. -/
def CleanLabels (labels : Labels) : Prop :=
  ∀ name value, labels name = some value → ∀ bs : Bytes, 16 ≤ bs.length → value = toBase64Url bs → ¬LooksLikeEnum bs

/-- The bounds of a class of metrics are not printed as identifiers. -/
def MetricType.IsClean : MetricType N → Prop
  | .histogram buckets => ∀ b ∈ buckets, ¬IdentifierShape (escapeLabelValue (arithmetic.text b))
  | _ => True

/-- A call with clean labels, or a registration of a clean class. -/
def Call.IsClean : Call N → Prop
  | .register type _ _ _ => type.IsClean arithmetic
  | .inc _ labels _ => CleanLabels labels
  | .set _ _ labels => CleanLabels labels
  | .observe _ _ labels => CleanLabels labels

/-- A metric without an identifier among its label values. -/
structure Metric.IsClean (metric : Metric N) : Prop where
  type : metric.type.IsClean arithmetic
  series : ∀ s ∈ metric.series, ∀ v ∈ s.values, ¬IdentifierShape (escapeLabelValue v)

/-- A registry of such metrics. -/
def Registry.IsClean (registry : Registry N) : Prop := ∀ metric ∈ registry, metric.IsClean arithmetic

variable {arithmetic}

theorem not_identifierShape_empty : ¬IdentifierShape (escapeLabelValue "") :=
  not_identifierShape_of_short (by decide)

theorem not_identifierShape_rejected : ¬IdentifierShape (escapeLabelValue REJECTED_LABEL_VALUE) :=
  not_identifierShape_of_short (by decide)

/-- A value that passes is no identifier. -/
theorem not_identifierShape_of_sanitized {metric name value : String} {labels : Labels} {strict : Bool}
    (hlabels : CleanLabels labels)
    (h : sanitizeLabelValue metric name ((labels name).getD "") strict = .ok value) :
    ¬IdentifierShape (escapeLabelValue value) := by
  unfold sanitizeLabelValue at h
  split at h
  · rename_i hsafe
    obtain rfl : (labels name).getD "" = value := Except.ok.inj h
    cases hlabel : labels name with
    | none => exact not_identifierShape_empty
    | some value =>
      rw [hlabel, Option.getD_some] at hsafe
      rw [Option.getD_some, escapeLabelValue_of_safe hsafe]
      intro hshape
      obtain ⟨bs, hlength, hvalue, henum⟩ := looksLikeEnum_of_safe hshape hsafe
      exact hlabels name value hlabel bs hlength hvalue henum
  · cases strict with
    | true => cases h
    | false =>
      obtain rfl : REJECTED_LABEL_VALUE = value := Except.ok.inj h
      exact not_identifierShape_rejected

theorem not_identifierShape_of_labelValues {metric : String} {labels : Labels} {strict : Bool}
    {names values : List String} (hlabels : CleanLabels labels)
    (h : labelValues metric labels strict names = .ok values) :
    ∀ v ∈ values, ¬IdentifierShape (escapeLabelValue v) := by
  induction names generalizing values with
  | nil =>
    cases h
    exact fun v hv => absurd hv List.not_mem_nil
  | cons name names ih =>
    rw [labelValues] at h
    obtain ⟨value, hvalue, h⟩ := except_bind_eq_ok.mp h
    obtain ⟨rest, hrest, h⟩ := except_bind_eq_ok.mp h
    obtain rfl : value :: rest = values := Except.ok.inj h
    intro v hv
    rcases List.mem_cons.mp hv with rfl | hv
    · exact not_identifierShape_of_sanitized hlabels hvalue
    · exact ih hrest v hv

/-- A call of a metric keeps it clean. -/
theorem Metric.IsClean.update {strict : Bool} {labels : Labels} {f : SeriesState N → SeriesState N}
    {metric changed : Metric N} (hlabels : CleanLabels labels) (hmetric : metric.IsClean arithmetic)
    (h : Observability.update arithmetic strict labels f metric = .ok changed) : changed.IsClean arithmetic := by
  unfold Observability.update at h
  obtain ⟨values, hvalues, h⟩ := except_bind_eq_ok.mp h
  have hclean := not_identifierShape_of_labelValues hlabels hvalues
  dsimp only at h
  split at h
  -- the series is there: its values stay
  · obtain rfl := Except.ok.inj h
    refine ⟨hmetric.type, fun s hs => ?_⟩
    obtain ⟨old, hold, rfl⟩ := List.mem_map.mp hs
    have hvaluesOld := hmetric.series old hold
    split <;> exact hvaluesOld
  · split at h
    -- no room for another series
    · obtain rfl := Except.ok.inj h
      exact ⟨hmetric.type, hmetric.series⟩
    · obtain rfl := Except.ok.inj h
      refine ⟨hmetric.type, fun s hs => ?_⟩
      rcases List.mem_append.mp hs with hs | hs
      · exact hmetric.series s hs
      · rw [List.mem_singleton.mp hs]
        exact hclean

/-- A call by name changes one metric. -/
theorem Registry.IsClean.onMetric {name : String} {takes : Takes N} {f : Metric N → Except RegistryError (Metric N)}
    {registry changed : Registry N}
    (hf : ∀ {metric changed}, metric.IsClean arithmetic → f metric = .ok changed → changed.IsClean arithmetic)
    (hregistry : registry.IsClean arithmetic) (h : Observability.onMetric name takes f registry = .ok changed) :
    changed.IsClean arithmetic := by
  induction registry generalizing changed with
  | nil =>
    obtain rfl : [] = changed := Except.ok.inj h
    exact hregistry
  | cons metric rest ih =>
    obtain ⟨hmetric, hrest⟩ := List.forall_mem_cons.mp hregistry
    unfold Observability.onMetric at h
    split at h
    · obtain ⟨metric', hmetric', h⟩ := except_bind_eq_ok.mp h
      obtain rfl : metric' :: rest = changed := Except.ok.inj h
      exact List.forall_mem_cons.mpr ⟨hf hmetric hmetric', hrest⟩
    · obtain ⟨rest', hrest', h⟩ := except_bind_eq_ok.mp h
      obtain rfl : metric :: rest' = changed := Except.ok.inj h
      exact List.forall_mem_cons.mpr ⟨hmetric, ih hrest hrest'⟩

/-- A clean call keeps a registry clean. -/
theorem Registry.IsClean.call {strict : Bool} {registry changed : Registry N} {c : Call N}
    (hregistry : registry.IsClean arithmetic) (hc : c.IsClean arithmetic)
    (h : Observability.call arithmetic strict registry c = .ok changed) : changed.IsClean arithmetic := by
  cases c with
  | register type name help labelNames =>
    simp only [Observability.call] at h
    split at h
    · cases h
    · obtain rfl := Except.ok.inj h
      intro metric hmetric
      rcases List.mem_append.mp hmetric with hold | hnew
      · exact hregistry metric hold
      · rw [List.mem_singleton.mp hnew]
        exact ⟨hc, fun s hs => absurd hs List.not_mem_nil⟩
  | inc name labels amount => exact hregistry.onMetric (Metric.IsClean.update hc) h
  | set name value labels => exact hregistry.onMetric (Metric.IsClean.update hc) h
  | observe name value labels => exact hregistry.onMetric (Metric.IsClean.update hc) h

/-- Clean calls keep a registry clean. -/
theorem Registry.IsClean.run {strict : Bool} {registry : Registry N} {calls : List (Call N)}
    (hregistry : registry.IsClean arithmetic) (hcalls : ∀ c ∈ calls, c.IsClean arithmetic) :
    (Observability.run arithmetic strict registry calls).IsClean arithmetic := by
  induction calls generalizing registry with
  | nil => exact hregistry
  | cons c calls ih =>
    obtain ⟨hc, hcalls⟩ := List.forall_mem_cons.mp hcalls
    have hnext : ((Observability.call arithmetic strict registry c).toOption.getD registry).IsClean arithmetic := by
      cases hcall : Observability.call arithmetic strict registry c with
      | error error => exact hregistry
      | ok changed => exact hregistry.call hc hcall
    exact ih hnext hcalls

/-- The labels of a series are its values. -/
theorem not_identifierShape_of_seriesLabels {labelNames values : List String} {label : String × String}
    (hvalues : ∀ v ∈ values, ¬IdentifierShape (escapeLabelValue v)) (h : label ∈ seriesLabels labelNames values) :
    ¬IdentifierShape (escapeLabelValue label.2) := by
  obtain ⟨n, -, rfl⟩ := List.mem_map.mp h
  rw [List.getD_eq_getElem?_getD]
  cases hvalue : values[n.2]? with
  | none => exact not_identifierShape_empty
  | some value => exact hvalues value (List.mem_of_getElem? hvalue)

/-- No label of a clean metric is an identifier. -/
theorem Metric.IsClean.not_identifierShape {metric : Metric N} {s : Sample} {label : String × String}
    (hmetric : metric.IsClean arithmetic) (hs : s ∈ samples arithmetic metric) (hlabel : label ∈ s.labels) :
    ¬IdentifierShape (escapeLabelValue label.2) := by
  obtain ⟨series, hseries, hs⟩ := List.mem_flatMap.mp hs
  have hvalues := hmetric.series series hseries
  have hbound : ∀ {le : String}, ¬IdentifierShape (escapeLabelValue le) →
      ∀ v ∈ series.values ++ [le], ¬IdentifierShape (escapeLabelValue v) := by
    intro le hle v hv
    rcases List.mem_append.mp hv with hv | hv
    · exact hvalues v hv
    · rw [List.mem_singleton.mp hv]
      exact hle
  have hinfinity : ¬IdentifierShape (escapeLabelValue "+Inf") := not_identifierShape_of_short (by decide)
  have htype := hmetric.type
  unfold exposeSeries at hs
  split at hs
  · rename_i buckets counts sum count hhistogram hstate
    rw [hhistogram] at htype
    rcases List.mem_append.mp hs with hbucket | hrest
    -- a bucket has the text of its bound
    · rw [← List.map_uncurry_zip_eq_zipWith] at hbucket
      obtain ⟨⟨b, n⟩, hbn, rfl⟩ := List.mem_map.mp hbucket
      have hb : b ∈ buckets := (List.of_mem_zip hbn).1
      exact not_identifierShape_of_seriesLabels (hbound (htype b hb)) hlabel
    · rcases List.mem_cons.mp hrest with rfl | hrest
      · exact not_identifierShape_of_seriesLabels (hbound hinfinity) hlabel
      · rcases List.mem_cons.mp hrest with rfl | hcount
        · exact not_identifierShape_of_seriesLabels hvalues hlabel
        · rw [List.mem_singleton.mp hcount] at hlabel
          exact not_identifierShape_of_seriesLabels hvalues hlabel
  · rw [List.mem_singleton.mp hs] at hlabel
    exact not_identifierShape_of_seriesLabels hvalues hlabel
  · cases hs

/-- No label value of a clean registry is an identifier. -/
theorem Registry.IsClean.not_hasLabelValue {registry : Registry N} {value : String}
    (hregistry : registry.IsClean arithmetic) (hshape : IdentifierShape value) :
    ¬HasLabelValue arithmetic registry value := by
  rintro ⟨metric, hmetric, s, hs, label, hlabel, rfl⟩
  exact (hregistry metric hmetric).not_identifierShape hs hlabel hshape

/-- **What `unsafeLabelReason` keeps out of the exposition.** The base64url of 16 bytes or more is refused unless it
looks like an enum. Every uuid, every hexadecimal number of 24 digits or more and every text with 16 digits in a row is
refused. After clean calls no label value is any of these. -/
theorem identifiers_refused (arithmetic : Arithmetic N) (strict : Bool) :
    (∀ bs : Bytes, 16 ≤ bs.length → (unsafeLabelReason (toBase64Url bs) ≠ none ↔ ¬LooksLikeEnum bs)) ∧
      (∀ s : String, IsUuidText s ∨ (24 ≤ s.toList.length ∧ HexText s.toList) ∨ HasRun Char.isDigit 16 s.toList →
        unsafeLabelReason s ≠ none) ∧
      ∀ calls : List (Call N), (∀ c ∈ calls, c.IsClean arithmetic) →
        ∀ value, IdentifierShape value → ¬HasLabelValue arithmetic (run arithmetic strict [] calls) value := by
  refine ⟨fun bs h => not_congr (unsafeLabelReason_base64Url h), ?_, ?_⟩
  · rintro s (huuid | ⟨hlength, hhex⟩ | hdigits)
    · exact unsafeLabelReason_uuid huuid
    · exact unsafeLabelReason_hex hlength hhex
    · exact unsafeLabelReason_digits hdigits
  · intro calls hcalls value hshape
    have hempty : Registry.IsClean arithmetic [] := fun metric hmetric => absurd hmetric List.not_mem_nil
    have hrun : (run arithmetic strict [] calls).IsClean arithmetic := hempty.run hcalls
    exact hrun.not_hasLabelValue hshape

end Calls

/-- Counts are natural numbers. -/
def counting : Arithmetic ℕ where
  zero := 0
  one := 1
  add := Nat.add
  le := Nat.ble
  isInteger _ := true
  rounded n := n
  text n := toString n

/-- A counter with one label, increased once. -/
def countOne (value : String) : List (Call ℕ) :=
  [.register .counter "sdid_requests_total" "Requests" ["outcome"],
    .inc "sdid_requests_total" (fun name => if name = "outcome" then some value else none) 1]

/-- A value that passes stands in the exposition. -/
theorem hasLabelValue_countOne {value : String} (hsafe : unsafeLabelReason value = none) :
    HasLabelValue counting (run counting false [] (countOne value)) value := by
  have hsanitized : sanitizeLabelValue "sdid_requests_total" "outcome" value false = .ok value := by
    unfold sanitizeLabelValue
    rw [hsafe]
  have hvalues : labelValues "sdid_requests_total" (fun name => if name = "outcome" then some value else none) false
      ["outcome"] = .ok [value] := by
    simp only [labelValues, if_true, Option.getD_some, hsanitized]
    rfl
  have hrun : run counting false [] (countOne value) =
      [⟨.counter, "sdid_requests_total", "Requests", ["outcome"],
        [⟨String.intercalate "\x00" [value], [value], .value 1⟩], 0⟩] := by
    simp only [run, countOne, List.foldl_cons, List.foldl_nil, call, List.not_mem_nil, false_and, exists_false, if_false]
    simp only [Except.toOption, Option.getD_some, List.nil_append, onMetric, takesInc, and_self, if_true, update, hvalues]
    rfl
  rw [hrun]
  exact ⟨_, List.mem_singleton_self _, _, List.mem_singleton_self _, _, List.mem_singleton_self _,
    escapeLabelValue_of_safe hsafe⟩

theorem identifiers_refused_countOne :
    ¬HasLabelValue counting (run counting false [] (countOne "timeout"))
      "3f2a9c10-77de-4b1c-9d20-5e8f61aa0b42" := by
  have huuid : IsUuidText "3f2a9c10-77de-4b1c-9d20-5e8f61aa0b42" :=
    ⟨"3f2a9c10".toList, "77de".toList, "4b1c".toList, "9d20".toList, "5e8f61aa0b42".toList, by decide, by decide,
      by decide, by decide, by decide, by decide, by decide⟩
  have hshort : ¬IdentifierShape "timeout" := not_identifierShape_of_short (by decide)
  refine (identifiers_refused counting false).2.2 _ ?_ _ (.uuid huuid)
  intro c hc
  rcases List.mem_cons.mp hc with rfl | hc
  · exact trivial
  · obtain rfl := List.mem_singleton.mp hc
    intro name value hlabel bs hlength hvalue
    dsimp only at hlabel
    by_cases hname : name = "outcome"
    · rw [if_pos hname, Option.some.injEq] at hlabel
      rw [hlabel, hvalue] at hshort
      exact absurd (.base64Url hlength) hshort
    · rw [if_neg hname] at hlabel
      cases hlabel

/-- The base64url of this nonce has hyphens, and passes for an enum. -/
def hyphenNonce : Bytes :=
  [0xf8, 0x12, 0x7b, 0x9e, 0x03, 0xc4, 0x5a, 0xd1, 0x66, 0xe7, 0x2f, 0x88, 0x4b, 0xbe, 0x90, 0x35]

theorem not_identifiers_refused :
    (¬∀ bs : Bytes, 16 ≤ bs.length → unsafeLabelReason (toBase64Url bs) ≠ none) ∧
      ¬∀ (calls : List (Call ℕ)) (bs : Bytes), 16 ≤ bs.length →
        ¬HasLabelValue counting (run counting false [] calls) (toBase64Url bs) := by
  have htext : toBase64Url hyphenNonce = "-BJ7ngPEWtFm5y-IS76QNQ" := by decide
  have hsafe : unsafeLabelReason "-BJ7ngPEWtFm5y-IS76QNQ" = none := by decide
  refine ⟨fun h => h hyphenNonce (by decide) (htext ▸ hsafe), fun h => ?_⟩
  apply h (countOne "-BJ7ngPEWtFm5y-IS76QNQ") hyphenNonce (by decide)
  rw [htext]
  exact hasLabelValue_countOne hsafe

end SdidBridge.Observability
