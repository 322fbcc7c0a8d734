import Mathlib.Algebra.Order.Ring.Rat
import SdidBridge.Observability.Registry
import SdidBridge.Shared.Capped

/-!
# The accounts of a metric family

What the calls `inc` and `observe` leave in the families of a registry that is not strict, with rational sample values.
A family is a table with a ceiling: its keys are the joined label values of the calls, and each state is the tally of the
calls under its key (`families_account`). No label value that passes has the character that joins them, so that the
series of two calls are the same exactly when their label values are (`keyOf_eq_iff`).
-/

namespace SdidBridge.Observability

open Shared

/-! ## Rational sample values -/

/-- The arithmetic of rational numbers. How they are rounded and printed is left open. -/
def rationals (rounded : ℚ → ℚ) (text : ℚ → String) : Arithmetic ℚ where
  zero := 0
  one := 1
  add := (· + ·)
  le a b := decide (a ≤ b)
  isInteger q := q.den == 1
  rounded
  text

/-! ## Calls of a family -/

/-- A call that adds a sample: `inc` with an amount, or `observe` with a value. -/
inductive SampleCall where
  | inc (name : String) (labels : Labels) (amount : ℚ)
  | observe (name : String) (value : ℚ) (labels : Labels)

namespace SampleCall

/-- The call of the registry. -/
def call : SampleCall → Call ℚ
  | .inc name labels amount => .inc name labels amount
  | .observe name value labels => .observe name value labels

/-- The name of the family that is called. -/
def name : SampleCall → String
  | .inc name _ _ => name
  | .observe name _ _ => name

def labels : SampleCall → Labels
  | .inc _ labels _ => labels
  | .observe _ _ labels => labels

/-- The amount, or the value that is observed. -/
def value : SampleCall → ℚ
  | .inc _ _ amount => amount
  | .observe _ value _ => value

/-- The classes that have the method. -/
def takes : SampleCall → Takes ℚ
  | .inc _ _ _ => takesInc
  | .observe _ _ _ => takesObserve

/-- A call of this family. -/
def Concerns (c : SampleCall) (metric : Metric ℚ) : Prop := metric.name = c.name ∧ c.takes metric.type = true

instance (c : SampleCall) (metric : Metric ℚ) : Decidable (c.Concerns metric) := inferInstanceAs (Decidable (_ ∧ _))

/-- What a call does to the state of its series. -/
def change (c : SampleCall) (arithmetic : Arithmetic ℚ) (metric : Metric ℚ) : SeriesState ℚ → SeriesState ℚ :=
  match c with
  | .inc _ _ amount => addAmount arithmetic amount
  | .observe _ value _ => observeValue arithmetic metric value

end SampleCall

/-! ## Keys -/

/-- The value of a label as the family keeps it, when it is not strict. -/
def sanitized (value : String) : String := if unsafeLabelReason value = none then value else REJECTED_LABEL_VALUE

/-- The sanitised values of the labels `names`. -/
def sanitizedValues (labels : Labels) (names : List String) : List String :=
  names.map fun name => sanitized ((labels name).getD "")

/-- The key of the series that a call is counted in. -/
def Metric.keyOf (metric : Metric ℚ) (labels : Labels) : String :=
  String.intercalate "\x00" (sanitizedValues labels metric.labelNames)

theorem sanitizeLabelValue_lenient (metric label value : String) :
    sanitizeLabelValue metric label value false = .ok (sanitized value) := by
  unfold sanitizeLabelValue sanitized
  cases unsafeLabelReason value <;> rfl

theorem labelValues_lenient (metric : String) (labels : Labels) (names : List String) :
    labelValues metric labels false names = .ok (sanitizedValues labels names) := by
  induction names with
  | nil => rfl
  | cons name names ih =>
    rw [labelValues, sanitizeLabelValue_lenient, ih]
    rfl

/-- No value that is kept has the character that joins them. -/
theorem nul_notMem_sanitized (value : String) : '\x00' ∉ (sanitized value).toList := by
  unfold sanitized
  split_ifs with hsafe
  · by_cases hempty : value = ""
    · rw [hempty]
      exact List.not_mem_nil
    · intro hnul
      have hallowed := ((unsafeLabelReason_eq_none hempty).mp hsafe).2.1 _ hnul
      exact absurd hallowed (by decide)
  · decide

/-- Values of the same labels are told apart by their key. -/
theorem intercalate_inj {xs ys : List String} (hlength : xs.length = ys.length)
    (hxs : ∀ x ∈ xs, '\x00' ∉ x.toList) (hys : ∀ y ∈ ys, '\x00' ∉ y.toList)
    (h : String.intercalate "\x00" xs = String.intercalate "\x00" ys) : xs = ys := by
  have hsplit : ∀ {zs : List String}, (∀ z ∈ zs, '\x00' ∉ z.toList) → zs ≠ [] →
      (String.intercalate "\x00" zs).toList.splitOn '\x00' = zs.map String.toList := by
    intro zs hzs hne
    rw [String.toList_intercalate]
    refine List.splitOn_intercalate '\x00' (fun l hl => ?_) (by simpa using hne)
    obtain ⟨z, hz, rfl⟩ := List.mem_map.mp hl
    exact hzs z hz
  by_cases hnil : xs = []
  · rw [hnil, List.length_nil] at hlength
    rw [hnil, List.length_eq_zero_iff.mp hlength.symm]
  · have hnil' : ys ≠ [] := by
      intro hy
      rw [hy, List.length_nil] at hlength
      exact hnil (List.length_eq_zero_iff.mp hlength)
    have hlists := hsplit hxs hnil
    rw [h, hsplit hys hnil'] at hlists
    exact (List.map_injective_iff.mpr (fun _ _ => String.toList_inj.mp) hlists).symm

/-- Two calls are of one series exactly when their sanitised values are the same. -/
theorem Metric.keyOf_eq_iff (metric : Metric ℚ) (labels labels' : Labels) :
    metric.keyOf labels = metric.keyOf labels' ↔
      sanitizedValues labels metric.labelNames = sanitizedValues labels' metric.labelNames := by
  have hclean : ∀ labels : Labels, ∀ v ∈ sanitizedValues labels metric.labelNames, '\x00' ∉ v.toList := by
    intro labels v hv
    obtain ⟨name, -, rfl⟩ := List.mem_map.mp hv
    exact nul_notMem_sanitized _
  have hlength : (sanitizedValues labels metric.labelNames).length =
      (sanitizedValues labels' metric.labelNames).length := by
    unfold sanitizedValues
    rw [List.length_map, List.length_map]
  refine ⟨intercalate_inj hlength (hclean labels) (hclean labels'), fun h => ?_⟩
  unfold Metric.keyOf
  rw [h]

/-! ## One family -/

section Family

variable {rounded : ℚ → ℚ} {text : ℚ → String}

/-- A family after a call. -/
def Metric.after (arithmetic : Arithmetic ℚ) (metric : Metric ℚ) (c : SampleCall) : Metric ℚ :=
  if c.Concerns metric then
    (update arithmetic false c.labels (c.change arithmetic metric) metric).toOption.getD metric
  else metric

/-- The state that the samples of a series make up. -/
def tally (type : MetricType ℚ) (values : List ℚ) : SeriesState ℚ :=
  match type with
  | .histogram buckets => .histogram (buckets.map fun b => values.countP (· ≤ b)) values.sum values.length
  | _ => .value values.sum

/-- A family as a table of the states of its series. -/
def Metric.table (metric : Metric ℚ) : Capped String (SeriesState ℚ) where
  entries := metric.series.map fun s => (s.key, s.state)
  dropped := metric.droppedSeries

@[simp] theorem Metric.keys_table (metric : Metric ℚ) : metric.table.keys = metric.series.map Series.key := by
  unfold Metric.table Capped.keys
  rw [List.map_map]
  rfl

/-- A call without a refused label, in three cases. -/
theorem update_lenient (arithmetic : Arithmetic ℚ) (labels : Labels) (f : SeriesState ℚ → SeriesState ℚ)
    (metric : Metric ℚ) :
    update arithmetic false labels f metric = .ok
      (if metric.keyOf labels ∈ metric.series.map Series.key then
        { metric with series := changeSeries (metric.keyOf labels) f metric.series }
      else if MAX_SERIES_PER_METRIC ≤ metric.series.length then
        { metric with droppedSeries := metric.droppedSeries + 1 }
      else { metric with series := metric.series ++
        [⟨metric.keyOf labels, sanitizedValues labels metric.labelNames, f (newState arithmetic metric)⟩] }) := by
  have hmem : (∃ s ∈ metric.series, s.key = metric.keyOf labels) ↔
      metric.keyOf labels ∈ metric.series.map Series.key := List.mem_map.symm
  have hkey : String.intercalate "\x00" (sanitizedValues labels metric.labelNames) = metric.keyOf labels := rfl
  unfold update
  rw [labelValues_lenient]
  show (if ∃ s ∈ metric.series, s.key = metric.keyOf labels then _ else _) = _
  by_cases hthere : metric.keyOf labels ∈ metric.series.map Series.key
  · rw [if_pos (hmem.mpr hthere), if_pos hthere]
    rfl
  · rw [if_neg (fun h => hthere (hmem.mp h)), if_neg hthere]
    by_cases hfull : MAX_SERIES_PER_METRIC ≤ metric.series.length
    · rw [if_pos hfull, if_pos hfull]
      rfl
    · rw [if_neg hfull, if_neg hfull]
      rfl

/-- A call that the class of a family has adds its value to the tally. -/
theorem SampleCall.change_tally {metric : Metric ℚ} {c : SampleCall} (h : c.Concerns metric) (values : List ℚ) :
    c.change (rationals rounded text) metric (tally metric.type values) = tally metric.type (values ++ [c.value]) := by
  obtain ⟨-, htakes⟩ := h
  have hsum : ∀ value : ℚ, values.sum + value = (values ++ [value]).sum := by
    intro value
    rw [List.sum_append, List.sum_singleton]
  cases c with
  | inc name labels amount =>
    cases htype : metric.type with
    | counter => exact congrArg SeriesState.value (hsum amount)
    | gauge => exact congrArg SeriesState.value (hsum amount)
    | histogram buckets =>
      rw [htype] at htakes
      cases htakes
  | observe name value labels =>
    cases htype : metric.type with
    | counter =>
      rw [htype] at htakes
      cases htakes
    | gauge =>
      rw [htype] at htakes
      cases htakes
    | histogram buckets =>
      have hcounts : List.zipWith (fun bound n => if decide (value ≤ bound) then n + 1 else n) buckets
          (buckets.map fun b => values.countP (· ≤ b)) = buckets.map fun b => (values ++ [value]).countP (· ≤ b) := by
        rw [List.zipWith_map_right, List.zipWith_self]
        refine List.map_congr_left fun b _ => ?_
        rw [List.countP_append, List.countP_singleton]
        split_ifs <;> rfl
      show observeValue (rationals rounded text) metric value (.histogram _ values.sum values.length) = _
      unfold observeValue
      rw [htype]
      show SeriesState.histogram (List.zipWith (fun bound n => if decide (value ≤ bound) then n + 1 else n) buckets _)
        (values.sum + value) (values.length + 1) = _
      rw [hsum, hcounts, ← List.length_singleton (a := value), ← List.length_append]
      rfl

/-- The state of a series is the tally of its calls. -/
theorem foldl_change {metric : Metric ℚ} {cs : List SampleCall} (h : ∀ c ∈ cs, c.Concerns metric) :
    cs.foldl (fun s c => c.change (rationals rounded text) metric s) (newState (rationals rounded text) metric) =
      tally metric.type (cs.map SampleCall.value) := by
  induction cs using List.reverseRecOn with
  | nil =>
    unfold newState tally
    cases metric.type <;> rfl
  | append_singleton cs c ih =>
    have hc : c.Concerns metric := h c (List.mem_append_right _ List.mem_cons_self)
    rw [List.foldl_append, ih fun c hc => h c (List.mem_append_left _ hc), List.map_append]
    exact SampleCall.change_tally hc _

variable {metric : Metric ℚ} {c : SampleCall}

/-- A call of a family does to its table what a record does. -/
theorem Metric.table_after (arithmetic : Arithmetic ℚ) (h : c.Concerns metric) :
    (metric.after arithmetic c).table = metric.table.record MAX_SERIES_PER_METRIC (newState arithmetic metric)
      (metric.keyOf c.labels) (c.change arithmetic metric) := by
  have hlength : metric.table.entries.length = metric.series.length := List.length_map _
  unfold Metric.after
  rw [if_pos h, update_lenient]
  unfold Capped.record
  rw [Metric.keys_table, hlength]
  show (ite _ _ _ : Metric ℚ).table = _
  by_cases hthere : metric.keyOf c.labels ∈ metric.series.map Series.key
  · rw [if_pos hthere, if_pos hthere]
    unfold Metric.table Capped.change changeSeries
    rw [List.map_map, List.map_map]
    congr 1
    refine List.map_congr_left fun s _ => ?_
    show ((if s.key = _ then _ else s : Series ℚ).key, _) = _
    by_cases hkey : s.key = metric.keyOf c.labels
    · simp only [Function.comp_apply, hkey, if_true]
    · simp only [Function.comp_apply, hkey, if_false]
  · rw [if_neg hthere, if_neg hthere]
    by_cases hfull : MAX_SERIES_PER_METRIC ≤ metric.series.length
    · rw [if_pos hfull, if_pos hfull]
      rfl
    · rw [if_neg hfull, if_neg hfull]
      unfold Metric.table
      rw [List.map_append]
      rfl

/-- A call leaves a family its class, its name and its labels, and its series theirs. -/
theorem Metric.after_same (arithmetic : Arithmetic ℚ) (metric : Metric ℚ) (c : SampleCall) :
    ∃ series dropped, metric.after arithmetic c = { metric with series := series, droppedSeries := dropped } ∧
      ∀ s ∈ series, (∃ old ∈ metric.series, s.key = old.key ∧ s.values = old.values) ∨
        (s.key = metric.keyOf c.labels ∧ s.values = sanitizedValues c.labels metric.labelNames) := by
  have hold : ∀ s ∈ metric.series, (∃ old ∈ metric.series, s.key = old.key ∧ s.values = old.values) ∨
      (s.key = metric.keyOf c.labels ∧ s.values = sanitizedValues c.labels metric.labelNames) :=
    fun s hs => .inl ⟨s, hs, rfl, rfl⟩
  unfold Metric.after
  split_ifs with hconcerns
  · rw [update_lenient]
    show ∃ series dropped, (ite _ _ _ : Metric ℚ) = _ ∧ _
    split_ifs with hthere hfull
    · refine ⟨_, _, rfl, fun s hs => .inl ?_⟩
      obtain ⟨old, hmem, rfl⟩ := List.mem_map.mp hs
      refine ⟨old, hmem, ?_⟩
      split_ifs <;> exact ⟨rfl, rfl⟩
    · exact ⟨_, _, rfl, hold⟩
    · refine ⟨_, _, rfl, fun s hs => ?_⟩
      rcases List.mem_append.mp hs with hs | hs
      · exact hold s hs
      · rw [List.mem_singleton.mp hs]
        exact .inr ⟨rfl, rfl⟩
  · exact ⟨_, _, rfl, hold⟩

/-- A family without series. -/
structure Metric.Fresh (metric : Metric ℚ) : Prop where
  series : metric.series = []
  dropped : metric.droppedSeries = 0

/-- A family after calls. -/
def Metric.afterAll (arithmetic : Arithmetic ℚ) (metric : Metric ℚ) (cs : List SampleCall) : Metric ℚ :=
  cs.foldl (Metric.after arithmetic) metric

/-- The calls among `cs` of a family. -/
def Metric.calls (metric : Metric ℚ) (cs : List SampleCall) : List SampleCall := cs.filter (·.Concerns metric)

/-- What calls make of a fresh family: its table accounts for those of the family, and each series has the values that
its key joins. -/
theorem Metric.Fresh.afterAll (rounded : ℚ → ℚ) (text : ℚ → String) (h : metric.Fresh) (cs : List SampleCall) :
    ∃ series dropped,
      metric.afterAll (rationals rounded text) cs = { metric with series := series, droppedSeries := dropped } ∧
        Capped.Accounts MAX_SERIES_PER_METRIC (newState (rationals rounded text) metric)
          (fun c => metric.keyOf c.labels) (fun c => c.change (rationals rounded text) metric) (metric.calls cs)
          (metric.afterAll (rationals rounded text) cs).table ∧
          ∀ s ∈ series, ∃ labels, s.key = metric.keyOf labels ∧ s.values = sanitizedValues labels metric.labelNames := by
  induction cs using List.reverseRecOn with
  | nil =>
    have htable : (metric.afterAll (rationals rounded text) []).table = ⟨[], 0⟩ := by
      show metric.table = _
      unfold Metric.table
      rw [h.series, h.dropped]
      rfl
    refine ⟨metric.series, metric.droppedSeries, rfl, htable ▸ Capped.accounts_nil, fun s hs => ?_⟩
    rw [h.series] at hs
    cases hs
  | append_singleton cs c ih =>
    obtain ⟨series, dropped, hmetric, haccounts, hlabelled⟩ := ih
    have hlast : metric.afterAll (rationals rounded text) (cs ++ [c]) =
        (metric.afterAll (rationals rounded text) cs).after (rationals rounded text) c := by
      unfold Metric.afterAll
      rw [List.foldl_append]
      rfl
    obtain ⟨series', dropped', hafter, hnew⟩ :=
      (metric.afterAll (rationals rounded text) cs).after_same (rationals rounded text) c
    rw [hlast]
    refine ⟨series', dropped', by rw [hafter, hmetric], ?_, fun s hs => ?_⟩
    · by_cases hc : c.Concerns metric
      · have hcalls : metric.calls (cs ++ [c]) = metric.calls cs ++ [c] := by
          unfold Metric.calls
          rw [List.filter_append, List.filter_singleton, decide_eq_true hc, cond_true]
        have hconcerns : c.Concerns (metric.afterAll (rationals rounded text) cs) := by
          rw [hmetric]
          exact hc
        rw [hcalls, Metric.table_after _ hconcerns]
        have hrecord := Capped.accounts_record haccounts c
        rw [hmetric] at hrecord ⊢
        exact hrecord
      · have hcalls : metric.calls (cs ++ [c]) = metric.calls cs := by
          unfold Metric.calls
          rw [List.filter_append, List.filter_singleton, decide_eq_false hc, cond_false, List.append_nil]
        have hother : ¬c.Concerns (metric.afterAll (rationals rounded text) cs) := by
          rw [hmetric]
          exact hc
        have hsame : (metric.afterAll (rationals rounded text) cs).after (rationals rounded text) c =
            metric.afterAll (rationals rounded text) cs := if_neg hother
        rw [hcalls, hsame]
        exact haccounts
    · rw [hmetric] at hnew
      rcases hnew s hs with ⟨old, hold, hkey, hvalues⟩ | ⟨hkey, hvalues⟩
      · obtain ⟨labels, hkeyOf, hsanitized⟩ := hlabelled old hold
        exact ⟨labels, hkey.trans hkeyOf, hvalues.trans hsanitized⟩
      · exact ⟨c.labels, hkey, hvalues⟩

/-- The samples of the calls of a series. -/
def Metric.observations (metric : Metric ℚ) (cs : List SampleCall) (s : Series ℚ) : List ℚ :=
  ((metric.calls cs).filter fun c => metric.keyOf c.labels = s.key).map SampleCall.value

/-- A family accounts for calls: it has no more series than it may, each call is in the one series of its label values
or was dropped, and calls share a series exactly when their label values are the same. -/
structure Metric.Accounted (metric : Metric ℚ) (cs : List SampleCall) : Prop where
  bounded : metric.series.length ≤ MAX_SERIES_PER_METRIC
  distinct : (metric.series.map Series.key).Nodup
  tallied : ∀ s ∈ metric.series, s.state = tally metric.type (metric.observations cs s)
  dropped : metric.droppedSeries = (metric.calls cs).countP fun c => metric.keyOf c.labels ∉ metric.series.map Series.key
  labelled : ∀ s ∈ metric.series, ∀ labels,
    metric.keyOf labels = s.key ↔ sanitizedValues labels metric.labelNames = s.values
  shared : ∀ labels labels', metric.keyOf labels = metric.keyOf labels' ↔
    sanitizedValues labels metric.labelNames = sanitizedValues labels' metric.labelNames

/-- A family without series accounts for calls. -/
theorem Metric.Fresh.accounted (h : metric.Fresh) (cs : List SampleCall) :
    (metric.afterAll (rationals rounded text) cs).Accounted cs := by
  obtain ⟨series, dropped, hmetric, haccounts, hlabelled⟩ := h.afterAll rounded text cs
  rw [hmetric] at haccounts ⊢
  refine ⟨?_, ?_, fun s hs => ?_, ?_, fun s hs labels => ?_, fun labels labels' => metric.keyOf_eq_iff labels labels'⟩
  · have hbounded := haccounts.bounded
    unfold Metric.table at hbounded
    rwa [List.length_map] at hbounded
  · have hnodup := haccounts.nodup
    rwa [Metric.keys_table] at hnodup
  · have hstate := haccounts.states (s.key, s.state) (List.mem_map_of_mem hs)
    have hconcerns : ∀ c ∈ (metric.calls cs).filter (fun c => metric.keyOf c.labels = s.key), c.Concerns metric := by
      intro c hc
      exact of_decide_eq_true (List.mem_filter.mp (List.mem_filter.mp hc).1).2
    exact hstate.trans (foldl_change hconcerns)
  · have hdropped := haccounts.dropped
    rw [Metric.keys_table] at hdropped
    exact hdropped
  · obtain ⟨own, hkey, hvalues⟩ := hlabelled s hs
    rw [hkey, hvalues]
    exact metric.keyOf_eq_iff labels own

/-! ## The exposition of a histogram -/

/-- How many samples are at most each bound. -/
def cumulative (buckets values : List ℚ) : List ℕ := buckets.map fun b => values.countP (· ≤ b)

/-- Counts of samples up to ascending bounds do not decrease, and all samples are at least as many. -/
theorem cumulative_ascending {buckets : List ℚ} (h : buckets.Pairwise (· ≤ ·)) (values : List ℚ) :
    (cumulative buckets values ++ [values.length]).Pairwise (· ≤ ·) := by
  refine List.pairwise_append.mpr ⟨?_, List.pairwise_singleton _ _, fun n hn m hm => ?_⟩
  · refine List.pairwise_map.mpr (h.imp fun hle => List.countP_mono_left fun v _ hv => ?_)
    rw [decide_eq_true_eq] at hv ⊢
    exact hv.trans hle
  · obtain ⟨b, -, rfl⟩ := List.mem_map.mp hn
    rw [List.mem_singleton.mp hm]
    exact List.countP_le_length

/-- The line of a bucket. -/
def bucketSample (metric : Metric ℚ) (s : Series ℚ) (le : String) (count : ℕ) : Sample where
  name := metric.name ++ "_bucket"
  labels := seriesLabels (metric.labelNames ++ ["le"]) (s.values ++ [le])
  value := toString count

/-- What a histogram shows of a series whose state is the tally of samples: the counts up to each bound, and the count
of all samples in the bucket `+Inf` and as the count. -/
theorem exposeSeries_histogram {buckets values : List ℚ} {s : Series ℚ} (htype : metric.type = .histogram buckets)
    (hstate : s.state = tally metric.type values) :
    exposeSeries (rationals rounded text) metric s =
      List.zipWith (fun b n => bucketSample metric s (text b) n) buckets (cumulative buckets values) ++
        [bucketSample metric s "+Inf" values.length,
          ⟨metric.name ++ "_sum", seriesLabels metric.labelNames s.values,
            formatValue (rationals rounded text) values.sum⟩,
          ⟨metric.name ++ "_count", seriesLabels metric.labelNames s.values, toString values.length⟩] := by
  rw [htype] at hstate
  unfold exposeSeries
  rw [htype, hstate]
  rfl

end Family

/-! ## The registry -/

/-- A registration of a family. -/
structure Registration where
  type : MetricType ℚ
  name : String
  help : String
  labelNames : List String

/-- The call of the registry. -/
def Registration.call (r : Registration) : Call ℚ := .register r.type r.name r.help r.labelNames

section Registries

variable {arithmetic : Arithmetic ℚ}

/-- A call by name changes the family of that name alone. -/
theorem onMetric_eq {name : String} {takes : Takes ℚ} {f : Metric ℚ → Except RegistryError (Metric ℚ)}
    {g : Metric ℚ → Metric ℚ} (hf : ∀ metric, f metric = .ok (g metric)) {registry : Registry ℚ}
    (hnames : (registry.map Metric.name).Nodup) :
    onMetric name takes f registry =
      .ok (registry.map fun metric => if metric.name = name ∧ takes metric.type = true then g metric else metric) := by
  induction registry with
  | nil => rfl
  | cons metric rest ih =>
    obtain ⟨hnone, hrest⟩ := List.nodup_cons.mp hnames
    unfold onMetric
    by_cases hname : metric.name = name ∧ takes metric.type = true
    · have hothers : (rest.map fun other => if other.name = name ∧ takes other.type = true then g other else other) =
          rest := by
        refine (List.map_congr_left fun other hother => if_neg fun hsame => ?_).trans (List.map_id rest)
        apply hnone
        rw [hname.1, ← hsame.1]
        exact List.mem_map_of_mem hother
      rw [if_pos hname, hf, List.map_cons, if_pos hname, hothers]
      rfl
    · rw [if_neg hname, ih hrest, List.map_cons, if_neg hname]
      rfl

/-- A call changes each family as if it were alone. -/
theorem call_eq {registry : Registry ℚ} (c : SampleCall) (hnames : (registry.map Metric.name).Nodup) :
    call arithmetic false registry c.call = .ok (registry.map fun metric => metric.after arithmetic c) := by
  have hf : ∀ metric, update arithmetic false c.labels (c.change arithmetic metric) metric =
      .ok ((update arithmetic false c.labels (c.change arithmetic metric) metric).toOption.getD metric) := by
    intro metric
    rw [update_lenient]
    rfl
  cases c with
  | inc name labels amount => exact onMetric_eq hf hnames
  | observe name value labels => exact onMetric_eq hf hnames

/-- Calls change each family as if it were alone. -/
theorem run_eq (arithmetic : Arithmetic ℚ) {registry : Registry ℚ} (hnames : (registry.map Metric.name).Nodup) (cs : List SampleCall) :
    run arithmetic false registry (cs.map SampleCall.call) =
      registry.map fun metric => metric.afterAll arithmetic cs := by
  induction cs generalizing registry with
  | nil => exact (List.map_id registry).symm
  | cons c cs ih =>
    have hsame : (registry.map fun metric => metric.after arithmetic c).map Metric.name = registry.map Metric.name := by
      rw [List.map_map]
      refine List.map_congr_left fun metric _ => ?_
      obtain ⟨series, dropped, hafter, -⟩ := metric.after_same arithmetic c
      show (metric.after arithmetic c).name = metric.name
      rw [hafter]
    show run arithmetic false ((call arithmetic false registry c.call).toOption.getD registry) _ = _
    rw [call_eq c hnames]
    show run arithmetic false (registry.map fun metric => metric.after arithmetic c) _ = _
    rw [ih (by rw [hsame]; exact hnames), List.map_map]
    rfl

/-- Registrations make fresh families of different names. -/
theorem fresh_of_registrations (arithmetic : Arithmetic ℚ) (rs : List Registration) :
    ((run arithmetic false [] (rs.map Registration.call)).map Metric.name).Nodup ∧
      ∀ metric ∈ run arithmetic false [] (rs.map Registration.call), metric.Fresh := by
  induction rs using List.reverseRecOn with
  | nil => exact ⟨List.nodup_nil, fun metric hmetric => absurd hmetric List.not_mem_nil⟩
  | append_singleton rs r ih =>
    have hlast : run arithmetic false [] ((rs ++ [r]).map Registration.call) =
        (call arithmetic false (run arithmetic false [] (rs.map Registration.call)) r.call).toOption.getD
          (run arithmetic false [] (rs.map Registration.call)) := by
      unfold run
      rw [List.map_append, List.foldl_append]
      rfl
    rw [hlast]
    generalize run arithmetic false [] (rs.map Registration.call) = registry at ih ⊢
    obtain ⟨hnames, hfresh⟩ := ih
    show ((Except.toOption (ite _ _ _)).getD registry |>.map Metric.name).Nodup ∧
      ∀ metric ∈ (Except.toOption (ite _ _ _)).getD registry, metric.Fresh
    by_cases htaken : ∃ metric ∈ registry, metric.name = r.name
    · rw [if_pos htaken]
      exact ⟨hnames, hfresh⟩
    · rw [if_neg htaken]
      constructor
      · show ((registry ++ [_]).map Metric.name).Nodup
        rw [List.map_append]
        refine hnames.append (List.nodup_singleton _) (List.disjoint_singleton.mpr fun hmem => ?_)
        obtain ⟨metric, hmetric, hname⟩ := List.mem_map.mp hmem
        exact htaken ⟨metric, hmetric, hname⟩
      · intro metric hmetric
        rcases List.mem_append.mp hmetric with hmetric | hmetric
        · exact hfresh metric hmetric
        · rw [List.mem_singleton.mp hmetric]
          exact ⟨rfl, rfl⟩

end Registries

/-- **The families of a registry account for their calls.** After any registrations and any calls of `inc` and `observe`,
each family has at most so many series as it may, and each call is in the one series of its sanitised label values or is
counted as dropped. A histogram shows the number of samples up to each bound and of all samples, which do not decrease
when the bounds ascend. -/
theorem families_account (rounded : ℚ → ℚ) (text : ℚ → String) (registrations : List Registration)
    (cs : List SampleCall) :
    ∀ metric ∈ run (rationals rounded text) false []
        (registrations.map Registration.call ++ cs.map SampleCall.call),
      metric.Accounted cs ∧
        ∀ buckets, metric.type = .histogram buckets → ∀ s ∈ metric.series,
          exposeSeries (rationals rounded text) metric s =
            List.zipWith (fun b n => bucketSample metric s (text b) n) buckets
                (cumulative buckets (metric.observations cs s)) ++
              [bucketSample metric s "+Inf" (metric.observations cs s).length,
                ⟨metric.name ++ "_sum", seriesLabels metric.labelNames s.values,
                  formatValue (rationals rounded text) (metric.observations cs s).sum⟩,
                ⟨metric.name ++ "_count", seriesLabels metric.labelNames s.values,
                  toString (metric.observations cs s).length⟩] ∧
            (buckets.Pairwise (· ≤ ·) →
              (cumulative buckets (metric.observations cs s) ++ [(metric.observations cs s).length]).Pairwise (· ≤ ·)) := by
  intro metric hmetric
  obtain ⟨hnames, hfresh⟩ := fresh_of_registrations (rationals rounded text) registrations
  have hrun : run (rationals rounded text) false [] (registrations.map Registration.call ++ cs.map SampleCall.call) =
      (run (rationals rounded text) false [] (registrations.map Registration.call)).map fun metric =>
        metric.afterAll (rationals rounded text) cs := by
    rw [← run_eq _ hnames cs]
    exact List.foldl_append
  rw [hrun] at hmetric
  obtain ⟨family, hfamily, rfl⟩ := List.mem_map.mp hmetric
  have haccounted : (family.afterAll (rationals rounded text) cs).Accounted cs := (hfresh family hfamily).accounted cs
  refine ⟨haccounted, fun buckets htype s hs => ?_⟩
  exact ⟨exposeSeries_histogram htype (haccounted.tallied s hs), fun hascending => cumulative_ascending hascending _⟩

/-- A histogram of durations. -/
def sampleHistogram : Registration := ⟨.histogram [1 / 10, 1], "sdid_duration_seconds", "Durations", []⟩

/-- The family that it makes. -/
def sampleFamily : Metric ℚ := ⟨.histogram [1 / 10, 1], "sdid_duration_seconds", "Durations", [], [], 0⟩

/-- The histogram is observed twice. -/
def sampleDurations : List SampleCall :=
  [.observe "sdid_duration_seconds" (1 / 20) fun _ => none, .observe "sdid_duration_seconds" 3 fun _ => none]

theorem run_sampleDurations {arithmetic : Arithmetic ℚ} :
    run arithmetic false [] ([sampleHistogram].map Registration.call ++ sampleDurations.map SampleCall.call) =
      [sampleFamily.afterAll arithmetic sampleDurations] := by
  have hfamilies : run arithmetic false [] ([sampleHistogram].map Registration.call) = [sampleFamily] := by
    simp only [run, List.map_cons, List.map_nil, List.foldl_cons, List.foldl_nil, Registration.call, sampleHistogram,
      call, List.not_mem_nil, false_and, exists_false, if_false]
    rfl
  have hnames : ([sampleFamily].map Metric.name).Nodup := List.nodup_singleton _
  have hcalls := run_eq arithmetic hnames sampleDurations
  rw [← hfamilies] at hcalls
  exact List.foldl_append.trans (hcalls.trans (by rw [hfamilies]; rfl))

theorem families_account_sampleDurations :
    ∃ metric ∈ run (rationals id fun _ => "") false []
        ([sampleHistogram].map Registration.call ++ sampleDurations.map SampleCall.call),
      metric.type = .histogram [1 / 10, 1] ∧ metric.Accounted sampleDurations := by
  have hmem := List.mem_singleton_self (sampleFamily.afterAll (rationals id fun _ => "") sampleDurations)
  rw [← run_sampleDurations] at hmem
  refine ⟨_, hmem, ?_, (families_account id (fun _ => "") [sampleHistogram] sampleDurations _ hmem).1⟩
  have hfresh : sampleFamily.Fresh := ⟨rfl, rfl⟩
  obtain ⟨series, dropped, hmetric, -⟩ := hfresh.afterAll id (fun _ => "") sampleDurations
  rw [hmetric]
  rfl

end SdidBridge.Observability
