import SecureGateway.Observability.Cardinality
import SecureGateway.Tools.Exposition

/-!
# What the differ sees

Which series of a scrape `parse_metrics` reads, and that it keeps them apart.
-/
namespace SecureGateway.Tools

open Python

/-- A file with the line of a sample, whose series no later line has again. -/
structure Scrape (s : Sample) where
  before : String
  after : String
  before_whole : WholeLines before
  after_line : AfterLine after
  once : ∀ raw ∈ Python.readLines after, ¬ s.series.toList <+: (strip raw).toList

def Scrape.text {s : Sample} (file : Scrape s) : String := file.before ++ (s.line ++ file.after)

/-- The lines of the samples, one after the other. -/
def expose : List Sample → String
  | [] => ""
  | s :: rest => s.line ++ ("\n" ++ expose rest)

section Files

variable {s : Sample} {samples : List Sample}

theorem foldlM_append_of {table : DigitTable} {a b : List String} {values values' : Values}
    (h : a.foldlM (readLine table) values = some values') :
    (a ++ b).foldlM (readLine table) values = b.foldlM (readLine table) values' := by
  rw [List.foldlM_append, h]
  rfl

theorem line_ne_nil (s : Sample) : s.line.toList ≠ [] := by
  rw [Sample.line, String.toList_ofList]
  exact List.append_ne_nil_of_left_ne_nil s.name_ne_nil _

theorem lookup_after (table : DigitTable) (values : Values) (h : s.Plain) {later : List String}
    (hlater : ∀ raw ∈ later, ¬ s.series.toList <+: (strip raw).toList) :
    ∃ values', (s.line :: later).foldlM (readLine table) values = some values' ∧
      values'.lookup s.series = some (s.value.double asciiDecimal) := by
  obtain ⟨values', hfold, hlookup⟩ := lookup_foldlM table
    (values.insert s.series (s.value.double asciiDecimal)) hlater
  refine ⟨values', ?_, ?_⟩
  · rw [List.foldlM_cons, s.readLine_line h]
    exact hfold
  · rw [hlookup, AList.lookup_insert]

/-- A sample is seen exactly where it is plain. -/
theorem lookup_scrape (table : DigitTable) (file : Scrape s) :
    ∃ values, parseMetrics table file.text = some values ∧
      (values.lookup s.series = some (s.value.double asciiDecimal) ↔ s.Plain) := by
  obtain ⟨values, hparse, hkeys⟩ := exists_parseMetrics table file.text
  refine ⟨values, hparse, ?_, ?_⟩
  · intro hlookup
    by_contra hplain
    have hmem : s.series ∈ values := by
      rw [← AList.lookup_isSome, hlookup, Option.isSome_some]
    exact Sample.not_isKey hplain (hkeys _ hmem)
  · intro hplain
    obtain ⟨later, hlines, hlater⟩ :=
      exists_readLines (Sample.boundaryless_line hplain) (line_ne_nil s) file.after_line
    obtain ⟨earlier, hearlier, -⟩ := exists_parseMetrics table file.before
    obtain ⟨values', hfold, hlookup⟩ := lookup_after table earlier hplain
      fun raw hraw => file.once raw (hlater raw hraw)
    have hsame : parseMetrics table file.text = some values' := by
      rw [parseMetrics, Scrape.text, readLines_append file.before_whole, hlines,
        foldlM_append_of hearlier, hfold]
    rw [hparse, Option.some.injEq] at hsame
    rw [hsame, hlookup]

theorem readLines_expose (h : ∀ s ∈ samples, s.Plain) :
    Python.readLines (expose samples) = samples.map Sample.line := by
  induction samples with
  | nil => rfl
  | cons s samples ih =>
    obtain ⟨hs, hrest⟩ := List.forall_mem_cons.mp h
    rw [expose, readLines_line (Sample.boundaryless_line hs) (line_ne_nil s), ih hrest,
      List.map_cons]

/-- Plain samples of distinct series are all seen. -/
theorem lookup_samples (table : DigitTable) (values : Values) (h : ∀ s ∈ samples, s.Plain)
    (hdistinct : samples.Pairwise fun s t => s.identity ≠ t.identity) :
    ∃ values', (samples.map Sample.line).foldlM (readLine table) values = some values' ∧
      ∀ s ∈ samples, values'.lookup s.series = some (s.value.double asciiDecimal) := by
  induction samples generalizing values with
  | nil => exact ⟨values, rfl, by simp⟩
  | cons s samples ih =>
    obtain ⟨hs, hrest⟩ := List.forall_mem_cons.mp h
    obtain ⟨hfirst, hpairs⟩ := List.pairwise_cons.mp hdistinct
    have hlater : ∀ raw ∈ samples.map Sample.line, ¬ s.series.toList <+: (strip raw).toList := by
      intro raw hraw hprefix
      obtain ⟨t, ht, rfl⟩ := List.mem_map.mp hraw
      rw [Sample.strip_line] at hprefix
      have hseries := Sample.series_of_prefix hs (hrest t ht) hprefix
      exact hfirst t ht (Sample.identity_of_series hseries)
    obtain ⟨values', hfold, hlookup⟩ := lookup_after table values hs hlater
    obtain ⟨values'', hfold', hothers⟩ :=
      ih (values.insert s.series (s.value.double asciiDecimal)) hrest hpairs
    rw [List.map_cons]
    refine ⟨values', hfold, List.forall_mem_cons.mpr ⟨hlookup, ?_⟩⟩
    rw [List.foldlM_cons, s.readLine_line hs] at hfold
    obtain rfl : values'' = values' := Option.some.inj (hfold'.symm.trans hfold)
    exact hothers

end Files

section Recorded

open Observability Proxy Gateway

/-- The label names of the selected counters. -/
def labelNames : List String :=
  ["method", "route", "status_class", "scope", "decision", "service", "outcome", "event"]

theorem isName_labelNames {name : String} (h : name ∈ labelNames) :
    ∃ c tail, name.toList = c :: tail ∧ isLabelStart c = true ∧
      ∀ d ∈ tail, isLabelChar d = true := by
  have hall : labelNames.all (fun n =>
      n.toList.head?.any isLabelStart && n.toList.tail.all isLabelChar) = true := by decide
  exact exists_cons_of_checked (List.all_eq_true.mp hall name h)

def noBlanks : Blanks := ⟨[], by simp⟩

/-- A label without blanks around its parts. -/
def compact (name value : String) (h : name ∈ labelNames) : Label where
  name := name.toList
  value := value.toList
  beforeName := noBlanks
  afterName := noBlanks
  beforeValue := noBlanks
  afterValue := noBlanks
  isName := isName_labelNames h

def counter (name : String) (h : name ∈ selectedMetrics) (labels : List Label)
    (value : Numeral Char.isDigit) : Sample where
  name := name
  labels := labels
  lastComma := false
  closing := noBlanks
  gap := ⟨[' '], List.forall_mem_singleton.mpr rfl⟩
  value := value
  selected := h
  gap_ne := by decide

/-- The line of a selected counter of the gateway. -/
def exposed (value : Numeral Char.isDigit) : Series → Option Sample
  | .httpRequestsTotal method route statusClass =>
    some (counter "gateway_http_requests_total" (by decide)
      [compact "method" method (by decide), compact "route" route (by decide),
        compact "status_class" statusClass (by decide)] value)
  | .rateLimitDecisionsTotal scope decision =>
    some (counter "gateway_rate_limit_decisions_total" (by decide)
      [compact "scope" scope (by decide), compact "decision" decision (by decide)] value)
  | .upstreamRequestsTotal service outcome =>
    some (counter "gateway_upstream_requests_total" (by decide)
      [compact "service" service (by decide), compact "outcome" outcome (by decide)] value)
  | .upstreamResilienceEventsTotal service event =>
    some (counter "gateway_upstream_resilience_events_total" (by decide)
      [compact "service" service (by decide), compact "event" event (by decide)] value)
  | _ => none

/-- A label value without awkward characters. -/
def PlainText (text : String) : Prop := ∀ c ∈ text.toList, isAwkward c = false

instance (text : String) : Decidable (PlainText text) :=
  decidable_of_iff (text.toList.all (fun c => !isAwkward c) = true) (by simp [PlainText])

theorem plain_counter {name : String} {h : name ∈ selectedMetrics} {labels : List Label}
    {value : Numeral Char.isDigit} (hlabels : ∀ l ∈ labels, ∀ c ∈ l.value, isAwkward c = false) :
    (counter name h labels value).Plain := by
  intro l hl c hc
  have hplain := hlabels l hl c hc
  rw [isAwkward, Bool.or_eq_false_iff] at hplain
  refine ⟨of_decide_eq_false hplain.1, ?_⟩
  intro hboundary
  rw [hplain.2] at hboundary
  cases hboundary

theorem plain_pair {name first second a b : String} {h : name ∈ selectedMetrics}
    {hfirst : first ∈ labelNames} {hsecond : second ∈ labelNames} {value : Numeral Char.isDigit}
    (ha : PlainText a) (hb : PlainText b) :
    (counter name h [compact first a hfirst, compact second b hsecond] value).Plain := by
  apply plain_counter
  intro l hl
  simp only [List.mem_cons, List.not_mem_nil, or_false] at hl
  rcases hl with rfl | rfl
  · exact ha
  · exact hb

/-- Of what the gateway records, the series of routes with parameters are the awkward ones. -/
theorem plain_exposed_iff {value : Numeral Char.isDigit} {s : Series} {sample : Sample}
    (hs : s.Bounded) (h : exposed value s = some sample) :
    sample.Plain ↔ ∀ method route statusClass,
      s = .httpRequestsTotal method route statusClass → '}' ∉ route.toList := by
  have hmethods : ∀ m ∈ methodLabels, PlainText m := by decide
  have hstatus : ∀ c ∈ statusLabels, PlainText c := by decide
  have hscopes : ∀ c ∈ rateLimitScopes, PlainText c := by decide
  have hdecisions : ∀ d ∈ rateLimitDecisions, PlainText d := by decide
  have hservices : ∀ n ∈ serviceNames, PlainText n := by decide
  have houtcomes : ∀ o ∈ upstreamOutcomes, PlainText o := by decide
  have hevents : ∀ e ∈ GatewayMetrics.allowedEvents, PlainText e := by decide
  have hroutes : (routeLabels.all fun r => r.toList.all fun c => !isLineBoundary c) = true := by
    decide
  cases s with
  | httpRequestsTotal method route statusClass =>
    obtain ⟨hmethod, hroute, hclass⟩ := hs
    obtain rfl := Option.some.inj h
    constructor
    · rintro hplain _ _ _ ⟨⟩ hbrace
      exact (hplain (compact "route" route (by decide)) (by simp [counter]) '}' hbrace).1 rfl
    · intro hbrace
      apply plain_counter
      intro l hl
      simp only [List.mem_cons, List.not_mem_nil, or_false] at hl
      rcases hl with rfl | rfl | rfl
      · exact hmethods _ hmethod
      · intro c hc
        have hboundary := List.all_eq_true.mp (List.all_eq_true.mp hroutes route hroute) c hc
        rw [Bool.not_eq_true'] at hboundary
        rw [isAwkward, hboundary, Bool.or_false]
        apply decide_eq_false
        rintro rfl
        exact hbrace _ _ _ rfl hc
      · exact hstatus _ hclass
  | rateLimitDecisionsTotal scope decision =>
    obtain rfl := Option.some.inj h
    refine iff_of_true (plain_pair (hscopes _ hs.1) (hdecisions _ hs.2)) ?_
    rintro _ _ _ ⟨⟩
  | upstreamRequestsTotal service outcome =>
    obtain rfl := Option.some.inj h
    refine iff_of_true (plain_pair (hservices _ hs.1) (houtcomes _ hs.2)) ?_
    rintro _ _ _ ⟨⟩
  | upstreamResilienceEventsTotal service event =>
    obtain rfl := Option.some.inj h
    refine iff_of_true (plain_pair (hservices _ hs.1) (hevents _ hs.2)) ?_
    rintro _ _ _ ⟨⟩
  | httpRequestDurationSeconds method route => cases h
  | securityEventsTotal eventType outcome => cases h
  | upstreamRequestDurationSeconds service => cases h

theorem value_exposed {value : Numeral Char.isDigit} {s : Series} {sample : Sample}
    (h : exposed value s = some sample) : sample.value = value := by
  cases s <;> cases h <;> rfl

/-- The differ sees what the gateway records, but for requests to routes with parameters. -/
theorem recorded_seen_iff (table : DigitTable) {value : Numeral Char.isDigit} {s : Series}
    {sample : Sample} (hs : s.Bounded) (h : exposed value s = some sample)
    (file : Scrape sample) : ∃ values, parseMetrics table file.text = some values ∧
      (values.lookup sample.series = some (value.double asciiDecimal) ↔
        ∀ method route statusClass,
          s = .httpRequestsTotal method route statusClass → '}' ∉ route.toList) := by
  obtain ⟨values, hparse, hseen⟩ := lookup_scrape table file
  refine ⟨values, hparse, ?_⟩
  rw [← plain_exposed_iff hs h, ← hseen, value_exposed h]

end Recorded

/-- Every sample is read under its series, with its value, exactly where it is plain; distinct
series have distinct texts, and a file of plain ones is read whole. -/
theorem series_seen_iff_plain (table : DigitTable) :
    (∀ (s : Sample) (file : Scrape s), ∃ values, parseMetrics table file.text = some values ∧
      (values.lookup s.series = some (s.value.double asciiDecimal) ↔ s.Plain)) ∧
    (∀ s t : Sample, s.identity ≠ t.identity → s.series ≠ t.series) ∧
    ∀ samples : List Sample, (∀ s ∈ samples, s.Plain) →
      samples.Pairwise (fun s t => s.identity ≠ t.identity) →
      ∃ values, parseMetrics table (expose samples) = some values ∧
        ∀ s ∈ samples, values.lookup s.series = some (s.value.double asciiDecimal) := by
  refine ⟨fun s file => lookup_scrape table file, ?_, ?_⟩
  · intro s t hne hseries
    exact hne (Sample.identity_of_series hseries)
  · intro samples hplain hdistinct
    rw [parseMetrics, readLines_expose hplain]
    exact lookup_samples table ∅ hplain hdistinct

def three : Numeral Char.isDigit where
  sign := .none
  whole := ['3']
  fraction := some ['0']
  exponent := none
  whole_all := List.forall_mem_singleton.mpr rfl
  fraction_all := by
    rintro _ ⟨⟩
    exact List.forall_mem_singleton.mpr rfl
  digits_ne := by decide

/-- A count of requests to a route with this template. -/
def routeCount (route : String) : Sample :=
  counter "gateway_http_requests_total" (by decide)
    [compact "method" "GET" (by decide), compact "route" route (by decide),
      compact "status_class" "2xx" (by decide)] three

/-- The file of one line. -/
def Scrape.single (s : Sample) : Scrape s where
  before := ""
  after := ""
  before_whole := Or.inl rfl
  after_line := Or.inl rfl
  once raw hraw := by cases hraw

theorem health_and_ready_seen :
    ∃ values, parseMetrics .asciiOnly (expose [routeCount "/health", routeCount "/ready"]) =
        some values ∧
      ∀ s ∈ [routeCount "/health", routeCount "/ready"],
        values.lookup s.series = some (s.value.double asciiDecimal) :=
  (series_seen_iff_plain .asciiOnly).2.2 _ (by decide) (by decide)

/-- The requests to a route with a parameter are not in the differ's dictionary. -/
theorem role_route_unseen :
    (routeCount "/authorization/users/{username}/roles").line =
      "gateway_http_requests_total\x7bmethod=\"GET\"," ++
        "route=\"/authorization/users/\x7busername\x7d/roles\",status_class=\"2xx\"\x7d 3.0" ∧
    ∃ values, parseMetrics .asciiOnly
        (Scrape.single (routeCount "/authorization/users/{username}/roles")).text = some values ∧
      values.lookup (routeCount "/authorization/users/{username}/roles").series = none := by
  refine ⟨by decide, ?_⟩
  obtain ⟨values, hparse, hkeys⟩ := exists_parseMetrics .asciiOnly
    (Scrape.single (routeCount "/authorization/users/{username}/roles")).text
  refine ⟨values, hparse, AList.lookup_eq_none.mpr ?_⟩
  intro hmem
  exact Sample.not_isKey (by decide) (hkeys _ hmem)

end SecureGateway.Tools
