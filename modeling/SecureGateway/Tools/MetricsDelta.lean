import Mathlib.Data.List.AList
import SecureGateway.Foundation.Backtracking
import SecureGateway.Python.Lines
import SecureGateway.Python.Numerals
import SecureGateway.Python.Url

/-!
# The differ of Prometheus scrapes

`parse_metrics` of `tools/phase7_metrics_delta.py` on the text of a file. A line that the
pattern does not match is skipped.
-/
namespace SecureGateway.Tools

open Python Pattern

def isNameStart (c : Char) : Bool := c.isAlpha || c = '_' || c = ':'

def isNameChar (c : Char) : Bool := c.isAlphanum || c = '_' || c = ':'

def isSign (c : Char) : Bool := c = '+' || c = '-'

def isExponentMark (c : Char) : Bool := c = 'e' || c = 'E'

/-- The groups of a match. -/
structure MetricMatch where
  series : List Char
  name : List Char
  value : List Char
  deriving DecidableEq, Repr

/-- `(?P<name>[A-Za-z_:][A-Za-z0-9_:]*)`. -/
def namePattern : Pattern Char (List Char) := one isNameStart ++ many isNameChar

/-- `(?:\{[^}]*\})?`. -/
def labelsPattern : Pattern Char (List Char) :=
  opt (one (· = '{') ++ (many (· ≠ '}') ++ one (· = '}')))

/-- `(?P<value>[-+]?(?:\d+(?:\.\d*)?|\.\d+)(?:[eE][-+]?\d+)?)`. -/
def valuePattern (digit : Char → Bool) : Pattern Char (List Char) :=
  opt (one isSign) ++
    (((many1 digit ++ opt (one (· = '.') ++ many digit)) <|> (one (· = '.') ++ many1 digit)) ++
      opt (one isExponentMark ++ (opt (one isSign) ++ many1 digit)))

/-- `METRIC_PATTERN`. -/
def metricPattern (digit : Char → Bool) : Pattern Char MetricMatch := do
  let name ← namePattern
  let labels ← labelsPattern
  let _ ← many1 isSpace
  let value ← valuePattern digit
  let _ ← opt (many1 isSpace ++ many1 digit)
  atEnd '\n'
  pure ⟨name ++ labels, name, value⟩

def selectedMetrics : List String :=
  ["gateway_http_requests_total", "gateway_rate_limit_decisions_total",
    "gateway_upstream_requests_total", "gateway_upstream_resilience_events_total"]

/-- `dict[str, float]`; nothing reads the order of its keys. -/
abbrev Values := AList fun _ : String => Binary64

/-- The body of the loop; nothing where `float` raises. -/
def readLine (table : DigitTable) (values : Values) (rawLine : String) : Option Values :=
  let line := (strip rawLine).toList
  if line = [] ∨ line.head? = some '#' then some values
  else
    match (metricPattern table.isDigit).capture line with
    | none => some values
    | some m =>
      if String.ofList m.name ∉ selectedMetrics then some values
      else
        (float table.decimal (String.ofList m.value)).map fun value =>
          values.insert (String.ofList m.series) value

/-- `parse_metrics`, on the text of the file. -/
def parseMetrics (table : DigitTable) (text : String) : Option Values :=
  (readLines text).foldlM (readLine table) ∅

theorem isNameChar_of_isNameStart {c : Char} (h : isNameStart c = true) : isNameChar c = true := by
  simp only [isNameStart, isNameChar, Char.isAlphanum, Bool.or_eq_true] at h ⊢
  tauto

theorem toNat_lt_of_isNameChar {c : Char} (h : isNameChar c = true) : c.toNat < 128 := by
  change (((decide ('A'.val ≤ c.val ∧ c.val ≤ 'Z'.val) ||
    (decide ('a'.val ≤ c.val) && decide (c.val ≤ 'z'.val))) ||
    (decide ('0'.val ≤ c.val) && decide (c.val ≤ '9'.val))) || decide (c = '_') ||
    decide (c = ':')) = true at h
  simp only [Bool.or_eq_true, Bool.and_eq_true, decide_eq_true_eq, UInt32.le_iff_toNat_le] at h
  rcases h with ((((⟨-, h⟩ | ⟨-, h⟩) | ⟨-, h⟩) | rfl) | rfl)
  · exact lt_of_le_of_lt h (by decide)
  · exact lt_of_le_of_lt h (by decide)
  · exact lt_of_le_of_lt h (by decide)
  · decide
  · decide

/-- White space ends a name. -/
theorem isNameChar_of_isSpace {c : Char} (h : isSpace c = true) : isNameChar c = false := by
  cases hname : isNameChar c with
  | false => rfl
  | true =>
    have hascii := toNat_lt_of_isNameChar hname
    rw [← hname]
    exact forall_ascii (P := fun c => isSpace c = true → isNameChar c = false) (by decide) hascii h

section Ways

variable {digit : Char → Bool} {line rest : List Char} {m : MetricMatch}

/-- A metric name. -/
def IsName (l : List Char) : Prop :=
  ∃ c tail, l = c :: tail ∧ isNameStart c = true ∧ ∀ d ∈ tail, isNameChar d = true

/-- Nothing, or braces around a text without a closing brace. -/
def IsLabels (l : List Char) : Prop := l = [] ∨ ∃ body, l = '{' :: (body ++ ['}']) ∧ '}' ∉ body

theorem reads_namePattern : Reads namePattern IsName := by
  apply ((reads_one isNameStart).append (reads_many isNameChar)).congr
  intro a
  constructor
  · rintro ⟨_, tail, rfl, ⟨c, rfl, hc⟩, htail⟩
    exact ⟨c, tail, rfl, hc, htail⟩
  · rintro ⟨c, tail, rfl, hc, htail⟩
    exact ⟨[c], tail, rfl, ⟨c, rfl, hc⟩, htail⟩

theorem reads_labelsPattern : Reads labelsPattern IsLabels := by
  have hbody := (reads_many (fun c : Char => c ≠ '}')).append (reads_one (· = '}'))
  apply ((reads_one (fun c : Char => c = '{')).append hbody).opt.congr
  intro a
  rw [IsLabels, or_comm]
  apply or_congr_right
  constructor
  · rintro ⟨_, _, rfl, ⟨c, rfl, hc⟩, body, _, rfl, hall, d, rfl, hd⟩
    obtain rfl : c = '{' := of_decide_eq_true hc
    obtain rfl : d = '}' := of_decide_eq_true hd
    refine ⟨body, rfl, ?_⟩
    intro hmem
    exact of_decide_eq_true (hall _ hmem) rfl
  · rintro ⟨body, rfl, hbody⟩
    refine ⟨['{'], body ++ ['}'], rfl, ⟨'{', rfl, rfl⟩, body, ['}'], rfl, ?_, '}', rfl, rfl⟩
    intro c hc
    exact decide_eq_true fun h => hbody (h ▸ hc)

/-- The texts of an optional sign. -/
theorem reads_sign : Reads (opt (one isSign)) fun a => ∃ sign : Sign, a = sign.text := by
  apply (reads_one isSign).opt.congr
  intro a
  constructor
  · rintro (⟨c, rfl, hc⟩ | rfl)
    · simp only [isSign, Bool.or_eq_true, decide_eq_true_eq] at hc
      rcases hc with rfl | rfl
      · exact ⟨.plus, rfl⟩
      · exact ⟨.minus, rfl⟩
    · exact ⟨.none, rfl⟩
  · rintro ⟨sign, rfl⟩
    cases sign with
    | none => exact Or.inr rfl
    | plus => exact Or.inl ⟨'+', rfl, rfl⟩
    | minus => exact Or.inl ⟨'-', rfl, rfl⟩

theorem reads_exponent (digit : Char → Bool) :
    Reads (opt (one isExponentMark ++ (opt (one isSign) ++ many1 digit)))
      fun a => ∃ e : Option (Exponent digit), a = marked e := by
  apply ((reads_one isExponentMark).append (reads_sign.append (reads_many1 digit))).opt.congr
  intro a
  constructor
  · rintro (⟨_, _, rfl, ⟨mark, rfl, hmark⟩, _, digits, rfl, ⟨sign, rfl⟩, hne, hall⟩ | rfl)
    · simp only [isExponentMark, Bool.or_eq_true, decide_eq_true_eq] at hmark
      exact ⟨some ⟨mark, sign, digits, hmark, hne, hall⟩, rfl⟩
    · exact ⟨none, rfl⟩
  · rintro ⟨e, rfl⟩
    cases e with
    | none => exact Or.inr rfl
    | some e =>
      have hmark : isExponentMark e.mark = true := by
        simp only [isExponentMark, Bool.or_eq_true, decide_eq_true_eq]
        exact e.mark_e
      exact Or.inl ⟨[e.mark], _, rfl, ⟨e.mark, rfl, hmark⟩, _, _, rfl, ⟨e.sign, rfl⟩,
        e.digits_ne, e.digits_all⟩

theorem reads_point (digit : Char → Bool) :
    Reads (opt (one (· = '.') ++ many digit))
      fun a => ∃ f : Option (List Char), a = pointed f ∧ ∀ g ∈ f, ∀ c ∈ g, digit c = true := by
  apply ((reads_one (fun c : Char => c = '.')).append (reads_many digit)).opt.congr
  intro a
  constructor
  · rintro (⟨_, f, rfl, ⟨c, rfl, hc⟩, hall⟩ | rfl)
    · obtain rfl : c = '.' := of_decide_eq_true hc
      refine ⟨some f, rfl, ?_⟩
      rintro _ ⟨⟩
      exact hall
    · exact ⟨none, rfl, by simp⟩
  · rintro ⟨f, rfl, hall⟩
    cases f with
    | none => exact Or.inr rfl
    | some f => exact Or.inl ⟨['.'], f, rfl, ⟨'.', rfl, rfl⟩, hall f rfl⟩

/-- The values are the numerals. -/
theorem reads_valuePattern (digit : Char → Bool) :
    Reads (valuePattern digit) fun a => ∃ n : Numeral digit, a = n.text := by
  have hwhole := (reads_many1 digit).append (reads_point digit)
  have hpoint := (reads_one (fun c : Char => c = '.')).append (reads_many1 digit)
  apply (reads_sign.append ((hwhole.orElse hpoint).append (reads_exponent digit))).congr
  intro a
  constructor
  · rintro ⟨_, _, rfl, ⟨sign, rfl⟩, _, _, rfl, hdigits, e, rfl⟩
    rcases hdigits with ⟨whole, _, rfl, ⟨hne, hall⟩, f, rfl, hf⟩ |
      ⟨_, f, rfl, ⟨c, rfl, hc⟩, hne, hf⟩
    · refine ⟨⟨sign, whole, f, e, hall, hf, Or.inl hne⟩, ?_⟩
      simp only [Numeral.text, Numeral.unsignedText, Numeral.fractionText, Numeral.exponentText,
        List.append_assoc]
    · obtain rfl : c = '.' := of_decide_eq_true hc
      refine ⟨⟨sign, [], some f, e, by simp, ?_, Or.inr hne⟩, rfl⟩
      rintro _ ⟨⟩
      exact hf
  · rintro ⟨n, rfl⟩
    refine ⟨n.sign.text, n.unsignedText, rfl, ⟨n.sign, rfl⟩, n.whole ++ n.fractionText,
      n.exponentText, ?_, ?_, n.exponent, rfl⟩
    · exact (List.append_assoc _ _ _).symm
    · by_cases hne : n.whole = []
      · refine Or.inr ?_
        have hdigits := n.digits_ne
        have hall := n.fraction_all
        unfold Numeral.fractionText
        cases hf : n.fraction with
        | none => simp [hne, hf] at hdigits
        | some f =>
          rw [hf] at hdigits hall
          rw [hne]
          exact ⟨['.'], f, rfl, ⟨'.', rfl, rfl⟩, hdigits.resolve_left (absurd hne), hall f rfl⟩
      · exact Or.inl ⟨n.whole, n.fractionText, rfl, ⟨hne, n.whole_all⟩, n.fraction, rfl,
          n.fraction_all⟩

end Ways

/-- An optional timestamp, and the end of the line. -/
def IsTail (digit : Char → Bool) (l : List Char) : Prop :=
  ∃ stamp rest, l = stamp ++ rest ∧ (rest = [] ∨ rest = ['\n']) ∧
    (stamp = [] ∨ ∃ gap time, stamp = gap ++ time ∧ (gap ≠ [] ∧ ∀ c ∈ gap, isSpace c = true) ∧
      (time ≠ [] ∧ ∀ c ∈ time, digit c = true))

/-- The parts of a line that the pattern matches. -/
structure MetricLine (digit : Char → Bool) where
  name : List Char
  labels : List Char
  gap : List Char
  value : Numeral digit
  tail : List Char
  isName : IsName name
  isLabels : IsLabels labels
  gap_ne : gap ≠ []
  gap_all : ∀ c ∈ gap, isSpace c = true
  isTail : IsTail digit tail

namespace MetricLine

variable {digit : Char → Bool} (p : MetricLine digit)

def text : List Char := p.name ++ (p.labels ++ (p.gap ++ (p.value.text ++ p.tail)))

def groups : MetricMatch := ⟨p.name ++ p.labels, p.name, p.value.text⟩

theorem exists_mem_metricPattern {line : List Char} {m : MetricMatch} :
    (∃ rest, (m, rest) ∈ (metricPattern digit).run line) ↔
      ∃ p : MetricLine digit, line = p.text ∧ m = p.groups := by
  have hgap := reads_many1 isSpace
  have hstamp := ((reads_many1 isSpace).append (reads_many1 digit)).opt
  simp only [metricPattern, mem_bind, mem_pure, mem_atEnd, reads_namePattern _ _ _,
    reads_labelsPattern _ _ _, hgap _ _ _, reads_valuePattern digit _ _ _, hstamp _ _ _]
  constructor
  · rintro ⟨_, name, _, ⟨rfl, hname⟩, labels, _, ⟨rfl, hlabels⟩, gap, _, ⟨rfl, hne, hall⟩, _, _,
      ⟨rfl, value, rfl⟩, stamp, _, ⟨rfl, hstamp⟩, _, rest, ⟨rfl, hend⟩, rfl, rfl⟩
    exact ⟨⟨name, labels, gap, value, _, hname, hlabels, hne, hall, stamp, _, rfl, hend,
      hstamp.symm⟩, rfl, rfl⟩
  · rintro ⟨p, rfl, rfl⟩
    obtain ⟨stamp, rest, htail, hend, hstamp⟩ := p.isTail
    refine ⟨rest, p.name, _, ⟨rfl, p.isName⟩, p.labels, _, ⟨rfl, p.isLabels⟩, p.gap, _,
      ⟨rfl, p.gap_ne, p.gap_all⟩, p.value.text, p.tail, ⟨rfl, p.value, rfl⟩, stamp, rest,
      ⟨htail, hstamp.symm⟩, (), rest, ⟨rfl, hend⟩, rfl, rfl⟩

theorem name_all : ∀ c ∈ p.name, isNameChar c = true := by
  obtain ⟨c, rest, hname, hc, hrest⟩ := p.isName
  rw [hname]
  exact List.forall_mem_cons.mpr ⟨isNameChar_of_isNameStart hc, hrest⟩

theorem stopsAt_afterSeries {q : Char → Bool} (h : ∀ c, isSpace c = true → q c = false) :
    StopsAt q (p.gap ++ (p.value.text ++ p.tail)) :=
  stopsAt_append p.gap_ne fun c hc => h c (p.gap_all c hc)

theorem stopsAt_afterName :
    StopsAt isNameChar (p.labels ++ (p.gap ++ (p.value.text ++ p.tail))) := by
  rcases p.isLabels with hlabels | ⟨body, hlabels, -⟩
  · rw [hlabels, List.nil_append]
    exact p.stopsAt_afterSeries fun c => isNameChar_of_isSpace
  · rw [hlabels]
    exact stopsAt_cons (by decide)

end MetricLine

section Uniqueness

variable {table : DigitTable} {line : List Char} {m : MetricMatch}

def isOpenBrace (c : Char) : Bool := c = '{'

theorem isOpenBrace_of_isSpace {c : Char} (h : isSpace c = true) : isOpenBrace c = false := by
  apply decide_eq_false
  rintro rfl
  revert h
  decide

/-- A label block ends where it ends. -/
theorem labels_unique {a b a' b' : List Char} (ha : IsLabels a) (ha' : IsLabels a')
    (hb : StopsAt isOpenBrace b) (hb' : StopsAt isOpenBrace b') (h : a ++ b = a' ++ b') :
    a = a' ∧ b = b' := by
  rcases ha with rfl | ⟨body, rfl, hbody⟩
  · rcases ha' with rfl | ⟨body', rfl, -⟩
    · exact ⟨rfl, h⟩
    · cases hb '{' (congrArg List.head? h)
  · rcases ha' with rfl | ⟨body', rfl, hbody'⟩
    · cases hb' '{' (congrArg List.head? h.symm)
    · have hinner : body ++ '}' :: b = body' ++ '}' :: b' := by
        simpa using h
      have hsame : body = body' := by
        rw [← before_append hbody, hinner, before_append hbody']
      subst hsame
      exact ⟨rfl, by simpa using hinner⟩

theorem notSpace_value (n : Numeral table.isDigit) : ∀ c ∈ n.text, (!isSpace c) = true := by
  intro c hc
  rw [n.isSpace_of_mem_text (fun _ => table.not_isSpace) hc]
  rfl

theorem stopsAt_value (n : Numeral table.isDigit) (tail : List Char) :
    StopsAt isSpace (n.text ++ tail) :=
  stopsAt_append n.text_ne_nil fun _ hc => n.isSpace_of_mem_text (fun _ => table.not_isSpace) hc

theorem stopsAt_tail {tail : List Char} (h : IsTail table.isDigit tail) :
    StopsAt (!isSpace ·) tail := by
  obtain ⟨stamp, rest, rfl, hrest, hstamp⟩ := h
  rcases hstamp with rfl | ⟨gap, time, rfl, ⟨hne, hall⟩, -⟩
  · rcases hrest with rfl | rfl
    · intro c hc
      cases hc
    · exact stopsAt_cons rfl
  · rw [List.append_assoc]
    apply stopsAt_append hne
    intro c hc
    rw [hall c hc]
    rfl

/-- A line has one series, one name and one value. -/
theorem groups_unique {p q : MetricLine table.isDigit} (h : p.text = q.text) :
    p.groups = q.groups := by
  obtain ⟨hname, h⟩ := boundary_unique p.name_all p.stopsAt_afterName q.name_all
    q.stopsAt_afterName h
  obtain ⟨hlabels, h⟩ := labels_unique p.isLabels q.isLabels
    (p.stopsAt_afterSeries fun _ => isOpenBrace_of_isSpace)
    (q.stopsAt_afterSeries fun _ => isOpenBrace_of_isSpace) h
  obtain ⟨-, h⟩ := boundary_unique p.gap_all (stopsAt_value _ _) q.gap_all (stopsAt_value _ _) h
  obtain ⟨hvalue, -⟩ := boundary_unique (notSpace_value _) (stopsAt_tail p.isTail)
    (notSpace_value _) (stopsAt_tail q.isTail) h
  rw [MetricLine.groups, MetricLine.groups, hname, hlabels, hvalue]

theorem capture_metricPattern :
    (metricPattern table.isDigit).capture line = some m ↔
      ∃ p : MetricLine table.isDigit, line = p.text ∧ m = p.groups := by
  rw [capture_eq_some_iff, MetricLine.exists_mem_metricPattern]
  intro a b rest rest' ha hb
  obtain ⟨p, hp, rfl⟩ := MetricLine.exists_mem_metricPattern.mp ⟨rest, ha⟩
  obtain ⟨q, hq, rfl⟩ := MetricLine.exists_mem_metricPattern.mp ⟨rest', hb⟩
  exact groups_unique (hp.symm.trans hq)

end Uniqueness

section Runs

variable {table : DigitTable} {values : Values} {raw k : String}

namespace MetricLine

variable {digit : Char → Bool} (p : MetricLine digit)

def series : String := String.ofList (p.name ++ p.labels)

theorem series_prefix : p.series.toList <+: p.text := by
  rw [series, String.toList_ofList, text, ← List.append_assoc]
  exact List.prefix_append _ _

/-- A series has a closing brace at its end only. -/
theorem brace_notMem_series : '}' ∉ p.series.toList.dropLast := by
  have hname : ∀ c ∈ p.name, c ≠ '}' := by
    rintro c hc rfl
    have := p.name_all _ hc
    revert this
    decide
  rw [series, String.toList_ofList]
  intro hmem
  rcases p.isLabels with hlabels | ⟨body, hlabels, hbody⟩
  · rw [hlabels, List.append_nil] at hmem
    exact hname _ ((List.dropLast_sublist p.name).subset hmem) rfl
  · have hseries : p.name ++ p.labels = (p.name ++ '{' :: body) ++ ['}'] := by
      rw [hlabels, List.append_assoc, List.cons_append]
    rw [hseries, List.dropLast_concat] at hmem
    rcases List.mem_append.mp hmem with hmem | hmem
    · exact hname _ hmem rfl
    · rcases List.mem_cons.mp hmem with heq | hmem
      · revert heq
        decide
      · exact hbody hmem

end MetricLine

theorem readLine_of_text {p : MetricLine table.isDigit} (hline : (strip raw).toList = p.text)
    (hname : String.ofList p.name ∈ selectedMetrics) :
    readLine table values raw = some (values.insert p.series (p.value.double table.decimal)) := by
  obtain ⟨c, rest, hcons, hc, -⟩ := p.isName
  have htext : p.text = c :: (rest ++ (p.labels ++ (p.gap ++ (p.value.text ++ p.tail)))) := by
    rw [MetricLine.text, hcons, List.cons_append]
  have hread : ¬ (p.text = [] ∨ p.text.head? = some '#') := by
    rw [htext]
    rintro (h | h)
    · cases h
    · obtain rfl : c = '#' := Option.some.inj h
      revert hc
      decide
  have hmatch := capture_metricPattern.mpr ⟨p, rfl, rfl⟩
  rw [readLine]
  simp only [hline, if_neg hread, hmatch, MetricLine.groups, if_neg (not_not.mpr hname),
    p.value.float_text, Option.map_some, MetricLine.series]

/-- What a line does: nothing, or it sets one key. -/
theorem readLine_cases (table : DigitTable) (values : Values) (raw : String) :
    readLine table values raw = some values ∨
      ∃ p : MetricLine table.isDigit, (strip raw).toList = p.text ∧
        readLine table values raw =
          some (values.insert p.series (p.value.double table.decimal)) := by
  by_cases hskip : (strip raw).toList = [] ∨ (strip raw).toList.head? = some '#'
  · left
    rw [readLine]
    simp only [if_pos hskip]
  · cases hmatch : (metricPattern table.isDigit).capture (strip raw).toList with
    | none =>
      left
      rw [readLine]
      simp only [if_neg hskip, hmatch]
    | some m =>
      obtain ⟨p, hline, rfl⟩ := capture_metricPattern.mp hmatch
      by_cases hname : String.ofList p.name ∈ selectedMetrics
      · exact Or.inr ⟨p, hline, readLine_of_text hline hname⟩
      · left
        rw [readLine]
        simp only [if_neg hskip, hmatch, MetricLine.groups, if_pos hname]

/-- No line raises, and what every line preserves holds in the end. -/
theorem foldlM_readLine {P : Values → Prop} (lines : List String) (h : P values)
    (hstep : ∀ raw ∈ lines, ∀ v (p : MetricLine table.isDigit), (strip raw).toList = p.text →
      P v → P (v.insert p.series (p.value.double table.decimal))) :
    ∃ values', lines.foldlM (readLine table) values = some values' ∧ P values' := by
  induction lines generalizing values with
  | nil => exact ⟨values, rfl, h⟩
  | cons raw lines ih =>
    have hlater : ∀ raw ∈ lines, ∀ v (p : MetricLine table.isDigit), (strip raw).toList = p.text →
        P v → P (v.insert p.series (p.value.double table.decimal)) :=
      fun raw hraw => hstep raw (List.mem_cons_of_mem _ hraw)
    rw [List.foldlM_cons]
    rcases readLine_cases table values raw with hread | ⟨p, hline, hread⟩
    · rw [hread]
      exact ih h hlater
    · rw [hread]
      exact ih (hstep raw List.mem_cons_self values p hline h) hlater

/-- What a key looks like. -/
def IsKey (k : String) : Prop :=
  '}' ∉ k.toList.dropLast ∧ ∀ c ∈ k.toList, isLineBoundary c = false

/-- Reading never raises, and yields keys of this look only. -/
theorem exists_parseMetrics (table : DigitTable) (text : String) :
    ∃ values, parseMetrics table text = some values ∧ ∀ k ∈ values, IsKey k := by
  apply foldlM_readLine (P := fun values => ∀ k ∈ values, IsKey k)
  · intro k hk
    exact absurd hk (AList.notMem_empty k)
  · intro raw hraw v p hline hv k hk
    rcases (AList.mem_insert v).mp hk with rfl | hk
    · refine ⟨p.brace_notMem_series, ?_⟩
      intro c hc
      have hmem : c ∈ (strip raw).toList := by
        rw [hline]
        exact p.series_prefix.subset hc
      exact boundaryless_of_mem_readLines hraw c (mem_of_mem_strip hmem)
    · exact hv k hk

/-- Lines that do not begin with a key leave its value. -/
theorem lookup_foldlM (table : DigitTable) (values : Values) {lines : List String}
    (h : ∀ raw ∈ lines, ¬ k.toList <+: (strip raw).toList) :
    ∃ values', lines.foldlM (readLine table) values = some values' ∧
      values'.lookup k = values.lookup k := by
  apply foldlM_readLine (P := fun v => v.lookup k = values.lookup k) lines rfl
  intro raw hraw v p hline hv
  have hne : k ≠ p.series := by
    rintro rfl
    exact h raw hraw (hline ▸ p.series_prefix)
  rw [AList.lookup_insert_ne hne, hv]

end Runs

end SecureGateway.Tools
