import SecureGateway.Tools.MetricsDelta

/-!
# The text exposition format

The sample lines of the format for the selected metrics, what the differ does with one of them,
and that the text of a series tells its labels.
-/
namespace SecureGateway.Tools

open Python

def isBlank (c : Char) : Bool := c = ' ' || c = '\t'

/-- Blanks between the tokens of a line. -/
abbrev Blanks := {l : List Char // ∀ c ∈ l, isBlank c = true}

def isLabelStart (c : Char) : Bool := c.isAlpha || c = '_'

def isLabelChar (c : Char) : Bool := c.isAlphanum || c = '_'

def escapeChar (c : Char) : List Char :=
  if c = '\\' then ['\\', '\\']
  else if c = '"' then ['\\', '"']
  else if c = '\n' then ['\\', 'n']
  else [c]

/-- How a label value is written between its quotes. -/
def escape (v : List Char) : List Char := v.flatMap escapeChar

structure Label where
  name : List Char
  value : List Char
  beforeName : Blanks
  afterName : Blanks
  beforeValue : Blanks
  afterValue : Blanks
  isName : ∃ c tail, name = c :: tail ∧ isLabelStart c = true ∧ ∀ d ∈ tail, isLabelChar d = true

def Label.text (l : Label) : List Char :=
  l.beforeName.1 ++ (l.name ++ (l.afterName.1 ++ '=' ::
    (l.beforeValue.1 ++ '"' :: (escape l.value ++ '"' :: l.afterValue.1))))

def moreLabels (labels : List Label) : List Char := labels.flatMap fun l => ',' :: l.text

def joinLabels : List Label → List Char
  | [] => []
  | l :: labels => l.text ++ moreLabels labels

/-- A line of a selected metric with any labels and any finite decimal value. -/
structure Sample where
  name : String
  labels : List Label
  lastComma : Bool
  closing : Blanks
  gap : Blanks
  value : Numeral Char.isDigit
  selected : name ∈ selectedMetrics
  gap_ne : gap.1 ≠ []

namespace Sample

variable (s : Sample)

/-- What stands between the last label and the closing brace. -/
def ending : List Char := (if s.lastComma ∧ s.labels ≠ [] then [','] else []) ++ s.closing.1

/-- What stands between the braces. -/
def body : List Char := joinLabels s.labels ++ s.ending

def block : List Char := '{' :: (s.body ++ ['}'])

def series : String := String.ofList (s.name.toList ++ s.block)

def line : String := String.ofList (s.name.toList ++ (s.block ++ (s.gap.1 ++ s.value.text)))

/-- The metric with its labels, however they are written. -/
def identity : String × List (List Char × List Char) :=
  (s.name, s.labels.map fun l => (l.name, l.value))

/-- No label value has a closing brace, or ends a line other than by an escaped newline. -/
def Plain : Prop :=
  ∀ l ∈ s.labels, ∀ c ∈ l.value, c ≠ '}' ∧ (isLineBoundary c = true → c = '\n')

end Sample

section Characters

variable {c : Char} {v : List Char} {l : Label} {s : Sample}

/-- The characters that the differ stumbles over inside the braces. -/
def isAwkward (c : Char) : Bool := c = '}' || isLineBoundary c

theorem ne_of_isAwkward (h : isAwkward c = true) {d : Char} (hd : isAwkward d = false) : c ≠ d := by
  rintro rfl
  rw [hd] at h
  cases h

theorem eq_of_isBlank (h : isBlank c = true) : c = ' ' ∨ c = '\t' := by
  simpa only [isBlank, Bool.or_eq_true, decide_eq_true_eq] using h

theorem isAwkward_of_isBlank (h : isBlank c = true) : isAwkward c = false := by
  rcases eq_of_isBlank h with rfl | rfl <;> decide

theorem isAwkward_of_isNameChar (h : isNameChar c = true) : isAwkward c = false :=
  forall_ascii (P := fun c => isNameChar c = true → isAwkward c = false) (by decide)
    (toNat_lt_of_isNameChar h) h

theorem isAwkward_of_mem_text {n : Numeral Char.isDigit} (h : c ∈ n.text) :
    isAwkward c = false := by
  rcases n.mem_text h with hdigit | hspecial
  · apply isAwkward_of_isNameChar
    simp only [isNameChar, Char.isAlphanum, hdigit, Bool.or_true, Bool.true_or]
  · have hall : ∀ d ∈ ['+', '-', '.', 'e', 'E'], isAwkward d = false :=
      forall_mem_of_all (by decide)
    exact hall c hspecial

theorem isSpace_of_isBlank (h : isBlank c = true) : isSpace c = true := by
  rcases eq_of_isBlank h with rfl | rfl <;> decide

theorem isNameChar_of_isLabelChar (h : isLabelChar c = true) : isNameChar c = true := by
  rw [isNameChar, ← isLabelChar, h, Bool.true_or]

theorem Label.name_all (l : Label) : ∀ c ∈ l.name, isLabelChar c = true := by
  obtain ⟨c, tail, hname, hc, htail⟩ := l.isName
  rw [hname]
  refine List.forall_mem_cons.mpr ⟨?_, htail⟩
  simp only [isLabelStart, isLabelChar, Char.isAlphanum, Bool.or_eq_true] at hc ⊢
  tauto

theorem mem_escapeChar (h : isAwkward c = true) {d : Char} :
    c ∈ escapeChar d ↔ c = d ∧ c ≠ '\n' := by
  have hbackslash : c ≠ '\\' := ne_of_isAwkward h (by decide)
  have hquote : c ≠ '"' := ne_of_isAwkward h (by decide)
  have hn : c ≠ 'n' := ne_of_isAwkward h (by decide)
  unfold escapeChar
  split_ifs with h1 h2 h3
  · subst h1
    simp [hbackslash]
  · subst h2
    simp [hbackslash, hquote]
  · subst h3
    simp [hbackslash, hn]
  · rw [List.mem_singleton]
    constructor
    · rintro rfl
      exact ⟨rfl, h3⟩
    · exact fun hc => hc.1

theorem mem_escape (h : isAwkward c = true) : c ∈ escape v ↔ c ∈ v ∧ c ≠ '\n' := by
  rw [escape, List.mem_flatMap]
  constructor
  · rintro ⟨d, hd, hc⟩
    obtain ⟨rfl, hne⟩ := (mem_escapeChar h).mp hc
    exact ⟨hd, hne⟩
  · rintro ⟨hc, hne⟩
    exact ⟨c, hc, (mem_escapeChar h).mpr ⟨rfl, hne⟩⟩

theorem notMem_blanks (h : isAwkward c = true) (b : Blanks) : c ∉ b.1 := by
  intro hc
  rw [isAwkward_of_isBlank (b.2 c hc)] at h
  cases h

/-- An awkward character comes from a value. -/
theorem mem_label (h : isAwkward c = true) : c ∈ l.text ↔ c ∈ l.value ∧ c ≠ '\n' := by
  have hname : c ∉ l.name := by
    intro hc
    rw [isAwkward_of_isNameChar (isNameChar_of_isLabelChar (l.name_all c hc))] at h
    cases h
  have hequals : c ≠ '=' := ne_of_isAwkward h (by decide)
  have hquote : c ≠ '"' := ne_of_isAwkward h (by decide)
  simp only [Label.text, List.mem_append, List.mem_cons, notMem_blanks h, hname, hequals, hquote,
    mem_escape h, false_or, or_false]

theorem mem_joinLabels (h : isAwkward c = true) {labels : List Label} :
    c ∈ joinLabels labels ↔ ∃ l ∈ labels, c ∈ l.value ∧ c ≠ '\n' := by
  have hcomma : c ≠ ',' := ne_of_isAwkward h (by decide)
  cases labels with
  | nil => simp [joinLabels]
  | cons l labels =>
    simp only [joinLabels, moreLabels, List.mem_append, List.mem_flatMap, List.mem_cons, hcomma,
      mem_label h, false_or, exists_eq_or_imp]

namespace Sample

theorem mem_ending (h : c ∈ s.ending) : isBlank c = true ∨ c = ',' := by
  rcases List.mem_append.mp h with hc | hc
  · split_ifs at hc
    · exact Or.inr (List.mem_singleton.mp hc)
    · cases hc
  · exact Or.inl (s.closing.2 c hc)

theorem mem_body (h : isAwkward c = true) :
    c ∈ s.body ↔ ∃ l ∈ s.labels, c ∈ l.value ∧ c ≠ '\n' := by
  have hending : c ∉ s.ending := by
    intro hc
    rcases mem_ending hc with hblank | hcomma
    · rw [isAwkward_of_isBlank hblank] at h
      cases h
    · exact ne_of_isAwkward h (by decide) hcomma
  rw [body, List.mem_append, mem_joinLabels h, or_iff_left hending]

theorem plain_iff : s.Plain ↔ ∀ c ∈ s.body, isAwkward c = false := by
  constructor
  · intro hplain c hc
    by_contra hawkward
    have hawkward : isAwkward c = true := by simpa using hawkward
    obtain ⟨l, hl, hcl, hne⟩ := (mem_body hawkward).mp hc
    obtain ⟨hbrace, hboundary⟩ := hplain l hl c hcl
    simp only [isAwkward, Bool.or_eq_true, decide_eq_true_eq] at hawkward
    rcases hawkward with h | h
    · exact hbrace h
    · exact hne (hboundary h)
  · intro hbody l hl c hc
    have hnewline : isAwkward c = true → c = '\n' := by
      intro hawkward
      by_contra hne
      have hmem := (mem_body hawkward).mpr ⟨l, hl, hc, hne⟩
      rw [hbody c hmem] at hawkward
      cases hawkward
    constructor
    · rintro rfl
      have := hnewline (by decide)
      revert this
      decide
    · intro hboundary
      apply hnewline
      rw [isAwkward, hboundary, Bool.or_true]

instance (s : Sample) : Decidable s.Plain :=
  decidable_of_iff (s.body.all (fun c => !isAwkward c) = true) (by
    rw [plain_iff, List.all_eq_true]
    simp only [Bool.not_eq_true'])

end Sample

end Characters

section Reading

variable {table : DigitTable} {s t : Sample}

theorem exists_cons_of_checked {first more : Char → Bool} {l : List Char}
    (h : (l.head?.any first && l.tail.all more) = true) :
    ∃ c tail, l = c :: tail ∧ first c = true ∧ ∀ d ∈ tail, more d = true := by
  rw [Bool.and_eq_true] at h
  cases l with
  | nil => cases h.1
  | cons c tail => exact ⟨c, tail, rfl, h.1, List.all_eq_true.mp h.2⟩

/-- The selected names are metric names. -/
theorem isName_selected {name : String} (h : name ∈ selectedMetrics) : IsName name.toList := by
  have hall : selectedMetrics.all (fun n =>
      n.toList.head?.any isNameStart && n.toList.tail.all isNameChar) = true := by decide
  exact exists_cons_of_checked (List.all_eq_true.mp hall name h)

namespace Sample

theorem name_all (s : Sample) : ∀ c ∈ s.name.toList, isNameChar c = true := by
  obtain ⟨c, tail, hname, hc, htail⟩ := isName_selected s.selected
  rw [hname]
  exact List.forall_mem_cons.mpr ⟨isNameChar_of_isNameStart hc, htail⟩

theorem name_ne_nil (s : Sample) : s.name.toList ≠ [] := by
  obtain ⟨c, tail, hname, -⟩ := isName_selected s.selected
  rw [hname]
  simp

/-- A plain line as the pattern takes it apart. -/
def metricLine (table : DigitTable) (s : Sample) (h : s.Plain) : MetricLine table.isDigit where
  name := s.name.toList
  labels := s.block
  gap := s.gap.1
  value := s.value.mono fun _ => table.isDigit_of_isDigit
  tail := []
  isName := isName_selected s.selected
  isLabels := by
    refine Or.inr ⟨s.body, rfl, ?_⟩
    intro hbrace
    have := plain_iff.mp h _ hbrace
    revert this
    decide
  gap_ne := s.gap_ne
  gap_all c hc := isSpace_of_isBlank (s.gap.2 c hc)
  isTail := ⟨[], [], rfl, Or.inl rfl, Or.inl rfl⟩

theorem text_metricLine (h : s.Plain) : (s.metricLine table h).text = s.line.toList := by
  rw [line, String.toList_ofList, MetricLine.text]
  simp only [metricLine, Numeral.text_mono, List.append_nil]

theorem series_metricLine (h : s.Plain) : (s.metricLine table h).series = s.series := rfl

theorem strip_line (s : Sample) : strip s.line = s.line := by
  have hvalue : ∀ c ∈ s.value.text, isSpace c = false := by
    intro c hc
    apply s.value.isSpace_of_mem_text _ hc
    intro d hd
    exact DigitTable.asciiOnly.not_isSpace (DigitTable.asciiOnly.isDigit_of_isDigit hd)
  apply strip_of_stopsAt
  · apply stopsAt_append s.name_ne_nil
    intro c hc
    cases hspace : isSpace c with
    | false => rfl
    | true =>
      have hname := s.name_all c hc
      rw [isNameChar_of_isSpace hspace] at hname
      cases hname
  · rw [← List.append_assoc, ← List.append_assoc, List.reverse_append]
    apply stopsAt_append
    · rw [Ne, List.reverse_eq_nil_iff]
      exact s.value.text_ne_nil
    · intro c hc
      exact hvalue c (List.mem_reverse.mp hc)

/-- A plain line has no boundary inside. -/
theorem boundaryless_line (h : s.Plain) : ∀ c ∈ s.line.toList, isLineBoundary c = false := by
  have hboundary : ∀ c, isAwkward c = false → isLineBoundary c = false := by
    intro c hc
    exact (Bool.or_eq_false_iff.mp hc).2
  intro c hc
  rw [line, String.toList_ofList, block] at hc
  simp only [List.mem_append, List.mem_cons, List.not_mem_nil, or_false] at hc
  rcases hc with hc | ((rfl | hc | rfl) | hc | hc)
  · exact hboundary c (isAwkward_of_isNameChar (s.name_all c hc))
  · decide
  · exact hboundary c (plain_iff.mp h c hc)
  · decide
  · exact hboundary c (isAwkward_of_isBlank (s.gap.2 c hc))
  · exact hboundary c (isAwkward_of_mem_text hc)

/-- The series of any other sample is no key. -/
theorem not_isKey (h : ¬ s.Plain) : ¬ IsKey s.series := by
  rintro ⟨hbrace, hboundary⟩
  apply h
  rw [plain_iff]
  have hseries : s.series.toList = (s.name.toList ++ '{' :: s.body) ++ ['}'] := by
    rw [series, String.toList_ofList, block, List.append_assoc, List.cons_append]
  rw [hseries] at hbrace hboundary
  rw [List.dropLast_concat] at hbrace
  intro c hc
  have hmem : c ∈ s.name.toList ++ '{' :: s.body :=
    List.mem_append_right _ (List.mem_cons_of_mem _ hc)
  rw [isAwkward, hboundary c (List.mem_append_left _ hmem), Bool.or_false]
  apply decide_eq_false
  rintro rfl
  exact hbrace hmem

theorem readLine_line (h : s.Plain) (values : Values) :
    readLine table values s.line = some (values.insert s.series (s.value.double asciiDecimal)) := by
  have hline : (strip s.line).toList = (s.metricLine table h).text := by
    rw [strip_line, text_metricLine]
  have hname : String.ofList (s.metricLine table h).name ∈ selectedMetrics := by
    change String.ofList s.name.toList ∈ selectedMetrics
    rw [String.ofList_toList]
    exact s.selected
  rw [readLine_of_text hline hname, series_metricLine]
  change some (values.insert s.series ((s.value.mono _).double table.decimal)) = _
  rw [s.value.double_mono]

end Sample

end Reading

section Identity

variable {l l' : Label} {labels labels' : List Label} {a b a' b' v v' : List Char} {s t : Sample}

theorem escapeChar_cancel {c d : Char} (h : escapeChar c ++ a = escapeChar d ++ b) :
    c = d ∧ a = b := by
  unfold escapeChar at h
  split_ifs at h <;> grind

theorem escape_cons (c : Char) (v : List Char) : escape (c :: v) = escapeChar c ++ escape v := rfl

/-- The closing quote ends an escaped value. -/
theorem escape_cancel (h : escape v ++ '"' :: a = escape v' ++ '"' :: b) : v = v' ∧ a = b := by
  have hquote : ∀ (c : Char) (x y : List Char), '"' :: x ≠ escapeChar c ++ y := by
    intro c x y
    unfold escapeChar
    split_ifs <;> simp_all [eq_comm]
  induction v generalizing v' with
  | nil =>
    cases v' with
    | nil => exact ⟨rfl, (List.cons.inj h).2⟩
    | cons c v' =>
      rw [escape_cons, List.append_assoc] at h
      exact absurd h (hquote c _ _)
  | cons c v ih =>
    cases v' with
    | nil =>
      rw [escape_cons, List.append_assoc] at h
      exact absurd h.symm (hquote c _ _)
    | cons d v' =>
      rw [escape_cons, escape_cons, List.append_assoc, List.append_assoc] at h
      obtain ⟨rfl, hmore⟩ := escapeChar_cancel h
      obtain ⟨rfl, hend⟩ := ih hmore
      exact ⟨rfl, hend⟩

/-- A label can be split off a text, up to the blanks behind it. -/
theorem label_cancel (h : l.text ++ a = l'.text ++ b) :
    (l.name = l'.name ∧ l.value = l'.value) ∧ l.afterValue.1 ++ a = l'.afterValue.1 ++ b := by
  have hstart : ∀ (m : Label) (x : List Char), StopsAt isBlank (m.name ++ x) := by
    intro m x
    obtain ⟨c, tail, hcons, hc, -⟩ := m.isName
    rw [hcons, List.cons_append]
    apply stopsAt_cons
    cases hblank : isBlank c with
    | false => rfl
    | true => rcases eq_of_isBlank hblank with rfl | rfl <;> revert hc <;> decide
  have hequals : ∀ (m : Label) (x : List Char),
      StopsAt isLabelChar (m.afterName.1 ++ '=' :: x) := by
    intro m x
    cases hcons : m.afterName.1 with
    | nil => exact stopsAt_cons (by decide)
    | cons c rest =>
      apply stopsAt_cons
      have hblank := m.afterName.2 c (by rw [hcons]; exact List.mem_cons_self)
      rcases eq_of_isBlank hblank with rfl | rfl <;> decide
  simp only [Label.text, List.append_assoc, List.cons_append] at h
  obtain ⟨-, h⟩ := boundary_unique l.beforeName.2 (hstart l _) l'.beforeName.2 (hstart l' _) h
  obtain ⟨hname, h⟩ := boundary_unique l.name_all (hequals l _) l'.name_all (hequals l' _) h
  obtain ⟨-, h⟩ := boundary_unique l.afterName.2 (stopsAt_cons (by decide)) l'.afterName.2
    (stopsAt_cons (by decide)) h
  obtain ⟨-, h⟩ := boundary_unique l.beforeValue.2 (stopsAt_cons (by decide)) l'.beforeValue.2
    (stopsAt_cons (by decide)) (List.cons.inj h).2
  obtain ⟨hvalue, h⟩ := escape_cancel (List.cons.inj h).2
  exact ⟨⟨hname, hvalue⟩, h⟩

def Label.entry (l : Label) : List Char × List Char := (l.name, l.value)

theorem moreLabels_cons (l : Label) (labels : List Label) :
    moreLabels (l :: labels) = ',' :: (l.text ++ moreLabels labels) := rfl

theorem equals_mem_label (l : Label) : '=' ∈ l.text := by
  simp [Label.text]

theorem equals_notMem_blanks (x : Blanks) : '=' ∉ x.1 := by
  intro h
  have hblank := x.2 _ h
  revert hblank
  decide

/-- Equal texts behind a label have equal labels; what ends the block has none in it. -/
theorem moreLabels_cancel {x x' : Blanks} (hb : '=' ∉ b) (hb' : '=' ∉ b')
    (h : x.1 ++ (moreLabels labels ++ b) = x'.1 ++ (moreLabels labels' ++ b')) :
    labels.map Label.entry = labels'.map Label.entry := by
  have hequals : ∀ (y y' : Blanks) (m : Label) (more : List Label) (e e' : List Char), '=' ∉ e →
      y.1 ++ e ≠ y'.1 ++ (moreLabels (m :: more) ++ e') := by
    intro y y' m more e e' he heq
    have hmem : '=' ∈ y.1 ++ e := by
      rw [heq]
      simp [moreLabels, equals_mem_label m]
    rcases List.mem_append.mp hmem with hmem | hmem
    · exact equals_notMem_blanks y hmem
    · exact he hmem
  induction labels generalizing labels' x x' with
  | nil =>
    cases labels' with
    | nil => rfl
    | cons l' labels' => exact absurd h (hequals x x' l' labels' b b' hb)
  | cons l labels ih =>
    cases labels' with
    | nil => exact absurd h.symm (hequals x' x l labels b' b hb')
    | cons l' labels' =>
      rw [moreLabels_cons, moreLabels_cons, List.cons_append, List.cons_append, List.append_assoc,
        List.append_assoc] at h
      obtain ⟨-, hcomma⟩ := boundary_unique x.2 (stopsAt_cons (by decide)) x'.2
        (stopsAt_cons (by decide)) h
      obtain ⟨⟨hname, hvalue⟩, hrest⟩ := label_cancel (List.cons.inj hcomma).2
      rw [List.map_cons, List.map_cons, ih hrest, Label.entry, Label.entry, hname, hvalue]

namespace Sample

theorem equals_notMem_ending (s : Sample) : '=' ∉ s.ending := by
  intro h
  rcases mem_ending h with hblank | hcomma
  · revert hblank
    decide
  · revert hcomma
    decide

theorem entries_of_body (h : s.body = t.body) :
    s.labels.map Label.entry = t.labels.map Label.entry := by
  have hempty : ∀ (u : Sample) (l : Label) (more : List Label) (e : List Char),
      u.ending ≠ joinLabels (l :: more) ++ e := by
    intro u l more e heq
    apply u.equals_notMem_ending
    rw [heq, joinLabels]
    simp [equals_mem_label l]
  unfold body at h
  cases hs : s.labels with
  | nil =>
    cases ht : t.labels with
    | nil => rfl
    | cons l' labels' =>
      rw [hs, ht] at h
      exact absurd h (hempty s l' labels' _)
  | cons l labels =>
    cases ht : t.labels with
    | nil =>
      rw [hs, ht] at h
      exact absurd h.symm (hempty t l labels _)
    | cons l' labels' =>
      rw [hs, ht, joinLabels, joinLabels, List.append_assoc, List.append_assoc] at h
      obtain ⟨⟨hname, hvalue⟩, hrest⟩ := label_cancel h
      have hmore := moreLabels_cancel s.equals_notMem_ending t.equals_notMem_ending hrest
      rw [List.map_cons, List.map_cons, hmore, Label.entry, Label.entry, hname, hvalue]

theorem stopsAt_block (s : Sample) (rest : List Char) : StopsAt isNameChar (s.block ++ rest) :=
  stopsAt_cons (by decide)

/-- The text of a series tells the metric and its labels. -/
theorem identity_of_series (h : s.series = t.series) : s.identity = t.identity := by
  have htext := String.ofList_inj.mp h
  have hs := s.stopsAt_block []
  have ht := t.stopsAt_block []
  rw [List.append_nil] at hs ht
  obtain ⟨hname, hblock⟩ := boundary_unique s.name_all hs t.name_all ht htext
  have hbody : s.body = t.body := List.append_cancel_right (List.cons.inj hblock).2
  have hentries := entries_of_body hbody
  rw [identity, identity, String.toList_inj.mp hname]
  exact congrArg _ hentries

/-- A plain series begins no line of another plain series. -/
theorem series_of_prefix (hs : s.Plain) (ht : t.Plain) (h : s.series.toList <+: t.line.toList) :
    s.series = t.series := by
  have hbrace : ∀ u : Sample, u.Plain → '}' ∉ u.body := by
    intro u hu hmem
    have := plain_iff.mp hu _ hmem
    revert this
    decide
  obtain ⟨rest, hrest⟩ := h
  rw [series, line, String.toList_ofList, String.toList_ofList, List.append_assoc] at hrest
  obtain ⟨hname, hblock⟩ := boundary_unique s.name_all (s.stopsAt_block rest) t.name_all
    (t.stopsAt_block _) hrest
  have hinner : s.body ++ '}' :: rest = t.body ++ '}' :: (t.gap.1 ++ t.value.text) := by
    simpa [block] using hblock
  have hbody : s.body = t.body := by
    rw [← before_append (hbrace s hs), hinner, before_append (hbrace t ht)]
  rw [series, series, block, block, hname, hbody]

end Sample

end Identity

end SecureGateway.Tools
