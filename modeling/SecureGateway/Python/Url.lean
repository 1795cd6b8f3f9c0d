import SecureGateway.Python.Unicode

/-!
# `urllib.parse.urlsplit`

A URL cut into scheme, network location, path, query and fragment, with the checks on the
network location and what the result's properties read from it. Where the library raises
`ValueError` there is no result. Whether a text is an IPv6 address is left to `ipaddress`.
-/
namespace Python

/-- `_WHATWG_C0_CONTROL_OR_SPACE`. -/
def isC0OrSpace (c : Char) : Bool := c.toNat ≤ 0x20

/-- `_UNSAFE_URL_BYTES_TO_REMOVE`. -/
def isUnsafe (c : Char) : Bool := c = '\t' || c = '\r' || c = '\n'

/-- `scheme_chars`. -/
def schemeChars : List Char :=
  "abcdefghijklmnopqrstuvwxyzABCDEFGHIJKLMNOPQRSTUVWXYZ0123456789+-.".toList

/-- A character that ends the network location. -/
def isDelimiter (c : Char) : Bool := c = '/' || c = '?' || c = '#'

section Cutting

variable (c : Char) (l : List Char)

/-- `partition(c)[0]`. -/
def before : List Char := l.takeWhile (· ≠ c)

/-- `partition(c)[2]`. -/
def after : List Char := (l.dropWhile (· ≠ c)).tail

/-- `rpartition(c)[0]`. -/
def beforeLast : List Char := (after c l.reverse).reverse

/-- `rpartition(c)[2]`. -/
def afterLast : List Char := (before c l.reverse).reverse

end Cutting

structure SplitResult where
  scheme : String
  netloc : String
  path : String
  query : String
  fragment : String
  deriving DecidableEq, Repr

variable (u : Unicode) (ipv6 : String → Bool)

/-- The characters that `urlsplit` looks at. -/
def cleaned (url : List Char) : List Char := (url.dropWhile isC0OrSpace).filter (!isUnsafe ·)

def isScheme (l : List Char) : Bool := l.head?.any Char.isAlpha && l.all (· ∈ schemeChars)

def splitScheme (url : List Char) : String × List Char :=
  if ':' ∈ url ∧ isScheme (before ':' url) = true then
    (u.lower (String.ofList (before ':' url)), after ':' url)
  else ("", url)

/-- `_splitnetloc`, where there is a network location. -/
def splitNetloc : List Char → List Char × List Char
  | '/' :: '/' :: url => (url.takeWhile (!isDelimiter ·), url.dropWhile (!isDelimiter ·))
  | url => ([], url)

/-- The host and the port text of a network location: `_hostinfo`. -/
def hostinfo (netloc : List Char) : List Char × List Char :=
  let hostinfo := afterLast '@' netloc
  if '[' ∈ hostinfo then
    let bracketed := after '[' hostinfo
    (before ']' bracketed, after ':' (after ']' bracketed))
  else (before ':' hostinfo, after ':' hostinfo)

def isHexDigit (c : Char) : Bool := c ∈ "0123456789abcdefABCDEF".toList

/-- `_check_bracketed_host`. -/
def checkBracketedHost (hostname : List Char) : Bool :=
  match hostname with
  | 'v' :: rest =>
    let version := rest.takeWhile isHexDigit
    match rest.dropWhile isHexDigit with
    | '.' :: address => version ≠ [] && address ≠ [] && address.all (· ≠ '\n')
    | _ => false
  | _ => ipv6 (String.ofList hostname)

/-- `_check_bracketed_netloc`. -/
def checkBracketedNetloc (netloc : List Char) : Bool :=
  let hostnameAndPort := afterLast '@' netloc
  if '[' ∈ hostnameAndPort then
    let bracketed := after '[' hostnameAndPort
    let port := after ']' bracketed
    before '[' hostnameAndPort = [] && (port = [] || port.head? = some ':') &&
      checkBracketedHost ipv6 (before ']' bracketed)
  else checkBracketedHost ipv6 (before ':' hostnameAndPort)

/-- `_checknetloc`. -/
def checkNetloc (netloc : List Char) : Bool :=
  if netloc.all (·.toNat < 128) then true
  else
    let n := String.ofList (netloc.filter fun c => c ∉ ['@', ':', '#', '?'])
    u.nfkc n = n || (u.nfkc n).toList.all fun c => c ∉ ['/', '?', '#', '@', ':']

/-- No check on the network location raises. -/
def netlocValid (netloc : List Char) : Bool :=
  decide ('[' ∈ netloc ↔ ']' ∈ netloc) &&
    (decide ('[' ∉ netloc) || checkBracketedNetloc ipv6 netloc) && checkNetloc u netloc

def fragmentOf (url : List Char) : List Char := after '#' url

def queryOf (url : List Char) : List Char := after '?' (before '#' url)

def pathOf (url : List Char) : List Char := before '?' (before '#' url)

def urlsplit (url : String) : Option SplitResult :=
  let (scheme, url) := splitScheme u (cleaned url.toList)
  let (netloc, url) := splitNetloc url
  if netlocValid u ipv6 netloc then
    some ⟨scheme, String.ofList netloc, String.ofList (pathOf url), String.ofList (queryOf url),
      String.ofList (fragmentOf url)⟩
  else none

namespace SplitResult

variable (r : SplitResult)

def hostname : Option String :=
  let host := (hostinfo r.netloc.toList).1
  if host = [] then none
  else some (u.lower (String.ofList (before '%' host)) ++
    String.ofList (host.dropWhile (· ≠ '%')))

/-- The longest text of digits that `int` reads. -/
def maxStrDigits : ℕ := 4300

/-- `port`; nothing where it raises. -/
def port : Option (Option ℕ) :=
  let text := (hostinfo r.netloc.toList).2
  if text = [] then some none
  else if text.all Char.isDigit ∧ text.length ≤ maxStrDigits then
    let port := text.foldl (fun n c => 10 * n + (c.toNat - '0'.toNat)) 0
    if port ≤ 65535 then some (some port) else none
  else none

def username : Option String :=
  if '@' ∈ r.netloc.toList then
    some (String.ofList (before ':' (beforeLast '@' r.netloc.toList)))
  else none

def password : Option String :=
  let userinfo := beforeLast '@' r.netloc.toList
  if '@' ∈ r.netloc.toList ∧ ':' ∈ userinfo then some (String.ofList (after ':' userinfo))
  else none

end SplitResult

section Boundaries

theorem before_of_notMem {c : Char} {l : List Char} (h : c ∉ l) : before c l = l := by
  rw [before, List.takeWhile_eq_self_iff]
  intro d hd
  exact decide_eq_true fun hdc => h (hdc ▸ hd)

theorem after_of_notMem {c : Char} {l : List Char} (h : c ∉ l) : after c l = [] := by
  rw [after, List.dropWhile_eq_nil_iff.mpr]
  · rfl
  · intro d hd
    exact decide_eq_true fun hdc => h (hdc ▸ hd)

theorem before_append {c : Char} {a b : List Char} (h : c ∉ a) : before c (a ++ c :: b) = a := by
  apply takeWhile_boundary
  · intro d hd
    exact decide_eq_true fun hdc => h (hdc ▸ hd)
  · intro d hd
    cases hd
    simp

theorem after_append {c : Char} {a b : List Char} (h : c ∉ a) : after c (a ++ c :: b) = b := by
  rw [after, dropWhile_boundary (b := c :: b)]
  · rfl
  · intro d hd
    exact decide_eq_true fun hdc => h (hdc ▸ hd)
  · intro d hd
    cases hd
    simp

theorem notMem_before (c : Char) (l : List Char) : c ∉ before c l := by
  intro h
  have := List.mem_takeWhile_imp h
  simp at this

/-- A text is what stands before a character of it, the character, and what stands after. -/
theorem before_after {c : Char} {l : List Char} (h : c ∈ l) : l = before c l ++ c :: after c l := by
  have hsplit := List.takeWhile_append_dropWhile (p := (· ≠ c)) (l := l)
  have hstop := stopsAt_dropWhile (· ≠ c) l
  cases hrest : l.dropWhile (· ≠ c) with
  | nil =>
    have hall := List.dropWhile_eq_nil_iff.mp hrest c h
    simp at hall
  | cons d rest =>
    have hd : d = c := by simpa using hstop d (by rw [hrest]; rfl)
    rw [after, hrest, List.tail_cons, before, ← hd]
    conv_lhs => rw [← hsplit, hrest]
    rw [hd]

theorem filter_safe {l : List Char} (h : ∀ c ∈ l, isUnsafe c = false) :
    l.filter (!isUnsafe ·) = l :=
  List.filter_eq_self.mpr fun c hc => by simp [h c hc]

theorem parts_of_plain {l : List Char} (hquery : '?' ∉ l) (hfragment : '#' ∉ l) :
    pathOf l = l ∧ queryOf l = [] ∧ fragmentOf l = [] := by
  rw [pathOf, queryOf, fragmentOf, before_of_notMem hfragment]
  exact ⟨before_of_notMem hquery, after_of_notMem hquery, after_of_notMem hfragment⟩

theorem mem_pathOf {c : Char} {l : List Char} (h : c ∈ pathOf l) : c ∈ l ∧ c ≠ '?' ∧ c ≠ '#' := by
  have hbefore : c ∈ before '#' l := List.takeWhile_subset _ h
  refine ⟨List.takeWhile_subset _ hbefore, ?_, ?_⟩
  · rintro rfl
    exact notMem_before _ _ h
  · rintro rfl
    exact notMem_before _ _ hbefore

end Boundaries

/-- A URL with a network location, cut at its delimiters. -/
structure Cut (lead scheme netloc rest : List Char) : Prop where
  lead : ∀ c ∈ lead, isC0OrSpace c = true
  scheme : isScheme scheme = true
  netloc : ∀ c ∈ netloc, isDelimiter c = false ∧ isUnsafe c = false
  rest : StopsAt (!isDelimiter ·) rest

def assemble (lead scheme netloc rest : List Char) : List Char :=
  lead ++ (scheme ++ ':' :: '/' :: '/' :: (netloc ++ rest))

section Split

variable {u ipv6} {lead scheme netloc rest : List Char}

theorem schemeChar_facts {c : Char} (h : c ∈ schemeChars) :
    c ≠ ':' ∧ isC0OrSpace c = false ∧ isUnsafe c = false ∧ isDelimiter c = false := by
  have hall : (schemeChars.all fun c =>
      c ≠ ':' ∧ isC0OrSpace c = false ∧ isUnsafe c = false ∧ isDelimiter c = false) = true := by
    decide
  exact of_decide_eq_true (List.all_eq_true.mp hall c h)

theorem mem_schemeChars_of_isScheme (h : isScheme scheme = true) {c : Char} (hc : c ∈ scheme) :
    c ∈ schemeChars := by
  rw [isScheme, Bool.and_eq_true, List.all_eq_true] at h
  exact of_decide_eq_true (h.2 c hc)

theorem exists_cons_of_isScheme (h : isScheme scheme = true) : ∃ c l, scheme = c :: l := by
  cases scheme with
  | nil => cases h
  | cons c l => exact ⟨c, l, rfl⟩

/-- Nothing but the rest can lose characters to the cleaning. -/
theorem Cut.cleaned (h : Cut lead scheme netloc rest) :
    cleaned (assemble lead scheme netloc rest) =
      scheme ++ ':' :: '/' :: '/' :: (netloc ++ rest.filter (!isUnsafe ·)) := by
  have hscheme : ∀ c ∈ scheme, isUnsafe c = false := fun c hc =>
    (schemeChar_facts (mem_schemeChars_of_isScheme h.scheme hc)).2.2.1
  rw [Python.cleaned, assemble, dropWhile_boundary h.lead]
  · have hs : scheme.filter (!isUnsafe ·) = scheme :=
      List.filter_eq_self.mpr fun c hc => by simp [hscheme c hc]
    have hn : netloc.filter (!isUnsafe ·) = netloc :=
      List.filter_eq_self.mpr fun c hc => by simp [(h.netloc c hc).2]
    have hcolon : isUnsafe ':' = false := by decide
    have hslash : isUnsafe '/' = false := by decide
    simp [hs, hn, hcolon, hslash]
  · intro c hc
    obtain ⟨d, l, rfl⟩ := exists_cons_of_isScheme h.scheme
    cases hc
    exact (schemeChar_facts (mem_schemeChars_of_isScheme h.scheme List.mem_cons_self)).2.1

theorem stopsAt_filter (h : StopsAt (!isDelimiter ·) rest) :
    StopsAt (!isDelimiter ·) (rest.filter (!isUnsafe ·)) := by
  cases rest with
  | nil => exact h
  | cons c l =>
    have hc : isDelimiter c = true := by simpa using h c rfl
    have hsafe : isUnsafe c = false := by
      simp only [isDelimiter, Bool.or_eq_true, decide_eq_true_eq] at hc
      rcases hc with (rfl | rfl) | rfl <;> decide
    rw [List.filter_cons_of_pos (by simp [hsafe])]
    intro d hd
    exact h d hd

/-- What `urlsplit` makes of a URL with a network location. -/
theorem Cut.urlsplit (h : Cut lead scheme netloc rest) :
    urlsplit u ipv6 (String.ofList (assemble lead scheme netloc rest)) =
      if netlocValid u ipv6 netloc then
        some ⟨u.lower (String.ofList scheme), String.ofList netloc,
          String.ofList (pathOf (rest.filter (!isUnsafe ·))),
          String.ofList (queryOf (rest.filter (!isUnsafe ·))),
          String.ofList (fragmentOf (rest.filter (!isUnsafe ·)))⟩
      else none := by
  have hcolon : ':' ∉ scheme := fun hmem =>
    (schemeChar_facts (mem_schemeChars_of_isScheme h.scheme hmem)).1 rfl
  have hscheme : splitScheme u (scheme ++ ':' :: '/' :: '/' ::
      (netloc ++ rest.filter (!isUnsafe ·))) = (u.lower (String.ofList scheme),
        '/' :: '/' :: (netloc ++ rest.filter (!isUnsafe ·))) := by
    rw [splitScheme, before_append hcolon, after_append hcolon, if_pos ⟨by simp, h.scheme⟩]
  have hnetloc : splitNetloc ('/' :: '/' :: (netloc ++ rest.filter (!isUnsafe ·))) =
      (netloc, rest.filter (!isUnsafe ·)) := by
    have hin : ∀ c ∈ netloc, (!isDelimiter c) = true := fun c hc => by simp [(h.netloc c hc).1]
    rw [splitNetloc, takeWhile_boundary hin (stopsAt_filter h.rest),
      dropWhile_boundary hin (stopsAt_filter h.rest)]
  rw [Python.urlsplit, String.toList_ofList, h.cleaned]
  simp only [hscheme, hnetloc]

theorem splitScheme_inv {url : List Char} (h : (splitScheme u url).1 ≠ "") :
    isScheme (before ':' url) = true ∧ url = before ':' url ++ ':' :: (splitScheme u url).2 := by
  unfold splitScheme at h ⊢
  split
  · next hscheme => exact ⟨hscheme.2, before_after hscheme.1⟩
  · next hscheme =>
    rw [if_neg hscheme] at h
    exact (h rfl).elim

theorem splitNetloc_inv {url : List Char} (h : (splitNetloc url).1 ≠ []) :
    url = '/' :: '/' :: ((splitNetloc url).1 ++ (splitNetloc url).2) ∧
      (∀ c ∈ (splitNetloc url).1, isDelimiter c = false) ∧
      StopsAt (!isDelimiter ·) (splitNetloc url).2 := by
  unfold splitNetloc at h ⊢
  split
  · next url =>
    refine ⟨?_, ?_, stopsAt_dropWhile _ _⟩
    · rw [List.takeWhile_append_dropWhile]
    · intro c hc
      simpa using List.mem_takeWhile_imp hc
  · next hnone =>
    split at h
    · next url => exact (hnone url rfl).elim
    · exact (h rfl).elim

/-- A URL that is read with a scheme and a network location can be cut. -/
theorem cut_of_urlsplit {s : String} {r : SplitResult}
    (hs : ∀ c ∈ s.toList, isUnsafe c = false) (h : urlsplit u ipv6 s = some r)
    (hscheme : r.scheme ≠ "") (hnetloc : r.netloc ≠ "") :
    ∃ lead scheme rest, Cut lead scheme r.netloc.toList rest ∧
      s = String.ofList (assemble lead scheme r.netloc.toList rest) := by
  have hclean : cleaned s.toList = s.toList.dropWhile isC0OrSpace :=
    filter_safe fun c hc => hs c (List.dropWhile_subset _ hc)
  rw [urlsplit, hclean] at h
  generalize hurl : s.toList.dropWhile isC0OrSpace = url at h
  simp only [Option.ite_none_right_eq_some, Option.some.injEq] at h
  obtain ⟨-, rfl⟩ := h
  rw [String.toList_ofList]
  obtain ⟨hisScheme, heq⟩ := splitScheme_inv hscheme
  have hne : (splitNetloc (splitScheme u url).2).1 ≠ [] := fun hnil => hnetloc (by rw [hnil])
  obtain ⟨hrest, hin, hstop⟩ := splitNetloc_inv hne
  have hwhole : s.toList = assemble (s.toList.takeWhile isC0OrSpace) (before ':' url)
      (splitNetloc (splitScheme u url).2).1 (splitNetloc (splitScheme u url).2).2 := by
    rw [assemble, ← hrest, ← heq, ← hurl, List.takeWhile_append_dropWhile]
  refine ⟨s.toList.takeWhile isC0OrSpace, before ':' url,
    (splitNetloc (splitScheme u url).2).2, ⟨?_, hisScheme, ?_, hstop⟩, ?_⟩
  · exact fun c hc => List.mem_takeWhile_imp hc
  · intro c hc
    refine ⟨hin c hc, hs c ?_⟩
    rw [hwhole, assemble]
    simp [hc]
  · rw [← hwhole, String.ofList_toList]

end Split

end Python
