import SecureGateway.Proxy.Registry
import SecureGateway.Proxy.RequestHeaders

/-!
# The URL sent upstream

How `target_url` reads as a URL. The network location ends at the first slash after the
registered one, so no path leaves the registered host; whether the path arrives as a path
depends on the delimiters that the accepted text and the decoded path may still hold.
-/
namespace SecureGateway.Gateway

open Interleaving Python

section Strip

variable {a t : List Char}

/-- The base without its trailing slashes, as a list. -/
def withoutSlashes (l : List Char) : List Char := l.rdropWhile (· == '/')

theorem rstripSlashes_ofList (l : List Char) :
    rstripSlashes (String.ofList l) = String.ofList (withoutSlashes l) := by
  rw [rstripSlashes, String.toList_ofList]
  rfl

theorem withoutSlashes_append (ha : ∀ hne : a ≠ [], a.getLast hne ≠ '/') :
    withoutSlashes (a ++ t) = a ++ withoutSlashes t := by
  have hself : withoutSlashes a = a := by
    rw [withoutSlashes, List.rdropWhile_eq_self_iff]
    intro hne
    simpa using ha hne
  induction t using List.reverseRecOn with
  | nil => rw [List.append_nil, hself]; simp [withoutSlashes]
  | append_singleton t c ih =>
    by_cases hc : c = '/'
    · rw [withoutSlashes, ← List.append_assoc, List.rdropWhile_concat_pos _ _ _ (by simp [hc])]
      rw [withoutSlashes, List.rdropWhile_concat_pos _ _ _ (by simp [hc])]
      exact ih
    · rw [withoutSlashes, ← List.append_assoc, List.rdropWhile_concat_neg _ _ _ (by simp [hc]),
        withoutSlashes, List.rdropWhile_concat_neg _ _ _ (by simp [hc]), List.append_assoc]

end Strip

section Target

variable {u : Unicode} {ipv6 : String → Bool} {lead scheme netloc rest : List Char}
  {path : String}

/-- What follows the network location in the target. -/
def targetRest (rest : List Char) (path : String) : List Char :=
  withoutSlashes rest ++ '/' :: (lstripSlashes path).toList

theorem withoutSlashes_idem (l : List Char) :
    withoutSlashes (withoutSlashes l) = withoutSlashes l :=
  List.rdropWhile_idempotent _ _

/-- The stripped base: only the part after the network location loses slashes. -/
theorem rstripSlashes_cut (h : Cut lead scheme netloc rest) (hne : netloc ≠ []) :
    rstripSlashes (String.ofList (assemble lead scheme netloc rest)) =
      String.ofList (assemble lead scheme netloc (withoutSlashes rest)) := by
  have hassemble : ∀ rest, assemble lead scheme netloc rest =
      (lead ++ (scheme ++ ':' :: '/' :: '/' :: netloc)) ++ rest := by simp [assemble]
  rw [rstripSlashes_ofList, hassemble, hassemble, withoutSlashes_append]
  intro hnil
  have hlast : (lead ++ (scheme ++ ':' :: '/' :: '/' :: netloc)).getLast hnil =
      netloc.getLast hne := by
    rw [List.getLast_append_of_right_ne_nil _ _ (by simp),
      List.getLast_append_of_right_ne_nil _ _ (by simp), List.getLast_cons (by simp),
      List.getLast_cons (by simp), List.getLast_cons hne]
  rw [hlast]
  intro hslash
  have hdelimiter := (h.netloc _ (List.getLast_mem hne)).1
  rw [hslash] at hdelimiter
  cases hdelimiter

theorem cut_withoutSlashes (h : Cut lead scheme netloc rest) :
    Cut lead scheme netloc (withoutSlashes rest) := by
  refine ⟨h.lead, h.scheme, h.netloc, fun c hc => ?_⟩
  obtain ⟨t, ht⟩ := List.rdropWhile_prefix (· == '/') (l := rest)
  apply h.rest
  rw [← ht]
  change (withoutSlashes rest ++ t).head? = some c
  rw [List.head?_append, hc]
  rfl

/-- The target is the base with a longer rest, cut at the same places. -/
theorem cut_target (h : Cut lead scheme netloc rest) :
    Cut lead scheme netloc (targetRest rest path) := by
  refine ⟨h.lead, h.scheme, h.netloc, fun c hc => ?_⟩
  rw [targetRest] at hc
  cases hrest : withoutSlashes rest with
  | nil =>
    rw [hrest] at hc
    cases hc
    rfl
  | cons d l =>
    rw [hrest] at hc
    cases hc
    exact (cut_withoutSlashes h).rest c (by rw [hrest]; rfl)

theorem targetUrl_cut (h : Cut lead scheme netloc rest) (hne : netloc ≠ []) :
    targetUrl (rstripSlashes (String.ofList (assemble lead scheme netloc rest))) path =
      String.ofList (assemble lead scheme netloc (targetRest rest path)) := by
  rw [targetUrl, rstripSlashes_cut h hne, rstripSlashes_cut (cut_withoutSlashes h) hne,
    withoutSlashes_idem, ← String.toList_inj]
  simp [assemble, targetRest]

/-- The two URLs have the same scheme and the same network location, without credentials. -/
def SameHost (u : Unicode) (ipv6 : String → Bool) (configuredUrl targetUrl : String) : Prop :=
  ∃ configured target, urlsplit u ipv6 configuredUrl = some configured ∧
    urlsplit u ipv6 targetUrl = some target ∧ target.scheme = configured.scheme ∧
    target.netloc = configured.netloc ∧ target.hostname u = configured.hostname u ∧
    target.port = configured.port ∧ target.username = none ∧ target.password = none

/-- An accepted value, cut at its delimiters, with what the validator knows of the pieces. -/
structure Registered (u : Unicode) (ipv6 : String → Bool) (value baseUrl : String)
    (lead scheme netloc rest : List Char) : Prop where
  cut : Cut lead scheme netloc rest
  nonempty : netloc ≠ []
  valid : netlocValid u ipv6 netloc = true
  value : strip value = String.ofList (assemble lead scheme netloc rest)
  base : baseUrl = rstripSlashes (String.ofList (assemble lead scheme netloc rest))
  safe : ∀ c ∈ rest, isUnsafe c = false
  query : queryOf rest = []
  fragment : fragmentOf rest = []

theorem registered_of_validate {serviceName value baseUrl : String}
    (h : validateServiceBaseUrl u ipv6 serviceName value = .ok baseUrl) :
    ∃ parsed lead scheme rest, Accepted u ipv6 (strip value) parsed ∧
      Registered u ipv6 value baseUrl lead scheme parsed.netloc.toList rest := by
  obtain ⟨⟨parsed, haccepted⟩, hbase⟩ := accepted_of_validate h
  obtain ⟨hne, lead, scheme, rest, hcut, heq⟩ := haccepted.cut
  have hsafe : ∀ c ∈ rest, isUnsafe c = false := fun c hc =>
    haccepted.safe c (by rw [heq]; simp [assemble, hc])
  have hparsed := haccepted.split
  rw [heq, hcut.urlsplit, filter_safe hsafe] at hparsed
  have hvalid : netlocValid u ipv6 parsed.netloc.toList = true := by
    by_contra hinvalid
    rw [if_neg hinvalid] at hparsed
    cases hparsed
  rw [if_pos hvalid, Option.some.injEq] at hparsed
  refine ⟨parsed, lead, scheme, rest, haccepted, hcut, hne, hvalid, heq, heq ▸ hbase, hsafe, ?_,
    ?_⟩
  · rw [← String.ofList_eq_empty_iff, ← haccepted.query, ← hparsed]
  · rw [← String.ofList_eq_empty_iff, ← haccepted.fragment, ← hparsed]

section Reading

variable {value baseUrl : String} (h : Registered u ipv6 value baseUrl lead scheme netloc rest)

include h

/-- How the base reads. -/
theorem Registered.split_base : urlsplit u ipv6 baseUrl =
    some ⟨u.lower (String.ofList scheme), String.ofList netloc,
      String.ofList (pathOf (withoutSlashes rest)), String.ofList (queryOf (withoutSlashes rest)),
      String.ofList (fragmentOf (withoutSlashes rest))⟩ := by
  have hsafe : ∀ c ∈ withoutSlashes rest, isUnsafe c = false := fun c hc =>
    h.safe c ((List.rdropWhile_prefix _ _).subset hc)
  rw [h.base, rstripSlashes_cut h.cut h.nonempty, (cut_withoutSlashes h.cut).urlsplit,
    if_pos h.valid, filter_safe hsafe]

/-- How the accepted text reads. -/
theorem Registered.split_value : urlsplit u ipv6 (strip value) =
    some ⟨u.lower (String.ofList scheme), String.ofList netloc, String.ofList (pathOf rest), "",
      ""⟩ := by
  rw [h.value, h.cut.urlsplit, if_pos h.valid, filter_safe h.safe, h.query, h.fragment]

/-- How a target reads. -/
theorem Registered.split_target (path : String) :
    urlsplit u ipv6 (targetUrl baseUrl path) =
      some ⟨u.lower (String.ofList scheme), String.ofList netloc,
        String.ofList (pathOf ((targetRest rest path).filter (!isUnsafe ·))),
        String.ofList (queryOf ((targetRest rest path).filter (!isUnsafe ·))),
        String.ofList (fragmentOf ((targetRest rest path).filter (!isUnsafe ·)))⟩ := by
  rw [h.base, targetUrl_cut h.cut h.nonempty, (cut_target h.cut).urlsplit, if_pos h.valid]

end Reading

theorem sameHost_target {serviceName value baseUrl : String}
    (h : validateServiceBaseUrl u ipv6 serviceName value = .ok baseUrl) (path : String) :
    SameHost u ipv6 (strip value) (targetUrl baseUrl path) := by
  obtain ⟨parsed, lead, scheme, rest, haccepted, hregistered⟩ := registered_of_validate h
  have hsplit := hregistered.split_value
  rw [haccepted.split, Option.some.injEq] at hsplit
  have hscheme : u.lower (String.ofList scheme) = parsed.scheme := by rw [hsplit]
  have hnetloc : String.ofList parsed.netloc.toList = parsed.netloc := String.ofList_toList
  refine ⟨parsed, _, haccepted.split, hregistered.split_target path, hscheme, hnetloc, ?_⟩
  refine ⟨?_, ?_, ?_, ?_⟩
  · simp only [SplitResult.hostname, hnetloc]
  · simp only [SplitResult.port, hnetloc]
  · rw [← haccepted.username]
    simp only [SplitResult.username, hnetloc]
  · rw [← haccepted.password]
    simp only [SplitResult.password, hnetloc]

end Target

section Prefix

variable {u : Unicode} {ipv6 : String → Bool} {lead scheme netloc rest : List Char}
  {path : String}

/-- None of the characters that `urlsplit` does not take for a part of a path. -/
def PlainPath (path : String) : Prop := ∀ c ∈ ['?', '#', '\t', '\r', '\n'], c ∉ path.toList

theorem plainPath_of_all
    (h : (['?', '#', '\t', '\r', '\n'].all fun c => c ∉ path.toList) = true) : PlainPath path :=
  fun c hc => of_decide_eq_true (List.all_eq_true.mp h c hc)

/-- The path is appended to the path of the base, and nothing of it becomes a query or a
fragment. -/
def UsablePrefix (u : Unicode) (ipv6 : String → Bool) (baseUrl path : String) : Prop :=
  ∃ base target, urlsplit u ipv6 baseUrl = some base ∧
    urlsplit u ipv6 (targetUrl baseUrl path) = some target ∧
    target.path = rstripSlashes base.path ++ "/" ++ lstripSlashes path ∧
    target.query = "" ∧ target.fragment = ""

theorem mem_lstripSlashes {c : Char} (h : c ∈ (lstripSlashes path).toList) : c ∈ path.toList := by
  rw [lstripSlashes, String.toList_ofList] at h
  exact List.dropWhile_subset _ h

theorem mem_dropWhile {p : Char → Bool} {c : Char} {l : List Char} (h : c ∈ l)
    (hc : p c = false) : c ∈ l.dropWhile p := by
  rw [← List.takeWhile_append_dropWhile (p := p) (l := l), List.mem_append] at h
  rcases h with h | h
  · rw [List.mem_takeWhile_imp h] at hc
    cases hc
  · exact h

theorem mem_strip {c : Char} (hc : isSpace c = false) {s : String} :
    c ∈ (strip s).toList ↔ c ∈ s.toList := by
  rw [strip, String.toList_ofList, List.mem_reverse]
  constructor
  · intro h
    exact List.dropWhile_subset _ (List.mem_reverse.mp (List.dropWhile_subset _ h))
  · intro h
    exact mem_dropWhile (List.mem_reverse.mpr (mem_dropWhile h hc)) hc

/-- The delimiters of query and fragment stand in the rest or nowhere. -/
theorem mem_assemble_iff (h : Cut lead scheme netloc rest) {c : Char} (hc : c = '?' ∨ c = '#') :
    c ∈ assemble lead scheme netloc rest ↔ c ∈ rest := by
  have hlead : c ∉ lead := by
    intro hmem
    have hspace := h.lead c hmem
    rcases hc with rfl | rfl <;> cases hspace
  have hscheme : c ∉ scheme := by
    intro hmem
    have hdelimiter := (schemeChar_facts (mem_schemeChars_of_isScheme h.scheme hmem)).2.2.2
    rcases hc with rfl | rfl <;> cases hdelimiter
  have hnetloc : c ∉ netloc := by
    intro hmem
    have hdelimiter := (h.netloc c hmem).1
    rcases hc with rfl | rfl <;> cases hdelimiter
  have hcolon : c ≠ ':' := by rcases hc with rfl | rfl <;> decide
  have hslash : c ≠ '/' := by rcases hc with rfl | rfl <;> decide
  simp [assemble, hlead, hscheme, hnetloc, hcolon, hslash]

/-- A rest that ends in a character other than the slash loses none. -/
theorem targetRest_concat {l : List Char} {c : Char} (hc : c ≠ '/') :
    targetRest (l ++ [c]) path = l ++ c :: '/' :: (lstripSlashes path).toList := by
  rw [targetRest, withoutSlashes, List.rdropWhile_concat_neg _ _ _ (by simp [hc])]
  simp

theorem notMem_targetRest (hp : PlainPath path) {c : Char} (hc : c ∈ ['?', '#'])
    (h : c ∉ withoutSlashes rest) : c ∉ targetRest rest path := by
  rw [targetRest, List.mem_append, List.mem_cons, not_or, not_or]
  refine ⟨h, ?_, fun hmem => ?_⟩
  · rintro rfl
    revert hc
    decide
  · exact hp c (List.mem_append_left ['\t', '\r', '\n'] hc) (mem_lstripSlashes hmem)

/-- An empty query or fragment of the base is no more than its delimiter, behind which the
whole path then lands. -/
theorem target_parts_iff (hquery : queryOf rest = []) (hfragment : fragmentOf rest = [])
    (hp : PlainPath path) :
    (queryOf (targetRest rest path) = [] ∧ fragmentOf (targetRest rest path) = []) ↔
      '?' ∉ rest ∧ '#' ∉ rest := by
  have hsub : ∀ {c}, c ∉ rest → c ∉ withoutSlashes rest := fun hmem h =>
    hmem ((List.rdropWhile_prefix _ _).subset h)
  constructor
  · rintro ⟨htargetQuery, htargetFragment⟩
    have hhash : '#' ∉ rest := by
      intro hmem
      have hsplit := before_after hmem
      rw [fragmentOf] at hfragment
      rw [hfragment] at hsplit
      rw [hsplit, targetRest_concat (by decide), fragmentOf,
        after_append (notMem_before _ _)] at htargetFragment
      cases htargetFragment
    refine ⟨fun hmem => ?_, hhash⟩
    have hsplit := before_after hmem
    rw [queryOf, before_of_notMem hhash] at hquery
    rw [hquery] at hsplit
    rw [queryOf, before_of_notMem (notMem_targetRest hp (by decide) (hsub hhash)), hsplit,
      targetRest_concat (by decide), after_append (notMem_before _ _)] at htargetQuery
    cases htargetQuery
  · rintro ⟨hquestion, hhash⟩
    exact (parts_of_plain (notMem_targetRest hp (by decide) (hsub hquestion))
      (notMem_targetRest hp (by decide) (hsub hhash))).2

theorem safe_of_plainPath (hp : PlainPath path) :
    ∀ c ∈ (lstripSlashes path).toList, isUnsafe c = false := by
  intro c hc
  have hmem := mem_lstripSlashes hc
  by_contra hunsafe
  simp only [isUnsafe, Bool.not_eq_false, Bool.or_eq_true, decide_eq_true_eq] at hunsafe
  rcases hunsafe with (rfl | rfl) | rfl
  · exact hp _ (by decide) hmem
  · exact hp _ (by decide) hmem
  · exact hp _ (by decide) hmem

theorem Registered.safe_targetRest {value baseUrl : String}
    (h : Registered u ipv6 value baseUrl lead scheme netloc rest) (hp : PlainPath path) :
    ∀ c ∈ targetRest rest path, isUnsafe c = false := by
  intro c hc
  rcases List.mem_append.mp hc with hc | hc
  · exact h.safe c ((List.rdropWhile_prefix _ _).subset hc)
  · rcases List.mem_cons.mp hc with rfl | hc
    · decide
    · exact safe_of_plainPath hp c hc

theorem Registered.mem_value_iff {value baseUrl : String}
    (h : Registered u ipv6 value baseUrl lead scheme netloc rest) {c : Char}
    (hc : c = '?' ∨ c = '#') : c ∈ value.toList ↔ c ∈ rest := by
  have hspace : isSpace c = false := by rcases hc with rfl | rfl <;> decide
  rw [← mem_strip hspace, h.value, String.toList_ofList, mem_assemble_iff h.cut hc]

/-- An accepted value is a usable prefix exactly if it holds neither delimiter. -/
theorem Registered.usablePrefix_iff {value baseUrl : String}
    (h : Registered u ipv6 value baseUrl lead scheme netloc rest) (hp : PlainPath path) :
    UsablePrefix u ipv6 baseUrl path ↔ '?' ∉ value.toList ∧ '#' ∉ value.toList := by
  have htarget := h.split_target path
  rw [filter_safe (h.safe_targetRest hp)] at htarget
  rw [h.mem_value_iff (Or.inl rfl), h.mem_value_iff (Or.inr rfl),
    ← target_parts_iff h.query h.fragment hp]
  constructor
  · rintro ⟨base, target, -, hsplit, -, hquery, hfragment⟩
    rw [htarget, Option.some.injEq] at hsplit
    subst hsplit
    exact ⟨String.ofList_eq_empty_iff.mp hquery, String.ofList_eq_empty_iff.mp hfragment⟩
  · intro hparts
    obtain ⟨hquestion, hhash⟩ := (target_parts_iff h.query h.fragment hp).mp hparts
    have hbaseQuestion : '?' ∉ withoutSlashes rest := fun hmem =>
      hquestion ((List.rdropWhile_prefix _ _).subset hmem)
    have hbaseHash : '#' ∉ withoutSlashes rest := fun hmem =>
      hhash ((List.rdropWhile_prefix _ _).subset hmem)
    refine ⟨_, _, h.split_base, htarget, ?_, String.ofList_eq_empty_iff.mpr hparts.1,
      String.ofList_eq_empty_iff.mpr hparts.2⟩
    have hpath := (parts_of_plain (notMem_targetRest hp (by decide) hbaseQuestion)
      (notMem_targetRest hp (by decide) hbaseHash)).1
    dsimp only
    rw [hpath, (parts_of_plain hbaseQuestion hbaseHash).1, rstripSlashes_ofList,
      withoutSlashes_idem, ← String.toList_inj]
    simp [targetRest]

end Prefix

section Origin

variable {u : Unicode} {ipv6 : String → Bool} {lead scheme netloc rest : List Char}
  {value baseUrl path : String}

/-- `scheme://host[:port]`, without a path. -/
def IsOrigin (baseUrl : String) : Prop :=
  ∃ scheme host : List Char, baseUrl.toList = scheme ++ ':' :: '/' :: '/' :: host ∧
    (∀ c ∈ scheme, isDelimiter c = false) ∧ ∀ c ∈ host, isDelimiter c = false

theorem isDelimiter_of_isC0OrSpace {c : Char} (h : isC0OrSpace c = true) :
    isDelimiter c = false := by
  by_contra hdelimiter
  simp only [isDelimiter, Bool.not_eq_false, Bool.or_eq_true, decide_eq_true_eq] at hdelimiter
  rcases hdelimiter with (rfl | rfl) | rfl <;> cases h

/-- An origin ends with its network location. -/
theorem Registered.rest_of_isOrigin (h : Registered u ipv6 value baseUrl lead scheme netloc rest)
    (ho : IsOrigin baseUrl) : withoutSlashes rest = [] := by
  obtain ⟨scheme', host, heq, hscheme', hhost⟩ := ho
  rw [h.base, rstripSlashes_cut h.cut h.nonempty, String.toList_ofList] at heq
  have hcut := cut_withoutSlashes h.cut
  have hcolon : isDelimiter ':' = false := by decide
  have hstop : ∀ l, StopsAt (!isDelimiter ·) ('/' :: l) := by
    intro l c hc
    cases hc
    rfl
  have hpre : ∀ c ∈ lead ++ (scheme ++ [':']), (!isDelimiter c) = true := by
    intro c hc
    rw [Bool.not_eq_true']
    rcases List.mem_append.mp hc with hc | hc
    · exact isDelimiter_of_isC0OrSpace (hcut.lead c hc)
    · rcases List.mem_append.mp hc with hc | hc
      · exact (schemeChar_facts (mem_schemeChars_of_isScheme hcut.scheme hc)).2.2.2
      · rw [List.mem_singleton.mp hc, hcolon]
  have hpre' : ∀ c ∈ scheme' ++ [':'], (!isDelimiter c) = true := by
    intro c hc
    rw [Bool.not_eq_true']
    rcases List.mem_append.mp hc with hc | hc
    · exact hscheme' c hc
    · rw [List.mem_singleton.mp hc, hcolon]
  -- Both readings agree from the first delimiter on.
  have hdrop := congrArg (List.dropWhile (!isDelimiter ·)) heq
  have hleft : assemble lead scheme netloc (withoutSlashes rest) =
      (lead ++ (scheme ++ [':'])) ++ '/' :: '/' :: (netloc ++ withoutSlashes rest) := by
    simp [assemble]
  have hright : scheme' ++ ':' :: '/' :: '/' :: host =
      (scheme' ++ [':']) ++ '/' :: '/' :: host := by
    simp
  rw [hleft, hright, dropWhile_boundary hpre (hstop _), dropWhile_boundary hpre' (hstop _),
    List.cons_inj_right, List.cons_inj_right] at hdrop
  cases hrest : withoutSlashes rest with
  | nil => rfl
  | cons c l =>
    have hc : (!isDelimiter c) = false := hcut.rest c (by rw [hrest]; rfl)
    rw [hhost c (by rw [← hdrop, hrest]; simp)] at hc
    cases hc

/-- The path arrives as a path, and the client's own parameters are all the query there is. -/
def ForwardedAsPath (u : Unicode) (ipv6 : String → Bool) (http : HttpRequest) (path : String)
    (q : Resilience.UpstreamRequest) : Prop :=
  (∃ target, urlsplit u ipv6 q.url = some target ∧ target.path = "/" ++ lstripSlashes path ∧
    target.query = "" ∧ target.fragment = "") ∧ q.params = http.queryParams

theorem mem_lstripSlashes_iff {c : Char} (hc : c ≠ '/') :
    c ∈ (lstripSlashes path).toList ↔ c ∈ path.toList := by
  constructor
  · exact mem_lstripSlashes
  · intro h
    rw [lstripSlashes, String.toList_ofList]
    exact mem_dropWhile h (by simp [hc])

theorem Registered.forwarded_iff (h : Registered u ipv6 value baseUrl lead scheme netloc rest)
    (ho : IsOrigin baseUrl) :
    (∃ target, urlsplit u ipv6 (targetUrl baseUrl path) = some target ∧
      target.path = "/" ++ lstripSlashes path ∧ target.query = "" ∧ target.fragment = "") ↔
      PlainPath path := by
  have htarget := h.split_target path
  have hrest : targetRest rest path = '/' :: (lstripSlashes path).toList := by
    rw [targetRest, h.rest_of_isOrigin ho]
    rfl
  have hwhole : ("/" ++ lstripSlashes path).toList = '/' :: (lstripSlashes path).toList := by
    simp
  constructor
  · rintro ⟨target, hsplit, hpath, -, -⟩ c hc hmem
    rw [htarget, Option.some.injEq] at hsplit
    subst hsplit
    have hslash : c ≠ '/' := by
      rintro rfl
      revert hc
      decide
    -- The character stands in the path that was read, where none of the five can stand.
    have hread : c ∈ pathOf ((targetRest rest path).filter (!isUnsafe ·)) := by
      rw [← String.toList_inj, String.toList_ofList, hwhole] at hpath
      rw [hpath]
      exact List.mem_cons_of_mem _ ((mem_lstripSlashes_iff hslash).mpr hmem)
    obtain ⟨hfilter, hquestion, hhash⟩ := mem_pathOf hread
    have hsafe := (List.mem_filter.mp hfilter).2
    simp only [List.mem_cons, List.not_mem_nil, or_false] at hc
    rcases hc with rfl | rfl | rfl | rfl | rfl
    · exact hquestion rfl
    · exact hhash rfl
    · cases hsafe
    · cases hsafe
    · cases hsafe
  · intro hp
    have hnone : ∀ {c}, c ∉ withoutSlashes rest := by
      rw [h.rest_of_isOrigin ho]
      exact List.not_mem_nil
    obtain ⟨hpath, hquery, hfragment⟩ := parts_of_plain
      (notMem_targetRest hp (c := '?') (by decide) hnone)
      (notMem_targetRest hp (c := '#') (by decide) hnone)
    rw [filter_safe (h.safe_targetRest hp), hpath, hquery, hfragment] at htarget
    refine ⟨_, htarget, ?_, rfl, rfl⟩
    dsimp only
    rw [← String.toList_inj, String.toList_ofList, hrest, hwhole]

end Origin

/-- A target built on an accepted value stays on its host, whatever the path, and so does every
URL that a run hands to the client. -/
theorem registered_host_kept (cfg : Config) (ipv6 : String → Bool)
    (getenv : String → Option String) :
    (∀ serviceName value baseUrl path : String,
      validateServiceBaseUrl cfg.unicode ipv6 serviceName value = .ok baseUrl →
      SameHost cfg.unicode ipv6 (strip value) (targetUrl baseUrl path)) ∧
    ∀ {σ : Type} (env : Environment gateway σ) (s : σ) (http : HttpRequest)
      (serviceName path : String) (decision : RateLimit.RateLimitDecision)
      (q : Resilience.UpstreamRequest),
      Sends (cfg.deployed ipv6 getenv) http serviceName path decision env s q →
      ∃ value, configuredUrl getenv serviceName = some value ∧
        SameHost cfg.unicode ipv6 (strip value) q.url := by
  constructor
  · intro serviceName value baseUrl path h
    exact sameHost_target h path
  · intro σ env s http serviceName path decision q hq
    obtain ⟨baseUrl, body, hbase, rfl⟩ := hq.built
    obtain ⟨value, hvalue, hvalid⟩ := requestBaseUrl_deployed hbase
    exact ⟨value, hvalue, sameHost_target hvalid path⟩

section Examples

variable {ipv6 : String → Bool} {getenv : String → Option String} {baseUrl : String}

theorem requestBaseUrl_of_registered
    (h : registeredBaseUrl .ascii ipv6 getenv "service-a" = .ok baseUrl) :
    requestBaseUrl (defaultConfig.deployed ipv6 getenv) "service-a" = .ok baseUrl := by
  have hget : getServiceBaseUrl (defaultConfig.deployed ipv6 getenv) "service-a" = .ok baseUrl :=
    (getServiceBaseUrl_deployed (by decide)).trans h
  rw [requestBaseUrl, hget]

/-- A deployment with working back ends sends to the URL that its registry gives. -/
theorem deployed_sends
    (h : registeredBaseUrl .ascii ipv6 getenv "service-a" = .ok baseUrl) (http : HttpRequest)
    (path : String) (outside : Outside) :
    Sends (defaultConfig.deployed ipv6 getenv) http "service-a" path firstDecision
      (working .default outside) migratedWorld
      ⟨"service-a", http.method, targetUrl baseUrl path, http.queryParams,
        outgoingHeaders (defaultConfig.deployed ipv6 getenv) http, outside.body⟩ := by
  refine ⟨⟨.upstream (.request _), ()⟩, ?_, rfl⟩
  rw [forwardRequest, requestBaseUrl_of_registered h]
  exact List.mem_of_getElem? (i := 2) rfl

theorem eq_ok_of_toOption {x : Except Raised String} (h : x.toOption = some baseUrl) :
    x = .ok baseUrl := by
  cases x with
  | error e => cases h
  | ok b =>
    cases h
    rfl

def noAddress : String → Bool := fun _ => false

def noVariables : String → Option String := fun _ => none

theorem default_registered :
    registeredBaseUrl .ascii noAddress noVariables "service-a" = .ok "http://127.0.0.1:8001" :=
  eq_ok_of_toOption (by decide +kernel)

end Examples

theorem default_host_kept :
    ∃ value, configuredUrl noVariables "service-a" = some value ∧
      SameHost .ascii noAddress (strip value)
        (targetUrl "http://127.0.0.1:8001" "//evil.example:80/@x?y#z") := by
  have hsent := deployed_sends default_registered plainRequest "//evil.example:80/@x?y#z"
    (outsideWorks true)
  exact (registered_host_kept defaultConfig noAddress noVariables).2 _ _ _ _ _ _ _ hsent

/-- For an accepted value and a path without delimiters and line breaks, the path of the target
is that of the base, continued, exactly if the value holds neither `?` nor `#`. -/
theorem accepted_url_usable_iff (u : Unicode) (ipv6 : String → Bool)
    (serviceName value baseUrl path : String)
    (h : validateServiceBaseUrl u ipv6 serviceName value = .ok baseUrl) (hp : PlainPath path) :
    UsablePrefix u ipv6 baseUrl path ↔ '?' ∉ value.toList ∧ '#' ∉ value.toList := by
  obtain ⟨parsed, lead, scheme, rest, -, hregistered⟩ := registered_of_validate h
  exact hregistered.usablePrefix_iff hp

theorem default_url_usable : UsablePrefix .ascii noAddress "http://127.0.0.1:8001" "items/1" := by
  have hp : PlainPath "items/1" := plainPath_of_all (by decide +kernel)
  exact (accepted_url_usable_iff .ascii noAddress "service-a" "http://127.0.0.1:8001" _ _
    default_registered hp).mpr (by decide +kernel)

/-- An empty query is accepted with its delimiter, and the path becomes the query. -/
theorem empty_query_accepted :
    validateServiceBaseUrl .ascii noAddress "service-a" "http://service-a:8000?" =
        .ok "http://service-a:8000?" ∧
      PlainPath "items" ∧ ¬ UsablePrefix .ascii noAddress "http://service-a:8000?" "items" := by
  have hvalid : validateServiceBaseUrl .ascii noAddress "service-a" "http://service-a:8000?" =
      .ok "http://service-a:8000?" := eq_ok_of_toOption (by decide +kernel)
  have hp : PlainPath "items" := plainPath_of_all (by decide +kernel)
  refine ⟨hvalid, hp, fun husable => ?_⟩
  obtain ⟨parsed, lead, scheme, rest, -, hregistered⟩ := registered_of_validate hvalid
  exact ((hregistered.usablePrefix_iff hp).mp husable).1 (by decide +kernel)

/-- Over an origin the decoded path is forwarded as a path exactly if it holds no character
that `urlsplit` drops or takes for a delimiter. -/
theorem proxied_path_forwarded_iff {σ : Type} (cfg : Config) (ipv6 : String → Bool)
    (getenv : String → Option String) (env : Environment gateway σ) (s : σ) (http : HttpRequest)
    (serviceName path baseUrl : String) (decision : RateLimit.RateLimitDecision)
    (q : Resilience.UpstreamRequest)
    (h : Sends (cfg.deployed ipv6 getenv) http serviceName path decision env s q)
    (hb : requestBaseUrl (cfg.deployed ipv6 getenv) serviceName = .ok baseUrl)
    (ho : IsOrigin baseUrl) :
    ForwardedAsPath cfg.unicode ipv6 http path q ↔ PlainPath path := by
  obtain ⟨baseUrl', body, hb', rfl⟩ := h.built
  have heq := hb.symm.trans hb'
  obtain rfl := Except.ok.inj heq
  obtain ⟨value, -, hvalid⟩ := requestBaseUrl_deployed hb
  obtain ⟨parsed, lead, scheme, rest, -, hregistered⟩ := registered_of_validate hvalid
  rw [ForwardedAsPath, hregistered.forwarded_iff ho]
  exact ⟨fun hpath => hpath.1, fun hpath => ⟨hpath, rfl⟩⟩

theorem isOrigin_default : IsOrigin "http://127.0.0.1:8001" := by
  have hfree : ∀ l ∈ ["http".toList, "127.0.0.1:8001".toList],
      (l.all fun c => isDelimiter c = false) = true := by decide +kernel
  have hdelimiter : ∀ l ∈ ["http".toList, "127.0.0.1:8001".toList], ∀ c ∈ l,
      isDelimiter c = false := fun l hl c hc =>
    of_decide_eq_true (List.all_eq_true.mp (hfree l hl) c hc)
  refine ⟨"http".toList, "127.0.0.1:8001".toList, by decide +kernel, ?_, ?_⟩
  · exact hdelimiter _ (by simp)
  · exact hdelimiter _ (by simp)

theorem plain_path_forwarded :
    ForwardedAsPath .ascii noAddress plainRequest "items/1"
      ⟨"service-a", "GET", targetUrl "http://127.0.0.1:8001" "items/1", [],
        outgoingHeaders (defaultConfig.deployed noAddress noVariables) plainRequest, []⟩ := by
  have hsent := deployed_sends default_registered plainRequest "items/1" (outsideWorks true)
  have hp : PlainPath "items/1" := plainPath_of_all (by decide +kernel)
  exact (proxied_path_forwarded_iff defaultConfig noAddress noVariables _ _ plainRequest _ _ _ _ _
    hsent (requestBaseUrl_of_registered default_registered) isOrigin_default).mpr hp

/-- The path that arrives as `items%3Fadmin=1` is sent as a path and a query. -/
theorem decoded_question_becomes_query :
    Sends (defaultConfig.deployed noAddress noVariables) plainRequest "service-a" "items?admin=1"
        firstDecision (working .default (outsideWorks true)) migratedWorld
        ⟨"service-a", "GET", targetUrl "http://127.0.0.1:8001" "items?admin=1", [],
          outgoingHeaders (defaultConfig.deployed noAddress noVariables) plainRequest, []⟩ ∧
      IsOrigin "http://127.0.0.1:8001" ∧
      ¬ ForwardedAsPath .ascii noAddress plainRequest "items?admin=1"
        ⟨"service-a", "GET", targetUrl "http://127.0.0.1:8001" "items?admin=1", [],
          outgoingHeaders (defaultConfig.deployed noAddress noVariables) plainRequest, []⟩ := by
  refine ⟨deployed_sends default_registered _ _ _, isOrigin_default, fun hforwarded => ?_⟩
  have hvalid : validateServiceBaseUrl .ascii noAddress "service-a" "http://127.0.0.1:8001" =
      .ok "http://127.0.0.1:8001" := default_registered
  obtain ⟨parsed, lead, scheme, rest, -, hregistered⟩ := registered_of_validate hvalid
  have hp := (hregistered.forwarded_iff isOrigin_default).mp hforwarded.1
  exact hp '?' (by decide) (by decide +kernel)

end SecureGateway.Gateway
