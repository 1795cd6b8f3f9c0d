import Mathlib.Data.List.Perm.Subperm
import Mathlib.Data.List.Dedup
import SecureGateway.Proxy.RequestHeaders

/-!
# The headers sent back

From the header lines of an upstream response to those the client receives: httpx joins the
lines of one name into one item under the lower-case name, the route filters the items and
adds the limiter's headers in a dictionary that tells casings apart, and Starlette emits one
line for each entry, with the name in lower case.
-/
namespace Httpx

/-- The field names of the lines, in lower case, in the order of their first appearance. -/
def names (lines : List (String × String)) : List String :=
  (lines.map fun l => l.1.toLower).reverse.dedup.reverse

def valuesOf (lines : List (String × String)) (name : String) : List String :=
  (lines.filter fun l => l.1.toLower = name).map Prod.snd

/-- `Headers.items()`: one pair for each name, with the values of its lines joined. -/
def items (lines : List (String × String)) : Python.Dict :=
  (names lines).map fun name => (name, ", ".intercalate (valuesOf lines name))

variable {lines : List (String × String)}

theorem mem_names {name : String} : name ∈ names lines ↔ ∃ l ∈ lines, l.1.toLower = name := by
  simp [names]

theorem keys_items : (items lines).keys = names lines := by
  simp [items, Python.Dict.keys, Function.comp_def]

theorem nodup_keys_items (lines : List (String × String)) : (items lines).keys.Nodup := by
  rw [keys_items, names, List.nodup_reverse]
  exact List.nodup_dedup _

theorem mem_items {x : String × String} :
    x ∈ items lines ↔
      (∃ l ∈ lines, l.1.toLower = x.1) ∧ x.2 = ", ".intercalate (valuesOf lines x.1) := by
  rw [items, List.mem_map, ← mem_names]
  constructor
  · rintro ⟨name, hname, rfl⟩
    exact ⟨hname, rfl⟩
  · rintro ⟨hname, hvalue⟩
    exact ⟨x.1, hname, Prod.ext rfl hvalue.symm⟩

theorem isUpper_toLower (c : Char) : c.toLower.isUpper = false := by
  by_cases hascii : c.toNat < 128
  · exact Python.forall_ascii (P := fun c => c.toLower.isUpper = false) (by decide) hascii
  · have hrange : ¬ (c.val ≥ 'A'.val ∧ c.val ≤ 'Z'.val) := fun h =>
      hascii (Nat.lt_of_le_of_lt (UInt32.le_iff_toNat_le.mp h.2) (by decide))
    have hsame : c.toLower = c := dif_neg hrange
    rw [hsame, Bool.eq_false_iff]
    intro hupper
    exact hrange (of_decide_eq_true hupper)

/-- A name with an upper-case letter is not the name of an item. -/
theorem toLower_ne {s t : String} (h : t.toList.any Char.isUpper = true) : s.toLower ≠ t := by
  rintro rfl
  obtain ⟨c, hc, hupper⟩ := List.any_eq_true.mp h
  change c ∈ (s.map Char.toLower).toList at hc
  rw [String.toList_map] at hc
  obtain ⟨d, -, rfl⟩ := List.mem_map.mp hc
  rw [isUpper_toLower] at hupper
  cases hupper

end Httpx

namespace SecureGateway.Gateway

open Interleaving Proxy Resilience Python

section Filter

variable (u : Unicode)

/-- The names blocked in every response. -/
def blockedResponseNames : List String :=
  hopByHopHeaders ++ gatewayOwnedObservabilityHeaders ++
    ["content-length", "content-encoding", "date", "server"]

def BlockedInResponse (headers : List (String × String)) (name : String) : Prop :=
  u.lower name ∈ blockedResponseNames ∨ ListedInConnection u headers (u.lower name)

instance (headers : List (String × String)) (name : String) :
    Decidable (BlockedInResponse u headers name) :=
  inferInstanceAs (Decidable (_ ∨ _))

theorem filterResponseHeaders_eq (headers : List (String × String)) :
    filterResponseHeaders u headers =
      Dict.ofPairs (headers.filter fun h => ¬ BlockedInResponse u headers h.1) := by
  unfold filterResponseHeaders withoutNames
  congr 1
  refine List.filter_congr fun h _ => ?_
  rw [decide_eq_decide, BlockedInResponse, blockedResponseNames, ← mem_getConnectionHeaderTokens]
  simp only [List.mem_append]
  tauto

/-- Of items with distinct names the filter loses none but the blocked ones. -/
theorem mem_filterResponseHeaders {headers : Dict} (hd : headers.keys.Nodup)
    {x : String × String} :
    x ∈ filterResponseHeaders u headers ↔ x ∈ headers ∧ ¬ BlockedInResponse u headers x.1 := by
  rw [filterResponseHeaders_eq]
  have hmem : x ∈ headers.filter (fun h => ¬ BlockedInResponse u headers h.1) ↔
      x ∈ headers ∧ ¬ BlockedInResponse u headers x.1 := by
    rw [List.mem_filter, decide_eq_true_eq]
  constructor
  · intro h
    exact hmem.mp (Dict.mem_of_mem_ofPairs h)
  · intro h
    exact Dict.mem_update_right (hd.sublist (List.filter_sublist.map _)) (hmem.mpr h)

/-- `Response(headers=...)`: one line for each entry, with the name in lower case. -/
def deliveredLines (headers : Dict) : List (String × String) :=
  headers.map fun e => (u.lower e.1, e.2)

theorem filter_deliveredLines (headers : Dict) (name : String) :
    (deliveredLines u headers).filter (fun l => l.1 = name) =
      deliveredLines u (headers.filter fun e => u.lower e.1 = name) := by
  rw [deliveredLines, deliveredLines, List.filter_map]
  rfl

end Filter

section RateLimit

variable {cfg : Config} {decision : RateLimit.RateLimitDecision}
  {lines : List (String × String)}

/-- Under each name of `build_rate_limit_headers` the client finds one line, with its value. -/
def Authoritative (u : Unicode) (decision : RateLimit.RateLimitDecision) (headers : Dict) : Prop :=
  ∀ e ∈ buildRateLimitHeaders decision,
    (deliveredLines u headers).filter (fun l => l.1 = u.lower e.1) = [(u.lower e.1, e.2)]

/-- The names that `build_rate_limit_headers` can set. -/
def rateLimitKeys : List String :=
  ["X-RateLimit-Limit", "X-RateLimit-Remaining", "X-RateLimit-Reset", "Retry-After"]

def rateLimitNames : List String :=
  ["x-ratelimit-limit", "x-ratelimit-remaining", "x-ratelimit-reset"]

theorem keys_buildRateLimitHeaders (h : decision.allowed = true) :
    Dict.keys (buildRateLimitHeaders decision) =
      ["X-RateLimit-Limit", "X-RateLimit-Remaining", "X-RateLimit-Reset"] := by
  simp [buildRateLimitHeaders, Dict.keys, h]

theorem keys_buildRateLimitHeaders_sublist (decision : RateLimit.RateLimitDecision) :
    (Dict.keys (buildRateLimitHeaders decision)).Sublist rateLimitKeys := by
  unfold buildRateLimitHeaders
  split
  · exact List.sublist_append_left _ ["Retry-After"]
  · exact List.Sublist.refl _

theorem nodup_keys_buildRateLimitHeaders (decision : RateLimit.RateLimitDecision) :
    (Dict.keys (buildRateLimitHeaders decision)).Nodup :=
  List.Nodup.sublist (keys_buildRateLimitHeaders_sublist decision) (by decide)

theorem lower_rateLimitKey (u : Unicode) {key : String} (h : key ∈ rateLimitKeys) :
    u.lower key = key.toLower := by
  have hascii : ∀ k ∈ rateLimitKeys, isAscii k = true := by decide
  exact u.lower_ascii key (hascii key h)

theorem lower_keys_buildRateLimitHeaders (u : Unicode) (h : decision.allowed = true) :
    (buildRateLimitHeaders decision).map (u.lower ∘ Prod.fst) = rateLimitNames := by
  have hlower : (Dict.keys (buildRateLimitHeaders decision)).map u.lower = rateLimitNames := by
    rw [List.map_congr_left fun n hn => lower_rateLimitKey u
      ((keys_buildRateLimitHeaders_sublist decision).subset hn), keys_buildRateLimitHeaders h]
    decide +kernel
  rwa [Dict.keys, List.map_map] at hlower

/-- No name of an item is one of them: they have capitals. -/
theorem toLower_notMem_rateLimitKeys (s : String) : s.toLower ∉ rateLimitKeys := by
  intro hmem
  have hupper : ∀ n ∈ rateLimitKeys, n.toList.any Char.isUpper = true := by decide
  exact Httpx.toLower_ne (hupper _ hmem) rfl

theorem nodup_responseHeaders (headers : List (String × String)) :
    (responseHeaders cfg headers decision).keys.Nodup := by
  rw [responseHeaders, filterResponseHeaders_eq]
  exact Dict.nodup_keys_update (Dict.nodup_keys_ofPairs _)

/-- What the client receives: the limiter's headers and the items that are not blocked. -/
theorem mem_responseHeaders {x : String × String} :
    x ∈ responseHeaders cfg (Httpx.items lines) decision ↔
      x ∈ buildRateLimitHeaders decision ∨ (x ∈ Httpx.items lines ∧
        ¬ BlockedInResponse cfg.unicode (Httpx.items lines) x.1) := by
  rw [← mem_filterResponseHeaders cfg.unicode (Httpx.nodup_keys_items lines)]
  constructor
  · intro hx
    rcases Dict.mem_of_mem_update hx with hx | ⟨hx, -⟩
    · exact Or.inl hx
    · exact Or.inr hx
  · rintro (hx | hx)
    · exact Dict.mem_update_right (nodup_keys_buildRateLimitHeaders decision) hx
    · refine Dict.mem_update_left hx fun hkey => ?_
      have hitem := ((mem_filterResponseHeaders _ (Httpx.nodup_keys_items lines)).mp hx).1
      obtain ⟨⟨l, -, hl⟩, -⟩ := Httpx.mem_items.mp hitem
      have hmem := (keys_buildRateLimitHeaders_sublist decision).subset hkey
      rw [← hl] at hmem
      exact toLower_notMem_rateLimitKeys _ hmem

/-- The limiter's headers are the client's only ones of their names where no line that is let
through bears one. -/
theorem authoritative_iff (h : decision.allowed = true) :
    Authoritative cfg.unicode decision (responseHeaders cfg (Httpx.items lines) decision) ↔
      ∀ l ∈ lines, cfg.unicode.lower l.1.toLower ∈ rateLimitNames →
        ListedInConnection cfg.unicode (Httpx.items lines) (cfg.unicode.lower l.1.toLower) := by
  have hnames := lower_keys_buildRateLimitHeaders cfg.unicode h
  constructor
  · intro hauth l hl hname
    by_contra hlisted
    have hblocked : ¬ BlockedInResponse cfg.unicode (Httpx.items lines) l.1.toLower := by
      rintro (hblocked | hblocked)
      · have hfree : ∀ n ∈ rateLimitNames, n ∉ blockedResponseNames := by decide +kernel
        exact hfree _ hname hblocked
      · exact hlisted hblocked
    rw [← hnames] at hname
    obtain ⟨e, he, hlower⟩ := List.mem_map.mp hname
    -- The item of the upstream's line and the limiter's header are delivered under one name.
    have hitem : (l.1.toLower, ", ".intercalate (Httpx.valuesOf lines l.1.toLower)) ∈
        responseHeaders cfg (Httpx.items lines) decision :=
      mem_responseHeaders.mpr (Or.inr ⟨Httpx.mem_items.mpr ⟨⟨l, hl, rfl⟩, rfl⟩, hblocked⟩)
    have hone := congrArg List.length (hauth e he)
    rw [filter_deliveredLines, deliveredLines, List.length_map] at hone
    obtain ⟨y, hy⟩ := List.length_eq_one_iff.mp hone
    have hitem : _ ∈ [y] := hy ▸ List.mem_filter.mpr ⟨hitem, decide_eq_true hlower.symm⟩
    have hgateway : e ∈ [y] := hy ▸ List.mem_filter.mpr
      ⟨mem_responseHeaders.mpr (Or.inl he), decide_eq_true rfl⟩
    have heq := (List.mem_singleton.mp hitem).trans (List.mem_singleton.mp hgateway).symm
    apply toLower_notMem_rateLimitKeys l.1
    apply (keys_buildRateLimitHeaders_sublist decision).subset
    exact List.mem_map.mpr ⟨e, he, (congrArg Prod.fst heq).symm⟩
  · intro hlines e he
    rw [filter_deliveredLines, Dict.filter_eq_singleton (nodup_responseHeaders _)
      (mem_responseHeaders.mpr (Or.inl he)) (decide_eq_true rfl)]
    · rfl
    intro y hy hlower
    have hlower : cfg.unicode.lower y.1 = cfg.unicode.lower e.1 := of_decide_eq_true hlower
    rcases mem_responseHeaders.mp hy with hy | ⟨hy, hblocked⟩
    · have hnodup : ((buildRateLimitHeaders decision).map
          (cfg.unicode.lower ∘ Prod.fst)).Nodup := by
        rw [hnames]
        decide
      rw [List.inj_on_of_nodup_map hnodup hy he hlower]
    · obtain ⟨⟨l, hl, hyl⟩, -⟩ := Httpx.mem_items.mp hy
      have hname : cfg.unicode.lower l.1.toLower ∈ rateLimitNames := by
        rw [hyl, hlower, ← hnames]
        exact List.mem_map_of_mem he
      have hlisted := hlines l hl hname
      rw [hyl] at hlisted
      exact (hblocked (Or.inr hlisted)).elim

end RateLimit

section Runs

/-- Every response of the client in the run has the header lines that `lines` names. -/
def CarriesLines (h : History gateway) (lines : UpstreamResponse → List (String × String)) :
    Prop :=
  ∀ r, ⟨.upstream .response, .ok r⟩ ∈ h → r.headers = Httpx.items (lines r)

/-- `response` is the client's response `r` under other headers. -/
def Relays (h : History gateway) (response : ApiResponse) (r : UpstreamResponse)
    (headers : Dict) : Prop :=
  ⟨.upstream .response, .ok r⟩ ∈ h ∧ response = .proxied r.statusCode headers r.content

variable {σ : Type} {cfg : Config} {http : HttpRequest} {serviceName path : String}
  {decision : RateLimit.RateLimitDecision} {env : Environment gateway σ} {s : σ}
  {lines : UpstreamResponse → List (String × String)} {response : ApiResponse}

theorem relays_of_exec
    (hl : CarriesLines ((forwardRequest cfg http serviceName path decision).exec env s).history
      lines)
    (hr : ((forwardRequest cfg http serviceName path decision).exec env s).outcome =
      .ok response) :
    ∃ r, Relays ((forwardRequest cfg http serviceName path decision).exec env s).history response
      r (responseHeaders cfg (Httpx.items (lines r)) decision) := by
  obtain ⟨r, hmem, heq⟩ := forwardRequest_returns env s hr
  rw [hl r hmem] at heq
  exact ⟨r, hmem, heq⟩

end Runs

/-- In every run the client finds the limiter's three headers as the limiter set them exactly
if the upstream response it relays has no line of those names, but for lines that its
`Connection` header lists. -/
theorem rateLimit_headers_authoritative_iff {σ : Type} (cfg : Config) (http : HttpRequest)
    (serviceName path : String) (decision : RateLimit.RateLimitDecision)
    (env : Environment gateway σ) (s : σ) (lines : UpstreamResponse → List (String × String))
    (response : ApiResponse) (h : decision.allowed = true)
    (hl : CarriesLines ((forwardRequest cfg http serviceName path decision).exec env s).history
      lines)
    (hr : ((forwardRequest cfg http serviceName path decision).exec env s).outcome =
      .ok response) :
    ∃ r headers,
      Relays ((forwardRequest cfg http serviceName path decision).exec env s).history response r
        headers ∧
      (Authoritative cfg.unicode decision headers ↔
        ∀ l ∈ lines r, cfg.unicode.lower l.1.toLower ∈ rateLimitNames →
          ListedInConnection cfg.unicode (Httpx.items (lines r))
            (cfg.unicode.lower l.1.toLower)) := by
  obtain ⟨r, hrelays⟩ := relays_of_exec hl hr
  exact ⟨r, _, hrelays, authoritative_iff h⟩

/-- The back ends work, and the service answers with these header lines. -/
def outsideAnswers (lines : List (String × String)) : Outside :=
  { outsideWorks true with response := .ok ⟨200, Httpx.items lines, []⟩ }

theorem working_relays (http : HttpRequest) (path : String) (lines : List (String × String)) :
    CarriesLines ((forwardRequest defaultConfig http "service-a" path firstDecision).exec
        (working .default (outsideAnswers lines)) migratedWorld).history (fun _ => lines) ∧
      ((forwardRequest defaultConfig http "service-a" path firstDecision).exec
        (working .default (outsideAnswers lines)) migratedWorld).outcome =
      .ok (.proxied 200 (responseHeaders defaultConfig (Httpx.items lines) firstDecision) []) := by
  constructor
  · intro r hr
    obtain ⟨w, hw⟩ := Prog.exec_replies hr
    cases hw
    rfl
  · rfl

/-- A service that sends `X-RateLimit-Limit` itself: the client receives the name twice. -/
theorem upstream_limit_duplicates :
    ((forwardRequest defaultConfig plainRequest "service-a" "ping" firstDecision).exec
        (working .default (outsideAnswers [("X-RateLimit-Limit", "1000")]))
        migratedWorld).outcome =
      .ok (.proxied 200 (responseHeaders defaultConfig
        (Httpx.items [("X-RateLimit-Limit", "1000")]) firstDecision) []) ∧
    ¬ Authoritative defaultConfig.unicode firstDecision (responseHeaders defaultConfig
        (Httpx.items [("X-RateLimit-Limit", "1000")]) firstDecision) := by
  refine ⟨(working_relays _ _ _).2, fun hauth => ?_⟩
  have hlisted := (authoritative_iff rfl).mp hauth _ List.mem_cons_self (by decide +kernel)
  have hfree : ¬ ListedInConnection defaultConfig.unicode
      (Httpx.items [("X-RateLimit-Limit", "1000")])
      (defaultConfig.unicode.lower "X-RateLimit-Limit".toLower) := by decide +kernel
  exact hfree hlisted

theorem plain_answer_authoritative :
    ∃ r headers,
      Relays ((forwardRequest defaultConfig plainRequest "service-a" "ping" firstDecision).exec
        (working .default (outsideAnswers [("Content-Type", "text/plain")]))
        migratedWorld).history
        (.proxied 200 (responseHeaders defaultConfig
          (Httpx.items [("Content-Type", "text/plain")]) firstDecision) []) r headers ∧
      Authoritative defaultConfig.unicode firstDecision headers := by
  obtain ⟨hl, hr⟩ := working_relays plainRequest "ping" [("Content-Type", "text/plain")]
  obtain ⟨r, headers, hrelays, hiff⟩ := rateLimit_headers_authoritative_iff defaultConfig
    plainRequest "service-a" "ping" firstDecision _ _ _ _ rfl hl hr
  refine ⟨r, headers, hrelays, hiff.mpr fun l hl hname => ?_⟩
  cases List.mem_singleton.mp hl
  have hfree : defaultConfig.unicode.lower "Content-Type".toLower ∉ rateLimitNames := by
    decide +kernel
  exact (hfree hname).elim

end SecureGateway.Gateway
