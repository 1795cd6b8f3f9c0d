import SecureGateway.Gateway.System
import SecureGateway.Proxy.Forwarding

/-!
# The headers sent upstream

Which lines of a request reach a service. A header that the filter blocks never does, in no
casing; the gateway's own four come after the filter, under names that the filter blocks, so
nothing the client sends can stand beside them.
-/
namespace SecureGateway.Gateway

open Interleaving Proxy Resilience Python

section Filter

variable (u : Unicode)

/-- The names blocked in every request. -/
def blockedRequestNames : List String :=
  hopByHopHeaders ++ spoofableForwardingHeaders ++ spoofableAuthorizationHeaders ++
    gatewayOwnedObservabilityHeaders ++ ["host", "content-length", "accept-encoding"]

/-- A `Connection` header, in any casing, lists the name. -/
def ListedInConnection (headers : List (String × String)) (name : String) : Prop :=
  ∃ h ∈ headers, u.lower h.1 = "connection" ∧
    ∃ token ∈ h.2.splitOn ",", strip token ≠ "" ∧ u.lower (strip token) = name

instance (headers : List (String × String)) (name : String) :
    Decidable (ListedInConnection u headers name) :=
  inferInstanceAs (Decidable (∃ h ∈ headers, u.lower h.1 = "connection" ∧
    ∃ token ∈ h.2.splitOn ",", strip token ≠ "" ∧ u.lower (strip token) = name))

/-- The name must not reach a service. -/
def BlockedInRequest (headers : List (String × String)) (name : String) : Prop :=
  u.lower name ∈ blockedRequestNames ∨ ListedInConnection u headers (u.lower name)

instance (headers : List (String × String)) (name : String) :
    Decidable (BlockedInRequest u headers name) :=
  inferInstanceAs (Decidable (_ ∨ _))

theorem mem_getConnectionHeaderTokens (headers : List (String × String)) (name : String) :
    name ∈ getConnectionHeaderTokens u headers ↔ ListedInConnection u headers name := by
  simp only [getConnectionHeaderTokens, ListedInConnection, List.mem_flatMap, List.mem_filter,
    List.mem_map, decide_eq_true_eq, and_assoc]

/-- The lines that the filter lets through. -/
def unblockedLines (headers : List (String × String)) : List (String × String) :=
  headers.filter fun h => ¬ BlockedInRequest u headers h.1

theorem filterRequestHeaders_eq (headers : List (String × String)) :
    filterRequestHeaders u headers = Dict.ofPairs (unblockedLines u headers) := by
  unfold filterRequestHeaders withoutNames unblockedLines
  congr 1
  refine List.filter_congr fun h _ => ?_
  rw [decide_eq_decide, BlockedInRequest, blockedRequestNames, ← mem_getConnectionHeaderTokens]
  simp only [List.mem_append]
  tauto

end Filter

variable (cfg : Config) (http : HttpRequest)

/-- The inbound `Host`. -/
def inboundHost : Option String :=
  (http.headers.find? fun h => cfg.unicode.lower h.1 = "host").map Prod.snd

def forwardedFor : Dict :=
  match http.clientHost with
  | none => []
  | some host => [("x-forwarded-for", host)]

def forwardedHost : Dict :=
  match inboundHost cfg http with
  | none => []
  | some host => if host = "" then [] else [("x-forwarded-host", host)]

/-- The headers that the gateway itself sets. -/
def gatewayHeaders : Dict :=
  ("x-request-id", http.requestId.str) :: forwardedFor http ++
    ("x-forwarded-proto", http.scheme) :: forwardedHost cfg http

def gatewayNames : List String :=
  ["x-request-id", "x-forwarded-for", "x-forwarded-proto", "x-forwarded-host"]

theorem outgoingHeaders_eq :
    outgoingHeaders cfg http =
      (filterRequestHeaders cfg.unicode http.headers).update (gatewayHeaders cfg http) := by
  simp only [outgoingHeaders, gatewayHeaders, forwardedFor, forwardedHost, inboundHost]
  cases http.headers.find? fun h => cfg.unicode.lower h.1 = "host" with
  | none => cases http.clientHost <;> rfl
  | some h =>
    simp only [Option.map_some]
    split
    · cases http.clientHost <;> rfl
    · cases http.clientHost <;> rfl

/-- The gateway's own headers, name by name. -/
theorem mem_gatewayHeaders {e : String × String} (h : e ∈ gatewayHeaders cfg http) :
    (e.1 = "x-request-id" ∧ e.2 = http.requestId.str) ∨
    (e.1 = "x-forwarded-for" ∧ http.clientHost = some e.2) ∨
    (e.1 = "x-forwarded-proto" ∧ e.2 = http.scheme) ∨
    (e.1 = "x-forwarded-host" ∧ inboundHost cfg http = some e.2) := by
  simp only [gatewayHeaders, List.cons_append, List.mem_cons, List.mem_append] at h
  rcases h with rfl | h | rfl | h
  · exact Or.inl ⟨rfl, rfl⟩
  · unfold forwardedFor at h
    split at h
    · cases h
    · next host hhost =>
      cases List.mem_singleton.mp h
      exact Or.inr (Or.inl ⟨rfl, hhost⟩)
  · exact Or.inr (Or.inr (Or.inl ⟨rfl, rfl⟩))
  · unfold forwardedHost at h
    split at h
    · cases h
    · next host hhost =>
      split at h
      · cases h
      · cases List.mem_singleton.mp h
        exact Or.inr (Or.inr (Or.inr ⟨rfl, hhost⟩))

theorem gatewayName_of_mem {e : String × String} (h : e ∈ gatewayHeaders cfg http) :
    e.1 ∈ gatewayNames := by
  rcases mem_gatewayHeaders cfg http h with ⟨hn, -⟩ | ⟨hn, -⟩ | ⟨hn, -⟩ | ⟨hn, -⟩ <;>
    simp [gatewayNames, hn]

theorem lower_gatewayName (u : Unicode) {name : String} (h : name ∈ gatewayNames) :
    u.lower name = name := by
  have hascii : ∀ n ∈ gatewayNames, isAscii n = true ∧ n.toLower = n := by decide +kernel
  obtain ⟨ha, hl⟩ := hascii name h
  rw [u.lower_ascii name ha, hl]

theorem gatewayName_blocked {name : String} (h : name ∈ gatewayNames) :
    name ∈ blockedRequestNames := by
  have hall : ∀ n ∈ gatewayNames, n ∈ blockedRequestNames := by decide +kernel
  exact hall name h

/-- A header sent upstream is one of the gateway's own or a line that is not blocked. -/
theorem mem_outgoingHeaders {e : String × String} (h : e ∈ outgoingHeaders cfg http) :
    e ∈ gatewayHeaders cfg http ∨
      (e ∈ http.headers ∧ ¬ BlockedInRequest cfg.unicode http.headers e.1) := by
  rw [outgoingHeaders_eq, filterRequestHeaders_eq] at h
  rcases Dict.mem_of_mem_update h with hgateway | ⟨hclient, -⟩
  · exact Or.inl hgateway
  · have hline := List.mem_filter.mp (Dict.mem_of_mem_ofPairs hclient)
    exact Or.inr ⟨hline.1, of_decide_eq_true hline.2⟩

theorem nodup_outgoingHeaders : (outgoingHeaders cfg http).keys.Nodup := by
  rw [outgoingHeaders_eq, filterRequestHeaders_eq]
  exact Dict.nodup_keys_update (Dict.nodup_keys_ofPairs _)

/-- Under one of the gateway's names, in any casing, stands a header of the gateway. -/
theorem mem_gatewayHeaders_of_lower {e : String × String} (h : e ∈ outgoingHeaders cfg http)
    (hname : cfg.unicode.lower e.1 ∈ gatewayNames) :
    e ∈ gatewayHeaders cfg http ∧ e.1 = cfg.unicode.lower e.1 := by
  rcases mem_outgoingHeaders cfg http h with hgateway | ⟨-, hblocked⟩
  · exact ⟨hgateway, (lower_gatewayName _ (gatewayName_of_mem cfg http hgateway)).symm⟩
  · exact (hblocked (Or.inl (gatewayName_blocked hname))).elim

/-- No spoofed header among those sent, and each of the gateway's own at most once, with the
gateway's value. -/
structure Unspoofed (sent : List (String × String)) : Prop where
  clean : ∀ e ∈ sent, cfg.unicode.lower e.1 ∈ gatewayNames ∨
    (cfg.unicode.lower e.1 ∉ blockedRequestNames ∧
      ¬ ListedInConnection cfg.unicode http.headers (cfg.unicode.lower e.1))
  once : ∀ name ∈ gatewayNames, sent.countP (fun e => cfg.unicode.lower e.1 = name) ≤ 1
  values : ∀ e ∈ sent, cfg.unicode.lower e.1 ∈ gatewayNames →
    (cfg.unicode.lower e.1 = "x-request-id" ∧ e.2 = http.requestId.str) ∨
    (cfg.unicode.lower e.1 = "x-forwarded-for" ∧ http.clientHost = some e.2) ∨
    (cfg.unicode.lower e.1 = "x-forwarded-proto" ∧ e.2 = http.scheme) ∨
    (cfg.unicode.lower e.1 = "x-forwarded-host" ∧ inboundHost cfg http = some e.2)

theorem unspoofed_outgoingHeaders : Unspoofed cfg http (outgoingHeaders cfg http) := by
  refine ⟨?_, ?_, ?_⟩
  · intro e he
    rcases mem_outgoingHeaders cfg http he with hgateway | ⟨-, hblocked⟩
    · have hname := gatewayName_of_mem cfg http hgateway
      exact Or.inl (by rwa [lower_gatewayName _ hname])
    · exact Or.inr (not_or.mp hblocked)
  · intro name hname
    apply Dict.countP_le_one (k := name) (nodup_outgoingHeaders cfg http)
    intro e he hlower
    have hlower : cfg.unicode.lower e.1 = name := of_decide_eq_true hlower
    exact (mem_gatewayHeaders_of_lower cfg http he (hlower ▸ hname)).2.trans hlower
  · intro e he hname
    obtain ⟨hgateway, hlower⟩ := mem_gatewayHeaders_of_lower cfg http he hname
    rw [← hlower]
    exact mem_gatewayHeaders cfg http hgateway

/-- Two requests that a service may not tell apart: the same peer, scheme, request id and
`Host`, the same names listed in `Connection`, and the same lines under all other names. -/
structure AlikeUpstream (http' : HttpRequest) : Prop where
  clientHost : http.clientHost = http'.clientHost
  scheme : http.scheme = http'.scheme
  requestId : http.requestId = http'.requestId
  host : inboundHost cfg http = inboundHost cfg http'
  listed : ∀ name, ListedInConnection cfg.unicode http.headers name ↔
    ListedInConnection cfg.unicode http'.headers name
  lines : unblockedLines cfg.unicode http.headers = unblockedLines cfg.unicode http'.headers

theorem outgoingHeaders_congr {http http' : HttpRequest} (h : AlikeUpstream cfg http http') :
    outgoingHeaders cfg http = outgoingHeaders cfg http' := by
  have hgateway : gatewayHeaders cfg http = gatewayHeaders cfg http' := by
    simp only [gatewayHeaders, forwardedFor, forwardedHost, h.clientHost, h.scheme, h.requestId,
      h.host]
  rw [outgoingHeaders_eq, outgoingHeaders_eq, hgateway, filterRequestHeaders_eq,
    filterRequestHeaders_eq, h.lines]

section Sent

variable {σ τ : Type} {cfg http} {serviceName path serviceName' path' : String}
  {decision decision' : RateLimit.RateLimitDecision} {q q' : UpstreamRequest}

/-- `proxy_request` hands the client a request `q`. -/
def Sends (cfg : Config) (http : HttpRequest) (serviceName path : String)
    (decision : RateLimit.RateLimitDecision) (env : Environment gateway σ) (s : σ)
    (q : UpstreamRequest) : Prop :=
  ∃ x ∈ ((forwardRequest cfg http serviceName path decision).exec env s).history,
    x.op = .upstream (.request q)

theorem Sends.built {env : Environment gateway σ} {s : σ}
    (h : Sends cfg http serviceName path decision env s q) :
    ∃ baseUrl body, requestBaseUrl cfg serviceName = .ok baseUrl ∧
      q = ⟨serviceName, http.method, targetUrl baseUrl path, http.queryParams,
        outgoingHeaders cfg http, body⟩ := by
  obtain ⟨x, hx, hq⟩ := h
  exact forwardRequest_sends env s hx hq

theorem Sends.headers {env : Environment gateway σ} {s : σ}
    (h : Sends cfg http serviceName path decision env s q) :
    q.headers = outgoingHeaders cfg http := by
  obtain ⟨baseUrl, body, -, rfl⟩ := h.built
  rfl

end Sent

/-- What a service receives is unspoofed in every run, and two requests that differ only in
what must not reach it are sent with the same headers. -/
theorem spoofed_headers_inert (cfg : Config) :
    (∀ {σ : Type} (env : Environment gateway σ) (s : σ) (http : HttpRequest)
      (serviceName path : String) (decision : RateLimit.RateLimitDecision) (q : UpstreamRequest),
      Sends cfg http serviceName path decision env s q → Unspoofed cfg http q.headers) ∧
    ∀ {σ τ : Type} (env : Environment gateway σ) (s : σ) (env' : Environment gateway τ) (s' : τ)
      (http http' : HttpRequest) (serviceName path serviceName' path' : String)
      (decision decision' : RateLimit.RateLimitDecision) (q q' : UpstreamRequest),
      AlikeUpstream cfg http http' →
      Sends cfg http serviceName path decision env s q →
      Sends cfg http' serviceName' path' decision' env' s' q' → q.headers = q'.headers := by
  constructor
  · intro σ env s http serviceName path decision q hq
    rw [hq.headers]
    exact unspoofed_outgoingHeaders cfg http
  · intro σ τ env s env' s' http http' _ _ _ _ _ _ q q' halike hq hq'
    rw [hq.headers, hq'.headers]
    exact outgoingHeaders_congr cfg halike

/-- The decision on the first request of a client. -/
def firstDecision : RateLimit.RateLimitDecision where
  allowed := true
  limit := 60
  remaining := 59
  retryAfterSeconds := 0
  resetAfterSeconds := 1
  limit_pos := by decide
  remaining_range := by decide
  retryAfter_nonneg := by decide
  resetAfter_nonneg := by decide
  allowed_no_delay _ := rfl

/-- With working back ends a proxied request is sent. -/
theorem working_sends (http : HttpRequest) (path : String) (outside : Outside) :
    Sends defaultConfig http "service-a" path firstDecision (working .default outside)
      migratedWorld ⟨"service-a", http.method, targetUrl "http://service-a:8000" path,
        http.queryParams, outgoingHeaders defaultConfig http, outside.body⟩ := by
  refine ⟨⟨.upstream (.request _), ()⟩, List.mem_of_getElem? (i := 2) ?_, rfl⟩
  rfl

def spoofingRequest : HttpRequest :=
  { localRequest "GET" none with
    headers := [("X-Forwarded-For", "10.0.0.1"), ("X-ROLE", "admin"), ("Accept", "text/plain"),
      ("x-role", "operator"), ("X-Request-ID", "chosen")] }

def plainRequest : HttpRequest :=
  { localRequest "GET" none with headers := [("Accept", "text/plain")] }

theorem spoofing_inert :
    AlikeUpstream defaultConfig spoofingRequest plainRequest ∧
      Unspoofed defaultConfig spoofingRequest (outgoingHeaders defaultConfig spoofingRequest) ∧
      outgoingHeaders defaultConfig spoofingRequest =
        outgoingHeaders defaultConfig plainRequest := by
  have halike : AlikeUpstream defaultConfig spoofingRequest plainRequest := by
    refine ⟨rfl, rfl, rfl, by decide +kernel, fun name => ?_, by decide +kernel⟩
    have htokens : getConnectionHeaderTokens defaultConfig.unicode spoofingRequest.headers =
        getConnectionHeaderTokens defaultConfig.unicode plainRequest.headers := by decide +kernel
    rw [← mem_getConnectionHeaderTokens, ← mem_getConnectionHeaderTokens, htokens]
  have hsent := working_sends spoofingRequest "ping" (outsideWorks true)
  have hsent' := working_sends plainRequest "ping" (outsideWorks true)
  exact ⟨halike, (spoofed_headers_inert defaultConfig).1 _ _ _ _ _ _ _ hsent,
    (spoofed_headers_inert defaultConfig).2 _ _ _ _ _ _ _ _ _ _ _ _ _ _ halike hsent hsent'⟩

end SecureGateway.Gateway
