import SecureGateway.Foundation.Execution
import SecureGateway.Proxy.Router
import SecureGateway.Resilience.Calls

/-!
# What the proxy route sends and returns

`proxy_request` after its dependencies, for every behaviour of everything it calls: all
attempts of a call carry one URL, the client's query and one set of headers, and what it
returns is a response of the client with the headers filtered and the limiter's own added.
-/
namespace SecureGateway.Gateway

open Interleaving Proxy Resilience

variable {cfg : Config} {http : HttpRequest} {serviceName path : String}
  {decision : RateLimit.RateLimitDecision}

/-- `target_url`. -/
def targetUrl (baseUrl path : String) : String := rstripSlashes baseUrl ++ "/" ++ lstripSlashes path

/-- The headers of the response that `proxy_request` returns. -/
def responseHeaders (cfg : Config) (upstreamHeaders : List (String × String))
    (decision : RateLimit.RateLimitDecision) : Python.Dict :=
  (filterResponseHeaders cfg.unicode upstreamHeaders).update (buildRateLimitHeaders decision)

/-- Every request handed to the client is the one `proxy_request` has built. -/
def SendsBuilt (cfg : Config) (http : HttpRequest) (serviceName path : String)
    (op : GatewayOp) : Prop :=
  ∀ q, op = .upstream (.request q) → ∃ baseUrl body,
    requestBaseUrl cfg serviceName = .ok baseUrl ∧
    q = ⟨serviceName, http.method, targetUrl baseUrl path, http.queryParams,
      outgoingHeaders cfg http, body⟩

/-- A response is one the client gave, with the route's headers. -/
def ReturnsAnswer (cfg : Config) (decision : RateLimit.RateLimitDecision)
    (h : History gateway) (outcome : Except Raised ApiResponse) : Prop :=
  ∀ response, outcome = .ok response → ∃ r, ⟨.upstream .response, .ok r⟩ ∈ h ∧
    response = .proxied r.statusCode (responseHeaders cfg r.headers decision) r.content

theorem returnsAnswer_error (h : History gateway) (e : Raised) :
    ReturnsAnswer cfg decision h (.error e) := by
  intro response hr
  cases hr

theorem sendsBuilt_of_callOp {baseUrl : String} {body : List UInt8} {e : UpstreamOp}
    (hb : requestBaseUrl cfg serviceName = .ok baseUrl)
    (h : CallOp ⟨serviceName, http.method, targetUrl baseUrl path, http.queryParams,
      outgoingHeaders cfg http, body⟩ e) :
    SendsBuilt cfg http serviceName path (.upstream e) := by
  intro q hq
  cases hq
  cases h
  exact ⟨baseUrl, body, hb, rfl⟩

/-- None of the `except` clauses returns, nor sends anything. -/
theorem wp_upstreamFailed {ok : GatewayOp → Prop}
    {post : History gateway → Except Raised UpstreamExecutionResult → Prop}
    (hmetric : ∀ m, ok (.metric m)) (herror : ∀ h e, post h (.error e)) (h : History gateway)
    (e : Raised) : (upstreamFailed serviceName e).wp (fun _ => ok) post h := by
  cases e with
  | requestError error =>
    change Prog.wp _ _ _ (ite _ _ _)
    split
    · exact ⟨hmetric _, fun _ => herror _ _⟩
    · exact ⟨hmetric _, fun _ => herror _ _⟩
  | _ => exact herror _ _

theorem wp_forwardRequest_built (cfg : Config) (http : HttpRequest) (serviceName path : String)
    (decision : RateLimit.RateLimitDecision) :
    (forwardRequest cfg http serviceName path decision).wp
      (fun _ => SendsBuilt cfg http serviceName path) (ReturnsAnswer cfg decision) [] := by
  have hmetric : ∀ m, SendsBuilt cfg http serviceName path (.metric m) := by
    intro m q hq
    cases hq
  rw [forwardRequest, Prog.wp_bind, Prog.wp_liftExcept]
  cases hb : requestBaseUrl cfg serviceName with
  | error e => exact returnsAnswer_error _ e
  | ok baseUrl =>
    rw [Prog.sequel_ok, Prog.wp_call_bind]
    have hbody : SendsBuilt cfg http serviceName path .requestBody := by
      intro q hq
      cases hq
    refine ⟨hbody, fun read => ?_⟩
    cases read with
    | error f => exact returnsAnswer_error _ _
    | ok body =>
      dsimp only
      rw [Prog.wp_bind, Prog.wp_tryCatch]
      refine Prog.wp_embed_image (wp_execute_given (requestExecutor cfg) _)
        (fun _ _ _ => sendsBuilt_of_callOp hb) fun h l outcome hgiven himage => ?_
      cases outcome with
      | ok result =>
        obtain ⟨r, hr, heq⟩ := himage _ (hgiven result rfl)
        cases heq
        rw [Prog.recovery_ok, Prog.sequel_ok, Prog.wp_call_bind]
        refine ⟨hmetric _, fun _ response hresponse => ?_⟩
        cases hresponse
        exact ⟨result.response, by simp [hr], rfl⟩
      | error e =>
        rw [Prog.recovery_error]
        exact wp_upstreamFailed hmetric (fun h e => returnsAnswer_error h e) _ e

section Runs

variable {σ : Type} (env : Environment gateway σ) (s : σ)

theorem forwardRequest_sends {q : UpstreamRequest} {x : Exchange gateway}
    (hx : x ∈ ((forwardRequest cfg http serviceName path decision).exec env s).history)
    (hq : x.op = .upstream (.request q)) :
    ∃ baseUrl body, requestBaseUrl cfg serviceName = .ok baseUrl ∧
      q = ⟨serviceName, http.method, targetUrl baseUrl path, http.queryParams,
        outgoingHeaders cfg http, body⟩ :=
  (Prog.exec_wp_mem (wp_forwardRequest_built cfg http serviceName path decision) env s).1 x hx q hq

theorem forwardRequest_returns {response : ApiResponse}
    (hr : ((forwardRequest cfg http serviceName path decision).exec env s).outcome =
      .ok response) :
    ∃ r, ⟨.upstream .response, .ok r⟩ ∈
        ((forwardRequest cfg http serviceName path decision).exec env s).history ∧
      response = .proxied r.statusCode (responseHeaders cfg r.headers decision) r.content :=
  (Prog.exec_wp_mem (wp_forwardRequest_built cfg http serviceName path decision) env s).2 _ hr

end Runs

end SecureGateway.Gateway
