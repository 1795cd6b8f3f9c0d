import SecureGateway.Authorization.Router
import SecureGateway.Proxy.Headers
import SecureGateway.RateLimit.Limiter

/-!
# The proxy route

`resolve_proxy_permission`, `enforce_proxy_authorization` and `proxy_request`, with the
dependencies in the order in which they are declared.
-/
namespace SecureGateway.Gateway

open Interleaving Proxy Resilience

/-- The keys of `SERVICE_DEFINITIONS`. -/
def serviceNames : List String := ["service-a", "service-b"]

def isRegisteredService (serviceName : String) : Bool := serviceName ∈ serviceNames

def proxyReadMethods : List String := ["GET", "HEAD", "OPTIONS"]

def proxyWriteMethods : List String := ["POST", "PUT", "PATCH", "DELETE"]

/-- `PROXY_METHODS`: what the route matches. -/
def proxyMethods : List String := ["GET", "POST", "PUT", "PATCH", "DELETE", "OPTIONS", "HEAD"]

variable (cfg : Config) (http : HttpRequest)

def resolveProxyPermission (serviceName method : String) : Except Raised String :=
  if isRegisteredService serviceName = false then
    .error (.http ⟨404, s!"Unknown service: {serviceName}", []⟩)
  else
    let normalizedMethod := cfg.unicode.upper (Python.strip method)
    if normalizedMethod ∈ proxyReadMethods then .ok ("proxy:" ++ serviceName ++ ":read")
    else if normalizedMethod ∈ proxyWriteMethods then .ok ("proxy:" ++ serviceName ++ ":write")
    else .error authorizationDenied

def enforceProxyAuthorization (serviceName : String) (user : UserPublic) : Action Unit := do
  let requiredPermission ← Prog.liftExcept (resolveProxyPermission cfg serviceName http.method)
  enforcePermission cfg http user requiredPermission (some serviceName)

def getServiceBaseUrl (serviceName : String) : Except Raised String :=
  if isRegisteredService serviceName then cfg.validatedBaseUrl serviceName
  else .error (.unknownService s!"Unknown service: {serviceName}")

def rstripSlashes (s : String) : String :=
  String.ofList (s.toList.reverse.dropWhile (· == '/')).reverse

def lstripSlashes (s : String) : String := String.ofList (s.toList.dropWhile (· == '/'))

/-- The headers sent upstream: the filtered ones, then the gateway's own. -/
def outgoingHeaders : Python.Dict :=
  let filtered := filterRequestHeaders cfg.unicode http.headers
  let withId := filtered.set "x-request-id" http.requestId.str
  let withFor := match http.clientHost with
    | none => withId
    | some host => withId.set "x-forwarded-for" host
  let withProto := withFor.set "x-forwarded-proto" http.scheme
  match http.headers.find? (fun h => cfg.unicode.lower h.1 = "host") with
  | none => withProto
  | some h => if h.2 = "" then withProto else withProto.set "x-forwarded-host" h.2

/-- `status_class`. -/
def statusClass (statusCode : ℤ) : String :=
  if 100 ≤ statusCode ∧ statusCode ≤ 599 then toString (statusCode / 100) ++ "xx" else "unknown"

/-- The executor a request builds over the application's circuits. -/
def requestExecutor : ResilientUpstreamExecutor where
  settings := cfg.resilience
  serviceNames := serviceNames
  hasCallback := true
  upper := cfg.unicode.upper

/-- `executor.execute(...)` as a part of the handler. -/
def executeUpstream (q : UpstreamRequest) : Action UpstreamExecutionResult :=
  ((requestExecutor cfg).execute q).embed GatewayOp.upstream fun _ r => r

/-- The `try` around `get_service_base_url`. -/
def requestBaseUrl (serviceName : String) : Except Raised String :=
  match getServiceBaseUrl cfg serviceName with
  | .error (.unknownService message) => .error (.http ⟨404, message, []⟩)
  | result => result

/-- The `except` clauses around `executor.execute`. -/
def upstreamFailed {α : Type} (serviceName : String) : Raised → Action α
  | .circuitOpen e =>
    throw (.http ⟨503, "Upstream service temporarily unavailable",
      [("Retry-After", toString e.retryAfterSeconds)]⟩)
  | .requestError e =>
    if e.isTimeoutException then do
      let _ ← invoke (.metric (.upstreamRequest serviceName "timeout"))
      throw (.http ⟨504, "Upstream service timeout", []⟩)
    else do
      let _ ← invoke (.metric (.upstreamRequest serviceName "unavailable"))
      throw (.http ⟨502, "Upstream service unavailable", []⟩)
  | error => throw error

/-- `proxy_request` after its dependencies. -/
def forwardRequest (serviceName path : String) (decision : RateLimit.RateLimitDecision) :
    Action ApiResponse := do
  let baseUrl ← Prog.liftExcept (requestBaseUrl cfg serviceName)
  let targetUrl := rstripSlashes baseUrl ++ "/" ++ lstripSlashes path
  let read ← invoke .requestBody
  match read with
  | .error f => throw f.raised
  | .ok body => do
    let result ← (executeUpstream cfg
      ⟨serviceName, http.method, targetUrl, http.queryParams, outgoingHeaders cfg http,
        body⟩).tryCatch (upstreamFailed serviceName)
    let response := result.response
    let _ ← invoke (.metric (.upstreamRequest serviceName (statusClass response.statusCode)))
    pure (.proxied response.statusCode
      ((filterResponseHeaders cfg.unicode response.headers).update
        (buildRateLimitHeaders decision)) response.content)

def proxyRequest (serviceName path : String) : Action ApiResponse := do
  let currentUser ← getCurrentUser cfg http
  let decision ← enforceProxyRateLimit cfg http serviceName currentUser
  enforceProxyAuthorization cfg http serviceName currentUser
  forwardRequest cfg http serviceName path decision

end SecureGateway.Gateway
