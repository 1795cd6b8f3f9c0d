import SecureGateway.Gateway.System
import SecureGateway.Observability.Metrics

/-!
# The request middleware

`RequestContextMiddleware` around the routes of the application, with the metrics that a
request leaves. What a route does, it does in the gateway's own world.
-/
namespace SecureGateway.Observability

open Interleaving Gateway

/-- The routes of the application; FastAPI declares the last four itself. -/
inductive DeclaredRoute where
  | register
  | token
  | me
  | userRoles
  | userRole
  | service
  | servicePath
  | health
  | ready
  | openapi
  | docs
  | docsRedirect
  | redoc
  deriving DecidableEq, Repr

def DeclaredRoute.path : DeclaredRoute → String
  | .register => "/auth/register"
  | .token => "/auth/token"
  | .me => "/auth/me"
  | .userRoles => "/authorization/users/{username}/roles"
  | .userRole => "/authorization/users/{username}/roles/{role_name}"
  | .service => "/api/{service_name}"
  | .servicePath => "/api/{service_name}/{path:path}"
  | .health => "/health"
  | .ready => "/ready"
  | .openapi => "/openapi.json"
  | .docs => "/docs"
  | .docsRedirect => "/docs/oauth2-redirect"
  | .redoc => "/redoc"

/-- `resolve_route_template` on `scope.get("route")`. -/
def resolveRouteTemplate (route : Option DeclaredRoute) : String :=
  match route with
  | some route => if route.path ≠ "" then route.path else "<unmatched>"
  | none => "<unmatched>"

/-- What the middleware reads and sets of a response. -/
structure Response where
  statusCode : ℤ
  requestId : Option String
  deriving DecidableEq

/-- What answers a request: a route of the gateway, or `/health`, `/ready` and the framework,
which record nothing. -/
inductive Endpoint where
  | api (q : ApiRequest)
  | framework (http : HttpRequest) (outcome : Except Raised Response)

/-- A request, and the route that the router puts into its scope. -/
structure Incoming where
  endpoint : Endpoint
  scopeRoute : Option DeclaredRoute

def requestOf : ApiRequest → HttpRequest
  | .register http _ _ | .token http _ _ | .me http | .readRoles http _ | .assignRole http _ _
  | .removeRole http _ _ | .proxy http _ _ => http

def Incoming.http (q : Incoming) : HttpRequest :=
  match q.endpoint with
  | .api request => requestOf request
  | .framework http _ => http

/-- What is performed while a request is served. -/
inductive AppOp where
  | gateway (op : GatewayOp)
  | recordHttpRequest (method route : String) (statusCode : ℤ)
  | emitRequestLog (event requestId method route : String) (statusCode : ℤ)

abbrev AppOp.Reply : AppOp → Type
  | .gateway op => op.Reply
  | .recordHttpRequest _ _ _ | .emitRequestLog _ _ _ _ _ => Unit

abbrev application : Signature := ⟨AppOp, AppOp.Reply⟩

abbrev AppAction (α : Type) := Prog application Raised α

variable (cfg : Config)

/-- The status of a route's own response. -/
def successStatus : ApiRequest → ApiResponse → ℤ
  | .register _ _ _, _ => 201
  | _, .proxied statusCode _ _ => statusCode
  | _, _ => 200

/-- FastAPI's exception handlers. -/
def handleException : Raised → AppAction Response
  | .http error => pure ⟨error.statusCode, none⟩
  | error => if error = .other "RequestValidationError" then pure ⟨422, none⟩ else throw error

def callNext : Endpoint → AppAction Response
  | .api q => ((route cfg q).embed AppOp.gateway (fun _ r => r) >>= fun response =>
      pure ⟨successStatus q response, none⟩).tryCatch handleException
  | .framework _ outcome => Prog.liftExcept outcome

/-- The metric and the log line of a request that has ended. -/
def finishRequest (q : Incoming) (event : String) (statusCode : ℤ) : AppAction Unit := do
  let route := resolveRouteTemplate q.scopeRoute
  let _ ← Prog.call (S := application) (.recordHttpRequest q.http.method route statusCode)
  Prog.call (S := application)
    (.emitRequestLog event q.http.requestId.str q.http.method route statusCode)

/-- `RequestContextMiddleware.dispatch`. -/
def dispatch (q : Incoming) : AppAction Response := do
  let response ← (callNext cfg q.endpoint).tryCatch fun error =>
    -- `CancelledError` is no `Exception`.
    if error = .cancelled then throw error
    else do
      finishRequest q "request_failed" 500
      throw error
  finishRequest q "request_completed" response.statusCode
  pure { response with requestId := some q.http.requestId.str }

/-- The gateway's world, and `app.state.metrics`. -/
structure AppWorld where
  world : World
  metrics : GatewayMetrics

/-- The application after its start. -/
def AppWorld.start (w : World) : AppWorld := ⟨w, .empty⟩

def AppWorld.respond (w : AppWorld) : (op : AppOp) → op.Reply → Option AppWorld
  | .gateway op, r =>
    (w.world.respond cfg.resilience op r).map fun world => ⟨world, w.metrics.after op⟩
  | .recordHttpRequest method route statusCode, _ =>
    some { w with metrics := w.metrics.recordHttpRequest cfg.unicode method route statusCode }
  | .emitRequestLog _ _ _ _ _, _ => some w

abbrev applicationSystem (cfg : Config) : System where
  sig := application
  World := AppWorld
  Request := Incoming
  Failure := Raised
  Result := Response
  Tick := Elapsed
  handler := dispatch cfg
  respond := AppWorld.respond cfg
  advance t w := { w with world := w.world.advance t }

end SecureGateway.Observability
