import SecureGateway.Audit.Recording
import SecureGateway.Python.Dict

/-!
# The rate limiter in front of the routes

`RedisRateLimiter.check`, the headers that describe a decision, and the two dependencies that
enforce one: for proxied requests by user, for logins by address.
-/
namespace SecureGateway.Gateway

open Interleaving RateLimit

variable (cfg : Config) (http : HttpRequest)

namespace RedisRateLimiter

/-- `_build_key`. -/
def buildKey (identity : String) (policy : RateLimitPolicy) : String :=
  cfg.redisKeyPrefix ++ ":rate-limit:" ++ policy.name ++ ":" ++ cfg.sha256Hex identity

@[irreducible] def check (identity : String) (policy : RateLimitPolicy) :
    Action RateLimitDecision := do
  let normalizedIdentity := Python.strip identity
  if normalizedIdentity = "" then
    throw (.valueError "Rate-limit identity must not be empty.")
  else do
    let nowMs ← invoke .clockMs
    if nowMs < 0 then
      throw (.valueError "The rate-limit clock returned an invalid timestamp.")
    else do
      let raw ← invoke (.evalTokenBucket (buildKey cfg normalizedIdentity policy) policy.capacity
        policy.refillRatePerSecond policy.cost nowMs policy.stateTtlMs)
      match raw with
      | .error ⟨none, _⟩ => throw (.rateLimitBackend "Redis rate-limit backend is unavailable.")
      | .error ⟨some f, _⟩ => throw f.raised
      | .ok r =>
        match decisionOf policy r.allowed r.tokens r.retryAfterMs r.resetAfterMs with
        | .ok decision => pure decision
        | .error message => throw (.rateLimitBackend message)

end RedisRateLimiter

def buildRateLimitHeaders (decision : RateLimitDecision) : List (String × String) :=
  [("X-RateLimit-Limit", toString decision.limit),
    ("X-RateLimit-Remaining", toString decision.remaining),
    ("X-RateLimit-Reset", toString decision.resetAfterSeconds)] ++
    if decision.allowed then []
    else [("Retry-After", toString (max 1 decision.retryAfterSeconds))]

def enforceProxyRateLimit (serviceName : String) (user : UserPublic) :
    Action RateLimitDecision := do
  let decision ← (RedisRateLimiter.check cfg user.id.str proxyRateLimitPolicy).tryCatch fun
    | .rateLimitBackend _ => do
      let _ ← invoke (.metric (.rateLimitDecision "proxy" "unavailable"))
      recordRequestSecurityEvent cfg http
        { eventType := .rateLimitBackendUnavailable
          outcome := .unavailable
          actorUserId := some user.id
          serviceName := some serviceName
          method := some http.method
          statusCode := some 503
          reasonCode := some "proxy_rate_limit_backend_unavailable" }
      throw (.http ⟨503, "Rate-limit service is temporarily unavailable.", [("Retry-After", "1")]⟩)
    | error => throw error
  let _ ← invoke (.metric
    (.rateLimitDecision "proxy" (if decision.allowed then "allowed" else "rejected")))
  if decision.allowed then pure decision
  else do
    recordRequestSecurityEvent cfg http
      { eventType := .rateLimitRejected
        outcome := .denied
        actorUserId := some user.id
        serviceName := some serviceName
        method := some http.method
        statusCode := some 429
        reasonCode := some "proxy_rate_limit_exceeded" }
    throw (.http ⟨429, "Rate limit exceeded.", buildRateLimitHeaders decision⟩)

/-- `LOGIN_IP_RATE_LIMIT_POLICY`. -/
def loginIpRateLimitPolicy : RateLimitPolicy where
  name := "login-ip"
  capacity := 10
  refillRatePerSecond := 1 / 5
  cost := 1
  name_matches := by decide
  capacity_range := by decide
  refillRate_range := by norm_num
  cost_range := by decide

def getDirectClientAddress : String :=
  match http.clientHost with
  | none => "<unknown-client>"
  | some host => if Python.strip host = "" then "<unknown-client>" else Python.strip host

def authenticationProtectionUnavailable : Raised :=
  .http ⟨503, "Authentication protection service is temporarily unavailable.",
    [("Retry-After", "1")]⟩

def tooManyAuthenticationAttempts (retryAfterSeconds : ℤ)
    (additionalHeaders : List (String × String)) : Raised :=
  .http ⟨429, "Too many authentication attempts.",
    Python.Dict.set additionalHeaders "Retry-After" (toString (max 1 retryAfterSeconds))⟩

def enforceLoginIpRateLimit : Action RateLimitDecision := do
  let identity := getDirectClientAddress http
  let decision ← (RedisRateLimiter.check cfg identity loginIpRateLimitPolicy).tryCatch fun
    | .rateLimitBackend _ => do
      let _ ← invoke (.metric (.rateLimitDecision "login" "unavailable"))
      recordRequestSecurityEvent cfg http
        { eventType := .rateLimitBackendUnavailable
          outcome := .unavailable
          method := some http.method
          statusCode := some 503
          reasonCode := some "login_ip_rate_limit_backend_unavailable" }
      throw authenticationProtectionUnavailable
    | error => throw error
  let _ ← invoke (.metric
    (.rateLimitDecision "login" (if decision.allowed then "allowed" else "rejected")))
  if decision.allowed then pure decision
  else do
    recordRequestSecurityEvent cfg http
      { eventType := .rateLimitRejected
        outcome := .denied
        method := some http.method
        statusCode := some 429
        reasonCode := some "login_ip_rate_limit_exceeded" }
    throw (tooManyAuthenticationAttempts decision.retryAfterSeconds
      (buildRateLimitHeaders decision))

end SecureGateway.Gateway
