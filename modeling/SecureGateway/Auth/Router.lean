import SecureGateway.Auth.Service
import SecureGateway.Gateway.Responses
import SecureGateway.Login.Protection
import SecureGateway.RateLimit.Limiter

/-! The routes of `gateway/app/auth/router.py`. -/
namespace SecureGateway.Gateway

open Interleaving Login

variable (cfg : Config) (http : HttpRequest)

/-- `register_user`. The body is validated before the route runs: an invalid one is answered
with a `RequestValidationError`. -/
def registerUser (username password : String) : Action ApiResponse :=
  match Auth.normalizeUsername cfg.unicode username, Auth.validatePassword password with
  | .ok username, .ok _ => do
    let user ← (AuthenticationService.registerUser cfg username password).tryCatch fun
      | .userAlreadyExists _ => throw (.http ⟨409, "Username is already registered.", []⟩)
      | .userRepositoryBackend _ => do
        recordRequestSecurityEvent cfg http
          { eventType := .authenticationBackendUnavailable
            outcome := .unavailable
            method := some http.method
            statusCode := some 503
            reasonCode := some "registration_repository_unavailable" }
        throw authenticationDatabaseUnavailable
      | error => throw error
    recordRequestSecurityEvent cfg http
      { eventType := .userRegistered
        outcome := .success
        targetUserId := some user.id
        method := some http.method
        statusCode := some 201
        reasonCode := some "registration_completed" }
    pure (.user user)
  | _, _ => throw (.other "RequestValidationError")

/-- The `except LoginProtectionBackendError` clauses of `issue_access_token`. -/
def protectionUnavailable {α : Type} (reasonCode : String) : Action α := do
  recordRequestSecurityEvent cfg http
    { eventType := .rateLimitBackendUnavailable
      outcome := .unavailable
      method := some http.method
      statusCode := some 503
      reasonCode := some reasonCode }
  throw authenticationProtectionUnavailable

/-- The answer to a request that meets a lock. -/
def accountLocked {α : Type} (reasonCode : String) (retryAfterSeconds : ℤ) : Action α := do
  recordRequestSecurityEvent cfg http
    { eventType := .accountLocked
      outcome := .denied
      method := some http.method
      statusCode := some 429
      reasonCode := some reasonCode }
  throw (tooManyAuthenticationAttempts retryAfterSeconds [])

/-- The `except AuthenticationError` clause: the failure is audited, then recorded. -/
def loginFailed {α : Type} (username : String) (ipDecision : RateLimit.RateLimitDecision) :
    Action α := do
  recordRequestSecurityEvent cfg http
    { eventType := .loginFailed
      outcome := .failure
      method := some http.method
      statusCode := some 401
      reasonCode := some "invalid_credentials" }
  let failureDecision ←
    (RedisLoginProtection.recordFailure cfg username accountLoginProtectionPolicy).tryCatch fun
      | .loginProtectionBackend _ =>
        protectionUnavailable cfg http "login_failure_tracking_unavailable"
      | error => throw error
  if failureDecision.locked then
    accountLocked cfg http "failure_threshold_reached" failureDecision.retryAfterSeconds
  else
    throw (.http ⟨401, AuthenticationService.invalidCredentialsMessage,
      Python.Dict.update [("WWW-Authenticate", "Bearer")] (buildRateLimitHeaders ipDecision)⟩)

/-- The `try` around `authenticate_and_create_result`. -/
def authenticated (username password : String) (ipDecision : RateLimit.RateLimitDecision) :
    Action AuthenticationService.AuthenticationResult :=
  (AuthenticationService.authenticateAndCreateResult cfg username password).tryCatch fun
    | .userRepositoryBackend _ => do
      recordRequestSecurityEvent cfg http
        { eventType := .authenticationBackendUnavailable
          outcome := .unavailable
          method := some http.method
          statusCode := some 503
          reasonCode := some "authentication_repository_unavailable" }
      throw authenticationDatabaseUnavailable
    | .authentication _ => loginFailed cfg http username ipDecision
    | error => throw error

/-- `issue_access_token`, behind the rate limit of the client's address. -/
@[irreducible] def issueAccessToken (username password : String) : Action ApiResponse := do
  let ipDecision ← enforceLoginIpRateLimit cfg http
  let lockDecision ←
    (RedisLoginProtection.checkLock cfg username accountLoginProtectionPolicy).tryCatch fun
      | .loginProtectionBackend _ => protectionUnavailable cfg http "login_lock_check_unavailable"
      | error => throw error
  if lockDecision.locked then
    accountLocked cfg http "account_already_locked" lockDecision.retryAfterSeconds
  else do
    let result ← authenticated cfg http username password ipDecision
    let _ ← (RedisLoginProtection.reset cfg username accountLoginProtectionPolicy).tryCatch fun
      | .loginProtectionBackend _ =>
        protectionUnavailable cfg http "login_state_reset_unavailable"
      | error => throw error
    recordRequestSecurityEvent cfg http
      { eventType := .loginSucceeded
        outcome := .success
        actorUserId := some result.user.id
        method := some http.method
        statusCode := some 200
        reasonCode := some "credentials_verified" }
    pure (.token result.accessToken (buildRateLimitHeaders ipDecision))

/-- `read_current_user`. -/
def readCurrentUser : Action ApiResponse := do
  let user ← getCurrentUser cfg http
  pure (.user user)

end SecureGateway.Gateway
