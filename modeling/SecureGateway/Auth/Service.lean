import SecureGateway.Database.Repositories
import SecureGateway.Audit.Recording

/-!
# Authentication

Access tokens, the current user of a request, and `AuthenticationService`, from
`gateway/app/auth`.
-/
namespace SecureGateway.Gateway

open Interleaving

variable (cfg : Config)

structure AccessTokenClaims where
  subject : String
  tokenId : Uuid
  issuedAt : Timestamp
  expiresAt : Timestamp
  deriving DecidableEq

/-- `round`, ties to the even neighbour. -/
def roundHalfEven (q : ℚ) : ℤ :=
  let f := ⌊q⌋
  if q - f < 1 / 2 then f
  else if q - f > 1 / 2 then f + 1
  else if f % 2 = 0 then f else f + 1

/-- `_numeric_date_to_datetime`: a `datetime` covers the years 1 to 9999. -/
def numericDateToDatetime (value : Json) (claimName : String) : Except Raised Timestamp :=
  match value with
  | .number q =>
    let t := roundHalfEven (q * 1000000)
    if earliestTimestamp ≤ t ∧ t ≤ latestTimestamp then .ok t
    else .error (.tokenValidation s!"Invalid {claimName} claim.")
  | _ => .error (.tokenValidation s!"Invalid {claimName} claim.")

/-- What `decode_access_token` checks once PyJWT has accepted the token. -/
def claimsOfPayload (payload : Payload) : Except Raised AccessTokenClaims :=
  if payload.get "type" ≠ .string "access" then
    .error (.tokenValidation "Invalid access token type.")
  else
    match payload.get "sub" with
    | .string subject =>
      if Python.strip subject = "" then .error (.tokenValidation "Invalid token subject.")
      else
        match payload.get "jti" with
        | .string text =>
          match cfg.parseUuid text with
          | none => .error (.tokenValidation "Invalid token identifier.")
          | some tokenId => do
            let issuedAt ← numericDateToDatetime (payload.get "iat") "iat"
            let expiresAt ← numericDateToDatetime (payload.get "exp") "exp"
            if expiresAt ≤ issuedAt then
              .error (.tokenValidation "Token expiration must be after issuance.")
            else .ok ⟨subject, tokenId, issuedAt, expiresAt⟩
        | _ => .error (.tokenValidation "Invalid token identifier.")
    | _ => .error (.tokenValidation "Invalid token subject.")

@[irreducible] def decodeAccessToken (token : String) : Action AccessTokenClaims :=
  if Python.strip token = "" then throw (.tokenValidation "Access token cannot be empty.")
  else do
    let decoded ← invoke (.jwtDecode token)
    match decoded with
    | .error none => throw (.tokenValidation "Invalid or expired access token.")
    | .error (some className) => throw (.other className)
    | .ok payload => Prog.liftExcept (claimsOfPayload cfg payload)

/-- What `create_access_token` signs; PyJWT writes the two times as whole seconds. -/
def accessTokenPayload (subject : String) (issuedAt expiresAt : Timestamp) (jti : Uuid) :
    Payload :=
  [("sub", .string subject), ("iat", .number ((issuedAt / 1000000 : ℤ) : ℚ)),
    ("exp", .number ((expiresAt / 1000000 : ℤ) : ℚ)), ("iss", .string cfg.issuer),
    ("aud", .string cfg.audience), ("jti", .string jti.str), ("type", .string "access")]

def createAccessToken (subject : String) : Action String :=
  let normalizedSubject := Python.strip subject
  if normalizedSubject = "" then throw (.tokenCreation "Token subject cannot be empty.")
  else do
    let issuedAt ← invoke .utcNow
    let expiresAt := issuedAt + cfg.accessTokenMinutes * 60000000
    -- A `datetime` does not go beyond the year 9999.
    if expiresAt > latestTimestamp then throw (.other "OverflowError")
    else do
      let jti ← invoke .uuid4
      let payload := accessTokenPayload cfg normalizedSubject issuedAt expiresAt jti
      let encoded ← invoke (.jwtEncode payload)
      match encoded with
      | .ok token => pure token
      | .error className => throw (.other className)

def authenticationDatabaseUnavailable : Raised :=
  .http ⟨503, "Authentication database is temporarily unavailable.", [("Retry-After", "1")]⟩

def unauthorizedException : Raised :=
  .http ⟨401, "Could not validate credentials.", [("WWW-Authenticate", "Bearer")]⟩

/-- The `except` clauses of `get_current_user`. -/
def currentUserError : Raised → Raised
  | .userRepositoryBackend _ => authenticationDatabaseUnavailable
  | .tokenValidation _ | .usernamePolicy _ => unauthorizedException
  | error => error

/-- `get_current_user`, behind the bearer scheme that answers a request without a token. -/
def getCurrentUser (http : HttpRequest) : Action UserPublic :=
  match http.bearerToken with
  | none => throw (.http ⟨401, "Not authenticated", [("WWW-Authenticate", "Bearer")]⟩)
  | some token => do
    let storedUser ← (do
      let claims ← decodeAccessToken cfg token
      UserRepository.getByUsername cfg claims.subject).tryCatch
        fun error => throw (currentUserError error)
    match storedUser with
    | none => throw unauthorizedException
    | some user => if user.isActive then pure (toPublicUser user) else throw unauthorizedException

namespace AuthenticationService

def invalidCredentialsMessage : String := "Invalid username or password."

/-- The reply of the worker thread. -/
def threaded {α : Type} (r : Except Fault α) : Action α :=
  match r with
  | .ok a => pure a
  | .error f => throw f.raised

def registerUser (username password : String) : Action UserPublic := do
  Prog.liftExcept (Auth.validatePassword password)
  let hashed ← invoke (.hashPassword password)
  let hashedPassword ← threaded hashed
  let storedUser ← UserRepository.createUser cfg username hashedPassword
  pure (toPublicUser storedUser)

def authenticateUser (username password : String) : Action StoredUser := do
  let storedUser ← (UserRepository.getByUsername cfg username).tryCatch fun
    | .usernamePolicy _ => pure none
    | error => throw error
  match storedUser with
  | none => do
    let verified ← invoke (.verifyPassword password cfg.dummyPasswordHash)
    let _ ← threaded verified
    throw (.authentication invalidCredentialsMessage)
  | some user => do
    let verified ← invoke (.verifyAndUpdatePassword password user.hashedPassword)
    let (isValid, replacementHash) ← threaded verified
    if isValid = false ∨ user.isActive = false then
      throw (.authentication invalidCredentialsMessage)
    else
      match replacementHash with
      | none => pure user
      | some hash => UserRepository.updatePasswordHash cfg user.username hash

structure AuthenticationResult where
  accessToken : String
  user : UserPublic
  deriving DecidableEq

def authenticateAndCreateResult (username password : String) : Action AuthenticationResult := do
  let storedUser ← authenticateUser cfg username password
  let accessToken ← createAccessToken cfg storedUser.username
  pure ⟨accessToken, toPublicUser storedUser⟩

end AuthenticationService

end SecureGateway.Gateway
