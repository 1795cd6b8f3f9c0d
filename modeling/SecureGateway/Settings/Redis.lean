import Mathlib.Data.Rat.Defs
import SecureGateway.Python.Userinfo

/-! `RedisSettings` of `gateway/app/rate_limit/config.py`. -/
namespace SecureGateway.Settings

open Python

/-- `_KEY_PREFIX_PATTERN.fullmatch`. -/
def keyPrefixMatches (value : String) : Bool :=
  match value.toList with
  | [] => false
  | c :: rest =>
    c.isAlphanum && (rest.all fun c => c.isAlphanum || c = ':' || c = '_' || c = '-') &&
      rest.length ≤ 63

structure RedisSettings where
  url : String := "redis://redis:6379/0"
  keyPrefix : String := "secure-api-gateway"
  connectTimeoutSeconds : ℚ := 2
  socketTimeoutSeconds : ℚ := 2
  maxConnections : ℤ := 20
  healthCheckIntervalSeconds : ℤ := 30
  verifyOnStartup : Bool := false
  deriving DecidableEq

namespace RedisSettings

def allowedRedisSchemes : List String := ["redis", "rediss"]

-- `isDigit` is `str.isdigit` of one character, from the interpreter's tables.
variable (u : Unicode) (ipv6 : String → Bool) (isDigit : Char → Bool)

/-- The checks of `_validate_url` on the parsed URL. -/
def validateParsed (parsed : SplitResult) : Except String Unit :=
  let databasePath := parsed.path.toList.dropWhile (· = '/')
  if parsed.scheme ∉ allowedRedisSchemes then
    .error "REDIS_URL must use redis:// or rediss://."
  else if (parsed.hostname u).getD "" = "" then .error "REDIS_URL must include a hostname."
  else if parsed.fragment ≠ "" then .error "REDIS_URL must not include a fragment."
  else if databasePath ≠ [] ∧ databasePath.all isDigit = false then
    .error "REDIS_URL database must be a non-negative integer."
  else .ok ()

/-- `_validate_url`; an error is the message of a `RateLimitConfigError`. -/
def validateUrl (value : String) : Except String Unit :=
  if value = "" then .error "REDIS_URL must not be empty."
  else
    match urlsplit u ipv6 value with
    | none => .error "REDIS_URL is malformed."
    | some parsed =>
      if parsed.port = none then .error "REDIS_URL is malformed."
      else validateParsed u isDigit parsed

/-- `_validate_key_prefix`. -/
def validateKeyPrefix (value : String) : Except String Unit :=
  if keyPrefixMatches value = false then
    .error ("REDIS_KEY_PREFIX must contain 1 to 64 characters and use only letters, numbers, " ++
      "':', '_' or '-'.")
  else .ok ()

/-- `_validate_positive_float` with the maximum 60.0. -/
def validatePositiveFloat (name : String) (value : ℚ) : Except String Unit :=
  if value ≤ 0 ∨ value > 60 then .error (name ++ " must be greater than 0 and at most 60.0.")
  else .ok ()

/-- `_validate_integer`. -/
def validateInteger (name : String) (value minimum maximum : ℤ) : Except String Unit :=
  if value < minimum ∨ value > maximum then
    .error (name ++ s!" must be an integer between {minimum} and {maximum}.")
  else .ok ()

/-- The checks of `__post_init__` on the stripped texts. -/
def validate (settings : RedisSettings) : Except String Unit := do
  validateUrl u ipv6 isDigit settings.url
  validateKeyPrefix settings.keyPrefix
  validatePositiveFloat "connect_timeout_seconds" settings.connectTimeoutSeconds
  validatePositiveFloat "socket_timeout_seconds" settings.socketTimeoutSeconds
  validateInteger "max_connections" settings.maxConnections 1 1000
  validateInteger "health_check_interval_seconds" settings.healthCheckIntervalSeconds 0 3600

/-- `__post_init__`, which replaces the URL by the stripped one. -/
def postInit (settings : RedisSettings) : Except String RedisSettings :=
  let normalizedPrefix := strip settings.keyPrefix
  if normalizedPrefix ≠ settings.keyPrefix then
    .error "REDIS_KEY_PREFIX must not contain leading or trailing whitespace."
  else
    let normalized := { settings with url := strip settings.url, keyPrefix := normalizedPrefix }
    match validate u ipv6 isDigit normalized with
    | .error message => .error message
    | .ok () => .ok normalized

/-- The text of `redacted_url` for a URL with a password. -/
def redact (parsed : SplitResult) (port : Option ℕ) : String :=
  let hostname := bracketed ((parsed.hostname u).getD "")
  let username := parsed.username.getD ""
  let credentials := if username ≠ "" then quote username ++ ":***@" else ":***@"
  urlunsplit
    { scheme := parsed.scheme
      netloc := credentials ++ hostname ++ portSuffix port
      path := parsed.path
      query := parsed.query
      fragment := "" }

/-- `redacted_url`; nothing where it raises. -/
def redactedUrl (settings : RedisSettings) : Option String := do
  let parsed ← urlsplit u ipv6 settings.url
  let port ← parsed.port
  if parsed.password = none then settings.url else redact u parsed port

variable {u ipv6 isDigit}

theorem validateUrl_ok {value : String} (h : validateUrl u ipv6 isDigit value = .ok ()) :
    ∃ parsed port, urlsplit u ipv6 value = some parsed ∧ parsed.port = some port ∧
      parsed.scheme ∈ allowedRedisSchemes := by
  unfold validateUrl at h
  split at h
  · cases h
  · split at h
    · cases h
    · next parsed hsplit =>
      split at h
      · cases h
      · next hport =>
        obtain ⟨port, hport⟩ := Option.ne_none_iff_exists'.mp hport
        unfold validateParsed at h
        dsimp only at h
        split at h
        · cases h
        · next hscheme => exact ⟨parsed, port, hsplit, hport, not_not.mp hscheme⟩

theorem validateUrl_of_validate {settings : RedisSettings}
    (h : validate u ipv6 isDigit settings = .ok ()) :
    validateUrl u ipv6 isDigit settings.url = .ok () := by
  unfold validate at h
  cases hurl : validateUrl u ipv6 isDigit settings.url with
  | error message =>
    rw [hurl] at h
    cases h
  | ok a => rfl

theorem postInit_ok {settings accepted : RedisSettings}
    (h : postInit u ipv6 isDigit settings = .ok accepted) :
    accepted.url = strip settings.url ∧ validateUrl u ipv6 isDigit accepted.url = .ok () := by
  unfold postInit at h
  dsimp only at h
  split at h
  · cases h
  · split at h
    · cases h
    · next hvalid =>
      cases h
      exact ⟨rfl, validateUrl_of_validate hvalid⟩

theorem redactedUrl_eq {settings : RedisSettings} {parsed : SplitResult} {port : Option ℕ}
    (hsplit : urlsplit u ipv6 settings.url = some parsed) (hport : parsed.port = some port)
    (hpassword : parsed.password ≠ none) :
    settings.redactedUrl u ipv6 = some (redact u parsed port) := by
  simp only [redactedUrl, hsplit, Option.bind_eq_bind, Option.bind_some, hport,
    if_neg hpassword]

/-- The password is not looked at once it is there. -/
theorem redact_eq {parsed parsed' : SplitResult} (h : parsed.SameBesidesPassword u parsed')
    (port : Option ℕ) : redact u parsed port = redact u parsed' port := by
  simp only [redact, h.scheme, h.username, h.hostname, h.path, h.query]

end RedisSettings

end SecureGateway.Settings
