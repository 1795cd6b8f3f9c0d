import Mathlib.Data.Rat.Defs
import SecureGateway.Python.Userinfo

/-! `DatabaseSettings` of `gateway/app/database/config.py`. -/
namespace SecureGateway.Settings

open Python

/-- `APPLICATION_NAME_PATTERN.fullmatch`. -/
def applicationNameMatches (name : String) : Bool :=
  1 ≤ name.length && name.length ≤ 64 &&
    name.toList.all fun c => c.isAlphanum || c = '.' || c = '_' || c = '-'

structure DatabaseSettings where
  url : String
  poolSize : ℤ := 5
  maxOverflow : ℤ := 10
  poolTimeoutSeconds : ℚ := 5
  connectTimeoutSeconds : ℚ := 5
  verifyOnStartup : Bool := false
  applicationName : String := "secure-api-gateway"
  deriving DecidableEq

namespace DatabaseSettings

variable (u : Unicode) (ipv6 : String → Bool)

/-- The name of the database in a path. -/
def databaseName (path : String) : String :=
  strip (String.ofList ((path.toList.dropWhile (· = '/')).reverse.dropWhile (· = '/')).reverse)

/-- The checks of `_validate_url` on the parsed URL. -/
def validateParsed (parsed : SplitResult) (port : Option ℕ) : Except String Unit :=
  if parsed.scheme ≠ "postgresql+asyncpg" then
    .error "DATABASE_URL must use the postgresql+asyncpg scheme."
  else if parsed.username.getD "" = "" then .error "DATABASE_URL must include a username."
  else if parsed.password = none then .error "DATABASE_URL must include a password."
  else if (parsed.hostname u).getD "" = "" then .error "DATABASE_URL must include a hostname."
  else if port.any fun n => n ≤ 0 || n > 65535 then .error "DATABASE_URL contains an invalid port."
  else if databaseName parsed.path = "" then .error "DATABASE_URL must include a database name."
  else if parsed.fragment ≠ "" then .error "DATABASE_URL must not contain a fragment."
  else .ok ()

/-- `_validate_url`; an error is the message of a `DatabaseConfigurationError`. -/
def validateUrl (url : String) : Except String Unit :=
  if url ≠ strip url then
    .error "DATABASE_URL must not contain leading or trailing whitespace."
  else
    match urlsplit u ipv6 url with
    | none => .error "DATABASE_URL is invalid."
    | some parsed =>
      match parsed.port with
      | none => .error "DATABASE_URL is invalid."
      | some port => validateParsed u parsed port

/-- `_validate_integer`. -/
def validateInteger (name : String) (value minimum maximum : ℤ) : Except String Unit :=
  if value < minimum ∨ value > maximum then
    .error (name ++ s!" must be an integer between {minimum} and {maximum}.")
  else .ok ()

/-- `_validate_timeout`. -/
def validateTimeout (name : String) (value : ℚ) : Except String Unit :=
  if value ≤ 0 ∨ value > 60 then .error (name ++ " must be greater than 0 and at most 60.0.")
  else .ok ()

/-- `_validate_application_name`. -/
def validateApplicationName (value : String) : Except String Unit :=
  if value ≠ strip value then
    .error "application_name must not contain surrounding whitespace."
  else if applicationNameMatches value = false then
    .error ("application_name must contain 1 to 64 letters, numbers, dots, underscores or " ++
      "hyphens.")
  else .ok ()

/-- `__post_init__`. -/
def postInit (settings : DatabaseSettings) : Except String Unit := do
  validateUrl u ipv6 settings.url
  validateInteger "pool_size" settings.poolSize 1 100
  validateInteger "max_overflow" settings.maxOverflow 0 200
  validateTimeout "pool_timeout_seconds" settings.poolTimeoutSeconds
  validateTimeout "connect_timeout_seconds" settings.connectTimeoutSeconds
  validateApplicationName settings.applicationName

/-- The text of `redacted_url`, from the parsed URL. -/
def redact (parsed : SplitResult) (port : Option ℕ) : String :=
  let username := parsed.username.getD ""
  let hostname := bracketed ((parsed.hostname u).getD "")
  let authentication := if parsed.password ≠ none then username ++ ":***" else username
  let authentication := if authentication ≠ "" then authentication ++ "@" else authentication
  urlunsplit
    { scheme := parsed.scheme
      netloc := authentication ++ hostname ++ portSuffix port
      path := parsed.path
      query := parsed.query
      fragment := "" }

/-- `redacted_url`; nothing where it raises. -/
def redactedUrl (settings : DatabaseSettings) : Option String := do
  let parsed ← urlsplit u ipv6 settings.url
  let port ← parsed.port
  redact u parsed port

variable {u ipv6}

theorem validateUrl_ok {url : String} (h : validateUrl u ipv6 url = .ok ()) :
    ∃ parsed port, urlsplit u ipv6 url = some parsed ∧ parsed.port = some port ∧
      parsed.scheme = "postgresql+asyncpg" := by
  unfold validateUrl at h
  split at h
  · cases h
  · split at h
    · cases h
    · next parsed hsplit =>
      split at h
      · cases h
      · next port hport =>
        unfold validateParsed at h
        split at h
        · cases h
        · next hscheme => exact ⟨parsed, port, hsplit, hport, not_not.mp hscheme⟩

theorem validateUrl_of_postInit {settings : DatabaseSettings}
    (h : postInit u ipv6 settings = .ok ()) : validateUrl u ipv6 settings.url = .ok () := by
  unfold postInit at h
  cases hurl : validateUrl u ipv6 settings.url with
  | error message =>
    rw [hurl] at h
    cases h
  | ok a => rfl

theorem redactedUrl_eq {settings : DatabaseSettings} {parsed : SplitResult} {port : Option ℕ}
    (hsplit : urlsplit u ipv6 settings.url = some parsed) (hport : parsed.port = some port) :
    settings.redactedUrl u ipv6 = some (redact u parsed port) := by
  simp only [redactedUrl, hsplit, Option.bind_eq_bind, Option.bind_some, hport]

/-- The password is looked at for its presence only. -/
theorem redact_eq {parsed parsed' : SplitResult} (h : parsed.SameBesidesPassword u parsed')
    (port : Option ℕ) : redact u parsed port = redact u parsed' port := by
  have hpassword : parsed.password ≠ none ↔ parsed'.password ≠ none := by
    rw [← Option.isSome_iff_ne_none, ← Option.isSome_iff_ne_none, h.password]
  simp only [redact, h.scheme, h.username, h.hostname, h.path, h.query, hpassword]

end DatabaseSettings

end SecureGateway.Settings
