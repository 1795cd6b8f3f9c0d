import SecureGateway.Python.Numbers

/-! The settings of `gateway/app/auth/config.py`. -/
namespace SecureGateway.Auth

structure AuthSettings where
  secretKey : String
  algorithm : String
  accessTokenMinutes : ℤ
  issuer : String
  audience : String
  deriving DecidableEq

variable (decimal : Char → Option ℕ) (getenv : String → Option String)

/-- `read_positive_integer`; an error is the message of an `AuthConfigurationError`. -/
def readPositiveInteger (environmentName : String) (defaultValue : ℤ) : Except String ℤ :=
  let rawValue := Python.strip ((getenv environmentName).getD (toString defaultValue))
  match Python.int decimal rawValue with
  | none => .error s!"{environmentName} must be a positive integer."
  | some parsedValue =>
    if parsedValue ≤ 0 then .error s!"{environmentName} must be a positive integer."
    else .ok parsedValue

/-- `load_auth_settings`. -/
def loadAuthSettings : Except String AuthSettings :=
  let secretKey := Python.strip ((getenv "JWT_SECRET_KEY").getD "")
  if secretKey.length < 32 then .error "JWT_SECRET_KEY must contain at least 32 characters."
  else
    let algorithm := Python.strip ((getenv "JWT_ALGORITHM").getD "HS256")
    if algorithm ≠ "HS256" then .error s!"Unsupported JWT algorithm: {algorithm}"
    else
      match readPositiveInteger decimal getenv "JWT_ACCESS_TOKEN_MINUTES" 15 with
      | .error message => .error message
      | .ok accessTokenMinutes =>
        if accessTokenMinutes > 1440 then
          .error "JWT_ACCESS_TOKEN_MINUTES cannot exceed 1440."
        else
          let issuer := Python.strip ((getenv "JWT_ISSUER").getD "secure-api-gateway")
          let audience := Python.strip ((getenv "JWT_AUDIENCE").getD "secure-api-clients")
          if issuer = "" then .error "JWT_ISSUER cannot be empty."
          else if audience = "" then .error "JWT_AUDIENCE cannot be empty."
          else .ok ⟨secretKey, algorithm, accessTokenMinutes, issuer, audience⟩

variable {decimal getenv} {settings : AuthSettings}

theorem readPositiveInteger_pos {name : String} {default n : ℤ}
    (h : readPositiveInteger decimal getenv name default = .ok n) : 0 < n := by
  simp only [readPositiveInteger] at h
  split at h
  · cases h
  · split at h
    · cases h
    · cases h
      omega

/-- What every accepted configuration guarantees. -/
structure AuthSettings.Valid (settings : AuthSettings) : Prop where
  secret : 32 ≤ settings.secretKey.length
  algorithm : settings.algorithm = "HS256"
  minutes : 0 < settings.accessTokenMinutes ∧ settings.accessTokenMinutes ≤ 1440
  issuer : settings.issuer ≠ ""
  audience : settings.audience ≠ ""

theorem loadAuthSettings_valid (h : loadAuthSettings decimal getenv = .ok settings) :
    settings.Valid := by
  simp only [loadAuthSettings] at h
  split at h
  · cases h
  next hsecret =>
  split at h
  · cases h
  next halgorithm =>
  split at h
  · cases h
  next minutes hminutes =>
  split at h
  · cases h
  next hmaximum =>
  split at h
  · cases h
  next hissuer =>
  split at h
  · cases h
  next haudience =>
  cases h
  have hpos := readPositiveInteger_pos hminutes
  exact ⟨not_lt.mp hsecret, not_not.mp halgorithm, ⟨hpos, not_lt.mp hmaximum⟩, hissuer, haudience⟩

end SecureGateway.Auth
