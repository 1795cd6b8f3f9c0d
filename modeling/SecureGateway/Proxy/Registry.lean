import Mathlib.Data.List.DropRight
import SecureGateway.Proxy.Router
import SecureGateway.Python.Url

/-!
# The service registry

`_validate_service_base_url` and `get_service_base_url`. The validator looks at the parsed URL
and returns the text.
-/
namespace SecureGateway.Gateway

open Python

/-- `SERVICE_DEFINITIONS`. -/
def serviceDefinitions : List (String × String × String) :=
  [("service-a", "SERVICE_A_URL", "http://127.0.0.1:8001"),
    ("service-b", "SERVICE_B_URL", "http://127.0.0.1:8002")]

def allowedUpstreamSchemes : List String := ["http", "https"]

variable (u : Unicode) (ipv6 : String → Bool)

/-- The checks on the parsed URL. -/
def validateParsed (serviceName : String) (parsed : SplitResult) : Except Raised Unit :=
  if parsed.scheme ∉ allowedUpstreamSchemes then
    .error (.invalidServiceConfiguration
      s!"Unsupported URL scheme configured for service: {serviceName}")
  else if (parsed.hostname u).getD "" = "" then
    .error (.invalidServiceConfiguration
      s!"Missing hostname configured for service: {serviceName}")
  else if parsed.username ≠ none ∨ parsed.password ≠ none then
    .error (.invalidServiceConfiguration
      s!"Upstream credentials are not allowed for service: {serviceName}")
  else if parsed.query ≠ "" then
    .error (.invalidServiceConfiguration
      s!"Upstream query strings are not allowed for service: {serviceName}")
  else if parsed.fragment ≠ "" then
    .error (.invalidServiceConfiguration
      s!"Upstream fragments are not allowed for service: {serviceName}")
  else .ok ()

/-- The `try` around `urlsplit` and `port`, and the check for blanks before it. -/
def parseServiceUrl (serviceName normalized : String) : Except Raised SplitResult :=
  let invalid := .error (.invalidServiceConfiguration
    s!"Invalid URL configured for service: {serviceName}")
  if normalized.toList.any isSpace then invalid
  else
    match urlsplit u ipv6 normalized with
    | none => invalid
    | some parsed => if parsed.port = none then invalid else .ok parsed

/-- `_validate_service_base_url`. -/
def validateServiceBaseUrl (serviceName value : String) : Except Raised String := do
  let normalized := strip value
  if normalized = "" then
    .error (.invalidServiceConfiguration s!"Empty URL configured for service: {serviceName}")
  else
    let parsed ← parseServiceUrl u ipv6 serviceName normalized
    validateParsed u serviceName parsed
    pure (rstripSlashes normalized)

/-- `get_service_base_url` over the process environment. -/
def registeredBaseUrl (getenv : String → Option String) (serviceName : String) :
    Except Raised String :=
  match serviceDefinitions.lookup serviceName with
  | none => .error (.unknownService s!"Unknown service: {serviceName}")
  | some (environmentVariable, defaultUrl) =>
    validateServiceBaseUrl u ipv6 serviceName ((getenv environmentVariable).getD defaultUrl)

/-- A deployment whose registry reads the process environment. -/
def Config.deployed (cfg : Config) (ipv6 : String → Bool) (getenv : String → Option String) :
    Config :=
  { cfg with validatedBaseUrl := registeredBaseUrl cfg.unicode ipv6 getenv }

section Validation

variable {u ipv6} {serviceName value baseUrl : String}

/-- What the validator has checked of a normalized URL. -/
structure Accepted (u : Unicode) (ipv6 : String → Bool) (normalized : String)
    (parsed : SplitResult) : Prop where
  noSpace : ∀ c ∈ normalized.toList, isSpace c = false
  split : urlsplit u ipv6 normalized = some parsed
  port : parsed.port ≠ none
  scheme : parsed.scheme ∈ allowedUpstreamSchemes
  hostname : (parsed.hostname u).getD "" ≠ ""
  username : parsed.username = none
  password : parsed.password = none
  query : parsed.query = ""
  fragment : parsed.fragment = ""

theorem parseServiceUrl_ok {normalized : String} {parsed : SplitResult}
    (h : parseServiceUrl u ipv6 serviceName normalized = .ok parsed) :
    (∀ c ∈ normalized.toList, isSpace c = false) ∧ urlsplit u ipv6 normalized = some parsed ∧
      parsed.port ≠ none := by
  unfold parseServiceUrl at h
  dsimp only at h
  split at h
  · cases h
  next hspace =>
  cases hsplit : urlsplit u ipv6 normalized with
  | none =>
    rw [hsplit] at h
    cases h
  | some r =>
    rw [hsplit] at h
    dsimp only at h
    split at h
    · cases h
    next hport =>
    cases h
    refine ⟨fun c hc => ?_, rfl, hport⟩
    by_contra hblank
    exact hspace (List.any_eq_true.mpr ⟨c, hc, by simpa using hblank⟩)

theorem validateParsed_ok {parsed : SplitResult} {a : Unit}
    (h : validateParsed u serviceName parsed = .ok a) :
    parsed.scheme ∈ allowedUpstreamSchemes ∧ (parsed.hostname u).getD "" ≠ "" ∧
      (parsed.username = none ∧ parsed.password = none) ∧ parsed.query = "" ∧
      parsed.fragment = "" := by
  unfold validateParsed at h
  split_ifs at h with hscheme hhost huser hquery hfragment
  rw [not_or, not_not, not_not] at huser
  exact ⟨hscheme, hhost, huser, not_not.mp hquery, not_not.mp hfragment⟩

/-- Only what passes every check is accepted, and the text itself is the result. -/
theorem accepted_of_validate (h : validateServiceBaseUrl u ipv6 serviceName value = .ok baseUrl) :
    (∃ parsed, Accepted u ipv6 (strip value) parsed) ∧ baseUrl = rstripSlashes (strip value) := by
  unfold validateServiceBaseUrl at h
  dsimp only at h
  split at h
  · cases h
  cases hparsed : parseServiceUrl u ipv6 serviceName (strip value) with
  | error e =>
    rw [hparsed] at h
    cases h
  | ok parsed =>
    rw [hparsed] at h
    change (validateParsed u serviceName parsed >>= fun _ => _) = _ at h
    cases hvalid : validateParsed u serviceName parsed with
    | error e =>
      rw [hvalid] at h
      cases h
    | ok a =>
      rw [hvalid] at h
      have hresult : baseUrl = rstripSlashes (strip value) := (Except.ok.inj h).symm
      obtain ⟨hspace, hsplit, hport⟩ := parseServiceUrl_ok hparsed
      obtain ⟨hscheme, hhost, huser, hquery, hfragment⟩ := validateParsed_ok hvalid
      exact ⟨⟨parsed, hspace, hsplit, hport, hscheme, hhost, huser.1, huser.2, hquery,
        hfragment⟩, hresult⟩

theorem isSpace_of_isUnsafe {c : Char} (h : isUnsafe c = true) : isSpace c = true := by
  simp only [isUnsafe, Bool.or_eq_true, decide_eq_true_eq] at h
  rcases h with (rfl | rfl) | rfl <;> decide

theorem Accepted.safe {normalized : String} {parsed : SplitResult}
    (h : Accepted u ipv6 normalized parsed) : ∀ c ∈ normalized.toList, isUnsafe c = false := by
  intro c hc
  by_contra hunsafe
  have hspace := isSpace_of_isUnsafe (Bool.not_eq_false _ ▸ hunsafe)
  rw [h.noSpace c hc] at hspace
  cases hspace

/-- An accepted URL has a scheme and a network location to be cut at. -/
theorem Accepted.cut {normalized : String} {parsed : SplitResult}
    (h : Accepted u ipv6 normalized parsed) :
    parsed.netloc.toList ≠ [] ∧ ∃ lead scheme rest, Cut lead scheme parsed.netloc.toList rest ∧
      normalized = String.ofList (assemble lead scheme parsed.netloc.toList rest) := by
  have hnetloc : parsed.netloc ≠ "" := by
    intro hempty
    apply h.hostname
    rw [SplitResult.hostname, hempty]
    rfl
  have hscheme : parsed.scheme ≠ "" := by
    intro hempty
    have hallowed := h.scheme
    rw [hempty] at hallowed
    revert hallowed
    decide
  exact ⟨fun hnil => hnetloc (String.toList_eq_nil_iff.mp hnil),
    cut_of_urlsplit h.safe h.split hscheme hnetloc⟩

end Validation

section Configured

variable {cfg : Config} {ipv6 : String → Bool} {getenv : String → Option String}
  {serviceName baseUrl : String}

/-- `configured_url`. -/
def configuredUrl (getenv : String → Option String) (serviceName : String) : Option String :=
  (serviceDefinitions.lookup serviceName).map fun d => (getenv d.1).getD d.2

theorem getServiceBaseUrl_deployed (h : isRegisteredService serviceName = true) :
    getServiceBaseUrl (cfg.deployed ipv6 getenv) serviceName =
      registeredBaseUrl cfg.unicode ipv6 getenv serviceName := by
  rw [getServiceBaseUrl, if_pos h, Config.deployed]

/-- The base URL of a request is the validated value of its service. -/
theorem requestBaseUrl_deployed
    (h : requestBaseUrl (cfg.deployed ipv6 getenv) serviceName = .ok baseUrl) :
    ∃ value, configuredUrl getenv serviceName = some value ∧
      validateServiceBaseUrl cfg.unicode ipv6 serviceName value = .ok baseUrl := by
  have hget : getServiceBaseUrl (cfg.deployed ipv6 getenv) serviceName = .ok baseUrl := by
    unfold requestBaseUrl at h
    split at h
    · cases h
    · exact h
  by_cases hregistered : isRegisteredService serviceName = true
  · rw [getServiceBaseUrl_deployed hregistered, registeredBaseUrl] at hget
    split at hget
    · cases hget
    · next hlookup =>
      exact ⟨_, by rw [configuredUrl, hlookup]; rfl, hget⟩
  · rw [getServiceBaseUrl, if_neg hregistered] at hget
    cases hget

end Configured

end SecureGateway.Gateway
