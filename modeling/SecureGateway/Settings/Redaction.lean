import SecureGateway.Settings.Database
import SecureGateway.Settings.Redis

/-!
# Redacted URLs

What `redacted_url` shows of a URL with a password, for two settings that differ in the
password. The delimiters that a password may hold are those whose last or first occurrence the
parser looks for.
-/
namespace SecureGateway.Settings

open Python

/-- A URL without its password. A scheme ends at the first colon, and no username reaches beyond
a slash, a question mark or a hash. -/
structure UrlParts where
  scheme : String
  username : String
  host : String
  path : String
  query : Option String
  scheme_plain : ':' ∉ scheme.toList
  username_plain : ∀ c ∈ username.toList, isDelimiter c = false

namespace UrlParts

variable (parts : UrlParts)

/-- What follows the network location. -/
def tail : String := parts.path ++ parts.query.elim "" ("?" ++ ·)

def withPassword (password : String) : String :=
  parts.scheme ++ "://" ++ parts.username ++ ":" ++ password ++ "@" ++ parts.host ++ parts.tail

/-- What stands behind the password. -/
def rest : List Char := parts.host.toList ++ parts.tail.toList

theorem withPassword_eq (password : String) :
    parts.withPassword password = String.ofList (credentialUrl parts.scheme.toList
      parts.username.toList password.toList parts.rest) := by
  rw [← String.toList_inj, String.toList_ofList]
  simp [UrlParts.withPassword, credentialUrl, Python.withPassword, rest]

end UrlParts

/-- Stripping leaves the username and the password. -/
theorem strip_credentialUrl (scheme user password rest : List Char) :
    strip (String.ofList (credentialUrl scheme user password rest)) =
      String.ofList (credentialUrl (scheme.dropWhile isSpace) user password
        (rest.reverse.dropWhile isSpace).reverse) := by
  have hleft : (credentialUrl scheme user password rest).dropWhile isSpace =
      credentialUrl (scheme.dropWhile isSpace) user password rest :=
    dropWhile_append_stop (by decide)
  have hreverse : (credentialUrl (scheme.dropWhile isSpace) user password rest).reverse =
      rest.reverse ++ '@' :: (scheme.dropWhile isSpace ++ ':' :: '/' :: '/' ::
        (user ++ ':' :: password)).reverse := by
    simp [credentialUrl, Python.withPassword]
  rw [strip, String.toList_ofList, hleft, hreverse, dropWhile_append_stop (by decide)]
  simp [credentialUrl, Python.withPassword]

section Accepted

variable {u : Unicode} {ipv6 : String → Bool} {scheme user password password' rest : List Char}

/-- What two accepted URLs that differ in the password have in common. -/
theorem parsed_besides_password {parsed parsed' : SplitResult} {port port' : Option ℕ}
    (hs : ':' ∉ scheme) (hu : ∀ c ∈ user, isDelimiter c = false)
    (hp : ∀ c ∈ password, isDelimiter c = false) (hp' : ∀ c ∈ password', isDelimiter c = false)
    (h : urlsplit u ipv6 (String.ofList (credentialUrl scheme user password rest)) = some parsed)
    (h' : urlsplit u ipv6 (String.ofList (credentialUrl scheme user password' rest)) =
      some parsed')
    (hport : parsed.port = some port) (hport' : parsed'.port = some port')
    (hscheme : parsed.scheme ≠ "") (hscheme' : parsed'.scheme ≠ "") :
    parsed.SameBesidesPassword u parsed' ∧ parsed.password ≠ none ∧ parsed'.password ≠ none ∧
      port = port' := by
  obtain ⟨hsame, hhas⟩ := urlsplit_besides_password hs hu hp hp' h h' hscheme hscheme'
  have hports : some port = some port' := by rw [← hport, ← hport', hsame.port]
  refine ⟨hsame, Option.isSome_iff_ne_none.mp hhas, ?_, Option.some.inj hports⟩
  rw [← Option.isSome_iff_ne_none, ← hsame.password]
  exact hhas

end Accepted

section Agreement

variable {u : Unicode} {ipv6 : String → Bool} {isDigit : Char → Bool} {parts : UrlParts}
  {password password' : String}

theorem database_redacted_agree {settings settings' : DatabaseSettings}
    (hp : ∀ c ∈ password.toList, isDelimiter c = false)
    (hp' : ∀ c ∈ password'.toList, isDelimiter c = false)
    (hurl : settings.url = parts.withPassword password)
    (hurl' : settings'.url = parts.withPassword password')
    (h : DatabaseSettings.postInit u ipv6 settings = .ok ())
    (h' : DatabaseSettings.postInit u ipv6 settings' = .ok ()) :
    ∃ text, settings.redactedUrl u ipv6 = some text ∧ settings'.redactedUrl u ipv6 = some text := by
  obtain ⟨parsed, port, hsplit, hport, hscheme⟩ :=
    DatabaseSettings.validateUrl_ok (DatabaseSettings.validateUrl_of_postInit h)
  obtain ⟨parsed', port', hsplit', hport', hscheme'⟩ :=
    DatabaseSettings.validateUrl_ok (DatabaseSettings.validateUrl_of_postInit h')
  have htext := hsplit
  have htext' := hsplit'
  rw [hurl, parts.withPassword_eq] at htext
  rw [hurl', parts.withPassword_eq] at htext'
  obtain ⟨hsame, -, -, rfl⟩ := parsed_besides_password parts.scheme_plain parts.username_plain
    hp hp' htext htext' hport hport' (by rw [hscheme]; decide) (by rw [hscheme']; decide)
  refine ⟨DatabaseSettings.redact u parsed port, DatabaseSettings.redactedUrl_eq hsplit hport, ?_⟩
  rw [DatabaseSettings.redactedUrl_eq hsplit' hport', DatabaseSettings.redact_eq hsame]

theorem redis_redacted_agree {settings settings' accepted accepted' : RedisSettings}
    (hp : ∀ c ∈ password.toList, isDelimiter c = false)
    (hp' : ∀ c ∈ password'.toList, isDelimiter c = false)
    (hurl : settings.url = parts.withPassword password)
    (hurl' : settings'.url = parts.withPassword password')
    (h : RedisSettings.postInit u ipv6 isDigit settings = .ok accepted)
    (h' : RedisSettings.postInit u ipv6 isDigit settings' = .ok accepted') :
    ∃ text, accepted.redactedUrl u ipv6 = some text ∧ accepted'.redactedUrl u ipv6 = some text := by
  obtain ⟨hstrip, hvalid⟩ := RedisSettings.postInit_ok h
  obtain ⟨hstrip', hvalid'⟩ := RedisSettings.postInit_ok h'
  rw [hurl, parts.withPassword_eq, strip_credentialUrl] at hstrip
  rw [hurl', parts.withPassword_eq, strip_credentialUrl] at hstrip'
  obtain ⟨parsed, port, hsplit, hport, hscheme⟩ := RedisSettings.validateUrl_ok hvalid
  obtain ⟨parsed', port', hsplit', hport', hscheme'⟩ := RedisSettings.validateUrl_ok hvalid'
  have hcolon : ':' ∉ parts.scheme.toList.dropWhile isSpace := fun hmem =>
    parts.scheme_plain (List.dropWhile_subset _ hmem)
  have hne : ∀ s ∈ RedisSettings.allowedRedisSchemes, s ≠ "" := by decide
  obtain ⟨hsame, hhas, hhas', rfl⟩ := parsed_besides_password hcolon parts.username_plain hp hp'
    (hstrip ▸ hsplit) (hstrip' ▸ hsplit') hport hport' (hne _ hscheme) (hne _ hscheme')
  refine ⟨RedisSettings.redact u parsed port, RedisSettings.redactedUrl_eq hsplit hport hhas, ?_⟩
  rw [RedisSettings.redactedUrl_eq hsplit' hport' hhas', RedisSettings.redact_eq hsame]

end Agreement

/-- Two settings of either kind whose URLs differ in the password only are shown alike. -/
theorem redacted_urls_agree (u : Unicode) (ipv6 : String → Bool) (isDigit : Char → Bool)
    (parts : UrlParts) (password password' : String)
    (hp : ∀ c ∈ password.toList, isDelimiter c = false)
    (hp' : ∀ c ∈ password'.toList, isDelimiter c = false) :
    (∀ settings settings' : DatabaseSettings,
      settings.url = parts.withPassword password → settings'.url = parts.withPassword password' →
      DatabaseSettings.postInit u ipv6 settings = .ok () →
      DatabaseSettings.postInit u ipv6 settings' = .ok () →
      ∃ text, settings.redactedUrl u ipv6 = some text ∧
        settings'.redactedUrl u ipv6 = some text) ∧
    ∀ settings settings' accepted accepted' : RedisSettings,
      settings.url = parts.withPassword password → settings'.url = parts.withPassword password' →
      RedisSettings.postInit u ipv6 isDigit settings = .ok accepted →
      RedisSettings.postInit u ipv6 isDigit settings' = .ok accepted' →
      ∃ text, accepted.redactedUrl u ipv6 = some text ∧
        accepted'.redactedUrl u ipv6 = some text :=
  ⟨fun _ _ hurl hurl' h h' => database_redacted_agree hp hp' hurl hurl' h h',
    fun _ _ _ _ hurl hurl' h h' => redis_redacted_agree hp hp' hurl hurl' h h'⟩

def databaseParts : UrlParts where
  scheme := "postgresql+asyncpg"
  username := "gateway"
  host := "postgres:5432"
  path := "/gateway"
  query := none
  scheme_plain := by decide
  username_plain := forall_mem_of_all (by decide)

def redisParts : UrlParts where
  scheme := "rediss"
  username := ""
  host := "redis.example:6380"
  path := "/3"
  query := none
  scheme_plain := by decide
  username_plain := forall_mem_of_all (by decide)

/-- Passwords that hold the delimiters of the userinfo. -/
theorem redacted_urls_agree_delimiters :
    (∃ text,
      (DatabaseSettings.mk (databaseParts.withPassword "s3cret") 5 10 5 5 false
        "gateway").redactedUrl .ascii (fun _ => false) = some text ∧
      (DatabaseSettings.mk (databaseParts.withPassword "a@b:c%d") 5 10 5 5 false
        "gateway").redactedUrl .ascii (fun _ => false) = some text) ∧
    ∃ text,
      (RedisSettings.mk (redisParts.withPassword "s3cret") "gateway" 2 2 20 30
        false).redactedUrl .ascii (fun _ => false) = some text ∧
      (RedisSettings.mk (redisParts.withPassword "a@b:c%d") "gateway" 2 2 20 30
        false).redactedUrl .ascii (fun _ => false) = some text := by
  have hp : ∀ c ∈ "s3cret".toList, isDelimiter c = false := forall_mem_of_all (by decide)
  have hp' : ∀ c ∈ "a@b:c%d".toList, isDelimiter c = false := forall_mem_of_all (by decide)
  constructor
  · exact (redacted_urls_agree .ascii (fun _ => false) Char.isDigit databaseParts _ _ hp hp').1 _ _
      rfl rfl (by decide +kernel) (by decide +kernel)
  · exact (redacted_urls_agree .ascii (fun _ => false) Char.isDigit redisParts _ _ hp hp').2
      (RedisSettings.mk (redisParts.withPassword "s3cret") "gateway" 2 2 20 30 false)
      (RedisSettings.mk (redisParts.withPassword "a@b:c%d") "gateway" 2 2 20 30 false) _ _
      rfl rfl (by decide +kernel) (by decide +kernel)

end SecureGateway.Settings
