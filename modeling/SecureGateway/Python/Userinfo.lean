import SecureGateway.Python.Url

/-!
# Userinfo

The part of a network location before its last `@`: the username up to the first colon, the
password behind it. And the way back from parts to a URL: `urlunsplit` and `quote`.
-/
namespace Python

/-- `uses_netloc`. -/
def usesNetloc : List String :=
  ["", "ftp", "http", "gopher", "nntp", "telnet", "imap", "wais", "file", "mms", "https", "shttp",
    "snews", "prospero", "rtsp", "rtsps", "rtspu", "rsync", "svn", "svn+ssh", "sftp", "nfs", "git",
    "git+ssh", "ws", "wss", "itms-services"]

/-- The network location and the path behind it. -/
def joinNetloc (scheme netloc path : String) : String :=
  if netloc ≠ "" then
    "//" ++ netloc ++ (if path ≠ "" ∧ path.toList.head? ≠ some '/' then "/" ++ path else path)
  else if path.toList.take 2 = ['/', '/'] then "//" ++ path
  else if scheme ≠ "" ∧ scheme ∈ usesNetloc ∧ (path = "" ∨ path.toList.head? = some '/') then
    "//" ++ path
  else path

/-- `urlunsplit`. -/
def urlunsplit (r : SplitResult) : String :=
  let url := joinNetloc r.scheme r.netloc r.path
  let url := if r.scheme ≠ "" then r.scheme ++ ":" ++ url else url
  let url := if r.query ≠ "" then url ++ "?" ++ r.query else url
  if r.fragment ≠ "" then url ++ "#" ++ r.fragment else url

/-- `_ALWAYS_SAFE`. -/
def isAlwaysSafe (c : Char) : Bool :=
  c.toNat < 128 && (c.isAlphanum || c = '_' || c = '.' || c = '-' || c = '~')

/-- `'%{:02X}'`. -/
def percentByte (b : UInt8) : List Char :=
  ['%', (Nat.digitChar (b.toNat / 16)).toUpper, (Nat.digitChar (b.toNat % 16)).toUpper]

/-- `quote(text, safe="")`. -/
def quote (text : String) : String :=
  String.ofList <| text.toList.flatMap fun c =>
    if isAlwaysSafe c then [c] else (String.utf8EncodeChar c).flatMap percentByte

/-- A host name as it stands in a network location. -/
def bracketed (hostname : String) : String :=
  if ':' ∈ hostname.toList then "[" ++ hostname ++ "]" else hostname

def portSuffix (port : Option ℕ) : String := port.elim "" fun n => ":" ++ toString n

section Cuts

variable {c : Char} {a b l : List Char} {p : Char → Bool}

/-- A character that ends a run of `p` ends it before anything that follows. -/
theorem dropWhile_append_stop (h : p c = false) :
    (a ++ c :: b).dropWhile p = a.dropWhile p ++ c :: b := by
  induction a with
  | nil => simp [h]
  | cons d a ih =>
    by_cases hd : p d = true
    · simp [hd, ih]
    · simp [hd]

theorem takeWhile_append_stop (h : p c = false) :
    (a ++ c :: b).takeWhile p = a.takeWhile p := by
  induction a with
  | nil => simp [h]
  | cons d a ih =>
    by_cases hd : p d = true
    · simp [hd, ih]
    · simp [hd]

theorem before_append_cons : before c (a ++ c :: b) = before c a :=
  takeWhile_append_stop (by simp)

theorem after_append_cons : after c (a ++ c :: b) = if c ∈ a then after c a ++ c :: b else b := by
  split
  · next hc =>
    rw [after, after, dropWhile_append_stop (by simp)]
    have hne : a.dropWhile (· ≠ c) ≠ [] := by
      intro hnil
      have hall := List.dropWhile_eq_nil_iff.mp hnil c hc
      simp at hall
    rw [List.tail_append_of_ne_nil hne]
  · next hc => exact after_append hc

/-- What stands behind the last `c` does not depend on what stands before an earlier one. -/
theorem afterLast_append_cons : afterLast c (a ++ c :: b) = afterLast c (c :: b) := by
  have hlong : (a ++ c :: b).reverse = b.reverse ++ c :: a.reverse := by simp
  have hshort : (c :: b).reverse = b.reverse ++ c :: [] := by simp
  rw [afterLast, afterLast, hlong, hshort, before_append_cons, before_append_cons]

/-- What stands before the last `c` begins with what stands before an earlier one. -/
theorem beforeLast_append_cons : ∃ t, beforeLast c (a ++ c :: b) = a ++ t := by
  have hreverse : (a ++ c :: b).reverse = b.reverse ++ c :: a.reverse := by simp
  rw [beforeLast, hreverse, after_append_cons]
  split
  · exact ⟨c :: (after c b.reverse).reverse, by simp⟩
  · exact ⟨[], by simp⟩

end Cuts

/-- Two results that differ in nothing but their passwords. -/
structure SplitResult.SameBesidesPassword (u : Unicode) (r r' : SplitResult) : Prop where
  scheme : r.scheme = r'.scheme
  username : r.username = r'.username
  password : r.password.isSome = r'.password.isSome
  hostname : r.hostname u = r'.hostname u
  port : r.port = r'.port
  path : r.path = r'.path
  query : r.query = r'.query
  fragment : r.fragment = r'.fragment

section Passwords

variable {u : Unicode} {ipv6 : String → Bool} {user password password' host : List Char}

/-- A network location with a password. -/
def withPassword (user password host : List Char) : List Char :=
  user ++ ':' :: (password ++ '@' :: host)

theorem userinfo_withPassword (user password host : List Char) :
    ∃ t, beforeLast '@' (withPassword user password host) = user ++ ':' :: t := by
  have hassoc : withPassword user password host = (user ++ ':' :: password) ++ '@' :: host := by
    simp [withPassword]
  obtain ⟨t, ht⟩ := beforeLast_append_cons (c := '@') (a := user ++ ':' :: password) (b := host)
  exact ⟨password ++ t, by rw [hassoc, ht]; simp⟩

theorem hostinfo_withPassword :
    hostinfo (withPassword user password host) = hostinfo ('@' :: host) := by
  have hassoc : withPassword user password host = (user ++ ':' :: password) ++ '@' :: host := by
    simp [withPassword]
  simp only [hostinfo, hassoc, afterLast_append_cons]

/-- All that is read from a network location with a password, besides the password. -/
theorem sameBesidesPassword (scheme path query fragment : String) :
    SplitResult.SameBesidesPassword u
      ⟨scheme, String.ofList (withPassword user password host), path, query, fragment⟩
      ⟨scheme, String.ofList (withPassword user password' host), path, query, fragment⟩ := by
  have hat : ∀ q, '@' ∈ withPassword user q host := fun q => by simp [withPassword]
  obtain ⟨t, ht⟩ := userinfo_withPassword user password host
  obtain ⟨t', ht'⟩ := userinfo_withPassword user password' host
  refine ⟨rfl, ?_, ?_, ?_, ?_, rfl, rfl, rfl⟩
  · simp only [SplitResult.username, String.toList_ofList, hat, if_true, ht, ht',
      before_append_cons]
  · simp [SplitResult.password, hat, ht, ht']
  · simp only [SplitResult.hostname, String.toList_ofList, hostinfo_withPassword]
  · simp only [SplitResult.port, String.toList_ofList, hostinfo_withPassword]

/-- It has a password, and a username. -/
theorem password_withPassword (scheme path query fragment : String) :
    (SplitResult.password ⟨scheme, String.ofList (withPassword user password host), path, query,
      fragment⟩).isSome = true := by
  obtain ⟨t, ht⟩ := userinfo_withPassword user password host
  have hat : '@' ∈ withPassword user password host := by simp [withPassword]
  simp [SplitResult.password, hat, ht]

end Passwords

section Urls

variable {u : Unicode} {ipv6 : String → Bool} {scheme user password password' rest : List Char}

/-- A URL with a username and a password. -/
def credentialUrl (scheme user password rest : List Char) : List Char :=
  scheme ++ ':' :: '/' :: '/' :: withPassword user password rest

/-- The characters that `urlsplit` keeps. -/
def kept (l : List Char) : List Char := l.filter (!isUnsafe ·)

theorem cleaned_credentialUrl :
    cleaned (credentialUrl scheme user password rest) =
      credentialUrl (kept (scheme.dropWhile isC0OrSpace)) (kept user) (kept password)
        (kept rest) := by
  have hcolon : isUnsafe ':' = false := by decide
  have hslash : isUnsafe '/' = false := by decide
  have hat : isUnsafe '@' = false := by decide
  rw [cleaned, credentialUrl, dropWhile_append_stop (by decide)]
  simp [credentialUrl, withPassword, kept, hcolon, hslash, hat]

theorem mem_of_mem_kept {c : Char} {l : List Char} (h : c ∈ kept l) : c ∈ l :=
  List.mem_of_mem_filter h

/-- Neither the username nor the password ends the network location. -/
theorem splitNetloc_withPassword (hu : ∀ c ∈ user, isDelimiter c = false)
    (hp : ∀ c ∈ password, isDelimiter c = false) (rest : List Char) :
    splitNetloc ('/' :: '/' :: withPassword user password rest) =
      (withPassword user password (rest.takeWhile (!isDelimiter ·)),
        rest.dropWhile (!isDelimiter ·)) := by
  have hassoc : ∀ r, withPassword user password r =
      (user ++ ':' :: (password ++ ['@'])) ++ r := fun r => by simp [withPassword]
  have hin : ∀ c ∈ user ++ ':' :: (password ++ ['@']), (!isDelimiter c) = true := by
    intro c hc
    simp only [List.mem_append, List.mem_cons, List.not_mem_nil, or_false] at hc
    rcases hc with hc | rfl | hc | rfl
    · simp [hu c hc]
    · decide
    · simp [hp c hc]
    · decide
  rw [splitNetloc, hassoc, hassoc, List.takeWhile_append_of_pos hin,
    List.dropWhile_append_of_pos hin]

/-- What `urlsplit` reads from a URL with a username and a password. -/
theorem urlsplit_credentialUrl {r : SplitResult} (hs : ':' ∉ scheme)
    (hu : ∀ c ∈ user, isDelimiter c = false) (hp : ∀ c ∈ password, isDelimiter c = false)
    (h : urlsplit u ipv6 (String.ofList (credentialUrl scheme user password rest)) = some r)
    (hscheme : r.scheme ≠ "") :
    r = ⟨u.lower (String.ofList (kept (scheme.dropWhile isC0OrSpace))),
      String.ofList (withPassword (kept user) (kept password)
        ((kept rest).takeWhile (!isDelimiter ·))),
      String.ofList (pathOf ((kept rest).dropWhile (!isDelimiter ·))),
      String.ofList (queryOf ((kept rest).dropWhile (!isDelimiter ·))),
      String.ofList (fragmentOf ((kept rest).dropWhile (!isDelimiter ·)))⟩ := by
  have hcolon : ':' ∉ kept (scheme.dropWhile isC0OrSpace) := fun hmem =>
    hs (List.dropWhile_subset _ (mem_of_mem_kept hmem))
  have hnetloc := splitNetloc_withPassword
    (fun c hc => hu c (mem_of_mem_kept hc)) (fun c hc => hp c (mem_of_mem_kept hc)) (kept rest)
  rw [urlsplit, String.toList_ofList, cleaned_credentialUrl] at h
  by_cases hvalid : isScheme (kept (scheme.dropWhile isC0OrSpace)) = true
  · rw [credentialUrl, splitScheme, before_append hcolon, after_append hcolon,
      if_pos ⟨by simp, hvalid⟩] at h
    simp only [hnetloc, Option.ite_none_right_eq_some, Option.some.injEq] at h
    exact h.2.symm
  · rw [credentialUrl, splitScheme, before_append hcolon, if_neg fun hif => hvalid hif.2] at h
    simp only [Option.ite_none_right_eq_some, Option.some.injEq] at h
    rw [← h.2] at hscheme
    exact (hscheme rfl).elim

/-- Two URLs that differ in the password are read alike besides the password, and have one. -/
theorem urlsplit_besides_password {r r' : SplitResult} (hs : ':' ∉ scheme)
    (hu : ∀ c ∈ user, isDelimiter c = false) (hp : ∀ c ∈ password, isDelimiter c = false)
    (hp' : ∀ c ∈ password', isDelimiter c = false)
    (h : urlsplit u ipv6 (String.ofList (credentialUrl scheme user password rest)) = some r)
    (h' : urlsplit u ipv6 (String.ofList (credentialUrl scheme user password' rest)) = some r')
    (hscheme : r.scheme ≠ "") (hscheme' : r'.scheme ≠ "") :
    r.SameBesidesPassword u r' ∧ r.password.isSome = true := by
  rw [urlsplit_credentialUrl hs hu hp h hscheme, urlsplit_credentialUrl hs hu hp' h' hscheme']
  exact ⟨sameBesidesPassword _ _ _ _, password_withPassword _ _ _ _⟩

end Urls

end Python
