import SecureGateway.Python.Unicode
import SecureGateway.Gateway.Raised

/-!
# Users

The user types and the username policy of `gateway/app/auth/models.py`, and the password
policy of `gateway/app/auth/passwords.py`.
-/
namespace SecureGateway

abbrev Uuid := BitVec 128

/-- `str(uuid)`: thirty-two hexadecimal digits in groups of 8, 4, 4, 4 and 12. -/
@[irreducible] def Uuid.str (u : Uuid) : String :=
  let digits := (List.range 32).map fun i => Nat.digitChar (u.toNat / 16 ^ (31 - i) % 16)
  let groups := [(0, 8), (8, 4), (12, 4), (16, 4), (20, 12)]
  "-".intercalate (groups.map fun g => String.ofList ((digits.drop g.1).take g.2))

/-- A UTC `datetime`, in microseconds since the epoch. -/
abbrev Timestamp := ℤ

/-- `datetime.min` and `datetime.max`: the first and the last microsecond of the years 1 to
9999. -/
def earliestTimestamp : Timestamp := -62135596800000000

def latestTimestamp : Timestamp := 253402300799999999

structure StoredUser where
  id : Uuid
  username : String
  hashedPassword : String
  isActive : Bool
  createdAt : Timestamp
  deriving DecidableEq

structure UserPublic where
  id : Uuid
  username : String
  isActive : Bool
  createdAt : Timestamp
  deriving DecidableEq

def toPublicUser (u : StoredUser) : UserPublic := ⟨u.id, u.username, u.isActive, u.createdAt⟩

namespace Auth

def isLowerAlnum (c : Char) : Bool := ('a' ≤ c && c ≤ 'z') || ('0' ≤ c && c ≤ '9')

/-- `USERNAME_PATTERN.fullmatch`. -/
def usernameMatches (s : String) : Bool :=
  match s.toList with
  | c :: d :: rest =>
    isLowerAlnum c && isLowerAlnum ((d :: rest).getLast (by simp)) &&
      (d :: rest).all fun c => isLowerAlnum c || c == '.' || c == '_' || c == '-'
  | _ => false

def normalizeUsername (u : Python.Unicode) (username : String) : Except Raised String :=
  let normalized := u.canonical username
  if normalized.length < 3 then
    .error (.usernamePolicy "Username must contain at least 3 characters.")
  else if normalized.length > 64 then
    .error (.usernamePolicy "Username cannot contain more than 64 characters.")
  else if usernameMatches normalized then .ok normalized
  else
    .error (.usernamePolicy ("Username may contain only lowercase letters, digits, dots, " ++
      "underscores and hyphens, and must start and end with a letter or digit."))

theorem isPlain_of_username {c : Char}
    (h : (isLowerAlnum c || c == '.' || c == '_' || c == '-') = true) :
    Python.isPlain c = true := by
  have hascii : c.toNat < 128 := by
    simp only [isLowerAlnum, Bool.or_eq_true, Bool.and_eq_true, decide_eq_true_eq,
      beq_iff_eq] at h
    rcases h with ((((⟨-, h⟩ | ⟨-, h⟩) | rfl) | rfl) | rfl)
    · exact lt_of_le_of_lt h (by decide)
    · exact lt_of_le_of_lt h (by decide)
    · decide
    · decide
    · decide
  exact Python.forall_ascii (P := fun c =>
    (isLowerAlnum c || c == '.' || c == '_' || c == '-') = true → Python.isPlain c = true)
    (by decide) hascii h

theorem username_plain {s : String} (h : usernameMatches s = true) :
    s.toList.all Python.isPlain = true := by
  unfold usernameMatches at h
  split at h
  · next c d rest hs =>
    simp only [Bool.and_eq_true, List.all_eq_true] at h
    rw [hs, List.all_eq_true]
    intro e he
    refine isPlain_of_username ?_
    rcases List.mem_cons.mp he with rfl | he
    · simp [h.1.1]
    · exact h.2 e he
  · cases h

section Accepted

variable {u : Python.Unicode} {s name : String}

/-- What `normalize_username` accepts is made of plain characters. -/
theorem normalized_plain (h : normalizeUsername u s = .ok name) :
    usernameMatches name = true ∧ 3 ≤ name.length ∧ name.length ≤ 64 := by
  simp only [normalizeUsername] at h
  split at h
  · cases h
  · split at h
    · cases h
    · split at h <;> cases h
      next hmin hmax hm => exact ⟨hm, by omega, by omega⟩

theorem normalizeUsername_eq (h : normalizeUsername u s = .ok name) : u.canonical s = name := by
  simp only [normalizeUsername] at h
  split at h
  · cases h
  · split at h
    · cases h
    · split at h <;> cases h
      rfl

/-- The only error of `normalize_username`. -/
theorem normalizeUsername_error {x : Raised} (h : normalizeUsername u s = .error x) :
    ∃ message, x = .usernamePolicy message := by
  simp only [normalizeUsername] at h
  split at h
  · cases h
    exact ⟨_, rfl⟩
  · split at h
    · cases h
      exact ⟨_, rfl⟩
    · split at h <;> cases h
      exact ⟨_, rfl⟩

/-- Normalising a username again changes nothing, whatever the tables are. -/
theorem normalizeUsername_fixed (h : normalizeUsername u s = .ok name) (v : Python.Unicode) :
    normalizeUsername v name = .ok name := by
  obtain ⟨hm, hmin, hmax⟩ := normalized_plain h
  simp only [normalizeUsername, v.canonical_of_plain (username_plain hm)]
  rw [if_neg (by omega), if_neg (by omega), if_pos hm]

end Accepted

/-- `validate_password`; its error is a `ValueError`. -/
def validatePassword (password : String) : Except Raised Unit :=
  if password.length < 12 then
    .error (.valueError "Password must contain at least 12 characters.")
  else if password.length > 128 then
    .error (.valueError "Password cannot contain more than 128 characters.")
  else if Python.strip password = "" then
    .error (.valueError "Password cannot contain only whitespace.")
  else .ok ()

end Auth

end SecureGateway
