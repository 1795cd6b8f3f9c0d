import SecureGateway.Auth.Users

/-!
# The in-memory user repository

`InMemoryUserRepository` of `gateway/app/auth/repository.py`; its asynchronous adapter only
forwards the calls. Identifiers and times are drawn by the caller.
-/
namespace SecureGateway

/-- `_users_by_username`, in insertion order. -/
structure InMemoryUserRepository where
  usersByUsername : List (String × StoredUser)

namespace InMemoryUserRepository

def empty : InMemoryUserRepository := ⟨[]⟩

variable (m : InMemoryUserRepository)

/-- `dict.get`. -/
def get (username : String) : Option StoredUser := m.usersByUsername.lookup username

/-- `d[k] = v`: an existing key keeps its place. -/
def set (username : String) (user : StoredUser) : InMemoryUserRepository :=
  if m.usersByUsername.any (·.1 = username) then
    ⟨m.usersByUsername.map fun e => if e.1 = username then (username, user) else e⟩
  else ⟨m.usersByUsername ++ [(username, user)]⟩

variable (u : Python.Unicode)

def createUser (id : Uuid) (now : Timestamp) (username hashedPassword : String) :
    Except Raised StoredUser × InMemoryUserRepository :=
  match Auth.normalizeUsername u username with
  | .error e => (.error e, m)
  | .ok normalizedUsername =>
    if Python.strip hashedPassword = "" then
      (.error (.valueError "Hashed password cannot be empty."), m)
    else if (m.get normalizedUsername).isSome then
      (.error (.userAlreadyExists "Username is already registered."), m)
    else
      let user : StoredUser := ⟨id, normalizedUsername, hashedPassword, true, now⟩
      (.ok user, m.set normalizedUsername user)

def getByUsername (username : String) : Except Raised (Option StoredUser) :=
  match Auth.normalizeUsername u username with
  | .error e => .error e
  | .ok normalizedUsername => .ok (m.get normalizedUsername)

def updatePasswordHash (username hashedPassword : String) :
    Except Raised StoredUser × InMemoryUserRepository :=
  match Auth.normalizeUsername u username with
  | .error e => (.error e, m)
  | .ok normalizedUsername =>
    if Python.strip hashedPassword = "" then
      (.error (.valueError "Hashed password cannot be empty."), m)
    else
      match m.get normalizedUsername with
      | none => (.error (.userNotFound "User not found."), m)
      | some existing =>
        let updated := { existing with hashedPassword }
        (.ok updated, m.set normalizedUsername updated)

def count : ℕ := m.usersByUsername.length

end InMemoryUserRepository

end SecureGateway
