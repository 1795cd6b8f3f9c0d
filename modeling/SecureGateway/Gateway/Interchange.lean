import SecureGateway.Foundation.Simulation
import SecureGateway.Auth.InMemory
import SecureGateway.Gateway.System

/-!
# The two user repositories

`PostgreSQLUserRepository` on a working, migrated database and `InMemoryUserRepository` give the
same answers to the same calls, up to the identifiers and times they draw.
-/
namespace SecureGateway.Gateway

open Interleaving Auth

inductive RepositoryCall where
  | createUser (username hashedPassword : String)
  | getByUsername (username : String)
  | updatePasswordHash (username hashedPassword : String)
  | count
  deriving DecidableEq

inductive Answer where
  | user (u : StoredUser)
  | found (u : Option StoredUser)
  | number (n : ℕ)
  deriving DecidableEq

/-- What a user shows beside its identifier and its time. -/
structure ShownUser where
  username : String
  hashedPassword : String
  isActive : Bool
  deriving DecidableEq

def shown (u : StoredUser) : ShownUser := ⟨u.username, u.hashedPassword, u.isActive⟩

inductive ShownAnswer where
  | user (u : ShownUser)
  | found (u : Option ShownUser)
  | number (n : ℕ)
  deriving DecidableEq

def Answer.shown : Answer → ShownAnswer
  | .user u => .user (Gateway.shown u)
  | .found u => .found (u.map Gateway.shown)
  | .number n => .number n

/-- A call, with what is drawn for it on the two sides. -/
structure CallInput where
  call : RepositoryCall
  outside : Outside
  id : Uuid
  now : Timestamp

variable (cfg : Config)

def RepositoryCall.onPostgres : RepositoryCall → Action Answer
  | .createUser username hashedPassword => do
    let user ← UserRepository.createUser cfg username hashedPassword
    pure (.user user)
  | .getByUsername username => do
    let user ← UserRepository.getByUsername cfg username
    pure (.found user)
  | .updatePasswordHash username hashedPassword => do
    let user ← UserRepository.updatePasswordHash cfg username hashedPassword
    pure (.user user)
  | .count => do
    let n ← UserRepository.count
    pure (.number n)

def postgresCall (w : World) (i : CallInput) : Except Raised Answer × World :=
  (i.call.onPostgres cfg).run (working cfg.resilience i.outside) w

def inMemoryCall (m : InMemoryUserRepository) (i : CallInput) :
    Except Raised Answer × InMemoryUserRepository :=
  match i.call with
  | .createUser username hashedPassword =>
    let r := m.createUser cfg.unicode i.id i.now username hashedPassword
    (r.1.map .user, r.2)
  | .getByUsername username => ((m.getByUsername cfg.unicode username).map .found, m)
  | .updatePasswordHash username hashedPassword =>
    let r := m.updatePasswordHash cfg.unicode username hashedPassword
    (r.1.map .user, r.2)
  | .count => (.ok (.number m.count), m)

/-- `PostgreSQLUserRepository`, as its callers see it. -/
abbrev postgresRepository : Machine CallInput (Except Raised ShownAnswer) where
  State := World
  step w i :=
    match postgresCall cfg w i with
    | (answer, w') => (answer.map Answer.shown, w')

/-- `InMemoryUserRepository`, as its callers see it. -/
abbrev inMemoryRepository : Machine CallInput (Except Raised ShownAnswer) where
  State := InMemoryUserRepository
  step m i :=
    match inMemoryCall cfg m i with
    | (answer, m') => (answer.map Answer.shown, m')

section Tables

/-- The users of the database, as their usernames show them. -/
def postgresTable (db : Database) : List (String × ShownUser) :=
  db.users.map fun r => (r.username, shown (recordToStoredUser r))

def inMemoryTable (m : InMemoryUserRepository) : List (String × ShownUser) :=
  m.usersByUsername.map fun e => (e.1, shown e.2)

/-- The stored users of one side, by their usernames. -/
def postgresUser (db : Database) (username : String) : Option StoredUser :=
  (db.userByUsername username).map recordToStoredUser

theorem shown_postgresUser (db : Database) (username : String) :
    (postgresUser db username).map shown = (postgresTable db).lookup username := by
  unfold postgresUser Database.userByUsername postgresTable
  induction db.users with
  | nil => rfl
  | cons r rs ih =>
    by_cases hr : r.username = username
    · simp [hr]
    · have hr' : (username == r.username) = false := by simpa using Ne.symm hr
      simp [hr, List.lookup_cons, hr', ← ih]

theorem shown_get (m : InMemoryUserRepository) (username : String) :
    (m.get username).map shown = (inMemoryTable m).lookup username := by
  unfold InMemoryUserRepository.get inMemoryTable
  induction m.usersByUsername with
  | nil => rfl
  | cons e es ih =>
    obtain ⟨key, user⟩ := e
    by_cases he : username = key
    · simp [he]
    · have he' : (username == key) = false := by simpa using he
      simp [List.lookup_cons, he', ih]

/-- Both sides hold the same table, and the keys of the database hold. -/
structure Interchangeable (w : World) (m : InMemoryUserRepository) : Prop where
  table : postgresTable w.db = inMemoryTable m
  usernames : (w.db.users.map (·.username)).Nodup
  ids : (w.db.users.map (·.id)).Nodup
  role : w.db.hasRole defaultRoleId = true

end Tables

section Working

variable {settings : Resilience.UpstreamResilienceSettings} {o : Outside} {w : World}

theorem working_utcNow : working settings o w .utcNow = (o.utcNow, w) := rfl

theorem working_uuid4 : working settings o w .uuid4 = (o.uuid, w) := rfl

theorem working_selectUser {name : String} :
    working settings o w (.selectUser name) = (.ok (w.db.userByUsername name), w) := by
  simp [working, World.reply, World.respond, World.statement]

theorem working_selectUserCount :
    working settings o w .selectUserCount = (.ok w.db.users.length, w) := by
  simp [working, World.reply, World.respond, World.statement]

theorem working_commitUser_taken {record : UserRecord} {roleId : Uuid}
    (htext : isTextual record.hashedPassword = true) (h : w.db.violatesUnique record = true) :
    working settings o w (.commitUser record roleId) = (.error .uniqueViolation, w) := by
  simp [working, World.reply, World.respond, World.commitUser, htext, h]

theorem working_commitUser {record : UserRecord} {roleId : Uuid}
    (htext : isTextual record.hashedPassword = true) (h : w.db.violatesUnique record = false)
    (hrole : w.db.hasRole roleId = true) :
    working settings o w (.commitUser record roleId) =
      (.ok (), { w with db := w.db.addUser record roleId }) := by
  simp [working, World.reply, World.respond, World.commitUser, World.insertUser, htext, h, hrole]

theorem working_commitPasswordHash {userId : Uuid} {hashedPassword : String}
    (htext : isTextual hashedPassword = true) :
    working settings o w (.commitPasswordHash userId hashedPassword) =
      (.ok (), { w with
        db := w.db.setPasswordHash userId hashedPassword (w.nowMs * 1000) }) := by
  simp [working, World.reply, World.respond, World.statement, htext]

end Working

section Postgres

variable {cfg} {o : Outside} {w : World} {username name hashedPassword : String}

/-- The row `create_user` asks for. -/
def newRecord (o : Outside) (name hashedPassword : String) : UserRecord :=
  ⟨o.uuid, name, hashedPassword, true, o.utcNow, o.utcNow⟩

theorem createUser_taken (hname : normalizeUsername cfg.unicode username = .ok name)
    (hhash : Python.strip hashedPassword ≠ "") (htext : isTextual hashedPassword = true)
    (htaken : w.db.violatesUnique (newRecord o name hashedPassword) = true) :
    (UserRepository.createUser cfg username hashedPassword).run (working cfg.resilience o) w =
      (.error (.userAlreadyExists "Username is already registered."), w) := by
  rw [UserRepository.createUser, hname, Prog.liftExcept_ok_bind, if_neg hhash,
    Prog.run_call_bind working_utcNow, Prog.run_call_bind working_uuid4]
  exact Prog.run_call_bind (S := gateway) (working_commitUser_taken htext htaken) _

theorem createUser_free (hname : normalizeUsername cfg.unicode username = .ok name)
    (hhash : Python.strip hashedPassword ≠ "") (htext : isTextual hashedPassword = true)
    (hrole : w.db.hasRole defaultRoleId = true)
    (hfree : w.db.violatesUnique (newRecord o name hashedPassword) = false) :
    (UserRepository.createUser cfg username hashedPassword).run (working cfg.resilience o) w =
      (.ok (recordToStoredUser (newRecord o name hashedPassword)),
        { w with db := w.db.addUser (newRecord o name hashedPassword) defaultRoleId }) := by
  rw [UserRepository.createUser, hname, Prog.liftExcept_ok_bind, if_neg hhash,
    Prog.run_call_bind working_utcNow, Prog.run_call_bind working_uuid4]
  exact Prog.run_call_bind (S := gateway) (working_commitUser htext hfree hrole) _

theorem getByUsername_found (hname : normalizeUsername cfg.unicode username = .ok name) :
    (UserRepository.getByUsername cfg username).run (working cfg.resilience o) w =
      (.ok (postgresUser w.db name), w) := by
  rw [UserRepository.getByUsername, hname, Prog.liftExcept_ok_bind,
    Prog.run_call_bind working_selectUser]
  rfl

theorem updatePasswordHash_missing (hname : normalizeUsername cfg.unicode username = .ok name)
    (hhash : Python.strip hashedPassword ≠ "") (hnone : w.db.userByUsername name = none) :
    (UserRepository.updatePasswordHash cfg username hashedPassword).run
      (working cfg.resilience o) w = (.error (.userNotFound "User not found."), w) := by
  rw [UserRepository.updatePasswordHash, hname, Prog.liftExcept_ok_bind, if_neg hhash,
    Prog.run_call_bind working_selectUser, hnone]
  rfl

theorem updatePasswordHash_found {record : UserRecord}
    (hname : normalizeUsername cfg.unicode username = .ok name)
    (hhash : Python.strip hashedPassword ≠ "") (htext : isTextual hashedPassword = true)
    (hsome : w.db.userByUsername name = some record) :
    (UserRepository.updatePasswordHash cfg username hashedPassword).run
        (working cfg.resilience o) w =
      (.ok (recordToStoredUser { record with hashedPassword }), { w with
        db := w.db.setPasswordHash record.id hashedPassword (w.nowMs * 1000) }) := by
  rw [UserRepository.updatePasswordHash, hname, Prog.liftExcept_ok_bind, if_neg hhash,
    Prog.run_call_bind working_selectUser, hsome]
  exact Prog.run_call_bind (S := gateway) (working_commitPasswordHash htext) _

end Postgres

section Steps

variable {cfg} {w : World} {m : InMemoryUserRepository} {i : CallInput}
  {username name hashedPassword : String}

def RepositoryCall.isTextual : RepositoryCall → Bool
  | .createUser _ hashedPassword | .updatePasswordHash _ hashedPassword =>
    Gateway.isTextual hashedPassword
  | .getByUsername _ | .count => true

/-- The answers of one call agree, and so do the tables after it. -/
structure StepAgrees (cfg : Config) (w : World) (m : InMemoryUserRepository) (i : CallInput) :
    Prop where
  answers : (postgresCall cfg w i).1.map Answer.shown = (inMemoryCall cfg m i).1.map Answer.shown
  tables : Interchangeable (postgresCall cfg w i).2 (inMemoryCall cfg m i).2
  ids : ∀ r ∈ (postgresCall cfg w i).2.db.users,
    r.id ∈ w.db.users.map (·.id) ∨ r.id = i.outside.uuid

/-- A call that changes nothing on either side. -/
theorem agrees_of_unchanged {answer answer' : Except Raised Answer} (h : Interchangeable w m)
    (hp : postgresCall cfg w i = (answer, w)) (hm : inMemoryCall cfg m i = (answer', m))
    (ha : answer.map Answer.shown = answer'.map Answer.shown) : StepAgrees cfg w m i := by
  refine ⟨by rw [hp, hm]; exact ha, by rw [hp, hm]; exact h, fun r hr => ?_⟩
  rw [hp] at hr
  exact .inl (List.mem_map_of_mem hr)

/-- The same names are taken on both sides. -/
theorem shown_eq (h : Interchangeable w m) (name : String) :
    (postgresUser w.db name).map shown = (m.get name).map shown := by
  rw [shown_postgresUser, shown_get, h.table]

theorem violatesUnique_iff {record : UserRecord} (h : Interchangeable w m)
    (hfresh : ∀ r ∈ w.db.users, r.id ≠ record.id) :
    w.db.violatesUnique record = (m.get record.username).isSome := by
  have hsome : (m.get record.username).isSome = (w.db.userByUsername record.username).isSome := by
    have heq := congrArg Option.isSome (shown_eq h record.username)
    simpa [postgresUser] using heq.symm
  rw [hsome, Bool.eq_iff_iff, Database.violatesUnique, Database.userByUsername,
    List.find?_isSome, List.any_eq_true]
  constructor
  · rintro ⟨r, hr, hor⟩
    have hne := hfresh r hr
    exact ⟨r, hr, by simpa [hne] using hor⟩
  · rintro ⟨r, hr, he⟩
    exact ⟨r, hr, by simp_all⟩

theorem not_any_of_get {username : String} (h : m.get username = none) :
    m.usersByUsername.any (·.1 = username) = false := by
  rw [List.any_eq_false]
  intro e he hkey
  have hnone : m.usersByUsername.lookup username = none := h
  rw [List.lookup_eq_none_iff] at hnone
  have := hnone e he
  simp_all

theorem any_of_get {username : String} {user : StoredUser} (h : m.get username = some user) :
    m.usersByUsername.any (·.1 = username) = true := by
  by_contra hnot
  have hnone : m.usersByUsername.lookup username = none := by
    rw [List.lookup_eq_none_iff]
    intro e he
    simp only [Bool.not_eq_true, List.any_eq_false, decide_eq_true_eq] at hnot
    simpa using Ne.symm (hnot e he)
  have hget : m.usersByUsername.lookup username = some user := h
  rw [hnone] at hget
  cases hget

theorem agrees_count (h : Interchangeable w m) (hc : i.call = .count) : StepAgrees cfg w m i := by
  obtain ⟨call, o, id, now⟩ := i
  subst hc
  have hp : postgresCall cfg w ⟨.count, o, id, now⟩ = (.ok (.number w.db.users.length), w) := by
    rw [postgresCall, RepositoryCall.onPostgres, UserRepository.count]
    exact Prog.run_call_bind (S := gateway) working_selectUserCount _
  have hlength : w.db.users.length = m.count := by
    have := congrArg List.length h.table
    simpa [postgresTable, inMemoryTable, InMemoryUserRepository.count] using this
  exact agrees_of_unchanged h hp rfl (by rw [hlength])

theorem agrees_getByUsername (h : Interchangeable w m) (hc : i.call = .getByUsername username) :
    StepAgrees cfg w m i := by
  obtain ⟨call, o, id, now⟩ := i
  subst hc
  cases hname : normalizeUsername cfg.unicode username with
  | error e =>
    have hp : postgresCall cfg w ⟨.getByUsername username, o, id, now⟩ = (.error e, w) := by
      rw [postgresCall, RepositoryCall.onPostgres, UserRepository.getByUsername, hname]
      rfl
    have hm : inMemoryCall cfg m ⟨.getByUsername username, o, id, now⟩ = (.error e, m) := by
      simp only [inMemoryCall, InMemoryUserRepository.getByUsername, hname]
      rfl
    exact agrees_of_unchanged h hp hm rfl
  | ok name =>
    have hp : postgresCall cfg w ⟨.getByUsername username, o, id, now⟩ =
        (.ok (.found (postgresUser w.db name)), w) := by
      rw [postgresCall, RepositoryCall.onPostgres, Prog.run_bind_ok (getByUsername_found hname)]
      rfl
    have hm : inMemoryCall cfg m ⟨.getByUsername username, o, id, now⟩ =
        (.ok (.found (m.get name)), m) := by
      simp only [inMemoryCall, InMemoryUserRepository.getByUsername, hname]
      rfl
    refine agrees_of_unchanged h hp hm ?_
    simp only [Except.map, Answer.shown, shown_eq h name]

/-- A call that both sides refuse with the same exception. -/
theorem agrees_of_refused {e : Raised} (h : Interchangeable w m)
    (hp : postgresCall cfg w i = (.error e, w)) (hm : inMemoryCall cfg m i = (.error e, m)) :
    StepAgrees cfg w m i :=
  agrees_of_unchanged h hp hm rfl

theorem interchangeable_created {record : UserRecord} {user : StoredUser}
    (h : Interchangeable w m) (hfree : w.db.violatesUnique record = false)
    (hget : m.get record.username = none)
    (hshown : shown user = shown (recordToStoredUser record)) :
    Interchangeable { w with db := w.db.addUser record defaultRoleId }
      (m.set record.username user) := by
  simp only [Database.violatesUnique, List.any_eq_false, Bool.or_eq_true, decide_eq_true_eq,
    not_or] at hfree
  refine ⟨?_, ?_, ?_, h.role⟩
  · simp only [InMemoryUserRepository.set, not_any_of_get hget, Bool.false_eq_true, if_false]
    simp only [postgresTable, inMemoryTable, Database.addUser, List.map_append, List.map_cons,
      List.map_nil, hshown]
    exact congrArg (· ++ _) h.table
  · simp only [Database.addUser, List.map_append, List.map_cons, List.map_nil]
    refine List.nodup_append.mpr ⟨h.usernames, by simp, fun a ha b hb => ?_⟩
    cases List.mem_singleton.mp hb
    obtain ⟨r, hr, rfl⟩ := List.mem_map.mp ha
    exact (hfree r hr).2
  · simp only [Database.addUser, List.map_append, List.map_cons, List.map_nil]
    refine List.nodup_append.mpr ⟨h.ids, by simp, fun a ha b hb => ?_⟩
    cases List.mem_singleton.mp hb
    obtain ⟨r, hr, rfl⟩ := List.mem_map.mp ha
    exact (hfree r hr).1

theorem agrees_createUser (h : Interchangeable w m)
    (hc : i.call = .createUser username hashedPassword)
    (htext : isTextual hashedPassword = true)
    (hfresh : ∀ r ∈ w.db.users, r.id ≠ i.outside.uuid) : StepAgrees cfg w m i := by
  obtain ⟨call, o, id, now⟩ := i
  subst hc
  cases hname : normalizeUsername cfg.unicode username with
  | error e =>
    refine agrees_of_refused (e := e) h ?_ ?_
    · rw [postgresCall, RepositoryCall.onPostgres, UserRepository.createUser, hname]
      rfl
    · simp only [inMemoryCall, InMemoryUserRepository.createUser, hname]
      rfl
  | ok name =>
    by_cases hhash : Python.strip hashedPassword = ""
    · refine agrees_of_refused (e := .valueError "Hashed password cannot be empty.") h ?_ ?_
      · rw [postgresCall, RepositoryCall.onPostgres, UserRepository.createUser, hname,
          Prog.liftExcept_ok_bind, if_pos hhash]
        rfl
      · simp only [inMemoryCall, InMemoryUserRepository.createUser, hname, hhash, if_true]
        rfl
    · have hunique : w.db.violatesUnique (newRecord o name hashedPassword) =
          (m.get name).isSome := violatesUnique_iff h hfresh
      cases hget : m.get name with
      | some user =>
        have htaken : w.db.violatesUnique (newRecord o name hashedPassword) = true := by
          rw [hunique, hget]
          rfl
        refine agrees_of_refused
          (e := .userAlreadyExists "Username is already registered.") h ?_ ?_
        · rw [postgresCall, RepositoryCall.onPostgres,
            Prog.run_bind_error (createUser_taken hname hhash htext htaken)]
        · simp only [inMemoryCall, InMemoryUserRepository.createUser, hname, hhash, hget,
            Option.isSome_some, if_true, if_false]
          rfl
      | none =>
        have hfree : w.db.violatesUnique (newRecord o name hashedPassword) = false := by
          rw [hunique, hget]
          rfl
        have hp : postgresCall cfg w ⟨.createUser username hashedPassword, o, id, now⟩ =
            (.ok (.user (recordToStoredUser (newRecord o name hashedPassword))),
              { w with db := w.db.addUser (newRecord o name hashedPassword) defaultRoleId }) := by
          rw [postgresCall, RepositoryCall.onPostgres,
            Prog.run_bind_ok (createUser_free hname hhash htext h.role hfree)]
          rfl
        have hm : inMemoryCall cfg m ⟨.createUser username hashedPassword, o, id, now⟩ =
            (.ok (.user ⟨id, name, hashedPassword, true, now⟩),
              m.set name ⟨id, name, hashedPassword, true, now⟩) := by
          simp only [inMemoryCall, InMemoryUserRepository.createUser, hname, hhash, hget,
            Option.isSome_none, Bool.false_eq_true, if_false]
          rfl
        refine ⟨by rw [hp, hm]; rfl, ?_, fun r hr => ?_⟩
        · rw [hp, hm]
          exact interchangeable_created h hfree hget rfl
        · rw [hp] at hr
          rcases List.mem_append.mp hr with hr | hr
          · exact .inl (List.mem_map_of_mem hr)
          · cases List.mem_singleton.mp hr
            exact .inr rfl

/-- The row with the name, and it alone, carries its identifier. -/
theorem id_eq_iff {record r : UserRecord} (h : Interchangeable w m)
    (hsome : w.db.userByUsername name = some record) (hr : r ∈ w.db.users) :
    r.id = record.id ↔ r.username = name := by
  have hrecord : record ∈ w.db.users := List.mem_of_find?_eq_some hsome
  have hname : record.username = name := by simpa using List.find?_some hsome
  constructor
  · intro he
    rw [← hname, List.inj_on_of_nodup_map h.ids hr hrecord he]
  · intro he
    rw [List.inj_on_of_nodup_map h.usernames hr hrecord (he.trans hname.symm)]

theorem interchangeable_updated {record : UserRecord} {user : StoredUser} {now : Timestamp}
    (h : Interchangeable w m) (hsome : w.db.userByUsername name = some record)
    (hget : m.get name = some user) :
    Interchangeable { w with db := w.db.setPasswordHash record.id hashedPassword now }
      (m.set name { user with hashedPassword }) := by
  have hshown : shown (recordToStoredUser record) = shown user := by
    have heq := shown_eq h name
    simpa [postgresUser, hsome, hget] using heq
  have hname : record.username = name := by simpa using List.find?_some hsome
  have hkeys {α : Type} (f : UserRecord → α)
      (hf : ∀ r : UserRecord, f { r with hashedPassword, updatedAt := now } = f r) :
      (w.db.setPasswordHash record.id hashedPassword now).users.map f = w.db.users.map f := by
    simp only [Database.setPasswordHash, List.map_map]
    refine List.map_congr_left fun r _ => ?_
    simp only [Function.comp_apply]
    split
    · exact hf r
    · rfl
  refine ⟨?_, by rw [hkeys (·.username) fun _ => rfl]; exact h.usernames,
    by rw [hkeys (·.id) fun _ => rfl]; exact h.ids, h.role⟩
  -- Both sides change the entry of the name in place.
  let change (e : String × ShownUser) : String × ShownUser :=
    if e.1 = name then (name, { shown user with hashedPassword }) else e
  have hleft : postgresTable (w.db.setPasswordHash record.id hashedPassword now) =
      (postgresTable w.db).map change := by
    simp only [postgresTable, Database.setPasswordHash, List.map_map]
    refine List.map_congr_left fun r hr => ?_
    simp only [Function.comp_apply, change, id_eq_iff h hsome hr]
    split
    · next he =>
      have hrr : r = record := List.inj_on_of_nodup_map h.usernames hr
        (List.mem_of_find?_eq_some hsome) (he.trans hname.symm)
      subst hrr
      rw [← hshown]
      simp [shown, recordToStoredUser, he]
    · rfl
  have hright : inMemoryTable (m.set name { user with hashedPassword }) =
      (inMemoryTable m).map change := by
    simp only [InMemoryUserRepository.set, any_of_get hget, if_true, inMemoryTable, List.map_map]
    refine List.map_congr_left fun e _ => ?_
    simp only [Function.comp_apply, change]
    split <;> rfl
  rw [hleft, hright, h.table]

theorem agrees_updatePasswordHash (h : Interchangeable w m)
    (hc : i.call = .updatePasswordHash username hashedPassword)
    (htext : isTextual hashedPassword = true) : StepAgrees cfg w m i := by
  obtain ⟨call, o, id, now⟩ := i
  subst hc
  cases hname : normalizeUsername cfg.unicode username with
  | error e =>
    refine agrees_of_refused (e := e) h ?_ ?_
    · rw [postgresCall, RepositoryCall.onPostgres, UserRepository.updatePasswordHash, hname]
      rfl
    · simp only [inMemoryCall, InMemoryUserRepository.updatePasswordHash, hname]
      rfl
  | ok name =>
    by_cases hhash : Python.strip hashedPassword = ""
    · refine agrees_of_refused (e := .valueError "Hashed password cannot be empty.") h ?_ ?_
      · rw [postgresCall, RepositoryCall.onPostgres, UserRepository.updatePasswordHash, hname,
          Prog.liftExcept_ok_bind, if_pos hhash]
        rfl
      · simp only [inMemoryCall, InMemoryUserRepository.updatePasswordHash, hname, hhash, if_true]
        rfl
    · have hsame := shown_eq h name
      cases hget : m.get name with
      | none =>
        have hnone : w.db.userByUsername name = none := by
          simpa [postgresUser, hget] using hsame
        refine agrees_of_refused (e := .userNotFound "User not found.") h ?_ ?_
        · rw [postgresCall, RepositoryCall.onPostgres,
            Prog.run_bind_error (updatePasswordHash_missing hname hhash hnone)]
        · simp only [inMemoryCall, InMemoryUserRepository.updatePasswordHash, hname, hhash, hget,
            if_false]
          rfl
      | some user =>
        obtain ⟨record, hsome⟩ : ∃ record, w.db.userByUsername name = some record := by
          cases hr : w.db.userByUsername name with
          | none => simp [postgresUser, hr, hget] at hsame
          | some record => exact ⟨record, rfl⟩
        have hp : postgresCall cfg w ⟨.updatePasswordHash username hashedPassword, o, id, now⟩ =
            (.ok (.user (recordToStoredUser { record with hashedPassword })), { w with
              db := w.db.setPasswordHash record.id hashedPassword (w.nowMs * 1000) }) := by
          rw [postgresCall, RepositoryCall.onPostgres,
            Prog.run_bind_ok (updatePasswordHash_found hname hhash htext hsome)]
          rfl
        have hm : inMemoryCall cfg m ⟨.updatePasswordHash username hashedPassword, o, id, now⟩ =
            (.ok (.user { user with hashedPassword }),
              m.set name { user with hashedPassword }) := by
          simp only [inMemoryCall, InMemoryUserRepository.updatePasswordHash, hname, hhash, hget,
            if_false]
          rfl
        refine ⟨?_, ?_, fun r hr => ?_⟩
        · have hshown : shown (recordToStoredUser record) = shown user := by
            simpa [postgresUser, hsome, hget] using hsame
          simp only [shown, recordToStoredUser, ShownUser.mk.injEq] at hshown
          rw [hp, hm]
          simp [Except.map, Answer.shown, shown, recordToStoredUser, hshown]
        · rw [hp, hm]
          exact interchangeable_updated h hsome hget
        · rw [hp] at hr
          obtain ⟨r₀, hr₀, rfl⟩ := List.mem_map.mp hr
          refine .inl (List.mem_map.mpr ⟨r₀, hr₀, ?_⟩)
          split <;> rfl

theorem step_agrees (h : Interchangeable w m) (htext : i.call.isTextual = true)
    (hfresh : ∀ r ∈ w.db.users, r.id ≠ i.outside.uuid) : StepAgrees cfg w m i := by
  cases hc : i.call with
  | createUser username hashedPassword =>
    rw [hc] at htext
    exact agrees_createUser h hc htext hfresh
  | getByUsername username => exact agrees_getByUsername h hc
  | updatePasswordHash username hashedPassword =>
    rw [hc] at htext
    exact agrees_updatePasswordHash h hc htext
  | count => exact agrees_count h hc

end Steps

section Runs

variable {cfg}

/-- `uuid4` never repeats an identifier, and the hashes can be stored. -/
structure InputsOk (w : World) (is : List CallInput) : Prop where
  fresh : ∀ r ∈ w.db.users, ∀ i ∈ is, r.id ≠ i.outside.uuid
  distinct : (is.map (·.outside.uuid)).Nodup
  textual : ∀ i ∈ is, i.call.isTextual = true

theorem repositories_simulate :
    Simulates (postgresRepository cfg) (inMemoryRepository cfg) Interchangeable InputsOk := by
  have hstep : ∀ {w m i is}, Interchangeable w m → InputsOk w (i :: is) → StepAgrees cfg w m i := by
    intro w m i is hr hok
    exact step_agrees hr (hok.textual i (by simp)) fun r hr' => hok.fresh r hr' i (by simp)
  refine ⟨fun hr hok => (hstep hr hok).answers, fun hr hok => (hstep hr hok).tables, ?_⟩
  intro w m i is hr hok
  have hdistinct := List.nodup_cons.mp hok.distinct
  refine ⟨fun r hr' j hj he => ?_, hdistinct.2, fun j hj => hok.textual j (by simp [hj])⟩
  rcases (hstep hr hok).ids r hr' with hold | hnew
  · obtain ⟨r₀, hr₀, he₀⟩ := List.mem_map.mp hold
    exact hok.fresh r₀ hr₀ j (by simp [hj]) (he₀.trans he)
  · exact hdistinct.1 (List.mem_map.mpr ⟨j, hj, (hnew.symm.trans he).symm⟩)

/-- The call has changed the hash of one user, and nothing else that users are read for. -/
def OnlyHashChanged (before after : String → Option StoredUser) (name hashedPassword : String)
    (returned : StoredUser) : Prop :=
  ∃ user, before name = some user ∧ returned = { user with hashedPassword } ∧
    after = Function.update before name (some returned)

theorem postgresUser_setPasswordHash {w : World} {m : InMemoryUserRepository} {name : String}
    {record : UserRecord} {hashedPassword : String} {now : Timestamp} (h : Interchangeable w m)
    (hsome : w.db.userByUsername name = some record) :
    postgresUser (w.db.setPasswordHash record.id hashedPassword now) =
      Function.update (postgresUser w.db) name
        (some (recordToStoredUser { record with hashedPassword })) := by
  funext other
  have hfind : (w.db.setPasswordHash record.id hashedPassword now).userByUsername other =
      (w.db.userByUsername other).map fun r =>
        if r.id = record.id then { r with hashedPassword, updatedAt := now } else r := by
    simp only [Database.userByUsername, Database.setPasswordHash, List.find?_map]
    congr 2
    funext r
    simp only [Function.comp_apply]
    split <;> rfl
  rw [postgresUser, hfind]
  by_cases ho : other = name
  · subst ho
    simp [hsome, recordToStoredUser]
  · rw [Function.update_of_ne ho]
    cases hr : w.db.userByUsername other with
    | none => simp [postgresUser, hr]
    | some r =>
      have hother : r.username = other := by simpa using List.find?_some hr
      have hne : r.id ≠ record.id := by
        intro he
        rw [id_eq_iff h hsome (List.mem_of_find?_eq_some hr)] at he
        exact ho (hother.symm.trans he)
      simp [postgresUser, hr, hne]

theorem lookup_replaced {l : List (String × StoredUser)} {name : String} (updated : StoredUser)
    (h : l.any (·.1 = name) = true) :
    (l.map fun e => if e.1 = name then (name, updated) else e).lookup name = some updated := by
  induction l with
  | nil => simp at h
  | cons e es ih =>
    obtain ⟨key, value⟩ := e
    by_cases he : key = name
    · simp [he]
    · have hne : (name == key) = false := by simpa using Ne.symm he
      simp only [List.map_cons, he, if_false, List.lookup_cons, hne]
      exact ih (by simpa [he] using h)

theorem lookup_replaced_of_ne {l : List (String × StoredUser)} {name other : String}
    (updated : StoredUser) (h : other ≠ name) :
    (l.map fun e => if e.1 = name then (name, updated) else e).lookup other = l.lookup other := by
  induction l with
  | nil => rfl
  | cons e es ih =>
    obtain ⟨key, value⟩ := e
    have hne : (other == name) = false := by simpa using h
    by_cases he : key = name
    · simp [List.lookup_cons, he, hne, ih]
    · simp only [List.map_cons, he, if_false, List.lookup_cons, ih]

theorem get_set {m : InMemoryUserRepository} {name : String} {user updated : StoredUser}
    (hget : m.get name = some user) :
    (m.set name updated).get = Function.update m.get name (some updated) := by
  have hkey := any_of_get hget
  funext other
  simp only [InMemoryUserRepository.set, hkey, if_true, InMemoryUserRepository.get]
  by_cases ho : other = name
  · subst ho
    rw [Function.update_self]
    exact lookup_replaced updated hkey
  · rw [Function.update_of_ne ho]
    exact lookup_replaced_of_ne updated ho

/-- The user returned by an update of one side, if it returned one. -/
theorem postgres_onlyHash {w : World} {m : InMemoryUserRepository} {i : CallInput}
    {username hashedPassword : String} {returned : StoredUser} (h : Interchangeable w m)
    (hc : i.call = .updatePasswordHash username hashedPassword)
    (htext : isTextual hashedPassword = true)
    (ho : (postgresCall cfg w i).1 = .ok (.user returned)) :
    ∃ name, normalizeUsername cfg.unicode username = .ok name ∧
      OnlyHashChanged (postgresUser w.db) (postgresUser (postgresCall cfg w i).2.db) name
        hashedPassword returned := by
  obtain ⟨call, o, id, now⟩ := i
  subst hc
  simp only [postgresCall, RepositoryCall.onPostgres] at ho ⊢
  cases hname : normalizeUsername cfg.unicode username with
  | error e =>
    rw [UserRepository.updatePasswordHash, hname] at ho
    cases ho
  | ok name =>
    by_cases hhash : Python.strip hashedPassword = ""
    · rw [UserRepository.updatePasswordHash, hname, Prog.liftExcept_ok_bind, if_pos hhash] at ho
      cases ho
    · cases hsome : w.db.userByUsername name with
      | none =>
        rw [Prog.run_bind_error (updatePasswordHash_missing hname hhash hsome)] at ho
        cases ho
      | some record =>
        rw [Prog.run_bind_ok (updatePasswordHash_found hname hhash htext hsome)] at ho ⊢
        cases ho
        refine ⟨name, rfl, recordToStoredUser record, by simp [postgresUser, hsome], rfl, ?_⟩
        exact postgresUser_setPasswordHash h hsome

theorem inMemory_onlyHash {m : InMemoryUserRepository} {i : CallInput}
    {username hashedPassword : String} {returned : StoredUser}
    (hc : i.call = .updatePasswordHash username hashedPassword)
    (ho : (inMemoryCall cfg m i).1 = .ok (.user returned)) :
    ∃ name, normalizeUsername cfg.unicode username = .ok name ∧
      OnlyHashChanged m.get (inMemoryCall cfg m i).2.get name hashedPassword returned := by
  obtain ⟨call, o, id, now⟩ := i
  subst hc
  simp only [inMemoryCall, InMemoryUserRepository.updatePasswordHash] at ho ⊢
  cases hname : normalizeUsername cfg.unicode username with
  | error e =>
    rw [hname] at ho
    cases ho
  | ok name =>
    simp only [hname] at ho ⊢
    by_cases hhash : Python.strip hashedPassword = ""
    · simp only [hhash, if_true] at ho
      cases ho
    · simp only [hhash, if_false] at ho ⊢
      cases hget : m.get name with
      | none =>
        rw [hget] at ho
        cases ho
      | some user =>
        simp only [hget] at ho ⊢
        cases ho
        exact ⟨name, rfl, user, hget, rfl, get_set hget⟩

/-- The two user repositories are interchangeable: started empty, they answer every sequence of
calls alike, up to the identifiers and times they draw, and an update changes a hash only. -/
theorem repositories_interchangeable (cfg : Config) (w : World) (is : List CallInput)
    (hdb : w.db = Migration.upgrade []) (hdistinct : (is.map (·.outside.uuid)).Nodup)
    (htextual : ∀ i ∈ is, i.call.isTextual = true) :
    (postgresRepository cfg).outputs w is = (inMemoryRepository cfg).outputs .empty is ∧
    ∀ before i later username hashedPassword returned, is = before ++ i :: later →
      i.call = .updatePasswordHash username hashedPassword →
      let w' := (postgresRepository cfg).after w before
      let m' := (inMemoryRepository cfg).after .empty before
      ((postgresCall cfg w' i).1 = .ok (.user returned) →
        ∃ name, normalizeUsername cfg.unicode username = .ok name ∧
          OnlyHashChanged (postgresUser w'.db) (postgresUser (postgresCall cfg w' i).2.db) name
            hashedPassword returned) ∧
      ((inMemoryCall cfg m' i).1 = .ok (.user returned) →
        ∃ name, normalizeUsername cfg.unicode username = .ok name ∧
          OnlyHashChanged m'.get (inMemoryCall cfg m' i).2.get name hashedPassword returned) := by
  have hstart : Interchangeable w .empty := by
    refine ⟨?_, ?_, ?_, ?_⟩ <;> rw [hdb]
    · rfl
    · exact List.nodup_nil
    · exact List.nodup_nil
    · rfl
  have hok : InputsOk w is := by
    refine ⟨fun r hr => ?_, hdistinct, htextual⟩
    rw [hdb] at hr
    cases hr
  refine ⟨repositories_simulate.outputs_eq hstart hok, ?_⟩
  intro before i later username hashedPassword returned hsplit hc w' m'
  subst hsplit
  obtain ⟨hrelated, hlater⟩ := (@repositories_simulate cfg).after_related hstart hok
  have htext : isTextual hashedPassword = true := by
    have := hlater.textual i (by simp)
    rwa [hc] at this
  exact ⟨postgres_onlyHash hrelated hc htext, inMemory_onlyHash hc⟩

/-- A user is created, and the users are counted. -/
def createAndCount : List CallInput :=
  let input (call : RepositoryCall) (uuid : Uuid) : CallInput :=
    ⟨call, { outsideWorks true with uuid }, 0, 0⟩
  [input (.createUser " Bob" "$argon2id$bob") 1, input .count 2]

theorem createAndCount_answers :
    (postgresRepository defaultConfig).outputs { migratedWorld with db := Migration.upgrade [] }
        createAndCount =
      [.ok (.user ⟨"bob", "$argon2id$bob", true⟩), .ok (.number 1)] := by
  have hdistinct : (createAndCount.map (·.outside.uuid)).Nodup := by decide
  have htextual : ∀ i ∈ createAndCount, i.call.isTextual = true := by decide +kernel
  have hmemory : (inMemoryRepository defaultConfig).outputs .empty createAndCount =
      [.ok (.user ⟨"bob", "$argon2id$bob", true⟩), .ok (.number 1)] := by decide +kernel
  rw [← hmemory]
  exact (repositories_interchangeable defaultConfig _ createAndCount rfl hdistinct htextual).1

end Runs

end SecureGateway.Gateway
