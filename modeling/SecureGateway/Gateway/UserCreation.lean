import SecureGateway.Gateway.Effects

/-!
# User creation

Concurrent calls of `PostgreSQLUserRepository.create_user` over one database. A call commits a
row of `users` and the row of `user_roles` that gives it the default role, both or neither.
-/
namespace SecureGateway.Gateway

open Interleaving Auth

/-- The arguments of `create_user`. -/
structure UserCall where
  username : String
  hashedPassword : String
  deriving DecidableEq

abbrev userSystem (cfg : Config) : System where
  sig := gateway
  World := World
  Request := UserCall
  Failure := Raised
  Result := StoredUser
  Tick := Elapsed
  handler q := UserRepository.createUser cfg q.username q.hashedPassword
  respond := World.respond cfg.resilience
  advance := World.advance

/-- The row that an exchange has committed. -/
def createdRecord : Exchange gateway → Option UserRecord
  | ⟨.commitUser record _, .ok _⟩ => some record
  | _ => none

/-- A commit succeeds, or raises an integrity or a back-end error with nothing changed. -/
def plainCommit : Exchange gateway → Bool
  | ⟨.commitUser _ _, .error (.fault _ _)⟩ => false
  | ⟨.commitUser _ _, .error f⟩ => !f.committed
  | _ => true

/-- The exception that a failed commit becomes. -/
def commitError : DbFault → Raised
  | .uniqueViolation => .userAlreadyExists "Username is already registered."
  | .fault f _ => f.raised
  | .integrityError | .sqlalchemyError _ | .osError _ => UserRepository.backendError

section Calls

variable {cfg : Config} {q : UserCall} {h : History gateway}

def NoneCreated (h : History gateway) : Prop := ∀ x ∈ h, createdRecord x = none

theorem NoneCreated.snoc (hn : NoneCreated h) {x : Exchange gateway}
    (hx : createdRecord x = none) : NoneCreated (h ++ [x]) := by
  intro y hy
  rcases List.mem_append.mp hy with hy | hy
  · exact hn y hy
  · cases List.mem_singleton.mp hy
    exact hx

/-- The row a call asks for, whatever its identifier and time. -/
structure RecordOf (cfg : Config) (q : UserCall) (record : UserRecord) : Prop where
  username : normalizeUsername cfg.unicode q.username = .ok record.username
  hashedPassword : record.hashedPassword = q.hashedPassword
  isActive : record.isActive = true

structure CreateOk (cfg : Config) (q : UserCall) (h : History gateway) (op : GatewayOp) :
    Prop where
  none : NoneCreated h
  expected : op = .utcNow ∨ op = .uuid4 ∨
    ∃ record, RecordOf cfg q record ∧ op = .commitUser record defaultRoleId

/-- How a call ends: a user is what it has committed, and an accepted call that raises does so
because of its commit. -/
def CreatePost (cfg : Config) (q : UserCall) (h : History gateway) : Except Raised StoredUser → Prop
  | .ok user => ∃ h' record, h = h' ++ [⟨.commitUser record defaultRoleId, .ok ()⟩] ∧
      NoneCreated h' ∧ RecordOf cfg q record ∧ user = recordToStoredUser record
  | .error e => NoneCreated h ∧
      ((∃ name, normalizeUsername cfg.unicode q.username = .ok name) →
        Python.strip q.hashedPassword ≠ "" → ∃ record f,
          ⟨.commitUser record defaultRoleId, .error f⟩ ∈ h ∧ e = commitError f)

theorem createPost_of_failed {record : UserRecord} {f : DbFault} {e : Raised}
    (hn : NoneCreated h) (he : e = commitError f) :
    CreatePost cfg q (h ++ [⟨.commitUser record defaultRoleId, .error f⟩]) (.error e) :=
  ⟨hn.snoc rfl, fun _ _ => ⟨record, f, List.mem_append_right _ (List.mem_singleton.mpr rfl), he⟩⟩

theorem wp_userCall (cfg : Config) (q : UserCall) :
    (UserRepository.createUser cfg q.username q.hashedPassword).wp (CreateOk cfg q)
      (CreatePost cfg q) [] := by
  have hnil : NoneCreated [] := by simp [NoneCreated]
  unfold UserRepository.createUser
  cases hname : normalizeUsername cfg.unicode q.username with
  | error e =>
    refine ⟨hnil, fun ⟨name, hok⟩ => ?_⟩
    rw [hname] at hok
    cases hok
  | ok name =>
    rw [Prog.liftExcept_ok_bind]
    split
    · next hblank => exact ⟨hnil, fun _ hne => (hne hblank).elim⟩
    · rw [Prog.wp_call_bind]
      refine ⟨⟨hnil, .inl rfl⟩, fun now => ?_⟩
      have h₁ : NoneCreated ([] ++ [⟨.utcNow, now⟩]) := hnil.snoc rfl
      rw [Prog.wp_call_bind]
      refine ⟨⟨h₁, .inr (.inl rfl)⟩, fun id => ?_⟩
      have h₂ : NoneCreated ([] ++ [⟨.utcNow, now⟩] ++ [⟨.uuid4, id⟩]) := h₁.snoc rfl
      have hrecord : RecordOf cfg q ⟨id, name, q.hashedPassword, true, now, now⟩ :=
        ⟨hname, rfl, rfl⟩
      rw [Prog.wp_call_bind]
      refine ⟨⟨h₂, .inr (.inr ⟨_, hrecord, rfl⟩)⟩, fun committed => ?_⟩
      cases committed with
      | ok _ => exact ⟨_, _, rfl, h₂, hrecord, rfl⟩
      | error f =>
        cases f <;> exact createPost_of_failed h₂ rfl

end Calls

def createDiscipline (cfg : Config) : Discipline (userSystem cfg) where
  ok := CreateOk cfg
  post := CreatePost cfg
  handler := wp_userCall cfg

section Runs

variable {cfg : Config} {w : World} {ts : List (Transition (userSystem cfg))}
  {p : Pool (userSystem cfg)} {t : Transition (userSystem cfg)}

def createdAt (t : Transition (userSystem cfg)) : Option UserRecord :=
  match t.label with
  | .act _ x => createdRecord x
  | _ => none

/-- The rows that a run has committed, in order. -/
def created (ts : List (Transition (userSystem cfg))) : List UserRecord := ts.filterMap createdAt

/-- Every username is in its normal form, and no two rows share one. -/
structure UsersValid (cfg : Config) (db : Database) : Prop where
  normal : ∀ r ∈ db.users, normalizeUsername cfg.unicode r.username = .ok r.username
  unique : (db.users.map (·.username)).Nodup

def PlainCommits (ts : List (Transition (userSystem cfg))) : Prop :=
  ∀ t ∈ ts, ∀ i x, t.label = .act i x → plainCommit x = true

/-- A step commits one row with its role, or leaves the database alone. -/
theorem step_created {q q' : Pool (userSystem cfg)} {l : Label (userSystem cfg)}
    (hs : Step q l q') (hd : (createDiscipline cfg).Holds q)
    (hplain : ∀ i x, l = .act i x → plainCommit x = true) :
    match createdAt ⟨q, l, q'⟩ with
    | some r => q.world.db.violatesUnique r = false ∧
        normalizeUsername cfg.unicode r.username = .ok r.username ∧
        q'.world.db = q.world.db.addUser r defaultRoleId
    | none => q'.world.db = q.world.db := by
  cases hs with
  | spawn r => rfl
  | tick e => rfl
  | @act i th op resume r w' hi hp hw =>
    have hok : CreateOk cfg th.request th.history op :=
      ((hd i th hi).resume (x := ⟨op, r⟩) hp).1
    simp only [createdAt]
    rcases hok.expected with rfl | rfl | ⟨record, hrecord, rfl⟩
    · cases hw
      rfl
    · cases hw
      rfl
    · have hcommit : q.world.commitUser record defaultRoleId r = some w' := hw
      cases r with
      | ok _ =>
        simp only [World.commitUser, World.insertUser] at hcommit
        split at hcommit <;> cases hcommit
        next hkeys =>
        simp only [not_or, Bool.not_eq_true, Bool.not_eq_false] at hkeys
        exact ⟨hkeys.1, normalizeUsername_fixed hrecord.username cfg.unicode, rfl⟩
      | error f =>
        have hf : f.committed = false := by
          have := hplain i _ rfl
          cases f <;> simp_all [plainCommit, DbFault.committed]
        have hsame : w' = q.world := by
          cases f <;> simp_all [World.commitUser]
        simp [createdRecord, hsame]

/-- What a run of creations does to the tables. -/
theorem created_run (h : Run (.initial w) ts p) (hplain : PlainCommits ts) :
    p.world.db = { w.db with
      users := w.db.users ++ created ts
      userRoles := w.db.userRoles ++ (created ts).map fun r => ⟨r.id, defaultRoleId⟩ } ∧
    (UsersValid cfg w.db → UsersValid cfg p.world.db) := by
  induction h with
  | refl => exact ⟨by simp [created, Pool.initial], id⟩
  | @snoc ts q q' l hr hs ih =>
    obtain ⟨hdb, hvalid⟩ := ih fun t ht => hplain t (List.mem_append_left _ ht)
    have hd := ((createDiscipline cfg).holds_run hr).1
    have hstep := step_created hs hd (hplain ⟨q, l, q'⟩ (by simp))
    have hcat : created (ts ++ [⟨q, l, q'⟩]) = created ts ++ (createdAt ⟨q, l, q'⟩).toList := by
      cases hu : createdAt ⟨q, l, q'⟩ <;> simp [created, hu]
    rw [hcat]
    cases hu : createdAt ⟨q, l, q'⟩ with
    | none =>
      rw [hu] at hstep
      have hsame : q'.world.db = q.world.db := hstep
      rw [hsame]
      simpa using ⟨hdb, hvalid⟩
    | some r =>
      rw [hu] at hstep
      obtain ⟨hfree, hnormal, hadded⟩ : q.world.db.violatesUnique r = false ∧
        normalizeUsername cfg.unicode r.username = .ok r.username ∧
        q'.world.db = q.world.db.addUser r defaultRoleId := hstep
      refine ⟨by simp [hadded, hdb, Database.addUser], fun h₀ => ?_⟩
      obtain ⟨hall, hnodup⟩ := hvalid h₀
      rw [hadded]
      refine ⟨?_, ?_⟩
      · intro r' hr'
        rcases List.mem_append.mp hr' with hr' | hr'
        · exact hall r' hr'
        · cases List.mem_singleton.mp hr'
          exact hnormal
      · have hnew : r.username ∉ q.world.db.users.map (·.username) := by
          simp only [List.mem_map, not_exists, not_and]
          intro r' hr' he
          simp only [Database.violatesUnique, List.any_eq_false, Bool.or_eq_true,
            decide_eq_true_eq, not_or] at hfree
          exact (hfree r' hr').2 he
        simp only [Database.addUser, List.map_append, List.map_cons, List.map_nil]
        exact List.nodup_append.mpr ⟨hnodup, by simp, by
          intro a ha b hb
          cases List.mem_singleton.mp hb
          rintro rfl
          exact hnew ha⟩

/-- The call was for the name and has returned a user. -/
def Succeeded (cfg : Config) (name : String) (th : Thread (userSystem cfg)) : Bool :=
  decide (normalizeUsername cfg.unicode th.request.username = .ok name) &&
    th.outcome.any fun outcome => outcome.toOption.isSome

/-- The rows of one name are those of the calls that have succeeded with it. -/
theorem count_created (h : Run (.initial w) ts p) (name : String) :
    (created ts).countP (·.username = name) = p.threads.countP (Succeeded cfg name) := by
  let kind (x : Exchange gateway) : Bool := (createdRecord x).any (·.username = name)
  have hlabels : (created ts).countP (·.username = name) =
      ts.countP fun t => t.label.counts kind := by
    rw [created, List.countP_filterMap]
    refine List.countP_congr fun t _ => ?_
    cases hl : t.label with
    | spawn q => simp [createdAt, hl, Label.counts]
    | tick e => simp [createdAt, hl, Label.counts]
    | act i x => cases hx : createdRecord x <;> simp [createdAt, hl, Label.counts, kind, hx]
  have hnone : ∀ {h : History gateway}, NoneCreated h → h.countP kind = 0 := by
    intro h hn
    rw [List.countP_eq_zero]
    intro x hx
    simp [kind, hn x hx]
  rw [hlabels]
  refine h.countP_threads fun th hth => ?_
  obtain ⟨i, hi⟩ := List.mem_iff_getElem?.mp hth
  have hkeeps := ((createDiscipline cfg).holds_run h).1 i th hi
  cases hp : th.program with
  | perform op resume =>
    rw [Discipline.Keeps, hp] at hkeeps
    simp [hnone hkeeps.1.none, Succeeded, Thread.outcome, hp]
  | finish outcome =>
    have ho : th.outcome = some outcome := by simp [Thread.outcome, hp]
    have hpost : CreatePost cfg th.request th.history outcome := hkeeps.finished ho
    cases outcome with
    | error e => simp [hnone hpost.1, Succeeded, ho, Except.toOption]
    | ok user =>
      obtain ⟨h', record, hh, hquiet, hrecord, -⟩ := hpost
      rw [hh, List.countP_append, hnone hquiet]
      simp [kind, createdRecord, Succeeded, ho, hrecord.username, Except.toOption,
        List.countP_cons]

/-- What a run of creations from the world `w` has done. -/
structure UsersCreated (w : World) (ts : List (Transition (userSystem cfg)))
    (p : Pool (userSystem cfg)) : Prop where
  valid : UsersValid cfg p.world.db
  /-- Of the calls for one name at most one succeeds. -/
  once : ∀ name, p.threads.countP (Succeeded cfg name) ≤ 1
  failed : ∀ (i : ℕ) (th : Thread (userSystem cfg)) (e : Raised) (name : String),
    p.threads[i]? = some th → th.outcome = some (.error e) →
    normalizeUsername cfg.unicode th.request.username = .ok name →
    (∃ message, e = .userAlreadyExists message) ∨ ∃ message, e = .userRepositoryBackend message
  /-- A success is one commit of the row and of its default role. -/
  succeeded : ∀ (i : ℕ) (th : Thread (userSystem cfg)) (user : StoredUser),
    p.threads[i]? = some th → th.outcome = some (.ok user) →
    ∃ ts₁ t ts₂ x record, ts = ts₁ ++ t :: ts₂ ∧ t.label = .act i x ∧
      RecordOf cfg th.request record ∧ user = recordToStoredUser record ∧
      t.before.world.db.violatesUnique record = false ∧
      t.after.world.db = { t.before.world.db with
        users := t.before.world.db.users ++ [record]
        userRoles := t.before.world.db.userRoles ++ [⟨user.id, defaultRoleId⟩] } ∧
      ∀ t' ∈ ts₁ ++ ts₂, ∀ y, t'.label = .act i y → t'.after.world.db = t'.before.world.db
  raised : ∀ (i : ℕ) (th : Thread (userSystem cfg)) (e : Raised), p.threads[i]? = some th →
    th.outcome = some (.error e) → ∀ t ∈ ts, ∀ x, t.label = .act i x →
      t.after.world.db = t.before.world.db

theorem unchanged_of_none (h : Run (.initial w) ts p) (hplain : PlainCommits ts) (ht : t ∈ ts)
    (hnone : createdAt t = none) : t.after.world.db = t.before.world.db := by
  have hd := (((createDiscipline cfg).holds_run h).2 t ht).1
  have hstep := step_created (h.step ht) hd (hplain t ht)
  rw [hnone] at hstep
  exact hstep

theorem succeeded_commit {i : ℕ} {th : Thread (userSystem cfg)} {user : StoredUser}
    (h : Run (.initial w) ts p) (hplain : PlainCommits ts) (hi : p.threads[i]? = some th)
    (ho : th.outcome = some (.ok user)) :
    ∃ ts₁ t ts₂ x record, ts = ts₁ ++ t :: ts₂ ∧ t.label = .act i x ∧
      RecordOf cfg th.request record ∧ user = recordToStoredUser record ∧
      t.before.world.db.violatesUnique record = false ∧
      t.after.world.db = { t.before.world.db with
        users := t.before.world.db.users ++ [record]
        userRoles := t.before.world.db.userRoles ++ [⟨user.id, defaultRoleId⟩] } ∧
      ∀ t' ∈ ts₁ ++ ts₂, ∀ y, t'.label = .act i y → t'.after.world.db = t'.before.world.db := by
  obtain ⟨h', record, hh, hquiet, hrecord, rfl⟩ : CreatePost cfg th.request th.history (.ok user) :=
    (((createDiscipline cfg).holds_run h).1 i th hi).finished ho
  obtain ⟨ts₁, t, ts₂, rfl, hl, hothers⟩ := h.last_exchange hi hh
  have hcreated : createdAt t = some record := by simp [createdAt, hl, createdRecord]
  have hd := (((createDiscipline cfg).holds_run h).2 t (by simp)).1
  have hstep := step_created (h.step (t := t) (by simp)) hd (hplain t (by simp))
  rw [hcreated] at hstep
  obtain ⟨hfree, -, hadded⟩ : t.before.world.db.violatesUnique record = false ∧ _ ∧
    t.after.world.db = t.before.world.db.addUser record defaultRoleId := hstep
  refine ⟨ts₁, t, ts₂, _, record, rfl, hl, hrecord, rfl, hfree, hadded, fun t' ht' y hy => ?_⟩
  -- The commit ends the history of the call, so its other steps commit nothing.
  have hmem : t' ∈ ts₁ ++ t :: ts₂ := by
    rcases List.mem_append.mp ht' with ht' | ht' <;> simp [ht']
  refine unchanged_of_none h hplain hmem ?_
  simp [createdAt, hy, hquiet y (hothers t' ht' y hy)]

/-- User creation is unique and atomic with the default role, in every interleaving of calls
with hashes that are not blank. -/
theorem users_created (cfg : Config) (w : World) (ts : List (Transition (userSystem cfg)))
    (p : Pool (userSystem cfg)) (hvalid : UsersValid cfg w.db) (h : Run (.initial w) ts p)
    (hplain : PlainCommits ts)
    (hhash : ∀ th ∈ p.threads, Python.strip th.request.hashedPassword ≠ "") :
    UsersCreated w ts p := by
  obtain ⟨htables, hkeeps⟩ := created_run h hplain
  refine ⟨hkeeps hvalid, fun name => ?_, fun i th e name hi ho hname => ?_,
    fun i th user hi ho => succeeded_commit h hplain hi ho, fun i th e hi ho t ht x hl => ?_⟩
  · rw [← count_created h name]
    have hunique := (hkeeps hvalid).unique
    rw [htables, List.map_append] at hunique
    have hrows : ((created ts).map (·.username)).count name ≤ 1 :=
      List.nodup_iff_count_le_one.mp (List.nodup_append.mp hunique).2.1 name
    rw [List.count_eq_countP, List.countP_map] at hrows
    refine le_trans (le_of_eq (List.countP_congr fun r _ => ?_)) hrows
    simp
  · obtain ⟨-, hcause⟩ : CreatePost cfg th.request th.history (.error e) :=
      (((createDiscipline cfg).holds_run h).1 i th hi).finished ho
    obtain ⟨record, f, hmem, rfl⟩ := hcause ⟨name, hname⟩ (hhash th (List.mem_of_getElem? hi))
    obtain ⟨h₁, h₂, hh⟩ := List.append_of_mem hmem
    obtain ⟨ts₁, t, ts₂, th₀, rfl, hl, -, -, -⟩ := h.exchange hi hh
    have hcommit := hplain t (by simp) i _ hl
    cases f with
    | uniqueViolation => exact .inl ⟨_, rfl⟩
    | integrityError | sqlalchemyError | osError => exact .inr ⟨_, rfl⟩
    | fault f committed => cases hcommit
  · obtain ⟨hquiet, -⟩ : CreatePost cfg th.request th.history (.error e) :=
      (((createDiscipline cfg).holds_run h).1 i th hi).finished ho
    refine unchanged_of_none h hplain ht ?_
    simp [createdAt, hl, hquiet x (h.mem_history ht hl hi)]

/-- Two requests create a user at the same time, under two spellings of one name. -/
def concurrentCreations : List (Move (userSystem defaultConfig)) :=
  let act (i : ℕ) (uuid : Uuid) : Move (userSystem defaultConfig) :=
    .act i (World.reply .default { outsideWorks true with uuid })
  [.spawn ⟨"bob", "$argon2id$bob"⟩, .spawn ⟨" Bob", "$argon2id$other"⟩,
    act 0 0, act 1 0, act 0 0x0e000000000040008000000000000005#128,
    act 1 0x0e000000000040008000000000000006#128, act 1 0, act 0 0]

def isPlainCommit (t : Transition (userSystem defaultConfig)) : Bool :=
  match t.label with
  | .act _ x => plainCommit x
  | _ => true

theorem concurrentCreations_once :
    ∃ ts p, Run (.initial migratedWorld) ts p ∧ (created ts).map (·.username) = ["bob"] ∧
      p.threads.countP (Succeeded defaultConfig "bob") ≤ 1 := by
  have hplay : ((Pool.initial (S := userSystem defaultConfig) migratedWorld).play
      concurrentCreations).any (fun ts => ts.all isPlainCommit &&
        decide ((created ts).map (·.username) = ["bob"]) && ts.getLast?.any fun t =>
          t.after.threads.all fun th => decide (Python.strip th.request.hashedPassword ≠ "")) =
      true := by
    decide +kernel
  obtain ⟨ts, hts, hcheck⟩ := (Option.any_eq_true _ _).mp hplay
  simp only [Bool.and_eq_true, decide_eq_true_eq] at hcheck
  obtain ⟨⟨hplain, hcreated⟩, hlast⟩ := hcheck
  obtain ⟨p, hrun⟩ := Pool.play_run hts
  obtain ⟨t, ht, hend⟩ := (Option.any_eq_true _ _).mp hlast
  obtain ⟨us, rfl⟩ := List.getLast?_eq_some_iff.mp ht
  obtain ⟨-, -, rfl⟩ := hrun.snoc_inv
  simp only [List.all_eq_true, decide_eq_true_eq] at hend hplain
  have hvalid : UsersValid defaultConfig migratedWorld.db := by
    refine ⟨fun r hr => ?_, by decide⟩
    cases List.mem_singleton.mp hr
    decide +kernel
  have hdone := users_created defaultConfig migratedWorld _ _ hvalid hrun
    (fun t ht i x hl => by
      have := hplain t ht
      simpa [isPlainCommit, hl] using this) hend
  exact ⟨_, _, hrun, hcreated, hdone.once "bob"⟩

end Runs

end SecureGateway.Gateway
