import SecureGateway.Gateway.ZeroTrust

/-!
# Who can change a role

Role rows are written by a registration, for the user it creates, and by the two mutation
routes, whose actor was found to hold `authorization:roles:manage`. After the migration nobody
holds that permission, so nobody ever gets it through the API.
-/
namespace SecureGateway.Gateway

open Interleaving

variable {cfg : Config} {w w' : World} {ts : List (Transition (gatewaySystem cfg))}
  {p : Pool (gatewaySystem cfg)} {userId : Uuid}

/-- The role rows of a user. -/
def rolesOf (db : Database) (userId : Uuid) : List Uuid :=
  (db.userRoles.filter (·.userId = userId)).map (·.roleId)

section Writes

theorem rolesOf_addUser {db : Database} {record : UserRecord} {roleId : Uuid}
    (hunique : db.violatesUnique record = false) (huser : db.hasUser userId = true) :
    rolesOf (db.addUser record roleId) userId = rolesOf db userId := by
  obtain ⟨r, hr, hid⟩ := List.any_eq_true.mp huser
  have hne : record.id ≠ userId := by
    intro he
    have := List.any_eq_false.mp hunique r hr
    simp only [decide_eq_true_eq] at hid
    simp [hid, he] at this
  simp [rolesOf, Database.addUser, hne]

theorem rolesOf_insertUserRole {db : Database} {other roleId : Uuid} (hne : other ≠ userId) :
    rolesOf (db.insertUserRole other roleId) userId = rolesOf db userId := by
  unfold Database.insertUserRole
  split
  · rfl
  · simp [rolesOf, hne]

theorem rolesOf_deleteUserRole {db : Database} {other roleId : Uuid} (hne : other ≠ userId) :
    rolesOf (db.deleteUserRole other roleId) userId = rolesOf db userId := by
  unfold rolesOf Database.deleteUserRole
  rw [List.filter_filter]
  congr 1
  refine List.filter_congr fun ur _ => ?_
  by_cases hu : ur.userId = userId
  · have : ur ≠ ⟨other, roleId⟩ := by
      rintro rfl
      exact hne hu
    simp [hu, this]
  · simp [hu]

/-- The operations that change the role rows of a user there is. -/
theorem Effect.rolesOf_changed {op : GatewayOp} (h : Effect w op w')
    (huser : w.db.hasUser userId = true) (hc : rolesOf w'.db userId ≠ rolesOf w.db userId) :
    ∃ roleId, op = .insertUserRole userId roleId ∨ op = .deleteUserRole userId roleId := by
  cases h with
  | userCommitted hunique _ => exact (hc (rolesOf_addUser hunique huser)).elim
  | @roleInserted other roleId _ _ =>
    by_cases he : other = userId
    · subst he
      exact ⟨roleId, .inl rfl⟩
    · exact (hc (rolesOf_insertUserRole he)).elim
  | roleDeleted other roleId =>
    by_cases he : other = userId
    · subst he
      exact ⟨roleId, .inr rfl⟩
    · exact (hc (rolesOf_deleteUserRole he)).elim
  | unchanged | eventAppended | passwordHashCommitted | bucketStored | lockStatusRead
  | failureRecorded | loginReset | circuitsChanged => exact (hc rfl).elim

end Writes

/-- A step that changes the roles of a user there is belongs to a mutation route whose actor
passed the check of the permission in the database. -/
theorem role_change_authorized {t : Transition (gatewaySystem cfg)}
    {ts₁ ts₂ : List (Transition (gatewaySystem cfg))}
    (hr : Run (.initial w) (ts₁ ++ t :: ts₂) p)
    (huser : t.before.world.db.hasUser userId = true)
    (hc : rolesOf t.after.world.db userId ≠ rolesOf t.before.world.db userId) :
    ∃ i x th http username roleName actor, t.label = .act i x ∧
      t.before.threads[i]? = some th ∧
      (th.request = .assignRole http username roleName ∨
        th.request = .removeRole http username roleName) ∧
      Authenticated cfg http actor th.history ∧
      ∃ t' ∈ ts₁, t'.label =
          .act i ⟨.selectPermissionExists actor rolesManagePermission, .ok true⟩ ∧
        t'.before.world.db.permissionExists actor rolesManagePermission = true := by
  have ht : t ∈ ts₁ ++ t :: ts₂ := by simp
  have hs := hr.step ht
  cases hl : t.label with
  | spawn q =>
    rw [hl] at hs
    rw [hs.spawn_inv.1] at hc
    exact (hc rfl).elim
  | tick e =>
    rw [hl] at hs
    rw [hs.tick_inv.1] at hc
    exact (hc rfl).elim
  | act i x =>
    obtain ⟨roleId, hop⟩ := (respond_effect (act_respond hr ht hl)).rolesOf_changed huser hc
    obtain ⟨th, hi, hok⟩ := (gatewayDiscipline cfg).act_ok hr ht hl
    have hmanager : ∃ http username roleName,
        (th.request = .assignRole http username roleName ∨
          th.request = .removeRole http username roleName) ∧ RoleManager cfg http th.history := by
      rcases hop with hop | hop
      · rw [hop] at hok
        obtain ⟨http, username, roleName, hq, hm⟩ := hok
        exact ⟨http, username, roleName, .inl hq, hm⟩
      · rw [hop] at hok
        obtain ⟨http, username, roleName, hq, hm⟩ := hok
        exact ⟨http, username, roleName, .inr hq, hm⟩
    obtain ⟨http, username, roleName, hq, actor, ha, hg⟩ := hmanager
    obtain ⟨t', ht', hl', hdb⟩ := granted_in_database hr.upTo hi hg
    exact ⟨i, x, th, http, username, roleName, actor, rfl, hi, hq, ha, t', ht', hl', hdb⟩

section Migrated

/-- The grants are those of the migration, and every role row is one of the role `user`. -/
structure Seeded (db : Database) : Prop where
  roles : db.roles = Migration.roles
  permissions : db.permissions = Migration.permissions
  rolePermissions : db.rolePermissions = Migration.rolePermissions
  only_user : ∀ ur ∈ db.userRoles, ur.roleId = Migration.userRoleId

theorem seeded_upgrade (users : List UserRecord) : Seeded (Migration.upgrade users) := by
  refine ⟨rfl, rfl, rfl, fun ur hur => ?_⟩
  obtain ⟨r, -, rfl⟩ := List.mem_map.mp hur
  rfl

/-- The permissions of the role `user`. -/
theorem Seeded.permission_cases {db : Database} (h : Seeded db) {code : String}
    (hp : db.permissionExists userId code = true) :
    code = "proxy:service-a:read" ∨ code = "proxy:service-b:read" := by
  have hgrants : ∀ rp ∈ Migration.rolePermissions, rp.roleId = Migration.userRoleId →
      ∀ pm ∈ Migration.permissions, pm.id = rp.permissionId →
        pm.code = "proxy:service-a:read" ∨ pm.code = "proxy:service-b:read" := by
    decide +kernel
  simp only [Database.permissionExists, List.any_eq_true, Bool.and_eq_true, decide_eq_true_eq]
    at hp
  obtain ⟨ur, hur, -, rp, hrp, hrole, pm, hpm, hid, rfl⟩ := hp
  rw [h.rolePermissions] at hrp
  rw [h.permissions] at hpm
  exact hgrants rp hrp (hrole.trans (h.only_user ur hur)) pm hpm hid

theorem Seeded.not_manager {db : Database} (h : Seeded db) :
    db.permissionExists userId rolesManagePermission = false := by
  rw [Bool.eq_false_iff]
  intro hp
  rcases h.permission_cases hp with he | he
  · exact absurd he (by decide)
  · exact absurd he (by decide)

/-- Only an insertion can break the seeding. -/
theorem Effect.seeded {op : GatewayOp} (h : Effect w op w') (hs : Seeded w.db)
    (hcommit : ∀ record roleId, op = .commitUser record roleId → roleId = Migration.userRoleId)
    (hinsert : ∀ other roleId, op ≠ .insertUserRole other roleId) : Seeded w'.db := by
  cases h with
  | @userCommitted record roleId _ _ =>
    refine ⟨hs.roles, hs.permissions, hs.rolePermissions, fun ur hur => ?_⟩
    rcases List.mem_append.mp hur with hur | hur
    · exact hs.only_user ur hur
    · cases List.mem_singleton.mp hur
      exact hcommit record roleId rfl
  | roleInserted _ _ => exact (hinsert _ _ rfl).elim
  | roleDeleted other roleId =>
    refine ⟨hs.roles, hs.permissions, hs.rolePermissions, fun ur hur => ?_⟩
    exact hs.only_user ur (List.mem_filter.mp hur).1
  | passwordHashCommitted => exact ⟨hs.roles, hs.permissions, hs.rolePermissions, hs.only_user⟩
  | unchanged | eventAppended | bucketStored | lockStatusRead | failureRecorded | loginReset
  | circuitsChanged => exact hs

/-- The seeding survives every run: an insertion would need an earlier grant. -/
theorem seeded_run (hr : Run (.initial w) ts p) (h₀ : Seeded w.db) :
    Seeded p.world.db ∧ ∀ t ∈ ts, Seeded t.before.world.db := by
  induction hr with
  | refl => exact ⟨h₀, by simp⟩
  | @snoc ts q q' l hr hs ih =>
    obtain ⟨hq, hts⟩ := ih
    have hall : ∀ t ∈ ts ++ [⟨q, l, q'⟩], Seeded t.before.world.db := by
      intro t ht
      rcases List.mem_append.mp ht with ht | ht
      · exact hts t ht
      · cases List.mem_singleton.mp ht
        exact hq
    refine ⟨?_, hall⟩
    cases l with
    | spawn r =>
      rw [hs.spawn_inv.1]
      exact hq
    | tick e =>
      rw [hs.tick_inv.1]
      exact hq
    | act i x =>
      obtain ⟨th, hi, hok⟩ := (gatewayDiscipline cfg).act_ok (hr.snoc hs) (t := ⟨q, .act i x, q'⟩)
        (by simp) rfl
      obtain ⟨-, -, -, -, hw, -⟩ := hs.act_inv
      refine (respond_effect hw).seeded hq (fun record roleId hop => ?_) fun other roleId hop => ?_
      · rw [hop] at hok
        exact hok
      · rw [hop] at hok
        obtain ⟨http, username, roleName, -, actor, -, hg⟩ := hok
        obtain ⟨t', ht', -, hdb⟩ := granted_in_database hr hi hg
        rw [(hts t' ht').not_manager] at hdb
        cases hdb

end Migrated

/-- No self-promotion: after the migration only the role `user` is ever held, and in every run
the roles of a user change only by the hand of an authorised role manager. -/
theorem no_self_promotion (cfg : Config) (w : World)
    (ts : List (Transition (gatewaySystem cfg))) (p : Pool (gatewaySystem cfg))
    (hr : Run (.initial w) ts p) :
    ((∃ users, w.db = Migration.upgrade users) →
      (∀ ur ∈ p.world.db.userRoles, ur.roleId = Migration.userRoleId) ∧
      ∀ userId code, p.world.db.permissionExists userId code = true →
        code = "proxy:service-a:read" ∨ code = "proxy:service-b:read") ∧
    ∀ ts₁ t ts₂ userId, ts = ts₁ ++ t :: ts₂ → t.before.world.db.hasUser userId = true →
      rolesOf t.after.world.db userId ≠ rolesOf t.before.world.db userId →
      ∃ i x th http username roleName actor, t.label = .act i x ∧
        t.before.threads[i]? = some th ∧
        (th.request = .assignRole http username roleName ∨
          th.request = .removeRole http username roleName) ∧
        Authenticated cfg http actor th.history ∧
        ∃ t' ∈ ts₁, t'.label =
            .act i ⟨.selectPermissionExists actor rolesManagePermission, .ok true⟩ ∧
          t'.before.world.db.permissionExists actor rolesManagePermission = true := by
  constructor
  · rintro ⟨users, hw⟩
    have hs := (seeded_run hr (hw ▸ seeded_upgrade users)).1
    exact ⟨hs.only_user, fun userId code hp => hs.permission_cases hp⟩
  · intro ts₁ t ts₂ userId hts huser hc
    subst hts
    exact role_change_authorized hr huser hc

section Attempts

/-- The same database once alice holds the role `admin` too. -/
def administeredWorld : World :=
  { migratedWorld with db := migratedWorld.db.insertUserRole alice.id Migration.adminRoleId }

/-- Alice gives herself a role: the request, and its first `n` steps. -/
def selfAssignment (roleName : String) (n : ℕ) : List (Move (gatewaySystem defaultConfig)) :=
  .spawn (.assignRole (localRequest "PUT" (some "token")) "alice" roleName) :: steps 0 n true

def isForbidden : Except Raised ApiResponse → Bool
  | .error (.http e) => e.statusCode = 403
  | _ => false

def isDenied (t : Transition (gatewaySystem defaultConfig)) : Bool :=
  t.after.threads.any fun th => th.outcome.any isForbidden

def changesRoles (t : Transition (gatewaySystem defaultConfig)) : Bool :=
  t.before.world.db.hasUser alice.id &&
    rolesOf t.after.world.db alice.id ≠ rolesOf t.before.world.db alice.id

/-- A user is refused and keeps the one role; an administrator succeeds after the check. -/
theorem selfAssignment_outcomes :
    (∃ (ts : List (Transition (gatewaySystem defaultConfig))) (p : Pool _),
      Run (.initial migratedWorld) ts p ∧ ts.any isDenied = true ∧
      ∀ ur ∈ p.world.db.userRoles, ur.roleId = Migration.userRoleId) ∧
    ∃ (ts : List (Transition (gatewaySystem defaultConfig))) (p : Pool _),
      Run (.initial administeredWorld) ts p ∧ ∃ t ∈ ts, changesRoles t = true ∧
      ∃ actor, ∃ t' ∈ ts,
        t'.before.world.db.permissionExists actor rolesManagePermission = true := by
  constructor
  · have hplay : ((Pool.initial migratedWorld).play (selfAssignment "admin" 8)).any
        (·.any isDenied) = true := by decide +kernel
    obtain ⟨ts, hts, hdenied⟩ := (Option.any_eq_true _ _).mp hplay
    obtain ⟨p, hr⟩ := Pool.play_run hts
    exact ⟨ts, p, hr, hdenied,
      ((no_self_promotion defaultConfig migratedWorld ts p hr).1 ⟨[alice], rfl⟩).1⟩
  · have hplay : ((Pool.initial administeredWorld).play (selfAssignment "operator" 7)).any
        (·.any changesRoles) = true := by decide +kernel
    obtain ⟨ts, hts, hany⟩ := (Option.any_eq_true _ _).mp hplay
    obtain ⟨t, ht, hchange⟩ := List.any_eq_true.mp hany
    obtain ⟨p, hr⟩ := Pool.play_run hts
    obtain ⟨ts₁, ts₂, hdec⟩ := List.append_of_mem ht
    have hc := hchange
    simp only [changesRoles, Bool.and_eq_true, decide_eq_true_eq] at hc
    obtain ⟨-, -, -, -, -, -, actor, -, -, -, -, t', ht', -, hdb⟩ :=
      (no_self_promotion defaultConfig administeredWorld ts p hr).2 ts₁ t ts₂ alice.id hdec
        hc.1 hc.2
    exact ⟨ts, p, hr, t, ht, hchange, actor, t', by simp [hdec, ht'], hdb⟩

end Attempts

end SecureGateway.Gateway
