import Mathlib.Data.Finset.Empty
import SecureGateway.Gateway.System

/-!
# The permission test and the permission listing

Both queries of the authorization repository ask for the same relation between users and codes:
some role of the user is granted the permission with the code.
-/
namespace SecureGateway

namespace Database

variable {db db' : Database} {userId : Uuid} {code : String}

/-- Some role of the user grants the code. -/
def Grants (db : Database) (userId : Uuid) (code : String) : Prop :=
  ∃ ur ∈ db.userRoles, ∃ rp ∈ db.rolePermissions, ∃ pm ∈ db.permissions,
    ur.userId = userId ∧ rp.roleId = ur.roleId ∧ pm.id = rp.permissionId ∧ pm.code = code

/-- The role itself grants the code. -/
def RoleGrants (db : Database) (roleId : Uuid) (code : String) : Prop :=
  ∃ rp ∈ db.rolePermissions, ∃ pm ∈ db.permissions,
    rp.roleId = roleId ∧ pm.id = rp.permissionId ∧ pm.code = code

/-- Roles were assigned, grants or permissions added, and nothing was taken away. -/
structure Extends (db db' : Database) : Prop where
  userRoles : db.userRoles ⊆ db'.userRoles
  rolePermissions : db.rolePermissions ⊆ db'.rolePermissions
  permissions : db.permissions ⊆ db'.permissions

/-- The permissions of a user are the union of the grants of its roles. -/
theorem grants_iff : db.Grants userId code ↔
    ∃ roleId, ⟨userId, roleId⟩ ∈ db.userRoles ∧ db.RoleGrants roleId code := by
  constructor
  · rintro ⟨⟨_, roleId⟩, hur, rp, hrp, pm, hpm, rfl, hr, hp, hc⟩
    exact ⟨roleId, hur, rp, hrp, pm, hpm, hr, hp, hc⟩
  · rintro ⟨roleId, hur, rp, hrp, pm, hpm, hr, hp, hc⟩
    exact ⟨_, hur, rp, hrp, pm, hpm, rfl, hr, hp, hc⟩

theorem permissionExists_iff : db.permissionExists userId code = true ↔ db.Grants userId code := by
  simp only [permissionExists, Grants, List.any_eq_true, Bool.and_eq_true, decide_eq_true_eq]
  constructor
  · rintro ⟨ur, hur, hu, rp, hrp, hr, pm, hpm, hp, hc⟩
    exact ⟨ur, hur, rp, hrp, pm, hpm, hu, hr, hp, hc⟩
  · rintro ⟨ur, hur, rp, hrp, pm, hpm, hu, hr, hp, hc⟩
    exact ⟨ur, hur, hu, rp, hrp, hr, pm, hpm, hp, hc⟩

theorem mem_permissionCodesForUser :
    code ∈ db.permissionCodesForUser userId ↔ db.Grants userId code := by
  simp only [permissionCodesForUser, Grants, List.mem_dedup, List.mem_flatMap, List.mem_map,
    List.mem_filter, decide_eq_true_eq]
  constructor
  · rintro ⟨ur, ⟨hur, hu⟩, rp, ⟨hrp, hr⟩, pm, ⟨hpm, hp⟩, hc⟩
    exact ⟨ur, hur, rp, hrp, pm, hpm, hu, hr, hp, hc⟩
  · rintro ⟨ur, hur, rp, hrp, pm, hpm, hu, hr, hp, hc⟩
    exact ⟨ur, ⟨hur, hu⟩, rp, ⟨hrp, hr⟩, pm, ⟨hpm, hp⟩, hc⟩

theorem Grants.mono (h : db.Grants userId code) (hext : db.Extends db') :
    db'.Grants userId code := by
  obtain ⟨ur, hur, rp, hrp, pm, hpm, heq⟩ := h
  exact ⟨ur, hext.userRoles hur, rp, hext.rolePermissions hrp, pm, hext.permissions hpm, heq⟩

/-- Nothing is granted to a user without a role. -/
theorem not_grants_of_noRole (h : ∀ ur ∈ db.userRoles, ur.userId ≠ userId) :
    ¬ db.Grants userId code := by
  rintro ⟨ur, hur, -, -, -, -, hu, -⟩
  exact h ur hur hu

end Database

namespace Gateway

open Interleaving Authorization

variable (cfg : Config) (o : Outside) (w : World) (userId : Uuid) (permissionCode : String)

/-- The result of `AuthorizationService.has_permission` on a working database. -/
def permissionTest : Except Raised Bool :=
  ((AuthorizationService.hasPermission cfg userId permissionCode).exec
    (working cfg.resilience o) w).outcome

/-- The result of `AuthorizationService.get_permission_codes_for_user` on a working database. -/
def permissionListing : Except Raised (Finset String) :=
  ((AuthorizationService.getPermissionCodesForUser userId).exec
    (working cfg.resilience o) w).outcome

theorem permissionListing_eq :
    permissionListing cfg o w userId = .ok (w.db.permissionCodesForUser userId).toFinset := rfl

theorem permissionTest_eq {code : String}
    (h : normalizePermissionCode cfg.unicode permissionCode = .ok code) :
    permissionTest cfg o w userId permissionCode = .ok (w.db.permissionExists userId code) := by
  have hagain := normalizePermissionCode_fixed cfg.unicode h
  simp only [permissionTest, AuthorizationService.hasPermission,
    AuthorizationRepository.hasPermission, h, hagain, Prog.liftExcept_ok_bind]
  rfl

theorem policy_of_error {error : Raised}
    (h : normalizePermissionCode cfg.unicode permissionCode = .error error) :
    ∃ message, error = .permissionCodePolicy message := by
  simp only [normalizePermissionCode] at h
  split at h
  · cases h
    exact ⟨_, rfl⟩
  · split at h
    · cases h
      exact ⟨_, rfl⟩
    · split at h <;> cases h
      exact ⟨_, rfl⟩

/-- The permission test agrees with the permission listing, whatever the tables hold; a code
that the policy refuses is answered by its error, without any operation. -/
theorem hasPermission_iff_listed :
    (∀ code, normalizePermissionCode cfg.unicode permissionCode = .ok code →
      ∃ codes, permissionListing cfg o w userId = .ok codes ∧
        permissionTest cfg o w userId permissionCode = .ok (decide (code ∈ codes))) ∧
    (∀ error, normalizePermissionCode cfg.unicode permissionCode = .error error →
      ∃ message, error = .permissionCodePolicy message ∧
        ∀ (σ : Type) (env : Environment gateway σ) (s : σ),
          (AuthorizationService.hasPermission cfg userId permissionCode).exec env s =
            ⟨[], .error error, s⟩) ∧
    ((∀ ur ∈ w.db.userRoles, ur.userId ≠ userId) → permissionListing cfg o w userId = .ok ∅) ∧
    ((∀ ur ∈ w.db.userRoles, w.db.hasUser ur.userId = true) → w.db.hasUser userId = false →
      permissionListing cfg o w userId = .ok ∅) ∧
    ∀ w' : World, w.db.Extends w'.db →
      ∃ codes codes', permissionListing cfg o w userId = .ok codes ∧
        permissionListing cfg o w' userId = .ok codes' ∧ codes ⊆ codes' := by
  have hnone (h : ∀ ur ∈ w.db.userRoles, ur.userId ≠ userId) :
      permissionListing cfg o w userId = .ok ∅ := by
    rw [permissionListing_eq]
    congr 1
    ext code
    simpa [Database.mem_permissionCodesForUser] using Database.not_grants_of_noRole h
  refine ⟨fun code hcode => ?_, fun error herror => ?_, hnone, fun hforeign huser => ?_,
    fun w' hext => ?_⟩
  · refine ⟨_, permissionListing_eq cfg o w userId, ?_⟩
    rw [permissionTest_eq cfg o w userId permissionCode hcode]
    congr 1
    rw [Bool.eq_iff_iff, Database.permissionExists_iff, decide_eq_true_eq, List.mem_toFinset,
      Database.mem_permissionCodesForUser]
  · obtain ⟨message, rfl⟩ := policy_of_error cfg permissionCode herror
    refine ⟨message, rfl, fun σ env s => ?_⟩
    rw [AuthorizationService.hasPermission, herror, Prog.liftExcept_error_bind, Prog.exec_finish]
  · -- The foreign key leaves an unknown user without roles.
    refine hnone fun ur hur he => ?_
    rw [← he, hforeign ur hur] at huser
    cases huser
  · refine ⟨_, _, permissionListing_eq cfg o w userId, permissionListing_eq cfg o w' userId, ?_⟩
    intro code hcode
    rw [List.mem_toFinset, Database.mem_permissionCodesForUser] at hcode ⊢
    exact hcode.mono hext

/-- Alice may read service A under any spelling of the permission, and may not write. -/
theorem alice_permissions :
    permissionTest defaultConfig (outsideWorks true) migratedWorld alice.id
        " PROXY:Service-A:read" = .ok true ∧
      permissionTest defaultConfig (outsideWorks true) migratedWorld alice.id
        "proxy:service-a:write" = .ok false := by
  have hread : normalizePermissionCode .ascii " PROXY:Service-A:read" =
      .ok "proxy:service-a:read" := by decide +kernel
  have hwrite : normalizePermissionCode .ascii "proxy:service-a:write" =
      .ok "proxy:service-a:write" := by decide +kernel
  have hagree (code : String) := hasPermission_iff_listed defaultConfig (outsideWorks true)
    migratedWorld alice.id code
  constructor
  · obtain ⟨codes, hcodes, htest⟩ := (hagree " PROXY:Service-A:read").1 _ hread
    cases hcodes
    rw [htest]
    decide +kernel
  · obtain ⟨codes, hcodes, htest⟩ := (hagree "proxy:service-a:write").1 _ hwrite
    cases hcodes
    rw [htest]
    decide +kernel

end Gateway

end SecureGateway
