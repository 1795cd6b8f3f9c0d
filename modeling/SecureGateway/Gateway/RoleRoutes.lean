import SecureGateway.Gateway.AuditedRejection
import SecureGateway.Gateway.Lookups
import SecureGateway.Gateway.Privilege

/-!
# How a role mutation ends

`assign_user_role` and `remove_user_role`, called by an authorised actor. Every failure of a
repository is translated, but for one: the user may be deleted between the lookup of the target
and the mutation, and what `_require_user` then raises is caught nowhere.
-/
namespace SecureGateway.Gateway

open Interleaving Authorization Audit

/-- No repository raises anything but its own errors. -/
structure WithinContracts (h : History gateway) : Prop where
  selectUser : ∀ username f c, ⟨.selectUser username, .error (.fault f c)⟩ ∉ h
  selectRoleId : ∀ name f c, ⟨.selectRoleId name, .error (.fault f c)⟩ ∉ h
  selectUserId : ∀ userId f c, ⟨.selectUserId userId, .error (.fault f c)⟩ ∉ h
  insertUserRole : ∀ userId roleId f c, ⟨.insertUserRole userId roleId, .error (.fault f c)⟩ ∉ h
  deleteUserRole : ∀ userId roleId f c, ⟨.deleteUserRole userId roleId, .error (.fault f c)⟩ ∉ h
  appendEvent : ∀ e f c, ⟨.appendEvent e, .error (.fault f c)⟩ ∉ h

/-- `_require_user` has not missed a user. -/
def TargetPresent (h : History gateway) : Prop :=
  ∀ userId, ⟨.selectUserId userId, .ok false⟩ ∉ h

/-- A response of the mutation routes, or one of their two errors. -/
def Defined : Except Raised ApiResponse → Prop
  | .ok (.roleMutation _ _ _ _) => True
  | .error (.http x) => x.statusCode = 404 ∨ x.statusCode = 503
  | _ => False

/-- Within the contracts a mutation ends in a defined response unless its user is gone. -/
def Settled (h : History gateway) (outcome : Except Raised ApiResponse) : Prop :=
  WithinContracts h → (Defined outcome ↔ TargetPresent h)

section History

variable {h : History gateway}

theorem targetPresent_snoc {x : Exchange gateway} (hh : TargetPresent h)
    (hx : ∀ userId, x ≠ ⟨.selectUserId userId, .ok false⟩) : TargetPresent (h ++ [x]) := by
  intro userId hmem
  rcases List.mem_append.mp hmem with hmem | hmem
  · exact hh userId hmem
  · exact hx userId (List.mem_singleton.mp hmem).symm

theorem targetPresent_of_checking (hh : ∀ x ∈ h, Checking x.op) : TargetPresent h :=
  fun _ hmem => hh _ hmem

theorem settled_of_escaped (outcome : Except Raised ApiResponse) (hh : ¬ WithinContracts h) :
    Settled h outcome := fun hcontracts => (hh hcontracts).elim

theorem settled_of_defined {outcome : Except Raised ApiResponse} (hd : Defined outcome)
    (hh : TargetPresent h) : Settled h outcome := fun _ => iff_of_true hd hh

end History

/-- Every operation is allowed. -/
abbrev anyOp : History gateway → GatewayOp → Prop := fun _ _ => True

/-- The lookup of `_require_user`. -/
def isTargetLookup : GatewayOp → Bool
  | .selectUserId _ => true
  | _ => false

/-- Any other operation leaves the target present. -/
theorem wp_step {α : Type} {post : History gateway → Except Raised α → Prop}
    {h : History gateway} {op : GatewayOp} {f : op.Reply → Action α}
    (hop : isTargetLookup op = false) (hh : TargetPresent h)
    (hf : ∀ r, TargetPresent (h ++ [⟨op, r⟩]) → (f r).wp anyOp post (h ++ [⟨op, r⟩])) :
    (invoke op >>= f).wp anyOp post h := by
  rw [Prog.wp_call_bind]
  refine ⟨trivial, fun r => hf r (targetPresent_snoc hh ?_)⟩
  intro userId hx
  have hlookup : op = .selectUserId userId := congrArg Exchange.op hx
  rw [hlookup] at hop
  cases hop

section Recording

variable {cfg : Config} {http : HttpRequest} {h : History gateway} {fields : EventFields}

/-- An event that its own validation accepts. -/
structure Recordable (u : Python.Unicode) (fields : EventFields) : Prop where
  statusCode : (fields.statusCode.all fun c => 100 ≤ c ∧ c ≤ 599) = true
  permissionCode : ∀ v ∈ fields.permissionCode, IsCode 160 v
  roleName : ∀ v ∈ fields.roleName, IsCode 160 v
  serviceName : fields.serviceName = none
  method : ∀ v ∈ fields.method.map u.upper, IsCode 16 v
  reasonCode : ∀ v ∈ fields.reasonCode, IsCode 160 v

theorem validateOptionalCode_ok {name : String} {value : Option String} {n : ℕ}
    (hv : ∀ v ∈ value, IsCode n v) : validateOptionalCode name value n = .ok () := by
  cases value with
  | none => rfl
  | some v => rw [validateOptionalCode_some, if_pos (hv v rfl)]

theorem Recordable.postInit {u : Python.Unicode} (hf : Recordable u fields)
    (eventId requestId : Uuid) (occurredAt : Timestamp) :
    let e : SecurityAuditEvent :=
      { fields with method := fields.method.map u.upper, eventId, occurredAt, requestId }
    e.postInit = .ok e := by
  intro e
  have hpermission : validateOptionalCode "permission_code" e.permissionCode 160 = .ok () :=
    validateOptionalCode_ok hf.permissionCode
  have hrole : validateOptionalCode "role_name" e.roleName 160 = .ok () :=
    validateOptionalCode_ok hf.roleName
  have hservice : e.serviceName = none := hf.serviceName
  have hmethod : validateOptionalCode "method" e.method 16 = .ok () :=
    validateOptionalCode_ok hf.method
  have hreason : validateOptionalCode "reason_code" e.reasonCode 160 = .ok () :=
    validateOptionalCode_ok hf.reasonCode
  have hstatus : (e.statusCode.all fun c => 100 ≤ c ∧ c ≤ 599) = true := hf.statusCode
  rw [SecurityAuditEvent.postInit, if_pos hstatus, hpermission, hrole, hservice, hmethod, hreason]
  rfl

/-- Recording such an event cannot fail, but for what breaks the append's contract. -/
theorem wp_recorded {post : History gateway → Except Raised Unit → Prop}
    (hf : Recordable cfg.unicode fields) (hh : TargetPresent h)
    (hfault : ∀ h' e, ¬ WithinContracts h' → post h' (.error e))
    (hok : ∀ h', TargetPresent h' → post h' (.ok ())) :
    (recordRequestSecurityEvent cfg http fields).wp anyOp post h := by
  rw [recordRequestSecurityEvent, createSecurityAuditEvent, Prog.wp_bind]
  refine wp_step rfl hh fun eventId hh => ?_
  refine wp_step rfl hh fun occurredAt hh => ?_
  rw [hf.postInit, Prog.wp_liftExcept, Prog.sequel_ok]
  refine wp_step rfl hh fun _ hh => ?_
  rw [recordSecurityEventBestEffort_eq]
  refine wp_step rfl hh fun _ hh => ?_
  split
  · refine wp_step rfl hh fun appended hh => ?_
    cases appended with
    | ok a => exact hok _ hh
    | error f =>
      cases f with
      | fault f c =>
        refine hfault _ _ fun hcontracts => ?_
        exact hcontracts.appendEvent _ f c (List.mem_append_right _ (List.mem_singleton_self _))
      | _ =>
        refine ⟨trivial, fun _ => hok _ (targetPresent_snoc hh ?_)⟩
        intro userId hx
        cases hx
  · exact hok _ hh

theorem wp_recorded_throw {α : Type} {post : History gateway → Except Raised α → Prop}
    {e : Raised} (hf : Recordable cfg.unicode fields) (hh : TargetPresent h)
    (hfault : ∀ h' e, ¬ WithinContracts h' → post h' (.error e))
    (hthrow : ∀ h', TargetPresent h' → post h' (.error e)) :
    (recordRequestSecurityEvent cfg http fields >>= fun _ => (throw e : Action α)).wp anyOp post
      h := by
  rw [Prog.wp_bind]
  exact wp_recorded hf hh hfault fun h' hh' => hthrow h' hh'

end Recording

section Parts

variable {cfg : Config} {http : HttpRequest} {h : History gateway}

/-- The events of these routes: constants, a routed method and a role name. -/
theorem recordable {u : Python.Unicode} {fields : EventFields} {code : ℤ} {reason : String}
    (hm : http.method ∈ proxyMethods) (hmethod : fields.method = some http.method)
    (hpermission : fields.permissionCode = some rolesManagePermission)
    (hservice : fields.serviceName = none) (hrole : ∀ v ∈ fields.roleName, IsCode 160 v)
    (hstatus : fields.statusCode = some code) (hcode : 100 ≤ code ∧ code ≤ 599)
    (hreason : fields.reasonCode = some reason) (hr : IsCode 160 reason) :
    Recordable u fields where
  statusCode := by
    rw [hstatus]
    exact decide_eq_true hcode
  permissionCode := by
    rw [hpermission]
    intro v hv
    cases hv
    decide +kernel
  roleName := hrole
  serviceName := hservice
  method := by
    obtain ⟨hupper, hcode⟩ := upper_routed u hm
    rw [hmethod]
    intro v hv
    cases hv
    rwa [hupper]
  reasonCode := by
    rw [hreason]
    intro v hv
    cases hv
    exact hr

/-- The target is found, or the route ends with one of its two errors. -/
theorem wp_getTargetUser {post : History gateway → Except Raised StoredUser → Prop}
    {username : String} {actorUserId : Uuid} (hm : http.method ∈ proxyMethods)
    (hh : TargetPresent h) (hfault : ∀ h' e, ¬ WithinContracts h' → post h' (.error e))
    (hrefused : ∀ h' x, TargetPresent h' → x.statusCode = 404 ∨ x.statusCode = 503 →
      post h' (.error (.http x)))
    (hok : ∀ h' target, TargetPresent h' → post h' (.ok target)) :
    (getTargetUser cfg http username actorUserId rolesManagePermission).wp anyOp post h := by
  rw [getTargetUser, Prog.wp_bind, Prog.wp_tryCatch, UserRepository.getByUsername, Prog.wp_bind,
    Prog.wp_liftExcept]
  cases hname : Auth.normalizeUsername cfg.unicode username with
  | error e =>
    obtain ⟨message, rfl⟩ := Auth.normalizeUsername_error hname
    exact hrefused h _ hh (Or.inl rfl)
  | ok name =>
    rw [Prog.sequel_ok]
    refine wp_step rfl hh fun selected hh => ?_
    rw [Prog.wp_bind]
    cases selected with
    | ok found =>
      cases found with
      | none => exact hrefused _ _ hh (Or.inl rfl)
      | some record => exact hok _ _ hh
    | error f =>
      cases f with
      | fault f c =>
        have hescaped : ¬ WithinContracts (h ++ [⟨.selectUser name, .error (.fault f c)⟩]) :=
          fun hcontracts => hcontracts.selectUser name f c
            (List.mem_append_right _ (List.mem_singleton_self _))
        cases f with
        | cancelled => exact hfault _ _ hescaped
        | other className => exact hfault _ _ hescaped
      | _ =>
        refine wp_recorded_throw (recordable hm rfl rfl rfl (fun v hv => ?_) rfl (by decide) rfl
          (by decide +kernel)) hh hfault fun h' hh' => hrefused h' _ hh' (Or.inr rfl)
        cases hv

/-- A postcondition that holds of each way in which a repository's mutation can end. -/
structure Mutated (post : History gateway → Except Raised Bool → Prop) : Prop where
  fault : ∀ h (f : Fault), ¬ WithinContracts h → post h (.error f.raised)
  missing : ∀ h message, ¬ TargetPresent h → post h (.error (.userAuthorizationNotFound message))
  notFound : ∀ h message, TargetPresent h → post h (.error (.roleNotFound message))
  backend : ∀ h message, TargetPresent h →
    post h (.error (.authorizationRepositoryBackend message))
  ok : ∀ h changed, TargetPresent h → post h (.ok changed)

/-- The result of one of the repository's statements. -/
theorem wp_statement {α : Type} {post : History gateway → Except Raised α → Prop}
    (r : Except DbFault α)
    (hfault : ∀ f c, r = .error (.fault f c) → post h (.error f.raised))
    (hbackend : ∀ f message, r = .error f →
      post h (.error (.authorizationRepositoryBackend message)))
    (hok : ∀ a, r = .ok a → post h (.ok a)) :
    (AuthorizationRepository.result r).wp anyOp post h := by
  cases r with
  | ok a => exact hok a rfl
  | error f =>
    cases f with
    | fault f c => exact hfault f c rfl
    | _ => exact hbackend _ _ rfl

theorem wp_mutation {post : History gateway → Except Raised Bool → Prop} {userId : Uuid}
    {name : String} (op : Uuid → GatewayOp)
    (reply : ∀ roleId, (op roleId).Reply → Except DbFault Bool)
    (hop : ∀ roleId, isTargetLookup (op roleId) = false)
    (hescape : ∀ h roleId r f c, reply roleId r = .error (.fault f c) →
      ¬ WithinContracts (h ++ [⟨op roleId, r⟩]))
    (hn : normalizeRoleName cfg.unicode name = .ok name) (hh : TargetPresent h)
    (hpost : Mutated post) :
    (do
      let normalizedRole ← Prog.liftExcept (normalizeRoleName cfg.unicode name)
      let roleId ← AuthorizationRepository.getRoleId cfg normalizedRole
      AuthorizationRepository.requireUser userId
      let changed ← invoke (op roleId)
      AuthorizationRepository.result (reply roleId changed) : Action Bool).wp anyOp post h := by
  rw [Prog.wp_bind, hn, Prog.wp_liftExcept, Prog.sequel_ok, Prog.wp_bind,
    AuthorizationRepository.getRoleId, hn, Prog.wp_bind, Prog.wp_liftExcept, Prog.sequel_ok]
  refine wp_step rfl hh fun selected hh => ?_
  rw [Prog.wp_bind]
  refine wp_statement selected (fun f c hr => ?_) (fun _ _ _ => hpost.backend _ _ hh)
    fun found hr => ?_
  · refine hpost.fault _ _ fun hcontracts => ?_
    exact hcontracts.selectRoleId name f c
      (List.mem_append_right _ (List.mem_singleton.mpr (by rw [hr])))
  cases found with
  | none => exact hpost.notFound _ _ hh
  | some roleId =>
    rw [Prog.sequel_ok]
    change Prog.wp _ _ _ (AuthorizationRepository.requireUser userId >>= _)
    rw [Prog.wp_bind, AuthorizationRepository.requireUser, Prog.wp_call_bind]
    refine ⟨trivial, fun existing => ?_⟩
    rw [Prog.wp_bind]
    have hmem : ∀ {h : History gateway} {r : Except DbFault Bool} (hr : existing = r),
        ⟨.selectUserId userId, r⟩ ∈ h ++ [⟨.selectUserId userId, existing⟩] := by
      intro h r hr
      exact List.mem_append_right _ (List.mem_singleton.mpr (by rw [hr]))
    have hpresent : ∀ {r : Except DbFault Bool}, existing = r → r ≠ .ok false →
        TargetPresent ((h ++ [⟨.selectRoleId name, selected⟩]) ++
          [⟨.selectUserId userId, existing⟩]) := by
      intro r hr hne
      refine targetPresent_snoc hh fun userId' hx => hne ?_
      rw [hr] at hx
      cases hx
      rfl
    refine wp_statement existing (fun f c hr => ?_) (fun f message hr => ?_) fun found hr => ?_
    · exact hpost.fault _ _ fun hcontracts => hcontracts.selectUserId userId f c (hmem hr)
    · exact hpost.backend _ _ (hpresent hr (by simp))
    cases found with
    | false => exact hpost.missing _ _ fun hpresent => hpresent userId (hmem hr)
    | true =>
      refine wp_step (hop roleId) (hpresent hr (by simp)) fun changed hh => ?_
      refine wp_statement _ (fun f c hr => ?_) (fun f message _ => ?_) fun found _ => ?_
      · exact hpost.fault _ _ (hescape _ roleId changed f c hr)
      · exact hpost.backend _ _ hh
      · exact hpost.ok _ _ hh

theorem wp_assignment {post : History gateway → Except Raised Bool → Prop} {userId : Uuid}
    {name : String} (hn : normalizeRoleName cfg.unicode name = .ok name) (hh : TargetPresent h)
    (hpost : Mutated post) :
    (AuthorizationService.assignRole cfg userId name).wp anyOp post h := by
  refine wp_mutation (.insertUserRole userId) (fun _ changed => changed) (fun _ => rfl)
    (fun h roleId r f c hr hcontracts => ?_) hn hh hpost
  exact hcontracts.insertUserRole userId roleId f c
    (List.mem_append_right _ (List.mem_singleton.mpr (by rw [hr])))

theorem wp_removal {post : History gateway → Except Raised Bool → Prop} {userId : Uuid}
    {name : String} (hn : normalizeRoleName cfg.unicode name = .ok name) (hh : TargetPresent h)
    (hpost : Mutated post) :
    (AuthorizationService.removeRole cfg userId name).wp anyOp post h := by
  refine wp_mutation (.deleteUserRole userId) (fun _ changed => changed) (fun _ => rfl)
    (fun h roleId r f c hr hcontracts => ?_) hn hh hpost
  exact hcontracts.deleteUserRole userId roleId f c
    (List.mem_append_right _ (List.mem_singleton.mpr (by rw [hr])))

end Parts

section Route

variable {cfg : Config} {http : HttpRequest} {h : History gateway} {σ : Type}
  {env : Environment gateway σ} {s : σ}

/-- A normalized role name fits into an event. -/
theorem isCode_of_normalized {u : Python.Unicode} {roleName name : String}
    (hn : normalizeRoleName u roleName = .ok name) : IsCode 160 name := by
  simp only [normalizeRoleName] at hn
  split at hn
  · cases hn
  split at hn
  · cases hn
  split at hn
  · next hne hlen hmatches =>
    cases hn
    refine ⟨hne, Python.strip_of_plain (roleName_plain hmatches), ?_⟩
    omega
  · cases hn

theorem settled_of_wp {p : Action ApiResponse} (hp : p.wp anyOp Settled h)
    (env : Environment gateway σ) (s : σ) :
    Settled (h ++ (p.exec env s).history) (p.exec env s).outcome :=
  (Prog.exec_wp hp env s).2

/-- The checks before the handler look up no target. -/
theorem requirePermission_targetPresent (code : String) :
    TargetPresent ((requirePermission cfg http code).exec env s).history := by
  have hchecking : (requirePermission cfg http code).wp (fun _ => Checking) (fun _ _ => True) [] :=
    Prog.wp_of_only (auditing_requirePermission code) (fun _ => checking_of_auditing)
      fun _ _ _ => trivial
  exact targetPresent_of_checking (Prog.exec_wp_mem hchecking env s).1

/-- A mutation route, from its parts. -/
theorem settled_mutateUserRole {m : RoleMutation} {actor : UserPublic}
    (hm : http.method ∈ proxyMethods) (hunavailable : IsCode 160 m.unavailableReason)
    (hchanged : IsCode 160 m.changedReason) (hunchanged : IsCode 160 m.unchangedReason)
    (hmutate : ∀ {post : History gateway → Except Raised Bool → Prop} {h : History gateway}
      (userId : Uuid) (name : String), normalizeRoleName cfg.unicode name = .ok name →
      TargetPresent h → Mutated post → (m.mutate cfg userId name).wp anyOp post h)
    (username roleName : String)
    (hactor : ((requirePermission cfg http rolesManagePermission).exec env s).outcome =
      .ok actor) :
    Settled ((mutateUserRole cfg http m username roleName).exec env s).history
      ((mutateUserRole cfg http m username roleName).exec env s).outcome := by
  rw [mutateUserRole, Prog.exec_bind_ok hactor]
  refine settled_of_wp ?_ env _
  rw [Prog.wp_bind]
  refine wp_getTargetUser hm (requirePermission_targetPresent _)
    (fun h' e hescaped => settled_of_escaped _ hescaped)
    (fun h' x hh hx => settled_of_defined hx hh) fun h' target hh => ?_
  rw [Prog.sequel_ok]
  cases hn : normalizeRoleName cfg.unicode roleName with
  | error e => exact settled_of_defined (Or.inl rfl) hh
  | ok name =>
    have hcode := isCode_of_normalized hn
    have hrole : ∀ v ∈ some name, IsCode 160 v := by
      intro v hv
      cases hv
      exact hcode
    dsimp only
    rw [Prog.wp_bind, Prog.wp_tryCatch]
    refine hmutate target.id name (normalizeRoleName_fixed cfg.unicode hn) hh ⟨?_, ?_, ?_, ?_, ?_⟩
    · intro h' f hescaped
      cases f with
      | cancelled => exact settled_of_escaped _ hescaped
      | other className => exact settled_of_escaped _ hescaped
    · -- The error of `_require_user` passes all `except` clauses.
      intro h' message hmissing _
      exact iff_of_false id hmissing
    · intro h' message hh
      exact settled_of_defined (Or.inl rfl) hh
    · intro h' message hh
      exact wp_recorded_throw (recordable hm rfl rfl rfl hrole rfl (by decide) rfl hunavailable) hh
        (fun h' e hescaped => settled_of_escaped _ hescaped)
        fun h' hh' => settled_of_defined (Or.inr rfl) hh'
    · intro h' changed hh
      have hreason : IsCode 160 (if changed then m.changedReason else m.unchangedReason) := by
        split
        · exact hchanged
        · exact hunchanged
      rw [Prog.recovery_ok, Prog.sequel_ok, Prog.wp_bind]
      exact wp_recorded (recordable hm rfl rfl rfl hrole rfl (by decide) rfl hreason) hh
        (fun h' e hescaped => settled_of_escaped _ hescaped)
        fun h' hh' => settled_of_defined trivial hh'

end Route

theorem isCode_roleReasons :
    ∀ reason ∈ ["role_assignment_repository_unavailable", "role_assigned",
      "role_already_assigned", "role_removal_repository_unavailable", "role_removed",
      "role_not_assigned"], IsCode 160 reason := by decide +kernel

/-- In every run within the contracts, a mutation by an authorised actor ends in a defined
response exactly if `_require_user` finds the target. -/
theorem role_mutation_defined_iff (cfg : Config) :
    (∀ {σ : Type} (env : Environment gateway σ) (s : σ) (http : HttpRequest)
      (actor : UserPublic) (username roleName : String), http.method = "PUT" →
      ((requirePermission cfg http rolesManagePermission).exec env s).outcome = .ok actor →
      WithinContracts ((assignUserRole cfg http username roleName).exec env s).history →
      (Defined ((assignUserRole cfg http username roleName).exec env s).outcome ↔
        TargetPresent ((assignUserRole cfg http username roleName).exec env s).history)) ∧
    ∀ {σ : Type} (env : Environment gateway σ) (s : σ) (http : HttpRequest)
      (actor : UserPublic) (username roleName : String), http.method = "DELETE" →
      ((requirePermission cfg http rolesManagePermission).exec env s).outcome = .ok actor →
      WithinContracts ((removeUserRole cfg http username roleName).exec env s).history →
      (Defined ((removeUserRole cfg http username roleName).exec env s).outcome ↔
        TargetPresent ((removeUserRole cfg http username roleName).exec env s).history) := by
  have hreason := isCode_roleReasons
  constructor
  · intro σ env s http actor username roleName hm hactor
    have hrouted : http.method ∈ proxyMethods := by
      rw [hm]
      decide
    exact settled_mutateUserRole hrouted (hreason _ (by decide)) (hreason _ (by decide))
      (hreason _ (by decide)) (fun userId name hn hh hpost => wp_assignment hn hh hpost) username
      roleName hactor
  · intro σ env s http actor username roleName hm hactor
    have hrouted : http.method ∈ proxyMethods := by
      rw [hm]
      decide
    exact settled_mutateUserRole hrouted (hreason _ (by decide)) (hreason _ (by decide))
      (hreason _ (by decide)) (fun userId name hn hh hpost => wp_removal hn hh hpost) username
      roleName hactor

section Recheck

/-- Working back ends, but for the answer when the target is looked up again. -/
def recheck (found : Bool) : Environment gateway World := fun w op =>
  match op with
  | .selectUserId _ => (.ok found, w)
  | op => working .default (outsideWorks true) w op

variable {α : Type} {found : Bool} {p : Action α} {w : World}

theorem recheck_withinContracts : WithinContracts (p.exec (recheck found) w).history where
  selectUser _ _ _ := Prog.notMem_of_replies fun _ hr => by cases hr
  selectRoleId _ _ _ := Prog.notMem_of_replies fun _ hr => by cases hr
  selectUserId _ _ _ := Prog.notMem_of_replies fun _ hr => by cases hr
  insertUserRole _ _ _ _ := Prog.notMem_of_replies fun _ hr => by cases hr
  deleteUserRole _ _ _ _ := Prog.notMem_of_replies fun _ hr => by cases hr
  appendEvent _ _ _ := Prog.notMem_of_replies fun _ hr => by cases hr

theorem recheck_targetPresent : TargetPresent (p.exec (recheck true) w).history :=
  fun _ => Prog.notMem_of_replies fun _ hr => by cases hr

def managerRequest (method : String) : HttpRequest := localRequest method (some "token")

/-- Alice may manage roles. -/
theorem manager_authorized {method : String} (hm : method ∈ ["PUT", "DELETE"]) :
    ∃ actor, ((requirePermission defaultConfig (managerRequest method)
      rolesManagePermission).exec (recheck found) administeredWorld).outcome = .ok actor := by
  have hall : ∀ found ∈ [false, true], ∀ method ∈ ["PUT", "DELETE"],
      ((requirePermission defaultConfig (managerRequest method) rolesManagePermission).exec
        (recheck found) administeredWorld).outcome.toOption.isSome = true := by decide +kernel
  have hsome := hall found (by cases found <;> decide) method hm
  cases hr : ((requirePermission defaultConfig (managerRequest method)
      rolesManagePermission).exec (recheck found) administeredWorld).outcome with
  | ok actor => exact ⟨actor, rfl⟩
  | error e =>
    rw [hr] at hsome
    cases hsome

def failure : Except Raised α → Option Raised
  | .ok _ => none
  | .error e => some e

theorem present_target_defined :
    Defined ((assignUserRole defaultConfig (managerRequest "PUT") "alice" "operator").exec
        (recheck true) administeredWorld).outcome ∧
      Defined ((removeUserRole defaultConfig (managerRequest "DELETE") "alice" "operator").exec
        (recheck true) administeredWorld).outcome := by
  obtain ⟨actor, hput⟩ := @manager_authorized true "PUT" (by decide)
  obtain ⟨actor', hdelete⟩ := @manager_authorized true "DELETE" (by decide)
  obtain ⟨hassign, hremove⟩ := role_mutation_defined_iff defaultConfig
  exact ⟨(hassign _ _ _ actor _ _ rfl hput recheck_withinContracts).mpr recheck_targetPresent,
    (hremove _ _ _ actor' _ _ rfl hdelete recheck_withinContracts).mpr recheck_targetPresent⟩

/-- The target is deleted after it was looked up: the error of `_require_user` escapes. -/
theorem deleted_target_escapes :
    (∃ actor, ((requirePermission defaultConfig (managerRequest "PUT")
        rolesManagePermission).exec (recheck false) administeredWorld).outcome = .ok actor) ∧
      WithinContracts ((assignUserRole defaultConfig (managerRequest "PUT") "alice"
        "operator").exec (recheck false) administeredWorld).history ∧
      failure ((assignUserRole defaultConfig (managerRequest "PUT") "alice" "operator").exec
        (recheck false) administeredWorld).outcome =
        some (.userAuthorizationNotFound "User not found.") ∧
      ¬ Defined ((assignUserRole defaultConfig (managerRequest "PUT") "alice" "operator").exec
        (recheck false) administeredWorld).outcome := by
  have hfailure : failure ((assignUserRole defaultConfig (managerRequest "PUT") "alice"
      "operator").exec (recheck false) administeredWorld).outcome =
      some (.userAuthorizationNotFound "User not found.") := by decide +kernel
  refine ⟨manager_authorized (by decide), recheck_withinContracts, hfailure, fun hdefined => ?_⟩
  cases hr : ((assignUserRole defaultConfig (managerRequest "PUT") "alice" "operator").exec
      (recheck false) administeredWorld).outcome with
  | ok response =>
    rw [hr] at hfailure
    cases hfailure
  | error e =>
    rw [hr] at hfailure hdefined
    cases hfailure
    exact hdefined

end Recheck

end SecureGateway.Gateway
