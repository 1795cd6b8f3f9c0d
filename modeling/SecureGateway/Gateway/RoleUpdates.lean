import SecureGateway.Foundation.SetUpdates
import SecureGateway.Gateway.Effects
import SecureGateway.Gateway.Permissions

/-!
# Role mutations

Concurrent calls of `AuthorizationService.assign_role` and `remove_role` over one database. Each
call commits at most one statement, which inserts or removes one pair of `user_roles` and
reports whether it has changed the table.
-/
namespace SecureGateway.Gateway

open Interleaving Authorization SetUpdates

/-- One call of `assign_role` (an insertion) or `remove_role` (a removal). -/
structure RoleCall where
  kind : Kind
  userId : Uuid
  roleName : String
  deriving DecidableEq

def RoleCall.run (cfg : Config) (q : RoleCall) : Action Bool :=
  match q.kind with
  | .insertion => AuthorizationService.assignRole cfg q.userId q.roleName
  | .removal => AuthorizationService.removeRole cfg q.userId q.roleName

abbrev roleSystem (cfg : Config) : System where
  sig := gateway
  World := World
  Request := RoleCall
  Failure := Raised
  Result := Bool
  Tick := Elapsed
  handler := RoleCall.run cfg
  respond := World.respond cfg.resilience
  advance := World.advance

/-- The pair of `user_roles` a call is about, if its role exists. -/
def RoleCall.target (cfg : Config) (db : Database) (q : RoleCall) : Option UserRoleRecord :=
  match normalizeRoleName cfg.unicode q.roleName with
  | .ok name => (db.roleIdByName name).map fun roleId => ⟨q.userId, roleId⟩
  | .error _ => none

/-- The statement of a call. -/
def RoleCall.statement (q : RoleCall) (roleId : Uuid) : GatewayOp :=
  match q.kind with
  | .insertion => .insertUserRole q.userId roleId
  | .removal => .deleteUserRole q.userId roleId

/-- The update that an exchange has committed. -/
def committedUpdate : Exchange gateway → Option (Update UserRoleRecord)
  | ⟨.insertUserRole userId roleId, .ok changed⟩ => some ⟨.insertion, ⟨userId, roleId⟩, changed⟩
  | ⟨.deleteUserRole userId roleId, .ok changed⟩ => some ⟨.removal, ⟨userId, roleId⟩, changed⟩
  | _ => none

/-- A statement that raised although it had been carried out. -/
def inDoubt : Exchange gateway → Bool
  | ⟨.insertUserRole _ _, .error f⟩ => f.committed
  | ⟨.deleteUserRole _ _, .error f⟩ => f.committed
  | _ => false

section Calls

variable {cfg : Config} {q : RoleCall} {h : History gateway} {α : Type}

/-- Nothing has been committed yet. -/
def Quiet (h : History gateway) : Prop := ∀ x ∈ h, committedUpdate x = none

theorem Quiet.snoc (hq : Quiet h) {x : Exchange gateway} (hx : committedUpdate x = none) :
    Quiet (h ++ [x]) := by
  intro y hy
  rcases List.mem_append.mp hy with hy | hy
  · exact hq y hy
  · cases List.mem_singleton.mp hy
    exact hx

/-- What a call may perform: it looks the role up, then the user, and sends one statement about
the role it has found. -/
structure RoleOk (cfg : Config) (q : RoleCall) (h : History gateway) (op : GatewayOp) : Prop where
  quiet : Quiet h
  expected : (∃ name, op = .selectRoleId name) ∨ op = .selectUserId q.userId ∨
    ∃ name roleId, normalizeRoleName cfg.unicode q.roleName = .ok name ∧
      ⟨.selectRoleId name, .ok (some roleId)⟩ ∈ h ∧ op = q.statement roleId

/-- How a call ends: with the report of its statement, or with nothing committed. -/
def RolePost (h : History gateway) : Except Raised Bool → Prop
  | .ok changed => ∃ h' x update, h = h' ++ [x] ∧ Quiet h' ∧ committedUpdate x = some update ∧
      update.changed = changed
  | .error _ => Quiet h

theorem wp_result {ok : History gateway → GatewayOp → Prop}
    {post : History gateway → Except Raised α → Prop} (r : Except DbFault α)
    (hok : ∀ a, r = .ok a → post h (.ok a)) (herror : ∀ e, post h (.error e)) :
    (AuthorizationRepository.result r).wp ok post h := by
  cases r with
  | ok a => exact hok a rfl
  | error f => cases f <;> exact herror _

theorem wp_getRoleId {name : String} {post : History gateway → Except Raised Uuid → Prop}
    (hname : normalizeRoleName cfg.unicode name = .ok name) (hq : Quiet h)
    (hfound : ∀ h' roleId, Quiet h' → ⟨.selectRoleId name, .ok (some roleId)⟩ ∈ h' →
      post h' (.ok roleId))
    (herror : ∀ h' e, Quiet h' → post h' (.error e)) :
    (AuthorizationRepository.getRoleId cfg name).wp (RoleOk cfg q) post h := by
  rw [AuthorizationRepository.getRoleId, hname, Prog.liftExcept_ok_bind, Prog.wp_call_bind]
  refine ⟨⟨hq, .inl ⟨name, rfl⟩⟩, fun selected => ?_⟩
  have hnext : Quiet (h ++ [⟨.selectRoleId name, selected⟩]) := hq.snoc rfl
  rw [Prog.wp_bind]
  refine wp_result selected (fun found hs => ?_) fun e => herror _ e hnext
  subst hs
  cases found with
  | none => exact herror _ _ hnext
  | some roleId => exact hfound _ roleId hnext (by simp)

theorem wp_requireUser {post : History gateway → Except Raised Unit → Prop} (hq : Quiet h)
    (hfound : ∀ h', Quiet h' → h <+: h' → post h' (.ok ()))
    (herror : ∀ h' e, Quiet h' → post h' (.error e)) :
    (AuthorizationRepository.requireUser q.userId).wp (RoleOk cfg q) post h := by
  rw [AuthorizationRepository.requireUser, Prog.wp_call_bind]
  refine ⟨⟨hq, .inr (.inl rfl)⟩, fun selected => ?_⟩
  have hnext : Quiet (h ++ [⟨.selectUserId q.userId, selected⟩]) := hq.snoc rfl
  rw [Prog.wp_bind]
  refine wp_result selected (fun found hs => ?_) fun e => herror _ e hnext
  rw [Prog.sequel_ok]
  split
  · exact hfound _ hnext (List.prefix_append _ _)
  · exact herror _ _ hnext

/-- The statement of a call reports its change. -/
theorem wp_statement_insert {userId roleId : Uuid} (hq : Quiet h)
    (hok : RoleOk cfg q h (.insertUserRole userId roleId)) :
    (invoke (.insertUserRole userId roleId) >>= AuthorizationRepository.result).wp (RoleOk cfg q)
      RolePost h := by
  rw [Prog.wp_call_bind]
  refine ⟨hok, fun r => ?_⟩
  cases r with
  | ok changed => exact ⟨h, _, ⟨.insertion, ⟨userId, roleId⟩, changed⟩, rfl, hq, rfl, rfl⟩
  | error f => exact wp_result _ (by simp) fun e => hq.snoc rfl

theorem wp_statement_delete {userId roleId : Uuid} (hq : Quiet h)
    (hok : RoleOk cfg q h (.deleteUserRole userId roleId)) :
    (invoke (.deleteUserRole userId roleId) >>= AuthorizationRepository.result).wp (RoleOk cfg q)
      RolePost h := by
  rw [Prog.wp_call_bind]
  refine ⟨hok, fun r => ?_⟩
  cases r with
  | ok changed => exact ⟨h, _, ⟨.removal, ⟨userId, roleId⟩, changed⟩, rfl, hq, rfl, rfl⟩
  | error f => exact wp_result _ (by simp) fun e => hq.snoc rfl

/-- The part before the statement, which both calls share. -/
theorem wp_looked_up {name : String} {f : Uuid → Action Bool}
    (hrole : normalizeRoleName cfg.unicode q.roleName = .ok name)
    (hf : ∀ h' roleId, Quiet h' → RoleOk cfg q h' (q.statement roleId) →
      (f roleId).wp (RoleOk cfg q) RolePost h') :
    (do let roleId ← AuthorizationRepository.getRoleId cfg name
        AuthorizationRepository.requireUser q.userId
        f roleId : Action Bool).wp (RoleOk cfg q) RolePost [] := by
  rw [Prog.wp_bind]
  refine wp_getRoleId (normalizeRoleName_fixed cfg.unicode hrole) (by simp [Quiet])
    (fun h₁ roleId hq₁ hmem => ?_) fun h₁ e hq₁ => hq₁
  rw [Prog.sequel_ok, Prog.wp_bind]
  refine wp_requireUser hq₁ (fun h₂ hq₂ hle => ?_) fun h₂ e hq₂ => hq₂
  exact hf h₂ roleId hq₂ ⟨hq₂, .inr (.inr ⟨name, roleId, hrole, hle.subset hmem, rfl⟩)⟩

theorem wp_run (cfg : Config) (q : RoleCall) : (q.run cfg).wp (RoleOk cfg q) RolePost [] := by
  obtain ⟨kind, userId, roleName⟩ := q
  cases kind with
  | insertion =>
    change (AuthorizationService.assignRole cfg userId roleName).wp _ _ _
    rw [AuthorizationService.assignRole]
    cases hrole : normalizeRoleName cfg.unicode roleName with
    | error e => exact fun x hx => by cases hx
    | ok name =>
      rw [Prog.liftExcept_ok_bind]
      exact wp_looked_up (q := ⟨.insertion, userId, roleName⟩) hrole fun h' roleId hq hok =>
        wp_statement_insert hq hok
  | removal =>
    change (AuthorizationService.removeRole cfg userId roleName).wp _ _ _
    rw [AuthorizationService.removeRole]
    cases hrole : normalizeRoleName cfg.unicode roleName with
    | error e => exact fun x hx => by cases hx
    | ok name =>
      rw [Prog.liftExcept_ok_bind]
      exact wp_looked_up (q := ⟨.removal, userId, roleName⟩) hrole fun h' roleId hq hok =>
        wp_statement_delete hq hok

end Calls

def roleDiscipline (cfg : Config) : Discipline (roleSystem cfg) where
  ok := RoleOk cfg
  post _ := RolePost
  handler := wp_run cfg

/-- What the statement of a call commits. -/
theorem committed_statement {q : RoleCall} {roleId : Uuid} {r : (q.statement roleId).Reply}
    {u : Update UserRoleRecord} (hx : committedUpdate ⟨q.statement roleId, r⟩ = some u) :
    u.kind = q.kind ∧ u.item = ⟨q.userId, roleId⟩ := by
  obtain ⟨kind, userId, roleName⟩ := q
  cases kind with
  | insertion =>
    cases r with
    | error f => cases hx
    | ok changed =>
      cases hx
      exact ⟨rfl, rfl⟩
  | removal =>
    cases r with
    | error f => cases hx
    | ok changed =>
      cases hx
      exact ⟨rfl, rfl⟩

section Statements

variable {settings : Resilience.UpstreamResilienceSettings} {w w' : World} {x : Exchange gateway}
  {u : Update UserRoleRecord}

/-- The content of `user_roles`. -/
def rolePairs (db : Database) : Set UserRoleRecord := {pair | pair ∈ db.userRoles}

/-- Every table but `user_roles` is as it was. -/
structure SameOtherTables (w w' : World) : Prop where
  users : w'.db.users = w.db.users
  roles : w'.db.roles = w.db.roles
  permissions : w'.db.permissions = w.db.permissions
  rolePermissions : w'.db.rolePermissions = w.db.rolePermissions
  auditEvents : w'.auditEvents = w.auditEvents

theorem SameOtherTables.trans {w₁ w₂ w₃ : World} (h : SameOtherTables w₁ w₂)
    (h' : SameOtherTables w₂ w₃) : SameOtherTables w₁ w₃ :=
  ⟨h'.users.trans h.users, h'.roles.trans h.roles, h'.permissions.trans h.permissions,
    h'.rolePermissions.trans h.rolePermissions, h'.auditEvents.trans h.auditEvents⟩

theorem rolePairs_insertUserRole (db : Database) (userId roleId : Uuid) :
    rolePairs (db.insertUserRole userId roleId) =
      insert ⟨userId, roleId⟩ (rolePairs db) := by
  ext pair
  unfold Database.insertUserRole
  split
  · next hhas =>
    have hmem : (⟨userId, roleId⟩ : UserRoleRecord) ∈ db.userRoles := by
      simpa [Database.hasUserRole] using hhas
    simp only [rolePairs, Set.mem_insert_iff, Set.mem_ofPred_eq]
    constructor
    · exact .inr
    · rintro (rfl | h)
      · exact hmem
      · exact h
  · simp [rolePairs, or_comm]

theorem rolePairs_deleteUserRole (db : Database) (userId roleId : Uuid) :
    rolePairs (db.deleteUserRole userId roleId) =
      rolePairs db \ {⟨userId, roleId⟩} := by
  ext pair
  simp [rolePairs, Database.deleteUserRole]

/-- A committed statement updates the pair it names and reports so. -/
theorem respond_committed (hx : committedUpdate x = some u)
    (hw : w.respond settings x.op x.reply = some w') :
    u.Truthful (rolePairs w.db) ∧ rolePairs w'.db = u.apply (rolePairs w.db) ∧
      SameOtherTables w w' := by
  obtain ⟨op, r⟩ := x
  cases op with
  | insertUserRole userId roleId =>
    cases r with
    | error f => cases hx
    | ok changed =>
      cases hx
      simp only [World.respond] at hw
      split at hw
      · next hc =>
        simp only [World.insertRole] at hw
        split at hw <;> cases hw
        refine ⟨?_, rolePairs_insertUserRole _ _ _, ?_⟩
        · simp [Update.Truthful, hc, Database.hasUserRole, rolePairs]
        · unfold Database.insertUserRole
          split <;> exact ⟨rfl, rfl, rfl, rfl, rfl⟩
      · cases hw
  | deleteUserRole userId roleId =>
    cases r with
    | error f => cases hx
    | ok changed =>
      cases hx
      have hs : w.statement (.ok changed) (w.db.hasUserRole userId roleId)
          { w with db := w.db.deleteUserRole userId roleId } = some w' := hw
      rcases statement_inv hs with ⟨f, hf, -⟩ | ⟨hr, rfl⟩
      · cases hf
      · cases hr
        refine ⟨?_, rolePairs_deleteUserRole _ _ _, rfl, rfl, rfl, rfl, rfl⟩
        simp [Update.Truthful, Database.hasUserRole, rolePairs]
  | _ => cases hx

/-- Nothing else a call performs changes the database, unless its failure was in doubt. -/
theorem respond_quiet {cfg : Config} {q : RoleCall} {h : History gateway}
    (hok : RoleOk cfg q h x.op) (hx : committedUpdate x = none) (hdoubt : inDoubt x = false)
    (hw : w.respond settings x.op x.reply = some w') : w' = w := by
  obtain ⟨op, r⟩ := x
  rcases hok.expected with ⟨name, rfl⟩ | rfl | ⟨name, roleId, -, -, rfl⟩
  · rcases statement_inv hw with ⟨f, -, rfl | rfl⟩ | ⟨-, rfl⟩ <;> rfl
  · rcases statement_inv hw with ⟨f, -, rfl | rfl⟩ | ⟨-, rfl⟩ <;> rfl
  · obtain ⟨kind, userId, roleName⟩ := q
    cases kind with
    | insertion =>
      cases r with
      | ok changed => cases hx
      | error f =>
        have hf : f.committed = false := hdoubt
        simpa [RoleCall.statement, World.respond, hf] using hw.symm
    | removal =>
      cases r with
      | ok changed => cases hx
      | error f =>
        have hf : f.committed = false := hdoubt
        simpa [RoleCall.statement, World.respond, World.statement, hf] using hw.symm

end Statements

section Runs

variable {cfg : Config} {w : World} {ts : List (Transition (roleSystem cfg))}
  {p : Pool (roleSystem cfg)} {t : Transition (roleSystem cfg)}

def updateOf (t : Transition (roleSystem cfg)) : Option (Update UserRoleRecord) :=
  match t.label with
  | .act _ x => committedUpdate x
  | _ => none

/-- The successful operations of a run, in commit order. -/
def updates (ts : List (Transition (roleSystem cfg))) : List (Update UserRoleRecord) :=
  ts.filterMap updateOf

/-- Every statement that raises has changed nothing. -/
def NothingInDoubt (ts : List (Transition (roleSystem cfg))) : Prop :=
  ∀ t ∈ ts, ∀ i x, t.label = .act i x → inDoubt x = false

/-- What one step does to the tables. -/
theorem step_update {q q' : Pool (roleSystem cfg)} {l : Label (roleSystem cfg)}
    (hs : Step q l q') (hd : (roleDiscipline cfg).Holds q)
    (hdoubt : ∀ i x, l = .act i x → inDoubt x = false) :
    SameOtherTables q.world q'.world ∧
      match updateOf ⟨q, l, q'⟩ with
      | some u => u.Truthful (rolePairs q.world.db) ∧
          rolePairs q'.world.db = u.apply (rolePairs q.world.db)
      | none => q'.world.db = q.world.db := by
  cases hs with
  | spawn r => exact ⟨⟨rfl, rfl, rfl, rfl, rfl⟩, rfl⟩
  | tick e => exact ⟨⟨rfl, rfl, rfl, rfl, rfl⟩, rfl⟩
  | @act i th op resume r w' hi hp hw =>
    have hok : RoleOk cfg th.request th.history op :=
      ((hd i th hi).resume (x := ⟨op, r⟩) hp).1
    simp only [updateOf]
    cases hx : committedUpdate ⟨op, r⟩ with
    | some u =>
      obtain ⟨htrue, happly, hsame⟩ := respond_committed (x := ⟨op, r⟩) hx hw
      exact ⟨hsame, htrue, happly⟩
    | none =>
      have heq : w' = q.world := respond_quiet (x := ⟨op, r⟩) hok hx (hdoubt i _ rfl) hw
      subst heq
      exact ⟨⟨rfl, rfl, rfl, rfl, rfl⟩, rfl⟩

/-- The tables after a run: the successful operations have been applied in commit order, each
reporting the truth, and nothing else has happened. -/
theorem updates_run (h : Run (.initial w) ts p) (hdoubt : NothingInDoubt ts) :
    SameOtherTables w p.world ∧
      rolePairs p.world.db = applyAll (rolePairs w.db) (updates ts) ∧
      Reports (rolePairs w.db) (updates ts) := by
  induction h with
  | refl => exact ⟨⟨rfl, rfl, rfl, rfl, rfl⟩, rfl, .nil⟩
  | @snoc ts q q' l hr hs ih =>
    obtain ⟨hsame, hpairs, hreports⟩ := ih fun t ht => hdoubt t (List.mem_append_left _ ht)
    have hd := ((roleDiscipline cfg).holds_run hr).1
    obtain ⟨hother, hstep⟩ := step_update hs hd (hdoubt ⟨q, l, q'⟩ (by simp))
    refine ⟨hsame.trans hother, ?_⟩
    have hcat : updates (ts ++ [⟨q, l, q'⟩]) = updates ts ++ (updateOf ⟨q, l, q'⟩).toList := by
      cases hu : updateOf ⟨q, l, q'⟩ <;> simp [updates, hu]
    rw [hcat]
    cases hu : updateOf ⟨q, l, q'⟩ with
    | none =>
      rw [hu] at hstep
      have hdb : q'.world.db = q.world.db := hstep
      simpa [hdb] using ⟨hpairs, hreports⟩
    | some u =>
      rw [hu] at hstep
      obtain ⟨htrue, happly⟩ : u.Truthful (rolePairs q.world.db) ∧
        rolePairs q'.world.db = u.apply (rolePairs q.world.db) := hstep
      rw [Option.toList_some, applyAll_snoc, ← hpairs]
      exact ⟨happly, hreports.snoc (hpairs ▸ htrue)⟩

/-- The run up to one of its transitions. -/
theorem updates_before (h : Run (.initial w) ts p) (hdoubt : NothingInDoubt ts) (ht : t ∈ ts) :
    SameOtherTables w t.before.world := by
  obtain ⟨ts₁, ts₂, rfl⟩ := List.append_of_mem ht
  exact (updates_run h.upTo fun u hu => hdoubt u (List.mem_append_left _ hu)).1

/-- A call has found the role that carries the name, since no role ever changes. -/
theorem found_role {i : ℕ} {th : Thread (roleSystem cfg)} {name : String} {found : Option Uuid}
    (h : Run (.initial w) ts p) (hdoubt : NothingInDoubt ts) (hi : p.threads[i]? = some th)
    (hx : ⟨.selectRoleId name, .ok found⟩ ∈ th.history) : found = w.db.roleIdByName name := by
  obtain ⟨h₁, h₂, hh⟩ := List.append_of_mem hx
  obtain ⟨ts₁, t, ts₂, th₀, rfl, hl, -, -, -⟩ := h.exchange hi hh
  have hsame := updates_before h hdoubt (t := t) (by simp)
  have hs := h.step (t := t) (by simp)
  rw [hl] at hs
  obtain ⟨-, -, -, -, hw, -⟩ := hs.act_inv
  have hselect : t.before.world.statement (.ok found) (t.before.world.db.roleIdByName name)
      t.before.world = some t.after.world := hw
  rcases statement_inv hselect with ⟨f, hf, -⟩ | ⟨hr, -⟩
  · cases hf
  · cases hr
    simp only [Database.roleIdByName, hsame.roles]

/-- A commit is the statement of its call and ends it with the report. -/
theorem commit_call {i : ℕ} {x : Exchange gateway} {u : Update UserRoleRecord}
    (h : Run (.initial w) ts p) (hdoubt : NothingInDoubt ts) (ht : t ∈ ts)
    (hl : t.label = .act i x) (hx : committedUpdate x = some u) :
    ∃ th, t.after.threads[i]? = some th ∧ th.outcome = some (.ok u.changed) ∧
      th.request.kind = u.kind ∧ th.request.target cfg w.db = some u.item := by
  have hs := h.step ht
  rw [hl] at hs
  obtain ⟨th, resume, hi, hp, -, hts⟩ := hs.act_inv
  have hlt : i < t.before.threads.length := (List.getElem?_eq_some_iff.mp hi).1
  obtain ⟨hbefore, hafter⟩ := ((roleDiscipline cfg).holds_run h).2 t ht
  have hi' : t.after.threads[i]? = some ⟨th.request, th.history ++ [x], resume x.reply⟩ := by
    rw [hts, List.getElem?_set_self hlt]
  have hloud : ¬ Quiet (th.history ++ [x]) := by
    intro hq
    rw [hq x (by simp)] at hx
    cases hx
  refine ⟨_, hi', ?_, ?_⟩
  · have hkeeps := hafter i _ hi'
    cases hresume : resume x.reply with
    | perform op resume' =>
      rw [Discipline.Keeps, hresume] at hkeeps
      exact (hloud hkeeps.1.quiet).elim
    | finish outcome =>
      have hpost : RolePost (th.history ++ [x]) outcome := by
        rw [Discipline.Keeps, hresume] at hkeeps
        exact hkeeps
      cases outcome with
      | error e => exact (hloud hpost).elim
      | ok changed =>
        obtain ⟨h', x', u', heq, -, hx', rfl⟩ := hpost
        obtain ⟨-, hlast⟩ := List.append_inj' heq rfl
        cases hlast
        rw [hx] at hx'
        cases hx'
        rfl
  · have hok : RoleOk cfg th.request th.history x.op := ((hbefore i th hi).resume hp).1
    have hfound : ∀ {name : String} {roleId : Uuid},
        normalizeRoleName cfg.unicode th.request.roleName = .ok name →
        ⟨.selectRoleId name, .ok (some roleId)⟩ ∈ th.history →
        th.request.target cfg w.db = some ⟨th.request.userId, roleId⟩ := by
      intro name roleId hname hmem
      obtain ⟨ts₁, ts₂, rfl⟩ := List.append_of_mem ht
      have hrole := found_role h.upTo (fun v hv => hdoubt v (List.mem_append_left _ hv)) hi hmem
      simp [RoleCall.target, hname, ← hrole]
    obtain ⟨op, r⟩ := x
    rcases hok.expected with ⟨name, rfl⟩ | rfl | ⟨name, roleId, hname, hmem, rfl⟩
    · cases hx
    · cases hx
    · obtain ⟨hkind, hitem⟩ := committed_statement hx
      exact ⟨hkind.symm, hitem ▸ hfound hname hmem⟩

/-- A call that has returned is one of the successful operations. -/
theorem returned_committed {i : ℕ} {th : Thread (roleSystem cfg)} {changed : Bool}
    (h : Run (.initial w) ts p) (hdoubt : NothingInDoubt ts) (hi : p.threads[i]? = some th)
    (ho : th.outcome = some (.ok changed)) :
    ∃ t ∈ ts, ∃ x pair, t.label = .act i x ∧
      committedUpdate x = some ⟨th.request.kind, pair, changed⟩ ∧
      th.request.target cfg w.db = some pair ∧ ∃ h', th.history = h' ++ [x] ∧ Quiet h' := by
  obtain ⟨h', x, u, hh, hquiet, hx, rfl⟩ : RolePost th.history (.ok changed) :=
    (((roleDiscipline cfg).holds_run h).1 i th hi).finished ho
  obtain ⟨ts₁, t, ts₂, th₀, rfl, hl, -, -, -⟩ := h.exchange hi hh
  obtain ⟨th₁, hi₁, -, hkind, htarget⟩ := commit_call h hdoubt (t := t) (by simp) hl hx
  obtain ⟨th₂, hi₂, hreq, -⟩ := h.onward.thread_persists hi₁
  rw [hi] at hi₂
  cases hi₂
  refine ⟨t, by simp, x, u.item, hl, ?_, hreq ▸ htarget, h', hh, hquiet⟩
  rw [hx, hreq, hkind]

/-- The call is one of the given kind about the pair, and has returned the report. -/
def Returned (cfg : Config) (db : Database) (u : Update UserRoleRecord)
    (th : Thread (roleSystem cfg)) : Bool :=
  decide (th.request.kind = u.kind) && decide (th.request.target cfg db = some u.item) &&
    decide (th.outcome = some (.ok u.changed))

theorem countP_quiet {h : History gateway} (hq : Quiet h) (u : Update UserRoleRecord) :
    h.countP (fun x => decide (committedUpdate x = some u)) = 0 := by
  rw [List.countP_eq_zero]
  intro x hx
  simp [hq x hx]

/-- The successful operations of a run are those of the calls that have returned. -/
theorem count_updates (h : Run (.initial w) ts p) (hdoubt : NothingInDoubt ts)
    (u : Update UserRoleRecord) :
    (updates ts).count u = p.threads.countP (Returned cfg w.db u) := by
  have hlabels : (updates ts).count u = ts.countP fun t =>
      t.label.counts fun (x : Exchange gateway) => decide (committedUpdate x = some u) := by
    rw [List.count_eq_countP, updates, List.countP_filterMap]
    refine List.countP_congr fun t _ => ?_
    cases hl : t.label with
    | spawn q => simp [updateOf, hl, Label.counts]
    | tick e => simp [updateOf, hl, Label.counts]
    | act i x => cases hx : committedUpdate x <;> simp [updateOf, hl, Label.counts, hx]
  rw [hlabels]
  refine h.countP_threads fun th hth => ?_
  obtain ⟨i, hi⟩ := List.mem_iff_getElem?.mp hth
  have hkeeps := ((roleDiscipline cfg).holds_run h).1 i th hi
  cases hp : th.program with
  | perform op resume =>
    have hquiet : Quiet th.history := by
      rw [Discipline.Keeps, hp] at hkeeps
      exact hkeeps.1.quiet
    have hnot : Returned cfg w.db u th = false := by simp [Returned, Thread.outcome, hp]
    simp [countP_quiet hquiet, hnot]
  | finish outcome =>
    have ho : th.outcome = some outcome := by simp [Thread.outcome, hp]
    cases outcome with
    | error e =>
      have hquiet : Quiet th.history := hkeeps.finished ho
      have hnot : Returned cfg w.db u th = false := by simp [Returned, ho]
      simp [countP_quiet hquiet, hnot]
    | ok changed =>
      obtain ⟨-, -, x, pair, -, hx, htarget, h', hh, hquiet⟩ := returned_committed h hdoubt hi ho
      have hreturned : Returned cfg w.db u th =
          decide (committedUpdate x = some u) := by
        obtain ⟨kind, item, flag⟩ := u
        simp [Returned, ho, htarget, hx, Bool.and_assoc]
      rw [hh, List.countP_append, countP_quiet hquiet, hreturned]
      simp [List.countP_cons]

theorem returned_of_mem {u : Update UserRoleRecord} (h : Run (.initial w) ts p)
    (hdoubt : NothingInDoubt ts) :
    u ∈ updates ts ↔ ∃ th ∈ p.threads, Returned cfg w.db u th = true := by
  rw [← List.count_pos_iff, count_updates h hdoubt, List.countP_pos_iff]

theorem updates_append (ts us : List (Transition (roleSystem cfg))) :
    updates (ts ++ us) = updates ts ++ updates us := by
  simp [updates, List.filterMap_append]

theorem updates_cons {u : Update UserRoleRecord} (hu : updateOf t = some u)
    (us : List (Transition (roleSystem cfg))) : updates (t :: us) = u :: updates us := by
  simp [updates, hu]

/-- An assignment and a removal of one pair, with no operation committed between them, restore
the table. -/
theorem restored_of_updates {ts₁ ts₂ : List (Transition (roleSystem cfg))}
    {t₁ t₂ : Transition (roleSystem cfg)} {pair : UserRoleRecord}
    (h : Run (.initial w) (ts₁ ++ t₁ :: (ts₂ ++ [t₂])) p)
    (hdoubt : NothingInDoubt (ts₁ ++ t₁ :: (ts₂ ++ [t₂])))
    (h₁ : updateOf t₁ = some ⟨.insertion, pair, true⟩) (hnone : updates ts₂ = [])
    (h₂ : updateOf t₂ = some ⟨.removal, pair, true⟩) :
    rolePairs p.world.db = rolePairs t₁.before.world.db := by
  have hus : updates (ts₁ ++ t₁ :: (ts₂ ++ [t₂])) =
      updates ts₁ ++ [⟨.insertion, pair, true⟩] ++ [⟨.removal, pair, true⟩] := by
    rw [updates_append, updates_cons h₁, updates_append, hnone, updates_cons h₂]
    simp [updates]
  obtain ⟨-, hbefore, -⟩ := updates_run h.upTo fun u hu => hdoubt u (List.mem_append_left _ hu)
  obtain ⟨-, hafter, hreports⟩ := updates_run h hdoubt
  have habsent : pair ∉ applyAll (rolePairs w.db) (updates ts₁) := by
    rw [hus] at hreports
    exact hreports.snoc_inv.1.snoc_inv.2.mp rfl
  rw [hafter, hus, applyAll_snoc, applyAll_snoc, hbefore]
  ext a
  simp only [Update.apply, Set.mem_sdiff, Set.mem_insert_iff, Set.mem_singleton_iff]
  constructor
  · rintro ⟨rfl | ha, hne⟩
    · exact (hne rfl).elim
    · exact ha
  · intro ha
    refine ⟨.inr ha, ?_⟩
    rintro rfl
    exact habsent ha

/-- What a run of role calls from the world `w` has done. -/
structure RolesExact (w : World) (ts : List (Transition (roleSystem cfg)))
    (p : Pool (roleSystem cfg)) : Prop where
  /-- The successful operations, applied in commit order, make the table. -/
  applied : rolePairs p.world.db = applyAll (rolePairs w.db) (updates ts)
  others : SameOtherTables w p.world
  /-- Each commit updates the pair of its call and ends the call with a true report. -/
  committed : ∀ t ∈ ts, ∀ u, updateOf t = some u →
    u.Truthful (rolePairs t.before.world.db) ∧
      rolePairs t.after.world.db = u.apply (rolePairs t.before.world.db) ∧
      ∃ (i : ℕ) (x : Exchange gateway) (th : Thread (roleSystem cfg)), t.label = .act i x ∧
        t.after.threads[i]? = some th ∧ th.outcome = some (.ok u.changed) ∧
        th.request.kind = u.kind ∧ th.request.target cfg w.db = some u.item
  returned : ∀ u, (updates ts).count u = p.threads.countP (Returned cfg w.db u)
  /-- Of the assignments of an absent pair exactly one returns True. -/
  once : ∀ pair, pair ∉ rolePairs w.db →
    (∀ th ∈ p.threads, ∀ changed, Returned cfg w.db ⟨.removal, pair, changed⟩ th = false) →
    (∃ th ∈ p.threads, ∃ changed, Returned cfg w.db ⟨.insertion, pair, changed⟩ th = true) →
    p.threads.countP (Returned cfg w.db ⟨.insertion, pair, true⟩) = 1
  restored : ∀ ts₁ t₁ ts₂ t₂ ts₃ pair, ts = ts₁ ++ t₁ :: (ts₂ ++ t₂ :: ts₃) →
    updateOf t₁ = some ⟨.insertion, pair, true⟩ → updates ts₂ = [] →
    updateOf t₂ = some ⟨.removal, pair, true⟩ →
    rolePairs t₂.after.world.db = rolePairs t₁.before.world.db
  permissions : ∀ t ∈ ts, ∀ userId roleId changed,
    updateOf t = some ⟨.removal, ⟨userId, roleId⟩, changed⟩ → ∀ code,
      (code ∈ t.after.world.db.permissionCodesForUser userId ↔
        ∃ role, role ≠ roleId ∧ ⟨userId, role⟩ ∈ rolePairs t.before.world.db ∧
          w.db.RoleGrants role code)
  raised : ∀ (i : ℕ) (th : Thread (roleSystem cfg)) (e : Raised), p.threads[i]? = some th →
    th.outcome = some (.error e) → ∀ t ∈ ts, ∀ x, t.label = .act i x →
      t.after.world.db = t.before.world.db

theorem updateOf_act {u : Update UserRoleRecord} (h : updateOf t = some u) :
    ∃ i x, t.label = .act i x ∧ committedUpdate x = some u := by
  cases hl : t.label with
  | act i x => exact ⟨i, x, rfl, by simpa [updateOf, hl] using h⟩
  | spawn q => simp [updateOf, hl] at h
  | tick e => simp [updateOf, hl] at h

/-- A commit seen from its transition. -/
theorem step_committed {u : Update UserRoleRecord} (h : Run (.initial w) ts p)
    (hdoubt : NothingInDoubt ts) (ht : t ∈ ts) (hu : updateOf t = some u) :
    u.Truthful (rolePairs t.before.world.db) ∧
      rolePairs t.after.world.db = u.apply (rolePairs t.before.world.db) := by
  have hd := (((roleDiscipline cfg).holds_run h).2 t ht).1
  have hstep := (step_update (h.step ht) hd (hdoubt t ht)).2
  rw [hu] at hstep
  exact hstep

theorem permissions_removed {userId roleId : Uuid} {changed : Bool} (h : Run (.initial w) ts p)
    (hdoubt : NothingInDoubt ts) (ht : t ∈ ts)
    (hu : updateOf t = some ⟨.removal, ⟨userId, roleId⟩, changed⟩) (code : String) :
    code ∈ t.after.world.db.permissionCodesForUser userId ↔
      ∃ role, role ≠ roleId ∧ ⟨userId, role⟩ ∈ rolePairs t.before.world.db ∧
        w.db.RoleGrants role code := by
  have hsame : SameOtherTables w t.after.world := by
    have hd := (((roleDiscipline cfg).holds_run h).2 t ht).1
    exact (updates_before h hdoubt ht).trans (step_update (h.step ht) hd (hdoubt t ht)).1
  have hpairs (role : Uuid) : (⟨userId, role⟩ : UserRoleRecord) ∈ t.after.world.db.userRoles ↔
      role ≠ roleId ∧ (⟨userId, role⟩ : UserRoleRecord) ∈ rolePairs t.before.world.db := by
    have happly := (step_committed h hdoubt ht hu).2
    change (⟨userId, role⟩ : UserRoleRecord) ∈ rolePairs t.after.world.db ↔ _
    rw [happly]
    simp [Update.apply, and_comm]
  have hgrants (role : Uuid) :
      t.after.world.db.RoleGrants role code ↔ w.db.RoleGrants role code := by
    rw [Database.RoleGrants, Database.RoleGrants, hsame.rolePermissions, hsame.permissions]
  rw [Database.mem_permissionCodesForUser, Database.grants_iff]
  exact exists_congr fun role => by rw [hpairs, hgrants, and_assoc]

/-- Two requests assign one role to alice at the same time. -/
def concurrentAssigns : List (Move (roleSystem defaultConfig)) :=
  let act (i : ℕ) : Move (roleSystem defaultConfig) :=
    .act i (World.reply .default (outsideWorks true))
  [.spawn ⟨.insertion, alice.id, "operator"⟩, .spawn ⟨.insertion, alice.id, " OPERATOR"⟩,
    act 0, act 1, act 0, act 1, act 1, act 0]

def isInDoubt (t : Transition (roleSystem defaultConfig)) : Bool :=
  match t.label with
  | .act _ x => inDoubt x
  | _ => false

end Runs

end SecureGateway.Gateway
