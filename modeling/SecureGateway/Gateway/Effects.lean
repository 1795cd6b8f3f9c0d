import SecureGateway.Gateway.System

/-! What one operation can do to the world: everything that invariants of a run rest on. -/
namespace SecureGateway.Gateway

open Interleaving Resilience

/-- How an operation can leave the world. A failed one may have had no effect. -/
inductive Effect (w : World) : GatewayOp → World → Prop
  | unchanged (op : GatewayOp) : Effect w op w
  | eventAppended (e : Audit.SecurityAuditEvent) :
      Effect w (.appendEvent e) { w with auditEvents := w.auditEvents ++ [e] }
  | userCommitted {record : UserRecord} {roleId : Uuid}
      (hunique : w.db.violatesUnique record = false) (hrole : w.db.hasRole roleId = true) :
      Effect w (.commitUser record roleId) { w with db := w.db.addUser record roleId }
  | passwordHashCommitted (userId : Uuid) (hashedPassword : String) (now : Timestamp) :
      Effect w (.commitPasswordHash userId hashedPassword)
        { w with db := w.db.setPasswordHash userId hashedPassword now }
  | roleInserted {userId roleId : Uuid} (huser : w.db.hasUser userId = true)
      (hrole : w.db.hasRole roleId = true) :
      Effect w (.insertUserRole userId roleId) { w with db := w.db.insertUserRole userId roleId }
  | roleDeleted (userId roleId : Uuid) :
      Effect w (.deleteUserRole userId roleId) { w with db := w.db.deleteUserRole userId roleId }
  | bucketStored (key : String) (capacity refillRate cost : ℚ) (nowMs ttlMs : ℤ)
      (b : Redis.Key RateLimit.Bucket) :
      Effect w (.evalTokenBucket key capacity refillRate cost nowMs ttlMs) (w.setBucket key b)
  | lockStatusRead (key : String) (nowMs : ℤ) :
      Effect w (.evalLockStatus key nowMs)
        (w.setLogin key (Login.loginLockStatusScript nowMs w.nowMs (w.logins key)).2)
  | failureRecorded (key : String) (threshold nowMs failureWindowMs lockoutMs : ℤ) :
      Effect w (.evalLoginFailure key threshold nowMs failureWindowMs lockoutMs)
        (w.setLogin key (Login.loginFailureScript threshold nowMs failureWindowMs lockoutMs w.nowMs
          (w.logins key)).2)
  | loginReset (key : String) : Effect w (.evalLoginReset key) (w.setLogin key none)
  | circuitsChanged (e : UpstreamOp) (c : Circuits) :
      Effect w (.upstream e) { w with circuits := c }

/-- Whether a statement took effect, whatever the caller was told. -/
def takenEffect : Except DbFault Unit → Bool
  | .ok _ => true
  | .error f => f.committed

variable {settings : UpstreamResilienceSettings} {w w' : World}

theorem statement_inv {α : Type} [DecidableEq α] {r : Except DbFault α} {result : α}
    {next : World} (h : w.statement r result next = some w') :
    (∃ f, r = .error f ∧ (w' = w ∨ w' = next)) ∨ (r = .ok result ∧ w' = next) := by
  cases r with
  | error f =>
    simp only [World.statement] at h
    split at h <;> cases h
    · exact .inl ⟨f, rfl, .inr rfl⟩
    · exact .inl ⟨f, rfl, .inl rfl⟩
  | ok a =>
    simp only [World.statement] at h
    split at h
    · next ha =>
      subst ha
      exact .inr ⟨rfl, (Option.some.inj h).symm⟩
    · cases h

theorem statement_effect {α : Type} [DecidableEq α] {r : Except DbFault α} {result : α}
    {next : World} {op : GatewayOp} (hn : Effect w op next)
    (h : w.statement r result next = some w') : Effect w op w' := by
  rcases statement_inv h with ⟨f, -, rfl | rfl⟩ | ⟨-, rfl⟩
  · exact .unchanged op
  · exact hn
  · exact hn

/-- A script stored what it computed, or was never run. -/
theorem script_effect {α β : Type} [DecidableEq α] {r : Except RedisFault α}
    {result : Except String α × β} {store : β → World} {op : GatewayOp}
    (hn : Effect w op (store result.2)) (h : w.script r result store = some w') :
    Effect w op w' := by
  cases r with
  | error f =>
    simp only [World.script] at h
    split at h <;> cases h
    · exact hn
    · exact .unchanged op
  | ok a =>
    simp only [World.script] at h
    split at h <;> cases h
    exact hn

theorem insertUser_effect {record : UserRecord} {roleId : Uuid}
    (h : w.insertUser record roleId = some w') : Effect w (.commitUser record roleId) w' := by
  simp only [World.insertUser] at h
  split at h <;> cases h
  next hc =>
  simp only [not_or, Bool.not_eq_true, Bool.not_eq_false] at hc
  exact .userCommitted hc.1 hc.2

theorem insertRole_effect {userId roleId : Uuid} (h : w.insertRole userId roleId = some w') :
    Effect w (.insertUserRole userId roleId) w' := by
  simp only [World.insertRole] at h
  split at h <;> cases h
  next hc => exact .roleInserted hc.1 hc.2

theorem commitUser_effect {record : UserRecord} {roleId : Uuid} {r : Except DbFault Unit}
    (h : w.commitUser record roleId r = some w') : Effect w (.commitUser record roleId) w' := by
  unfold World.commitUser at h
  split at h
  · exact insertUser_effect h
  · split at h <;> cases h
    exact .unchanged _
  · split at h
    · exact insertUser_effect h
    · cases h
      exact .unchanged _

theorem respond_effect {op : GatewayOp} {r : op.Reply}
    (h : w.respond settings op r = some w') : Effect w op w' := by
  cases op with
  | uuid4 | utcNow | jwtDecode | jwtEncode | hashPassword | verifyPassword
  | verifyAndUpdatePassword | metric | emitSecurityAuditEvent | emitAuditPersistenceFailure
  | requestBody =>
    cases h
    exact .unchanged _
  | clockMs =>
    simp only [World.respond] at h
    split at h <;> cases h
    exact .unchanged _
  | selectUser | selectUserCount | selectPermissionExists | selectPermissionCodes
  | selectRoleNames | selectRoleId | selectUserId =>
    exact statement_effect (.unchanged _) h
  | appendEvent e => exact statement_effect (.eventAppended e) h
  | commitUser record roleId => exact commitUser_effect h
  | commitPasswordHash userId hashedPassword =>
    exact statement_effect (.passwordHashCommitted userId hashedPassword _) h
  | insertUserRole userId roleId =>
    simp only [World.respond] at h
    split at h <;> split at h
    · exact insertRole_effect h
    · cases h
      exact .unchanged _
    · exact insertRole_effect h
    · cases h
  | deleteUserRole userId roleId => exact statement_effect (.roleDeleted userId roleId) h
  | evalTokenBucket key => exact script_effect (.bucketStored key _ _ _ _ _ _) h
  | evalLockStatus key nowMs => exact script_effect (.lockStatusRead key nowMs) h
  | evalLoginFailure key => exact script_effect (.failureRecorded key _ _ _ _) h
  | evalLoginReset key => exact script_effect (.loginReset key) h
  | upstream e =>
    obtain ⟨c, -, rfl⟩ := Option.map_eq_some_iff.mp h
    exact .circuitsChanged e c

/-- The permission lookup answers with what the database holds. -/
theorem respond_permission {userId : Uuid} {code : String} {b : Bool}
    (h : w.respond settings (.selectPermissionExists userId code) (.ok b) = some w') :
    w.db.permissionExists userId code = b := by
  change w.statement (.ok b) (w.db.permissionExists userId code) w = some w' at h
  rcases statement_inv h with ⟨f, hf, -⟩ | ⟨hb, -⟩
  · cases hf
  · exact (Except.ok.inj hb).symm

/-- A reading of the clock is the time. -/
theorem respond_clockMs {nowMs : ℤ} (h : w.respond settings .clockMs nowMs = some w') :
    nowMs = w.nowMs ∧ w' = w := by
  simp only [World.respond] at h
  split at h <;> cases h
  next hc => exact ⟨hc, rfl⟩

/-- The world answered every operation of a run. -/
theorem act_respond {cfg : Config} {p₀ p : Pool (gatewaySystem cfg)}
    {ts : List (Transition (gatewaySystem cfg))} {t : Transition (gatewaySystem cfg)} {i : ℕ}
    {op : GatewayOp} {r : op.Reply} (hr : Run p₀ ts p) (ht : t ∈ ts)
    (hl : t.label = .act i ⟨op, r⟩) :
    t.before.world.respond cfg.resilience op r = some t.after.world := by
  have hs := hr.step ht
  rw [hl] at hs
  obtain ⟨-, -, -, -, hw, -⟩ := hs.act_inv
  exact hw

theorem Effect.circuits_eq {op : GatewayOp} (h : Effect w op w') (hop : ∀ e, op ≠ .upstream e) :
    w'.circuits = w.circuits := by
  cases h with
  | circuitsChanged e c => exact (hop e rfl).elim
  | _ => rfl

theorem Effect.nowMs_eq {op : GatewayOp} (h : Effect w op w') : w'.nowMs = w.nowMs := by
  cases h <;> rfl

end SecureGateway.Gateway
