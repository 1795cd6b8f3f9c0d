import SecureGateway.Gateway.Discipline

/-! The routes keep the discipline: one lemma for each part of a route, then the routes. -/
namespace SecureGateway.Gateway

open Interleaving Resilience Authorization

variable {cfg : Config} {http : HttpRequest} {q : ApiRequest} {h : History gateway} {α : Type}

section Codes

variable (u : Python.Unicode)

theorem normalize_rolesManage :
    normalizePermissionCode u rolesManagePermission = .ok rolesManagePermission :=
  normalizePermissionCode_of_ascii u (by decide +kernel) (by decide +kernel) (by decide +kernel)
    (by decide +kernel) (by decide +kernel) (by decide +kernel)

theorem normalize_proxyCode {serviceName action : String} (hs : serviceName ∈ serviceNames)
    (ha : action = ":read" ∨ action = ":write") :
    normalizePermissionCode u ("proxy:" ++ serviceName ++ action) =
      .ok ("proxy:" ++ serviceName ++ action) := by
  simp only [serviceNames, List.mem_cons, List.not_mem_nil, or_false] at hs
  rcases hs with rfl | rfl <;> rcases ha with rfl | rfl <;>
    exact normalizePermissionCode_of_ascii u (by decide +kernel) (by decide +kernel)
      (by decide +kernel) (by decide +kernel) (by decide +kernel) (by decide +kernel)

/-- A routed method is its own upper case. -/
theorem upper_strip_method {method : String} (hm : method ∈ proxyMethods) :
    u.upper (Python.strip method) = method := by
  have hall : ∀ m ∈ proxyMethods,
      Python.isAscii (Python.strip m) = true ∧ (Python.strip m).toUpper = m := by
    decide +kernel
  obtain ⟨hascii, hupper⟩ := hall method hm
  rw [u.upper_ascii _ hascii, hupper]

theorem resolveProxyPermission_ok {serviceName code : String} (hm : http.method ∈ proxyMethods)
    (hr : resolveProxyPermission cfg serviceName http.method = .ok code) :
    serviceName ∈ serviceNames ∧ PermissionFor serviceName http.method code ∧
      normalizePermissionCode cfg.unicode code = .ok code := by
  simp only [resolveProxyPermission, upper_strip_method cfg.unicode hm] at hr
  split at hr
  · cases hr
  · next hreg =>
    have hs : serviceName ∈ serviceNames := by simpa [isRegisteredService] using hreg
    split at hr
    · next hread =>
      cases hr
      exact ⟨hs, Or.inl ⟨hread, rfl⟩, normalize_proxyCode cfg.unicode hs (Or.inl rfl)⟩
    · split at hr
      · next hwrite =>
        cases hr
        exact ⟨hs, Or.inr ⟨hwrite, rfl⟩, normalize_proxyCode cfg.unicode hs (Or.inr rfl)⟩
      · cases hr

end Codes

section Authorization

theorem wp_requirePermissionService {post : History gateway → Except Raised Unit → Prop}
    {userId : Uuid} {code : String}
    (hn : normalizePermissionCode cfg.unicode code = .ok code)
    (herror : ∀ h' e, h <+: h' → post h' (.error e))
    (hok : ∀ h', Smooth h h' → Performed h' (.selectPermissionExists userId code) (.ok true) →
      post h' (.ok ())) :
    (AuthorizationService.requirePermission cfg userId code).wp (Permitted cfg q) post h := by
  rw [AuthorizationService.requirePermission, Prog.wp_bind, AuthorizationService.hasPermission,
    Prog.wp_bind, Prog.wp_liftExcept, hn, Prog.sequel_ok, AuthorizationRepository.hasPermission,
    Prog.wp_bind, Prog.wp_liftExcept, hn, Prog.sequel_ok, Prog.wp_call_bind]
  refine ⟨trivial, fun selected => ?_⟩
  have hle : h <+: h ++ [⟨.selectPermissionExists userId code, selected⟩] :=
    List.prefix_append _ _
  refine wp_authorizationResult (fun allowed ha => ?_) fun e => herror _ e hle
  subst ha
  cases allowed with
  | true => exact hok _ (smooth_last h id) (performed_last _ _ _)
  | false => exact herror _ _ hle

theorem wp_enforcePermission {post : History gateway → Except Raised Unit → Prop}
    {user : UserPublic} {code : String} {serviceName : Option String}
    (hn : normalizePermissionCode cfg.unicode code = .ok code)
    (herror : ∀ h' e, h <+: h' → post h' (.error e))
    (hok : ∀ h', Smooth h h' → Performed h' (.selectPermissionExists user.id code) (.ok true) →
      post h' (.ok ())) :
    (enforcePermission cfg http user code serviceName).wp (Permitted cfg q) post h := by
  rw [enforcePermission, Prog.wp_tryCatch]
  refine wp_requirePermissionService hn (fun h₁ e hle₁ => ?_) hok
  rw [Prog.recovery_error]
  split
  · exact wp_audited_throw _ _ fun h₂ e hle₂ => herror h₂ e (hle₁.trans hle₂)
  · exact wp_audited_throw _ _ fun h₂ e hle₂ => herror h₂ e (hle₁.trans hle₂)
  · exact herror h₁ _ hle₁

theorem wp_requirePermission {post : History gateway → Except Raised UserPublic → Prop}
    {code : String} (hn : normalizePermissionCode cfg.unicode code = .ok code)
    (herror : ∀ h' e, h <+: h' → post h' (.error e))
    (hok : ∀ h' user, h <+: h' → Authenticated cfg http user.id h' →
      Performed h' (.selectPermissionExists user.id code) (.ok true) → post h' (.ok user)) :
    (requirePermission cfg http code).wp (Permitted cfg q) post h := by
  rw [requirePermission, Prog.wp_bind]
  refine wp_getCurrentUser herror fun h₁ user hle₁ ha => ?_
  rw [Prog.sequel_ok, Prog.wp_bind]
  refine wp_enforcePermission hn (fun h₂ e hle₂ => herror h₂ e (hle₁.le.trans hle₂)) ?_
  intro h₂ hle₂ hp
  exact hok h₂ user (hle₁.trans hle₂).le (ha.mono hle₂.le) hp

/-- The lookups that come before a mutation, and then the mutation itself. -/
theorem wp_roleMutation {post : History gateway → Except Raised Bool → Prop} {userId : Uuid}
    {roleName : String} (op : Uuid → GatewayOp)
    (reply : ∀ roleId, (op roleId).Reply → Except DbFault Bool)
    (hop : ∀ h' roleId, h <+: h' → Permitted cfg q h' (op roleId))
    (hpost : ∀ h' outcome, h <+: h' → post h' outcome) :
    (do
      let normalizedRole ← Prog.liftExcept (normalizeRoleName cfg.unicode roleName)
      let roleId ← AuthorizationRepository.getRoleId cfg normalizedRole
      AuthorizationRepository.requireUser userId
      let changed ← invoke (op roleId)
      AuthorizationRepository.result (reply roleId changed) : Action Bool).wp
        (Permitted cfg q) post h := by
  rw [Prog.wp_bind, Prog.wp_liftExcept]
  cases normalizeRoleName cfg.unicode roleName with
  | error e => exact hpost h _ List.prefix_rfl
  | ok normalized =>
    rw [Prog.sequel_ok, Prog.wp_bind]
    refine wp_harmless (only_getRoleId normalized) fun h₁ found hle₁ => ?_
    cases found with
    | error e => exact hpost h₁ _ hle₁
    | ok roleId =>
      rw [Prog.sequel_ok, Prog.wp_bind]
      refine wp_harmless (only_requireUser userId) fun h₂ existing hle₂ => ?_
      cases existing with
      | error e => exact hpost h₂ _ (hle₁.trans hle₂)
      | ok _ =>
        rw [Prog.sequel_ok, Prog.wp_call_bind]
        refine ⟨hop h₂ roleId (hle₁.trans hle₂), fun changed => ?_⟩
        have hle := hle₁.trans (hle₂.trans (List.prefix_append h₂ [⟨op roleId, changed⟩]))
        exact wp_authorizationResult (fun _ _ => hpost _ _ hle) fun _ => hpost _ _ hle

theorem wp_assignRole {post : History gateway → Except Raised Bool → Prop} {userId : Uuid}
    {username roleName name : String} (hr : RoleManager cfg http h)
    (hpost : ∀ h' outcome, h <+: h' → post h' outcome) :
    (AuthorizationService.assignRole cfg userId name).wp
      (Permitted cfg (.assignRole http username roleName)) post h :=
  wp_roleMutation (.insertUserRole userId) (fun _ changed => changed)
    (fun _ _ hle => ⟨http, username, roleName, rfl, hr.mono hle⟩) hpost

theorem wp_removeRole {post : History gateway → Except Raised Bool → Prop} {userId : Uuid}
    {username roleName name : String} (hr : RoleManager cfg http h)
    (hpost : ∀ h' outcome, h <+: h' → post h' outcome) :
    (AuthorizationService.removeRole cfg userId name).wp
      (Permitted cfg (.removeRole http username roleName)) post h :=
  wp_roleMutation (.deleteUserRole userId) (fun _ changed => changed)
    (fun _ _ hle => ⟨http, username, roleName, rfl, hr.mono hle⟩) hpost

/-- A mutation route reaches its statements as an authorised role manager. -/
theorem wp_mutateUserRole {post : History gateway → Except Raised ApiResponse → Prop}
    {m : RoleMutation} {username roleName : String}
    (hpost : ∀ h' outcome, h <+: h' → post h' outcome)
    (hmutate : ∀ {post : History gateway → Except Raised Bool → Prop} {h' : History gateway}
      (userId : Uuid) (name : String), RoleManager cfg http h' →
      (∀ h'' outcome, h' <+: h'' → post h'' outcome) →
      (m.mutate cfg userId name).wp (Permitted cfg q) post h') :
    (mutateUserRole cfg http m username roleName).wp (Permitted cfg q) post h := by
  rw [mutateUserRole, Prog.wp_bind]
  refine wp_requirePermission (normalize_rolesManage cfg.unicode)
    (fun h₁ e hle₁ => hpost h₁ _ hle₁) fun h₁ actor hle₁ ha hp => ?_
  rw [Prog.sequel_ok, Prog.wp_bind]
  refine wp_harmless (only_getTargetUser _ _ _) fun h₂ target hle₂ => ?_
  cases target with
  | error e => exact hpost h₂ _ (hle₁.trans hle₂)
  | ok target =>
    rw [Prog.sequel_ok]
    split
    · exact hpost h₂ _ (hle₁.trans hle₂)
    · rw [Prog.wp_bind, Prog.wp_tryCatch]
      refine hmutate target.id _ ⟨actor.id, ha.mono hle₂, hp.mono hle₂⟩ fun h₃ changed hle₃ => ?_
      have hle := hle₁.trans (hle₂.trans hle₃)
      cases changed with
      | error e =>
        rw [Prog.recovery_error]
        split
        · exact hpost h₃ _ hle
        · exact hpost h₃ _ hle
        · exact wp_audited_throw _ _ fun h₄ e hle₄ => hpost h₄ _ (hle.trans hle₄)
        · exact hpost h₃ _ hle
      | ok changed =>
        rw [Prog.recovery_ok, Prog.sequel_ok, Prog.wp_bind]
        refine wp_harmless (only_recordRequestSecurityEvent _) fun h₄ recorded hle₄ => ?_
        cases recorded <;> exact hpost h₄ _ (hle.trans hle₄)

end Authorization

section Registration

theorem wp_createUser {post : History gateway → Except Raised StoredUser → Prop}
    {username hashedPassword : String} (hpost : ∀ h' outcome, h <+: h' → post h' outcome) :
    (UserRepository.createUser cfg username hashedPassword).wp (Permitted cfg q) post h := by
  rw [UserRepository.createUser, Prog.wp_bind, Prog.wp_liftExcept]
  cases Auth.normalizeUsername cfg.unicode username with
  | error e => exact hpost h _ List.prefix_rfl
  | ok name =>
    rw [Prog.sequel_ok]
    split
    · exact hpost h _ List.prefix_rfl
    · rw [Prog.wp_call_bind]
      refine ⟨trivial, fun now => ?_⟩
      rw [Prog.wp_call_bind]
      refine ⟨trivial, fun id => ?_⟩
      rw [Prog.wp_call_bind]
      refine ⟨rfl, fun committed => ?_⟩
      simp only [List.append_assoc]
      have hle := List.prefix_append h
      match committed with
      | .ok _ => exact hpost _ _ (hle _)
      | .error .uniqueViolation => exact hpost _ _ (hle _)
      | .error .integrityError | .error (.sqlalchemyError _) | .error (.osError _)
      | .error (.fault f _) => exact hpost _ _ (hle _)

theorem wp_registerService {post : History gateway → Except Raised UserPublic → Prop}
    {username password : String} (hpost : ∀ h' outcome, h <+: h' → post h' outcome) :
    (AuthenticationService.registerUser cfg username password).wp (Permitted cfg q) post h := by
  rw [AuthenticationService.registerUser, Prog.wp_bind, Prog.wp_liftExcept]
  cases Auth.validatePassword password with
  | error e => exact hpost h _ List.prefix_rfl
  | ok _ =>
    rw [Prog.sequel_ok, Prog.wp_call_bind]
    refine ⟨trivial, fun hashed => ?_⟩
    have hle : h <+: h ++ [⟨.hashPassword password, hashed⟩] := List.prefix_append _ _
    rw [Prog.wp_bind]
    refine wp_harmless (only_threaded hashed) fun h₁ threaded hle₁ => ?_
    cases threaded with
    | error e => exact hpost h₁ _ (hle.trans hle₁)
    | ok hashedPassword =>
      rw [Prog.sequel_ok, Prog.wp_bind]
      refine wp_createUser fun h₂ created hle₂ => ?_
      cases created <;> exact hpost h₂ _ (hle.trans (hle₁.trans hle₂))

theorem wp_registerUser {post : History gateway → Except Raised ApiResponse → Prop}
    {username password : String} (hpost : ∀ h' outcome, h <+: h' → post h' outcome) :
    (registerUser cfg http username password).wp (Permitted cfg q) post h := by
  unfold registerUser
  split
  · rw [Prog.wp_bind, Prog.wp_tryCatch]
    refine wp_registerService fun h₁ outcome hle₁ => ?_
    cases outcome with
    | error e =>
      rw [Prog.recovery_error]
      split
      · exact hpost h₁ _ hle₁
      · exact wp_audited_throw _ _ fun h₂ e hle₂ => hpost h₂ _ (hle₁.trans hle₂)
      · exact hpost h₁ _ hle₁
    | ok user =>
      rw [Prog.recovery_ok, Prog.sequel_ok, Prog.wp_bind]
      refine wp_harmless (only_recordRequestSecurityEvent _) fun h₂ recorded hle₂ => ?_
      cases recorded <;> exact hpost h₂ _ (hle₁.trans hle₂)
  · exact hpost h _ List.prefix_rfl

end Registration

section Login

open RedisLoginProtection

theorem wp_readClock {post : History gateway → Except Raised ℤ → Prop}
    (herror : ∀ h' e, h <+: h' → post h' (.error e))
    (hok : ∀ nowMs, post (h ++ [⟨.clockMs, nowMs⟩]) (.ok nowMs)) :
    readClock.wp (Permitted cfg q) post h := by
  rw [readClock, Prog.wp_call_bind]
  refine ⟨trivial, fun nowMs => ?_⟩
  split
  · exact herror _ _ (List.prefix_append _ _)
  · exact hok nowMs

theorem wp_evaluated {post : History gateway → Except Raised α → Prop} {r : Except RedisFault α}
    (hok : ∀ a, r = .ok a → post h (.ok a)) (herror : ∀ e, post h (.error e)) :
    (evaluated r).wp (Permitted cfg q) post h := by
  match r with
  | .ok a => exact hok a rfl
  | .error ⟨none, _⟩ => exact herror _
  | .error ⟨some f, _⟩ => exact herror _

theorem parseDecision_unlocked {raw : Login.LoginReply} {decision : LoginProtectionDecision}
    (hp : parseDecision raw = .ok decision) (hd : decision.locked = false) : raw.locked = 0 := by
  unfold parseDecision at hp
  split at hp
  · cases hp
  · next hlocked =>
    split at hp
    · cases hp
    · split at hp
      · cases hp
      · cases hp
        have hne : raw.locked ≠ 1 := by simpa using hd
        by_contra hzero
        exact hlocked ⟨hzero, hne⟩

theorem wp_checkLock {post : History gateway → Except Raised LoginProtectionDecision → Prop}
    {identifier : String} (herror : ∀ h' e, h <+: h' → post h' (.error e))
    (hok : ∀ h' decision, h <+: h' →
      (decision.locked = false → FoundUnlocked (accountKey cfg identifier) h') →
      post h' (.ok decision)) :
    (checkLock cfg identifier Login.accountLoginProtectionPolicy).wp (Permitted cfg q) post h := by
  rw [checkLock, Prog.wp_bind]
  refine wp_readClock herror fun nowMs => ?_
  rw [Prog.sequel_ok, Prog.wp_call_bind]
  refine ⟨performed_last _ _ _, fun raw => ?_⟩
  have hle := (List.prefix_append h [(⟨.clockMs, nowMs⟩ : Exchange gateway)]).trans
    (List.prefix_append _ [⟨.evalLockStatus (accountKey cfg identifier) nowMs, raw⟩])
  rw [Prog.wp_bind]
  refine wp_evaluated (fun reply hr => ?_) fun e => herror _ e hle
  subst hr
  rw [Prog.sequel_ok, Prog.wp_liftExcept]
  cases hp : parseDecision reply with
  | error e => exact herror _ e hle
  | ok decision =>
    refine hok _ decision hle fun hd => ⟨nowMs, reply, performed_last _ _ _, ?_⟩
    exact parseDecision_unlocked hp hd

theorem wp_recordFailure {post : History gateway → Except Raised LoginProtectionDecision → Prop}
    {identifier : String} {policy : Login.LoginProtectionPolicy}
    (hpost : ∀ h' outcome, h <+: h' → post h' outcome) :
    (recordFailure cfg identifier policy).wp (Permitted cfg q) post h := by
  rw [recordFailure, Prog.wp_bind]
  refine wp_readClock (fun h' e hle => hpost h' _ hle) fun nowMs => ?_
  rw [Prog.sequel_ok, Prog.wp_call_bind]
  refine ⟨performed_last _ _ _, fun raw => ?_⟩
  rw [List.append_assoc, Prog.wp_bind]
  refine wp_evaluated (fun reply hr => ?_) fun e => hpost _ _ (List.prefix_append _ _)
  exact hpost _ _ (List.prefix_append _ _)

theorem wp_protectionUnavailable {post : History gateway → Except Raised α → Prop}
    {reasonCode : String} (herror : ∀ h' e, h <+: h' → post h' (.error e)) :
    (protectionUnavailable cfg http reasonCode : Action α).wp (Permitted cfg q) post h :=
  wp_audited_throw _ _ herror

theorem wp_loginFailed {post : History gateway → Except Raised α → Prop} {username : String}
    {ipDecision : RateLimit.RateLimitDecision}
    (herror : ∀ h' e, h <+: h' → post h' (.error e)) :
    (loginFailed cfg http username ipDecision : Action α).wp (Permitted cfg q) post h := by
  rw [loginFailed, Prog.wp_bind]
  refine wp_harmless (only_recordRequestSecurityEvent _) fun h₁ recorded hle₁ => ?_
  cases recorded with
  | error e => exact herror h₁ e hle₁
  | ok _ =>
    rw [Prog.sequel_ok, Prog.wp_bind, Prog.wp_tryCatch]
    refine wp_recordFailure fun h₂ outcome hle₂ => ?_
    cases outcome with
    | error e =>
      rw [Prog.recovery_error]
      split
      · exact wp_protectionUnavailable fun h₃ e hle₃ => herror h₃ e (hle₁.trans (hle₂.trans hle₃))
      · exact herror h₂ _ (hle₁.trans hle₂)
    | ok decision =>
      rw [Prog.recovery_ok, Prog.sequel_ok]
      split
      · exact wp_audited_throw _ _ fun h₃ e hle₃ => herror h₃ e (hle₁.trans (hle₂.trans hle₃))
      · exact herror h₂ _ (hle₁.trans hle₂)

theorem wp_authenticated
    {post : History gateway → Except Raised AuthenticationService.AuthenticationResult → Prop}
    {username password : String} {ipDecision : RateLimit.RateLimitDecision}
    (hpost : ∀ h' outcome, h <+: h' → post h' outcome) :
    (authenticated cfg http username password ipDecision).wp (Permitted cfg q) post h := by
  rw [authenticated, Prog.wp_tryCatch]
  refine wp_harmless (only_authenticateAndCreateResult _ _) fun h₁ outcome hle₁ => ?_
  cases outcome with
  | ok result => exact hpost h₁ _ hle₁
  | error e =>
    rw [Prog.recovery_error]
    split
    · exact wp_audited_throw _ _ fun h₂ e hle₂ => hpost h₂ _ (hle₁.trans hle₂)
    · exact wp_loginFailed fun h₂ e hle₂ => hpost h₂ _ (hle₁.trans hle₂)
    · exact hpost h₁ _ hle₁

/-- A login resets its account and answers a token only after it found the lock open. -/
theorem wp_issueAccessToken {post : History gateway → Except Raised ApiResponse → Prop}
    {username password : String} (herror : ∀ h' e, h <+: h' → post h' (.error e))
    (hok : ∀ h' response, h <+: h' → FoundUnlocked (accountKey cfg username) h' →
      EndsQuietly h' → post h' (.ok response)) :
    (issueAccessToken cfg http username password).wp
      (Permitted cfg (.token http username password)) post h := by
  rw [issueAccessToken, Prog.wp_bind]
  refine wp_harmless only_enforceLoginIpRateLimit fun h₁ limited hle₁ => ?_
  cases limited with
  | error e => exact herror h₁ e hle₁
  | ok ipDecision =>
    rw [Prog.sequel_ok, Prog.wp_bind, Prog.wp_tryCatch]
    refine wp_checkLock (fun h₂ e hle₂ => ?_) fun h₂ lockDecision hle₂ hfound => ?_
    · have hle := hle₁.trans hle₂
      rw [Prog.recovery_error]
      split
      · exact wp_protectionUnavailable fun h₃ e hle₃ => herror h₃ e (hle.trans hle₃)
      · exact herror h₂ _ hle
    · have hle := hle₁.trans hle₂
      rw [Prog.recovery_ok, Prog.sequel_ok]
      split
      · exact wp_audited_throw _ _ fun h₃ e hle₃ => herror h₃ e (hle.trans hle₃)
      · next hunlocked =>
        have hf := hfound (by simpa using hunlocked)
        rw [Prog.wp_bind]
        refine wp_authenticated fun h₃ outcome hle₃ => ?_
        cases outcome with
        | error e => exact herror h₃ e (hle.trans hle₃)
        | ok result =>
          rw [Prog.sequel_ok, Prog.wp_bind, Prog.wp_tryCatch, reset, Prog.wp_call_bind]
          refine ⟨⟨http, username, password, rfl, rfl, hf.mono hle₃⟩, fun raw => ?_⟩
          have hle₄ := hle₃.trans (List.prefix_append h₃ [⟨.evalLoginReset _, raw⟩])
          refine wp_evaluated (fun deleted _ => ?_) fun e => ?_
          · rw [Prog.recovery_ok, Prog.sequel_ok, Prog.wp_bind]
            refine wp_harmless_last (only_recordRequestSecurityEvent _) ?_ ?_
            · exact ⟨h₃, _, rfl, id⟩
            · intro h₅ recorded hle₅ hquiet
              have hle' := hle.trans (hle₄.trans hle₅)
              cases recorded with
              | error e => exact herror h₅ e hle'
              | ok _ => exact hok h₅ _ hle' (hf.mono (hle₄.trans hle₅)) hquiet
          · rw [Prog.recovery_error]
            split
            · exact wp_protectionUnavailable fun h₅ e hle₅ =>
                herror h₅ e (hle.trans (hle₄.trans hle₅))
            · exact herror _ _ (hle.trans hle₄)

end Login

section Proxy

theorem About.of_callOk {u : UpstreamRequest} {k : History upstream} {e : UpstreamOp}
    (hc : CallOk u k e) : About u e := by
  cases e with
  | beforeRequest service => exact hc.1
  | record service permit settlement => exact hc.1
  | request u' => exact hc.1
  | onEvent | response | sleep => trivial

/-- The chain of checks covers every operation of the upstream call, retries included. -/
theorem wp_executeUpstream
    {post : History gateway → Except Raised UpstreamExecutionResult → Prop} {u : UpstreamRequest}
    {path code : String} {userId : Uuid} (hq : q = .proxy http u.serviceName path)
    (hz : ZeroTrust cfg http u.serviceName userId code h) (hs : Smooth [] h)
    (hm : u.method = http.method) (hpost : ∀ h' outcome, h <+: h' → post h' outcome) :
    (executeUpstream cfg u).wp (Permitted cfg q) post h := by
  refine Prog.wp_embed (wp_execute (requestExecutor cfg) u) (fun k l e hl hc => ?_)
    fun _ h' outcome hle _ => hpost h' outcome hle
  have hsl : Smooth h (h ++ l) := by
    refine ⟨l, rfl, fun x hx => ?_⟩
    obtain ⟨op, r⟩ := x
    obtain ⟨e', rfl⟩ := hl _ hx
    exact id
  exact ⟨http, u.serviceName, path, userId, code, u, hq, hz.mono hsl.le, hs.trans hsl, rfl, hm,
    About.of_callOk hc⟩

theorem wp_forwardRequest {post : History gateway → Except Raised ApiResponse → Prop}
    {serviceName path code : String} {userId : Uuid} {decision : RateLimit.RateLimitDecision}
    (hq : q = .proxy http serviceName path)
    (hz : ZeroTrust cfg http serviceName userId code h) (hs : Smooth [] h)
    (hpost : ∀ h' outcome, h <+: h' → post h' outcome) :
    (forwardRequest cfg http serviceName path decision).wp (Permitted cfg q) post h := by
  rw [forwardRequest, Prog.wp_bind, Prog.wp_liftExcept]
  cases requestBaseUrl cfg serviceName with
  | error e => exact hpost h _ List.prefix_rfl
  | ok baseUrl =>
    rw [Prog.sequel_ok, Prog.wp_call_bind]
    refine ⟨trivial, fun read => ?_⟩
    have hs₁ : Smooth h (h ++ [⟨.requestBody, read⟩]) := smooth_last h id
    cases read with
    | error f => exact hpost _ _ hs₁.le
    | ok body =>
      dsimp only
      rw [Prog.wp_bind, Prog.wp_tryCatch]
      refine wp_executeUpstream hq (hz.mono hs₁.le) (hs.trans hs₁) rfl fun h₂ outcome hle₂ => ?_
      have hle := hs₁.le.trans hle₂
      cases outcome with
      | ok result =>
        rw [Prog.recovery_ok, Prog.sequel_ok, Prog.wp_call_bind]
        exact ⟨trivial, fun _ => hpost _ _ (hle.trans (List.prefix_append _ _))⟩
      | error e =>
        rw [Prog.recovery_error]
        refine Prog.wp_of_only (only_upstreamFailed (fun _ _ => trivial) _) permitted_of_harmless
          fun h₃ failed hle₃ => ?_
        cases failed with
        | error e => exact hpost h₃ _ (hle.trans hle₃)
        | ok result =>
          refine ⟨trivial, fun _ => ?_⟩
          exact hpost _ _ (hle.trans (hle₃.trans (List.prefix_append _ _)))

theorem wp_proxyRequest {post : History gateway → Except Raised ApiResponse → Prop}
    {serviceName path : String} (hq : q = .proxy http serviceName path)
    (hm : http.method ∈ proxyMethods) (hs : Smooth [] h)
    (hpost : ∀ h' outcome, h <+: h' → post h' outcome) :
    (proxyRequest cfg http serviceName path).wp (Permitted cfg q) post h := by
  rw [proxyRequest, Prog.wp_bind]
  refine wp_getCurrentUser (fun h₁ e hle₁ => hpost h₁ _ hle₁) fun h₁ user hs₁ ha => ?_
  rw [Prog.sequel_ok, Prog.wp_bind]
  refine wp_enforceProxyRateLimit (fun h₂ e hle₂ => hpost h₂ _ (hs₁.le.trans hle₂))
    fun h₂ decision hs₂ hallowed => ?_
  rw [Prog.sequel_ok, Prog.wp_bind, enforceProxyAuthorization, Prog.wp_bind, Prog.wp_liftExcept]
  cases hr : resolveProxyPermission cfg serviceName http.method with
  | error e => exact hpost h₂ _ (hs₁.trans hs₂).le
  | ok code =>
    obtain ⟨hservice, hfor, hn⟩ := resolveProxyPermission_ok hm hr
    rw [Prog.sequel_ok]
    refine wp_enforcePermission hn (fun h₃ e hle₃ => hpost h₃ _ ((hs₁.trans hs₂).le.trans hle₃))
      fun h₃ hs₃ hgranted => ?_
    have hs' := (hs₁.trans hs₂).trans hs₃
    have hz : ZeroTrust cfg http serviceName user.id code h₃ :=
      ⟨ha.mono (hs₂.trans hs₃).le, hallowed.mono hs₃.le, hservice, hfor, hgranted⟩
    exact wp_forwardRequest hq hz (hs.trans hs') fun h₄ outcome hle₄ =>
      hpost h₄ outcome (hs'.le.trans hle₄)

end Proxy

theorem tokenPost_error (q : ApiRequest) (h : History gateway) (e : Raised) :
    TokenPost cfg q h (.error e) := by
  intro _ _ _ _ _ _ ho
  cases ho

theorem tokenPost_other (hq : ∀ http username password, q ≠ .token http username password)
    (h : History gateway) (outcome : Except Raised ApiResponse) : TokenPost cfg q h outcome := by
  intro http username password _ _ he
  exact (hq http username password he).elim

theorem wp_route (q : ApiRequest) :
    (route cfg q).wp (Permitted cfg q) (TokenPost cfg q) [] := by
  unfold route
  split
  · exact wp_registerUser fun h outcome _ => tokenPost_other (by simp) h outcome
  · refine wp_issueAccessToken (fun h e _ => tokenPost_error _ h e) ?_
    intro h response _ hf hquiet http' username' password' accessToken headers he _
    cases he
    exact ⟨hf, hquiet⟩
  · exact wp_harmless only_readCurrentUser fun h outcome _ => tokenPost_other (by simp) h outcome
  · exact wp_harmless (only_readUserRoles _) fun h outcome _ =>
      tokenPost_other (by simp) h outcome
  · exact wp_mutateUserRole (fun h outcome _ => tokenPost_other (by simp) h outcome)
      fun _ _ hr hpost => wp_assignRole hr hpost
  · exact wp_mutateUserRole (fun h outcome _ => tokenPost_other (by simp) h outcome)
      fun _ _ hr hpost => wp_removeRole hr hpost
  · split
    · next hm =>
      exact wp_proxyRequest rfl hm ⟨[], rfl, by simp⟩ fun h outcome _ =>
        tokenPost_other (by simp) h outcome
    · exact tokenPost_error _ _ _

/-- The discipline of every route. -/
def gatewayDiscipline (cfg : Config) : Discipline (gatewaySystem cfg) where
  ok := Permitted cfg
  post := TokenPost cfg
  handler := wp_route

end SecureGateway.Gateway
