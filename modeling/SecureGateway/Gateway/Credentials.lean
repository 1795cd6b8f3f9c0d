import SecureGateway.Gateway.Discipline

/-!
# Where credentials come from

A handler leaves a credential behind when it stores a password hash or has a token signed.
What it has seen of the password by then, for every reply of the hasher and of the database.
-/
namespace SecureGateway.Gateway

open Interleaving Auth

/-- The operations that leave a credential behind. -/
def Issuing : GatewayOp → Prop
  | .jwtEncode _ | .commitUser _ _ | .commitPasswordHash _ _ => True
  | _ => False

/-- The operations that check a password. -/
def Verifying : GatewayOp → Prop
  | .verifyPassword _ _ | .verifyAndUpdatePassword _ _ => True
  | _ => False

/-- The check of a limiter. -/
def Limiting : GatewayOp → Prop
  | .evalTokenBucket _ _ _ _ _ _ => True
  | _ => False

/-- Neither of these. -/
structure Idle (op : GatewayOp) : Prop where
  issuing : ¬ Issuing op
  verifying : ¬ Verifying op
  limiting : ¬ Limiting op

/-- The user that a login has looked up, with the password checked against the stored hash. -/
structure Verified (cfg : Config) (username password : String) (found : UserRecord)
    (replacement : Option String) (h : History gateway) : Prop where
  selected : ∃ name, normalizeUsername cfg.unicode username = .ok name ∧
    Performed h (.selectUser name) (.ok (some found))
  verified : Performed h (.verifyAndUpdatePassword password found.hashedPassword)
    (.ok (true, replacement))

/-- The row that a login goes on with: the one found, or the same one looked up again. -/
def Reselected (cfg : Config) (found record : UserRecord) (h : History gateway) : Prop :=
  ∃ name, normalizeUsername cfg.unicode found.username = .ok name ∧
    Performed h (.selectUser name) (.ok (some record))

/-- What a request has seen when it leaves a credential behind. A registration stores a hash of
its own password under its own username; a login stores a hash of the password that it has
checked, for the user that it has checked it for, and signs a token for that user. -/
def CredentialOk (cfg : Config) (q : ApiRequest) (h : History gateway) : GatewayOp → Prop
  | .commitUser record _ => ∃ http username password, q = .register http username password ∧
      normalizeUsername cfg.unicode username = .ok record.username ∧
      Performed h (.hashPassword password) (.ok record.hashedPassword)
  | .commitPasswordHash userId hashedPassword => ∃ http username password found record,
      q = .token http username password ∧
      Verified cfg username password found (some hashedPassword) h ∧
      Reselected cfg found record h ∧ record.id = userId
  | .jwtEncode payload => ∃ http username password found replacement record,
      q = .token http username password ∧ Verified cfg username password found replacement h ∧
      (record = found ∨ Reselected cfg found record h) ∧
      payload.get "sub" = .string (Python.strip record.username)
  | _ => True

section Growth

variable {cfg : Config} {username password : String} {found record : UserRecord}
  {replacement : Option String} {h h' : History gateway} {α : Type} {q : ApiRequest}

theorem Verified.mono (hv : Verified cfg username password found replacement h) (hle : h <+: h') :
    Verified cfg username password found replacement h' := by
  obtain ⟨⟨name, hn, hselected⟩, hverified⟩ := hv
  exact ⟨⟨name, hn, hselected.mono hle⟩, hverified.mono hle⟩

theorem Reselected.mono (hr : Reselected cfg found record h) (hle : h <+: h') :
    Reselected cfg found record h' := by
  obtain ⟨name, hn, hselected⟩ := hr
  exact ⟨name, hn, hselected.mono hle⟩

theorem credentialOk_of_not_issuing (op : GatewayOp) (hop : ¬ Issuing op) :
    CredentialOk cfg q h op := by
  cases op with
  | jwtEncode payload => exact (hop trivial).elim
  | commitUser record roleId => exact (hop trivial).elim
  | commitPasswordHash userId hashedPassword => exact (hop trivial).elim
  | _ => trivial

theorem idle_of_auditing (op : GatewayOp) (hop : Auditing op) : Idle op := by
  cases op with
  | jwtEncode payload => exact hop.elim
  | commitUser record roleId => exact hop.elim
  | commitPasswordHash userId hashedPassword => exact hop.elim
  | verifyPassword password hash => exact hop.elim
  | verifyAndUpdatePassword password hash => exact hop.elim
  | evalTokenBucket => exact hop.elim
  | _ => exact ⟨id, id, id⟩

theorem wp_not_issuing {p : Action α} {post : History gateway → Except Raised α → Prop}
    (hp : p.Only fun op => ¬ Issuing op) (hpost : ∀ h' outcome, h <+: h' → post h' outcome) :
    p.wp (CredentialOk cfg q) post h :=
  Prog.wp_of_only hp (fun _ op hop => credentialOk_of_not_issuing op hop) hpost

theorem wp_idle {p : Action α} {post : History gateway → Except Raised α → Prop}
    (hp : p.Only Idle) (hpost : ∀ h' outcome, h <+: h' → post h' outcome) :
    p.wp (CredentialOk cfg q) post h :=
  wp_not_issuing (hp.mono fun _ hop => hop.issuing) hpost

end Growth

section Idle

variable {cfg : Config} {http : HttpRequest} {α : Type}

theorem idle_record (fields : Audit.EventFields) :
    (recordRequestSecurityEvent cfg http fields).Only Idle :=
  (auditing_recordRequestSecurityEvent fields).mono idle_of_auditing

theorem idle_audited_throw (fields : Audit.EventFields) (error : Raised) :
    (recordRequestSecurityEvent cfg http fields >>= fun _ => (throw error : Action α)).Only Idle :=
  (auditing_audited_throw fields error).mono idle_of_auditing

theorem idle_getByUsername (username : String) :
    (UserRepository.getByUsername cfg username).Only Idle :=
  (auditing_getByUsername username).mono idle_of_auditing

/-- Any script of the login protection, and what a failure of its back end becomes. -/
theorem idle_protected {p : Action α} (hp : p.Only Idle) (reasonCode : String) :
    (p.tryCatch fun
      | .loginProtectionBackend _ => protectionUnavailable cfg http reasonCode
      | error => throw error).Only Idle := by
  refine Prog.only_tryCatch hp fun error => ?_
  split
  · exact idle_audited_throw _ _
  · exact Prog.only_throw _

theorem idle_loginFailed (username : String) (ipDecision : RateLimit.RateLimitDecision) :
    (loginFailed cfg http username ipDecision : Action α).Only Idle := by
  refine Prog.only_bind (idle_record _) fun _ => ?_
  refine Prog.only_bind (idle_protected ?_ _) fun decision => ?_
  · exact only_decided ⟨id, id, id⟩ fun nowMs => .perform ⟨id, id, id⟩ fun raw => .finish _
  · split
    · exact idle_audited_throw _ _
    · exact Prog.only_throw _

/-- What follows a login that has succeeded. -/
theorem idle_completed {username : String} {ipDecision : RateLimit.RateLimitDecision}
    {fields : Audit.EventFields} (result : AuthenticationService.AuthenticationResult) :
    Prog.Only Idle (do
      let _ ← (RedisLoginProtection.reset cfg username
          Login.accountLoginProtectionPolicy).tryCatch fun
        | .loginProtectionBackend _ =>
          protectionUnavailable cfg http "login_state_reset_unavailable"
        | error => throw error
      recordRequestSecurityEvent cfg http fields
      pure (ApiResponse.token result.accessToken (buildRateLimitHeaders ipDecision))) := by
  refine Prog.only_bind (idle_protected ?_ _) fun _ => ?_
  · exact Prog.only_call_bind ⟨id, id, id⟩ fun raw => only_evaluated raw
  · exact Prog.only_bind (idle_record _) fun _ => Prog.only_pure _

theorem idle_getTargetUser (username code : String) (actor : Uuid) :
    (getTargetUser cfg http username actor code).Only Idle := by
  refine Prog.only_bind (Prog.only_tryCatch (idle_getByUsername username) fun error => ?_)
    fun user => ?_
  · split
    · exact idle_audited_throw _ _
    · exact Prog.only_throw _
    · exact Prog.only_throw _
  · cases user with
    | none => exact Prog.only_throw _
    | some user => exact Prog.only_pure user

theorem idle_requirePermission (code : String) :
    (requirePermission cfg http code).Only Idle :=
  (auditing_requirePermission code).mono idle_of_auditing

theorem idle_readUserRoles (username : String) :
    (readUserRoles cfg http username).Only Idle := by
  refine Prog.only_bind (idle_requirePermission _) fun actor => ?_
  refine Prog.only_bind (idle_getTargetUser _ _ _) fun target => ?_
  refine Prog.only_bind (Prog.only_tryCatch ?_ fun error => ?_) fun roles => ?_
  · exact Prog.only_call_bind ⟨id, id, id⟩ only_authorizationResult
  · split
    · exact idle_audited_throw _ _
    · exact Prog.only_throw _
  · exact Prog.only_bind (idle_record _) fun _ => Prog.only_pure _

/-- The service behind a role mutation, with its last statement. -/
theorem idle_mutation {userId : Uuid} {roleName : String}
    {write : Uuid → Action (Except DbFault Bool)}
    (hwrite : ∀ roleId, (write roleId).Only Idle) :
    (Prog.liftExcept (Authorization.normalizeRoleName cfg.unicode roleName) >>= fun name =>
      AuthorizationRepository.getRoleId cfg name >>= fun roleId =>
        AuthorizationRepository.requireUser userId >>= fun _ =>
          write roleId >>= fun r => AuthorizationRepository.result r : Action Bool).Only Idle := by
  refine Prog.only_bind (Prog.only_liftExcept _) fun name => ?_
  refine Prog.only_bind ?_ fun roleId => ?_
  · refine Prog.only_bind (Prog.only_liftExcept _) fun name' => ?_
    refine Prog.only_call_bind ⟨id, id, id⟩ fun selected => ?_
    refine Prog.only_bind (only_authorizationResult selected) fun found => ?_
    cases found with
    | none => exact Prog.only_throw _
    | some roleId => exact Prog.only_pure roleId
  · refine Prog.only_bind ?_ fun _ => Prog.only_bind (hwrite roleId) only_authorizationResult
    refine Prog.only_call_bind ⟨id, id, id⟩ fun selected => ?_
    refine Prog.only_bind (only_authorizationResult selected) fun existing => ?_
    cases existing with
    | false => exact Prog.only_throw _
    | true => exact Prog.only_pure ()

theorem idle_mutateUserRole (m : RoleMutation) (username roleName : String)
    (hmutate : ∀ userId name, (m.mutate cfg userId name).Only Idle) :
    (mutateUserRole cfg http m username roleName).Only Idle := by
  refine Prog.only_bind (idle_requirePermission _) fun actor => ?_
  refine Prog.only_bind (idle_getTargetUser _ _ _) fun target => ?_
  split
  · exact Prog.only_throw _
  · refine Prog.only_bind (Prog.only_tryCatch (hmutate _ _) fun error => ?_) fun changed => ?_
    · split
      · exact Prog.only_throw _
      · exact Prog.only_throw _
      · exact idle_audited_throw _ _
      · exact Prog.only_throw _
    · exact Prog.only_bind (idle_record _) fun _ => Prog.only_pure _

theorem idle_forwardRequest (serviceName path : String) (decision : RateLimit.RateLimitDecision) :
    (forwardRequest cfg http serviceName path decision).Only Idle := by
  refine Prog.only_bind (Prog.only_liftExcept _) fun baseUrl => ?_
  refine Prog.only_call_bind ⟨id, id, id⟩ fun read => ?_
  cases read with
  | error f => exact Prog.only_throw _
  | ok body =>
    refine Prog.only_bind ?_ fun result => Prog.only_call_bind ⟨id, id, id⟩ fun _ => Prog.only_pure _
    exact Prog.only_tryCatch (Prog.only_embed (fun _ => ⟨id, id, id⟩) _)
      (only_upstreamFailed fun _ _ => ⟨id, id, id⟩)

theorem idle_enforceProxyAuthorization (serviceName : String) (user : UserPublic) :
    (enforceProxyAuthorization cfg http serviceName user).Only Idle :=
  Prog.only_bind (Prog.only_liftExcept _) fun _ =>
    (auditing_enforcePermission _ _ _).mono idle_of_auditing

/-- A check whose decision is counted, and which a denial ends. -/
theorem not_issuing_limited {scope identity : String} {policy : RateLimit.RateLimitPolicy}
    {recovery : Raised → Action RateLimit.RateLimitDecision}
    {denied : RateLimit.RateLimitDecision → Action RateLimit.RateLimitDecision}
    (hrecovery : ∀ e, (recovery e).Only Idle) (hdenied : ∀ d, (denied d).Only Idle) :
    Prog.Only (fun op => ¬ Issuing op) (do
      let decision ← (RedisRateLimiter.check cfg identity policy).tryCatch recovery
      let _ ← invoke (.metric
        (.rateLimitDecision scope (if decision.allowed then "allowed" else "rejected")))
      if decision.allowed then pure decision else denied decision) := by
  refine Prog.only_bind (Prog.only_tryCatch (only_check_of id fun _ => id) fun error => ?_)
    fun decision => ?_
  · exact (hrecovery error).mono fun _ hop => hop.issuing
  · refine Prog.only_call_bind id fun _ => ?_
    split
    · exact Prog.only_pure _
    · exact (hdenied decision).mono fun _ hop => hop.issuing

theorem not_issuing_enforceLoginIpRateLimit :
    (enforceLoginIpRateLimit cfg http).Only fun op => ¬ Issuing op := by
  refine not_issuing_limited (fun error => ?_) fun _ => idle_audited_throw _ _
  split
  · exact Prog.only_call_bind ⟨id, id, id⟩ fun _ => idle_audited_throw _ _
  · exact Prog.only_throw _

theorem not_issuing_enforceProxyRateLimit (serviceName : String) (user : UserPublic) :
    (enforceProxyRateLimit cfg http serviceName user).Only fun op => ¬ Issuing op := by
  refine not_issuing_limited (fun error => ?_) fun _ => idle_audited_throw _ _
  split
  · exact Prog.only_call_bind ⟨id, id, id⟩ fun _ => idle_audited_throw _ _
  · exact Prog.only_throw _

theorem not_issuing_proxyRequest (serviceName path : String) :
    (proxyRequest cfg http serviceName path).Only fun op => ¬ Issuing op := by
  refine Prog.only_bind ?_ fun user => ?_
  · exact (auditing_getCurrentUser.mono idle_of_auditing).mono fun _ hop => hop.issuing
  · refine Prog.only_bind (not_issuing_enforceProxyRateLimit _ _) fun decision => ?_
    refine Prog.only_bind ?_ fun _ => ?_
    · exact (idle_enforceProxyAuthorization _ _).mono fun _ hop => hop.issuing
    · exact (idle_forwardRequest _ _ _).mono fun _ hop => hop.issuing

end Idle

section Logins

variable {cfg : Config} {http : HttpRequest} {h : History gateway} {username password : String}

/-- The service behind the register route stores a hash of the password it was given. -/
theorem wp_registration {normalized : String}
    (hnormalized : normalizeUsername cfg.unicode username = .ok normalized)
    {post : History gateway → Except Raised UserPublic → Prop} (hpost : ∀ h outcome, post h outcome) :
    (AuthenticationService.registerUser cfg normalized password).wp
      (CredentialOk cfg (.register http username password)) post [] := by
  rw [AuthenticationService.registerUser, Prog.wp_bind, Prog.wp_liftExcept]
  cases validatePassword password with
  | error e => exact hpost _ _
  | ok _ =>
    rw [Prog.sequel_ok, Prog.wp_call_bind]
    refine ⟨trivial, fun hashed => ?_⟩
    cases hashed with
    | error f => exact hpost _ _
    | ok hash =>
      change Prog.wp _ _ _ (UserRepository.createUser cfg normalized hash >>= fun storedUser =>
        pure (toPublicUser storedUser))
      rw [Prog.wp_bind, UserRepository.createUser, Prog.wp_bind, Prog.wp_liftExcept]
      cases hname : normalizeUsername cfg.unicode normalized with
      | error e => exact hpost _ _
      | ok name =>
        have hsame : name = normalized := by
          rw [normalizeUsername_fixed hnormalized] at hname
          cases hname
          rfl
        rw [Prog.sequel_ok]
        split
        · exact hpost _ _
        · rw [Prog.wp_call_bind]
          refine ⟨trivial, fun now => ?_⟩
          rw [Prog.wp_call_bind]
          refine ⟨trivial, fun id => ?_⟩
          rw [Prog.wp_call_bind]
          refine ⟨⟨http, username, password, rfl, ?_, ?_⟩, fun committed => ?_⟩
          · rw [hsame]
            exact hnormalized
          · simp [Performed]
          · refine wp_idle ?_ fun h' outcome _ => ?_
            · cases committed with
              | ok _ => exact Prog.only_pure _
              | error f =>
                cases f with
                | uniqueViolation => exact Prog.only_throw _
                | _ => exact only_orRaise _ _
            · cases outcome with
              | ok user => exact hpost _ _
              | error e => exact hpost _ _

theorem wp_registerUser_credentials :
    (registerUser cfg http username password).wp
      (CredentialOk cfg (.register http username password)) (fun _ _ => True) [] := by
  unfold registerUser
  split
  · next normalized _ hnormalized _ =>
    rw [Prog.wp_bind, Prog.wp_tryCatch]
    refine wp_registration hnormalized fun h₁ outcome => ?_
    cases outcome with
    | error e =>
      rw [Prog.recovery_error]
      refine wp_idle ?_ fun h₂ outcome _ => ?_
      · split
        · exact Prog.only_throw _
        · exact idle_audited_throw _ _
        · exact Prog.only_throw _
      · cases outcome with
        | error e => trivial
        | ok user =>
          exact wp_idle (Prog.only_bind (idle_record _) fun _ => Prog.only_pure _)
            fun _ _ _ => trivial
    | ok user =>
      rw [Prog.recovery_ok, Prog.sequel_ok]
      exact wp_idle (Prog.only_bind (idle_record _) fun _ => Prog.only_pure _)
        fun _ _ _ => trivial
  · trivial

/-- A user that a lookup under this username has returned. -/
theorem wp_lookup {q : ApiRequest}
    {post : History gateway → Except Raised (Option StoredUser) → Prop}
    (hother : ∀ h' outcome, h <+: h' → (∀ user, outcome ≠ .ok (some user)) → post h' outcome)
    (hsome : ∀ h' name record, h <+: h' → normalizeUsername cfg.unicode username = .ok name →
      Performed h' (.selectUser name) (.ok (some record)) →
      post h' (.ok (some (recordToStoredUser record)))) :
    (UserRepository.getByUsername cfg username).wp (CredentialOk cfg q) post h := by
  rw [UserRepository.getByUsername, Prog.wp_bind, Prog.wp_liftExcept]
  cases hn : normalizeUsername cfg.unicode username with
  | error e => exact hother h _ List.prefix_rfl (by simp)
  | ok name =>
    rw [Prog.sequel_ok, Prog.wp_call_bind]
    refine ⟨trivial, fun selected => ?_⟩
    have hle : h <+: h ++ [⟨.selectUser name, selected⟩] := List.prefix_append _ _
    cases selected with
    | error f => cases f <;> exact hother _ _ hle (by simp)
    | ok record =>
      cases record with
      | none => exact hother _ _ hle (by simp)
      | some record => exact hsome _ name record hle hn (performed_last _ _ _)

/-- A login goes on with the user whose password it has checked. -/
theorem wp_authenticateUser
    {post : History gateway → Except Raised StoredUser → Prop}
    (herror : ∀ h' e, h <+: h' → post h' (.error e))
    (hok : ∀ h' found replacement record, h <+: h' →
      Verified cfg username password found replacement h' →
      (record = found ∨ Reselected cfg found record h') →
      ∀ user, user.username = record.username → post h' (.ok user)) :
    (AuthenticationService.authenticateUser cfg username password).wp
      (CredentialOk cfg (.token http username password)) post h := by
  rw [AuthenticationService.authenticateUser, Prog.wp_bind, Prog.wp_tryCatch]
  have hunknown : ∀ h', h <+: h' → Prog.wp (CredentialOk cfg (.token http username password)) post
      h' (invoke (.verifyPassword password cfg.dummyPasswordHash) >>= fun verified =>
        AuthenticationService.threaded verified >>= fun _ =>
          throw (.authentication AuthenticationService.invalidCredentialsMessage)) := by
    intro h' hle
    refine ⟨trivial, fun verified => ?_⟩
    have hle' := hle.trans (List.prefix_append h' [⟨_, verified⟩])
    cases verified with
    | error f => exact herror _ _ hle'
    | ok b => exact herror _ _ hle'
  refine wp_lookup (fun h₁ outcome hle₁ hnone => ?_) fun h₁ name found hle₁ hn hselected => ?_
  · cases outcome with
    | error e =>
      rw [Prog.recovery_error]
      split
      · exact hunknown h₁ hle₁
      · exact herror h₁ _ hle₁
    | ok user =>
      cases user with
      | none => exact hunknown h₁ hle₁
      | some user => exact (hnone user rfl).elim
  · rw [Prog.recovery_ok, Prog.sequel_ok]
    dsimp only
    rw [Prog.wp_call_bind]
    refine ⟨trivial, fun verified => ?_⟩
    have hle₂ := hle₁.trans (List.prefix_append h₁ [⟨_, verified⟩])
    cases verified with
    | error f => exact herror _ _ hle₂
    | ok result =>
      obtain ⟨isValid, replacement⟩ := result
      change Prog.wp _ _ _ (if _ then _ else _)
      split
      · exact herror _ _ hle₂
      · next haccepted =>
        have hvalid : isValid = true := by
          cases isValid with
          | true => rfl
          | false => exact (haccepted (Or.inl rfl)).elim
        subst hvalid
        have hverified : Verified cfg username password found replacement
            (h₁ ++ [⟨.verifyAndUpdatePassword password found.hashedPassword,
              .ok (true, replacement)⟩]) :=
          ⟨⟨name, hn, hselected.mono (List.prefix_append _ _)⟩, performed_last _ _ _⟩
        cases replacement with
        | none => exact hok _ found none found hle₂ hverified (Or.inl rfl) _ rfl
        | some hash =>
          change Prog.wp _ _ _ (UserRepository.updatePasswordHash cfg found.username hash)
          rw [UserRepository.updatePasswordHash, Prog.wp_bind, Prog.wp_liftExcept]
          cases hn' : normalizeUsername cfg.unicode found.username with
          | error e => exact herror _ _ hle₂
          | ok name' =>
            rw [Prog.sequel_ok]
            split
            · exact herror _ _ hle₂
            · rw [Prog.wp_call_bind]
              refine ⟨trivial, fun selected => ?_⟩
              have hstep := List.prefix_append (h₁ ++ [⟨.verifyAndUpdatePassword password
                found.hashedPassword, .ok (true, some hash)⟩]) [⟨.selectUser name', selected⟩]
              have hle₃ := hle₂.trans hstep
              cases selected with
              | error f => cases f <;> exact herror _ _ hle₃
              | ok selected =>
                cases selected with
                | none => exact herror _ _ hle₃
                | some record =>
                  have hreselected : Reselected cfg found record _ :=
                    ⟨name', hn', performed_last (h₁ ++ [⟨.verifyAndUpdatePassword password
                      found.hashedPassword, .ok (true, some hash)⟩]) _ _⟩
                  change Prog.wp _ _ _ (invoke (.commitPasswordHash record.id hash) >>= _)
                  rw [Prog.wp_call_bind]
                  refine ⟨⟨http, username, password, found, record, rfl, hverified.mono hstep,
                    hreselected, rfl⟩, fun committed => ?_⟩
                  have hlast := List.prefix_append (h₁ ++ [⟨.verifyAndUpdatePassword password
                    found.hashedPassword, .ok (true, some hash)⟩] ++
                    [⟨.selectUser name', .ok (some record)⟩]) [⟨_, committed⟩]
                  cases committed with
                  | error f => cases f <;> exact herror _ _ (hle₃.trans hlast)
                  | ok _ =>
                    exact hok _ found (some hash) record (hle₃.trans hlast)
                      ((hverified.mono hstep).mono hlast) (Or.inr (hreselected.mono hlast)) _ rfl

/-- The token is signed for the user the login goes on with. -/
theorem wp_authenticateAndCreateResult
    {post : History gateway → Except Raised AuthenticationService.AuthenticationResult → Prop}
    (hpost : ∀ h' outcome, h <+: h' → post h' outcome) :
    (AuthenticationService.authenticateAndCreateResult cfg username password).wp
      (CredentialOk cfg (.token http username password)) post h := by
  rw [AuthenticationService.authenticateAndCreateResult, Prog.wp_bind]
  refine wp_authenticateUser (fun h₁ e hle₁ => hpost h₁ _ hle₁) ?_
  intro h₁ found replacement record hle₁ hverified hrecord user huser
  rw [Prog.sequel_ok, Prog.wp_bind]
  unfold createAccessToken
  dsimp only
  split
  · exact hpost h₁ _ hle₁
  · rw [Prog.wp_call_bind]
    refine ⟨trivial, fun issuedAt => ?_⟩
    have hle₂ := List.prefix_append h₁ [⟨.utcNow, issuedAt⟩]
    split
    · exact hpost _ _ (hle₁.trans hle₂)
    · rw [Prog.wp_call_bind]
      refine ⟨trivial, fun jti => ?_⟩
      have hle₃ := hle₂.trans (List.prefix_append _ [⟨.uuid4, jti⟩])
      rw [Prog.wp_call_bind]
      refine ⟨⟨http, username, password, found, replacement, record, rfl, hverified.mono hle₃, ?_,
        ?_⟩, fun encoded => ?_⟩
      · rcases hrecord with rfl | hreselected
        · exact Or.inl rfl
        · exact Or.inr (hreselected.mono hle₃)
      · rw [← huser]
        rfl
      · have hle₄ := hle₁.trans (hle₃.trans (List.prefix_append _ [⟨_, encoded⟩]))
        cases encoded with
        | ok token => exact hpost _ _ hle₄
        | error className => exact hpost _ _ hle₄

theorem wp_issueAccessToken_credentials :
    (issueAccessToken cfg http username password).wp
      (CredentialOk cfg (.token http username password)) (fun _ _ => True) [] := by
  unfold issueAccessToken
  rw [Prog.wp_bind]
  refine wp_not_issuing not_issuing_enforceLoginIpRateLimit fun h₁ limited _ => ?_
  cases limited with
  | error e => trivial
  | ok ipDecision =>
    rw [Prog.sequel_ok, Prog.wp_bind]
    refine wp_idle (idle_protected ?_ _) fun h₂ checked _ => ?_
    · exact only_decided ⟨id, id, id⟩ fun nowMs => .perform ⟨id, id, id⟩ fun raw => .finish _
    · cases checked with
      | error e => trivial
      | ok lockDecision =>
        rw [Prog.sequel_ok]
        split
        · exact wp_idle (idle_audited_throw _ _) fun _ _ _ => trivial
        · rw [Prog.wp_bind, authenticated, Prog.wp_tryCatch]
          refine wp_authenticateAndCreateResult fun h₃ outcome _ => ?_
          cases outcome with
          | error e =>
            rw [Prog.recovery_error]
            refine wp_idle ?_ fun h₄ recovered _ => ?_
            · split
              · exact idle_audited_throw _ _
              · exact idle_loginFailed _ _
              · exact Prog.only_throw _
            · cases recovered with
              | error e => trivial
              | ok result => exact wp_idle (idle_completed result) fun _ _ _ => trivial
          | ok result =>
            rw [Prog.recovery_ok, Prog.sequel_ok]
            exact wp_idle (idle_completed result) fun _ _ _ => trivial

theorem wp_route_credentials (q : ApiRequest) :
    (route cfg q).wp (CredentialOk cfg q) (fun _ _ => True) [] := by
  unfold route
  split
  · exact wp_registerUser_credentials
  · exact wp_issueAccessToken_credentials
  · refine wp_idle (Prog.only_bind ?_ fun _ => Prog.only_pure _) fun _ _ _ => trivial
    exact auditing_getCurrentUser.mono idle_of_auditing
  · exact wp_idle (idle_readUserRoles _) fun _ _ _ => trivial
  · refine wp_idle (idle_mutateUserRole _ _ _ fun _ _ => ?_) fun _ _ _ => trivial
    exact idle_mutation fun roleId => .perform ⟨id, id, id⟩ fun r => .finish _
  · refine wp_idle (idle_mutateUserRole _ _ _ fun _ _ => ?_) fun _ _ _ => trivial
    exact idle_mutation fun roleId => .perform ⟨id, id, id⟩ fun r => .finish _
  · split
    · exact wp_not_issuing (not_issuing_proxyRequest _ _) fun _ _ _ => trivial
    · trivial

end Logins

/-- The discipline of every route, as to the credentials it leaves behind. -/
def credentialDiscipline (cfg : Config) : Discipline (gatewaySystem cfg) where
  ok := CredentialOk cfg
  post _ _ _ := True
  handler := wp_route_credentials

end SecureGateway.Gateway
