import SecureGateway.Gateway.AuditMarks

/-!
# The parts of a handler that record nothing

The repositories, the limiter, the login protection and the executor: they record no event, and
what they raise is no answer to the client. Only the checks of a token and of a name answer.
-/
namespace SecureGateway.Gateway

open Interleaving Authorization

section Silence

variable {cfg : Config} {http : HttpRequest} {α : Type}

theorem unanswered_normalizeUsername {u : Python.Unicode} {username : String} {x : Raised}
    (h : Auth.normalizeUsername u username = .error x) : Unanswered x := by
  intro y hy
  subst hy
  simp only [Auth.normalizeUsername] at h
  split at h
  · cases h
  · split at h
    · cases h
    · split at h <;> cases h

theorem unmarked_orRaise {backend : Raised} (h : Unanswered backend) (f : DbFault) :
    Unmarked Unanswered (f.orRaise backend : Action α) := by
  cases f with
  | fault f committed => exact Prog.silent_throw (unanswered_raised f)
  | _ => exact Prog.silent_throw h

theorem unmarked_userResult (r : Except DbFault α) :
    Unmarked Unanswered (UserRepository.result r) := by
  cases r with
  | ok a => exact Prog.silent_pure a
  | error f =>
    apply unmarked_orRaise
    intro y hy
    cases hy

theorem unmarked_authorizationResult (r : Except DbFault α) :
    Unmarked Unanswered (AuthorizationRepository.result r) := by
  cases r with
  | ok a => exact Prog.silent_pure a
  | error f =>
    apply unmarked_orRaise
    intro y hy
    cases hy

theorem unmarked_getByUsername (username : String) :
    Unmarked Unanswered (UserRepository.getByUsername cfg username) := by
  apply Prog.silent_bind
  · exact Prog.silent_liftExcept fun x hx => unanswered_normalizeUsername hx
  · intro name
    refine Prog.silent_call_bind (fun r => rfl) fun selected => ?_
    exact Prog.silent_bind (unmarked_userResult selected) fun record => Prog.silent_pure _

theorem unmarked_threaded (r : Except Fault α) :
    Unmarked Unanswered (AuthenticationService.threaded r) := by
  cases r with
  | ok a => exact Prog.silent_pure a
  | error f => exact Prog.silent_throw (unanswered_raised f)

theorem unmarked_createUser (username hashedPassword : String) :
    Unmarked Unanswered (UserRepository.createUser cfg username hashedPassword) := by
  apply Prog.silent_bind
  · exact Prog.silent_liftExcept fun x hx => unanswered_normalizeUsername hx
  · intro name
    split
    · exact Prog.silent_throw (by rintro y ⟨⟩)
    · refine Prog.silent_call_bind (fun r => rfl) fun now => ?_
      refine Prog.silent_call_bind (fun r => rfl) fun id => ?_
      refine Prog.silent_call_bind (fun r => rfl) fun committed => ?_
      have hbackend : Unanswered UserRepository.backendError := by rintro y ⟨⟩
      match committed with
      | .ok _ => exact Prog.silent_pure _
      | .error .uniqueViolation => exact Prog.silent_throw (by rintro y ⟨⟩)
      | .error .integrityError | .error (.sqlalchemyError _) | .error (.osError _)
      | .error (.fault f _) => exact unmarked_orRaise hbackend _

theorem unmarked_updatePasswordHash (username hashedPassword : String) :
    Unmarked Unanswered (UserRepository.updatePasswordHash cfg username hashedPassword) := by
  apply Prog.silent_bind
  · exact Prog.silent_liftExcept fun x hx => unanswered_normalizeUsername hx
  · intro name
    split
    · exact Prog.silent_throw (by rintro y ⟨⟩)
    · refine Prog.silent_call_bind (fun r => rfl) fun selected => ?_
      refine Prog.silent_bind (unmarked_userResult selected) fun found => ?_
      cases found with
      | none => exact Prog.silent_throw (by rintro y ⟨⟩)
      | some record =>
        refine Prog.silent_call_bind (fun r => rfl) fun committed => ?_
        exact Prog.silent_bind (unmarked_userResult committed) fun _ => Prog.silent_pure _

theorem unmarked_registration (username password : String) :
    Unmarked Unanswered (AuthenticationService.registerUser cfg username password) := by
  apply Prog.silent_bind
  · refine Prog.silent_liftExcept fun x hx => ?_
    rintro y rfl
    simp only [Auth.validatePassword] at hx
    split at hx
    · cases hx
    · split at hx
      · cases hx
      · split at hx <;> cases hx
  · intro _
    refine Prog.silent_call_bind (fun r => rfl) fun hashed => ?_
    refine Prog.silent_bind (unmarked_threaded hashed) fun hash => ?_
    exact Prog.silent_bind (unmarked_createUser username hash) fun _ => Prog.silent_pure _

theorem unanswered_numericDate {value : Json} {claimName : String} {x : Raised}
    (h : numericDateToDatetime value claimName = .error x) : Unanswered x := by
  intro y hy
  subst hy
  simp only [numericDateToDatetime] at h
  split at h
  · split at h <;> cases h
  · cases h

theorem unanswered_claims {payload : Payload} {x : Raised}
    (h : claimsOfPayload cfg payload = .error x) : Unanswered x := by
  intro y hy
  subst hy
  simp only [claimsOfPayload] at h
  split at h
  · cases h
  · split at h
    · split at h
      · cases h
      · split at h
        · split at h
          · cases h
          · cases hissued : numericDateToDatetime (payload.get "iat") "iat" with
            | error z =>
              rw [hissued] at h
              cases h
              exact unanswered_numericDate hissued y rfl
            | ok issuedAt =>
              cases hexpires : numericDateToDatetime (payload.get "exp") "exp" with
              | error z =>
                rw [hissued, hexpires] at h
                cases h
                exact unanswered_numericDate hexpires y rfl
              | ok expiresAt =>
                rw [hissued, hexpires] at h
                change (if expiresAt ≤ issuedAt then _ else _) = _ at h
                split at h <;> cases h
        · cases h
    · cases h

theorem unmarked_decodeAccessToken (token : String) :
    Unmarked Unanswered (decodeAccessToken cfg token) := by
  unfold decodeAccessToken
  split
  · exact Prog.silent_throw (by rintro y ⟨⟩)
  · refine Prog.silent_call_bind (fun r => rfl) fun decoded => ?_
    match decoded with
    | .error none => exact Prog.silent_throw (by rintro y ⟨⟩)
    | .error (some className) => exact Prog.silent_throw (by rintro y ⟨⟩)
    | .ok payload => exact Prog.silent_liftExcept fun x hx => unanswered_claims hx

/-- A request without valid credentials is answered, with a status that is not audited. -/
theorem unmarked_getCurrentUser {must : ℤ → Prop} (h401 : ¬ must 401) (h503 : ¬ must 503) :
    Unmarked (Unaudited must) (getCurrentUser cfg http) := by
  have hunauthorized : Unaudited must unauthorizedException := by
    rintro y ⟨⟩
    exact h401
  unfold getCurrentUser
  split
  · apply Prog.silent_throw
    rintro y ⟨⟩
    exact h401
  · next token _ =>
    refine Prog.silent_bind ?_ fun storedUser => ?_
    · apply Prog.silent_tryCatch (P := Unanswered)
      · exact Prog.silent_bind (unmarked_decodeAccessToken token) fun claims =>
          unmarked_getByUsername claims.subject
      · intro x hx
        apply Prog.silent_throw
        cases x with
        | userRepositoryBackend message =>
          rintro y ⟨⟩
          exact h503
        | tokenValidation message => exact hunauthorized
        | usernamePolicy message => exact hunauthorized
        | _ => exact hx.unaudited
    · cases storedUser with
      | none => exact Prog.silent_throw hunauthorized
      | some user =>
        dsimp only
        split
        · exact Prog.silent_pure _
        · exact Prog.silent_throw hunauthorized

theorem unmarked_createAccessToken (subject : String) :
    Unmarked Unanswered (createAccessToken cfg subject) := by
  unfold createAccessToken
  dsimp only
  split
  · exact Prog.silent_throw (by rintro y ⟨⟩)
  · refine Prog.silent_call_bind (fun r => rfl) fun issuedAt => ?_
    split
    · exact Prog.silent_throw (by rintro y ⟨⟩)
    · refine Prog.silent_call_bind (fun r => rfl) fun jti => ?_
      refine Prog.silent_call_bind (fun r => rfl) fun encoded => ?_
      cases encoded with
      | ok token => exact Prog.silent_pure token
      | error className => exact Prog.silent_throw (by rintro y ⟨⟩)

theorem unmarked_authenticateUser (username password : String) :
    Unmarked Unanswered (AuthenticationService.authenticateUser cfg username password) := by
  refine Prog.silent_bind (Prog.silent_tryCatch (unmarked_getByUsername username) fun x hx => ?_)
    fun storedUser => ?_
  · split
    · exact Prog.silent_pure none
    · exact Prog.silent_throw hx
  · cases storedUser with
    | none =>
      refine Prog.silent_call_bind (fun r => rfl) fun verified => ?_
      refine Prog.silent_bind (unmarked_threaded verified) fun _ => ?_
      exact Prog.silent_throw (by rintro y ⟨⟩)
    | some user =>
      refine Prog.silent_call_bind (fun r => rfl) fun verified => ?_
      refine Prog.silent_bind (unmarked_threaded verified) fun result => ?_
      dsimp only
      split
      · exact Prog.silent_throw (by rintro y ⟨⟩)
      · split
        · exact Prog.silent_pure _
        · exact unmarked_updatePasswordHash _ _

theorem unmarked_authenticateAndCreateResult (username password : String) :
    Unmarked Unanswered
      (AuthenticationService.authenticateAndCreateResult cfg username password) := by
  refine Prog.silent_bind (unmarked_authenticateUser username password) fun user => ?_
  exact Prog.silent_bind (unmarked_createAccessToken _) fun _ => Prog.silent_pure _

theorem unmarked_check (identity : String) (policy : RateLimit.RateLimitPolicy) :
    Unmarked Unanswered (RedisRateLimiter.check cfg identity policy) := by
  unfold RedisRateLimiter.check
  dsimp only
  split
  · exact Prog.silent_throw (by rintro y ⟨⟩)
  · refine Prog.silent_call_bind (fun r => rfl) fun nowMs => ?_
    split
    · exact Prog.silent_throw (by rintro y ⟨⟩)
    · refine Prog.silent_call_bind (fun r => rfl) fun raw => ?_
      match raw with
      | .error ⟨none, _⟩ => exact Prog.silent_throw (by rintro y ⟨⟩)
      | .error ⟨some f, _⟩ => exact Prog.silent_throw (unanswered_raised f)
      | .ok r =>
        dsimp only
        split
        · exact Prog.silent_pure _
        · exact Prog.silent_throw (by rintro y ⟨⟩)

theorem unmarked_evaluated (r : Except RedisFault α) :
    Unmarked Unanswered (RedisLoginProtection.evaluated r) := by
  match r with
  | .ok a => exact Prog.silent_pure a
  | .error ⟨none, _⟩ => exact Prog.silent_throw (by rintro y ⟨⟩)
  | .error ⟨some f, _⟩ => exact Prog.silent_throw (unanswered_raised f)

/-- A script of the login protection, asked at the time of the clock, and its reply parsed. -/
theorem unmarked_asked {ask : ℤ → Action (Except RedisFault Login.LoginReply)}
    (hask : ∀ nowMs, Unmarked Unanswered (ask nowMs)) :
    Unmarked Unanswered (RedisLoginProtection.readClock >>= fun nowMs => ask nowMs >>= fun raw =>
      RedisLoginProtection.evaluated raw >>= fun answer =>
        Prog.liftExcept (RedisLoginProtection.parseDecision answer) :
      Action LoginProtectionDecision) := by
  apply Prog.silent_bind
  · refine Prog.silent_call_bind (fun r => rfl) fun nowMs => ?_
    split
    · exact Prog.silent_throw (by rintro y ⟨⟩)
    · exact Prog.silent_pure _
  · intro nowMs
    refine Prog.silent_bind (hask nowMs) fun raw => ?_
    refine Prog.silent_bind (unmarked_evaluated raw) fun answer => ?_
    refine Prog.silent_liftExcept fun x hx => ?_
    rintro y rfl
    simp only [RedisLoginProtection.parseDecision] at hx
    split at hx
    · cases hx
    · split at hx
      · cases hx
      · split at hx <;> cases hx

theorem unmarked_checkLock (identifier : String) (policy : Login.LoginProtectionPolicy) :
    Unmarked Unanswered (RedisLoginProtection.checkLock cfg identifier policy) :=
  unmarked_asked fun _ => Prog.silent_call fun _ => rfl

theorem unmarked_recordFailure (identifier : String) (policy : Login.LoginProtectionPolicy) :
    Unmarked Unanswered (RedisLoginProtection.recordFailure cfg identifier policy) :=
  unmarked_asked fun _ => Prog.silent_call fun _ => rfl

theorem unmarked_reset (identifier : String) (policy : Login.LoginProtectionPolicy) :
    Unmarked Unanswered (RedisLoginProtection.reset cfg identifier policy) :=
  Prog.silent_call_bind (fun _ => rfl) fun raw => unmarked_evaluated raw

theorem unanswered_normalizePermissionCode {u : Python.Unicode} {code : String} {x : Raised}
    (h : normalizePermissionCode u code = .error x) : Unanswered x := by
  rintro y rfl
  simp only [normalizePermissionCode] at h
  split at h
  · cases h
  · split at h
    · cases h
    · split at h <;> cases h

theorem unanswered_normalizeRoleName {u : Python.Unicode} {name : String} {x : Raised}
    (h : normalizeRoleName u name = .error x) : Unanswered x := by
  rintro y rfl
  simp only [normalizeRoleName] at h
  split at h
  · cases h
  · split at h
    · cases h
    · split at h <;> cases h

theorem unmarked_requirePermission (userId : Uuid) (code : String) :
    Unmarked Unanswered (AuthorizationService.requirePermission cfg userId code) := by
  refine Prog.silent_bind ?_ fun allowed => ?_
  · apply Prog.silent_bind
    · exact Prog.silent_liftExcept fun x hx => unanswered_normalizePermissionCode hx
    · intro name
      apply Prog.silent_bind
      · exact Prog.silent_liftExcept fun x hx => unanswered_normalizePermissionCode hx
      · intro name'
        exact Prog.silent_call_bind (fun r => rfl) fun selected =>
          unmarked_authorizationResult selected
  · split
    · exact Prog.silent_pure ()
    · exact Prog.silent_throw (by rintro y ⟨⟩)

/-- The statement of a role mutation, after the lookups of the role and of the user. -/
theorem unmarked_mutation {userId : Uuid} {roleName : String}
    {write : Uuid → Action (Except DbFault Bool)}
    (hwrite : ∀ roleId, Unmarked Unanswered (write roleId)) :
    Unmarked Unanswered (Prog.liftExcept (normalizeRoleName cfg.unicode roleName) >>= fun name =>
      AuthorizationRepository.getRoleId cfg name >>= fun roleId =>
        AuthorizationRepository.requireUser userId >>= fun _ =>
          write roleId >>= fun r => AuthorizationRepository.result r : Action Bool) := by
  apply Prog.silent_bind
  · exact Prog.silent_liftExcept fun x hx => unanswered_normalizeRoleName hx
  · intro name
    refine Prog.silent_bind ?_ fun roleId => ?_
    · apply Prog.silent_bind
      · exact Prog.silent_liftExcept fun x hx => unanswered_normalizeRoleName hx
      · intro name'
        refine Prog.silent_call_bind (fun r => rfl) fun selected => ?_
        refine Prog.silent_bind (unmarked_authorizationResult selected) fun found => ?_
        cases found with
        | none => exact Prog.silent_throw (by rintro y ⟨⟩)
        | some roleId => exact Prog.silent_pure roleId
    · refine Prog.silent_bind ?_ fun _ => ?_
      · refine Prog.silent_call_bind (fun r => rfl) fun selected => ?_
        refine Prog.silent_bind (unmarked_authorizationResult selected) fun existing => ?_
        cases existing with
        | false => exact Prog.silent_throw (by rintro y ⟨⟩)
        | true => exact Prog.silent_pure ()
      · exact Prog.silent_bind (hwrite roleId) fun r => unmarked_authorizationResult r

theorem unmarked_assignRole (userId : Uuid) (roleName : String) :
    Unmarked Unanswered (AuthorizationService.assignRole cfg userId roleName) :=
  unmarked_mutation fun _ => Prog.silent_call fun _ => rfl

theorem unmarked_removeRole (userId : Uuid) (roleName : String) :
    Unmarked Unanswered (AuthorizationService.removeRole cfg userId roleName) :=
  unmarked_mutation fun _ => Prog.silent_call fun _ => rfl

section Executor

open Resilience ResilientUpstreamExecutor

variable {x : ResilientUpstreamExecutor} {q : UpstreamRequest} {permit : CircuitPermit}

/-- Nothing of a call upstream is audited. -/
abbrev unseen : Exchange upstream → List AuditMark := fun _ => []

theorem silent_emitEvent (event : UpstreamResilienceEvent) :
    (x.emitEvent q.serviceName event).Silent unseen Unanswered := by
  unfold emitEvent
  split
  · exact Prog.silent_call_bind (fun _ => rfl) fun _ => Prog.silent_pure ()
  · exact Prog.silent_pure ()

theorem silent_settle (settlement : Settlement) (event : UpstreamResilienceEvent) :
    (x.settle q.serviceName permit settlement event).Silent unseen Unanswered := by
  refine Prog.silent_call_bind (fun _ => rfl) fun changed => ?_
  cases changed with
  | false => exact Prog.silent_pure ()
  | true => exact silent_emitEvent event

theorem silent_pause (delay : ℚ) : (pause delay).Silent unseen Unanswered := by
  unfold pause
  split
  · refine Prog.silent_call_bind (fun _ => rfl) fun wakeup => ?_
    cases wakeup with
    | completed => exact Prog.silent_pure ()
    | cancelled => exact Prog.silent_throw (by rintro y ⟨⟩)
  · exact Prog.silent_pure ()

theorem silent_attemptLoop (remaining attempts : ℕ) :
    (x.attemptLoop q permit remaining attempts).Silent unseen Unanswered := by
  induction remaining generalizing attempts with
  | zero => exact Prog.silent_throw (by rintro y ⟨⟩)
  | succ remaining ih =>
    rw [attemptLoop]
    refine Prog.silent_call_bind (fun _ => rfl) fun _ => ?_
    refine Prog.silent_call_bind (fun _ => rfl) fun reply => ?_
    match reply with
    | .error .cancelled => exact Prog.silent_throw (by rintro y ⟨⟩)
    | .error (.other className) => exact Prog.silent_throw (by rintro y ⟨⟩)
    | .error (.requestError error) =>
      dsimp only
      split
      · refine Prog.silent_bind (silent_emitEvent _) fun _ => ?_
        exact Prog.silent_bind (silent_pause _) fun _ => ih (attempts + 1)
      · have hraised : Unanswered (.requestError error) := by rintro y ⟨⟩
        split
        · exact Prog.silent_bind (silent_settle _ _) fun _ => Prog.silent_throw hraised
        · exact Prog.silent_bind (silent_settle _ _) fun _ => Prog.silent_throw hraised
    | .ok response =>
      dsimp only
      split
      · exact Prog.silent_bind (silent_settle _ _) fun _ => Prog.silent_pure _
      · exact Prog.silent_bind (silent_settle _ _) fun _ => Prog.silent_pure _

theorem silent_execute : (x.execute q).Silent unseen Unanswered := by
  unfold execute
  split
  · refine Prog.silent_call_bind (fun _ => rfl) fun admission => ?_
    cases admission with
    | error e =>
      refine Prog.silent_bind (silent_emitEvent _) fun _ => ?_
      exact Prog.silent_throw (by rintro y ⟨⟩)
    | ok permit =>
      refine Prog.silent_tryCatch (silent_attemptLoop _ 0) fun error herror => ?_
      split
      · refine Prog.silent_bind (silent_settle _ _) fun _ => ?_
        exact Prog.silent_throw (by rintro y ⟨⟩)
      · exact Prog.silent_throw herror
  · exact Prog.silent_throw (by rintro y ⟨⟩)

end Executor

end Silence

end SecureGateway.Gateway
