import SecureGateway.Auth.Tokens
import SecureGateway.Gateway.System

/-!
# Tokens and their users

A token names a user by the username, which is normalised when the row is stored, stripped when
the token is made and normalised again when the token is presented.
-/
namespace SecureGateway.Gateway

open Interleaving Auth

/-- What one process of the gateway is given: settings that it accepts, PyJWT under them, and a
reachable user table. -/
structure Process (jwt : PyJWT) (σ : Type) where
  cfg : Config
  settings : AuthSettings
  loaded : ∃ decimal getenv, loadAuthSettings decimal getenv = .ok settings
  issuer : cfg.issuer = settings.issuer
  audience : cfg.audience = settings.audience
  minutes : cfg.accessTokenMinutes = settings.accessTokenMinutes
  parseUuid_str : ∀ u : Uuid, cfg.parseUuid u.str = some u
  env : Environment gateway σ
  clock : σ → Timestamp
  db : σ → Database
  clock_range : ∀ s, earliestTimestamp ≤ clock s ∧ clock s ≤ latestTimestamp
  utcNow : ∀ s, (env s .utcNow).1 = clock s
  encodes : ∀ s p, (env s (.jwtEncode p)).1 = jwt.encode settings.secretKey p
  decodes : ∀ s t, (env s (.jwtDecode t)).1 =
    jwt.decode settings.secretKey settings.audience settings.issuer (clock s) t
  selects : ∀ s n, (env s (.selectUser n)).1 = .ok ((db s).userByUsername n)

namespace Process

variable {jwt : PyJWT} {σ τ : Type}

theorem valid (p : Process jwt σ) : p.settings.Valid := by
  obtain ⟨_, _, h⟩ := p.loaded
  exact loadAuthSettings_valid h

/-- Two processes that accept each other's tokens. -/
def Agrees (p : Process jwt σ) (q : Process jwt τ) : Prop :=
  p.settings.secretKey = q.settings.secretKey ∧ p.settings.issuer = q.settings.issuer ∧
    p.settings.audience = q.settings.audience

/-- The `exp` claim of a token, in seconds. -/
def expClaim (p : Process jwt σ) (issuedAt : Timestamp) : ℤ :=
  (issuedAt + p.settings.accessTokenMinutes * 60000000) / 1000000

/-- The claims signed for a subject. -/
def claims (p : Process jwt σ) (subject : String) (issuedAt : Timestamp) (jti : Uuid) :
    TokenClaims :=
  ⟨subject, issuedAt / 1000000, p.expClaim issuedAt, p.settings.issuer, p.settings.audience,
    jti.str, "access"⟩

end Process

section Issue

variable {jwt : PyJWT} {σ : Type} {p : Process jwt σ} {s : σ} {token : String}

theorem accessTokenPayload_claims (p : Process jwt σ) (subject : String) (issuedAt : Timestamp)
    (jti : Uuid) :
    accessTokenPayload p.cfg subject issuedAt (issuedAt + p.cfg.accessTokenMinutes * 60000000)
      jti = (p.claims subject issuedAt jti).payload := by
  simp only [accessTokenPayload, p.issuer, p.audience, p.minutes]
  rfl

/-- What the claims of a token are, from the clock and the identifier that were drawn for it. -/
theorem createAccessToken_ok {subject : String}
    (h : ((createAccessToken p.cfg subject).exec p.env s).outcome = .ok token) :
    Python.strip subject ≠ "" ∧
      p.clock s + p.settings.accessTokenMinutes * 60000000 ≤ latestTimestamp ∧
      ⟨.utcNow, p.clock s⟩ ∈ ((createAccessToken p.cfg subject).exec p.env s).history ∧
      ∃ jti, jwt.encode p.settings.secretKey
        (p.claims (Python.strip subject) (p.clock s) jti).payload = .ok token := by
  by_cases hblank : Python.strip subject = ""
  · rw [createAccessToken, if_pos hblank] at h
    cases h
  rw [createAccessToken, if_neg hblank] at h ⊢
  obtain ⟨issuedAt, hnow, h, hhistory⟩ := Prog.exec_bind_inv h
  have hclock : issuedAt = p.clock s := by
    cases hnow
    exact p.utcNow s
  subst hclock
  rw [hhistory]
  by_cases hlate : p.clock s + p.cfg.accessTokenMinutes * 60000000 > latestTimestamp
  · rw [if_pos hlate] at h
    cases h
  rw [if_neg hlate] at h
  obtain ⟨jti, -, h, -⟩ := Prog.exec_bind_inv h
  obtain ⟨encoded, hencoded, h, -⟩ := Prog.exec_bind_inv h
  rw [accessTokenPayload_claims] at hencoded
  refine ⟨hblank, ?_, ?_, jti, ?_⟩
  · rw [← p.minutes]
    exact not_lt.mp hlate
  · have hx : (⟨.utcNow, (p.env s .utcNow).1⟩ : Exchange gateway) ∈
        ((invoke .utcNow : Action Timestamp).exec p.env s).history := List.mem_singleton.mpr rfl
    rw [p.utcNow s] at hx
    exact List.mem_append_left _ hx
  · cases encoded with
    | error className => cases h
    | ok t =>
      cases h
      exact (p.encodes _ _).symm.trans (Except.ok.inj hencoded)

/-- The token of a successful login is signed for the user that it returns. -/
theorem authenticateAndCreateResult_ok {username password : String}
    {result : AuthenticationService.AuthenticationResult}
    (h : ((AuthenticationService.authenticateAndCreateResult p.cfg username password).exec p.env
      s).outcome = .ok result) :
    ∃ moment jti, Python.strip result.user.username ≠ "" ∧
      p.clock moment + p.settings.accessTokenMinutes * 60000000 ≤ latestTimestamp ∧
      ⟨.utcNow, p.clock moment⟩ ∈ ((AuthenticationService.authenticateAndCreateResult p.cfg
        username password).exec p.env s).history ∧
      jwt.encode p.settings.secretKey
        (p.claims (Python.strip result.user.username) (p.clock moment) jti).payload =
          .ok result.accessToken := by
  rw [AuthenticationService.authenticateAndCreateResult] at h ⊢
  obtain ⟨stored, -, h, hhistory⟩ := Prog.exec_bind_inv h
  rw [hhistory]
  obtain ⟨token, htoken, h, hhistory⟩ := Prog.exec_bind_inv h
  rw [hhistory]
  cases h
  obtain ⟨hblank, hlate, hread, jti, hjti⟩ := createAccessToken_ok htoken
  refine ⟨_, jti, hblank, hlate, ?_, hjti⟩
  exact List.mem_append_right _ (List.mem_append_left _ hread)

end Issue

section Presentation

variable {jwt : PyJWT} {σ : Type} {p : Process jwt σ} {s : σ} {token : String}
  {http : HttpRequest}

/-- `decode_access_token` asks PyJWT and nothing else. -/
theorem decodeAccessToken_outcome (hblank : Python.strip token ≠ "") :
    ((decodeAccessToken p.cfg token).exec p.env s).state = (p.env s (.jwtDecode token)).2 ∧
      ((decodeAccessToken p.cfg token).exec p.env s).outcome =
        match (p.env s (.jwtDecode token)).1 with
        | .error none => .error (.tokenValidation "Invalid or expired access token.")
        | .error (some className) => .error (.other className)
        | .ok payload => claimsOfPayload p.cfg payload := by
  rw [decodeAccessToken, if_neg hblank]
  change ((match (p.env s (.jwtDecode token)).1 with
    | .error none => throw (.tokenValidation "Invalid or expired access token.")
    | .error (some className) => throw (.other className)
    | .ok payload => Prog.liftExcept (claimsOfPayload p.cfg payload) :
      Action AccessTokenClaims).exec p.env (p.env s (.jwtDecode token)).2).state = _ ∧
    ((match (p.env s (.jwtDecode token)).1 with
    | .error none => throw (.tokenValidation "Invalid or expired access token.")
    | .error (some className) => throw (.other className)
    | .ok payload => Prog.liftExcept (claimsOfPayload p.cfg payload) :
      Action AccessTokenClaims).exec p.env (p.env s (.jwtDecode token)).2).outcome = _
  split <;> exact ⟨rfl, rfl⟩

/-- The `try` of `get_current_user`. -/
def identify (cfg : Config) (token : String) : Action (Option StoredUser) := do
  let claims ← decodeAccessToken cfg token
  UserRepository.getByUsername cfg claims.subject

/-- The end of `get_current_user`, from the row that was found. -/
def admitted : Option StoredUser → Except Raised UserPublic
  | none => .error unauthorizedException
  | some user => if user.isActive then .ok (toPublicUser user) else .error unauthorizedException

theorem getCurrentUser_error {x : Raised} (hbearer : http.bearerToken = some token)
    (h : ((identify p.cfg token).exec p.env s).outcome = .error x) :
    ((getCurrentUser p.cfg http).exec p.env s).outcome = .error (currentUserError x) := by
  have htry : (((identify p.cfg token).tryCatch fun error =>
      throw (currentUserError error)).exec p.env s).outcome = .error (currentUserError x) := by
    rw [Prog.exec_tryCatch_error h]
    rfl
  rw [identify] at htry
  simp only [getCurrentUser, hbearer]
  rw [Prog.exec_bind_error htry]

theorem getCurrentUser_found {found : Option StoredUser}
    (hbearer : http.bearerToken = some token)
    (h : ((identify p.cfg token).exec p.env s).outcome = .ok found) :
    ((getCurrentUser p.cfg http).exec p.env s).outcome = admitted found := by
  have htry : (((identify p.cfg token).tryCatch fun error =>
      throw (currentUserError error)).exec p.env s).outcome = .ok found := by
    rw [Prog.exec_tryCatch_ok h, h]
  rw [identify] at htry
  simp only [getCurrentUser, hbearer]
  rw [Prog.exec_bind_ok htry]
  cases found with
  | none => rfl
  | some user => cases hactive : user.isActive <;> simp [admitted, hactive]

/-- A token that PyJWT refuses ends in the 401 of `unauthorized_exception`. -/
theorem getCurrentUser_refused (hbearer : http.bearerToken = some token)
    (hblank : Python.strip token ≠ "") (hdecode : (p.env s (.jwtDecode token)).1 = .error none) :
    ((getCurrentUser p.cfg http).exec p.env s).outcome = .error unauthorizedException := by
  have hclaims := (decodeAccessToken_outcome (s := s) hblank (p := p)).2
  rw [hdecode] at hclaims
  have herror : ((identify p.cfg token).exec p.env s).outcome =
      .error (.tokenValidation "Invalid or expired access token.") := by
    rw [identify, Prog.exec_bind_error hclaims]
  exact getCurrentUser_error hbearer herror

/-- A token that PyJWT accepts is as good as the row under its subject. -/
theorem getCurrentUser_accepted {payload : Payload} {claims : AccessTokenClaims}
    {name : String} (hbearer : http.bearerToken = some token)
    (hblank : Python.strip token ≠ "") (hdecode : (p.env s (.jwtDecode token)).1 = .ok payload)
    (hclaims : claimsOfPayload p.cfg payload = .ok claims)
    (hname : normalizeUsername p.cfg.unicode claims.subject = .ok name) :
    ((getCurrentUser p.cfg http).exec p.env s).outcome =
      admitted (((p.db (p.env s (.jwtDecode token)).2).userByUsername name).map
        recordToStoredUser) := by
  obtain ⟨hstate, hdecoded⟩ := decodeAccessToken_outcome (s := s) hblank (p := p)
  rw [hdecode] at hdecoded
  refine getCurrentUser_found hbearer ?_
  rw [identify, Prog.exec_bind_ok (hdecoded.trans hclaims), hstate, UserRepository.getByUsername,
    hname, Prog.liftExcept_ok_bind]
  have hselected := p.selects (p.env s (.jwtDecode token)).2 name
  change ((UserRepository.result (p.env (p.env s (.jwtDecode token)).2 (.selectUser name)).1 >>=
    fun record => pure (record.map recordToStoredUser)).exec p.env _).outcome = _
  rw [hselected]
  rfl

end Presentation

section Users

/-- What `create_user` stores is a fixed point of the two normalisations of the subject. -/
theorem createUser_username {cfg : Config} {σ : Type} {env : Environment gateway σ} {s : σ}
    {username hashedPassword : String} {user : StoredUser}
    (h : ((UserRepository.createUser cfg username hashedPassword).exec env s).outcome =
      .ok user) : normalizeUsername cfg.unicode username = .ok user.username := by
  rw [UserRepository.createUser] at h
  obtain ⟨name, hname, h, -⟩ := Prog.exec_bind_inv h
  by_cases hblank : Python.strip hashedPassword = ""
  · rw [if_pos hblank] at h
    cases h
  rw [if_neg hblank] at h
  obtain ⟨now, -, h, -⟩ := Prog.exec_bind_inv h
  obtain ⟨id, -, h, -⟩ := Prog.exec_bind_inv h
  obtain ⟨committed, -, h, -⟩ := Prog.exec_bind_inv h
  cases committed with
  | ok u =>
    cases h
    exact hname
  | error f => cases f <;> cases h

theorem strip_username {u : Python.Unicode} {s name : String}
    (h : normalizeUsername u s = .ok name) : Python.strip name = name :=
  Python.strip_of_plain (username_plain (normalized_plain h).1)

end Users

section RoundTrip

variable {jwt : PyJWT} {σ τ : Type} {p : Process jwt σ} {q : Process jwt τ} {s : τ}
  {subject token name : String} {issuedAt : Timestamp} {jti : Uuid} {http : HttpRequest}

theorem expClaim_eq (p : Process jwt σ) (issuedAt : Timestamp) :
    p.expClaim issuedAt = issuedAt / 1000000 + p.settings.accessTokenMinutes * 60 := by
  have hsplit : issuedAt + p.settings.accessTokenMinutes * 60000000 =
      issuedAt + p.settings.accessTokenMinutes * 60 * 1000000 := by ring
  rw [Process.expClaim, hsplit, Int.add_mul_ediv_right _ _ (by decide)]

/-- In time and under the same settings, the claims come back as they were signed. -/
theorem presented_in_time
    (hsigned : jwt.encode p.settings.secretKey (p.claims subject issuedAt jti).payload =
      .ok token) (hagrees : q.Agrees p) (hfrom : issuedAt ≤ q.clock s)
    (huntil : q.clock s < p.expClaim issuedAt * 1000000) :
    (q.env s (.jwtDecode token)).1 = .ok (p.claims subject issuedAt jti).payload := by
  obtain ⟨hsecret, hissuer, haudience⟩ := hagrees
  have hiat : issuedAt / 1000000 * 1000000 ≤ q.clock s :=
    (Int.ediv_mul_le issuedAt (by decide)).trans hfrom
  rw [q.decodes, hsecret, hissuer, haudience]
  exact jwt.decode_encode hsigned p.valid.audience hiat huntil

theorem presented_expired
    (hsigned : jwt.encode p.settings.secretKey (p.claims subject issuedAt jti).payload =
      .ok token) (hlate : p.expClaim issuedAt * 1000000 ≤ q.clock s) :
    (q.env s (.jwtDecode token)).1 = .error none := by
  rw [q.decodes]
  exact jwt.decode_refused hsigned (.inr (.inr (.inr hlate)))

theorem presented_elsewhere
    (hsigned : jwt.encode p.settings.secretKey (p.claims subject issuedAt jti).payload =
      .ok token) (hother : ¬ q.Agrees p) : (q.env s (.jwtDecode token)).1 = .error none := by
  rw [q.decodes]
  refine jwt.decode_refused hsigned ?_
  by_contra hsame
  simp only [not_or, not_not, ne_eq] at hsame
  exact hother ⟨hsame.1, hsame.2.2.1.symm, hsame.2.1.symm⟩

/-- What a token comes to that `p` issued for `user` and a client presents to `q`, where `db` is
the user table that the lookup meets. -/
structure Honoured (p : Process jwt σ) (issuedAt : Timestamp) (user : StoredUser)
    (q : Process jwt τ) (s : τ) (db : Database) (outcome : Except Raised UserPublic) : Prop where
  resolves : q.Agrees p → q.clock s < p.expClaim issuedAt * 1000000 →
    ∀ r ∈ db.users, r.id = user.id → r.username = user.username → r.isActive = true →
      ∃ u, outcome = .ok u ∧ u.id = user.id
  no_other : ∀ u, outcome = .ok u → u.username = user.username ∧
    ((∃ r ∈ db.users, r.id = user.id ∧ r.username = user.username) → u.id = user.id)
  no_active_row : (∀ r ∈ db.users, r.username = user.username → r.isActive = false) →
    outcome = .error unauthorizedException
  expired : p.expClaim issuedAt * 1000000 ≤ q.clock s → outcome = .error unauthorizedException
  elsewhere : ¬ q.Agrees p → outcome = .error unauthorizedException

/-- A refused token is one that was not presented in time to a process that accepts it. -/
theorem honoured_of_refused {user : StoredUser} {db : Database}
    (hwhy : ¬ (q.Agrees p ∧ q.clock s < p.expClaim issuedAt * 1000000)) :
    Honoured p issuedAt user q s db (.error unauthorizedException) where
  resolves hagrees huntil := absurd ⟨hagrees, huntil⟩ hwhy
  no_other := by
    intro u hu
    cases hu
  no_active_row _ := rfl
  expired _ := rfl
  elsewhere _ := rfl

/-- The row under the username decides about a token that was accepted. -/
theorem honoured_of_accepted {user : StoredUser} {db : Database} (hagrees : q.Agrees p)
    (huntil : q.clock s < p.expClaim issuedAt * 1000000)
    (hunique : (db.users.map (·.username)).Nodup) :
    Honoured p issuedAt user q s db
      (admitted ((db.userByUsername user.username).map recordToStoredUser)) where
  resolves := by
    intro _ _ r hr hid hname hactive
    rw [← hname, Database.userByUsername_of_mem hunique hr]
    exact ⟨_, if_pos hactive, hid⟩
  no_other := by
    intro u hu
    cases hfind : db.userByUsername user.username with
    | none =>
      rw [hfind] at hu
      cases hu
    | some r =>
      have hname : r.username = user.username := by simpa using List.find?_some hfind
      rw [hfind] at hu
      simp only [admitted, Option.map_some] at hu
      split at hu <;> cases hu
      refine ⟨hname, ?_⟩
      rintro ⟨r', hr', hid, hname'⟩
      rw [← hname', Database.userByUsername_of_mem hunique hr'] at hfind
      cases hfind
      exact hid
  no_active_row := by
    intro hinactive
    cases hfind : db.userByUsername user.username with
    | none => rfl
    | some r =>
      have hname : r.username = user.username := by simpa using List.find?_some hfind
      have hrow := hinactive r (List.mem_of_find?_eq_some hfind) hname
      simp [admitted, recordToStoredUser, hrow]
  expired hlate := absurd hlate (not_le.mpr huntil)
  elsewhere hother := absurd hagrees hother

/-- The claims of an issued token pass the checks that follow PyJWT's. -/
theorem claimsOfPayload_issued (jti : Uuid) (hsubject : Python.strip subject ≠ "")
    (hmin : earliestTimestamp ≤ issuedAt)
    (hmax : issuedAt + p.settings.accessTokenMinutes * 60000000 ≤ latestTimestamp) :
    ∃ claims, claimsOfPayload q.cfg (p.claims subject issuedAt jti).payload = .ok claims ∧
      claims.subject = subject := by
  have hiat : earliestTimestamp ≤ issuedAt / 1000000 * 1000000 := by
    have hwhole : earliestTimestamp = earliestTimestamp / 1000000 * 1000000 := by decide
    rw [hwhole]
    exact Int.mul_le_mul_of_nonneg_right (Int.ediv_le_ediv (by decide) hmin) (by decide)
  have hexp : p.expClaim issuedAt * 1000000 ≤ latestTimestamp :=
    (Int.ediv_mul_le _ (by decide)).trans hmax
  have hlt : issuedAt / 1000000 < p.expClaim issuedAt := by
    have := p.valid.minutes.1
    rw [expClaim_eq]
    exact Int.lt_add_of_pos_right _ (by omega)
  exact ⟨_, claimsOfPayload_payload q.cfg rfl hsubject (q.parseUuid_str jti) hiat hlt hexp, rfl⟩

/-- From its issue on, a token of a stored user is honoured for the row of that user, as long as
the row is there, and for nobody under another name. -/
theorem token_round_trip {σ₀ : Type} (cfg₀ : Config) (env₀ : Environment gateway σ₀) (s₀ : σ₀)
    (username₀ hashedPassword : String) (user : StoredUser)
    (hstored : ((UserRepository.createUser cfg₀ username₀ hashedPassword).exec env₀ s₀).outcome =
      .ok user)
    (p : Process jwt σ) (s₁ : σ) (username password token : String)
    (hissued : ((AuthenticationService.authenticateAndCreateResult p.cfg username password).exec
      p.env s₁).outcome = .ok ⟨token, toPublicUser user⟩) :
    Python.strip user.username = user.username ∧
      (∀ u, normalizeUsername u user.username = .ok user.username) ∧
      ∃ moment,
        ⟨.utcNow, p.clock moment⟩ ∈ ((AuthenticationService.authenticateAndCreateResult p.cfg
          username password).exec p.env s₁).history ∧
        ∀ (τ : Type) (q : Process jwt τ) (s : τ) (http : HttpRequest),
          http.bearerToken = some token → p.clock moment ≤ q.clock s →
          ((q.db (q.env s (.jwtDecode token)).2).users.map (·.username)).Nodup →
          Honoured p (p.clock moment) user q s (q.db (q.env s (.jwtDecode token)).2)
            ((getCurrentUser q.cfg http).exec q.env s).outcome := by
  have hname := createUser_username hstored
  have hstrip := strip_username hname
  obtain ⟨moment, jti, hsubject, hmax, hread, hsigned⟩ := authenticateAndCreateResult_ok hissued
  refine ⟨hstrip, normalizeUsername_fixed hname, moment, hread, ?_⟩
  intro τ q s http hbearer hfrom hunique
  have hblank := jwt.encode_nonblank hsigned
  change jwt.encode _ (p.claims (Python.strip user.username) (p.clock moment) jti).payload =
    .ok token at hsigned
  change Python.strip user.username ≠ "" at hsubject
  rw [hstrip] at hsigned
  by_cases haccepted : q.Agrees p ∧ q.clock s < p.expClaim (p.clock moment) * 1000000
  · obtain ⟨hagrees, huntil⟩ := haccepted
    have hdecode := presented_in_time hsigned hagrees hfrom huntil
    obtain ⟨claims, hclaims, hsub⟩ :=
      claimsOfPayload_issued (q := q) jti hsubject (p.clock_range moment).1 hmax
    have hlookup : normalizeUsername q.cfg.unicode claims.subject = .ok user.username := by
      rw [hsub]
      exact normalizeUsername_fixed hname _
    rw [getCurrentUser_accepted hbearer hblank hdecode hclaims hlookup]
    exact honoured_of_accepted hagrees huntil hunique
  · have hdecode : (q.env s (.jwtDecode token)).1 = .error none := by
      by_cases hagrees : q.Agrees p
      · exact presented_expired hsigned (not_lt.mp fun huntil => haccepted ⟨hagrees, huntil⟩)
      · exact presented_elsewhere hsigned hagrees
    rw [getCurrentUser_refused hbearer hblank hdecode]
    exact honoured_of_refused haccepted

end RoundTrip

section Deployment

/-- A configuration with the least secret that is accepted. -/
def environmentVariables (name : String) : Option String :=
  if name = "JWT_SECRET_KEY" then some "0123456789abcdef0123456789abcdef" else none

def exampleSettings : AuthSettings where
  secretKey := "0123456789abcdef0123456789abcdef"
  algorithm := "HS256"
  accessTokenMinutes := 15
  issuer := "secure-api-gateway"
  audience := "secure-api-clients"

/-- The text of a token is opaque to the gateway. -/
def aliceToken : String := "token"

/-- PyJWT on the token that alice gets at the epoch. -/
def exampleJWT : PyJWT :=
  .single exampleSettings.secretKey
    ⟨"alice", 0, 900, "secure-api-gateway", "secure-api-clients",
      "0b000000-0000-4000-8000-000000000002", "access"⟩ aliceToken (by decide +kernel)

/-- Working back ends with PyJWT among them. -/
def hosted (jwt : PyJWT) (settings : AuthSettings) (o : Outside) : Environment gateway World
  | w, .jwtEncode payload => (jwt.encode settings.secretKey payload, w)
  | w, .jwtDecode token =>
    (jwt.decode settings.secretKey settings.audience settings.issuer o.utcNow token, w)
  | w, op => working .default o w op

def exampleProcess : Process exampleJWT World where
  cfg := { defaultConfig with parseUuid := Uuid.parse }
  settings := exampleSettings
  loaded := ⟨Python.asciiDecimal, environmentVariables, by decide +kernel⟩
  issuer := rfl
  audience := rfl
  minutes := rfl
  parseUuid_str := Uuid.parse_str
  env := hosted exampleJWT exampleSettings (outsideWorks true)
  clock _ := 0
  db := World.db
  clock_range _ := by decide
  utcNow _ := rfl
  encodes _ _ := rfl
  decodes _ _ := rfl
  selects _ _ := rfl

/-- `create_user` for alice, with the identifier that is drawn for her. -/
def register (id : Uuid) (w : World) : Execution gateway Raised StoredUser World :=
  (UserRepository.createUser defaultConfig "alice" "$argon2id$alice").exec
    (working .default { outsideWorks true with uuid := id }) w

def freshWorld : World := { migratedWorld with db := Migration.upgrade [] }

theorem alice_round_trip :
    ∃ u, ((getCurrentUser exampleProcess.cfg (localRequest "GET" (some aliceToken))).exec
      exampleProcess.env (register alice.id freshWorld).state).outcome = .ok u ∧
      u.id = alice.id := by
  have hstored : (register alice.id freshWorld).outcome = .ok (recordToStoredUser alice) := by
    decide +kernel
  have hissued : ((AuthenticationService.authenticateAndCreateResult exampleProcess.cfg "Alice"
      "correct horse battery").exec exampleProcess.env
        (register alice.id freshWorld).state).outcome =
      .ok ⟨aliceToken, toPublicUser (recordToStoredUser alice)⟩ := by
    decide +kernel
  obtain ⟨-, -, _, -, h⟩ := token_round_trip defaultConfig _ _ _ _ _ hstored exampleProcess
    (register alice.id freshWorld).state "Alice" "correct horse battery" aliceToken hissued
  have hrow : (register alice.id freshWorld).state.db.users = [alice] := by decide +kernel
  have hhonoured := h World exampleProcess (register alice.id freshWorld).state
    (localRequest "GET" (some aliceToken)) rfl le_rfl (by decide +kernel)
  have huntil : (0 : ℤ) < exampleProcess.expClaim 0 * 1000000 := by decide +kernel
  refine hhonoured.resolves ⟨rfl, rfl, rfl⟩ huntil alice ?_ rfl rfl rfl
  change alice ∈ (register alice.id freshWorld).state.db.users
  rw [hrow]
  exact List.mem_singleton.mpr rfl

/-- The row is deleted by hand. -/
def deleteUser (id : Uuid) (w : World) : World :=
  { w with
    db := { w.db with
      users := w.db.users.filter (·.id ≠ id)
      userRoles := w.db.userRoles.filter (·.userId ≠ id) } }

/-- Whoever registers the username of a deleted row takes over its tokens. -/
theorem registered_again :
    let first := register alice.id freshWorld
    let issued := (AuthenticationService.authenticateAndCreateResult exampleProcess.cfg "alice"
      "correct horse battery").exec exampleProcess.env first.state
    let second := register 0x0d000000000040008000000000000004#128
      (deleteUser alice.id issued.state)
    let presented := (getCurrentUser exampleProcess.cfg
      (localRequest "GET" (some aliceToken))).exec exampleProcess.env second.state
    first.outcome = .ok (recordToStoredUser alice) ∧
      issued.outcome = .ok ⟨aliceToken, toPublicUser (recordToStoredUser alice)⟩ ∧
      (∀ r ∈ second.state.db.users, r.id ≠ alice.id) ∧
      exampleProcess.clock second.state < exampleProcess.expClaim 0 * 1000000 ∧
      presented.outcome = .ok ⟨0x0d000000000040008000000000000004#128, "alice", true, 0⟩ := by
  refine ⟨?_, ?_, ?_, ?_, ?_⟩ <;> decide +kernel

end Deployment

end SecureGateway.Gateway
