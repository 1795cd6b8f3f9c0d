import SecureGateway.Foundation.Scopes
import SecureGateway.Gateway.Interface

/-!
# The lifespan of the application

`lifespan` of `gateway/app/main.py`: the settings are read, the clients are opened and
verified, the application serves, and what was opened is closed, wherever an exception strikes.
-/
namespace SecureGateway.Lifespan

open Interleaving Gateway

inductive Resource where
  | metricsServer
  | databaseEngine
  | redisClient
  | httpClient
  deriving DecidableEq, Repr

abbrev Handle := ℕ

/-- The attributes of `app.state` that lead to a resource; the limiter and the login protection
keep their client, and the session factory its engine. -/
structure AppState where
  metricsServer : Option Handle
  redisClient : Option Handle
  rateLimiter : Option Handle
  loginProtection : Option Handle
  databaseEngine : Option Handle
  databaseSessionFactory : Option Handle
  httpClient : Option Handle
  deriving DecidableEq

inductive LifespanOp where
  /-- `MetricsSettings.from_environment().enabled`. -/
  | metricsSettings
  /-- The upstream settings, and the circuit breakers made of them. -/
  | upstreamResilienceSettings
  /-- `RedisSettings.from_environment().verify_on_startup`. -/
  | redisSettings
  | databaseIsConfigured
  /-- `DatabaseSettings.from_environment().verify_on_startup`. -/
  | databaseSettings
  /-- `start_metrics_server`, `create_database_engine`, `create_redis_client`, and
  `create_http_client` with `__aenter__`. -/
  | acquire (kind : Resource)
  /-- `MetricsServerHandle.close`, `close_database_engine`, `close_redis_client` and
  `__aexit__`. -/
  | release (kind : Resource) (handle : Handle)
  /-- `SELECT 1` over a connection of the engine. -/
  | selectOne (engine : Handle)
  | ping (client : Handle)
  /-- The `yield`, while requests are served from `app.state`. -/
  | serve (state : AppState)

abbrev LifespanOp.Reply : LifespanOp → Type
  | .metricsSettings => Except Raised Bool
  | .upstreamResilienceSettings => Except Raised Unit
  | .redisSettings => Except Raised Bool
  | .databaseIsConfigured => Bool
  | .databaseSettings => Except Raised Bool
  | .acquire _ => Except Raised Handle
  | .release _ _ => Except Raised Unit
  | .selectOne _ => Except Raised ℤ
  /- `none` in the error stands for a `RedisError`, and the value for `response is True`. -/
  | .ping _ => Except (Option Fault) Bool
  | .serve _ => Except Raised Unit

abbrev lifespanInterface : Signature := ⟨LifespanOp, LifespanOp.Reply⟩

/-- `app.state`, and the variables that `lifespan` assigns more than once. -/
structure Variables where
  state : AppState
  metricsServer : Option Handle
  databaseEngine : Option Handle

abbrev LifespanAction (α : Type) := Scoped lifespanInterface Variables Raised α

abbrev perform (op : LifespanOp) : LifespanAction op.Reply :=
  Scoped.perform (S := lifespanInterface) op

open Scoped (orRaise read update tryFinally)

def verifyDatabaseConnection (engine : Handle) : LifespanAction Unit := do
  let value ← orRaise (← perform (.selectOne engine))
  if value ≠ 1 then
    orRaise (.error (.runtimeError "Unexpected PostgreSQL verification result."))
  else pure ()

def verifyRedisConnection (client : Handle) : LifespanAction Unit := do
  match ← perform (.ping client) with
  | .error (some f) => orRaise (.error f.raised)
  | .error none => orRaise (.error (.other "RedisUnavailableError"))
  | .ok response =>
    if response then pure () else orRaise (.error (.other "RedisUnavailableError"))

/-- `if redis_settings.verify_on_startup:`. -/
def verifyRedisOnStartup (verifyOnStartup : Bool) (client : Handle) : LifespanAction Unit :=
  if verifyOnStartup then verifyRedisConnection client else pure ()

/-- `if metrics_settings.enabled:`. -/
def openMetricsServer (enabled : Bool) : LifespanAction Unit :=
  if enabled then do
    let server ← orRaise (← perform (.acquire .metricsServer))
    update fun v =>
      { v with
        metricsServer := some server
        state := { v.state with metricsServer := some server } }
  else pure ()

/-- `if database_is_configured():`. -/
def openDatabase : LifespanAction Unit := do
  if ← perform .databaseIsConfigured then do
    let verifyOnStartup ← orRaise (← perform .databaseSettings)
    let engine ← orRaise (← perform (.acquire .databaseEngine))
    update fun v =>
      { v with
        databaseEngine := some engine
        state := { v.state with
          databaseEngine := some engine
          databaseSessionFactory := some engine } }
    if verifyOnStartup then verifyDatabaseConnection engine else pure ()
  else pure ()

/-- `async with create_http_client() as http_client:`. -/
def serve : LifespanAction Unit := do
  let httpClient ← orRaise (← perform (.acquire .httpClient))
  tryFinally
    (do
      update fun v => { v with state := { v.state with httpClient := some httpClient } }
      let v ← read
      orRaise (← perform (.serve v.state)))
    (do orRaise (← perform (.release .httpClient httpClient)))

def closeMetricsServer : LifespanAction Unit := do
  match (← read).metricsServer with
  | some server => do
    orRaise (← perform (.release .metricsServer server))
    update fun v => { v with state := { v.state with metricsServer := none } }
  | none => pure ()

def closeDatabaseEngine : LifespanAction Unit := do
  match (← read).databaseEngine with
  | some engine => orRaise (← perform (.release .databaseEngine engine))
  | none => pure ()

def closeRedisClient (redisClient : Handle) : LifespanAction Unit := do
  orRaise (← perform (.release .redisClient redisClient))

/-- The `finally` block. -/
def shutdown (redisClient : Handle) : LifespanAction Unit := do
  closeMetricsServer
  closeDatabaseEngine
  closeRedisClient redisClient

def lifespan : LifespanAction Unit := do
  let enabled ← orRaise (← perform .metricsSettings)
  orRaise (← perform .upstreamResilienceSettings)
  update fun v =>
    { v with metricsServer := none, state := { v.state with metricsServer := none } }
  let verifyOnStartup ← orRaise (← perform .redisSettings)
  let redisClient ← orRaise (← perform (.acquire .redisClient))
  update fun v =>
    { v with
      databaseEngine := none
      state := { v.state with
        redisClient := some redisClient
        rateLimiter := some redisClient
        loginProtection := some redisClient
        databaseEngine := none
        databaseSessionFactory := none } }
  tryFinally
    (do
      openMetricsServer enabled
      openDatabase
      verifyRedisOnStartup verifyOnStartup redisClient
      serve)
    (shutdown redisClient)

section Resources

def resources : Ledger lifespanInterface (Resource × Handle) where
  acquires
    | ⟨.acquire kind, .ok handle⟩ => some (kind, handle)
    | _ => none
  releases
    | ⟨.release kind handle, _⟩ => some (kind, handle)
    | _ => none

abbrev Held (h : History lifespanInterface) (kind : Resource) (handle : Handle) : Prop :=
  resources.held h (kind, handle) = true

def shutdownOrder : List Resource := [.metricsServer, .databaseEngine, .redisClient]

/-- What requests may rely on while they are served. -/
structure Ready (h : History lifespanInterface) (state : AppState) : Prop where
  redis : ∃ x, Held h .redisClient x ∧ state.redisClient = some x ∧ state.rateLimiter = some x ∧
    state.loginProtection = some x
  redisVerified : ⟨.redisSettings, .ok true⟩ ∈ h →
    ∃ x, state.redisClient = some x ∧ ⟨.ping x, .ok true⟩ ∈ h
  http : ∃ x, Held h .httpClient x ∧ state.httpClient = some x
  metrics : ∀ x, state.metricsServer = some x → Held h .metricsServer x
  metricsEnabled : ∀ enabled, ⟨.metricsSettings, .ok enabled⟩ ∈ h →
    state.metricsServer.isSome = enabled
  database : ∀ x, state.databaseEngine = some x → Held h .databaseEngine x
  databaseConfigured : ∀ configured, ⟨.databaseIsConfigured, configured⟩ ∈ h →
    state.databaseEngine.isSome = configured
  sessionFactory : state.databaseSessionFactory = state.databaseEngine
  databaseVerified : ⟨.databaseSettings, .ok true⟩ ∈ h →
    ∃ x, state.databaseEngine = some x ∧ ⟨.selectOne x, .ok 1⟩ ∈ h

/-- Nothing is opened twice, used or closed unless it is open, and requests are served only
when everything is ready. -/
def Permitted (h : History lifespanInterface) : LifespanOp → Prop
  | .acquire kind => ∀ x, ¬ Held h kind x
  | .release kind x => Held h kind x
  | .selectOne x => Held h .databaseEngine x
  | .ping x => Held h .redisClient x
  | .serve state => Ready h state
  | _ => True

/-- How a lifespan can have ended: nothing stays open unless closing what comes before it has
raised, and it ends well only if the serving did and everything has been closed. -/
structure Ended (h : History lifespanInterface) (outcome : Except Raised Unit) : Prop where
  balanced : resources.Balanced h
  leaked : ∀ kind x, Held h kind x ↔ 0 < resources.acquired h (kind, x) ∧
    ∃ kind' x' error, [kind', kind].Sublist shutdownOrder ∧
      ⟨.release kind' x', .error error⟩ ∈ h
  served : outcome = .ok () → (∃ state, ⟨.serve state, .ok ()⟩ ∈ h) ∧ ∀ kind x, ¬ Held h kind x

variable {h : History lifespanInterface} {kind k : Resource} {x y : Handle}

theorem held_acquire : Held (h ++ [⟨.acquire kind, .ok x⟩]) k y ↔
    (k = kind ∧ y = x) ∨ Held h k y := by
  have hheld := @Ledger.held_append_acquire _ _ _ resources h ⟨.acquire kind, .ok x⟩ (k, y)
    (kind, x) rfl rfl
  rw [Held, hheld, Prod.mk.injEq]

theorem held_release (r : Except Raised Unit) : Held (h ++ [⟨.release kind x, r⟩]) k y ↔
    Held h k y ∧ ¬ (k = kind ∧ y = x) := by
  have hheld := @Ledger.held_append_release _ _ _ resources h ⟨.release kind x, r⟩ (k, y)
    (kind, x) rfl rfl
  rw [Held, hheld, ne_eq, Prod.mk.injEq]

/-- An exchange that neither opens nor closes anything. -/
def Neutral (e : Exchange lifespanInterface) : Prop :=
  resources.acquires e = none ∧ resources.releases e = none

theorem held_neutral {e : Exchange lifespanInterface} (he : Neutral e) :
    Held (h ++ [e]) k y ↔ Held h k y := by
  rw [Held, Ledger.held_append_of_none he.1 he.2]

end Resources

section Closing

variable {redis : Handle} {v : Variables} {h : History lifespanInterface} {kind k : Resource}
  {x y : Handle} {closed : List Resource} {owned : Resource → Handle → Prop}

/-- What the variables lead to. -/
def Owned (redis : Handle) (v : Variables) : Resource → Handle → Prop
  | .redisClient, x => x = redis
  | .metricsServer, x => v.metricsServer = some x
  | .databaseEngine, x => v.databaseEngine = some x
  | .httpClient, _ => False

/-- One handle at most of each kind. -/
def Single (owned : Resource → Handle → Prop) : Prop := ∀ k x y, owned k x → owned k y → x = y

theorem single_owned : Single (Owned redis v) := by
  intro k x y hx hy
  cases k with
  | redisClient => exact Eq.trans hx (Eq.symm hy)
  | metricsServer => exact Option.some.inj (Eq.trans (Eq.symm hx) hy)
  | databaseEngine => exact Option.some.inj (Eq.trans (Eq.symm hx) hy)
  | httpClient => exact hx.elim

/-- What is owned is open, but for the kinds that have been closed, and nothing else is. -/
structure Closing (closed : List Resource) (owned : Resource → Handle → Prop)
    (h : History lifespanInterface) : Prop where
  held : ∀ k x, Held h k x ↔ owned k x ∧ k ∉ closed
  released : ∀ k x r, ⟨.release k x, r⟩ ∈ h → k = .httpClient ∨ k ∈ closed ∧ r = .ok ()

/-- All closed, or closed up to where it raised. -/
def Stopped (owned : Resource → Handle → Prop) (h : History lifespanInterface) : Prop :=
  Closing shutdownOrder owned h ∨ ∃ closed k after x error h₀,
    shutdownOrder = closed ++ k :: after ∧ h = h₀ ++ [⟨.release k x, .error error⟩] ∧
      Closing closed owned h₀ ∧ owned k x

theorem closing_release (hc : Closing closed owned h) (hs : Single owned) (hx : owned k x) :
    Closing (closed ++ [k]) owned (h ++ [⟨.release k x, .ok ()⟩]) where
  held k' y := by
    rw [held_release, hc.held k' y]
    constructor
    · rintro ⟨⟨hy, hk'⟩, hne⟩
      refine ⟨hy, fun hmem => ?_⟩
      rcases List.mem_append.mp hmem with hmem | hmem
      · exact hk' hmem
      · cases List.mem_singleton.mp hmem
        exact hne ⟨rfl, hs k y x hy hx⟩
    · rintro ⟨hy, hk'⟩
      refine ⟨⟨hy, fun hmem => hk' (List.mem_append_left _ hmem)⟩, ?_⟩
      rintro ⟨rfl, -⟩
      exact hk' (List.mem_append_right _ (List.mem_singleton.mpr rfl))
  released k' y r hmem := by
    rcases List.mem_append.mp hmem with hmem | hmem
    · rcases hc.released k' y r hmem with hhttp | ⟨hk', hr⟩
      · exact Or.inl hhttp
      · exact Or.inr ⟨List.mem_append_left _ hk', hr⟩
    · cases List.mem_singleton.mp hmem
      exact Or.inr ⟨List.mem_append_right _ (List.mem_singleton.mpr rfl), rfl⟩

theorem closing_absent (hc : Closing closed owned h) (hk : ∀ x, ¬ owned k x) :
    Closing (closed ++ [k]) owned h where
  held k' y := by
    rw [hc.held k' y]
    constructor
    · rintro ⟨hy, hk'⟩
      refine ⟨hy, fun hmem => ?_⟩
      rcases List.mem_append.mp hmem with hmem | hmem
      · exact hk' hmem
      · cases List.mem_singleton.mp hmem
        exact hk y hy
    · rintro ⟨hy, hk'⟩
      exact ⟨hy, fun hmem => hk' (List.mem_append_left _ hmem)⟩
  released k' y r hmem := by
    rcases hc.released k' y r hmem with hhttp | ⟨hk', hr⟩
    · exact Or.inl hhttp
    · exact Or.inr ⟨List.mem_append_left _ hk', hr⟩

variable {post : History lifespanInterface → Variables → Except Raised Unit → Prop}
  {after : List Resource}

/-- Closing the next kind in order: it is closed, or the shutdown stops there. -/
theorem wp_release (hc : Closing closed owned h) (hs : Single owned) (hx : owned k x)
    (hk : k ∉ closed) (horder : shutdownOrder = closed ++ k :: after)
    (hok : ∀ h', Closing (closed ++ [k]) owned h' → post h' v (.ok ()))
    (herror : ∀ h' error, Stopped owned h' → post h' v (.error error)) :
    Scoped.wp Permitted post h v (do orRaise (← perform (.release k x))) := by
  refine (Scoped.wp_perform_bind _).mpr ⟨(hc.held k x).mpr ⟨hx, hk⟩, fun r => ?_⟩
  rw [Scoped.wp_orRaise]
  cases r with
  | ok u => exact hok _ (closing_release hc hs hx)
  | error error =>
    exact herror _ error (Or.inr ⟨closed, k, after, x, error, h, horder, rfl, hc, hx⟩)

theorem wp_closeMetricsServer (hc : Closing [] (Owned redis v) h)
    (hok : ∀ h' v', v'.databaseEngine = v.databaseEngine →
      Closing [.metricsServer] (Owned redis v) h' → post h' v' (.ok ()))
    (herror : ∀ h' v' error, Stopped (Owned redis v) h' → post h' v' (.error error)) :
    Scoped.wp Permitted post h v closeMetricsServer := by
  unfold closeMetricsServer
  rw [Scoped.wp_bind, Scoped.wp_read, Scoped.sequel_ok]
  cases hv : v.metricsServer with
  | none => exact hok h v rfl (closing_absent hc fun x hx => by simp [Owned, hv] at hx)
  | some server =>
    refine (Scoped.wp_perform_bind _).mpr ⟨(hc.held .metricsServer server).mpr ⟨hv, by simp⟩, ?_⟩
    intro r
    refine Scoped.wp_orRaise_bind (fun u hr => ?_) fun error hr => ?_
    · subst hr
      exact hok _ _ rfl (closing_release hc single_owned hv)
    · subst hr
      exact herror _ _ error (Or.inr ⟨[], _, _, server, error, h, rfl, rfl, hc, hv⟩)

theorem wp_closeDatabaseEngine (hc : Closing [.metricsServer] owned h) (hs : Single owned)
    (howned : ∀ x, owned .databaseEngine x ↔ v.databaseEngine = some x)
    (hok : ∀ h', Closing [.metricsServer, .databaseEngine] owned h' → post h' v (.ok ()))
    (herror : ∀ h' error, Stopped owned h' → post h' v (.error error)) :
    Scoped.wp Permitted post h v closeDatabaseEngine := by
  unfold closeDatabaseEngine
  rw [Scoped.wp_bind, Scoped.wp_read, Scoped.sequel_ok]
  cases hv : v.databaseEngine with
  | none =>
    refine hok h (closing_absent hc fun x hx => ?_)
    rw [howned, hv] at hx
    cases hx
  | some engine =>
    exact wp_release hc hs ((howned engine).mpr hv) (by simp) rfl hok herror

/-- Whatever was open is closed, up to the first closing that raises. -/
theorem wp_shutdown (hc : Closing [] (Owned redis v) h)
    (hok : ∀ h' v', h <+: h' → Closing shutdownOrder (Owned redis v) h' → post h' v' (.ok ()))
    (herror : ∀ h' v' error, Stopped (Owned redis v) h' → post h' v' (.error error)) :
    Scoped.wp Permitted post h v (shutdown redis) := by
  let stopped : History lifespanInterface → Variables → Except Raised Unit → Prop :=
    fun h' _ outcome => (outcome = .ok () → Closing shutdownOrder (Owned redis v) h') ∧
      ((∃ error, outcome = .error error) → Stopped (Owned redis v) h')
  have hfailed (h' v') (error : Raised) (hstop : Stopped (Owned redis v) h') :
      stopped h' v' (.error error) := ⟨fun he => (by cases he), fun _ => hstop⟩
  have hdone (h' v') (hclosed : Closing shutdownOrder (Owned redis v) h') :
      stopped h' v' (.ok ()) := ⟨fun _ => hclosed, by simp⟩
  have hwp : Scoped.wp Permitted stopped h v (shutdown redis) := by
    unfold shutdown
    rw [Scoped.wp_bind]
    refine wp_closeMetricsServer hc (fun h₁ v₁ hv₁ hc₁ => ?_) hfailed
    rw [Scoped.sequel_ok, Scoped.wp_bind]
    refine wp_closeDatabaseEngine hc₁ single_owned (fun x => ?_) (fun h₂ hc₂ => ?_)
      fun h' => hfailed h' v₁
    · rw [hv₁]
      exact Iff.rfl
    · rw [Scoped.sequel_ok]
      exact wp_release hc₂ single_owned rfl (by decide) rfl (fun h' => hdone h' v₁)
        fun h' => hfailed h' v₁
  refine Scoped.wp_mono hwp fun h' v' outcome hle hstopped => ?_
  cases outcome with
  | ok u => exact hok h' v' hle (hstopped.1 rfl)
  | error error => exact herror h' v' error (hstopped.2 ⟨error, rfl⟩)

/-- What comes after a kind in the order of the shutdown. -/
theorem sublist_shutdownOrder (horder : shutdownOrder = closed ++ k :: after) (kind : Resource) :
    ([k, kind].Sublist shutdownOrder ↔ kind ∉ closed ∧ kind ≠ k ∧ kind ≠ .httpClient) := by
  have hclosed : closed = [] ∧ k = .metricsServer ∨ closed = [.metricsServer] ∧
      k = .databaseEngine ∨ closed = [.metricsServer, .databaseEngine] ∧ k = .redisClient := by
    unfold shutdownOrder at horder
    rcases closed with _ | ⟨a, _ | ⟨b, _ | ⟨c, closed⟩⟩⟩
    · simp at horder
      simp [horder]
    · simp at horder
      simp [horder]
    · simp at horder
      simp [horder]
    · simp at horder
  rcases hclosed with ⟨rfl, rfl⟩ | ⟨rfl, rfl⟩ | ⟨rfl, rfl⟩ <;> cases kind <;> decide

theorem released_pos : 0 < resources.released h (kind, x) ↔ ∃ r, ⟨.release kind x, r⟩ ∈ h := by
  unfold Ledger.released
  rw [List.countP_pos_iff]
  constructor
  · rintro ⟨⟨op, r⟩, hmem, hrel⟩
    cases op <;> simp [resources] at hrel
    obtain ⟨rfl, rfl⟩ := hrel
    exact ⟨r, hmem⟩
  · rintro ⟨r, hmem⟩
    exact ⟨_, hmem, by simp [resources]⟩

/-- With a balanced ledger: open in the end is what comes after a closing that has raised. -/
theorem leaked_of_stopped (hstop : Stopped owned h) (hs : Single owned)
    (hb : resources.Balanced h) (hhttp : ∀ x, ¬ owned .httpClient x) (kind : Resource)
    (y : Handle) :
    Held h kind y ↔ 0 < resources.acquired h (kind, y) ∧
      ∃ kind' x' error, [kind', kind].Sublist shutdownOrder ∧
        ⟨.release kind' x', .error error⟩ ∈ h := by
  have hbalance := hb (kind, y)
  rcases hstop with hc | ⟨closed, k, after, x, error, h₀, horder, rfl, hc, hx⟩
  · have hmem {k : Resource} (hk : k ≠ .httpClient) : k ∈ shutdownOrder := by
      cases k <;> simp [shutdownOrder] at hk ⊢
    rw [hc.held kind y]
    constructor
    · rintro ⟨hy, hk⟩
      by_cases hkind : kind = .httpClient
      · subst hkind
        exact (hhttp y hy).elim
      · exact (hk (hmem hkind)).elim
    · rintro ⟨-, k', x', error, hsub, hrel⟩
      have hk' : k' ∈ shutdownOrder := hsub.subset List.mem_cons_self
      rcases hc.released k' x' _ hrel with rfl | ⟨-, hr⟩
      · simp [shutdownOrder] at hk'
      · cases hr
  · rw [held_release, hc.held kind y]
    constructor
    · rintro ⟨⟨hy, hk⟩, hne⟩
      have hheld : Held (h₀ ++ [⟨.release k x, .error error⟩]) kind y := by
        rw [held_release, hc.held kind y]
        exact ⟨⟨hy, hk⟩, hne⟩
      refine ⟨?_, k, x, error, (sublist_shutdownOrder horder kind).mpr ⟨hk, ?_, ?_⟩, by simp⟩
      · rw [hbalance, hheld]
        simp
      · rintro rfl
        exact hne ⟨rfl, hs kind y x hy hx⟩
      · rintro rfl
        exact hhttp y hy
    · rintro ⟨hacquired, k', x', error', hsub, hrel⟩
      have hk' : k' = k := by
        rcases List.mem_append.mp hrel with hrel | hrel
        · rcases hc.released k' x' _ hrel with rfl | ⟨-, hr⟩
          · have hmem : Resource.httpClient ∈ shutdownOrder := hsub.subset List.mem_cons_self
            simp [shutdownOrder] at hmem
          · cases hr
        · cases List.mem_singleton.mp hrel
          rfl
      subst hk'
      obtain ⟨hclosed, hne, hnot⟩ := (sublist_shutdownOrder horder kind).mp hsub
      have hreleased :
          resources.released (h₀ ++ [⟨.release k' x, .error error⟩]) (kind, y) = 0 := by
        refine Nat.eq_zero_of_not_pos fun hpos => ?_
        obtain ⟨r, hmem⟩ := released_pos.mp hpos
        rcases List.mem_append.mp hmem with hmem | hmem
        · rcases hc.released kind y r hmem with hk | ⟨hk, -⟩
          · exact hnot hk
          · exact hclosed hk
        · cases List.mem_singleton.mp hmem
          exact hne rfl
      have hheld : Held (h₀ ++ [⟨.release k' x, .error error⟩]) kind y := by
        rw [hreleased, Nat.zero_add] at hbalance
        rw [hbalance] at hacquired
        cases hb' : resources.held (h₀ ++ [⟨.release k' x, .error error⟩]) (kind, y) with
        | true => exact hb'
        | false => simp [hb'] at hacquired
      rw [held_release, hc.held kind y] at hheld
      exact hheld

end Closing

section Opening

variable {enabled verify : Bool} {redis x : Handle} {h : History lifespanInterface}
  {v : Variables} {e : Exchange lifespanInterface} {kind : Resource}
  {owned owned' : Resource → Handle → Prop}
  {post : History lifespanInterface → Variables → Except Raised Unit → Prop}

theorem closing_neutral (hc : Closing [] owned h) (he : Neutral e) :
    Closing [] owned (h ++ [e]) where
  held k y := by rw [held_neutral he, hc.held k y]
  released k y r hmem := by
    rcases List.mem_append.mp hmem with hmem | hmem
    · exact hc.released k y r hmem
    · rw [← List.mem_singleton.mp hmem] at he
      cases he.2

theorem closing_acquire (hc : Closing [] owned h)
    (howned : ∀ k y, owned' k y ↔ (k = kind ∧ y = x) ∨ owned k y) :
    Closing [] owned' (h ++ [⟨.acquire kind, .ok x⟩]) where
  held k y := by
    rw [held_acquire, hc.held k y, howned]
    simp
  released k y r hmem := by
    rcases List.mem_append.mp hmem with hmem | hmem
    · exact hc.released k y r hmem
    · cases List.mem_singleton.mp hmem

/-- What the variables and `app.state` hold once the Redis client has been opened. -/
structure Prepared (enabled verify : Bool) (redis : Handle) (h : History lifespanInterface)
    (v : Variables) : Prop where
  closing : Closing [] (Owned redis v) h
  enabled_eq : ∀ b, ⟨.metricsSettings, .ok b⟩ ∈ h → enabled = b
  verify_eq : ∀ b, ⟨.redisSettings, .ok b⟩ ∈ h → verify = b
  redisState : v.state.redisClient = some redis ∧ v.state.rateLimiter = some redis ∧
    v.state.loginProtection = some redis
  metricsState : v.state.metricsServer = v.metricsServer
  engineState : v.state.databaseEngine = v.databaseEngine
  factoryState : v.state.databaseSessionFactory = v.databaseEngine

/-- An operation that reads none of the settings of the start. -/
def Later (op : LifespanOp) : Prop := op ≠ .metricsSettings ∧ op ≠ .redisSettings

theorem settings_append {b : Bool} (he : Later e.op)
    (hmem : (⟨.metricsSettings, .ok b⟩ : Exchange lifespanInterface) ∈ h ++ [e]) :
    ⟨.metricsSettings, .ok b⟩ ∈ h := by
  rcases List.mem_append.mp hmem with hmem | hmem
  · exact hmem
  · rw [← List.mem_singleton.mp hmem] at he
    exact (he.1 rfl).elim

theorem redisSettings_append {b : Bool} (he : Later e.op)
    (hmem : (⟨.redisSettings, .ok b⟩ : Exchange lifespanInterface) ∈ h ++ [e]) :
    ⟨.redisSettings, .ok b⟩ ∈ h := by
  rcases List.mem_append.mp hmem with hmem | hmem
  · exact hmem
  · rw [← List.mem_singleton.mp hmem] at he
    exact (he.2 rfl).elim

theorem prepared_neutral (hp : Prepared enabled verify redis h v) (he : Neutral e)
    (hlater : Later e.op) : Prepared enabled verify redis (h ++ [e]) v where
  closing := closing_neutral hp.closing he
  enabled_eq b hmem := hp.enabled_eq b (settings_append hlater hmem)
  verify_eq b hmem := hp.verify_eq b (redisSettings_append hlater hmem)
  redisState := hp.redisState
  metricsState := hp.metricsState
  engineState := hp.engineState
  factoryState := hp.factoryState

/-- The database has not been asked for. -/
def NoDatabase (h : History lifespanInterface) : Prop :=
  ∀ e ∈ h, e.op ≠ .databaseIsConfigured ∧ e.op ≠ .databaseSettings

theorem noDatabase_append (hq : NoDatabase h)
    (he : e.op ≠ .databaseIsConfigured ∧ e.op ≠ .databaseSettings) : NoDatabase (h ++ [e]) := by
  intro x hx
  rcases List.mem_append.mp hx with hx | hx
  · exact hq x hx
  · rw [List.mem_singleton.mp hx]
    exact he

theorem wp_openMetricsServer (hp : Prepared enabled verify redis h v) (hq : NoDatabase h)
    (hnone : v.metricsServer = none)
    (hok : ∀ h' v', Prepared enabled verify redis h' v' → NoDatabase h' →
      v'.metricsServer.isSome = enabled → v'.databaseEngine = v.databaseEngine →
      post h' v' (.ok ()))
    (herror : ∀ h' v' error, Closing [] (Owned redis v') h' → post h' v' (.error error)) :
    Scoped.wp Permitted post h v (openMetricsServer enabled) := by
  unfold openMetricsServer
  cases enabled with
  | false => exact hok h v hp hq (by rw [hnone]; rfl) rfl
  | true =>
    refine (Scoped.wp_perform_bind _).mpr ⟨fun y hy => ?_, fun r => ?_⟩
    · have howned := ((hp.closing.held _ _).mp hy).1
      rw [Owned, hnone] at howned
      cases howned
    · refine Scoped.wp_orRaise_bind (fun server hr => ?_) fun error hr => ?_
      · subst hr
        refine hok _ _ ⟨?_, ?_, ?_, hp.redisState, rfl, hp.engineState, hp.factoryState⟩
          (noDatabase_append hq ⟨by simp, by simp⟩) rfl rfl
        · refine closing_acquire hp.closing fun k y => ?_
          cases k <;> simp [Owned, hnone, eq_comm]
        · exact fun b hmem => hp.enabled_eq b (settings_append ⟨by simp, by simp⟩ hmem)
        · exact fun b hmem => hp.verify_eq b (redisSettings_append ⟨by simp, by simp⟩ hmem)
      · subst hr
        exact herror _ _ error (closing_neutral hp.closing ⟨rfl, rfl⟩)

/-- The engine is there if a database is configured, and has answered if it was to be
verified. -/
structure DatabaseReady (h : History lifespanInterface) (v : Variables) : Prop where
  configured : ∀ c, ⟨.databaseIsConfigured, c⟩ ∈ h → v.databaseEngine.isSome = c
  verified : ⟨.databaseSettings, .ok true⟩ ∈ h →
    ∃ x, v.databaseEngine = some x ∧ ⟨.selectOne x, .ok 1⟩ ∈ h

theorem wp_verifyDatabaseConnection (hx : Held h .databaseEngine x)
    (hok : post (h ++ [⟨.selectOne x, .ok 1⟩]) v (.ok ()))
    (herror : ∀ r error, post (h ++ [⟨.selectOne x, r⟩]) v (.error error)) :
    Scoped.wp Permitted post h v (verifyDatabaseConnection x) := by
  unfold verifyDatabaseConnection
  refine (Scoped.wp_perform_bind _).mpr ⟨hx, fun r => ?_⟩
  refine Scoped.wp_orRaise_bind (fun value hr => ?_) fun error _ => herror r error
  by_cases hvalue : value = 1
  · rw [if_neg (not_not.mpr hvalue)]
    rw [hr, hvalue]
    exact hok
  · rw [if_pos hvalue]
    exact herror r _

theorem prepared_engine (hp : Prepared enabled verify redis h v)
    (hnone : v.databaseEngine = none) :
    Prepared enabled verify redis (h ++ [⟨.acquire .databaseEngine, .ok x⟩])
      { v with
        databaseEngine := some x
        state := { v.state with databaseEngine := some x, databaseSessionFactory := some x } } where
  closing := by
    refine closing_acquire hp.closing fun k y => ?_
    cases k <;> simp [Owned, hnone, eq_comm]
  enabled_eq b hmem := hp.enabled_eq b (settings_append ⟨by simp, by simp⟩ hmem)
  verify_eq b hmem := hp.verify_eq b (redisSettings_append ⟨by simp, by simp⟩ hmem)
  redisState := hp.redisState
  metricsState := hp.metricsState
  engineState := rfl
  factoryState := rfl

theorem wp_openDatabase (hp : Prepared enabled verify redis h v) (hq : NoDatabase h)
    (hnone : v.databaseEngine = none)
    (hok : ∀ h' v', Prepared enabled verify redis h' v' → DatabaseReady h' v' →
      v'.metricsServer = v.metricsServer → post h' v' (.ok ()))
    (herror : ∀ h' v' error, Closing [] (Owned redis v') h' → post h' v' (.error error)) :
    Scoped.wp Permitted post h v openDatabase := by
  have hnoConfigured (r) : ⟨.databaseIsConfigured, r⟩ ∉ h := fun hmem => (hq _ hmem).1 rfl
  have hnoSettings (r) : ⟨.databaseSettings, r⟩ ∉ h := fun hmem => (hq _ hmem).2 rfl
  unfold openDatabase
  refine (Scoped.wp_perform_bind _).mpr ⟨trivial, fun configured => ?_⟩
  have hp₁ := prepared_neutral hp (e := ⟨.databaseIsConfigured, configured⟩) ⟨rfl, rfl⟩
    ⟨by simp, by simp⟩
  cases configured with
  | false =>
    refine hok _ v hp₁ ⟨fun c hc => ?_, fun hset => ?_⟩ rfl
    · simp [hnoConfigured] at hc
      rw [hnone, hc]
      rfl
    · simp [hnoSettings] at hset
  | true =>
    refine (Scoped.wp_perform_bind _).mpr ⟨trivial, fun settings => ?_⟩
    have hp₂ := prepared_neutral hp₁ (e := ⟨.databaseSettings, settings⟩) ⟨rfl, rfl⟩
      ⟨by simp, by simp⟩
    refine Scoped.wp_orRaise_bind (fun verifyOnStartup hr => ?_) fun error hr => ?_
    · refine (Scoped.wp_perform_bind _).mpr ⟨fun y hy => ?_, fun r => ?_⟩
      · have howned := ((hp₂.closing.held _ _).mp hy).1
        rw [Owned, hnone] at howned
        cases howned
      · refine Scoped.wp_orRaise_bind (fun engine hr' => ?_) fun error hr' => ?_
        · subst hr hr'
          rw [Scoped.wp_bind, Scoped.wp_update, Scoped.sequel_ok]
          have hp₃ := prepared_engine hp₂ hnone (x := engine)
          cases verifyOnStartup with
          | false =>
            refine hok _ _ hp₃ ⟨fun c hc => ?_, fun hset => ?_⟩ rfl
            · simp [hnoConfigured] at hc
              rw [hc]
              rfl
            · simp [hnoSettings] at hset
          | true =>
            have hheld := (hp₃.closing.held .databaseEngine engine).mpr ⟨rfl, by simp⟩
            refine wp_verifyDatabaseConnection hheld ?_ fun r error => ?_
            · refine hok _ _ (prepared_neutral hp₃ ⟨rfl, rfl⟩ ⟨by simp, by simp⟩)
                ⟨fun c hc => ?_, fun _ => ⟨engine, rfl, by simp⟩⟩ rfl
              simp [hnoConfigured] at hc
              rw [hc]
              rfl
            · exact herror _ _ error (closing_neutral hp₃.closing ⟨rfl, rfl⟩)
        · subst hr'
          exact herror _ _ error (closing_neutral hp₂.closing ⟨rfl, rfl⟩)
    · exact herror _ _ error hp₂.closing

theorem databaseReady_append (hd : DatabaseReady h v)
    (he : e.op ≠ .databaseIsConfigured ∧ e.op ≠ .databaseSettings) :
    DatabaseReady (h ++ [e]) v where
  configured c hmem := by
    rcases List.mem_append.mp hmem with hmem | hmem
    · exact hd.configured c hmem
    · rw [← List.mem_singleton.mp hmem] at he
      exact (he.1 rfl).elim
  verified hmem := by
    rcases List.mem_append.mp hmem with hmem | hmem
    · obtain ⟨x, hx, hone⟩ := hd.verified hmem
      exact ⟨x, hx, List.mem_append_left _ hone⟩
    · rw [← List.mem_singleton.mp hmem] at he
      exact (he.2 rfl).elim

theorem wp_verifyRedisOnStartup (hp : Prepared enabled verify redis h v)
    (hd : DatabaseReady h v)
    (hok : ∀ h', Prepared enabled verify redis h' v → DatabaseReady h' v →
      (verify = true → ⟨.ping redis, .ok true⟩ ∈ h') → post h' v (.ok ()))
    (herror : ∀ h' v' error, Closing [] (Owned redis v') h' → post h' v' (.error error)) :
    Scoped.wp Permitted post h v (verifyRedisOnStartup verify redis) := by
  unfold verifyRedisOnStartup
  cases verify with
  | false => exact hok h hp hd fun hf => by cases hf
  | true =>
    have hheld := (hp.closing.held .redisClient redis).mpr ⟨rfl, by simp⟩
    refine (Scoped.wp_perform_bind _).mpr ⟨hheld, fun r => ?_⟩
    have hp' := prepared_neutral hp (e := ⟨.ping redis, r⟩) ⟨rfl, rfl⟩ ⟨by simp, by simp⟩
    have hd' := databaseReady_append hd (e := ⟨.ping redis, r⟩) ⟨by simp, by simp⟩
    rcases r with fault | response
    · cases fault with
      | none => exact herror _ _ _ hp'.closing
      | some f => exact herror _ _ _ hp'.closing
    · cases response with
      | false => exact herror _ _ _ hp'.closing
      | true => exact hok _ hp' hd' fun _ => by simp

/-- The HTTP client is open only while requests are served. -/
theorem closing_httpClient (hc : Closing [] (Owned redis v) h) (client : Handle)
    (state : AppState) (served closed : Except Raised Unit) :
    Closing [] (Owned redis v) (h ++ [⟨.acquire .httpClient, .ok client⟩] ++
      [⟨.serve state, served⟩] ++ [⟨.release .httpClient client, closed⟩]) where
  held k y := by
    rw [held_release, held_neutral ⟨rfl, rfl⟩, held_acquire, hc.held k y]
    constructor
    · rintro ⟨hhttp | howned, hne⟩
      · exact (hne hhttp).elim
      · exact howned
    · rintro ⟨hy, hk⟩
      refine ⟨Or.inr ⟨hy, hk⟩, ?_⟩
      rintro ⟨rfl, -⟩
      exact hy
  released k y r hmem := by
    simp only [List.append_assoc, List.mem_append, List.mem_singleton] at hmem
    rcases hmem with hmem | hmem | hmem | hmem
    · exact hc.released k y r hmem
    · cases hmem
    · cases hmem
    · cases hmem
      exact Or.inl rfl

/-- Requests are served when everything is ready, and the HTTP client is closed after them. -/
theorem wp_serve (hp : Prepared enabled verify redis h v) (hd : DatabaseReady h v)
    (hm : v.metricsServer.isSome = enabled)
    (hr : verify = true → ⟨.ping redis, .ok true⟩ ∈ h)
    (hok : ∀ h' v', Closing [] (Owned redis v') h' → (∃ state, ⟨.serve state, .ok ()⟩ ∈ h') →
      post h' v' (.ok ()))
    (herror : ∀ h' v' error, Closing [] (Owned redis v') h' → post h' v' (.error error)) :
    Scoped.wp Permitted post h v serve := by
  unfold serve
  refine (Scoped.wp_perform_bind _).mpr ⟨fun y hy => ((hp.closing.held _ _).mp hy).1, ?_⟩
  intro opened
  refine Scoped.wp_orRaise_bind (fun client hopened => ?_) fun error hopened => ?_
  · subst hopened
    let h₁ := h ++ [(⟨.acquire .httpClient, .ok client⟩ : Exchange lifespanInterface)]
    have hheld (k y) : Held h₁ k y ↔ (k = .httpClient ∧ y = client) ∨ Owned redis v k y := by
      rw [held_acquire, hp.closing.held k y]
      simp
    have hd' : DatabaseReady h₁ v := databaseReady_append hd ⟨by simp, by simp⟩
    have hready : Ready h₁ { v.state with httpClient := some client } := by
      refine ⟨⟨redis, (hheld _ _).mpr (Or.inr rfl), hp.redisState⟩, fun hmem => ?_,
        ⟨client, (hheld _ _).mpr (Or.inl ⟨rfl, rfl⟩), rfl⟩, fun x hx => ?_, fun b hmem => ?_,
        fun x hx => ?_, fun c hmem => ?_, ?_, fun hmem => ?_⟩
      · have hverify := hp.verify_eq true (redisSettings_append ⟨by simp, by simp⟩ hmem)
        exact ⟨redis, hp.redisState.1, List.mem_append_left _ (hr hverify)⟩
      · exact (hheld _ _).mpr (Or.inr (hp.metricsState.symm.trans hx))
      · have henabled := hp.enabled_eq b (settings_append ⟨by simp, by simp⟩ hmem)
        rw [← henabled, ← hm]
        exact congrArg Option.isSome hp.metricsState
      · exact (hheld _ _).mpr (Or.inr (hp.engineState.symm.trans hx))
      · exact (congrArg Option.isSome hp.engineState).trans (hd'.configured c hmem)
      · exact hp.factoryState.trans hp.engineState.symm
      · obtain ⟨x, hx, hone⟩ := hd'.verified hmem
        exact ⟨x, hp.engineState.trans hx, hone⟩
    rw [Scoped.wp_tryFinally, Scoped.wp_bind, Scoped.wp_update, Scoped.sequel_ok, Scoped.wp_bind,
      Scoped.wp_read, Scoped.sequel_ok]
    refine (Scoped.wp_perform_bind _).mpr ⟨hready, fun served => ?_⟩
    rw [Scoped.wp_orRaise]
    have hheld' : Held (h₁ ++ [⟨.serve { v.state with httpClient := some client }, served⟩])
        .httpClient client := by
      rw [held_neutral ⟨rfl, rfl⟩, hheld]
      exact Or.inl ⟨rfl, rfl⟩
    refine (Scoped.wp_perform_bind _).mpr ⟨hheld', fun closed => ?_⟩
    have hclosing := closing_httpClient hp.closing client
      { v.state with httpClient := some client } served closed
    rw [Scoped.wp_orRaise]
    cases closed with
    | error error => exact herror _ _ error hclosing
    | ok u =>
      cases served with
      | error error => exact herror _ _ error hclosing
      | ok u => exact hok _ _ hclosing ⟨{ v.state with httpClient := some client }, by simp⟩
  · subst hopened
    exact herror _ _ error (closing_neutral hp.closing ⟨rfl, rfl⟩)

end Opening

section Lifespan

variable {redis : Handle} {h : History lifespanInterface} {v : Variables}

/-- How a lifespan leaves its resources, before the ledger is drawn up. -/
def Left (h : History lifespanInterface) (_ : Variables) (outcome : Except Raised Unit) : Prop :=
  (∃ owned, Single owned ∧ (∀ x, ¬ owned .httpClient x) ∧ Stopped owned h) ∧
    (outcome = .ok () → (∃ state, ⟨.serve state, .ok ()⟩ ∈ h) ∧ ∀ kind x, ¬ Held h kind x)

def Nothing : Resource → Handle → Prop := fun _ _ => False

theorem closing_nil : Closing [] Nothing [] where
  held k x := by simp [Held, Ledger.held, Nothing]
  released k x r hmem := by cases hmem

/-- An exception before the first client is opened. -/
theorem left_of_nothing (hc : Closing [] Nothing h) (error : Raised) : Left h v (.error error) := by
  have hnone : ∀ k x, ¬ Nothing k x := fun _ _ hf => hf
  have hall := closing_absent (closing_absent (closing_absent hc (hnone .metricsServer))
    (hnone .databaseEngine)) (hnone .redisClient)
  exact ⟨⟨Nothing, fun _ _ _ hf => hf.elim, hnone _, Or.inl hall⟩, fun he => by cases he⟩

theorem left_of_stopped (hstop : Stopped (Owned redis v) h) (error : Raised) :
    Left h v (.error error) :=
  ⟨⟨Owned redis v, single_owned, fun _ hf => hf, hstop⟩, fun he => by cases he⟩

theorem not_held_of_closed (hc : Closing shutdownOrder (Owned redis v) h) (kind : Resource)
    (x : Handle) : ¬ Held h kind x := by
  rw [hc.held]
  rintro ⟨howned, hmem⟩
  cases kind with
  | httpClient => exact howned
  | _ => exact hmem (by decide)

/-- After an exception of the guarded part, and after its regular end. -/
theorem finally_error (hc : Closing [] (Owned redis v) h) (error : Raised) :
    Scoped.Finally Permitted Left (shutdown redis) h v (.error error) := by
  refine wp_shutdown hc (fun h' v' _ hclosed => ?_) fun h' v' error' hstop => ?_
  · exact left_of_stopped (Or.inl hclosed) error
  · exact left_of_stopped hstop error'

theorem finally_ok (hc : Closing [] (Owned redis v) h)
    (hs : ∃ state, ⟨.serve state, .ok ()⟩ ∈ h) :
    Scoped.Finally Permitted Left (shutdown redis) h v (.ok ()) := by
  refine wp_shutdown hc (fun h' v' hle hclosed => ?_) fun h' v' error' hstop => ?_
  · obtain ⟨state, hstate⟩ := hs
    refine ⟨⟨Owned redis v, single_owned, fun _ hf => hf, Or.inl hclosed⟩, fun _ => ?_⟩
    exact ⟨⟨state, hle.subset hstate⟩, not_held_of_closed hclosed⟩
  · exact left_of_stopped hstop error'

theorem wp_guarded {enabled verify : Bool} (hp : Prepared enabled verify redis h v)
    (hq : NoDatabase h) (hserver : v.metricsServer = none) (hengine : v.databaseEngine = none) :
    Scoped.wp Permitted (Scoped.Finally Permitted Left (shutdown redis)) h v (do
      openMetricsServer enabled
      openDatabase
      verifyRedisOnStartup verify redis
      serve) := by
  rw [Scoped.wp_bind]
  refine wp_openMetricsServer hp hq hserver (fun h₁ v₁ hp₁ hq₁ hm₁ hv₁ => ?_)
    fun h' v' error hc => finally_error hc error
  rw [Scoped.sequel_ok, Scoped.wp_bind]
  refine wp_openDatabase hp₁ hq₁ (hv₁.trans hengine) (fun h₂ v₂ hp₂ hd₂ hv₂ => ?_)
    fun h' v' error hc => finally_error hc error
  rw [Scoped.sequel_ok, Scoped.wp_bind]
  refine wp_verifyRedisOnStartup hp₂ hd₂ (fun h₃ hp₃ hd₃ hr₃ => ?_)
    fun h' v' error hc => finally_error hc error
  rw [Scoped.sequel_ok]
  refine wp_serve hp₃ hd₃ (hv₂ ▸ hm₁) hr₃ (fun h' v' hc hs => finally_ok hc hs)
    fun h' v' error hc => finally_error hc error

theorem wp_lifespan (v : Variables) : Scoped.wp Permitted Left [] v lifespan := by
  have hnothing := closing_nil
  unfold lifespan
  refine (Scoped.wp_perform_bind _).mpr ⟨trivial, fun metrics => ?_⟩
  have hnothing := closing_neutral hnothing (e := ⟨.metricsSettings, metrics⟩) ⟨rfl, rfl⟩
  refine Scoped.wp_orRaise_bind (fun enabled hm => ?_) fun error _ => left_of_nothing hnothing _
  refine (Scoped.wp_perform_bind _).mpr ⟨trivial, fun upstream => ?_⟩
  have hnothing := closing_neutral hnothing (e := ⟨.upstreamResilienceSettings, upstream⟩)
    ⟨rfl, rfl⟩
  refine Scoped.wp_orRaise_bind (fun u hu => ?_) fun error _ => left_of_nothing hnothing _
  rw [Scoped.wp_bind, Scoped.wp_update, Scoped.sequel_ok]
  refine (Scoped.wp_perform_bind _).mpr ⟨trivial, fun settings => ?_⟩
  have hnothing := closing_neutral hnothing (e := ⟨.redisSettings, settings⟩) ⟨rfl, rfl⟩
  refine Scoped.wp_orRaise_bind (fun verify hv => ?_) fun error _ => left_of_nothing hnothing _
  refine (Scoped.wp_perform_bind _).mpr ⟨fun x hx => ((hnothing.held _ _).mp hx).1, ?_⟩
  intro opened
  refine Scoped.wp_orRaise_bind (fun redis hredis => ?_) fun error hopened => ?_
  · subst hm hu hv hredis
    rw [Scoped.wp_bind, Scoped.wp_update, Scoped.sequel_ok, Scoped.wp_tryFinally]
    refine wp_guarded ⟨?_, ?_, ?_, ⟨rfl, rfl, rfl⟩, rfl, rfl, rfl⟩ ?_ rfl rfl
    · refine closing_acquire hnothing fun k y => ?_
      cases k <;> simp [Owned, Nothing]
    · intro b hmem
      simp at hmem
      exact hmem.symm
    · intro b hmem
      simp at hmem
      exact hmem.symm
    · intro e he
      simp at he
      rcases he with rfl | rfl | rfl | rfl <;> simp
  · subst hopened
    exact left_of_nothing (closing_neutral hnothing ⟨rfl, rfl⟩) _

theorem orderly_of_permitted {op : LifespanOp} (hop : Permitted h op) (r : op.Reply) :
    resources.Orderly h ⟨op, r⟩ := by
  cases op with
  | acquire kind =>
    refine ⟨fun x hx => ?_, fun x hx => (by cases hx)⟩
    rcases r with error | handle
    · cases hx
    · cases hx
      exact ⟨Bool.eq_false_iff.mpr (hop handle), rfl⟩
  | release kind handle =>
    refine ⟨fun x hx => (by cases hx), fun x hx => ?_⟩
    cases hx
    exact hop
  | _ => exact ⟨fun x hx => (by cases hx), fun x hx => (by cases hx)⟩

/-- Whatever fails and wherever, and whatever an earlier lifespan has left in `app.state`:
nothing is opened twice or used before it is open; requests are served only when all that is
configured is open and verified; and in the end each thing that was opened has been closed
once, but for what comes after a closing that has raised. -/
theorem lifespan_scoped (v : Variables) :
    Scoped.wp Permitted (fun h _ outcome => Ended h outcome) [] v lifespan := by
  have hempty : resources.Balanced [] := fun _ => rfl
  have hbalanced := Ledger.wp_balanced (wp_lifespan v) hempty
    fun h op r hop => orderly_of_permitted hop r
  refine Prog.wp_mono hbalanced fun h outcome _ hleft => ?_
  obtain ⟨hleft, hb⟩ := hleft
  rcases outcome with ⟨error, v'⟩ | ⟨u, v'⟩
  · obtain ⟨⟨owned, hs, hhttp, hstop⟩, hserved⟩ := hleft
    exact ⟨hb, leaked_of_stopped hstop hs hb hhttp, hserved⟩
  · obtain ⟨⟨owned, hs, hhttp, hstop⟩, hserved⟩ := hleft
    exact ⟨hb, leaked_of_stopped hstop hs hb hhttp, hserved⟩

end Lifespan

end SecureGateway.Lifespan
