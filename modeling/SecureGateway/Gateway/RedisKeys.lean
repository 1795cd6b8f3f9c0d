import SecureGateway.Auth.Users
import SecureGateway.Gateway.Lookups

/-!
# The keys of Redis

A key is the prefix, the family, the name of a policy and a digest, joined by colons. A name may
hold colons itself; the digests have one length, so a key can be read from its end.
-/
namespace SecureGateway.Gateway

open Interleaving

/-- What is relied on of SHA-256: hexadecimal digests of one length, and no collision among
`texts`. No digest of a fixed length tells all texts apart. -/
structure DigestsApart (digest : String → String) (texts : Set String) : Prop where
  length : ∀ text ∈ texts, (digest text).length = 64
  injOn : Set.InjOn digest texts

section Suffixes

variable {a b c d : String}

theorem append_eq_append_iff (h : b.length = d.length) : a ++ b = c ++ d ↔ a = c ∧ b = d := by
  constructor
  · intro heq
    have hlist : a.toList ++ b.toList = c.toList ++ d.toList := by
      rw [← String.toList_append, heq, String.toList_append]
    obtain ⟨hac, hbd⟩ := List.append_inj' hlist h
    exact ⟨String.toList_inj.mp hac, String.toList_inj.mp hbd⟩
  · rintro ⟨rfl, rfl⟩
    rfl

theorem append_left_inj : a ++ b = a ++ d ↔ b = d := by
  constructor
  · intro heq
    have hlist : a.toList ++ b.toList = a.toList ++ d.toList := by
      rw [← String.toList_append, heq, String.toList_append]
    exact String.toList_inj.mp (List.append_cancel_left hlist)
  · rintro rfl
    rfl

end Suffixes

variable {cfg : Config} {texts : Set String}

/-- A key read from its end: the digest, the colon before it, the name. -/
theorem joined_eq_iff (h : DigestsApart cfg.sha256Hex texts) {head name name' text text' : String}
    (ht : text ∈ texts) (ht' : text' ∈ texts) :
    head ++ name ++ ":" ++ cfg.sha256Hex text = head ++ name' ++ ":" ++ cfg.sha256Hex text' ↔
      name = name' ∧ text = text' := by
  have hlength : (cfg.sha256Hex text).length = (cfg.sha256Hex text').length :=
    (h.length text ht).trans (h.length text' ht').symm
  rw [append_eq_append_iff hlength, append_eq_append_iff rfl, h.injOn.eq_iff ht ht']
  constructor
  · rintro ⟨⟨hname, -⟩, htext⟩
    exact ⟨append_left_inj.mp hname, htext⟩
  · rintro ⟨rfl, rfl⟩
    exact ⟨⟨rfl, rfl⟩, rfl⟩

/-- The key that an operation sends to Redis. -/
def GatewayOp.redisKey : GatewayOp → Option String
  | .evalTokenBucket key _ _ _ _ _ | .evalLockStatus key _ | .evalLoginFailure key _ _ _ _
  | .evalLoginReset key => some key
  | _ => none

/-- An operation that uses no key but `key`. -/
def UsesKey (key : String) (op : GatewayOp) : Prop := ∀ k ∈ op.redisKey, k = key

section Families

variable (cfg) (identity identifier : String)

/-- A check uses the key of the stripped identity. -/
theorem check_usesKey (policy : RateLimit.RateLimitPolicy) :
    (RedisRateLimiter.check cfg identity policy).Only
      (UsesKey (RedisRateLimiter.buildKey cfg (Python.strip identity) policy)) :=
  only_check_of (fun _ hk => by cases hk) fun _ _ hk => (Option.some.inj hk).symm

theorem checkLock_usesKey (policy : Login.LoginProtectionPolicy) :
    (RedisLoginProtection.checkLock cfg identifier policy).Only
      (UsesKey (RedisLoginProtection.buildKey cfg identifier policy)) := by
  refine only_decided (fun _ hk => by cases hk) fun nowMs => ?_
  exact .perform (fun _ hk => (Option.some.inj hk).symm) fun raw => .finish (.ok raw)

theorem recordFailure_usesKey (policy : Login.LoginProtectionPolicy) :
    (RedisLoginProtection.recordFailure cfg identifier policy).Only
      (UsesKey (RedisLoginProtection.buildKey cfg identifier policy)) := by
  refine only_decided (fun _ hk => by cases hk) fun nowMs => ?_
  exact .perform (fun _ hk => (Option.some.inj hk).symm) fun raw => .finish (.ok raw)

theorem reset_usesKey (policy : Login.LoginProtectionPolicy) :
    (RedisLoginProtection.reset cfg identifier policy).Only
      (UsesKey (RedisLoginProtection.buildKey cfg identifier policy)) :=
  Prog.only_call_bind (fun _ hk => (Option.some.inj hk).symm) only_evaluated

/-- The families part at the character after the prefix and its colon. -/
theorem rateLimit_ne_login (identity identifier : String) (policy : RateLimit.RateLimitPolicy)
    (policy' : Login.LoginProtectionPolicy) :
    RedisRateLimiter.buildKey cfg identity policy ≠
      RedisLoginProtection.buildKey cfg identifier policy' := by
  intro heq
  simp only [RedisRateLimiter.buildKey, RedisLoginProtection.buildKey, String.append_assoc] at heq
  have hlist := congrArg String.toList (append_left_inj.mp heq)
  simp only [String.toList_append] at hlist
  have hsecond : some 'r' = some 'l' := congrArg (fun l : List Char => l[1]?) hlist
  cases hsecond

end Families

/-- A login identifier that names a user is counted under the username. -/
theorem canonicalize_of_normalize {identifier name : String}
    (h : Auth.normalizeUsername cfg.unicode identifier = .ok name) :
    canonicalizeLoginIdentifier cfg identifier = name := by
  have hname : cfg.unicode.canonical identifier = name := Auth.normalizeUsername_eq h
  have hne : name ≠ "" := by
    rintro rfl
    exact absurd (Auth.normalized_plain h).2.1 (by decide)
  simp only [canonicalizeLoginIdentifier, hname, if_neg hne]

/-- Two texts share a bucket, or a lock, exactly when policy and text agree; the two families
never meet; and a user's spellings share one lock that no other user has. -/
theorem redis_keys_apart (cfg : Config) {texts : Set String}
    (h : DigestsApart cfg.sha256Hex texts) :
    (∀ (policy policy' : RateLimit.RateLimitPolicy) (identity identity' : String),
      Python.strip identity ∈ texts → Python.strip identity' ∈ texts →
      (RedisRateLimiter.buildKey cfg (Python.strip identity) policy =
          RedisRateLimiter.buildKey cfg (Python.strip identity') policy' ↔
        policy.name = policy'.name ∧ Python.strip identity = Python.strip identity')) ∧
    (∀ (policy policy' : Login.LoginProtectionPolicy) (identifier identifier' : String),
      canonicalizeLoginIdentifier cfg identifier ∈ texts →
      canonicalizeLoginIdentifier cfg identifier' ∈ texts →
      (RedisLoginProtection.buildKey cfg identifier policy =
          RedisLoginProtection.buildKey cfg identifier' policy' ↔
        policy.name = policy'.name ∧
          canonicalizeLoginIdentifier cfg identifier =
            canonicalizeLoginIdentifier cfg identifier')) ∧
    (∀ (policy : RateLimit.RateLimitPolicy) (policy' : Login.LoginProtectionPolicy)
      (identity identifier : String),
      RedisRateLimiter.buildKey cfg (Python.strip identity) policy ≠
        RedisLoginProtection.buildKey cfg identifier policy') ∧
    ∀ (policy : Login.LoginProtectionPolicy) (identifier identifier' name name' : String),
      Auth.normalizeUsername cfg.unicode identifier = .ok name →
      Auth.normalizeUsername cfg.unicode identifier' = .ok name' →
      (name = name' → RedisLoginProtection.buildKey cfg identifier policy =
        RedisLoginProtection.buildKey cfg identifier' policy) ∧
      (name ∈ texts → name' ∈ texts → name ≠ name' →
        ∀ policy', RedisLoginProtection.buildKey cfg identifier policy ≠
          RedisLoginProtection.buildKey cfg identifier' policy') := by
  refine ⟨?_, ?_, ?_, ?_⟩
  · intro policy policy' identity identity' ht ht'
    exact joined_eq_iff h ht ht'
  · intro policy policy' identifier identifier' ht ht'
    exact joined_eq_iff h ht ht'
  · intro policy policy' identity identifier
    exact rateLimit_ne_login cfg _ identifier policy policy'
  · intro policy identifier identifier' name name' hname hname'
    have hcanonical := canonicalize_of_normalize hname
    have hcanonical' := canonicalize_of_normalize hname'
    constructor
    · intro hsame
      simp only [RedisLoginProtection.buildKey, hcanonical, hcanonical', hsame]
    · intro ht ht' hne policy' heq
      simp only [RedisLoginProtection.buildKey, hcanonical, hcanonical'] at heq
      exact hne ((joined_eq_iff h ht ht').mp heq).2

/-- Two spellings of one user, and another user whose name is an address. -/
theorem redis_keys_apart_default :
    RedisLoginProtection.buildKey defaultConfig "alice" Login.accountLoginProtectionPolicy =
      RedisLoginProtection.buildKey defaultConfig " ALICE " Login.accountLoginProtectionPolicy ∧
    RedisLoginProtection.buildKey defaultConfig "alice" Login.accountLoginProtectionPolicy ≠
      RedisLoginProtection.buildKey defaultConfig "127.0.0.1"
        Login.accountLoginProtectionPolicy := by
  have hdigests : DigestsApart defaultConfig.sha256Hex {"alice", "127.0.0.1"} := by
    constructor
    · rintro text (rfl | rfl) <;> decide
    · rintro text (rfl | rfl) text' (rfl | rfl) heq
      · rfl
      · exact absurd heq (by decide)
      · exact absurd heq (by decide)
      · rfl
  have halice : Auth.normalizeUsername defaultConfig.unicode "alice" = .ok "alice" := by
    decide +kernel
  have hspelling : Auth.normalizeUsername defaultConfig.unicode " ALICE " = .ok "alice" := by
    decide +kernel
  have haddress : Auth.normalizeUsername defaultConfig.unicode "127.0.0.1" = .ok "127.0.0.1" := by
    decide +kernel
  obtain ⟨-, -, -, husers⟩ := redis_keys_apart defaultConfig hdigests
  constructor
  · exact (husers _ _ _ _ _ halice hspelling).1 rfl
  · exact (husers _ _ _ _ _ halice haddress).2 (Or.inl rfl) (Or.inr rfl) (by decide) _

end SecureGateway.Gateway
