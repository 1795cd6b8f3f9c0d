import SecureGateway.Gateway.Passwords
import SecureGateway.Gateway.ZeroTrust

/-!
# On whose behalf

From a password to a service. Whatever is done on behalf of a user is traced back, over all runs,
through the token of the request to a login that has given a password of the account.
-/
namespace SecureGateway.Gateway

open Interleaving Auth

/-- What is done on behalf of a user: a call of a service, a change of a role. -/
def OnBehalf : GatewayOp → Prop
  | .upstream _ | .insertUserRole _ _ | .deleteUserRole _ _ => True
  | _ => False

/-- The permission that a request acts on. -/
def PermissionNeeded : ApiRequest → String → Prop
  | .proxy http serviceName _, code => PermissionFor serviceName http.method code
  | .assignRole _ _ _, code | .removeRole _ _ _, code => code = rolesManagePermission
  | _, _ => False

variable {cfg : Config} {circulating : Payload → Prop} {opens : String → String → Prop}
  {w : World} {p q q' : Pool (gatewaySystem cfg)} {l : Label (gatewaySystem cfg)}
  {ts : List (Transition (gatewaySystem cfg))} {payload : Payload} {name : String}

/-- The payload was signed, before the run or by a thread of it. -/
def SignedBy (circulating : Payload → Prop) (threads : List (Thread (gatewaySystem cfg)))
    (payload : Payload) : Prop :=
  circulating payload ∨ ∃ th ∈ threads, ∃ reply, Performed th.history (.jwtEncode payload) reply

/-- PyJWT accepts what has been signed with the key of the process, and nothing else. -/
def Genuine (circulating : Payload → Prop) (threads : List (Thread (gatewaySystem cfg))) :
    Exchange gateway → Prop
  | ⟨.jwtDecode _, .ok payload⟩ => SignedBy circulating threads payload
  | _ => True

/-- A login has given a password of the account. -/
def LoggedIn (opens : String → String → Prop) (w : World)
    (threads : List (Thread (gatewaySystem cfg))) (name : String) : Prop :=
  ∃ th ∈ threads, ∃ http username password, th.request = .token http username password ∧
    normalizeUsername cfg.unicode username = .ok name ∧ PasswordOf opens w threads name password

/-- The account has a token from before the run, or it has logged in. -/
def Vouched (circulating : Payload → Prop) (opens : String → String → Prop) (w : World)
    (threads : List (Thread (gatewaySystem cfg))) (name : String) : Prop :=
  (∃ payload subject, circulating payload ∧ payload.get "sub" = .string subject ∧
    normalizeUsername cfg.unicode subject = .ok name) ∨ LoggedIn opens w threads name

/-- Every token that a request was accepted with has been signed. -/
def TokensSigned (circulating : Payload → Prop) (p : Pool (gatewaySystem cfg)) : Prop :=
  ∀ th ∈ p.threads, ∀ token payload, Performed th.history (.jwtDecode token) (.ok payload) →
    SignedBy circulating p.threads payload

theorem SignedBy.step (h : SignedBy circulating q.threads payload) (hs : Step q l q') :
    SignedBy circulating q'.threads payload := by
  rcases h with hbefore | ⟨th, hth, reply, hsigned⟩
  · exact Or.inl hbefore
  · obtain ⟨th', hth', -, hkept⟩ := hs.mem_threads hth
    exact Or.inr ⟨th', hth', reply, hkept _ hsigned⟩

theorem tokensSigned_step (ht : TokensSigned circulating q) (hs : Step q l q')
    (hg : ∀ i x, l = .act i x → Genuine circulating q.threads x) :
    TokensSigned circulating q' := by
  intro th' hth' token payload hdecoded
  rcases hs.mem_history hth' hdecoded with ⟨th, hth, -, hold⟩ | ⟨i, -, hl, -⟩
  · exact (ht th hth token payload hold).step hs
  · exact SignedBy.step (hg i _ hl) hs

theorem tokensSigned_run (hr : Run (.initial w) ts p)
    (hg : ∀ t ∈ ts, ∀ i x, t.label = .act i x → Genuine circulating t.before.threads x) :
    TokensSigned circulating p := by
  have hstart : TokensSigned circulating (Pool.initial w : Pool (gatewaySystem cfg)) := by
    intro th hth
    cases hth
  refine (Run.invariant_along (TokensSigned circulating)
    (fun t => ∀ i x, t.label = .act i x → Genuine circulating t.before.threads x) hr hstart ?_
    hg).1
  intro q l q' hs hgood ht
  exact tokensSigned_step ht hs hgood

/-- The subject that `decode_access_token` returns is that of the payload. -/
theorem claimsOfPayload_subject {claims : AccessTokenClaims}
    (h : claimsOfPayload cfg payload = .ok claims) :
    payload.get "sub" = .string claims.subject := by
  unfold claimsOfPayload at h
  split at h
  · cases h
  · split at h
    · next subject hsubject =>
      split at h
      · cases h
      · split at h
        · split at h
          · cases h
          · cases hissued : numericDateToDatetime (payload.get "iat") "iat" with
            | error e =>
              rw [hissued] at h
              cases h
            | ok issuedAt =>
              cases hexpires : numericDateToDatetime (payload.get "exp") "exp" with
              | error e =>
                rw [hissued, hexpires] at h
                cases h
              | ok expiresAt =>
                rw [hissued, hexpires] at h
                change (if _ then _ else _) = _ at h
                split at h
                · cases h
                · cases h
                  exact hsubject
        · cases h
    · cases h

/-- What is done on behalf of a user comes after the checks of its request. -/
theorem Permitted.checked {r : ApiRequest} {h : History gateway} {op : GatewayOp}
    (hp : Permitted cfg r h op) (hop : OnBehalf op) :
    ∃ http userId code, PermissionNeeded r code ∧ Authenticated cfg http userId h ∧
      Performed h (.selectPermissionExists userId code) (.ok true) := by
  cases op with
  | upstream e =>
    obtain ⟨http, serviceName, path, userId, code, u, rfl, hz, -⟩ := hp
    exact ⟨http, userId, code, hz.code_for, hz.authenticated, hz.granted⟩
  | insertUserRole userId roleId =>
    obtain ⟨http, username, roleName, rfl, actor, ha, hgranted⟩ := hp
    exact ⟨http, actor, _, rfl, ha, hgranted⟩
  | deleteUserRole userId roleId =>
    obtain ⟨http, username, roleName, rfl, actor, ha, hgranted⟩ := hp
    exact ⟨http, actor, _, rfl, ha, hgranted⟩
  | _ => exact hop.elim

/-- A signed token stands for a login, or was there before. -/
theorem PasswordsKept.vouched (hk : PasswordsKept opens w p) (hr : Run (.initial w) ts p)
    (hsigned : SignedBy circulating p.threads payload) {subject : String}
    (hsubject : payload.get "sub" = .string subject)
    (hn : normalizeUsername cfg.unicode subject = .ok name) :
    Vouched circulating opens w p.threads name := by
  rcases hsigned with hbefore | ⟨th, hth, reply, hsigned⟩
  · exact Or.inl ⟨payload, subject, hbefore, hsubject, hn⟩
  · obtain ⟨http, username, password, name', hrequest, hn', hsubject', hpassword⟩ :=
      hk.signed hr hth hsigned
    obtain rfl : subject = name' := Json.string.inj (hsubject.symm.trans hsubject')
    rw [normalizeUsername_fixed hn'] at hn
    cases hn
    exact Or.inr ⟨th, hth, http, username, password, hrequest, hn', hpassword⟩

/-- From a service back to a password, however requests are interleaved and whatever fails, with
a hasher that does what it is for and tokens that nobody forges. Whatever is done on behalf of a
user is done for an account that was found active and to hold the permission of the request; and
that account has a token from before the run, or a login has given a password of it by then. -/
theorem behalf_traced (cfg : Config) (opens : String → String → Prop)
    (circulating : Payload → Prop) (w : World) (ts : List (Transition (gatewaySystem cfg)))
    (p : Pool (gatewaySystem cfg)) (hr : Run (.initial w) ts p) (hkeyed : Keyed w.db.users)
    (hf : ∀ t ∈ ts, ∀ i x, t.label = .act i x → Faithful opens x)
    (hg : ∀ t ∈ ts, ∀ i x, t.label = .act i x → Genuine circulating t.before.threads x) :
    ∀ t ∈ ts, ∀ i x, t.label = .act i x → OnBehalf x.op →
      ∃ th record code, t.before.threads[i]? = some th ∧ PermissionNeeded th.request code ∧
        Performed th.history (.selectUser record.username) (.ok (some record)) ∧
        record.isActive = true ∧
        Performed th.history (.selectPermissionExists record.id code) (.ok true) ∧
        Vouched circulating opens w t.before.threads record.username := by
  intro t ht i x hl hop
  obtain ⟨th, hi, hok⟩ := (gatewayDiscipline cfg).act_ok hr ht hl
  obtain ⟨http, userId, code, hcode, hauthenticated, hgranted⟩ := hok.checked hop
  obtain ⟨token, payload, claims, name, record, -, hdecoded, hclaims, hname, hselected, hactive,
    rfl⟩ := hauthenticated
  obtain ⟨ts₁, ts₂, rfl⟩ := List.append_of_mem ht
  have hupTo := hr.upTo
  have hk := passwordsKept_run hkeyed hupTo fun t' ht' => hf t' (List.mem_append_left _ ht')
  have htokens := tokensSigned_run hupTo fun t' ht' => hg t' (List.mem_append_left _ ht')
  have hth := List.mem_of_getElem? hi
  have hfound := hk.found th hth name record hselected
  have hvouched := hk.vouched hupTo (htokens th hth token payload hdecoded)
    (claimsOfPayload_subject hclaims) hname
  refine ⟨th, record, code, hi, hcode, ?_, hactive, hgranted, ?_⟩
  · rw [hfound.username]
    exact hselected
  · rw [hfound.username]
    exact hvouched

section Example

/-- The payload that alice gets signed, and presents. -/
def alicePayload : Payload :=
  accessTokenPayload defaultConfig "alice" 0 900000000 0x0b000000000040008000000000000002#128

def alicePassword : String := "wonderland and back"

/-- Alice logs in, and reads from a service with the token. -/
def aliceSession : List (Move (gatewaySystem defaultConfig)) :=
  .spawn (.token (localRequest "POST" none) "alice" alicePassword) :: steps 0 10 true ++
    .spawn (.proxy (localRequest "GET" (some "token")) "service-a" "health") ::
      List.replicate 12 (.act 1 (World.reply .default
        { outsideWorks true with decoded := .ok alicePayload }))

def signs (payload : Payload) : Exchange gateway → Bool
  | ⟨.jwtEncode signed, _⟩ => signed = payload
  | _ => false

/-- What is accepted has been signed by a thread. -/
def acceptsSigned (threads : List (Thread (gatewaySystem defaultConfig))) :
    Label (gatewaySystem defaultConfig) → Bool
  | .act _ ⟨.jwtDecode _, .ok payload⟩ => threads.any fun th => th.history.any (signs payload)
  | _ => true

theorem genuine_acceptsSigned {threads : List (Thread (gatewaySystem defaultConfig))} {i : ℕ}
    {x : Exchange gateway} (h : acceptsSigned threads (.act i x) = true) :
    Genuine (fun _ => False) threads x := by
  obtain ⟨op, reply⟩ := x
  cases op with
  | jwtDecode token =>
    cases reply with
    | error e => trivial
    | ok payload =>
      obtain ⟨th, hth, hany⟩ := List.any_eq_true.mp h
      obtain ⟨⟨op, reply⟩, hx, hsigns⟩ := List.any_eq_true.mp hany
      cases op with
      | jwtEncode signed =>
        obtain rfl : signed = payload := of_decide_eq_true hsigns
        exact Or.inr ⟨th, hth, reply, hx⟩
      | _ => cases hsigns
  | _ => trivial

/-- She reaches the service, and has given her password before. -/
theorem behalf_traced_alice :
    ∃ (ts : List (Transition (gatewaySystem defaultConfig))) (p : Pool _),
      Run (.initial migratedWorld) ts p ∧ ∃ t ∈ ts, ∃ i u r name,
        t.label = .act i ⟨.upstream (.request u), r⟩ ∧
        LoggedIn (OpensOnly alicePassword alice.hashedPassword) migratedWorld t.before.threads
          name := by
  have hplay : ((Pool.initial migratedWorld).play aliceSession).any (fun ts =>
      (ts.all (fun t => stepAsksOnly alicePassword alice.hashedPassword t.label) &&
        ts.all (fun t => acceptsSigned t.before.threads t.label)) &&
          ts.any fun t => isClientCall t.label) = true := by
    decide +kernel
  obtain ⟨ts, hts, hplayed⟩ := (Option.any_eq_true _ _).mp hplay
  obtain ⟨hchecks, hany⟩ := Bool.and_eq_true_iff.mp hplayed
  obtain ⟨hasks, haccepts⟩ := Bool.and_eq_true_iff.mp hchecks
  obtain ⟨t, ht, hcall⟩ := List.any_eq_true.mp hany
  obtain ⟨i, u, r, hl⟩ := isClientCall_inv hcall
  obtain ⟨p, hr⟩ := Pool.play_run hts
  have hgenuine : ∀ t' ∈ ts, ∀ j x, t'.label = .act j x →
      Genuine (fun _ => False) t'.before.threads x := by
    intro t' ht' j x hl'
    have haccept := List.all_eq_true.mp haccepts t' ht'
    rw [hl'] at haccept
    exact genuine_acceptsSigned haccept
  obtain ⟨th, record, code, -, -, -, -, -, hvouched⟩ := behalf_traced defaultConfig _ _
    migratedWorld ts p hr keyed_migrated (faithful_steps hasks) hgenuine t ht i _ hl trivial
  rcases hvouched with ⟨payload, subject, hnone, -⟩ | hlogged
  · exact hnone.elim
  · exact ⟨ts, p, hr, t, ht, i, u, r, _, hl, hlogged⟩

end Example

end SecureGateway.Gateway
