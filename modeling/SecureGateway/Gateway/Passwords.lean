import SecureGateway.Foundation.Traces
import SecureGateway.Gateway.Credentials
import SecureGateway.Gateway.Effects
import SecureGateway.Gateway.TokenRoundTrip

/-!
# Passwords

Which password opens an account, over all runs. A hash may be replaced by one of the password
that a login has just checked, in the middle of other requests; whatever the interleaving, the
password of an account stays the one it was registered with.
-/
namespace SecureGateway.Gateway

open Interleaving Auth

/-- The row that an exchange inserts. -/
def Inserts : Exchange gateway → UserRecord → Prop
  | ⟨.commitUser record _, reply⟩, row => row = record ∧ takenEffect reply = true
  | _, _ => False

section Rows

variable {cfg : Config} {w w' : World} {users users' : List UserRecord}
  {l : Label (gatewaySystem cfg)}

/-- The step inserts the row. -/
def InsertedBy (l : Label (gatewaySystem cfg)) (row : UserRecord) : Prop :=
  ∃ i x, l = .act i x ∧ Inserts x row

/-- The step gives the row the hash that it has. -/
def RehashedBy (l : Label (gatewaySystem cfg)) (row : UserRecord) : Prop :=
  ∃ i x, l = .act i x ∧ x.op = .commitPasswordHash row.id row.hashedPassword

/-- No row has the identifier or the username. -/
def Unused (users : List UserRecord) (row : UserRecord) : Prop :=
  ∀ r ∈ users, r.id ≠ row.id ∧ r.username ≠ row.username

/-- What a step can do to the table of users. -/
structure RowsChange (users : List UserRecord) (l : Label (gatewaySystem cfg))
    (users' : List UserRecord) : Prop where
  kept : ∀ r ∈ users, ∃ r' ∈ users', r'.id = r.id ∧ r'.username = r.username
  came : ∀ r' ∈ users', InsertedBy l r' ∨ ∃ r ∈ users, r.id = r'.id ∧
    r.username = r'.username ∧ (r.hashedPassword = r'.hashedPassword ∨ RehashedBy l r')
  inserted : ∀ row, InsertedBy l row → row ∈ users' ∧ Unused users row

theorem rowsChange_refl (hl : ∀ row, ¬ InsertedBy l row) : RowsChange users l users where
  kept r hr := ⟨r, hr, rfl, rfl⟩
  came r hr := Or.inr ⟨r, hr, rfl, rfl, Or.inl rfl⟩
  inserted row hrow := (hl row hrow).elim

theorem commitUser_inv {record : UserRecord} {roleId : Uuid} {r : Except DbFault Unit}
    (h : w.commitUser record roleId r = some w') :
    (takenEffect r = true ∧ w.insertUser record roleId = some w') ∨
      takenEffect r = false ∧ w' = w := by
  unfold World.commitUser at h
  split at h
  · exact Or.inl ⟨rfl, h⟩
  · split at h <;> cases h
    exact Or.inr ⟨rfl, rfl⟩
  · split at h
    · next hcommitted => exact Or.inl ⟨hcommitted, h⟩
    · next hcommitted =>
      cases h
      exact Or.inr ⟨by simpa [takenEffect] using hcommitted, rfl⟩

theorem unused_of_violatesUnique {db : Database} {record : UserRecord}
    (h : db.violatesUnique record = false) : Unused db.users record := by
  intro r hr
  have hr := List.any_eq_false.mp h r hr
  simp only [Bool.or_eq_true, decide_eq_true_eq, not_or] at hr
  exact hr

theorem rowsChange_insert {i : ℕ} {record : UserRecord} {roleId : Uuid}
    {reply : Except DbFault Unit} (hl : l = .act i ⟨.commitUser record roleId, reply⟩)
    (htaken : takenEffect reply = true) (hunused : Unused users record) :
    RowsChange users l (users ++ [record]) where
  kept r hr := ⟨r, List.mem_append_left _ hr, rfl, rfl⟩
  came r hr := by
    rcases List.mem_append.mp hr with hr | hr
    · exact Or.inr ⟨r, hr, rfl, rfl, Or.inl rfl⟩
    · exact Or.inl ⟨i, _, hl, List.mem_singleton.mp hr, htaken⟩
  inserted row hrow := by
    obtain ⟨j, x, hx, hinserts⟩ := hrow
    cases hl.symm.trans hx
    obtain ⟨rfl, -⟩ := hinserts
    exact ⟨List.mem_append_right _ (List.mem_singleton_self _), hunused⟩

theorem rowsChange_setPasswordHash {i : ℕ} {db : Database} {userId : Uuid}
    {hashedPassword : String} {now : Timestamp} {reply : Except DbFault Unit}
    (hl : l = .act i ⟨.commitPasswordHash userId hashedPassword, reply⟩) :
    RowsChange db.users l (db.setPasswordHash userId hashedPassword now).users where
  kept r hr := by
    refine ⟨_, List.mem_map_of_mem hr, ?_⟩
    split
    · exact ⟨rfl, rfl⟩
    · exact ⟨rfl, rfl⟩
  came r' hr' := by
    obtain ⟨r, hr, rfl⟩ := List.mem_map.mp hr'
    refine Or.inr ⟨r, hr, ?_⟩
    by_cases hid : r.id = userId
    · rw [if_pos hid]
      exact ⟨rfl, rfl, Or.inr ⟨i, _, hl, by rw [hid]⟩⟩
    · rw [if_neg hid]
      exact ⟨rfl, rfl, Or.inl rfl⟩
  inserted row hrow := by
    obtain ⟨j, x, hx, hinserts⟩ := hrow
    cases hl.symm.trans hx
    exact hinserts.elim

theorem Effect.users_eq {op : GatewayOp} (h : Effect w op w')
    (huser : ∀ record roleId, op ≠ .commitUser record roleId)
    (hhash : ∀ userId hashedPassword, op ≠ .commitPasswordHash userId hashedPassword) :
    w'.db.users = w.db.users := by
  cases h with
  | userCommitted => exact (huser _ _ rfl).elim
  | passwordHashCommitted => exact (hhash _ _ rfl).elim
  | @roleInserted userId roleId =>
    simp only [Database.insertUserRole]
    split
    · rfl
    · rfl
  | _ => rfl

theorem respond_rows {i : ℕ} {op : GatewayOp} {r : op.Reply} (hl : l = .act i ⟨op, r⟩)
    (h : w.respond cfg.resilience op r = some w') :
    RowsChange w.db.users l w'.db.users := by
  by_cases huser : ∃ record roleId, op = .commitUser record roleId
  · obtain ⟨record, roleId, rfl⟩ := huser
    rcases commitUser_inv h with ⟨htaken, hinsert⟩ | ⟨hfailed, rfl⟩
    · simp only [World.insertUser] at hinsert
      split at hinsert <;> cases hinsert
      next hkeys =>
      simp only [not_or, Bool.not_eq_true] at hkeys
      exact rowsChange_insert hl htaken (unused_of_violatesUnique hkeys.1)
    · refine rowsChange_refl fun row hrow => ?_
      obtain ⟨j, x, hx, hinserts⟩ := hrow
      cases hl.symm.trans hx
      rw [hinserts.2] at hfailed
      cases hfailed
  · have hinserts : ∀ row, ¬ InsertedBy l row := by
      rintro row ⟨j, x, hx, hrow⟩
      cases hl.symm.trans hx
      cases op with
      | commitUser record roleId => exact huser ⟨record, roleId, rfl⟩
      | _ => exact hrow
    by_cases hhash : ∃ userId hashedPassword, op = .commitPasswordHash userId hashedPassword
    · obtain ⟨userId, hashedPassword, rfl⟩ := hhash
      rcases statement_inv h with ⟨f, -, rfl | rfl⟩ | ⟨-, rfl⟩
      · exact rowsChange_refl hinserts
      · exact rowsChange_setPasswordHash hl
      · exact rowsChange_setPasswordHash hl
    · have hsame := (respond_effect h).users_eq (fun record roleId he => huser ⟨record, roleId, he⟩)
        fun userId hash he => hhash ⟨userId, hash, he⟩
      rw [hsame]
      exact rowsChange_refl hinserts

theorem step_rows {q q' : Pool (gatewaySystem cfg)} (hs : Step q l q') :
    RowsChange q.world.db.users l q'.world.db.users := by
  cases hs with
  | spawn r =>
    refine rowsChange_refl fun row hrow => ?_
    obtain ⟨i, x, hx, -⟩ := hrow
    cases hx
  | tick t =>
    refine rowsChange_refl fun row hrow => ?_
    obtain ⟨i, x, hx, -⟩ := hrow
    cases hx
  | act hi hp hw => exact respond_rows rfl hw

end Rows

section Accounts

/-- The hasher does what it is for: a hash opens only with the password it was made of, and a
password that is verified opens the hash. -/
def Faithful (opens : String → String → Prop) : Exchange gateway → Prop
  | ⟨.hashPassword password, .ok hash⟩ => ∀ other, opens other hash → other = password
  | ⟨.verifyAndUpdatePassword password hash, .ok (valid, replacement)⟩ =>
    (valid = true → opens password hash) ∧
      ∀ hash' ∈ replacement, ∀ other, opens other hash' → other = password
  | _ => True

variable {cfg : Config}

/-- The password of the registration that has inserted the row of the username. -/
def RegisteredWith (threads : List (Thread (gatewaySystem cfg))) (username password : String) :
    Prop :=
  ∃ th ∈ threads, (∃ http given, th.request = .register http given password) ∧
    ∃ x ∈ th.history, ∃ row, Inserts x row ∧ row.username = username

/-- A password of the account: one that opened it at the start, or the one it was registered
with since. -/
def PasswordOf (opens : String → String → Prop) (w : World)
    (threads : List (Thread (gatewaySystem cfg))) (username password : String) : Prop :=
  (∃ r ∈ w.db.users, r.username = username ∧ opens password r.hashedPassword) ∨
    RegisteredWith threads username password

/-- What a request may rely on about a row it has selected. -/
structure Found (opens : String → String → Prop) (w : World) (p : Pool (gatewaySystem cfg))
    (name : String) (record : UserRecord) : Prop where
  username : record.username = name
  present : ∃ r ∈ p.world.db.users, r.id = record.id
  same : ∀ r ∈ p.world.db.users, r.id = record.id → r.username = name
  stored : ∀ password, opens password record.hashedPassword → PasswordOf opens w p.threads name
    password

/-- What every run keeps about passwords. -/
structure PasswordsKept (opens : String → String → Prop) (w : World)
    (p : Pool (gatewaySystem cfg)) : Prop where
  faithful : ∀ th ∈ p.threads, ∀ x ∈ th.history, Faithful opens x
  keyed : ∀ r ∈ p.world.db.users, ∀ r' ∈ p.world.db.users, r.id = r'.id →
    r.username = r'.username
  initial : ∀ r₀ ∈ w.db.users, ∃ r ∈ p.world.db.users, r.username = r₀.username
  registered : ∀ username password, RegisteredWith p.threads username password →
    (∃ r ∈ p.world.db.users, r.username = username) ∧ ∀ r₀ ∈ w.db.users, r₀.username ≠ username
  single : ∀ username password password', RegisteredWith p.threads username password →
    RegisteredWith p.threads username password' → password = password'
  stored : ∀ r ∈ p.world.db.users, ∀ password, opens password r.hashedPassword →
    PasswordOf opens w p.threads r.username password
  found : ∀ th ∈ p.threads, ∀ name record,
    Performed th.history (.selectUser name) (.ok (some record)) → Found opens w p name record

variable {opens : String → String → Prop} {w : World} {p q q' : Pool (gatewaySystem cfg)}
  {l : Label (gatewaySystem cfg)} {username password : String}

theorem RegisteredWith.step (h : RegisteredWith q.threads username password) (hs : Step q l q') :
    RegisteredWith q'.threads username password := by
  obtain ⟨th, hth, ⟨http, given, hrequest⟩, x, hx, row, hrow⟩ := h
  obtain ⟨th', hth', hsame, hkept⟩ := hs.mem_threads hth
  exact ⟨th', hth', ⟨http, given, hsame.trans hrequest⟩, x, hkept x hx, row, hrow⟩

theorem PasswordOf.step (h : PasswordOf opens w q.threads username password) (hs : Step q l q') :
    PasswordOf opens w q'.threads username password := by
  rcases h with hstart | hregistered
  · exact Or.inl hstart
  · exact Or.inr (hregistered.step hs)

/-- A registration is an old one, or the step is its insertion. -/
theorem registeredWith_after (hs : Step q l q')
    (h : RegisteredWith q'.threads username password) :
    RegisteredWith q.threads username password ∨ ∃ row, InsertedBy l row ∧
      row.username = username ∧ ∃ i x th http given, l = .act i x ∧ q.threads[i]? = some th ∧
        th.request = .register http given password := by
  obtain ⟨th', hth', ⟨http, given, hrequest⟩, x, hx, row, hinserts, husername⟩ := h
  rcases hs.mem_history hth' hx with ⟨th, hth, hsame, hx⟩ | ⟨i, th, rfl, hi, hsame⟩
  · exact Or.inl ⟨th, hth, ⟨http, given, hsame.trans hrequest⟩, x, hx, row, hinserts, husername⟩
  · exact Or.inr ⟨row, ⟨i, x, rfl, hinserts⟩, husername, i, x, th, http, given, rfl, hi,
      hsame.trans hrequest⟩

theorem Found.step {name : String} {record : UserRecord} (h : Found opens w q name record)
    (hs : Step q l q') : Found opens w q' name record := by
  obtain ⟨husername, ⟨r, hr, hid⟩, hsame, hstored⟩ := h
  have hc := step_rows hs
  refine ⟨husername, ?_, fun r' hr' hid' => ?_, fun password ho => (hstored password ho).step hs⟩
  · obtain ⟨r', hr', hid', -⟩ := hc.kept r hr
    exact ⟨r', hr', hid'.trans hid⟩
  · rcases hc.came r' hr' with hinserted | ⟨r₁, hr₁, hid₁, husername₁, -⟩
    · exact (((hc.inserted r' hinserted).2 r hr).1 (hid.trans hid'.symm)).elim
    · rw [← husername₁]
      exact hsame r₁ hr₁ (hid₁.trans hid')

/-- The password that a login has checked is one of the account's. -/
theorem PasswordsKept.verified (hk : PasswordsKept opens w q) {th : Thread (gatewaySystem cfg)}
    (hth : th ∈ q.threads) {found : UserRecord} {replacement : Option String}
    (hv : Verified cfg username password found replacement th.history) :
    ∃ name, normalizeUsername cfg.unicode username = .ok name ∧ Found opens w q name found ∧
      PasswordOf opens w q.threads name password := by
  obtain ⟨⟨name, hn, hselected⟩, hverified⟩ := hv
  have hfound := hk.found th hth name found hselected
  have hopens := (hk.faithful th hth _ hverified).1 rfl
  exact ⟨name, hn, hfound, hfound.stored password hopens⟩

/-- The row that a login goes on with is that of the same account. -/
theorem PasswordsKept.reselected (hk : PasswordsKept opens w q)
    {th : Thread (gatewaySystem cfg)} (hth : th ∈ q.threads) {found record : UserRecord}
    {name : String} (hn : normalizeUsername cfg.unicode username = .ok name)
    (hfound : Found opens w q name found)
    (hr : record = found ∨ Reselected cfg found record th.history) :
    Found opens w q name record := by
  rcases hr with rfl | ⟨name', hn', hselected⟩
  · exact hfound
  · rw [hfound.username, normalizeUsername_fixed hn] at hn'
    cases hn'
    exact hk.found th hth name record hselected

/-- A row that a registration inserts opens with the password of the registration. -/
theorem PasswordsKept.stored_inserted (hk : PasswordsKept opens w q) (hs : Step q l q')
    (hd : (credentialDiscipline cfg).Holds q) {row : UserRecord} (hrow : InsertedBy l row)
    (ho : opens password row.hashedPassword) :
    RegisteredWith q'.threads row.username password := by
  obtain ⟨i, ⟨op, reply⟩, rfl, hinserts⟩ := hrow
  obtain ⟨th, resume, hi, hp, -, -⟩ := hs.act_inv
  have hok := ((hd i th hi).resume hp).1
  cases op with
  | commitUser record roleId =>
    obtain ⟨rfl, htaken⟩ := hinserts
    obtain ⟨http, given, password', hrequest, -, hhashed⟩ := hok
    have hsame : password = password' :=
      hk.faithful th (List.mem_of_getElem? hi) _ hhashed password ho
    obtain ⟨th', hth', hrequest', hx⟩ := hs.performs hi
    refine ⟨th', hth', ⟨http, given, ?_⟩, _, hx, row, ⟨rfl, htaken⟩, rfl⟩
    rw [hrequest', hrequest, hsame]
  | _ => exact hinserts.elim

/-- A hash that a login stores opens with the password the login has checked. -/
theorem PasswordsKept.stored_rehashed (hk : PasswordsKept opens w q)
    (hs : Step q l q') (hd : (credentialDiscipline cfg).Holds q) {r row : UserRecord}
    (hr : r ∈ q.world.db.users) (hid : r.id = row.id) (hrow : RehashedBy l row)
    (ho : opens password row.hashedPassword) :
    PasswordOf opens w q.threads r.username password := by
  obtain ⟨i, ⟨op, reply⟩, rfl, rfl⟩ := hrow
  obtain ⟨th, resume, hi, hp, -, -⟩ := hs.act_inv
  have hth := List.mem_of_getElem? hi
  obtain ⟨http, username, password', found, record, -, hverified, hreselected, hrecord⟩ :=
    ((hd i th hi).resume hp).1
  have hsame : password = password' :=
    (hk.faithful th hth _ hverified.verified).2 _ rfl password ho
  obtain ⟨name, hn, hfound, hpassword⟩ := hk.verified hth hverified
  have hname := hk.reselected hth hn hfound (Or.inr hreselected)
  rw [hname.same r hr (hid.trans hrecord.symm), hsame]
  exact hpassword

theorem insertedBy_unique {row row' : UserRecord} (h : InsertedBy l row) (h' : InsertedBy l row') :
    row = row' := by
  obtain ⟨i, ⟨op, reply⟩, rfl, hrow⟩ := h
  obtain ⟨j, x, hx, hrow'⟩ := h'
  cases hx
  cases op with
  | commitUser record roleId => exact hrow.1.trans hrow'.1.symm
  | _ => exact hrow.elim

/-- A row that has just been selected is one of the table. -/
theorem PasswordsKept.selected (hk : PasswordsKept opens w q) {i : ℕ} {name : String}
    {record : UserRecord} (hs : Step q (.act i ⟨.selectUser name, .ok (some record)⟩) q') :
    Found opens w q name record := by
  obtain ⟨-, -, -, -, hw, -⟩ := hs.act_inv
  change q.world.statement (.ok (some record)) (q.world.db.userByUsername name) q.world = _ at hw
  rcases statement_inv hw with ⟨f, hf, -⟩ | ⟨hfound, -⟩
  · cases hf
  · have hfind : q.world.db.userByUsername name = some record := (Except.ok.inj hfound).symm
    have hmem : record ∈ q.world.db.users := List.mem_of_find?_eq_some hfind
    have hname : record.username = name := by simpa using List.find?_some hfind
    subst hname
    exact ⟨rfl, ⟨record, hmem, rfl⟩, fun r hr hid => hk.keyed r hr record hmem hid,
      fun password ho => hk.stored record hmem password ho⟩

theorem PasswordsKept.step (hk : PasswordsKept opens w q) (hs : Step q l q')
    (hd : (credentialDiscipline cfg).Holds q) (hf : ∀ i x, l = .act i x → Faithful opens x) :
    PasswordsKept opens w q' := by
  have hc := step_rows hs
  refine ⟨?_, ?_, ?_, ?_, ?_, ?_, ?_⟩
  · intro th' hth' y hy
    rcases hs.mem_history hth' hy with ⟨th, hth, -, hy⟩ | ⟨i, -, hl, -⟩
    · exact hk.faithful th hth y hy
    · exact hf i y hl
  · intro r hr r' hr' hid
    rcases hc.came r hr with hnew | ⟨r₁, hr₁, hid₁, husername₁, -⟩
    · rcases hc.came r' hr' with hnew' | ⟨r₂, hr₂, hid₂, -, -⟩
      · rw [insertedBy_unique hnew hnew']
      · exact (((hc.inserted r hnew).2 r₂ hr₂).1 (hid₂.trans hid.symm)).elim
    · rcases hc.came r' hr' with hnew' | ⟨r₂, hr₂, hid₂, husername₂, -⟩
      · exact (((hc.inserted r' hnew').2 r₁ hr₁).1 (hid₁.trans hid)).elim
      · rw [← husername₁, ← husername₂]
        exact hk.keyed r₁ hr₁ r₂ hr₂ (hid₁.trans (hid.trans hid₂.symm))
  · intro r₀ hr₀
    obtain ⟨r, hr, husername⟩ := hk.initial r₀ hr₀
    obtain ⟨r', hr', -, husername'⟩ := hc.kept r hr
    exact ⟨r', hr', husername'.trans husername⟩
  · intro username password h
    rcases registeredWith_after hs h with h | ⟨row, hrow, rfl, -⟩
    · obtain ⟨⟨r, hr, husername⟩, hfresh⟩ := hk.registered username password h
      obtain ⟨r', hr', -, husername'⟩ := hc.kept r hr
      exact ⟨⟨r', hr', husername'.trans husername⟩, hfresh⟩
    · obtain ⟨hmem, hunused⟩ := hc.inserted row hrow
      refine ⟨⟨row, hmem, rfl⟩, fun r₀ hr₀ hsame => ?_⟩
      obtain ⟨r, hr, husername⟩ := hk.initial r₀ hr₀
      exact (hunused r hr).2 (husername.trans hsame)
  · intro username password password' h h'
    have hclash : ∀ {other row}, InsertedBy l row → row.username = username →
        ¬ RegisteredWith q.threads username other := by
      intro other row hrow husername hold
      obtain ⟨⟨r, hr, hsame⟩, -⟩ := hk.registered username other hold
      exact ((hc.inserted row hrow).2 r hr).2 (hsame.trans husername.symm)
    rcases registeredWith_after hs h with h | ⟨row, hrow, husername, hnew⟩
    · rcases registeredWith_after hs h' with h' | ⟨row, hrow, husername, -⟩
      · exact hk.single username password password' h h'
      · exact (hclash hrow husername h).elim
    · rcases registeredWith_after hs h' with h' | ⟨row', hrow', -, hnew'⟩
      · exact (hclash hrow husername h').elim
      · obtain ⟨i, x, th, http, given, rfl, hi, hrequest⟩ := hnew
        obtain ⟨j, y, th', http', given', hl, hi', hrequest'⟩ := hnew'
        cases hl
        cases hi.symm.trans hi'
        cases hrequest.symm.trans hrequest'
        rfl
  · intro r' hr' password ho
    rcases hc.came r' hr' with hnew | ⟨r, hr, hid, husername, hhash | hhash⟩
    · exact Or.inr (hk.stored_inserted hs hd hnew ho)
    · rw [← husername]
      exact (hk.stored r hr password (hhash ▸ ho)).step hs
    · rw [← husername]
      exact (hk.stored_rehashed hs hd hr hid hhash ho).step hs
  · intro th' hth' name record hselected
    rcases hs.mem_history hth' hselected with ⟨th, hth, -, hselected⟩ | ⟨i, -, rfl, -⟩
    · exact (hk.found th hth name record hselected).step hs
    · exact (hk.selected hs).step hs

/-- No two rows of the table have the identifier of one user and the names of two. -/
def Keyed (users : List UserRecord) : Prop :=
  ∀ r ∈ users, ∀ r' ∈ users, r.id = r'.id → r.username = r'.username

theorem passwordsKept_run {ts : List (Transition (gatewaySystem cfg))} (hkeyed : Keyed w.db.users)
    (hr : Run (.initial w) ts p) (hf : ∀ t ∈ ts, ∀ i x, t.label = .act i x → Faithful opens x) :
    PasswordsKept opens w p := by
  have hdiscipline := (credentialDiscipline cfg).holds_run hr
  have hstart : PasswordsKept opens w (Pool.initial w : Pool (gatewaySystem cfg)) := by
    refine ⟨by simp [Pool.initial], hkeyed, fun r hr => ⟨r, hr, rfl⟩, ?_, ?_, ?_,
      by simp [Pool.initial]⟩
    · rintro username password ⟨th, hth, -⟩
      cases hth
    · rintro username password password' ⟨th, hth, -⟩
      cases hth
    · exact fun r hr password ho => Or.inl ⟨r, hr, rfl, ho⟩
  refine (Run.invariant_along (PasswordsKept opens w)
    (fun t => (credentialDiscipline cfg).Holds t.before ∧
      ∀ i x, t.label = .act i x → Faithful opens x) hr hstart ?_ ?_).1
  · intro q l q' hs hgood hk
    exact hk.step hs hgood.1 hgood.2
  · exact fun t ht => ⟨(hdiscipline.2 t ht).1, hf t ht⟩

/-- A token is signed for the account of the login, and the login has given its password. -/
theorem PasswordsKept.signed {ts : List (Transition (gatewaySystem cfg))}
    (hk : PasswordsKept opens w p) (hr : Run (.initial w) ts p) {th : Thread (gatewaySystem cfg)}
    (hth : th ∈ p.threads) {payload : Payload} {reply : (GatewayOp.jwtEncode payload).Reply}
    (hsigned : Performed th.history (.jwtEncode payload) reply) :
    ∃ http username password name, th.request = .token http username password ∧
      normalizeUsername cfg.unicode username = .ok name ∧ payload.get "sub" = .string name ∧
      PasswordOf opens w p.threads name password := by
  obtain ⟨i, hi⟩ := List.mem_iff_getElem?.mp hth
  obtain ⟨h₁, h₂, hx⟩ := List.append_of_mem hsigned
  have hle : h₁ <+: th.history := hx ▸ List.prefix_append h₁ _
  obtain ⟨http, username, password, found, replacement, record, hrequest, hverified, hrecord,
    hsubject⟩ := (credentialDiscipline cfg).exchange_ok hr hi hx
  obtain ⟨name, hn, hfound, hpassword⟩ := hk.verified hth (hverified.mono hle)
  have hrecord := hk.reselected hth hn hfound (hrecord.imp_right fun h => h.mono hle)
  refine ⟨http, username, password, name, hrequest, hn, ?_, hpassword⟩
  rw [hsubject, hrecord.username, strip_username hn]

/-- Passwords, however requests are interleaved and whatever fails, with a hasher that does what
it is for. The hash of an account only ever opens with a password that opened it at the start or
with the one of its registration, of which there is one; a login has a token signed for an
account only on such a password. -/
theorem passwords_stand (cfg : Config) (opens : String → String → Prop) (w : World)
    (ts : List (Transition (gatewaySystem cfg))) (p : Pool (gatewaySystem cfg))
    (hr : Run (.initial w) ts p) (hkeyed : Keyed w.db.users)
    (hf : ∀ t ∈ ts, ∀ i x, t.label = .act i x → Faithful opens x) :
    (∀ row ∈ p.world.db.users, ∀ password, opens password row.hashedPassword →
      PasswordOf opens w p.threads row.username password) ∧
    (∀ username password, RegisteredWith p.threads username password →
      (∀ row ∈ w.db.users, row.username ≠ username) ∧
      ∀ password', RegisteredWith p.threads username password' → password' = password) ∧
    ∀ th ∈ p.threads, ∀ payload reply, Performed th.history (.jwtEncode payload) reply →
      ∃ http username password name, th.request = .token http username password ∧
        normalizeUsername cfg.unicode username = .ok name ∧ payload.get "sub" = .string name ∧
        PasswordOf opens w p.threads name password := by
  have hk := passwordsKept_run hkeyed hr hf
  refine ⟨hk.stored, fun username password h => ⟨(hk.registered username password h).2, ?_⟩,
    fun th hth payload reply hsigned => hk.signed hr hth hsigned⟩
  exact fun password' h' => hk.single username password' password h' h

end Accounts

section Example

/-- One password opens one hash, and nothing else opens anything. -/
def OpensOnly (password hash : String) (given stored : String) : Prop :=
  given = password ∧ stored = hash

/-- The hasher is only asked about the password. -/
def asksOnly (password hash : String) : Exchange gateway → Bool
  | ⟨.hashPassword given, _⟩ => given = password
  | ⟨.verifyAndUpdatePassword given stored, .ok (_, replacement)⟩ =>
    given = password && stored = hash && replacement = none
  | _ => true

theorem faithful_asksOnly {password hash : String} {x : Exchange gateway}
    (h : asksOnly password hash x = true) : Faithful (OpensOnly password hash) x := by
  obtain ⟨op, reply⟩ := x
  cases op with
  | hashPassword given =>
    cases reply with
    | error f => trivial
    | ok stored =>
      have hgiven : given = password := of_decide_eq_true h
      exact fun other ho => ho.1.trans hgiven.symm
  | verifyAndUpdatePassword given stored =>
    cases reply with
    | error f => trivial
    | ok result =>
      obtain ⟨valid, replacement⟩ := result
      simp only [asksOnly, Bool.and_eq_true, decide_eq_true_eq] at h
      obtain ⟨⟨hgiven, hstored⟩, rfl⟩ := h
      exact ⟨fun _ => ⟨hgiven, hstored⟩, by simp⟩
  | _ => trivial

def stepAsksOnly (password hash : String) : Label (gatewaySystem defaultConfig) → Bool
  | .act _ x => asksOnly password hash x
  | _ => true

theorem faithful_steps {password hash : String}
    {ts : List (Transition (gatewaySystem defaultConfig))}
    (h : ts.all (fun t => stepAsksOnly password hash t.label) = true) :
    ∀ t ∈ ts, ∀ i x, t.label = .act i x → Faithful (OpensOnly password hash) x := by
  intro t ht i x hl
  have hask := List.all_eq_true.mp h t ht
  rw [hl] at hask
  exact faithful_asksOnly hask

theorem keyed_migrated : Keyed migratedWorld.db.users := by
  change Keyed [alice]
  intro r hr r' hr' _
  rw [List.mem_singleton.mp hr, List.mem_singleton.mp hr']

def signsToken : Exchange gateway → Bool
  | ⟨.jwtEncode _, _⟩ => true
  | _ => false

theorem signed_of_signsToken {h : History gateway} (hs : h.any signsToken = true) :
    ∃ payload reply, Performed h (.jwtEncode payload) reply := by
  obtain ⟨⟨op, reply⟩, hx, hsigns⟩ := List.any_eq_true.mp hs
  cases op with
  | jwtEncode payload => exact ⟨payload, reply, hx⟩
  | _ => cases hsigns

def bobPassword : String := "correct horse battery"

/-- Bob registers and logs in. -/
def bobSession : List (Move (gatewaySystem defaultConfig)) :=
  .spawn (.register (localRequest "POST" none) "bob" bobPassword) :: steps 0 9 true ++
    .spawn (.token (localRequest "POST" none) "Bob" bobPassword) :: steps 1 10 true

/-- His token is signed on his password. -/
theorem passwords_stand_bob :
    ∃ (ts : List (Transition (gatewaySystem defaultConfig))) (p : Pool _),
      Run (.initial migratedWorld) ts p ∧ ∃ th ∈ p.threads, ∃ payload reply name password,
        Performed th.history (.jwtEncode payload) reply ∧ payload.get "sub" = .string name ∧
        PasswordOf (OpensOnly bobPassword "$argon2id$new") migratedWorld p.threads name password := by
  have hplay : ((Pool.initial migratedWorld).play bobSession).any (fun ts =>
      ts.all (fun t => stepAsksOnly bobPassword "$argon2id$new" t.label) &&
        ts.any fun t => t.after.threads.any fun th => th.history.any signsToken) = true := by
    decide +kernel
  obtain ⟨ts, hts, hplayed⟩ := (Option.any_eq_true _ _).mp hplay
  obtain ⟨hasks, hany⟩ := Bool.and_eq_true_iff.mp hplayed
  obtain ⟨t, ht, hthreads⟩ := List.any_eq_true.mp hany
  obtain ⟨th, hth, hsigns⟩ := List.any_eq_true.mp hthreads
  obtain ⟨payload, reply, hsigned⟩ := signed_of_signsToken hsigns
  obtain ⟨p, hr⟩ := Pool.play_run hts
  obtain ⟨ts₁, ts₂, rfl⟩ := List.append_of_mem ht
  have hto : Run (.initial migratedWorld) (ts₁ ++ [t]) t.after := hr.upTo.snoc (hr.step ht)
  have hfaithful := fun t' (ht' : t' ∈ ts₁ ++ [t]) => faithful_steps hasks t' (by
    rw [List.append_cons]
    exact List.mem_append_left _ ht')
  obtain ⟨http, username, password, name, -, -, hsubject, hpassword⟩ := (passwords_stand
    defaultConfig _ migratedWorld _ _ hto keyed_migrated hfaithful).2.2 th hth payload reply hsigned
  exact ⟨_, _, hto, th, hth, payload, reply, name, password, hsigned, hsubject, hpassword⟩

end Example

end SecureGateway.Gateway
