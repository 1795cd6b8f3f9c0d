import SecureGateway.Auth.Service
import SecureGateway.Auth.Settings

/-!
# Access tokens

PyJWT as the gateway uses it, and what `decode_access_token` makes of the claims that
`create_access_token` signs.
-/
namespace SecureGateway

section Uuids

def hexValue (c : Char) : Option ℕ :=
  if '0' ≤ c ∧ c ≤ '9' then some (c.toNat - '0'.toNat)
  else if 'a' ≤ c ∧ c ≤ 'f' then some (c.toNat - 'a'.toNat + 10)
  else if 'A' ≤ c ∧ c ≤ 'F' then some (c.toNat - 'A'.toNat + 10)
  else none

/-- `UUID(text)` for thirty-two hexadecimal digits, with hyphens anywhere. -/
def Uuid.parse (text : String) : Option Uuid :=
  let digits := text.toList.filter (· ≠ '-')
  if digits.length = 32 then
    (digits.mapM hexValue).map fun ds => BitVec.ofNat 128 (ds.foldl (fun n d => 16 * n + d) 0)
  else none

theorem hexValue_digitChar {n : ℕ} (h : n < 16) :
    hexValue (Nat.digitChar n) = some n ∧ Nat.digitChar n ≠ '-' := by
  have hall : ∀ n < 16, hexValue (Nat.digitChar n) = some n ∧ Nat.digitChar n ≠ '-' := by decide
  exact hall n h

theorem mapM_hexValue {l : List ℕ} (h : ∀ n ∈ l, n < 16) :
    (l.map Nat.digitChar).mapM hexValue = some l := by
  induction l with
  | nil => rfl
  | cons n l ih =>
    have hn := (hexValue_digitChar (h n (by simp))).1
    have hl := ih fun m hm => h m (by simp [hm])
    simp [hn, hl]

/-- The first `j` of `k` hexadecimal digits, read one after the other. -/
theorem foldl_digits (n : ℕ) {k j : ℕ} (hj : j ≤ k) :
    ((List.range j).map fun i => n / 16 ^ (k - 1 - i) % 16).foldl (fun m d => 16 * m + d) 0 =
      n / 16 ^ (k - j) % 16 ^ j := by
  induction j with
  | zero => simp [Nat.mod_one]
  | succ j ih =>
    have hk : k - j = k - (j + 1) + 1 := by omega
    have hi : k - 1 - j = k - (j + 1) := by omega
    rw [List.range_succ, List.map_append, List.foldl_append, ih (by omega), hk, pow_succ,
      ← Nat.div_div_eq_div_mul, pow_succ' 16 j, Nat.mod_mul, List.map_singleton, List.foldl_cons,
      List.foldl_nil, hi]
    omega

/-- `UUID(str(u)) == u`. -/
theorem Uuid.parse_str (u : Uuid) : Uuid.parse u.str = some u := by
  let ds := (List.range 32).map fun i => u.toNat / 16 ^ (31 - i) % 16
  have hlt : ∀ n ∈ ds, n < 16 := by
    intro n hn
    obtain ⟨i, -, rfl⟩ := List.mem_map.mp hn
    exact Nat.mod_lt _ (by decide)
  have hdigits : u.str.toList.filter (· ≠ '-') = ds.map Nat.digitChar := by
    have hplain : ∀ c ∈ ds.map Nat.digitChar, decide (c ≠ '-') = true := by
      intro c hc
      obtain ⟨n, hn, rfl⟩ := List.mem_map.mp hc
      exact decide_eq_true (hexValue_digitChar (hlt n hn)).2
    unfold Uuid.str
    rw [← List.filter_eq_self.mpr hplain]
    simp [ds, List.range, List.range.loop]
  have hvalue : ds.foldl (fun m d => 16 * m + d) 0 = u.toNat := by
    have hbound : u.toNat < 16 ^ 32 := u.isLt.trans_eq (by norm_num)
    have h := foldl_digits u.toNat (le_refl 32)
    rw [Nat.sub_self, pow_zero, Nat.div_one, Nat.mod_eq_of_lt hbound] at h
    exact h
  rw [Uuid.parse, hdigits, mapM_hexValue hlt, if_pos (by simp [ds]), Option.map_some, hvalue,
    BitVec.ofNat_toNat, BitVec.setWidth_eq]

end Uuids

namespace Gateway

open Interleaving

/-- The seven claims, with the types that `create_access_token` gives them. -/
structure TokenClaims where
  sub : String
  iat : ℤ
  exp : ℤ
  iss : String
  aud : String
  jti : String
  type : String

def TokenClaims.payload (c : TokenClaims) : Payload :=
  [("sub", .string c.sub), ("iat", .number c.iat), ("exp", .number c.exp), ("iss", .string c.iss),
    ("aud", .string c.aud), ("jti", .string c.jti), ("type", .string c.type)]

/-- `jwt.encode` and `jwt.decode` with HS256, no leeway and the seven claims required. PyJWT
compares the two times, in whole seconds, with the moment of the call. -/
structure PyJWT where
  encode : (key : String) → Payload → Except String String
  /-- `none` in the error stands for an `InvalidTokenError`. -/
  decode : (key audience issuer : String) → (now : Timestamp) → (token : String) →
    Except (Option String) Payload
  encode_nonblank : ∀ {key p token}, encode key p = .ok token → Python.strip token ≠ ""
  decode_encode : ∀ {key : String} {c : TokenClaims} {token : String} {now : Timestamp},
    encode key c.payload = .ok token → c.aud ≠ "" → c.iat * 1000000 ≤ now →
    now < c.exp * 1000000 → decode key c.aud c.iss now token = .ok c.payload
  decode_refused : ∀ {key key' audience issuer : String} {c : TokenClaims} {token : String}
    {now : Timestamp}, encode key c.payload = .ok token →
    (key' ≠ key ∨ c.aud ≠ audience ∨ c.iss ≠ issuer ∨ c.exp * 1000000 ≤ now) →
    decode key' audience issuer now token = .error none

theorem TokenClaims.payload_injective : Function.Injective TokenClaims.payload := by
  intro c d h
  cases c
  cases d
  simpa [TokenClaims.payload] using h

/-- PyJWT as far as one token shows it. -/
def PyJWT.single (key : String) (c : TokenClaims) (token : String)
    (htoken : Python.strip token ≠ "") : PyJWT where
  encode k p := if k = key ∧ p = c.payload then .ok token else .error "JWTError"
  decode k audience issuer now t :=
    if t = token ∧ k = key ∧ audience = c.aud ∧ issuer = c.iss ∧ c.iat * 1000000 ≤ now ∧
      now < c.exp * 1000000 then .ok c.payload
    else .error none
  encode_nonblank := by
    intro k p t h
    split at h <;> cases h
    exact htoken
  decode_encode := by
    intro k d t now h _ hiat hexp
    split at h <;> cases h
    next hsigned =>
    obtain ⟨rfl, hpayload⟩ := hsigned
    cases TokenClaims.payload_injective hpayload
    exact if_pos ⟨rfl, rfl, rfl, rfl, hiat, hexp⟩
  decode_refused := by
    intro k k' audience issuer d t now h hwhy
    split at h <;> cases h
    next hsigned =>
    obtain ⟨rfl, hpayload⟩ := hsigned
    cases TokenClaims.payload_injective hpayload
    refine if_neg ?_
    rintro ⟨-, hkey, haud, hiss, -, hexp⟩
    rcases hwhy with hwhy | hwhy | hwhy | hwhy
    · exact hwhy hkey
    · exact hwhy haud.symm
    · exact hwhy hiss.symm
    · exact not_le.mpr hexp hwhy

section Claims

theorem roundHalfEven_intCast (n : ℤ) : roundHalfEven n = n := by
  simp [roundHalfEven]

/-- A whole second within the range of `datetime` is read back exactly. -/
theorem numericDateToDatetime_second {n : ℤ} (name : String)
    (hmin : earliestTimestamp ≤ n * 1000000) (hmax : n * 1000000 ≤ latestTimestamp) :
    numericDateToDatetime (.number n) name = .ok (n * 1000000) := by
  have hround : roundHalfEven ((n : ℚ) * 1000000) = n * 1000000 := by
    exact_mod_cast roundHalfEven_intCast (n * 1000000)
  simp only [numericDateToDatetime, hround]
  rw [if_pos ⟨hmin, hmax⟩]

theorem claimsOfPayload_payload (cfg : Config) {c : TokenClaims} {tokenId : Uuid}
    (htype : c.type = "access") (hsub : Python.strip c.sub ≠ "")
    (hjti : cfg.parseUuid c.jti = some tokenId) (hmin : earliestTimestamp ≤ c.iat * 1000000)
    (hlt : c.iat < c.exp) (hmax : c.exp * 1000000 ≤ latestTimestamp) :
    claimsOfPayload cfg c.payload =
      .ok ⟨c.sub, tokenId, c.iat * 1000000, c.exp * 1000000⟩ := by
  have htypeOf : c.payload.get "type" = .string c.type := rfl
  have hsubOf : c.payload.get "sub" = .string c.sub := rfl
  have hjtiOf : c.payload.get "jti" = .string c.jti := rfl
  have hiatOf : c.payload.get "iat" = .number c.iat := rfl
  have hexpOf : c.payload.get "exp" = .number c.exp := rfl
  have hle : c.iat * 1000000 < c.exp * 1000000 := by omega
  have hiat := numericDateToDatetime_second "iat" hmin (hle.le.trans hmax)
  have hexp := numericDateToDatetime_second "exp" (hmin.trans hle.le) hmax
  rw [claimsOfPayload, htypeOf, htype, if_neg (by simp), hsubOf]
  simp only [hsub, hjtiOf, hjti, hiatOf, hexpOf, hiat, hexp, if_false, bind, Except.bind]
  exact if_neg hle.not_ge

end Claims

end Gateway

end SecureGateway
