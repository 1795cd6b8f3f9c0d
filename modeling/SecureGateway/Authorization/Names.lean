import SecureGateway.Python.Unicode
import SecureGateway.Gateway.Raised

/-! The naming policies of `gateway/app/authorization/models.py`. -/
namespace SecureGateway.Authorization

def isLower (c : Char) : Bool := 'a' ≤ c && c ≤ 'z'

def isDigit (c : Char) : Bool := '0' ≤ c && c ≤ '9'

/-- `ROLE_NAME_PATTERN.fullmatch`. -/
def roleNameMatches (s : String) : Bool :=
  match s.toList with
  | c :: rest => isLower c && rest.all fun c => isLower c || isDigit c || c == '_' || c == '-'
  | [] => false

/-- One segment `[a-z][a-z0-9-]*` of a permission code. -/
def segmentMatches : List Char → Bool
  | c :: rest => isLower c && rest.all fun c => isLower c || isDigit c || c == '-'
  | [] => false

/-- `PERMISSION_CODE_PATTERN.fullmatch`: exactly three segments. -/
def permissionCodeMatches (s : String) : Bool :=
  match s.toList.splitOn ':' with
  | [a, b, c] => segmentMatches a && segmentMatches b && segmentMatches c
  | _ => false

variable (u : Python.Unicode)

def normalizeRoleName (roleName : String) : Except Raised String :=
  let normalized := u.canonical roleName
  if normalized = "" then .error (.roleNamePolicy "Role name cannot be empty.")
  else if normalized.length > 64 then .error (.roleNamePolicy "Role name is too long.")
  else if roleNameMatches normalized then .ok normalized
  else .error (.roleNamePolicy "Role name contains invalid characters.")

def normalizePermissionCode (permissionCode : String) : Except Raised String :=
  let normalized := u.canonical permissionCode
  if normalized = "" then .error (.permissionCodePolicy "Permission code cannot be empty.")
  else if normalized.length > 128 then
    .error (.permissionCodePolicy "Permission code is too long.")
  else if permissionCodeMatches normalized then .ok normalized
  else .error (.permissionCodePolicy "Permission code must contain exactly three valid segments.")

theorem normalizePermissionCode_of_ascii {code : String} (ha : Python.isAscii code = true)
    (hs : Python.strip code = code) (hl : code.toLower = code) (hne : code ≠ "")
    (hlen : code.length ≤ 128) (hm : permissionCodeMatches code = true) :
    normalizePermissionCode u code = .ok code := by
  have hc := u.canonical_of_ascii ha hs hl
  simp [normalizePermissionCode, hc, hne, hm, Nat.not_lt.mpr hlen]

/-- The characters of a name or a code. -/
def isNameChar (c : Char) : Bool :=
  isLower c || isDigit c || c == '_' || c == '-' || c == ':'

theorem isPlain_of_isNameChar {c : Char} (h : isNameChar c = true) : Python.isPlain c = true := by
  have hascii : c.toNat < 128 := by
    simp only [isNameChar, isLower, isDigit, Bool.or_eq_true, Bool.and_eq_true, decide_eq_true_eq,
      beq_iff_eq] at h
    rcases h with ((((⟨-, h⟩ | ⟨-, h⟩) | rfl) | rfl) | rfl)
    · exact lt_of_le_of_lt h (by decide)
    · exact lt_of_le_of_lt h (by decide)
    · decide
    · decide
    · decide
  exact Python.forall_ascii (P := fun c => isNameChar c = true → Python.isPlain c = true)
    (by decide) hascii h

theorem roleName_plain {s : String} (h : roleNameMatches s = true) :
    s.toList.all Python.isPlain = true := by
  unfold roleNameMatches at h
  split at h
  · next c rest hs =>
    simp only [Bool.and_eq_true, List.all_eq_true] at h
    rw [hs, List.all_eq_true]
    intro d hd
    refine isPlain_of_isNameChar ?_
    rcases List.mem_cons.mp hd with rfl | hd
    · simp [isNameChar, h.1]
    · have := h.2 d hd
      simp only [isNameChar, this, Bool.true_or]
  · cases h

theorem segment_isNameChar {l : List Char} (h : segmentMatches l = true) :
    ∀ c ∈ l, isNameChar c = true := by
  unfold segmentMatches at h
  split at h
  · next c rest =>
    simp only [Bool.and_eq_true, List.all_eq_true] at h
    intro d hd
    rcases List.mem_cons.mp hd with rfl | hd
    · simp [isNameChar, h.1]
    · rcases Bool.or_eq_true_iff.mp (h.2 d hd) with hor | hor <;> simp_all [isNameChar]
  · cases h

theorem permissionCode_plain {s : String} (h : permissionCodeMatches s = true) :
    s.toList.all Python.isPlain = true := by
  unfold permissionCodeMatches at h
  split at h
  · next a b c hsplit =>
    simp only [Bool.and_eq_true] at h
    obtain ⟨⟨ha, hb⟩, hc⟩ := h
    have hs : s.toList = a ++ ':' :: (b ++ ':' :: c) := by
      have hjoin : [':'].intercalate (s.toList.splitOn ':') = s.toList :=
        List.intercalate_splitOn ':'
      rw [← hjoin, hsplit]
      simp [List.intercalate]
    rw [hs, List.all_eq_true]
    intro d hd
    refine isPlain_of_isNameChar ?_
    simp only [List.mem_append, List.mem_cons] at hd
    rcases hd with hd | rfl | hd | rfl | hd
    · exact segment_isNameChar ha d hd
    · rfl
    · exact segment_isNameChar hb d hd
    · rfl
    · exact segment_isNameChar hc d hd
  · cases h

/-- Normalising a role name again changes nothing. -/
theorem normalizeRoleName_fixed {s name : String} (h : normalizeRoleName u s = .ok name) :
    normalizeRoleName u name = .ok name := by
  simp only [normalizeRoleName] at h
  split at h
  · cases h
  · split at h
    · cases h
    · split at h <;> cases h
      next hne hlen hm =>
      simp only [normalizeRoleName, u.canonical_of_plain (roleName_plain hm), hne, hlen, hm,
        if_false, if_true]

/-- Normalising a permission code again changes nothing. -/
theorem normalizePermissionCode_fixed {s code : String}
    (h : normalizePermissionCode u s = .ok code) : normalizePermissionCode u code = .ok code := by
  simp only [normalizePermissionCode] at h
  split at h
  · cases h
  · split at h
    · cases h
    · split at h <;> cases h
      next hne hlen hm =>
      simp only [normalizePermissionCode, u.canonical_of_plain (permissionCode_plain hm), hne,
        hlen, hm, if_false, if_true]

end SecureGateway.Authorization
