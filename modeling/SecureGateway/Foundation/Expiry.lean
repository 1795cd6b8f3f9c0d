import Mathlib.Algebra.Ring.Int.Defs
import Mathlib.Data.Int.Order.Basic
import Mathlib.Tactic.Common

/-!
# Keys with an expiry deadline

One key of a Redis keyspace: a value and, once PEXPIRE has run, the millisecond after which
the server drops it. Writing a value keeps the deadline, as HSET does; PEXPIRE refuses a
deadline outside the signed 64-bit range and then leaves the key as it was.
-/
namespace Redis

/-- The contents of a key, with the deadline that PEXPIRE gave it. -/
structure Entry (α : Type) where
  value : α
  expiresAt : Option ℤ
  deriving DecidableEq, Repr

/-- A key that may be absent. -/
abbrev Key (α : Type) := Option (Entry α)

/-- Largest expiry time the server can store. -/
def maxExpiry : ℤ := 2 ^ 63 - 1

namespace Key

variable {α : Type} {now t ttl : ℤ} {key : Key α} {e : Entry α} {v : α}

/-- The key as a command at time `now` sees it: gone once its deadline has passed. -/
def live (now : ℤ) (key : Key α) : Key α :=
  key.filter fun e => e.expiresAt.all (now ≤ ·)

/-- The key as a server holds it that drops it at some moment after the deadline: `dropped`
tells whether that moment has come by `now`. Until then the key is read as if it had no
deadline. -/
def lagging (dropped : Bool) (now : ℤ) (key : Key α) : Key α :=
  key.bind fun e =>
    if e.expiresAt.any (· ≤ now) then if dropped then none else some { e with expiresAt := none }
    else some e

/-- HSET of every field: the value changes, the deadline does not. -/
def write (v : α) (key : Key α) : Entry α := ⟨v, key.bind Entry.expiresAt⟩

/-- PEXPIRE with a deadline known to be in range. -/
def expireIn (now ttl : ℤ) (e : Entry α) : Entry α := { e with expiresAt := some (now + ttl) }

/-- PEXPIRE on an existing key. -/
def pexpire (now ttl : ℤ) (e : Entry α) : Option (Entry α) :=
  if now + ttl ≤ maxExpiry then some (expireIn now ttl e) else none

@[simp] theorem live_none : live now (none : Key α) = none := rfl

theorem live_eq_some : live now key = some e ↔ key = some e ∧ ∀ d ∈ e.expiresAt, now ≤ d := by
  cases key with
  | none => simp
  | some e' =>
    simp only [live, Option.filter_eq_some_iff, Option.some.injEq, Option.all_eq_true,
      decide_eq_true_eq]
    exact Iff.rfl

theorem live_some_of_le {d : ℤ} (hd : now ≤ d) :
    live now (some ⟨v, some d⟩) = some ⟨v, some d⟩ :=
  live_eq_some.mpr ⟨rfl, by simpa using hd⟩

theorem live_some_of_lt {d : ℤ} (hd : d < now) : live now (some ⟨v, some d⟩) = none := by
  simp [live, Option.filter, hd]

/-- A command finds the whole key or nothing. -/
theorem live_eq_or_none (now : ℤ) (key : Key α) : live now key = key ∨ live now key = none := by
  cases key with
  | none => exact Or.inr rfl
  | some e =>
    rw [live, Option.filter_some]
    split
    · exact Or.inl rfl
    · exact Or.inr rfl

/-- What a command no longer finds, no later command finds. -/
theorem live_live {u : ℤ} (hu : now ≤ u) : live u (live now key) = live u key := by
  cases key with
  | none => rfl
  | some e =>
    obtain ⟨v, expiresAt⟩ := e
    cases expiresAt with
    | none => rfl
    | some d =>
      rcases le_or_gt now d with hd | hd
      · rw [live_some_of_le hd]
      · rw [live_some_of_lt hd, live_some_of_lt (by omega), live_none]

@[simp] theorem lagging_none {dropped : Bool} : lagging dropped now (none : Key α) = none := rfl

theorem lagging_of_lt {dropped : Bool} {d : ℤ} (hd : now < d) :
    lagging dropped now (some ⟨v, some d⟩) = some ⟨v, some d⟩ := by
  simp [lagging, hd]

theorem lagging_dropped {d : ℤ} (hd : d ≤ now) :
    lagging true now (some ⟨v, some d⟩) = none := by
  simp [lagging, hd]

theorem lagging_kept {d : ℤ} (hd : d ≤ now) :
    lagging false now (some ⟨v, some d⟩) = some ⟨v, none⟩ := by
  simp [lagging, hd]

end Key

end Redis
