import Mathlib.Data.Nat.Digits.Defs
import Mathlib.Tactic.Common

/-!
# Dates and times

The proleptic Gregorian calendar of Python's `datetime`, and `isoformat` of a UTC moment to the
millisecond. The text tells the millisecond.
-/
namespace Python

section Calendar

/-- `_days_before_month`: `_DAYS_BEFORE_MONTH`, and the leap day. -/
def daysBeforeMonth (leap : Bool) (month : ℕ) : ℕ :=
  [0, 0, 31, 59, 90, 120, 151, 181, 212, 243, 273, 304, 334].getD month 0 +
    if 2 < month ∧ leap then 1 else 0

/-- `_is_leap`. -/
def isLeap (year : ℕ) : Bool := year % 4 = 0 ∧ (year % 100 ≠ 0 ∨ year % 400 = 0)

/-- `_days_before_year`. -/
def daysBeforeYear (year : ℕ) : ℕ :=
  let y := year - 1
  y * 365 + y / 4 - y / 100 + y / 400

structure Date where
  year : ℕ
  month : ℕ
  day : ℕ
  deriving DecidableEq, Repr

/-- `_ymd2ord`. -/
def ymd2ord (d : Date) : ℕ :=
  daysBeforeYear d.year + daysBeforeMonth (isLeap d.year) d.month + d.day

/-- The month and the day of the `n`-th day of a year, both counted from 0 in `n`: an estimate
of the month that is at most one too high. -/
def monthDay (leap : Bool) (n : ℕ) : ℕ × ℕ :=
  let month := (n + 50) / 32
  let month := if daysBeforeMonth leap month > n then month - 1 else month
  (month, n - daysBeforeMonth leap month + 1)

/-- `_ord2ymd`: day 1 is the first of January of the year 1. -/
def ord2ymd (ordinal : ℕ) : Date :=
  let n := ordinal - 1
  let n400 := n / 146097
  let n := n % 146097
  let n100 := n / 36524
  let n := n % 36524
  let n4 := n / 1461
  let n := n % 1461
  let n1 := n / 365
  let n := n % 365
  let year := n400 * 400 + 1 + n100 * 100 + n4 * 4 + n1
  if n1 = 4 ∨ n100 = 4 then ⟨year - 1, 12, 31⟩
  else
    let leap : Bool := n1 = 3 ∧ (n4 ≠ 24 ∨ n100 = 3)
    ⟨year, (monthDay leap n).1, (monthDay leap n).2⟩

/-- The last day of a leap year is no case of the estimate. -/
theorem monthDay_spec (leap : Bool) (n : ℕ) (h : n < 365) :
    daysBeforeMonth leap (monthDay leap n).1 + (monthDay leap n).2 = n + 1 ∧
      (monthDay leap n).1 < 13 ∧ (monthDay leap n).2 < 32 := by
  revert leap n
  decide +kernel

/-- Where a year stands in its cycles of 400, 100 and 4 years. -/
theorem isLeap_cycles {a b c d : ℕ} (hb : b < 4) (hc : c < 25) (hd : d < 4) :
    isLeap (a * 400 + 1 + b * 100 + c * 4 + d) = decide (d = 3 ∧ (c ≠ 24 ∨ b = 3)) := by
  unfold isLeap
  congr 1
  apply propext
  omega

theorem daysBeforeYear_cycles {a b c d : ℕ} (hb : b < 4) (hc : c < 25) (hd : d < 4) :
    daysBeforeYear (a * 400 + 1 + b * 100 + c * 4 + d) =
      a * 146097 + b * 36524 + c * 1461 + d * 365 := by
  unfold daysBeforeYear
  dsimp only
  omega

/-- The last day of a leap year. -/
theorem ymd2ord_newYearsEve {year : ℕ} (h : isLeap year = true) :
    ymd2ord ⟨year, 12, 31⟩ = daysBeforeYear year + 366 := by
  simp [ymd2ord, h, daysBeforeMonth]

theorem ymd2ord_ord2ymd {ordinal : ℕ} (h : 0 < ordinal) : ymd2ord (ord2ymd ordinal) = ordinal := by
  unfold ord2ymd
  dsimp only
  obtain ⟨n, rfl⟩ : ∃ n, ordinal = n + 1 := ⟨ordinal - 1, by omega⟩
  simp only [Nat.add_sub_cancel]
  generalize ha : n / 146097 = a
  generalize hr : n % 146097 = r
  generalize hb : r / 36524 = b
  generalize hs : r % 36524 = s
  generalize hc : s / 1461 = c
  generalize ht : s % 1461 = t
  generalize hd : t / 365 = d
  generalize hu : t % 365 = u
  split
  · next hlast =>
    -- The year found is one too high, and the day before its first one is meant.
    obtain ⟨b', c', d', hyear, hb', hc', hd', hleap⟩ : ∃ b' c' d',
        a * 400 + 1 + b * 100 + c * 4 + d - 1 = a * 400 + 1 + b' * 100 + c' * 4 + d' ∧
          b' < 4 ∧ c' < 25 ∧ d' < 4 ∧ (d' = 3 ∧ (c' ≠ 24 ∨ b' = 3)) := by
      by_cases hcentury : b = 4
      · exact ⟨3, 24, 3, by omega, by omega, by omega, by omega, by omega, by omega⟩
      · exact ⟨b, c, 3, by omega, by omega, by omega, by omega, by omega, by omega⟩
    rw [hyear, ymd2ord_newYearsEve, daysBeforeYear_cycles hb' hc' hd']
    · omega
    · rw [isLeap_cycles hb' hc' hd']
      exact decide_eq_true hleap
  · next hlast =>
    have hb4 : b < 4 := by omega
    have hc25 : c < 25 := by omega
    have hd4 : d < 4 := by omega
    rw [ymd2ord]
    dsimp only
    rw [isLeap_cycles hb4 hc25 hd4, daysBeforeYear_cycles hb4 hc25 hd4]
    have hu : u < 365 := by omega
    have := (monthDay_spec (decide (d = 3 ∧ (c ≠ 24 ∨ b = 3))) u hu).1
    omega

theorem ord2ymd_range {ordinal : ℕ} (h0 : 0 < ordinal) (h : ordinal ≤ 3652059) :
    (ord2ymd ordinal).year < 10000 ∧ (ord2ymd ordinal).month < 13 ∧
      (ord2ymd ordinal).day < 32 := by
  unfold ord2ymd
  dsimp only
  split
  · dsimp only
    omega
  · obtain ⟨-, hmonth, hday⟩ := monthDay_spec
      (decide ((ordinal - 1) % 146097 % 36524 % 1461 / 365 = 3 ∧
        ((ordinal - 1) % 146097 % 36524 / 1461 ≠ 24 ∨ (ordinal - 1) % 146097 / 36524 = 3)))
      ((ordinal - 1) % 146097 % 36524 % 1461 % 365) (by omega)
    refine ⟨?_, hmonth, hday⟩
    dsimp only
    omega

theorem ord2ymd_inj {m n : ℕ} (hm : 0 < m) (hn : 0 < n) (h : ord2ymd m = ord2ymd n) : m = n := by
  rw [← ymd2ord_ord2ymd hm, h, ymd2ord_ord2ymd hn]

end Calendar

section IsoFormat

/-- The last `width` decimal digits, as `f"{n:0{width}d}"` gives them where they are enough. -/
def zeroPadded : ℕ → ℕ → List Char
  | 0, _ => []
  | width + 1, n => zeroPadded width (n / 10) ++ [Nat.digitChar (n % 10)]

theorem length_zeroPadded (width n : ℕ) : (zeroPadded width n).length = width := by
  induction width generalizing n with
  | zero => rfl
  | succ width ih => rw [zeroPadded, List.length_append, ih, List.length_singleton]

theorem digitChar_inj {a b : ℕ} (ha : a < 10) (hb : b < 10)
    (h : Nat.digitChar a = Nat.digitChar b) : a = b := by
  have hall : ∀ a < 10, ∀ b < 10, Nat.digitChar a = Nat.digitChar b → a = b := by decide
  exact hall a ha b hb h

theorem zeroPadded_inj {width a b : ℕ} (ha : a < 10 ^ width) (hb : b < 10 ^ width)
    (h : zeroPadded width a = zeroPadded width b) : a = b := by
  induction width generalizing a b with
  | zero =>
    rw [Nat.pow_zero] at ha hb
    omega
  | succ width ih =>
    obtain ⟨hinit, hlast⟩ := List.append_inj' h rfl
    rw [Nat.pow_succ] at ha hb
    have hinit := ih (by omega) (by omega) hinit
    have hlast := digitChar_inj (Nat.mod_lt a (by omega)) (Nat.mod_lt b (by omega))
      (List.singleton_inj.mp hlast)
    omega

/-- A number of fixed width can be split off. -/
theorem zeroPadded_append_inj {width a b : ℕ} {r r' : List Char} (ha : a < 10 ^ width)
    (hb : b < 10 ^ width) (h : zeroPadded width a ++ r = zeroPadded width b ++ r') :
    a = b ∧ r = r' := by
  obtain ⟨hdigits, hrest⟩ := List.append_inj h (by rw [length_zeroPadded, length_zeroPadded])
  exact ⟨zeroPadded_inj ha hb hdigits, hrest⟩

/-- `date.fromordinal`'s day for a moment in microseconds since the epoch. -/
def ordinalOf (t : ℤ) : ℕ := (t / 86400000000 + 719163).toNat

/-- `isoformat(timespec="milliseconds")` of a UTC `datetime`, in microseconds since the epoch,
with `Z` for the offset. -/
def isoformatMs (t : ℤ) : List Char :=
  let date := ord2ymd (ordinalOf t)
  let us := (t % 86400000000).toNat
  zeroPadded 4 date.year ++ '-' :: (zeroPadded 2 date.month ++ '-' :: (zeroPadded 2 date.day ++
    'T' :: (zeroPadded 2 (us / 3600000000) ++ ':' :: (zeroPadded 2 (us / 60000000 % 60) ++
    ':' :: (zeroPadded 2 (us / 1000000 % 60) ++ '.' :: (zeroPadded 3 (us / 1000 % 1000) ++
    ['Z']))))))

/-- The text tells no more than the millisecond. -/
theorem isoformatMs_congr {s t : ℤ} (h : s / 1000 = t / 1000) : isoformatMs s = isoformatMs t := by
  have hordinal : ordinalOf s = ordinalOf t := by
    unfold ordinalOf
    omega
  have hmilli : (s % 86400000000).toNat / 1000 = (t % 86400000000).toNat / 1000 := by omega
  have hunit (k : ℕ) :
      (s % 86400000000).toNat / (1000 * k) = (t % 86400000000).toNat / (1000 * k) := by
    rw [← Nat.div_div_eq_div_mul, hmilli, Nat.div_div_eq_div_mul]
  have hsecond := hunit 1000
  have hminute := hunit 60000
  have hhour := hunit 3600000
  norm_num at hsecond hminute hhour
  simp only [isoformatMs, hordinal, hmilli, hsecond, hminute, hhour]

/-- The text tells the millisecond, for every `datetime`. -/
theorem isoformatMs_inj {s t : ℤ} (hs : -62135596800000000 ≤ s) (hs' : s ≤ 253402300799999999)
    (ht : -62135596800000000 ≤ t) (ht' : t ≤ 253402300799999999)
    (h : isoformatMs s = isoformatMs t) : s / 1000 = t / 1000 := by
  have hrange {u : ℤ} (hu : -62135596800000000 ≤ u) (hu' : u ≤ 253402300799999999) :
      0 < ordinalOf u ∧ ordinalOf u ≤ 3652059 := by
    unfold ordinalOf
    omega
  obtain ⟨hsy, hsm, hsd⟩ := ord2ymd_range (hrange hs hs').1 (hrange hs hs').2
  obtain ⟨hty, htm, htd⟩ := ord2ymd_range (hrange ht ht').1 (hrange ht ht').2
  have hday {u : ℤ} : (u % 86400000000).toNat < 86400000000 := by omega
  have hsday := hday (u := s)
  have htday := hday (u := t)
  unfold isoformatMs at h
  dsimp only at h
  obtain ⟨hyear, h⟩ := zeroPadded_append_inj (by omega) (by omega) h
  obtain ⟨hmonth, h⟩ := zeroPadded_append_inj (by omega) (by omega) (List.cons.inj h).2
  obtain ⟨hdate, h⟩ := zeroPadded_append_inj (by omega) (by omega) (List.cons.inj h).2
  obtain ⟨hhour, h⟩ := zeroPadded_append_inj (by omega) (by omega) (List.cons.inj h).2
  obtain ⟨hminute, h⟩ := zeroPadded_append_inj (by omega) (by omega) (List.cons.inj h).2
  obtain ⟨hsecond, h⟩ := zeroPadded_append_inj (by omega) (by omega) (List.cons.inj h).2
  obtain ⟨hmilli, -⟩ := zeroPadded_append_inj (by omega) (by omega) (List.cons.inj h).2
  have hordinal := ord2ymd_inj (hrange hs hs').1 (hrange ht ht').1 (by
    cases hds : ord2ymd (ordinalOf s)
    cases hdt : ord2ymd (ordinalOf t)
    simp_all)
  unfold ordinalOf at hordinal
  omega

end IsoFormat

end Python
