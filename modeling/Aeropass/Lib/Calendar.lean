import Mathlib.Algebra.GroupWithZero.Nat
import Mathlib.Tactic.Common

/-!
# The proleptic Gregorian calendar

Dates and their ordinals as Python's `datetime` has them: day 1 is the first of January of the
year 1. `ord2ymd` takes the ordinal apart by cycles of 400, 100 and 4 years and estimates the month;
`ymd2ord_ord2ymd` is the round trip.
-/

namespace Calendar

/-- A date. -/
structure Ymd where
  year : Nat
  month : Nat
  day : Nat
  deriving DecidableEq, Repr

/-- `_is_leap`. -/
def isLeap (year : Nat) : Bool := year % 4 = 0 && (year % 100 ≠ 0 || year % 400 = 0)

/-- `_days_in_month`. -/
def daysInMonth (leap : Bool) : Nat → Nat
  | 2 => if leap then 29 else 28
  | 4 | 6 | 9 | 11 => 30
  | _ => 31

/-- `_days_before_month`: the days of the year before the first of a month. -/
def daysBeforeMonth (leap : Bool) (month : Nat) : Nat :=
  ((List.range month).map fun m => if m = 0 then 0 else daysInMonth leap m).sum

/-- `_days_before_year`. -/
def daysBeforeYear (year : Nat) : Nat :=
  let y := year - 1
  y * 365 + y / 4 - y / 100 + y / 400

/-- `_ymd2ord`. -/
def ymd2ord (t : Ymd) : Nat :=
  daysBeforeYear t.year + daysBeforeMonth (isLeap t.year) t.month + t.day

/-- The month and the day of the `n`-th day of a year, counted from 0: the month is estimated by
`(n + 50) >> 5`, which is at most one too large. -/
def monthDay (leap : Bool) (n : Nat) : Nat × Nat :=
  let month := (n + 50) / 32
  if n < daysBeforeMonth leap month then (month - 1, n - daysBeforeMonth leap (month - 1) + 1)
  else (month, n - daysBeforeMonth leap month + 1)

/-- `_ord2ymd`. -/
def ord2ymd (ordinal : Nat) : Ymd :=
  let n := ordinal - 1
  let n400 := n / 146097
  let n := n % 146097
  let n100 := n / 36524
  let n := n % 36524
  let n4 := n / 1461
  let n := n % 1461
  let n1 := n / 365
  let n := n % 365
  let year := n400 * 400 + 1 + n100 * 100 + n4 * 4 + n1
  -- the last day of a cycle
  if n1 = 4 || n100 = 4 then ⟨year - 1, 12, 31⟩
  else
    let leap := n1 = 3 && (n4 ≠ 24 || n100 = 3)
    let (month, day) := monthDay leap n
    ⟨year, month, day⟩

/-- `MAXORDINAL`: the last day of the year 9999. -/
def maxOrdinal : Nat := 3652059

/-- A date that exists. -/
structure Ymd.Valid (t : Ymd) : Prop where
  year : 1 ≤ t.year
  month : 1 ≤ t.month ∧ t.month ≤ 12
  day : 1 ≤ t.day ∧ t.day ≤ daysInMonth (isLeap t.year) t.month

/-! ## Months -/

/-- The estimate of the month is right once corrected. -/
theorem monthDay_spec (leap : Bool) {n : Nat} (h : n < 365) :
    (1 ≤ (monthDay leap n).1 ∧ (monthDay leap n).1 ≤ 12) ∧
    (1 ≤ (monthDay leap n).2 ∧ (monthDay leap n).2 ≤ daysInMonth leap (monthDay leap n).1) ∧
    daysBeforeMonth leap (monthDay leap n).1 + (monthDay leap n).2 = n + 1 := by
  have key : ∀ leap, ∀ n < 365,
      (1 ≤ (monthDay leap n).1 ∧ (monthDay leap n).1 ≤ 12) ∧
      (1 ≤ (monthDay leap n).2 ∧ (monthDay leap n).2 ≤ daysInMonth leap (monthDay leap n).1) ∧
      daysBeforeMonth leap (monthDay leap n).1 + (monthDay leap n).2 = n + 1 := by
    decide +kernel
  exact key leap n h

/-! ## Years -/

theorem isLeap_iff {year : Nat} :
    isLeap year = true ↔ year % 4 = 0 ∧ (year % 100 ≠ 0 ∨ year % 400 = 0) := by
  simp [isLeap]

/-- The days before a year, its number taken apart by cycles. -/
theorem daysBeforeYear_cycles {a b c d : Nat} (hb : b < 4) (hc : c < 25) (hd : d < 4) :
    daysBeforeYear (a * 400 + 1 + b * 100 + c * 4 + d) =
      a * 146097 + b * 36524 + c * 1461 + d * 365 := by
  unfold daysBeforeYear
  dsimp only
  omega

/-- A year is a leap year by its place in the cycles. -/
theorem isLeap_cycles {a b c d : Nat} (hb : b < 4) (hc : c < 25) (hd : d < 4) :
    isLeap (a * 400 + 1 + b * 100 + c * 4 + d) = decide (d = 3 ∧ (c ≠ 24 ∨ b = 3)) := by
  rw [Bool.eq_iff_iff, isLeap_iff, decide_eq_true_iff]
  omega

/-- The ordinal of the last day of a leap year. -/
theorem ymd2ord_lastDay {year days : Nat} (hleap : isLeap year = true)
    (hdays : daysBeforeYear year = days) : ymd2ord ⟨year, 12, 31⟩ = days + 366 := by
  have hbefore : daysBeforeMonth true 12 = 335 := by decide
  unfold ymd2ord
  dsimp only
  rw [hleap, hdays, hbefore]

/-- Every year has a last day. -/
theorem valid_lastDay {year : Nat} (h : 1 ≤ year) : Ymd.Valid ⟨year, 12, 31⟩ where
  year := h
  month := ⟨(by decide : 1 ≤ 12), Nat.le_refl 12⟩
  day := ⟨(by decide : 1 ≤ 31), Nat.le_refl 31⟩

/-- A year ends a cycle of four years. -/
theorem lastDay_four {a b c : Nat} (hb : b < 4) (hc : c < 24) :
    ymd2ord ⟨a * 400 + b * 100 + c * 4 + 4, 12, 31⟩ =
      a * 146097 + b * 36524 + c * 1461 + 1095 + 366 := by
  have hleap : isLeap (a * 400 + b * 100 + c * 4 + 4) = true := by
    rw [isLeap_iff]
    omega
  have hdays : daysBeforeYear (a * 400 + b * 100 + c * 4 + 4) =
      a * 146097 + b * 36524 + c * 1461 + 1095 := by
    unfold daysBeforeYear
    dsimp only
    omega
  exact ymd2ord_lastDay hleap hdays

/-- A year ends a cycle of four hundred years. -/
theorem lastDay_fourHundred (a : Nat) :
    ymd2ord ⟨a * 400 + 400, 12, 31⟩ = a * 146097 + 145731 + 366 := by
  have hleap : isLeap (a * 400 + 400) = true := by
    rw [isLeap_iff]
    omega
  have hdays : daysBeforeYear (a * 400 + 400) = a * 146097 + 145731 := by
    unfold daysBeforeYear
    dsimp only
    omega
  exact ymd2ord_lastDay hleap hdays

/-- Every ordinal is that of a date, found by `_ord2ymd`. -/
theorem ord2ymd_spec {ordinal : Nat} (h : 1 ≤ ordinal) :
    (ord2ymd ordinal).Valid ∧ ymd2ord (ord2ymd ordinal) = ordinal := by
  unfold ord2ymd
  dsimp only
  generalize hn400 : (ordinal - 1) / 146097 = n400
  generalize hr400 : (ordinal - 1) % 146097 = r400
  generalize hn100 : r400 / 36524 = n100
  generalize hr100 : r400 % 36524 = r100
  generalize hn4 : r100 / 1461 = n4
  generalize hr4 : r100 % 1461 = r4
  generalize hn1 : r4 / 365 = n1
  generalize hn : r4 % 365 = n
  by_cases hlast : n1 = 4 ∨ n100 = 4
  · rw [if_pos (by simpa using hlast)]
    by_cases h100 : n100 = 4
    · -- the last day of four hundred years
      have hyear : n400 * 400 + 1 + n100 * 100 + n4 * 4 + n1 - 1 = n400 * 400 + 400 := by omega
      rw [hyear]
      refine ⟨?_, (lastDay_fourHundred n400).trans (by omega)⟩
      exact valid_lastDay (Nat.le_add_left 1 _)
    · -- the last day of four years, before the end of a century
      have hyear : n400 * 400 + 1 + n100 * 100 + n4 * 4 + n1 - 1 =
          n400 * 400 + n100 * 100 + n4 * 4 + 4 := by omega
      rw [hyear]
      refine ⟨?_, (lastDay_four (by omega) (by omega)).trans (by omega)⟩
      exact valid_lastDay (Nat.le_add_left 1 _)
  · rw [if_neg (by simpa using hlast)]
    have hb : n100 < 4 := by omega
    have hc : n4 < 25 := by omega
    have hd : n1 < 4 := by omega
    have hleap : (decide (n1 = 3) && (decide (n4 ≠ 24) || decide (n100 = 3))) =
        isLeap (n400 * 400 + 1 + n100 * 100 + n4 * 4 + n1) := by
      rw [isLeap_cycles hb hc hd]
      simp
    obtain ⟨hmonth, hday, hsum⟩ := monthDay_spec
      (isLeap (n400 * 400 + 1 + n100 * 100 + n4 * 4 + n1)) (show n < 365 by omega)
    rw [hleap]
    refine ⟨⟨by simp only; omega, hmonth, hday⟩, ?_⟩
    unfold ymd2ord
    dsimp only
    rw [daysBeforeYear_cycles hb hc hd, Nat.add_assoc, hsum]
    omega

/-- Up to `MAXORDINAL`, years have four digits. -/
theorem year_ord2ymd {ordinal : Nat} (h : 1 ≤ ordinal) (hmax : ordinal ≤ maxOrdinal) :
    (ord2ymd ordinal).year ≤ 9999 := by
  unfold maxOrdinal at hmax
  unfold ord2ymd
  dsimp only
  split
  · dsimp only
    omega
  · dsimp only
    omega

end Calendar
