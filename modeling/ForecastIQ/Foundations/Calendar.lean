import ForecastIQ.Foundations.Instant

/-!
# The civil calendar

Days are numbered from 1970-01-01 and months from January of year `0`: month `n` is
month `n % 12` (January is `0`) of year `n / 12`, in the proleptic Gregorian
calendar. Adding a month to the first day of a month is adding `1` to its number,
which is what normalising an out-of-range month does.

Day, week and month windows are the intervals between consecutive values of a
strictly increasing sequence of day numbers; what is proved of a month is that
its window is never empty and holds the day it was computed from
(`monthStartDay_le`, `lt_monthStartDay_succ`).
-/

namespace ForecastIQ.Foundations

/-- The leap years of the Gregorian calendar. -/
def isLeap (y : ℤ) : Bool := y % 4 = 0 ∧ (y % 100 ≠ 0 ∨ y % 400 = 0)

/-- The number of the first day of year `y`. -/
def daysBeforeYear (y : ℤ) : ℤ := 365 * (y - 1970) + ((y - 1) / 4 - (y - 1) / 100 + (y - 1) / 400) - 477

/-- How many days an added leap day shifts the months after February. -/
def leapDay (y : ℤ) : ℤ := if isLeap y then 1 else 0

/-- The days of year `y` before its month `m`, with January `0` (and `12` for the whole year).
From March on the cumulative lengths `31, 30, 31, 30, 31` repeat, `153` days every five months. -/
def daysBeforeMonth (y m : ℤ) : ℤ :=
  if m ≤ 0 then 0 else if m = 1 then 31 else 59 + leapDay y + (153 * (m - 2) + 2) / 5

/-- The number of the first day of month `n`. -/
def monthStartDay (n : ℤ) : ℤ := daysBeforeYear (n / 12) + daysBeforeMonth (n / 12) (n % 12)

/-- The year of a day: an estimate from the mean length of a year, corrected by at most one. -/
def yearOfDay (d : ℤ) : ℤ :=
  let y := 1970 + 400 * d / 146097
  if d < daysBeforeYear y then y - 1 else if daysBeforeYear (y + 1) ≤ d then y + 1 else y

/-- The month (January `0`) of the day `k` days after the first of January of year `y`. -/
def monthOfYearDay (y k : ℤ) : ℤ :=
  if k < 31 then 0 else if k < 59 + leapDay y then 1 else 2 + (5 * (k - 59 - leapDay y) + 2) / 153

/-- The month of a day. -/
def monthOfDay (d : ℤ) : ℤ := 12 * yearOfDay d + monthOfYearDay (yearOfDay d) (d - daysBeforeYear (yearOfDay d))

/-- The number of day `dd` (from `1`) of month `m` (from `1`) of year `y`. -/
def dayOfCivil (y m dd : ℤ) : ℤ := monthStartDay (12 * y + (m - 1)) + (dd - 1)

theorem leapDay_eq (y : ℤ) : leapDay y = 0 ∨ leapDay y = 1 := by
  unfold leapDay
  split_ifs <;> simp

theorem daysBeforeYear_succ (y : ℤ) : daysBeforeYear (y + 1) = daysBeforeYear y + 365 + leapDay y := by
  simp only [daysBeforeYear, leapDay, isLeap, decide_eq_true_eq]
  split_ifs <;> omega

/-- The estimate of a day's year is off by at most one. -/
theorem daysBeforeYear_estimate (d : ℤ) :
    daysBeforeYear (1970 + 400 * d / 146097 - 1) ≤ d ∧ d < daysBeforeYear (1970 + 400 * d / 146097 + 1 + 1) := by
  simp only [daysBeforeYear]
  constructor <;> omega

theorem daysBeforeYear_yearOfDay (d : ℤ) :
    daysBeforeYear (yearOfDay d) ≤ d ∧ d < daysBeforeYear (yearOfDay d + 1) := by
  obtain ⟨h1, h2⟩ := daysBeforeYear_estimate d
  simp only [yearOfDay]
  split_ifs with ha hb
  · rw [sub_add_cancel]
    exact ⟨h1, ha⟩
  · exact ⟨hb, h2⟩
  · exact ⟨not_lt.mp ha, not_le.mp hb⟩

theorem daysBeforeMonth_zero (y : ℤ) : daysBeforeMonth y 0 = 0 := rfl

theorem daysBeforeMonth_twelve (y : ℤ) : daysBeforeMonth y 12 = 365 + leapDay y := by
  simp only [daysBeforeMonth]
  norm_num
  ring

/-- A month's days are those of the day it is computed from. -/
theorem daysBeforeMonth_monthOfYearDay {y k : ℤ} (h0 : 0 ≤ k) (h1 : k < 365 + leapDay y) :
    0 ≤ monthOfYearDay y k ∧ monthOfYearDay y k < 12 ∧ daysBeforeMonth y (monthOfYearDay y k) ≤ k ∧
      k < daysBeforeMonth y (monthOfYearDay y k + 1) := by
  have hl := leapDay_eq y
  simp only [monthOfYearDay, daysBeforeMonth]
  split_ifs <;> omega

/-- The first day of the month after month `m` of year `y`, also for December. -/
theorem monthStartDay_succ {y m : ℤ} (h0 : 0 ≤ m) (h1 : m < 12) :
    monthStartDay (12 * y + m + 1) = daysBeforeYear y + daysBeforeMonth y (m + 1) := by
  rcases eq_or_ne m 11 with rfl | hm
  · have hd : (12 * y + 11 + 1) / 12 = y + 1 := by omega
    have hr : (12 * y + 11 + 1) % 12 = 0 := by omega
    rw [monthStartDay, hd, hr, daysBeforeMonth_zero, daysBeforeYear_succ]
    rw [show (11 : ℤ) + 1 = 12 from rfl, daysBeforeMonth_twelve]
    ring
  · have hd : (12 * y + m + 1) / 12 = y := by omega
    have hr : (12 * y + m + 1) % 12 = m + 1 := by omega
    rw [monthStartDay, hd, hr]

/-- A month has 28 to 31 days. -/
theorem monthStartDay_succ_bounds (n : ℤ) :
    monthStartDay n + 28 ≤ monthStartDay (n + 1) ∧ monthStartDay (n + 1) ≤ monthStartDay n + 31 := by
  have h := monthStartDay_succ (y := n / 12) (m := n % 12) (by omega) (by omega)
  rw [show 12 * (n / 12) + n % 12 + 1 = n + 1 by omega] at h
  have hl := leapDay_eq (n / 12)
  rw [h, monthStartDay]
  simp only [daysBeforeMonth]
  split_ifs <;> omega

theorem monthStartDay_monthOfDay (d : ℤ) :
    monthStartDay (monthOfDay d) ≤ d ∧ d < monthStartDay (monthOfDay d + 1) := by
  obtain ⟨hy1, hy2⟩ := daysBeforeYear_yearOfDay d
  rw [daysBeforeYear_succ] at hy2
  obtain ⟨hm0, hm1, hm2, hm3⟩ :=
    daysBeforeMonth_monthOfYearDay (y := yearOfDay d) (k := d - daysBeforeYear (yearOfDay d)) (by omega) (by omega)
  rw [monthOfDay, monthStartDay_succ hm0 hm1]
  set m := monthOfYearDay (yearOfDay d) (d - daysBeforeYear (yearOfDay d))
  have hd : (12 * yearOfDay d + m) / 12 = yearOfDay d := by omega
  have hr : (12 * yearOfDay d + m) % 12 = m := by omega
  rw [monthStartDay, hd, hr]
  constructor <;> omega

/-- The month of a day starts no later than the day. -/
theorem monthStartDay_le (d : ℤ) : monthStartDay (monthOfDay d) ≤ d := (monthStartDay_monthOfDay d).1

/-- The month after the month of a day starts after the day. -/
theorem lt_monthStartDay_succ (d : ℤ) : d < monthStartDay (monthOfDay d + 1) := (monthStartDay_monthOfDay d).2

/-- The days from Monday to day `d`; day `0` was a Thursday. -/
def daysSinceMonday (d : ℤ) : ℤ := (d + 3) % 7

/-- The Monday on or before day `d`. -/
def mondayOf (d : ℤ) : ℤ := d - daysSinceMonday d

theorem mondayOf_le (d : ℤ) : mondayOf d ≤ d := by
  simp only [mondayOf, daysSinceMonday]
  omega

theorem lt_mondayOf_add (d : ℤ) : d < mondayOf d + 7 := by
  simp only [mondayOf, daysSinceMonday]
  omega

end ForecastIQ.Foundations
