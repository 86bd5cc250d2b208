import ForecastIQ.Foundations.Calendar
import ForecastIQ.Foundations.Ruler

/-!
# Dates of instants

The date of an instant in a zone at a fixed offset from UTC, the instant of a date, and adding to
a date. `addDate` adds to the fields of a date and carries over what is out of range, so that a
month after January 31 is March 2 or 3; `plusMonths` is the addition of a database, which takes
the last day of the month instead.

Days, Monday weeks and months are rulers: `midnights` marks the instants where a day begins, and
`mondays` and `monthStarts` mark the days where a week or a month does.
-/

namespace ForecastIQ.Foundations

/-! ### Days, weeks and months -/

theorem mul_day_lt_succ (n : ℤ) : n * day < (n + 1) * day := by
  rw [day_eq]
  omega

theorem dayNumber_mul_le (t : ℤ) : dayNumber t * day ≤ t := by
  rw [dayNumber, day_eq]
  omega

theorem lt_dayNumber_succ_mul (t : ℤ) : t < (dayNumber t + 1) * day := by
  rw [dayNumber, day_eq]
  omega

/-- The instants where a UTC day begins. -/
def midnights : Ruler where
  mark n := n * day
  index := dayNumber
  mark_lt_succ := mul_day_lt_succ
  mark_index_le := dayNumber_mul_le
  lt_mark_index := lt_dayNumber_succ_mul

/-- The Mondays. -/
def mondays : Ruler where
  mark n := 7 * n - 3
  index d := (d + 3) / 7
  mark_lt_succ n := by omega
  mark_index_le d := by omega
  lt_mark_index d := by omega

/-- The first days of months. -/
def monthStarts : Ruler where
  mark := monthStartDay
  index := monthOfDay
  mark_lt_succ n := by
    have h := (monthStartDay_succ_bounds n).1
    omega
  mark_index_le := monthStartDay_le
  lt_mark_index := lt_monthStartDay_succ

theorem floor_mondays (d : ℤ) : mondays.floor d = mondayOf d := by
  simp only [Ruler.floor, mondays, mondayOf, daysSinceMonday]
  omega

theorem ceil_mondays (d : ℤ) : mondays.ceil d = mondayOf d + 7 := by
  simp only [Ruler.ceil, mondays, mondayOf, daysSinceMonday]
  omega

/-! ### The fields of a day -/

/-- The year of a day. -/
def civilYear (d : ℤ) : ℤ := monthOfDay d / 12

/-- The month of a day in its year, from `1`. -/
def civilMonth (d : ℤ) : ℤ := monthOfDay d % 12 + 1

/-- The day of the month, from `1`. -/
def civilDay (d : ℤ) : ℤ := d - monthStartDay (monthOfDay d) + 1

/-- The day of the week, with Sunday `0`. -/
def weekday (d : ℤ) : ℤ := (d + 4) % 7

/-- A day is that of its fields, also when months and days are added to these. -/
theorem dayOfCivil_add (d months days : ℤ) :
    dayOfCivil (civilYear d) (civilMonth d + months) (civilDay d + days) =
      monthStartDay (monthOfDay d + months) + (d - monthStartDay (monthOfDay d)) + days := by
  have hmonth : 12 * civilYear d + (civilMonth d + months - 1) = monthOfDay d + months := by
    simp only [civilYear, civilMonth]
    omega
  rw [dayOfCivil, hmonth, civilDay]
  ring

theorem dayOfCivil_first (d : ℤ) : dayOfCivil (civilYear d) (civilMonth d) 1 = monthStartDay (monthOfDay d) := by
  have hmonth : 12 * civilYear d + (civilMonth d - 1) = monthOfDay d := by
    simp only [civilYear, civilMonth]
    omega
  rw [dayOfCivil, hmonth, sub_self, add_zero]

/-! ### Instants in a zone -/

/-- The day of an instant in a zone that is `loc` ahead of UTC. -/
def localDay (t loc : ℤ) : ℤ := dayNumber (t + loc)

/-- `Date`: midnight of a date in the zone; months and days out of range carry over. -/
def date (year month dd loc : ℤ) : ℤ := dayOfCivil year month dd * day - loc

/-- `AddDate`: the same time of day on the date with these years, months and days added. -/
def addDate (t years months days loc : ℤ) : ℤ :=
  let d := localDay t loc
  date (civilYear d + years) (civilMonth d + months) (civilDay d + days) loc + (t + loc) % day

/-- Midnight in the zone of the day of an instant. -/
theorem date_localDay (t loc : ℤ) :
    date (civilYear (localDay t loc)) (civilMonth (localDay t loc)) (civilDay (localDay t loc)) loc =
      localDay t loc * day - loc := by
  have h := dayOfCivil_add (localDay t loc) 0 0
  rw [add_zero, add_zero, add_zero, add_zero, add_sub_cancel] at h
  rw [date, h]

/-- Midnight in the zone of the first day of the month of an instant. -/
theorem date_first (t loc : ℤ) :
    date (civilYear (localDay t loc)) (civilMonth (localDay t loc)) 1 loc =
      monthStartDay (monthOfDay (localDay t loc)) * day - loc := by
  rw [date, dayOfCivil_first]

theorem localDay_midnight (d loc : ℤ) : localDay (d * day - loc) loc = d := by
  rw [localDay, sub_add_cancel, dayNumber, day_eq]
  omega

/-- Adding to the date of a midnight. -/
theorem addDate_midnight (d months days loc : ℤ) :
    addDate (d * day - loc) 0 months days loc =
      (monthStartDay (monthOfDay d + months) + (d - monthStartDay (monthOfDay d)) + days) * day - loc := by
  have hclock : (d * day - loc + loc) % day = 0 := by
    rw [sub_add_cancel, Int.mul_emod_left]
  simp only [addDate]
  rw [hclock, localDay_midnight, add_zero, add_zero, date, dayOfCivil_add]

/-- Adding days to a midnight. -/
theorem addDate_days (d days loc : ℤ) : addDate (d * day - loc) 0 0 days loc = (d + days) * day - loc := by
  rw [addDate_midnight, add_zero, add_sub_cancel]

theorem monthOfDay_monthStartDay (n : ℤ) : monthOfDay (monthStartDay n) = n :=
  monthStarts.index_eq_iff.mpr ⟨le_rfl, monthStarts.mark_lt_succ n⟩

/-- Adding a month to the first midnight of a month. -/
theorem addDate_month (n loc : ℤ) :
    addDate (monthStartDay n * day - loc) 0 1 0 loc = monthStartDay (n + 1) * day - loc := by
  rw [addDate_midnight, monthOfDay_monthStartDay, sub_self, add_zero, add_zero]

/-! ### Intervals of a database -/

/-- Adding an interval of months, in UTC: a day after the end of the month is its last day. -/
def plusMonths (t months : ℤ) : ℤ :=
  let d := dayNumber t
  let month := monthOfDay d + months
  (monthStartDay month + min (civilDay d) (monthStartDay (month + 1) - monthStartDay month) - 1) * day + t % day

/-- Adding an interval of days, in UTC. -/
def plusDays (t days : ℤ) : ℤ := t + days * day

theorem plusMonths_monthStartDay (n months : ℤ) :
    plusMonths (monthStartDay n * day) months = monthStartDay (n + months) * day := by
  have hday : dayNumber (monthStartDay n * day) = monthStartDay n := by
    rw [dayNumber, day_eq]
    omega
  have hfirst : civilDay (monthStartDay n) = 1 := by
    rw [civilDay, monthOfDay_monthStartDay, sub_self, zero_add]
  have hlong := (monthStartDay_succ_bounds (n + months)).1
  simp only [plusMonths]
  rw [hday, hfirst, monthOfDay_monthStartDay, Int.mul_emod_left, min_eq_left (by omega)]
  ring

/-- A month is at least 28 days. -/
theorem plusDays_le_plusMonths (t : ℤ) : plusDays t 28 ≤ plusMonths t 1 := by
  have hthis := monthStartDay_succ_bounds (monthOfDay (dayNumber t))
  have hnext := monthStartDay_succ_bounds (monthOfDay (dayNumber t) + 1)
  have hstart := monthStartDay_le (dayNumber t)
  have hstop := lt_monthStartDay_succ (dayNumber t)
  simp only [plusDays, plusMonths, civilDay]
  have hclock : t = dayNumber t * day + t % day := by
    rw [dayNumber, Int.ediv_mul_add_emod]
  generalize dayNumber t = d at *
  generalize t % day = c at *
  subst hclock
  rw [day_eq]
  omega

end ForecastIQ.Foundations
