import Mathlib.Tactic.Ring
import Mathlib.Tactic.Linarith

/-!
# Instants and durations

A clock reading is an integer number of nanoseconds from 1970-01-01T00:00:00 UTC,
and a duration is a difference of two readings. Every boundary the rest of the
development uses (an hour, a day, a month) is a multiple of a whole hour from that
origin, so rounding down to the hour is `t - t % hour`, with the remainder taken
towards `-∞`.

Readings and durations are both plain integers, so that `omega` decides facts about
them. Proofs that need the size of an hour rewrite with `hour_eq` first. Where the 64 bits of
a duration matter, the difference is `timeSub`. A `timestamptz` column keeps microseconds, and
what it holds of a reading is `storedTime`.
-/

namespace ForecastIQ.Foundations

/-- One second. -/
def second : ℤ := 1000000000

/-- One minute. -/
def minute : ℤ := 60 * second

/-- One hour. -/
def hour : ℤ := 60 * minute

/-- Twenty-four hours, the length of every UTC day. -/
def day : ℤ := 24 * hour

theorem minute_eq : minute = 60000000000 := rfl

theorem hour_eq : hour = 3600000000000 := rfl

theorem day_eq : day = 86400000000000 := rfl

/-- One microsecond, the precision of a `timestamptz` column. -/
def microsecond : ℤ := 1000

/-- The instant as a `timestamptz` column holds it: the driver drops what is below the microsecond. -/
def storedTime (t : ℤ) : ℤ := t - t % microsecond

@[simp] theorem storedTime_storedTime (t : ℤ) : storedTime (storedTime t) = storedTime t := by
  simp only [storedTime, microsecond]
  omega

/-- A whole hour is stored exactly. -/
theorem storedTime_of_emod_hour {t : ℤ} (h : t % hour = 0) : storedTime t = t := by
  simp only [storedTime, microsecond, hour_eq] at h ⊢
  omega

/-- The least duration of 64 bits. -/
def minDuration : ℤ := -2 ^ 63

/-- The largest duration of 64 bits. -/
def maxDuration : ℤ := 2 ^ 63 - 1

/-- `Sub`: the difference of two instants, held to the range of a duration. -/
def timeSub (t u : ℤ) : ℤ := max minDuration (min maxDuration (t - u))

/-- The seconds from year 1, which an instant is counted from, to 1970. -/
def unixToInternal : ℤ := 62135596800

/-- `Unix`: the instant of so many seconds, which are counted from year 1 in 64 bits and wrap. -/
def timeUnix (sec : ℤ) : ℤ := ((sec + unixToInternal).bmod (2 ^ 64) - unixToInternal) * second

/-- `Add`: the seconds of the sum are held to 64 bits. -/
def timeAdd (t d : ℤ) : ℤ :=
  let sec := (t + d) / second + unixToInternal
  let held := if 2 ^ 63 - 1 < sec then 2 ^ 63 - 1 else if sec < -2 ^ 63 then -(2 ^ 63 - 1) else sec
  (held - unixToInternal) * second + (t + d) % second

/-- `UnixNano`: the nanoseconds from 1970, which wrap in 64 bits. -/
def unixNano (t : ℤ) : ℤ := t.bmod (2 ^ 64)

/-- The last second of 64 bits is an instant long past. -/
example : timeUnix (2 ^ 63 - 1) < timeUnix (-2 ^ 62) := by decide

/-- The last whole hour not after `t`. -/
def truncateHour (t : ℤ) : ℤ := t - t % hour

theorem truncateHour_le (t : ℤ) : truncateHour t ≤ t := by
  simp only [truncateHour, hour_eq]
  omega

theorem lt_truncateHour_add (t : ℤ) : t < truncateHour t + hour := by
  simp only [truncateHour, hour_eq]
  omega

theorem truncateHour_emod (t : ℤ) : truncateHour t % hour = 0 := by
  simp only [truncateHour, hour_eq]
  omega

theorem truncateHour_mono {a b : ℤ} (h : a ≤ b) : truncateHour a ≤ truncateHour b := by
  simp only [truncateHour, hour_eq]
  omega

/-- The hour of the day, `0` to `23`. -/
def hourOfDay (t : ℤ) : ℤ := t % day / hour

theorem hourOfDay_nonneg (t : ℤ) : 0 ≤ hourOfDay t := by
  simp only [hourOfDay, day_eq, hour_eq]
  omega

theorem hourOfDay_lt (t : ℤ) : hourOfDay t < 24 := by
  simp only [hourOfDay, day_eq, hour_eq]
  omega

/-- The number of the UTC day of `t`, counted from 1970-01-01. -/
def dayNumber (t : ℤ) : ℤ := t / day

/-- Midnight UTC at the start of the day of `t`. -/
def startOfDay (t : ℤ) : ℤ := dayNumber t * day

/-- An instant is its midnight, its hour of the day and what is left of the hour. -/
theorem truncateHour_eq_startOfDay_add (t : ℤ) :
    truncateHour t = startOfDay t + hourOfDay t * hour := by
  simp only [truncateHour, startOfDay, dayNumber, hourOfDay, day_eq, hour_eq]
  omega

end ForecastIQ.Foundations
