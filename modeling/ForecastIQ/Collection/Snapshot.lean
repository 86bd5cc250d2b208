import ForecastIQ.Foundations.Instant
import Mathlib.Data.Rat.Floor
import Mathlib.Tactic.Linarith
import Mathlib.Tactic.Positivity

/-!
# Forecast snapshots

`internal/collection/domain`: the predicted hour of one provider, its physical ranges
and the row reasons an adapter reports. Weather values are rational numbers, the ones
a decimal text or a `numeric` column denotes; `none` is a field the provider did not
fill. A snapshot's own identifier, its collection, provider and location are given to
it when it is stored.

`validate_eq_nil_iff` says what a valid snapshot is.
-/

namespace ForecastIQ.Collection

open ForecastIQ.Foundations

/-- The weather fields of a snapshot. -/
structure Weather where
  temperatureC : Option ℚ
  feelsLikeTemperatureC : Option ℚ
  precipitationProbability : Option ℚ
  precipitationAmountMM : Option ℚ
  humidityPct : Option ℚ
  windSpeedMS : Option ℚ
  windDirectionDeg : Option ℚ
  pressureHPa : Option ℚ
  cloudCoverPct : Option ℚ
  deriving DecidableEq, Repr

/-- The canonical weather conditions. -/
inductive Condition where
  | clear
  | partlyCloudy
  | cloudy
  | fog
  | drizzle
  | rain
  | heavyRain
  | thunderstorm
  | snow
  | sleet
  | unknown
  deriving DecidableEq, Repr

/-- `ForecastSnapshot`: one predicted target period. The provider's condition code and the
canonical one are both absent when the provider sent none. -/
structure ForecastSnapshot where
  issuedAt : ℤ
  targetTime : ℤ
  forecastHorizonMinutes : ℤ
  weather : Weather
  condition : Option (ℤ × Condition)
  deriving DecidableEq, Repr

/-! ### Physical ranges -/

/-- A known value lies outside `[lo, hi]`. -/
def outOfRange (lo hi : ℚ) (v : Option ℚ) : Bool := v.any fun x => decide (x < lo) || decide (hi < x)

/-- The `%.2f` verb: two decimals, a tie going to the even neighbour. -/
def formatTwoDecimals (x : ℚ) : String :=
  let scaled := |x| * 100
  let n := ⌊scaled⌋
  let rest := scaled - n
  let n := if 1 / 2 < rest ∨ (rest = 1 / 2 ∧ n % 2 = 1) then n + 1 else n
  let cents := if n % 100 < 10 then "0" ++ toString (n % 100) else toString (n % 100)
  (if x < 0 then "-" else "") ++ toString (n / 100) ++ "." ++ cents

/-- One range check of `Validate`: the reason it gives when the value is outside. -/
def rangeReason (lo hi : ℚ) (reason : ℚ → String) (v : Option ℚ) : List String :=
  if outOfRange lo hi v then [reason (v.getD 0)] else []

/-- The range checks of `Validate`, in order. -/
def Weather.rangeReasons (w : Weather) : List String :=
  rangeReason (-90) 60 (fun v => "temperature_c " ++ formatTwoDecimals v ++ " out of range [-90,60]") w.temperatureC ++
  rangeReason (-90) 60 (fun _ => "feels_like_temperature_c out of range") w.feelsLikeTemperatureC ++
  rangeReason 0 1 (fun _ => "precipitation_probability must be within [0,1]") w.precipitationProbability ++
  rangeReason 0 500 (fun _ => "precipitation_amount_mm out of range") w.precipitationAmountMM ++
  rangeReason 0 100 (fun _ => "humidity_pct must be within [0,100]") w.humidityPct ++
  rangeReason 0 120 (fun _ => "wind_speed_ms out of range") w.windSpeedMS ++
  rangeReason 0 360 (fun _ => "wind_direction_deg must be within [0,360]") w.windDirectionDeg ++
  rangeReason 870 1084 (fun _ => "pressure_hpa out of range") w.pressureHPa ++
  rangeReason 0 100 (fun _ => "cloud_cover_pct must be within [0,100]") w.cloudCoverPct

/-- Every known value is within its physical range. -/
def Weather.InRange (w : Weather) : Prop := w.rangeReasons = []

instance (w : Weather) : Decidable w.InRange := inferInstanceAs (Decidable (_ = _))

/-- `Validate`: the reasons for which the snapshot is rejected. -/
def ForecastSnapshot.validate (s : ForecastSnapshot) : List String :=
  (if s.issuedAt < s.targetTime then [] else ["target_time must be after issued_at"]) ++
  (if s.forecastHorizonMinutes ≤ 0 then ["forecast_horizon_minutes must be positive"] else []) ++
  s.weather.rangeReasons

/-- A valid snapshot is about a later time, by at least a minute, and within the ranges. -/
theorem ForecastSnapshot.validate_eq_nil_iff (s : ForecastSnapshot) :
    s.validate = [] ↔ s.issuedAt < s.targetTime ∧ 0 < s.forecastHorizonMinutes ∧ s.weather.InRange := by
  have hnil : ∀ (p : Prop) [Decidable p] (reason : String), (if p then [reason] else []) = [] ↔ ¬ p := by
    intro p _ reason
    split_ifs <;> simp [*]
  rw [validate, List.append_eq_nil_iff, List.append_eq_nil_iff, ← ite_not, hnil, hnil, not_not, not_le, and_assoc]
  rfl

/-- `int(targetTime.Sub(issuedAt).Minutes())`. -/
def horizonMinutes (issuedAt targetTime : ℤ) : ℤ := (timeSub targetTime issuedAt).tdiv minute

/-- A horizon of whole hours is exact, for two hundred years. -/
theorem horizonMinutes_add_hours (issuedAt : ℤ) {k : ℤ} (hk : |k| ≤ 200 * 365 * 24) :
    horizonMinutes issuedAt (issuedAt + k * hour) = 60 * k := by
  have hsub : timeSub (issuedAt + k * hour) issuedAt = 60 * k * minute := by
    rw [abs_le] at hk
    simp only [timeSub, minDuration, maxDuration, hour_eq, minute_eq]
    omega
  rw [horizonMinutes, hsub]
  exact Int.mul_tdiv_cancel _ (by decide)

/-! ### Stored columns -/

/-- Round to a scale of decimals, a tie away from zero, as a `numeric` column does. -/
def roundScale (scale : ℕ) (x : ℚ) : ℚ :=
  (if 0 ≤ x then (⌊x * 10 ^ scale + 1 / 2⌋ : ℚ) else ⌈x * 10 ^ scale - 1 / 2⌉) / 10 ^ scale

/-- The value is the nearest one of the scale, and does not cross another one of it. -/
theorem roundScale_spec (scale : ℕ) (x : ℚ) :
    ∃ n : ℤ, roundScale scale x = n / 10 ^ scale ∧ |(n : ℚ) - x * 10 ^ scale| ≤ 1 / 2 ∧
      ∀ m : ℤ, (x * 10 ^ scale ≤ m → n ≤ m) ∧ ((m : ℚ) ≤ x * 10 ^ scale → m ≤ n) := by
  generalize hy : x * 10 ^ scale = y
  by_cases hx : 0 ≤ x
  · refine ⟨⌊y + 1 / 2⌋, by rw [roundScale, if_pos hx, hy], ?_, fun m => ⟨fun h => ?_, fun h => ?_⟩⟩
    · have h1 := Int.floor_le (y + 1 / 2)
      have h2 := Int.lt_floor_add_one (y + 1 / 2)
      rw [abs_le]
      constructor <;> linarith
    · rw [← Int.lt_add_one_iff, Int.floor_lt]
      push_cast
      linarith
    · rw [Int.le_floor]
      linarith
  · refine ⟨⌈y - 1 / 2⌉, by rw [roundScale, if_neg hx, hy], ?_, fun m => ⟨fun h => ?_, fun h => ?_⟩⟩
    · have h1 := Int.le_ceil (y - 1 / 2)
      have h2 := Int.ceil_lt_add_one (y - 1 / 2)
      rw [abs_le]
      constructor <;> linarith
    · rw [Int.ceil_le]
      linarith
    · rw [← Int.sub_one_lt_iff, Int.lt_ceil]
      push_cast
      linarith

theorem abs_roundScale_sub_le (scale : ℕ) (x : ℚ) : |roundScale scale x - x| ≤ 1 / 2 / 10 ^ scale := by
  obtain ⟨n, he, hn, -⟩ := roundScale_spec scale x
  have hpos : (0 : ℚ) < 10 ^ scale := by positivity
  rw [he, le_div_iff₀ hpos, ← abs_of_pos hpos, ← abs_mul, abs_of_pos hpos, sub_mul, div_mul_cancel₀ _ hpos.ne']
  exact hn

theorem roundScale_le {scale : ℕ} {x hi : ℚ} {m : ℤ} (hm : (m : ℚ) = hi * 10 ^ scale) (h : x ≤ hi) :
    roundScale scale x ≤ hi := by
  obtain ⟨n, he, -, hn⟩ := roundScale_spec scale x
  have hpos : (0 : ℚ) < 10 ^ scale := by positivity
  rw [he, div_le_iff₀ hpos, ← hm, Int.cast_le]
  exact (hn m).1 (by rw [hm]; exact mul_le_mul_of_nonneg_right h hpos.le)

theorem le_roundScale {scale : ℕ} {x lo : ℚ} {m : ℤ} (hm : (m : ℚ) = lo * 10 ^ scale) (h : lo ≤ x) :
    lo ≤ roundScale scale x := by
  obtain ⟨n, he, -, hn⟩ := roundScale_spec scale x
  have hpos : (0 : ℚ) < 10 ^ scale := by positivity
  rw [he, le_div_iff₀ hpos, ← hm, Int.cast_le]
  exact (hn m).2 (by rw [hm]; exact mul_le_mul_of_nonneg_right h hpos.le)

/-- The values as the columns hold them: two decimals, four for a probability, one for a
direction. -/
def Weather.stored (w : Weather) : Weather where
  temperatureC := w.temperatureC.map (roundScale 2)
  feelsLikeTemperatureC := w.feelsLikeTemperatureC.map (roundScale 2)
  precipitationProbability := w.precipitationProbability.map (roundScale 4)
  precipitationAmountMM := w.precipitationAmountMM.map (roundScale 2)
  humidityPct := w.humidityPct.map (roundScale 2)
  windSpeedMS := w.windSpeedMS.map (roundScale 2)
  windDirectionDeg := w.windDirectionDeg.map (roundScale 1)
  pressureHPa := w.pressureHPa.map (roundScale 2)
  cloudCoverPct := w.cloudCoverPct.map (roundScale 2)

/-- The snapshot as its columns hold it. -/
def ForecastSnapshot.stored (s : ForecastSnapshot) : ForecastSnapshot :=
  { s with
    issuedAt := storedTime s.issuedAt
    targetTime := storedTime s.targetTime
    weather := s.weather.stored }

end ForecastIQ.Collection
