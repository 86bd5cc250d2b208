import ForecastIQ.Collection.Decompose

/-!
# The OpenWeather adapter

`adapters/forecastproviders/openweather`: the answer is a list of hourly items with a
unix time each. An item without rain and without snow is a dry hour; the adapter gives
it no precipitation amount (`precipMM_isSome`).
-/

namespace ForecastIQ.Collection.OpenWeather

open ForecastIQ.Foundations

/-- `precipVolume`: the amount under the key `1h`. -/
structure PrecipVolume where
  oneHour : Option ℚ
  deriving DecidableEq, Repr, Inhabited

/-- `hourlyItem`. The weather entries are given by their codes; an entry may be null. -/
structure HourlyItem where
  dt : ℤ
  temp : Option ℚ
  feelsLike : Option ℚ
  pressure : Option ℚ
  humidity : Option ℚ
  clouds : Option ℚ
  windSpeed : Option ℚ
  windDeg : Option ℚ
  /-- The probability of precipitation, a ratio. -/
  pop : Option ℚ
  rain : Option PrecipVolume
  snow : Option PrecipVolume
  weather : List (Option ℤ)
  deriving DecidableEq, Repr, Inhabited

/-- `forecastResponse`: the items, of which any may be null. -/
structure ForecastResponse where
  hourly : List (Option HourlyItem)

/-- `mapCondition`: the canonical condition of an OpenWeather code, and whether the code is mapped. -/
def mapCondition (code : ℤ) : Condition × Bool :=
  if 200 ≤ code ∧ code < 300 then (.thunderstorm, true)
  else if 300 ≤ code ∧ code < 400 then (.drizzle, true)
  else if code = 500 ∨ code = 501 ∨ (520 ≤ code ∧ code ≤ 522) ∨ code = 531 then (.rain, true)
  else if code = 502 ∨ code = 503 ∨ code = 504 then (.heavyRain, true)
  else if code = 511 then (.sleet, true)
  else if 600 ≤ code ∧ code ≤ 602 then (.snow, true)
  else if 611 ≤ code ∧ code ≤ 616 then (.sleet, true)
  else if 620 ≤ code ∧ code ≤ 622 then (.snow, true)
  else if code = 701 ∨ code = 711 ∨ code = 721 ∨ code = 731 ∨ code = 741 ∨ code = 751 ∨ code = 761 ∨ code = 762 then
    (.fog, true)
  else if code = 800 then (.clear, true)
  else if code = 801 ∨ code = 802 then (.partlyCloudy, true)
  else if code = 803 ∨ code = 804 then (.cloudy, true)
  else (.unknown, false)

/-- The last-hour amount of a volume, when both the volume and the amount are there. -/
def amount (v : Option PrecipVolume) : Option ℚ := v.bind PrecipVolume.oneHour

/-- `precipMM`: rain and snow of the last hour, or nothing when neither was reported. -/
def precipMM (item : HourlyItem) : Option ℚ :=
  let total : ℚ := 0
  let (total, present) := match amount item.rain with
    | some r => (total + r, true)
    | none => (total, false)
  let (total, present) := match amount item.snow with
    | some s => (total + s, true)
    | none => (total, present)
  if present then some total else none

/-- `primaryConditionID`: the code of the first entry that is not null. -/
def primaryConditionID (entries : List (Option ℤ)) : Option ℤ := entries.findSome? id

/-- The snapshot of an item. -/
def HourlyItem.snapshot (item : HourlyItem) (issuedAt : ℤ) : ForecastSnapshot where
  issuedAt := issuedAt
  targetTime := item.dt * second
  forecastHorizonMinutes := horizonMinutes issuedAt (item.dt * second)
  weather :=
    { temperatureC := item.temp
      feelsLikeTemperatureC := item.feelsLike
      precipitationProbability := item.pop
      precipitationAmountMM := precipMM item
      humidityPct := item.humidity
      windSpeedMS := item.windSpeed
      windDirectionDeg := item.windDeg
      pressureHPa := item.pressure
      cloudCoverPct := item.clouds }
  condition := (primaryConditionID item.weather).map fun c => (c, (mapCondition c).1)

/-- `buildSnapshot`: item `i`. -/
def buildSnapshot (issuedAt : ℤ) (item : Option HourlyItem) (i : ℕ) : Except RowReason BuiltRow :=
  match item with
  | none => .error (.missingDt i)
  | some item =>
    if item.dt ≤ 0 then .error (.missingDt i)
    else
      .ok
        { snapshot := item.snapshot issuedAt
          unmapped := (primaryConditionID item.weather).filter fun c => !(mapCondition c).2 }

/-- The rows of a nonempty answer. -/
def ForecastResponse.rows (resp : ForecastResponse) (issuedAt : ℤ) : List (Except RowReason BuiltRow) :=
  resp.hourly.zipIdx.map fun p => buildSnapshot issuedAt p.1 p.2

/-- `decompose`; the first argument is the payload as `json.Unmarshal` reads it. -/
def decompose (resp : Except String ForecastResponse) (issuedAt : ℤ) (result : ForecastResult) : ForecastResult :=
  match resp with
  | .error err => result.drift (.notJSON err)
  | .ok resp =>
    if resp.hourly = [] then result.drift .missingHourly else decomposeRows (resp.rows issuedAt) result

/-- `FetchForecast`, on the body that the transport returned and its classified failure; a call
refused by the daily budget is a failure without a body. -/
def fetchForecast (unmarshal : List UInt8 → Except String ForecastResponse) (body : List UInt8)
    (failure : Option ProviderError) (issuedAt : ℤ) : ForecastResult :=
  match failure with
  | some e => .ofError body e
  | none => decompose (unmarshal body) issuedAt (.ofPayload body)

/-! ### Dry hours -/

/-- Rain or snow was reported for the hour; an hour that is not wet is a dry one. -/
def HourlyItem.wet (item : HourlyItem) : Bool := (amount item.rain).isSome || (amount item.snow).isSome

/-- Only a wet hour gets an amount. -/
theorem precipMM_isSome (item : HourlyItem) : (precipMM item).isSome = item.wet := by
  unfold precipMM HourlyItem.wet
  cases amount item.rain <;> cases amount item.snow <;> rfl

/-- An accepted row is the snapshot of a delivered item. -/
theorem mem_filterMap_rows {resp : ForecastResponse} {issuedAt : ℤ} {s : ForecastSnapshot}
    (h : s ∈ (resp.rows issuedAt).filterMap acceptRow) :
    ∃ item, some item ∈ resp.hourly ∧ s = item.snapshot issuedAt := by
  obtain ⟨row, hrow, hacc⟩ := List.mem_filterMap.mp h
  obtain ⟨⟨item, i⟩, hmem, rfl⟩ := List.mem_map.mp hrow
  cases item with
  | none => simp [buildSnapshot, acceptRow] at hacc
  | some item =>
    simp only [buildSnapshot] at hacc
    split_ifs at hacc
    · simp [acceptRow] at hacc
    · simp only [acceptRow, Option.ite_none_right_eq_some, Option.some.injEq] at hacc
      exact ⟨item, List.fst_mem_of_mem_zipIdx hmem, hacc.2.symm⟩

/-- Every snapshot of a usable answer is the snapshot of a delivered item. -/
theorem mem_snapshots_decompose {resp : ForecastResponse} {issuedAt : ℤ} {body : List UInt8} {s : ForecastSnapshot}
    (h : s ∈ (decompose (.ok resp) issuedAt (.ofPayload body)).snapshots) :
    ∃ item, some item ∈ resp.hourly ∧ s = item.snapshot issuedAt := by
  simp only [decompose] at h
  split_ifs at h
  · simp [ForecastResult.drift, ForecastResult.ofPayload] at h
  · rw [(decomposeRows_eq _ _).1] at h
    exact mem_filterMap_rows h

end ForecastIQ.Collection.OpenWeather
