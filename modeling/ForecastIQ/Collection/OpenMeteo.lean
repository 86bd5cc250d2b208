import ForecastIQ.Collection.Decompose
import ForecastIQ.Foundations.Calendar

/-!
# The Open-Meteo adapter

`adapters/forecastproviders/openmeteo`: the answer is a record of parallel hourly
arrays. Row `i` takes its target time from the text `time[i]` and its values from
position `i` of the other arrays, which may be shorter.

`parseTime` is `time.Parse` for the two layouts the adapter tries. It reads the text as
a list of characters, field by field; a field is a number of one or two digits or a
fixed character, and what is left over at the end is an error.
-/

namespace ForecastIQ.Collection.OpenMeteo

open ForecastIQ.Foundations

/-! ### Timestamps -/

/-- The value of a decimal digit. -/
def digit? (c : Char) : Option ℤ := if '0' ≤ c ∧ c ≤ '9' then some (c.toNat - 48 : ℕ) else none

/-- `getnum`: a number of two digits, or also of one when it is not `fixed`. -/
def getNum (fixed : Bool) : List Char → Option (ℤ × List Char)
  | [] => none
  | c :: rest => do
    let d ← digit? c
    match rest with
    | c' :: rest' =>
      match digit? c' with
      | some d' => some (10 * d + d', rest')
      | none => if fixed then none else some (d, rest)
    | [] => if fixed then none else some (d, [])

/-- A number below a bound. -/
def getNumBelow (fixed : Bool) (bound : ℤ) (s : List Char) : Option (ℤ × List Char) := do
  let (n, rest) ← getNum fixed s
  if n < bound then some (n, rest) else none

/-- A fixed character of the layout. -/
def skipChar (c : Char) : List Char → Option (List Char)
  | [] => none
  | c' :: rest => if c' = c then some rest else none

/-- A year of four digits. -/
def getYear (s : List Char) : Option (ℤ × List Char) := do
  let (hi, rest) ← getNum true s
  let (lo, rest) ← getNum true rest
  some (100 * hi + lo, rest)

/-- The fields `2006-01-02T15:04`, as the instant of that minute. The day is checked against the
month only after the whole text has been read; that cannot change which texts are accepted. -/
def getMinute (s : List Char) : Option (ℤ × List Char) := do
  let (y, s) ← getYear s
  let s ← skipChar '-' s
  let (m, s) ← getNum true s
  let s ← skipChar '-' s
  let (dd, s) ← getNum true s
  let s ← skipChar 'T' s
  let (h, s) ← getNumBelow false 24 s
  let s ← skipChar ':' s
  let (mi, s) ← getNumBelow true 60 s
  if 1 ≤ m ∧ m ≤ 12 ∧ 1 ≤ dd ∧ dayOfCivil y m dd < monthStartDay (12 * y + m) then
    some (dayOfCivil y m dd * day + h * hour + mi * minute, s)
  else none

/-- The digits of a fraction of a second; digits after the ninth do not count. -/
def getFraction (unit : ℤ) : List Char → ℤ × List Char
  | [] => (0, [])
  | c :: rest =>
    match digit? c with
    | some d => ((getFraction (unit / 10) rest).1 + d * (unit / 10), (getFraction (unit / 10) rest).2)
    | none => (0, c :: rest)

/-- A fraction of a second after `.` or `,`, where there is one. -/
def getFractionOpt (s : List Char) : ℤ × List Char :=
  match s with
  | sep :: c :: rest =>
    if (sep = '.' ∨ sep = ',') ∧ (digit? c).isSome then getFraction second (c :: rest) else (0, s)
  | _ => (0, s)

/-- The zone `Z` or `±hh:mm`, as an offset. -/
def getZone (s : List Char) : Option (ℤ × List Char) :=
  match s with
  | [] => none
  | c :: rest =>
    if c = 'Z' then some (0, rest)
    else do
      let (h, rest) ← getNum true rest
      let rest ← skipChar ':' rest
      let (m, rest) ← getNum true rest
      if h ≤ 24 ∧ m ≤ 60 then
        if c = '+' then some (h * hour + m * minute, rest)
        else if c = '-' then some (-(h * hour + m * minute), rest)
        else none
      else none

/-- `time.Parse(time.RFC3339, s)`. -/
def parseRFC3339 (s : List Char) : Option ℤ := do
  let (t, s) ← getMinute s
  let s ← skipChar ':' s
  let (sec, s) ← getNumBelow true 60 s
  let (nsec, s) := getFractionOpt s
  let (offset, s) ← getZone s
  if s = [] then some (t + sec * second + nsec - offset) else none

/-- `time.Parse("2006-01-02T15:04", s)`. -/
def parseMinuteLayout (s : List Char) : Option ℤ := do
  let (t, s) ← getMinute s
  if s = [] then some t else none

/-- `parseTime`: RFC 3339 first, then the layout without seconds and zone. -/
def parseTime (s : String) : Option ℤ := (parseRFC3339 s.toList).or (parseMinuteLayout s.toList)

/-- A number below a hundred, in two digits. -/
def twoDigits (n : ℕ) : List Char := [Nat.digitChar (n / 10 % 10), Nat.digitChar (n % 10)]

/-- The text the provider sends for an instant, `2006-01-02T15:04`. -/
def timestamp (t : ℤ) : String :=
  let month := monthOfDay (dayNumber t)
  let year := (month / 12).toNat
  String.ofList <|
    twoDigits (year / 100) ++ twoDigits (year % 100) ++ '-' :: (twoDigits (month % 12 + 1).toNat ++ '-' ::
      (twoDigits (dayNumber t - monthStartDay month + 1).toNat ++ 'T' :: (twoDigits (hourOfDay t).toNat ++ ':' ::
        twoDigits (t % hour / minute).toNat)))

theorem digit?_digitChar {n : ℕ} (h : n < 10) : digit? n.digitChar = some (n : ℤ) := by
  have : ∀ n : ℕ, n < 10 → digit? n.digitChar = some (n : ℤ) := by decide
  exact this n h

theorem getNum_twoDigits {n : ℕ} (h : n < 100) (fixed : Bool) (rest : List Char) :
    getNum fixed (twoDigits n ++ rest) = some ((n : ℤ), rest) := by
  have h1 := digit?_digitChar (n := n / 10 % 10) (by omega)
  have h2 := digit?_digitChar (n := n % 10) (by omega)
  have hn : 10 * ((n / 10 % 10 : ℕ) : ℤ) + ((n % 10 : ℕ) : ℤ) = n := by omega
  simp only [getNum, twoDigits, List.cons_append, List.nil_append, h1, h2, Option.bind_eq_bind, Option.bind_some, hn]

theorem getYear_twoDigits {n : ℕ} (h : n < 10000) (rest : List Char) :
    getYear (twoDigits (n / 100) ++ (twoDigits (n % 100) ++ rest)) = some ((n : ℤ), rest) := by
  have hn : 100 * ((n / 100 : ℕ) : ℤ) + ((n % 100 : ℕ) : ℤ) = n := by omega
  simp only [getYear, getNum_twoDigits (show n / 100 < 100 by omega), getNum_twoDigits (show n % 100 < 100 by omega),
    Option.bind_eq_bind, Option.bind_some, hn]

theorem getNumBelow_twoDigits {n : ℕ} {bound : ℤ} (h : n < 100) (hb : n < bound) (fixed : Bool) (rest : List Char) :
    getNumBelow fixed bound (twoDigits n ++ rest) = some ((n : ℤ), rest) := by
  simp only [getNumBelow, getNum_twoDigits h, Option.bind_eq_bind, Option.bind_some, hb, if_true]

/-- **The adapter reads back the time of every text the provider sends**, for the years `0` to `9999`. -/
theorem parseTime_timestamp {t : ℤ} (h0 : 0 ≤ monthOfDay (dayNumber t)) (h1 : monthOfDay (dayNumber t) < 120000)
    (hm : t % minute = 0) : parseTime (timestamp t) = some t := by
  have hle := monthStartDay_le (dayNumber t)
  have hlt := lt_monthStartDay_succ (dayNumber t)
  have h31 := (monthStartDay_succ_bounds (monthOfDay (dayNumber t))).2
  have hh := hourOfDay_nonneg t
  have hh' := hourOfDay_lt t
  generalize hmo : monthOfDay (dayNumber t) = mo at *
  have hy : (mo / 12).toNat < 10000 := by omega
  have hmi : (t % hour / minute).toNat < 60 := by simp only [hour_eq, minute_eq]; omega
  have hd : dayOfCivil (mo / 12).toNat (mo % 12 + 1).toNat (dayNumber t - monthStartDay mo + 1).toNat =
      dayNumber t := by
    rw [dayOfCivil, show 12 * ((mo / 12).toNat : ℤ) + (((mo % 12 + 1).toNat : ℤ) - 1) = mo by omega]
    omega
  have ht : dayNumber t * day + ((hourOfDay t).toNat : ℤ) * hour + ((t % hour / minute).toNat : ℤ) * minute = t := by
    have : ((t % hour / minute).toNat : ℤ) = t % hour / minute := by
      simp only [hour_eq, minute_eq]
      omega
    rw [this, Int.toNat_of_nonneg hh]
    simp only [hourOfDay, dayNumber, hour_eq, minute_eq, day_eq] at hm ⊢
    omega
  have hmin : getMinute (timestamp t).toList = some (t, []) := by
    have hnext : 12 * ((mo / 12).toNat : ℤ) + ((mo % 12 + 1).toNat : ℤ) = mo + 1 := by omega
    simp only [timestamp, hmo, String.toList_ofList, List.append_assoc, getMinute, getYear_twoDigits hy,
      skipChar, if_true, Option.bind_eq_bind, Option.bind_some,
      getNum_twoDigits (show (mo % 12 + 1).toNat < 100 by omega),
      getNum_twoDigits (show (dayNumber t - monthStartDay mo + 1).toNat < 100 by omega),
      getNumBelow_twoDigits (show (hourOfDay t).toNat < 100 by omega) (show ((hourOfDay t).toNat : ℤ) < 24 by omega)]
    have hlast := getNumBelow_twoDigits (show (t % hour / minute).toNat < 100 by omega)
      (show ((t % hour / minute).toNat : ℤ) < 60 by omega) true []
    rw [List.append_nil] at hlast
    simp only [hlast, Option.bind_some, hd, ht, hnext]
    rw [if_pos ⟨by omega, by omega, by omega, hlt⟩]
  simp only [parseTime, parseRFC3339, parseMinuteLayout, hmin, Option.bind_eq_bind, Option.bind_some, skipChar,
    Option.bind_none, Option.none_or, if_true]

example : parseTime "2026-02-29T07:05" = none := by decide +kernel

/-! ### Conditions -/

/-- `mapCondition`: the canonical condition of a WMO code, and whether the code is mapped. -/
def mapCondition (code : ℤ) : Condition × Bool :=
  if code = 0 ∨ code = 1 then (.clear, true)
  else if code = 2 then (.partlyCloudy, true)
  else if code = 3 then (.cloudy, true)
  else if code = 45 ∨ code = 48 then (.fog, true)
  else if code = 51 ∨ code = 53 ∨ code = 55 then (.drizzle, true)
  else if code = 56 ∨ code = 57 ∨ code = 66 ∨ code = 67 then (.sleet, true)
  else if code = 61 ∨ code = 63 ∨ code = 80 ∨ code = 81 then (.rain, true)
  else if code = 65 ∨ code = 82 then (.heavyRain, true)
  else if code = 71 ∨ code = 73 ∨ code = 75 ∨ code = 77 ∨ code = 85 ∨ code = 86 then (.snow, true)
  else if code = 95 ∨ code = 96 ∨ code = 99 then (.thunderstorm, true)
  else (.unknown, false)

/-! ### Rows -/

/-- `hourlyData`: the parallel arrays; an entry may be null. -/
structure HourlyData where
  time : List String
  temperature2m : List (Option ℚ)
  apparentTemperature : List (Option ℚ)
  precipitationProbability : List (Option ℚ)
  precipitation : List (Option ℚ)
  relativeHumidity2m : List (Option ℚ)
  windSpeed10m : List (Option ℚ)
  windDirection10m : List (Option ℚ)
  surfacePressure : List (Option ℚ)
  cloudCover : List (Option ℚ)
  weatherCode : List (Option ℤ)

/-- `forecastResponse`: the fields the adapter reads. -/
structure ForecastResponse where
  hourly : Option HourlyData

/-- `at` and `atInt`: entry `i`, or null past the end. -/
def entry {α : Type*} (arr : List (Option α)) (i : ℕ) : Option α := arr[i]?.join

/-- `pctToRatio`. -/
def pctToRatio (pct : Option ℚ) : Option ℚ := pct.map fun v => v / 100

/-- The weather values of row `i`. -/
def HourlyData.weatherAt (h : HourlyData) (i : ℕ) : Weather where
  temperatureC := entry h.temperature2m i
  feelsLikeTemperatureC := entry h.apparentTemperature i
  precipitationProbability := pctToRatio (entry h.precipitationProbability i)
  precipitationAmountMM := entry h.precipitation i
  humidityPct := entry h.relativeHumidity2m i
  windSpeedMS := entry h.windSpeed10m i
  windDirectionDeg := entry h.windDirection10m i
  pressureHPa := entry h.surfacePressure i
  cloudCoverPct := entry h.cloudCover i

/-- `buildSnapshot`: row `i`, whose timestamp is `text`. -/
def buildSnapshot (h : HourlyData) (issuedAt : ℤ) (text : String) (i : ℕ) : Except RowReason BuiltRow :=
  match parseTime text with
  | none => .error (.invalidTargetTime i text)
  | some targetTime =>
    let code := entry h.weatherCode i
    .ok
      { snapshot :=
          { issuedAt := issuedAt
            targetTime := targetTime
            forecastHorizonMinutes := horizonMinutes issuedAt targetTime
            weather := h.weatherAt i
            condition := code.map fun c => (c, (mapCondition c).1) }
        unmapped := code.filter fun c => !(mapCondition c).2 }

/-- The rows of a nonempty answer. -/
def HourlyData.rows (h : HourlyData) (issuedAt : ℤ) : List (Except RowReason BuiltRow) :=
  h.time.zipIdx.map fun p => buildSnapshot h issuedAt p.1 p.2

/-- `decompose`; the first argument is the payload as `json.Unmarshal` reads it. -/
def decompose (resp : Except String ForecastResponse) (issuedAt : ℤ) (result : ForecastResult) : ForecastResult :=
  match resp with
  | .error err => result.drift (.notJSON err)
  | .ok resp =>
    match resp.hourly with
    | none => result.drift .missingHourlyTime
    | some h => if h.time = [] then result.drift .missingHourlyTime else decomposeRows (h.rows issuedAt) result

/-- `FetchForecast`, on the body that the transport returned and its classified failure. -/
def fetchForecast (unmarshal : List UInt8 → Except String ForecastResponse) (body : List UInt8)
    (failure : Option ProviderError) (issuedAt : ℤ) : ForecastResult :=
  match failure with
  | some e => .ofError body e
  | none => decompose (unmarshal body) issuedAt (.ofPayload body)

/-- Whatever the provider answers, the adapter reports no model run time, and its snapshots are of
the issuance it was given. -/
theorem fetchForecast_issuedAt (unmarshal : List UInt8 → Except String ForecastResponse) (body : List UInt8)
    (failure : Option ProviderError) (issuedAt : ℤ) :
    (fetchForecast unmarshal body failure issuedAt).modelRunTime = none ∧
      ∀ snap ∈ (fetchForecast unmarshal body failure issuedAt).snapshots, snap.issuedAt = issuedAt := by
  cases failure with
  | some e => exact ⟨rfl, by simp [fetchForecast, ForecastResult.ofError, ForecastResult.ofPayload]⟩
  | none =>
    simp only [fetchForecast, decompose]
    split
    · exact ⟨rfl, by simp [ForecastResult.drift, ForecastResult.ofPayload]⟩
    · split
      · exact ⟨rfl, by simp [ForecastResult.drift, ForecastResult.ofPayload]⟩
      · rename_i h _
        split_ifs
        · exact ⟨rfl, by simp [ForecastResult.drift, ForecastResult.ofPayload]⟩
        · obtain ⟨h1, -, -, h4⟩ := decomposeRows_eq (h.rows issuedAt) body
          refine ⟨h4, fun snap hsnap => ?_⟩
          rw [h1, List.mem_filterMap] at hsnap
          obtain ⟨row, hrow, hacc⟩ := hsnap
          obtain ⟨p, -, rfl⟩ := List.mem_map.mp hrow
          simp only [buildSnapshot] at hacc
          split at hacc
          · simp [acceptRow] at hacc
          · simp only [acceptRow, Option.ite_none_right_eq_some, Option.some.injEq] at hacc
            rw [← hacc.2]

/-- The days the adapter asks for, `forecastDays`. -/
def forecastDays : ℕ := 7

/-- `Capabilities.MaxForecastHorizon`. -/
def maxForecastHorizon : ℤ := forecastDays * 24 * hour

end ForecastIQ.Collection.OpenMeteo
