import ForecastIQ.Collection.Observe
import ForecastIQ.Collection.OpenMeteo

/-!
# The Open-Meteo observation source

`adapters/observationsources/openmeteo`: the answer is a record of parallel hourly arrays,
as for the forecasts, but a row is treated differently. A value outside its physical range
does not reject the row: it is kept, and flagged `suspect`. A row is rejected only for its
timestamp, when that does not parse or is after the window that was asked for.

`mem_fetched` says what a reading is that is returned.
-/

namespace ForecastIQ.Collection

open ForecastIQ.Foundations
open ForecastIQ.Analysis (ObservationType QualityFlag)

/-- `RangeReasons`: the values outside their physical ranges. -/
def Reading.rangeReasons (r : Reading) : List String :=
  rangeReason (-90) 60 (fun _ => "temperature_c out of range") r.temperatureC ++
  rangeReason 0 100 (fun _ => "humidity_pct out of range") r.humidityPct ++
  rangeReason 0 120 (fun _ => "wind_speed_ms out of range") r.windSpeedMS ++
  rangeReason 0 360 (fun _ => "wind_direction_deg out of range") r.windDirectionDeg ++
  rangeReason 870 1084 (fun _ => "pressure_hpa out of range") r.pressureHPa ++
  rangeReason 0 500 (fun _ => "precipitation_mm out of range") r.precipitationMM

theorem rangeReason_eq_nil_iff {lo hi : ℚ} {reason : ℚ → String} {v : Option ℚ} :
    rangeReason lo hi reason v = [] ↔ ∀ x ∈ v, lo ≤ x ∧ x ≤ hi := by
  cases v with
  | none => simp [rangeReason, outOfRange]
  | some x => simp [rangeReason, outOfRange]

/-- Rounding to the scale of a column does not leave a range whose bounds are of that scale. -/
theorem rangeReason_roundScale {lo hi : ℚ} {reason : ℚ → String} {v : Option ℚ} {scale : ℕ} {a b : ℤ}
    (ha : (a : ℚ) = lo * 10 ^ scale) (hb : (b : ℚ) = hi * 10 ^ scale) (h : rangeReason lo hi reason v = []) :
    rangeReason lo hi reason (v.map (roundScale scale)) = [] := by
  rw [rangeReason_eq_nil_iff] at h ⊢
  intro y hy
  obtain ⟨x, hx, rfl⟩ := Option.mem_map.mp hy
  exact ⟨le_roundScale ha (h x hx).1, roundScale_le hb (h x hx).2⟩

/-- Values within their ranges are stored as values within their ranges. -/
theorem Reading.rangeReasons_stored {r : Reading} (h : r.rangeReasons = []) : r.stored.rangeReasons = [] := by
  simp only [rangeReasons, List.append_eq_nil_iff] at h ⊢
  obtain ⟨⟨⟨⟨⟨h1, h2⟩, h3⟩, h4⟩, h5⟩, h6⟩ := h
  exact ⟨⟨⟨⟨⟨rangeReason_roundScale (a := -9000) (b := 6000) (by norm_num) (by norm_num) h1,
    rangeReason_roundScale (a := 0) (b := 10000) (by norm_num) (by norm_num) h2⟩,
    rangeReason_roundScale (a := 0) (b := 12000) (by norm_num) (by norm_num) h3⟩,
    rangeReason_roundScale (a := 0) (b := 3600) (by norm_num) (by norm_num) h4⟩,
    rangeReason_roundScale (a := 87000) (b := 108400) (by norm_num) (by norm_num) h5⟩,
    rangeReason_roundScale (a := 0) (b := 50000) (by norm_num) (by norm_num) h6⟩

namespace Historical

/-- `Source`. -/
def source : String := "openmeteo_historical"

/-- The zero `time.Time`, the first instant of year `1`. -/
def zeroTime : ℤ := -62135596800 * second

/-- `hourlyData`: the parallel arrays; an entry may be null. -/
structure HourlyData where
  time : List String
  temperature2m : List (Option ℚ)
  relativeHumidity2m : List (Option ℚ)
  windSpeed10m : List (Option ℚ)
  windDirection10m : List (Option ℚ)
  surfacePressure : List (Option ℚ)
  precipitation : List (Option ℚ)
  weatherCode : List (Option ℤ)

/-- `historicalResponse`: the field the adapter reads. -/
structure HistoricalResponse where
  hourly : Option HourlyData

/-- What the adapter reports about rows and payloads. -/
inductive Reason where
  /-- The payload is not valid JSON. -/
  | notJSON (err : String)
  /-- The field `hourly.time` is missing or empty. -/
  | missingHourlyTime
  /-- The timestamp of a row does not parse. -/
  | invalidObservedAt (row : ℕ) (text : String)
  /-- The row is after the window. -/
  | afterWindowEnd (row : ℕ)
  /-- The row is kept, with values outside their ranges. -/
  | suspect (row : ℕ) (reasons : List String)
  deriving DecidableEq, Repr

/-- The text of a reason; `quote` is `strconv.Quote`. -/
def Reason.text (quote : String → String) : Reason → String
  | .notJSON err => "payload is not valid JSON: " ++ err
  | .missingHourlyTime => "required field hourly.time is missing or empty"
  | .invalidObservedAt row text => "row " ++ toString row ++ ": invalid observed_at " ++ quote text
  | .afterWindowEnd row => "row " ++ toString row ++ ": observed_at after window end (future)"
  | .suspect row reasons => "row " ++ toString row ++ " suspect: " ++ ", ".intercalate reasons

/-- `ObservationResult`: what the adapter made of one call. -/
structure ObservationResult where
  observations : List Reading
  recordsReceived : ℕ
  suspectCount : ℕ
  invalidCount : ℕ
  invalidReasons : List Reason
  outcome : Outcome
  errorCode : Option ErrorCode
  deriving DecidableEq, Repr

/-- The result before the payload is read. Its outcome is always written before it is returned. -/
def ObservationResult.init : ObservationResult := ⟨[], 0, 0, 0, [], .failed, none⟩

/-- A payload that is rejected as a whole. -/
def ObservationResult.drift (result : ObservationResult) (reason : Reason) : ObservationResult :=
  { result with
    outcome := .failed
    errorCode := some .schemaDrift
    invalidReasons := result.invalidReasons ++ [reason] }

/-- `mapCondition`. This adapter has its own table, with the entries of the forecast adapter's. -/
def mapCondition (code : ℤ) : Condition := (OpenMeteo.mapCondition code).1

/-- `buildObservation`: row `i`, whose timestamp is `text`. -/
def buildObservation (defaultType : ObservationType) (h : HourlyData) (windowEnd : ℤ) (text : String) (i : ℕ) :
    Except Reason Reading :=
  match OpenMeteo.parseTime text with
  | none => .error (.invalidObservedAt i text)
  | some observedAt =>
    if windowEnd ≠ zeroTime ∧ windowEnd < observedAt then .error (.afterWindowEnd i)
    else
      .ok
        { observationType := defaultType
          observedAt := observedAt
          temperatureC := OpenMeteo.entry h.temperature2m i
          humidityPct := OpenMeteo.entry h.relativeHumidity2m i
          windSpeedMS := OpenMeteo.entry h.windSpeed10m i
          windDirectionDeg := OpenMeteo.entry h.windDirection10m i
          pressureHPa := OpenMeteo.entry h.surfacePressure i
          precipitationMM := OpenMeteo.entry h.precipitation i
          condition := (OpenMeteo.entry h.weatherCode i).map fun code => (code, mapCondition code)
          qualityFlag := .valid }

/-- The reading as it is returned: suspect when a value is outside its range. -/
def flagged (r : Reading) : Reading := if r.rangeReasons = [] then r else { r with qualityFlag := .suspect }

/-- The body of the loop of `decompose`, on row `i`. -/
def ObservationResult.addRow (result : ObservationResult) (row : Except Reason Reading × ℕ) : ObservationResult :=
  match row.1 with
  | .error reason =>
    { result with invalidCount := result.invalidCount + 1, invalidReasons := result.invalidReasons ++ [reason] }
  | .ok r =>
    if r.rangeReasons = [] then { result with observations := result.observations ++ [r] }
    else
      { result with
        suspectCount := result.suspectCount + 1
        invalidReasons := result.invalidReasons ++ [.suspect row.2 r.rangeReasons]
        observations := result.observations ++ [{ r with qualityFlag := .suspect }] }

/-- The classification at the end of `decompose`; suspect rows do not count against the payload. -/
def ObservationResult.classified (result : ObservationResult) (n : ℕ) : ObservationResult :=
  if result.observations = [] then { result with outcome := .failed, errorCode := some .schemaDrift }
  else if n < result.invalidCount * 2 then { result with outcome := .failed, errorCode := some .schemaDrift }
  else { result with outcome := .success }

/-- The rows of a nonempty answer. -/
def HourlyData.rows (defaultType : ObservationType) (h : HourlyData) (windowEnd : ℤ) : List (Except Reason Reading) :=
  h.time.zipIdx.map fun p => buildObservation defaultType h windowEnd p.1 p.2

/-- The part of `decompose` after the payload has given its rows. -/
def decomposeRows (rows : List (Except Reason Reading)) (result : ObservationResult) : ObservationResult :=
  (rows.zipIdx.foldl ObservationResult.addRow { result with recordsReceived := rows.length }).classified rows.length

/-- `decompose`; the payload is as `json.Unmarshal` reads it. -/
def decompose (defaultType : ObservationType) (resp : Except String HistoricalResponse) (windowEnd : ℤ)
    (result : ObservationResult) : ObservationResult :=
  match resp with
  | .error err => result.drift (.notJSON err)
  | .ok resp =>
    match resp.hourly with
    | none => result.drift .missingHourlyTime
    | some h =>
      if h.time = [] then result.drift .missingHourlyTime else decomposeRows (h.rows defaultType windowEnd) result

/-- `FetchObservations`, on what the transport returned: a classified failure, or a body. -/
def fetchObservations (defaultType : ObservationType) (unmarshal : List UInt8 → Except String HistoricalResponse)
    (windowEnd : ℤ) (answer : Except ProviderError (List UInt8)) : ObservationResult :=
  match answer with
  | .error e => { ObservationResult.init with outcome := e.outcome, errorCode := some e.code }
  | .ok body => decompose defaultType (unmarshal body) windowEnd .init

/-- What `Observe` goes on with: the rows of a success. -/
def ObservationResult.fetched (result : ObservationResult) : Option (List Reading) :=
  if result.outcome = .success then some result.observations else none

/-! ### What the loop computes -/

/-- The reading of a row that was built. -/
def acceptRow : Except Reason Reading → Option Reading
  | .error _ => none
  | .ok r => some (flagged r)

theorem ObservationResult.addRow_eq (result : ObservationResult) (row : Except Reason Reading × ℕ) :
    (result.addRow row).observations = result.observations ++ (acceptRow row.1).toList ∧
      (result.addRow row).invalidCount + (acceptRow row.1).toList.length = result.invalidCount + 1 := by
  obtain ⟨row, i⟩ := row
  cases row with
  | error reason => simp [addRow, acceptRow]
  | ok r =>
    simp only [addRow, acceptRow, flagged]
    split_ifs <;> simp

theorem foldl_addRow (rows : List (Except Reason Reading)) (k : ℕ) (result : ObservationResult) :
    ((rows.zipIdx k).foldl ObservationResult.addRow result).observations =
        result.observations ++ rows.filterMap acceptRow ∧
      ((rows.zipIdx k).foldl ObservationResult.addRow result).invalidCount + (rows.filterMap acceptRow).length =
        result.invalidCount + rows.length :=
  foldl_accept (f := ObservationResult.observations) (g := ObservationResult.invalidCount)
    (fun r row => (r.addRow_eq row).1) (fun r row => (r.addRow_eq row).2) rows k result

theorem observations_decomposeRows (rows : List (Except Reason Reading)) :
    (decomposeRows rows .init).observations = rows.filterMap acceptRow := by
  have hc : ∀ (r : ObservationResult) n, (r.classified n).observations = r.observations := by
    intro r n
    unfold ObservationResult.classified
    split_ifs <;> rfl
  rw [decomposeRows, hc, (foldl_addRow rows 0 _).1]
  rfl

/-- Flagging a reading changes its flag only. -/
theorem flagged_eq {r : Reading} (hv : r.qualityFlag = .valid) :
    flagged r = { r with qualityFlag := if r.rangeReasons = [] then .valid else .suspect } := by
  rw [flagged]
  split_ifs
  · rw [← hv]
  · rfl

/-- A returned reading is flagged by its ranges and is not after the window. -/
theorem mem_fetched {defaultType : ObservationType} {unmarshal : List UInt8 → Except String HistoricalResponse}
    {windowEnd : ℤ} {answer : Except ProviderError (List UInt8)} {readings : List Reading}
    (h : (fetchObservations defaultType unmarshal windowEnd answer).fetched = some readings) {r : Reading}
    (hr : r ∈ readings) :
    r.qualityFlag = (if r.rangeReasons = [] then .valid else .suspect) ∧
      (windowEnd = zeroTime ∨ r.observedAt ≤ windowEnd) ∧ r.observationType = defaultType := by
  simp only [ObservationResult.fetched, Option.ite_none_right_eq_some, Option.some.injEq] at h
  obtain ⟨hout, rfl⟩ := h
  have hrow : ∃ h : HourlyData, ∃ text i, acceptRow (buildObservation defaultType h windowEnd text i) = some r := by
    cases answer with
    | error e => cases hr
    | ok body =>
      simp only [fetchObservations, decompose] at hr
      split at hr
      · cases hr
      · split at hr
        · cases hr
        · rename_i h _
          split_ifs at hr
          · cases hr
          · rw [observations_decomposeRows, List.mem_filterMap] at hr
            obtain ⟨row, hrow, hacc⟩ := hr
            obtain ⟨p, -, rfl⟩ := List.mem_map.mp hrow
            exact ⟨h, _, _, hacc⟩
  obtain ⟨h, text, i, hacc⟩ := hrow
  simp only [buildObservation] at hacc
  split at hacc
  · cases hacc
  · split_ifs at hacc with hend
    · cases hacc
    · rw [acceptRow, Option.some.injEq] at hacc
      rw [not_and_or, not_not, not_lt] at hend
      rw [← hacc, flagged_eq rfl]
      exact ⟨rfl, hend, rfl⟩

end Historical

end ForecastIQ.Collection
