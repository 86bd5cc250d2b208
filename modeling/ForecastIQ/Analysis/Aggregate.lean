import ForecastIQ.Analysis.Eval
import ForecastIQ.Foundations.Calendar
import Mathlib.Data.Nat.SuccPred

/-!
# Aggregation

`internal/analysis/aggregate.go`: the metric rows of one cell and period, computed
from the matched pairs, the snapshot counts and the slot counts. `computeRows` reads
every pair once, into eight accumulators, and then writes 27 rows in a fixed order.

Identifiers are natural numbers in the order of their bytes; a row's own identifier
is given to it when it is stored, so rows here have none.
-/

namespace ForecastIQ.Analysis

open ForecastIQ.Foundations Eval

/-- The evaluated variables; `all` is for provider-level metrics. -/
inductive EvalVariable where
  | temperature
  | windSpeed
  | humidity
  | pressure
  | precipitation
  | all
  deriving DecidableEq, Repr

/-- The metric types. -/
inductive MetricType where
  | mae
  | rmse
  | bias
  | rainMAEAll
  | rainMAEWet
  | recall
  | precision
  | f1
  | far
  | threatScore
  | occurrenceAgreement
  | brier
  | coverage
  | reliability
  deriving DecidableEq, Repr

/-- `Cell`: provider, location and horizon. -/
structure Cell where
  providerID : ℕ
  locationID : ℕ
  horizonMinutes : ℤ
  deriving DecidableEq, Repr

/-- The kinds of evaluation period. -/
inductive PeriodKind where
  | daily
  | weekly
  | monthly
  deriving DecidableEq, Repr

/-- `Period`: the half-open window from `start` to `stop`. -/
structure Period where
  kind : PeriodKind
  start : ℤ
  stop : ℤ
  deriving DecidableEq, Repr

/-- `PairRecord`: the forecast and observed values of one matched pair. -/
structure PairRecord (K : Type*) where
  observationType : ObservationType
  qualityFlag : QualityFlag
  fTemperature : Option K
  fWindSpeed : Option K
  fHumidity : Option K
  fPressure : Option K
  fPrecipMM : Option K
  fPrecipProb : Option K
  oTemperature : Option K
  oWindSpeed : Option K
  oHumidity : Option K
  oPressure : Option K
  oPrecipMM : Option K
  deriving DecidableEq, Repr

/-- `AccuracyMetric`: one metric row. -/
structure AccuracyMetric (K : Type*) where
  providerID : ℕ
  locationID : ℕ
  horizonMinutes : ℤ
  var : EvalVariable
  metricType : MetricType
  value : Option K
  ciLower : Option K
  ciUpper : Option K
  sampleCount : ℕ
  methodologyVersion : String
  periodStart : ℤ
  periodEnd : ℤ
  deriving DecidableEq, Repr

/-- `MethodologyVersion`. -/
def methodologyVersion : String := "2026.1"

/-- `VariableCounts`: the delivered snapshots with a value, by variable. -/
structure VariableCounts where
  temperature : ℕ
  windSpeed : ℕ
  humidity : ℕ
  pressure : ℕ
  precipitation : ℕ
  deriving DecidableEq, Repr

/-- The five counts. -/
def VariableCounts.toList (c : VariableCounts) : List ℕ :=
  [c.temperature, c.windSpeed, c.humidity, c.pressure, c.precipitation]

variable {K : Type*} [Field K] [LinearOrder K]

/-! ### Reading the pairs -/

/-- The accumulators of `computeRows`. -/
structure Accumulators (K : Type*) where
  temp : Continuous K
  wind : Continuous K
  humidity : Continuous K
  pressure : Continuous K
  rainAll : Continuous K
  rainWet : Continuous K
  occ : Confusion K
  brier : Brier K
  occN : ℕ

/-- The accumulators before any pair. -/
def Accumulators.zero : Accumulators K :=
  ⟨.zero, .zero, .zero, .zero, .zero, .zero, .zero, .zero, 0⟩

/-- A pair's contribution to a continuous variable, when it is eligible for it. -/
def addEligible (c : Continuous K) (f o : Option K) (q : QualityFlag) (w : K) : Continuous K :=
  if eligible f o q then c.add (deref f) (deref o) w else c

/-- The observed side of the occurrence metrics is known: the forecast side may be absent. -/
def PairRecord.occurrenceKnown (p : PairRecord K) : Bool :=
  p.oPrecipMM.isSome && decide (p.qualityFlag ≠ .suspect)

/-- The body of the loop of `computeRows` over the pairs. -/
def Accumulators.addPair (a : Accumulators K) (p : PairRecord K) : Accumulators K :=
  let w : K := provenanceWeight p.observationType
  { temp := addEligible a.temp p.fTemperature p.oTemperature p.qualityFlag w
    wind := addEligible a.wind p.fWindSpeed p.oWindSpeed p.qualityFlag w
    humidity := addEligible a.humidity p.fHumidity p.oHumidity p.qualityFlag w
    pressure := addEligible a.pressure p.fPressure p.oPressure p.qualityFlag w
    rainAll := addEligible a.rainAll p.fPrecipMM p.oPrecipMM p.qualityFlag w
    -- the wet accumulator sees the pair only inside the branch of the first one
    rainWet :=
      if eligible p.fPrecipMM p.oPrecipMM p.qualityFlag ∧ observedRainThresholdMM ≤ deref p.oPrecipMM then
        a.rainWet.add (deref p.fPrecipMM) (deref p.oPrecipMM) w
      else a.rainWet
    occ :=
      if p.occurrenceKnown then
        a.occ.add (forecastRain p.fPrecipProb p.fPrecipMM) (observedRain p.oPrecipMM) w
      else a.occ
    brier :=
      if p.occurrenceKnown ∧ p.fPrecipProb.isSome then
        a.brier.add (deref p.fPrecipProb) (observedRain p.oPrecipMM) w
      else a.brier
    occN := if p.occurrenceKnown then a.occN + 1 else a.occN }

/-- The accumulators after all pairs. -/
def accumulate (pairs : List (PairRecord K)) : Accumulators K :=
  pairs.foldl Accumulators.addPair Accumulators.zero

/-! ### Writing the rows -/

/-- `metric`: one row; with no value it has no interval and sample count `0`. -/
def metric (cell : Cell) (period : Period) (var : EvalVariable) (metricType : MetricType)
    (value ciLo ciHi : Option K) (n : ℕ) : AccuracyMetric K :=
  { providerID := cell.providerID
    locationID := cell.locationID
    horizonMinutes := cell.horizonMinutes
    var := var
    metricType := metricType
    value := value
    ciLower := if value.isNone then none else ciLo
    ciUpper := if value.isNone then none else ciHi
    sampleCount := if value.isNone then 0 else n
    methodologyVersion := methodologyVersion
    periodStart := period.start
    periodEnd := period.stop }

/-- `continuousRows`: the three error rows of a continuous variable. -/
def continuousRows (sqrt : K → K) (cell : Cell) (period : Period) (var : EvalVariable) (c : Continuous K) :
    List (AccuracyMetric K) :=
  [metric cell period var .mae c.mae (c.maeCI sqrt).1 (c.maeCI sqrt).2 c.n,
   metric cell period var .rmse (c.rmse sqrt) (c.rmseCI sqrt).1 (c.rmseCI sqrt).2 c.n,
   metric cell period var .bias c.bias (c.biasCI sqrt).1 (c.biasCI sqrt).2 c.n]

/-- `ratioRow`: an occurrence row with a Wilson interval; a null value is a null row. -/
def ratioRow (sqrt : K → K) (cell : Cell) (period : Period) (metricType : MetricType) (value : Option K)
    (denom : K) (n : ℕ) : AccuracyMetric K :=
  match value with
  | none => metric cell period .precipitation metricType none none none 0
  | some v =>
    metric cell period .precipitation metricType (some v) (some (wilson sqrt v denom).1)
      (some (wilson sqrt v denom).2) n

/-- The clamped ratio of `ratelessRow`; null without a denominator. -/
def rate (numerator denom : ℕ) : Option K :=
  if denom = 0 then none else some (if 1 < (numerator : K) / denom then 1 else (numerator : K) / denom)

/-- `ratelessRow`: a coverage or reliability row, whose sample count is its denominator. -/
def ratelessRow (cell : Cell) (period : Period) (var : EvalVariable) (metricType : MetricType)
    (numerator denom : ℕ) : AccuracyMetric K :=
  metric cell period var metricType (rate numerator denom) none none denom

/-- The rows of `computeRows`, once the pairs have been read. -/
def accumulatedRows (sqrt : K → K) (cell : Cell) (period : Period) (a : Accumulators K)
    (counts : VariableCounts) (scheduled success : ℕ) : List (AccuracyMetric K) :=
  continuousRows sqrt cell period .temperature a.temp ++
  continuousRows sqrt cell period .windSpeed a.wind ++
  continuousRows sqrt cell period .humidity a.humidity ++
  continuousRows sqrt cell period .pressure a.pressure ++
  [metric cell period .precipitation .rainMAEAll a.rainAll.mae (a.rainAll.maeCI sqrt).1 (a.rainAll.maeCI sqrt).2
      a.rainAll.n,
   metric cell period .precipitation .rainMAEWet a.rainWet.mae (a.rainWet.maeCI sqrt).1 (a.rainWet.maeCI sqrt).2
      a.rainWet.n,
   ratioRow sqrt cell period .recall a.occ.recall (a.occ.tp + a.occ.fn) a.occN,
   ratioRow sqrt cell period .precision a.occ.precision (a.occ.tp + a.occ.fp) a.occN,
   ratioRow sqrt cell period .f1 a.occ.f1 (2 * a.occ.tp + a.occ.fp + a.occ.fn) a.occN,
   ratioRow sqrt cell period .far a.occ.falseAlarmRate (a.occ.fp + a.occ.tn) a.occN,
   ratioRow sqrt cell period .threatScore a.occ.threatScore (a.occ.tp + a.occ.fp + a.occ.fn) a.occN,
   ratioRow sqrt cell period .occurrenceAgreement a.occ.occurrenceAgreement a.occ.total a.occN,
   metric cell period .precipitation .brier a.brier.score (a.brier.scoreCI sqrt).1 (a.brier.scoreCI sqrt).2 a.occN,
   ratelessRow cell period .temperature .coverage counts.temperature scheduled,
   ratelessRow cell period .windSpeed .coverage counts.windSpeed scheduled,
   ratelessRow cell period .humidity .coverage counts.humidity scheduled,
   ratelessRow cell period .pressure .coverage counts.pressure scheduled,
   ratelessRow cell period .precipitation .coverage counts.precipitation scheduled,
   ratelessRow cell period .all .reliability success scheduled]

/-- `computeRows`: every metric row of one cell and period. -/
def computeRows (sqrt : K → K) (cell : Cell) (period : Period) (pairs : List (PairRecord K))
    (counts : VariableCounts) (scheduled success : ℕ) : List (AccuracyMetric K) :=
  accumulatedRows sqrt cell period (accumulate pairs) counts scheduled success

/-- `standardPeriods`: the current UTC day, Monday-based week and calendar month. -/
def standardPeriods (now : ℤ) : List Period :=
  let d := dayNumber now
  [⟨.daily, d * day, (d + 1) * day⟩,
   ⟨.weekly, mondayOf d * day, (mondayOf d + 7) * day⟩,
   ⟨.monthly, monthStartDay (monthOfDay d) * day, monthStartDay (monthOfDay d + 1) * day⟩]

/-- An instant lies in each of its periods. -/
theorem mem_standardPeriods {t : ℤ} {p : Period} (h : p ∈ standardPeriods t) : p.start ≤ t ∧ t < p.stop := by
  have h1 := mondayOf_le (dayNumber t)
  have h2 := lt_mondayOf_add (dayNumber t)
  have h3 := monthStartDay_le (dayNumber t)
  have h4 := lt_monthStartDay_succ (dayNumber t)
  have h5 : dayNumber t * day ≤ t ∧ t < (dayNumber t + 1) * day := by
    simp only [dayNumber, day_eq]
    omega
  simp only [day_eq] at h5
  simp only [standardPeriods, List.mem_cons, List.not_mem_nil, or_false] at h
  rcases h with rfl | rfl | rfl
  all_goals
    simp only [day_eq]
    omega

/-- The only period of one day is that of the current day. -/
theorem dayNumber_of_mem_standardPeriods {now d : ℤ} {p : Period} (h : p ∈ standardPeriods now)
    (hstart : p.start = d * day) (hstop : p.stop = (d + 1) * day) : d = dayNumber now := by
  have hmonth := (monthStartDay_succ_bounds (monthOfDay (dayNumber now))).1
  simp only [standardPeriods, List.mem_cons, List.not_mem_nil, or_false] at h
  rcases h with rfl | rfl | rfl
  all_goals
    simp only [day_eq] at hstart hstop
    omega

/-! ### What the rows hold -/

/-- The row belongs to the cell and period. -/
def AccuracyMetric.IsOf (cell : Cell) (period : Period) (m : AccuracyMetric K) : Prop :=
  (⟨m.providerID, m.locationID, m.horizonMinutes⟩ : Cell) = cell ∧ m.periodStart = period.start ∧
    m.periodEnd = period.stop

omit [Field K] [LinearOrder K] in
@[simp] theorem metric_isOf (cell : Cell) (period : Period) (var : EvalVariable) (t : MetricType)
    (value lo hi : Option K) (n : ℕ) : (metric cell period var t value lo hi n).IsOf cell period := ⟨rfl, rfl, rfl⟩

@[simp] theorem ratioRow_isOf (sqrt : K → K) (cell : Cell) (period : Period) (t : MetricType) (value : Option K)
    (denom : K) (n : ℕ) : (ratioRow sqrt cell period t value denom n).IsOf cell period := by
  cases value <;> exact metric_isOf ..

@[simp] theorem ratioRow_var (sqrt : K → K) (cell : Cell) (period : Period) (t : MetricType) (value : Option K)
    (denom : K) (n : ℕ) : (ratioRow sqrt cell period t value denom n).var = .precipitation := by
  cases value <;> rfl

@[simp] theorem ratioRow_metricType (sqrt : K → K) (cell : Cell) (period : Period) (t : MetricType)
    (value : Option K) (denom : K) (n : ℕ) : (ratioRow sqrt cell period t value denom n).metricType = t := by
  cases value <;> rfl

@[simp] theorem ratioRow_value (sqrt : K → K) (cell : Cell) (period : Period) (t : MetricType) (value : Option K)
    (denom : K) (n : ℕ) : (ratioRow sqrt cell period t value denom n).value = value := by
  cases value <;> rfl

/-- Every row belongs to the cell and period it was computed for. -/
theorem computeRows_isOf (sqrt : K → K) (cell : Cell) (period : Period) (pairs : List (PairRecord K))
    (counts : VariableCounts) (scheduled success : ℕ) :
    ∀ m ∈ computeRows sqrt cell period pairs counts scheduled success, m.IsOf cell period := by
  simp [computeRows, accumulatedRows, continuousRows, ratelessRow]

/-- The contribution of a pair to a continuous variable, if any. -/
def contribution (f o : Option K) (q : QualityFlag) (w : K) : Option (K × K × K) :=
  if eligible f o q then some (deref f, deref o, w) else none

/-- The contribution of a pair to the temperature metrics. -/
def PairRecord.temperature (p : PairRecord K) : Option (K × K × K) :=
  contribution p.fTemperature p.oTemperature p.qualityFlag (provenanceWeight p.observationType)

/-- The contribution of a pair to the occurrence metrics. -/
def PairRecord.occurrence (p : PairRecord K) : Option (Bool × Bool × K) :=
  if p.occurrenceKnown then
    some (forecastRain p.fPrecipProb p.fPrecipMM, observedRain p.oPrecipMM, provenanceWeight p.observationType)
  else none

/-- An accumulator that takes from each pair its part, if there is one, is the fold over the parts. -/
theorem accumulate_part {γ β : Type*} (get : Accumulators K → γ) (add : γ → β → γ) (part : PairRecord K → Option β)
    (h : ∀ a p, get (a.addPair p) = (part p).elim (get a) (add (get a))) (pairs : List (PairRecord K)) :
    get (accumulate pairs) = (pairs.filterMap part).foldl add (get Accumulators.zero) := by
  rw [List.foldl_filterMap, accumulate]
  refine (List.foldl_hom get fun a p => ?_).symm
  rw [h]
  cases part p <;> rfl

theorem addEligible_eq (c : Continuous K) (f o : Option K) (q : QualityFlag) (w : K) :
    addEligible c f o q w = (contribution f o q w).elim c fun p => c.add p.1 p.2.1 p.2.2 := by
  simp only [addEligible, contribution]
  split_ifs <;> rfl

/-- The accumulator of a continuous variable, whose part of a pair is `part`. -/
theorem accumulate_continuous (get : Accumulators K → Continuous K) {part : PairRecord K → Option (K × K × K)}
    (hzero : get Accumulators.zero = Continuous.zero)
    (h : ∀ a p, get (a.addPair p) = (part p).elim (get a) fun q => (get a).add q.1 q.2.1 q.2.2)
    (pairs : List (PairRecord K)) : get (accumulate pairs) = Continuous.ofList (pairs.filterMap part) := by
  rw [accumulate_part get (fun c q => c.add q.1 q.2.1 q.2.2) part h, hzero, Continuous.ofList]

theorem accumulate_temp (pairs : List (PairRecord K)) :
    (accumulate pairs).temp = Continuous.ofList (pairs.filterMap PairRecord.temperature) :=
  accumulate_continuous Accumulators.temp rfl (fun a p => addEligible_eq a.temp p.fTemperature p.oTemperature _ _) pairs

theorem accumulate_occ (pairs : List (PairRecord K)) :
    (accumulate pairs).occ = Confusion.ofList (pairs.filterMap PairRecord.occurrence) := by
  refine accumulate_part Accumulators.occ _ PairRecord.occurrence (fun a p => ?_) pairs
  simp only [PairRecord.occurrence, Accumulators.addPair]
  split_ifs <;> rfl

theorem accumulate_occN_eq (pairs : List (PairRecord K)) :
    (accumulate pairs).occN = (pairs.filterMap PairRecord.occurrence).length := by
  have hfold := accumulate_part Accumulators.occN (fun n _ => n + 1) PairRecord.occurrence (fun a p => ?_) pairs
  · rw [hfold, List.foldl_const]
    exact (Nat.succ_iterate _ _).trans (Nat.zero_add _)
  · simp only [PairRecord.occurrence, Accumulators.addPair]
    split_ifs <;> rfl

theorem accumulate_occN (pairs : List (PairRecord K)) :
    (accumulate pairs).occN = pairs.countP PairRecord.occurrenceKnown := by
  rw [accumulate_occN_eq, List.length_filterMap_eq_countP]
  refine List.countP_congr fun p _ => ?_
  simp only [PairRecord.occurrence]
  split_ifs with h <;> simp [h]

/-- The count of a continuous accumulator is the number of pairs with a part in it. -/
theorem ofList_n_eq_countP (part : PairRecord K → Option (K × K × K)) (pairs : List (PairRecord K)) :
    (Continuous.ofList (pairs.filterMap part)).n = pairs.countP fun p => (part p).isSome := by
  rw [Continuous.ofList_n, List.length_filterMap_eq_countP]

end ForecastIQ.Analysis
