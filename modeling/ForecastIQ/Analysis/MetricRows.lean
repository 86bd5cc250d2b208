import ForecastIQ.Analysis.DryPeriod
import ForecastIQ.Analysis.Intervals
import ForecastIQ.Analysis.Occurrence

/-!
# The rows of a cell

What `computeRows` writes, for any pairs. Each of its eight accumulators is the fold over
the parts that the pairs contribute to it (`accumulate_wind` and the others), and each row
is built from a value of one accumulator, an interval around it and a count.

The `CHECK` constraints of `accuracy_metrics` hold of every row: a value that is not null
needs a pair, an interval from moments is centred on the value, and a Wilson interval is
clamped around it.

The sample count of a row is the number of pairs in its accumulator, with one exception.
The Brier score has an accumulator of its own, which leaves out the pairs without a
forecast probability, but its row carries the count of the occurrence metrics.
-/

namespace ForecastIQ.Analysis

open ForecastIQ.Foundations Eval

variable {K : Type*} [Field K] [LinearOrder K]

/-! ### The parts of a pair -/

/-- The contribution of a pair to the wind metrics. -/
def PairRecord.windSpeed (p : PairRecord K) : Option (K × K × K) :=
  contribution p.fWindSpeed p.oWindSpeed p.qualityFlag (provenanceWeight p.observationType)

/-- The contribution of a pair to the humidity metrics. -/
def PairRecord.humidity (p : PairRecord K) : Option (K × K × K) :=
  contribution p.fHumidity p.oHumidity p.qualityFlag (provenanceWeight p.observationType)

/-- The contribution of a pair to the pressure metrics. -/
def PairRecord.pressure (p : PairRecord K) : Option (K × K × K) :=
  contribution p.fPressure p.oPressure p.qualityFlag (provenanceWeight p.observationType)

/-- The contribution of a pair to the rain amount of all hours. -/
def PairRecord.rainAll (p : PairRecord K) : Option (K × K × K) :=
  contribution p.fPrecipMM p.oPrecipMM p.qualityFlag (provenanceWeight p.observationType)

/-- The contribution of a pair to the rain amount of the wet hours. -/
def PairRecord.rainWet (p : PairRecord K) : Option (K × K × K) :=
  if observedRainThresholdMM ≤ deref p.oPrecipMM then p.rainAll else none

/-- The contribution of a pair to the Brier score. -/
def PairRecord.brier (p : PairRecord K) : Option (K × Bool × K) :=
  if p.occurrenceKnown ∧ p.fPrecipProb.isSome then
    some (deref p.fPrecipProb, observedRain p.oPrecipMM, provenanceWeight p.observationType)
  else none

section Parts

variable (pairs : List (PairRecord K))

theorem accumulate_wind : (accumulate pairs).wind = Continuous.ofList (pairs.filterMap PairRecord.windSpeed) :=
  accumulate_continuous Accumulators.wind rfl (fun a p => addEligible_eq a.wind p.fWindSpeed p.oWindSpeed _ _) pairs

theorem accumulate_humidity : (accumulate pairs).humidity = Continuous.ofList (pairs.filterMap PairRecord.humidity) :=
  accumulate_continuous Accumulators.humidity rfl (fun a p => addEligible_eq a.humidity p.fHumidity p.oHumidity _ _)
    pairs

theorem accumulate_pressure : (accumulate pairs).pressure = Continuous.ofList (pairs.filterMap PairRecord.pressure) :=
  accumulate_continuous Accumulators.pressure rfl (fun a p => addEligible_eq a.pressure p.fPressure p.oPressure _ _)
    pairs

theorem accumulate_rainAll : (accumulate pairs).rainAll = Continuous.ofList (pairs.filterMap PairRecord.rainAll) :=
  accumulate_continuous Accumulators.rainAll rfl (fun a p => addEligible_eq a.rainAll p.fPrecipMM p.oPrecipMM _ _) pairs

theorem accumulate_rainWet : (accumulate pairs).rainWet = Continuous.ofList (pairs.filterMap PairRecord.rainWet) := by
  refine accumulate_continuous Accumulators.rainWet rfl (fun a p => ?_) pairs
  simp only [PairRecord.rainWet, PairRecord.rainAll, contribution, Accumulators.addPair]
  by_cases hwet : observedRainThresholdMM ≤ deref p.oPrecipMM
  · simp only [hwet, and_true, if_true]
    split_ifs <;> rfl
  · simp only [hwet, and_false, if_false]
    rfl

theorem accumulate_brier : (accumulate pairs).brier = Brier.ofList (pairs.filterMap PairRecord.brier) := by
  refine accumulate_part Accumulators.brier (fun b p => b.add p.1 p.2.1 p.2.2) PairRecord.brier (fun a p => ?_) pairs
  simp only [PairRecord.brier, Accumulators.addPair]
  split_ifs <;> rfl

end Parts

/-! ### The constraints -/

/-- The `CHECK` constraints of `accuracy_metrics` on a value, its count and its interval. -/
structure AccuracyMetric.ValueChecks (m : AccuracyMetric K) : Prop where
  null : m.value = none ↔ m.sampleCount = 0
  interval : ∀ lo, m.ciLower = some lo → ∃ v hi, m.value = some v ∧ m.ciUpper = some hi ∧ lo ≤ v ∧ v ≤ hi

/-- The `CHECK` constraints of `accuracy_metrics`. -/
structure AccuracyMetric.Checks (m : AccuracyMetric K) : Prop extends m.ValueChecks where
  sampleCount : 0 ≤ m.sampleCount
  period : m.periodStart < m.periodEnd

section Checks

variable (cell : Cell) (period : Period) (var : EvalVariable) (t : MetricType)

omit [Field K] in
/-- The value of a row passes if it comes with a count and with an interval around it, when there is one. -/
theorem metric_checks {value lo hi : Option K} {n : ℕ} (hn : value ≠ none → n ≠ 0)
    (hci : ∀ v, value = some v → ∀ l, lo = some l → ∃ u, hi = some u ∧ l ≤ v ∧ v ≤ u) :
    (metric cell period var t value lo hi n).ValueChecks := by
  refine ⟨?_, ?_⟩
  · cases value with
    | none => simp [metric]
    | some v => simpa [metric] using hn
  · intro l hl
    cases value with
    | none => simp [metric] at hl
    | some v =>
      obtain ⟨u, hu, hle⟩ := hci v rfl l (by simpa [metric] using hl)
      exact ⟨v, u, rfl, by simpa [metric] using hu, hle⟩

/-- A rate comes with its denominator and without an interval. -/
theorem ratelessRow_checks (numerator denom : ℕ) :
    (ratelessRow cell period var t numerator denom : AccuracyMetric K).ValueChecks := by
  refine metric_checks cell period var t (fun hrate hdenom => hrate ?_) fun _ _ _ h => by simp at h
  simp [rate, hdenom]

variable [IsStrictOrderedRing K] {sqrt : K → K}

omit [IsStrictOrderedRing K] in
/-- A ratio comes with the count of its pairs and a Wilson interval. -/
theorem ratioRow_checks {num d : K} {n : ℕ} (h0 : 0 ≤ num) (h1 : num ≤ d) (hn : d ≠ 0 → n ≠ 0) :
    (ratioRow sqrt cell period t (Confusion.ratio num d) d n).ValueChecks := by
  rcases eq_or_ne d 0 with hd | hd
  · rw [Confusion.ratio_eq_none_iff.mpr hd]
    exact metric_checks cell period .precipitation t (by simp) (by simp)
  · have hpos : 0 < d := lt_of_le_of_ne (h0.trans h1) hd.symm
    rw [Confusion.ratio_of_ne_zero num hd]
    refine metric_checks cell period .precipitation t (fun _ => hn hd) fun v hv l hl => ?_
    cases hv
    cases hl
    exact ⟨_, rfl, mem_wilson sqrt _ hpos⟩

variable (hsqrt : ∀ x, 0 ≤ sqrt x)

include hsqrt

/-- A metric comes with the count of its pairs and an interval from moments. -/
theorem centred_checks {v : Option K} {m : Moments K} {n : ℕ} (hn : v ≠ none → n ≠ 0) :
    (metric cell period var t v (v.elim (none, none) fun x => m.ci sqrt x).1
      (v.elim (none, none) fun x => m.ci sqrt x).2 n).ValueChecks := by
  refine metric_checks cell period var t hn fun x hx l hl => ?_
  subst hx
  obtain ⟨hle, u, hu, hge⟩ := Moments.mem_ci hsqrt hl
  exact ⟨u, hu, hle, hge⟩

omit [IsStrictOrderedRing K] hsqrt in
/-- A total weight that is not zero needs a pair. -/
theorem n_ne_zero {l : List (K × K × K)} (h : (Continuous.ofList l).sumWeight ≠ 0) : (Continuous.ofList l).n ≠ 0 := by
  rintro hn
  rw [Continuous.ofList_n, List.length_eq_zero_iff] at hn
  subst hn
  exact h rfl

theorem mae_checks (l : List (K × K × K)) :
    (metric cell period var t (Continuous.ofList l).mae ((Continuous.ofList l).maeCI sqrt).1
      ((Continuous.ofList l).maeCI sqrt).2 (Continuous.ofList l).n).ValueChecks := by
  rw [Continuous.maeCI_eq]
  refine centred_checks cell period var t hsqrt fun hv => n_ne_zero fun h => hv ?_
  exact if_pos h

/-- The three rows of a continuous variable. -/
theorem continuousRows_checks (l : List (K × K × K)) :
    ∀ m ∈ continuousRows sqrt cell period var (Continuous.ofList l), m.ValueChecks := by
  simp only [continuousRows, List.forall_mem_cons, List.not_mem_nil, IsEmpty.forall_iff, implies_true, and_true]
  refine ⟨mae_checks cell period var .mae hsqrt l, ?_, ?_⟩
  · rw [Continuous.rmseCI_eq]
    refine centred_checks cell period var .rmse hsqrt fun hv => n_ne_zero fun h => hv ?_
    exact if_pos h
  · rw [Continuous.biasCI_eq]
    refine centred_checks cell period var .bias hsqrt fun hv => n_ne_zero fun h => hv ?_
    exact if_pos h

end Checks

/-- The six ratios of the occurrence metrics, each a metric type, a numerator and a denominator. -/
def occurrenceRatios (c : Confusion K) : List (MetricType × K × K) :=
  [(.recall, c.tp, c.tp + c.fn), (.precision, c.tp, c.tp + c.fp), (.f1, 2 * c.tp, 2 * c.tp + c.fp + c.fn),
   (.far, c.fp, c.fp + c.tn), (.threatScore, c.tp, c.tp + c.fp + c.fn),
   (.occurrenceAgreement, c.tp + c.tn, c.total)]

/-- The six rates, each a variable, a metric type and a numerator. -/
def rates (counts : VariableCounts) (success : ℕ) : List (EvalVariable × MetricType × ℕ) :=
  [(.temperature, .coverage, counts.temperature), (.windSpeed, .coverage, counts.windSpeed),
   (.humidity, .coverage, counts.humidity), (.pressure, .coverage, counts.pressure),
   (.precipitation, .coverage, counts.precipitation), (.all, .reliability, success)]

/-- The rows one by one: four continuous variables, two rain amounts, six ratios, the Brier score
and six rates. -/
theorem forall_computeRows {P : AccuracyMetric K → Prop} {sqrt : K → K} {cell : Cell} {period : Period}
    {pairs : List (PairRecord K)} {counts : VariableCounts} {scheduled success : ℕ} :
    (∀ m ∈ computeRows sqrt cell period pairs counts scheduled success, P m) ↔
      ((∀ m ∈ continuousRows sqrt cell period .temperature (accumulate pairs).temp, P m) ∧
        (∀ m ∈ continuousRows sqrt cell period .windSpeed (accumulate pairs).wind, P m) ∧
        (∀ m ∈ continuousRows sqrt cell period .humidity (accumulate pairs).humidity, P m) ∧
        ∀ m ∈ continuousRows sqrt cell period .pressure (accumulate pairs).pressure, P m) ∧
      (P (metric cell period .precipitation .rainMAEAll (accumulate pairs).rainAll.mae
          ((accumulate pairs).rainAll.maeCI sqrt).1 ((accumulate pairs).rainAll.maeCI sqrt).2
          (accumulate pairs).rainAll.n) ∧
        P (metric cell period .precipitation .rainMAEWet (accumulate pairs).rainWet.mae
          ((accumulate pairs).rainWet.maeCI sqrt).1 ((accumulate pairs).rainWet.maeCI sqrt).2
          (accumulate pairs).rainWet.n)) ∧
      (∀ r ∈ occurrenceRatios (accumulate pairs).occ,
        P (ratioRow sqrt cell period r.1 (Confusion.ratio r.2.1 r.2.2) r.2.2 (accumulate pairs).occN)) ∧
      P (metric cell period .precipitation .brier (accumulate pairs).brier.score
        ((accumulate pairs).brier.scoreCI sqrt).1 ((accumulate pairs).brier.scoreCI sqrt).2 (accumulate pairs).occN) ∧
      ∀ r ∈ rates counts success, P (ratelessRow cell period r.1 r.2.1 r.2.2 scheduled) := by
  simp only [computeRows, accumulatedRows, occurrenceRatios, rates, List.forall_mem_append, List.forall_mem_cons,
    List.not_mem_nil, IsEmpty.forall_iff, implies_true, and_true, and_assoc, Confusion.recall, Confusion.precision,
    Confusion.f1, Confusion.falseAlarmRate, Confusion.threatScore, Confusion.occurrenceAgreement]

section Cell

variable (pairs : List (PairRecord K))

/-- A pair with a part in the Brier score has one in the occurrence table. -/
theorem brier_isSome_imp {p : PairRecord K} (h : p.brier.isSome = true) : p.occurrence.isSome = true := by
  simp only [PairRecord.brier, PairRecord.occurrence] at h ⊢
  split_ifs at h with hk
  · rw [if_pos hk.1]
    rfl
  · cases h

/-- A Brier score needs a pair of the occurrence table. -/
theorem occN_ne_zero_of_score (h : (accumulate pairs).brier.score ≠ none) : (accumulate pairs).occN ≠ 0 := by
  intro hn
  have hnil : pairs.filterMap PairRecord.brier = [] := by
    rw [accumulate_occN_eq, List.length_eq_zero_iff, List.filterMap_eq_nil_iff] at hn
    refine List.filterMap_eq_nil_iff.mpr fun p hp => ?_
    by_contra hne
    have hocc := brier_isSome_imp (Option.isSome_iff_ne_none.mpr hne)
    rw [hn p hp] at hocc
    cases hocc
  rw [accumulate_brier, hnil] at h
  exact h (if_pos rfl)

/-- A denominator of the table that is not zero needs a pair. -/
theorem occN_ne_zero_of_ratio :
    ∀ r ∈ occurrenceRatios (accumulate pairs).occ, r.2.2 ≠ 0 → (accumulate pairs).occN ≠ 0 := by
  intro r hr hd hn
  rw [accumulate_occN_eq, List.length_eq_zero_iff] at hn
  rw [accumulate_occ, hn] at hr
  have hzero : ∀ r ∈ occurrenceRatios (Confusion.zero : Confusion K), r.2.2 = 0 := by
    simp [occurrenceRatios, Confusion.zero, Confusion.total]
  exact hd (hzero r hr)

end Cell

/-- The ratios are of numerators between zero and their denominators. -/
theorem occurrence_ratios [IsStrictOrderedRing K] {c : Confusion K} (h : c.Nonneg) :
    ∀ r ∈ occurrenceRatios c, 0 ≤ r.2.1 ∧ r.2.1 ≤ r.2.2 := by
  obtain ⟨htp, hfp, hfn, htn⟩ := h
  simp only [occurrenceRatios, Confusion.total, List.forall_mem_cons, List.not_mem_nil, IsEmpty.forall_iff,
    implies_true, and_true]
  refine ⟨?_, ?_, ?_, ?_, ?_, ?_⟩
  all_goals constructor <;> linarith

/-- The value of every row passes, for any pairs and counts. -/
theorem computeRows_valueChecks [IsStrictOrderedRing K] {sqrt : K → K} (hsqrt : ∀ x, 0 ≤ sqrt x) (cell : Cell)
    (period : Period) (pairs : List (PairRecord K)) (counts : VariableCounts) (scheduled success : ℕ) :
    ∀ m ∈ computeRows sqrt cell period pairs counts scheduled success, m.ValueChecks := by
  refine forall_computeRows.mpr ⟨⟨?_, ?_, ?_, ?_⟩, ⟨?_, ?_⟩, ?_, ?_, ?_⟩
  · rw [accumulate_temp]
    exact continuousRows_checks cell period .temperature hsqrt _
  · rw [accumulate_wind]
    exact continuousRows_checks cell period .windSpeed hsqrt _
  · rw [accumulate_humidity]
    exact continuousRows_checks cell period .humidity hsqrt _
  · rw [accumulate_pressure]
    exact continuousRows_checks cell period .pressure hsqrt _
  · rw [accumulate_rainAll]
    exact mae_checks cell period .precipitation .rainMAEAll hsqrt _
  · rw [accumulate_rainWet]
    exact mae_checks cell period .precipitation .rainMAEWet hsqrt _
  · intro r hr
    have hnonneg : (accumulate pairs).occ.Nonneg := by
      rw [accumulate_occ]
      exact Confusion.ofList_nonneg (occurrence_weight_nonneg pairs)
    obtain ⟨h0, h1⟩ := occurrence_ratios hnonneg r hr
    exact ratioRow_checks cell period r.1 h0 h1 (occN_ne_zero_of_ratio pairs r hr)
  · rw [Brier.scoreCI_eq]
    exact centred_checks cell period .precipitation .brier hsqrt (occN_ne_zero_of_score pairs)
  · intro r _
    exact ratelessRow_checks cell period r.1 r.2.1 r.2.2 scheduled

/-- **Every row passes the constraints of its table**, for any pairs and counts: its value always
does, and the whole row as soon as its period does, as a standard period does. -/
theorem computeRows_checks (cell : Cell) (period : Period) (pairs : List (PairRecord ℝ)) (counts : VariableCounts)
    (scheduled success : ℕ) :
    (∀ m ∈ computeRows Real.sqrt cell period pairs counts scheduled success,
        ((m.value = none ↔ m.sampleCount = 0) ∧
          ∀ lo, m.ciLower = some lo → ∃ v hi, m.value = some v ∧ m.ciUpper = some hi ∧ lo ≤ v ∧ v ≤ hi) ∧
        (m.Checks ↔ period.start < period.stop)) ∧
      ∀ now, period ∈ standardPeriods now →
        ∀ m ∈ computeRows Real.sqrt cell period pairs counts scheduled success, m.Checks := by
  have hvalues := computeRows_valueChecks Real.sqrt_nonneg cell period pairs counts scheduled success
  have hrows : ∀ m ∈ computeRows Real.sqrt cell period pairs counts scheduled success,
      m.Checks ↔ period.start < period.stop := by
    intro m hm
    obtain ⟨-, hstart, hstop⟩ := computeRows_isOf Real.sqrt cell period pairs counts scheduled success m hm
    rw [← hstart, ← hstop]
    exact ⟨fun h => h.period, fun h => ⟨hvalues m hm, Nat.zero_le _, h⟩⟩
  refine ⟨fun m hm => ⟨⟨(hvalues m hm).null, (hvalues m hm).interval⟩, hrows m hm⟩, fun now hnow m hm => ?_⟩
  have hmem := mem_standardPeriods hnow
  exact (hrows m hm).mpr (hmem.1.trans_lt hmem.2)

/-- An hour observed dry, with a forecast probability or without. -/
def dryHour (prob : Option K) : PairRecord K :=
  ⟨.stationObservation, .valid, none, none, none, none, none, prob, none, none, none, none, some 0⟩

/-- The rows of a dry hour without a probability, for the day that begins at the origin. -/
theorem computeRows_checks_dryHour :
    (⟨.daily, 0, day⟩ : Period) ∈ standardPeriods 0 ∧
      ∀ m ∈ computeRows Real.sqrt ⟨1, 1, 60⟩ ⟨.daily, 0, day⟩ [dryHour none] ⟨0, 0, 0, 0, 1⟩ 1 1, m.Checks := by
  have hday : (⟨.daily, 0, day⟩ : Period) ∈ standardPeriods 0 := by decide +kernel
  exact ⟨hday, (computeRows_checks ⟨1, 1, 60⟩ ⟨.daily, 0, day⟩ [dryHour none] ⟨0, 0, 0, 0, 1⟩ 1 1).2 0 hday⟩

/-! ### The sample counts -/

/-- The metric is computed from the pairs, not from counts of snapshots or slots. -/
def MetricType.pairBased : MetricType → Bool
  | .coverage | .reliability => false
  | _ => true

/-- The pair is added to the accumulator that the value of a row is computed from. -/
def PairRecord.addedTo (p : PairRecord K) (var : EvalVariable) : MetricType → Bool
  | .mae | .rmse | .bias =>
    match var with
    | .temperature => p.temperature.isSome
    | .windSpeed => p.windSpeed.isSome
    | .humidity => p.humidity.isSome
    | .pressure => p.pressure.isSome
    | .precipitation | .all => false
  | .rainMAEAll => p.rainAll.isSome
  | .rainMAEWet => p.rainWet.isSome
  | .recall | .precision | .f1 | .far | .threatScore | .occurrenceAgreement => p.occurrence.isSome
  | .brier => p.brier.isSome
  | .coverage | .reliability => false

/-- A row with a value reports how many pairs were added to its accumulator. -/
def AccuracyMetric.CountsAdded (pairs : List (PairRecord K)) (m : AccuracyMetric K) : Prop :=
  m.metricType.pairBased = true → m.value ≠ none → m.sampleCount = pairs.countP fun p => p.addedTo m.var m.metricType

section Counts

variable (cell : Cell) (period : Period) (var : EvalVariable) (t : MetricType) (pairs : List (PairRecord K))

theorem metric_countsAdded_iff (value lo hi : Option K) (n : ℕ) :
    (metric cell period var t value lo hi n).CountsAdded pairs ↔
      (t.pairBased = true → value ≠ none → n = pairs.countP fun p => p.addedTo var t) := by
  cases value <;> simp [AccuracyMetric.CountsAdded, metric]

theorem continuousRows_countsAdded {sqrt : K → K} {c : Continuous K}
    (h : ∀ t ∈ [MetricType.mae, .rmse, .bias], c.n = pairs.countP fun p => p.addedTo var t) :
    ∀ m ∈ continuousRows sqrt cell period var c, m.CountsAdded pairs := by
  simp only [List.forall_mem_cons, List.not_mem_nil, IsEmpty.forall_iff, implies_true, and_true] at h
  simp only [continuousRows, List.forall_mem_cons, List.not_mem_nil, IsEmpty.forall_iff, implies_true, and_true,
    metric_countsAdded_iff]
  exact ⟨fun _ _ => h.1, fun _ _ => h.2.1, fun _ _ => h.2.2⟩

theorem ratioRow_countsAdded {sqrt : K → K} {value : Option K} {d : K} {n : ℕ}
    (h : n = pairs.countP fun p => p.addedTo .precipitation t) :
    (ratioRow sqrt cell period t value d n).CountsAdded pairs := by
  cases value with
  | none => exact (metric_countsAdded_iff ..).mpr fun _ hne => absurd rfl hne
  | some v => exact (metric_countsAdded_iff ..).mpr fun _ _ => h

/-- Every row but that of the Brier score reports its own pairs. -/
theorem computeRows_countsAdded_iff {sqrt : K → K} {counts : VariableCounts} {scheduled success : ℕ} :
    (∀ m ∈ computeRows sqrt cell period pairs counts scheduled success, m.CountsAdded pairs) ↔
      ((accumulate pairs).brier.score ≠ none → (accumulate pairs).occN = pairs.countP fun p => p.brier.isSome) := by
  have hocc : (accumulate pairs).occN = pairs.countP fun p => p.occurrence.isSome := by
    rw [accumulate_occN_eq, List.length_filterMap_eq_countP]
  rw [forall_computeRows]
  constructor
  · rintro ⟨-, -, -, hbrier, -⟩
    exact (metric_countsAdded_iff ..).mp hbrier rfl
  · intro hbrier
    refine ⟨⟨?_, ?_, ?_, ?_⟩, ⟨?_, ?_⟩, ?_, ?_, ?_⟩
    · refine continuousRows_countsAdded cell period .temperature pairs ?_
      rw [accumulate_temp, ofList_n_eq_countP]
      simp [PairRecord.addedTo]
    · refine continuousRows_countsAdded cell period .windSpeed pairs ?_
      rw [accumulate_wind, ofList_n_eq_countP]
      simp [PairRecord.addedTo]
    · refine continuousRows_countsAdded cell period .humidity pairs ?_
      rw [accumulate_humidity, ofList_n_eq_countP]
      simp [PairRecord.addedTo]
    · refine continuousRows_countsAdded cell period .pressure pairs ?_
      rw [accumulate_pressure, ofList_n_eq_countP]
      simp [PairRecord.addedTo]
    · refine (metric_countsAdded_iff ..).mpr fun _ _ => ?_
      rw [accumulate_rainAll, ofList_n_eq_countP]
      rfl
    · refine (metric_countsAdded_iff ..).mpr fun _ _ => ?_
      rw [accumulate_rainWet, ofList_n_eq_countP]
      rfl
    · simp only [occurrenceRatios, List.forall_mem_cons, List.not_mem_nil, IsEmpty.forall_iff, implies_true, and_true]
      exact ⟨ratioRow_countsAdded _ _ _ _ hocc, ratioRow_countsAdded _ _ _ _ hocc, ratioRow_countsAdded _ _ _ _ hocc,
        ratioRow_countsAdded _ _ _ _ hocc, ratioRow_countsAdded _ _ _ _ hocc, ratioRow_countsAdded _ _ _ _ hocc⟩
    · exact (metric_countsAdded_iff ..).mpr fun _ => hbrier
    · intro r hr
      have hrate : ∀ r ∈ rates counts success, r.2.1.pairBased = false := by simp [rates, MetricType.pairBased]
      refine (metric_countsAdded_iff ..).mpr fun hpair => ?_
      rw [hrate r hr] at hpair
      cases hpair

/-- The two counts agree when no counted pair lacks a probability. -/
theorem occN_eq_countP_brier_iff :
    ((accumulate pairs).occN = pairs.countP fun p => p.brier.isSome) ↔
      ∀ p ∈ pairs, p.occurrenceKnown = true → p.fPrecipProb.isSome = true := by
  have hbrier : ∀ p : PairRecord K, p.brier.isSome = (p.occurrenceKnown && p.fPrecipProb.isSome) := by
    intro p
    simp only [PairRecord.brier]
    split_ifs with h <;> simp_all
  have hcount : (pairs.countP fun p => p.brier.isSome) =
      (pairs.filter PairRecord.occurrenceKnown).countP fun p => p.fPrecipProb.isSome := by
    rw [List.countP_filter]
    refine List.countP_congr fun p _ => ?_
    rw [hbrier, Bool.and_comm]
  rw [hcount, accumulate_occN, List.countP_eq_length_filter, eq_comm, List.countP_eq_length]
  simp [List.mem_filter]

/-- A Brier score is null exactly when no counted pair with a probability has weight. -/
theorem accumulate_score_eq_none_iff [IsStrictOrderedRing K] :
    (accumulate pairs).brier.score = none ↔
      ∀ p ∈ pairs, p.occurrenceKnown = true → p.fPrecipProb.isSome = true →
        ∃ name, p.observationType = .other name := by
  have hscore : (accumulate pairs).brier.score = none ↔
      totalWeight (pairs.filterMap PairRecord.brier) weightOf = 0 := by
    rw [accumulate_brier, Brier.ofList_eq]
    simp [Brier.score]
  have hmem : ∀ q, q ∈ pairs.filterMap PairRecord.brier ↔ ∃ p ∈ pairs, (p.occurrenceKnown ∧ p.fPrecipProb.isSome) ∧
      (deref p.fPrecipProb, observedRain p.oPrecipMM, provenanceWeight p.observationType) = q := by
    simp only [List.mem_filterMap, PairRecord.brier, Option.ite_none_right_eq_some, Option.some.injEq, implies_true]
  have hnonneg : ∀ w ∈ (pairs.filterMap PairRecord.brier).map weightOf, (0 : K) ≤ w := by
    refine List.forall_mem_map.mpr (part_weight_nonneg (fun p q hq => ?_) pairs)
    simp only [PairRecord.brier, Option.ite_none_right_eq_some, Option.some.injEq] at hq
    exact congrArg (fun q => q.2.2) hq.2
  rw [hscore, totalWeight, sum_weights_eq_zero_iff hnonneg, List.forall_mem_map]
  constructor
  · intro h p hp hknown hprob
    by_contra hne
    have hweight := (provenanceWeight_ne_zero_iff (K := K) p.observationType).mpr fun name hname => hne ⟨name, hname⟩
    refine hweight ?_
    exact h _ ((hmem _).mpr ⟨p, hp, ⟨hknown, hprob⟩, rfl⟩)
  · intro h q hq
    obtain ⟨p, hp, ⟨hknown, hprob⟩, rfl⟩ := (hmem q).mp hq
    obtain ⟨name, hname⟩ := h p hp hknown hprob
    simp [weightOf, hname, provenanceWeight]

end Counts

/-- **The sample counts are those of the accumulators unless a pair lacks a probability.** The
row of the Brier score has the count of the occurrence table, in which such a pair is counted. -/
theorem sampleCounts_iff [IsStrictOrderedRing K] (sqrt : K → K) (cell : Cell) (period : Period)
    (pairs : List (PairRecord K)) (counts : VariableCounts) (scheduled success : ℕ) :
    (∀ m ∈ computeRows sqrt cell period pairs counts scheduled success, m.metricType.pairBased = true →
        m.value ≠ none → m.sampleCount = pairs.countP fun p => p.addedTo m.var m.metricType) ↔
      (∀ p ∈ pairs, p.occurrenceKnown = true → p.fPrecipProb.isSome = true) ∨
        ∀ p ∈ pairs, p.occurrenceKnown = true → p.fPrecipProb.isSome = true →
          ∃ name, p.observationType = .other name := by
  refine (computeRows_countsAdded_iff cell period pairs).trans ?_
  rw [← accumulate_score_eq_none_iff, ← occN_eq_countP_brier_iff]
  tauto

/-- Two hours that both have a probability are counted as two. -/
theorem sampleCounts_complete :
    (∀ p ∈ [dryHour (some (0 : ℝ)), dryHour (some (1 / 2))], p.occurrenceKnown = true → p.fPrecipProb.isSome = true) ∧
      ∀ m ∈ computeRows Real.sqrt ⟨1, 1, 60⟩ ⟨.daily, 0, day⟩ [dryHour (some 0), dryHour (some (1 / 2))]
          ⟨0, 0, 0, 0, 2⟩ 2 2,
        m.metricType.pairBased = true → m.value ≠ none → m.sampleCount =
          [dryHour (some (0 : ℝ)), dryHour (some (1 / 2))].countP fun p => p.addedTo m.var m.metricType := by
  have hprob : ∀ p ∈ [dryHour (some (0 : ℝ)), dryHour (some (1 / 2))],
      p.occurrenceKnown = true → p.fPrecipProb.isSome = true := by
    simp [dryHour]
  exact ⟨hprob, (sampleCounts_iff Real.sqrt ⟨1, 1, 60⟩ ⟨.daily, 0, day⟩ _ ⟨0, 0, 0, 0, 2⟩ 2 2).mpr (Or.inl hprob)⟩

theorem brier_mem_computeRows (sqrt : K → K) (cell : Cell) (period : Period) (pairs : List (PairRecord K))
    (counts : VariableCounts) (scheduled success : ℕ) :
    metric cell period .precipitation .brier (accumulate pairs).brier.score ((accumulate pairs).brier.scoreCI sqrt).1
        ((accumulate pairs).brier.scoreCI sqrt).2 (accumulate pairs).occN ∈
      computeRows sqrt cell period pairs counts scheduled success := by
  simp [computeRows, accumulatedRows]

/-- The Brier score of one hour is reported as that of two, when the other hour has no probability. -/
theorem brier_count_twoHours :
    ∃ m ∈ computeRows Real.sqrt ⟨1, 1, 60⟩ ⟨.daily, 0, day⟩ [dryHour (some (1 / 2)), dryHour none]
        ⟨0, 0, 0, 0, 1⟩ 2 2,
      m.metricType = .brier ∧ m.metricType.pairBased = true ∧ m.value = some (1 / 4) ∧ m.sampleCount = 2 ∧
        ([dryHour (some (1 / 2 : ℝ)), dryHour none].countP fun p => p.addedTo m.var m.metricType) = 1 := by
  have hsome : (dryHour (some (1 / 2 : ℝ))).brier = some (1 / 2, false, 1) := by
    have hdry : observedRain (some (0 : ℝ)) = false := by norm_num [observedRain, observedRainThresholdMM]
    rw [PairRecord.brier, if_pos ⟨rfl, rfl⟩]
    simp only [dryHour, hdry, deref, provenanceWeight, Option.getD_some]
  have hnone : (dryHour (none : Option ℝ)).brier = none := by simp [dryHour, PairRecord.brier]
  have hscore : (accumulate [dryHour (some (1 / 2 : ℝ)), dryHour none]).brier.score = some (1 / 4) := by
    rw [accumulate_brier, List.filterMap_cons_some hsome, List.filterMap_cons_none hnone, List.filterMap_nil]
    norm_num [Brier.ofList, Brier.add, Brier.zero, Brier.score]
  have hcount : (accumulate [dryHour (some (1 / 2 : ℝ)), dryHour none]).occN = 2 := by
    rw [accumulate_occN]
    simp [dryHour, PairRecord.occurrenceKnown]
  refine ⟨_, brier_mem_computeRows .., rfl, rfl, hscore, ?_, ?_⟩
  · rw [hscore, hcount]
    rfl
  · simp only [metric, PairRecord.addedTo, List.countP_cons, List.countP_nil, hsome, hnone]
    rfl

end ForecastIQ.Analysis
