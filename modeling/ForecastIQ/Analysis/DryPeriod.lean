import ForecastIQ.Analysis.Rank

/-!
# A rain-free period

The methodology says that a period without rain penalizes nobody: the occurrence score
`F1` is null and its weight goes to the other components. The row of a null `F1`,
however, has sample count `0` (`metric`), `buildCohort` takes the precipitation sample
count from that row, and `status` makes a provider with fewer than ten samples
unranked. `ranked_iff` says exactly when a provider with enough data is ranked: when
rain was forecast or observed in at least one of its counted pairs.
-/

namespace ForecastIQ.Analysis

open ForecastIQ.Foundations Eval

variable {K : Type*} [Field K] [LinearOrder K]

/-! ### The rows of a cell that decide a status -/

/-- A null ratio has sample count `0`, whatever was counted. -/
theorem ratioRow_sampleCount (sqrt : K → K) (cell : Cell) (period : Period) (t : MetricType) (value : Option K)
    (denom : K) (n : ℕ) :
    (ratioRow sqrt cell period t value denom n).sampleCount = if value.isNone then 0 else n := by
  cases value <;> rfl

section Rows

variable (sqrt : K → K) (cell : Cell) (period : Period) (pairs : List (PairRecord K)) (counts : VariableCounts)
  (scheduled success : ℕ)

/-- The rows of a cell as ranking reads them. -/
def readRows : List (MetricValue K) :=
  (computeRows sqrt cell period pairs counts scheduled success).map AccuracyMetric.toMetricValue

/-- The rows of a cell are all of the cell's provider. -/
theorem rowsOf_readRows :
    rowsOf (readRows sqrt cell period pairs counts scheduled success) cell.providerID =
      readRows sqrt cell period pairs counts scheduled success := by
  refine List.filter_eq_self.mpr fun m hm => ?_
  obtain ⟨row, hrow, rfl⟩ := List.mem_map.mp hm
  exact decide_eq_true (congrArg Cell.providerID (computeRows_isOf _ _ _ _ _ _ _ row hrow).1)

theorem lastSample_readRows_temperature (d : ℕ) :
    lastSample .temperature .mae d (readRows sqrt cell period pairs counts scheduled success) =
      if (accumulate pairs).temp.mae.isNone then 0 else (accumulate pairs).temp.n := by
  simp [lastSample, readRows, computeRows, accumulatedRows, continuousRows, ratelessRow, metric,
    AccuracyMetric.toMetricValue]

theorem lastSample_readRows_f1 (d : ℕ) :
    lastSample .precipitation .f1 d (readRows sqrt cell period pairs counts scheduled success) =
      if (accumulate pairs).occ.f1.isNone then 0 else (accumulate pairs).occN := by
  simp [lastSample, readRows, computeRows, accumulatedRows, continuousRows, ratelessRow, metric,
    AccuracyMetric.toMetricValue, ratioRow_sampleCount]

theorem coveragesOf_readRows :
    coveragesOf (readRows sqrt cell period pairs counts scheduled success) =
      counts.toList.flatMap fun n => (rate n scheduled : Option K).toList := by
  simp [coveragesOf, readRows, computeRows, accumulatedRows, continuousRows, ratelessRow, metric,
    AccuracyMetric.toMetricValue, VariableCounts.toList]

end Rows

omit [Field K] [LinearOrder K] in
/-- The rows of a provider may be read in any order: one row has each variable and type. -/
theorem lastSample_perm {var : EvalVariable} {t : MetricType} {rows rows' : List (MetricValue K)}
    (h : rows.Perm rows') (h1 : (rows'.filter fun m => m.var = var ∧ m.metricType = t).length ≤ 1) :
    lastSample var t 0 rows = lastSample var t 0 rows' := by
  unfold lastSample
  rw [filter_eq_of_perm h h1]

omit [Field K] [LinearOrder K] in
theorem coveragesOf_perm {rows rows' : List (MetricValue K)} (h : rows.Perm rows') :
    (coveragesOf rows).Perm (coveragesOf rows') :=
  (h.filter _).flatMap_right _

/-- A provider with the rows of `computeRows` is in the cohort. -/
theorem mem_providers_of_readRows {sqrt : K → K} {cell : Cell} {period : Period} {pairs : List (PairRecord K)}
    {counts : VariableCounts} {scheduled success id : ℕ} {vals : List (MetricValue K)}
    (h : (rowsOf vals id).Perm (readRows sqrt cell period pairs counts scheduled success)) :
    id ∈ vals.map MetricValue.providerID := by
  have hne : rowsOf vals id ≠ [] := by
    rw [← List.length_pos_iff, h.length_eq]
    simp [readRows, computeRows, accumulatedRows, continuousRows]
  obtain ⟨m, hm⟩ := List.exists_mem_of_ne_nil _ hne
  rw [rowsOf, List.mem_filter, decide_eq_true_iff] at hm
  exact List.mem_map.mpr ⟨m, hm⟩

/-! ### When a provider with enough data is ranked -/

section Ranked

variable [IsStrictOrderedRing K]

/-- The sample, coverage and calendar requirements on a provider's period, as the methodology
counts them: on the pairs, the snapshots and the days themselves. -/
structure EnoughData (period : Period) (pairs : List (PairRecord K)) (counts : VariableCounts) (scheduled : ℕ) :
    Prop where
  temperature : 30 ≤ pairs.countP fun p => eligible p.fTemperature p.oTemperature p.qualityFlag
  precipitation : 30 ≤ pairs.countP PairRecord.occurrenceKnown
  coverage : ∀ n ∈ counts.toList, coverageRankedMin ≤ (n : K) / scheduled
  days : 7 * day ≤ period.stop - period.start

/-- The observation of the pair is of a type the code knows, so the pair has weight. -/
def PairRecord.Recognised (p : PairRecord K) : Prop := ∀ name, p.observationType ≠ .other name

/-- Rain was forecast or observed in the pair. -/
def PairRecord.Wet (p : PairRecord K) : Prop :=
  forecastRain p.fPrecipProb p.fPrecipMM = true ∨ observedRain p.oPrecipMM = true

/-- A part with the weight of its pair has no negative weight. -/
theorem part_weight_nonneg {γ : Type*} {part : PairRecord K → Option γ} {w : γ → K}
    (h : ∀ p q, part p = some q → provenanceWeight p.observationType = w q) (pairs : List (PairRecord K)) :
    ∀ q ∈ pairs.filterMap part, 0 ≤ w q := by
  intro q hq
  obtain ⟨p, -, hp⟩ := List.mem_filterMap.mp hq
  rw [← h p q hp]
  exact provenanceWeight_nonneg _

theorem occurrence_weight_nonneg (pairs : List (PairRecord K)) :
    ∀ q ∈ pairs.filterMap PairRecord.occurrence, 0 ≤ q.2.2 := by
  refine part_weight_nonneg (fun p q hq => ?_) pairs
  simp only [PairRecord.occurrence, Option.ite_none_right_eq_some, Option.some.injEq] at hq
  exact congrArg (fun q => q.2.2) hq.2

theorem accumulate_f1_isSome_iff (pairs : List (PairRecord K)) :
    (accumulate pairs).occ.f1.isSome ↔ ∃ p ∈ pairs, p.occurrenceKnown = true ∧ p.Wet ∧ p.Recognised := by
  rw [accumulate_occ, Confusion.f1_isSome_iff (occurrence_weight_nonneg pairs)]
  simp only [List.mem_filterMap, PairRecord.occurrence, Option.ite_none_right_eq_some, Option.some.injEq]
  constructor
  · rintro ⟨q, ⟨p, hp, hk, rfl⟩, hwet, hne⟩
    exact ⟨p, hp, hk, hwet, (provenanceWeight_ne_zero_iff _).mp hne⟩
  · rintro ⟨p, hp, hk, hwet, hr⟩
    exact ⟨_, ⟨p, hp, hk, rfl⟩, hwet, (provenanceWeight_ne_zero_iff _).mpr hr⟩

theorem accumulate_mae_isSome_iff (pairs : List (PairRecord K)) :
    (accumulate pairs).temp.mae.isSome ↔
      ∃ p ∈ pairs, eligible p.fTemperature p.oTemperature p.qualityFlag = true ∧ p.Recognised := by
  have hw : ∀ q ∈ pairs.filterMap PairRecord.temperature, 0 ≤ q.2.2 := by
    refine part_weight_nonneg (fun p q hq => ?_) pairs
    simp only [PairRecord.temperature, contribution, Option.ite_none_right_eq_some, Option.some.injEq] at hq
    exact congrArg (fun q => q.2.2) hq.2
  rw [accumulate_temp, Continuous.mae_isSome_iff hw]
  simp only [List.mem_filterMap, PairRecord.temperature, contribution, Option.ite_none_right_eq_some,
    Option.some.injEq]
  constructor
  · rintro ⟨q, ⟨p, hp, hk, rfl⟩, hne⟩
    exact ⟨p, hp, hk, (provenanceWeight_ne_zero_iff _).mp hne⟩
  · rintro ⟨p, hp, hk, hr⟩
    exact ⟨_, ⟨p, hp, hk, rfl⟩, (provenanceWeight_ne_zero_iff _).mpr hr⟩

omit [IsStrictOrderedRing K] in
theorem accumulate_temp_n (pairs : List (PairRecord K)) :
    (accumulate pairs).temp.n = pairs.countP fun p => eligible p.fTemperature p.oTemperature p.qualityFlag := by
  rw [accumulate_temp, ofList_n_eq_countP]
  refine List.countP_congr fun p _ => ?_
  simp only [PairRecord.temperature, contribution]
  split_ifs with h <;> simp [h]

/-- A rate is at least `0.8` exactly when the quotient is: the clamp to one does not matter. -/
theorem exists_rate_iff {n scheduled : ℕ} :
    (∃ c : K, rate n scheduled = some c ∧ coverageRankedMin ≤ c) ↔ coverageRankedMin ≤ (n : K) / scheduled := by
  have hmin : (0 : K) < coverageRankedMin := by rw [coverageRankedMin]; norm_num
  have hone : (coverageRankedMin : K) ≤ 1 := by rw [coverageRankedMin]; norm_num
  by_cases hs : scheduled = 0
  · subst hs
    simpa [rate] using hmin
  · simp only [rate, if_neg hs, Option.some.injEq, exists_eq_left']
    split_ifs with hlt
    · exact ⟨fun _ => hone.trans hlt.le, fun _ => hone⟩
    · exact Iff.rfl

theorem calendarDays_ge {period : Period} (h : 7 * day ≤ period.stop - period.start) : 7 ≤ calendarDays period := by
  rw [day_eq] at h
  rw [calendarDays, day_eq, Int.tdiv_eq_ediv_of_nonneg (by omega)]
  omega

/-- The samples and coverages in the rows of a provider reach the thresholds of `ranked`. -/
structure EnoughRows (rows : List (MetricValue K)) : Prop where
  temperature : 30 ≤ lastSample .temperature .mae 0 rows
  precipitation : 30 ≤ lastSample .precipitation .f1 0 rows
  known : coveragesOf rows ≠ []
  coverage : ∀ c ∈ coveragesOf rows, coverageRankedMin ≤ c

/-- In a period of seven days or more the rows alone decide. -/
theorem status_ofRows_eq_ranked_iff {days : ℤ} (hdays : 7 ≤ days) (id : ℕ) (rows : List (MetricValue K)) :
    status (ProviderInput.ofRows id days rows) = .ranked ↔ EnoughRows rows := by
  have hcov : ¬ deref (minCoverage (coveragesOf rows)) < coverageRankedMin ↔
      coveragesOf rows ≠ [] ∧ ∀ c ∈ coveragesOf rows, coverageRankedMin ≤ c := by
    rw [deref_minCoverage_lt_iff (by rw [coverageRankedMin]; norm_num)]
    simp
  have hfloor : (coverageFloor : K) ≤ coverageRankedMin := by
    rw [coverageFloor, coverageRankedMin]
    norm_num
  simp only [status, ofRows_tempSampleCount, ofRows_precipSampleCount, ofRows_coverage, ofRows_calendarDays]
  constructor
  · intro h
    split_ifs at h with h1 h2
    simp only [not_or] at h2
    obtain ⟨ht, hp, hc, -⟩ := h2
    obtain ⟨hne, hall⟩ := hcov.mp hc
    exact ⟨not_lt.mp ht, not_lt.mp hp, hne, hall⟩
  · rintro ⟨ht, hp, hne, hall⟩
    have hc := hcov.mpr ⟨hne, hall⟩
    have hf : ¬ deref (minCoverage (coveragesOf rows)) < coverageFloor := fun hlt => hc (hlt.trans_le hfloor)
    rw [if_neg (by simp only [hf, or_false]; omega), if_neg (by simp only [hc, false_or]; omega)]

omit [IsStrictOrderedRing K] in
/-- The rows may be read in any order. -/
theorem enoughRows_perm {sqrt : K → K} {cell : Cell} {period : Period} {pairs : List (PairRecord K)}
    {counts : VariableCounts} {scheduled success : ℕ} {rows : List (MetricValue K)}
    (h : rows.Perm (readRows sqrt cell period pairs counts scheduled success)) :
    EnoughRows rows ↔ EnoughRows (readRows sqrt cell period pairs counts scheduled success) := by
  have htemp : lastSample .temperature .mae 0 rows = _ := lastSample_perm h (by simp [readRows, computeRows,
    accumulatedRows, continuousRows, ratelessRow, metric, AccuracyMetric.toMetricValue])
  have hf1 : lastSample .precipitation .f1 0 rows = _ := lastSample_perm h (by simp [readRows, computeRows,
    accumulatedRows, continuousRows, ratelessRow, metric, AccuracyMetric.toMetricValue])
  have hcov := coveragesOf_perm h
  constructor
  · rintro ⟨h1, h2, h3, h4⟩
    exact ⟨htemp ▸ h1, hf1 ▸ h2, fun hnil => h3 (List.perm_nil.mp (hnil ▸ hcov)),
      fun c hc => h4 c (hcov.mem_iff.mpr hc)⟩
  · rintro ⟨h1, h2, h3, h4⟩
    exact ⟨htemp ▸ h1, hf1 ▸ h2, fun hnil => h3 (List.perm_nil.mp (hnil ▸ hcov.symm)),
      fun c hc => h4 c (hcov.mem_iff.mp hc)⟩

/-- A null value has no samples and a known one has all of them; the coverages are those of the counts. -/
theorem enoughRows_readRows_iff {sqrt : K → K} {cell : Cell} {period : Period} {pairs : List (PairRecord K)}
    {counts : VariableCounts} {scheduled success : ℕ} :
    EnoughRows (readRows sqrt cell period pairs counts scheduled success) ↔
      ((accumulate pairs).temp.mae.isSome ∧ 30 ≤ (accumulate pairs).temp.n) ∧
        ((accumulate pairs).occ.f1.isSome ∧ 30 ≤ (accumulate pairs).occN) ∧
        ∀ n ∈ counts.toList, coverageRankedMin ≤ (n : K) / scheduled := by
  have hmem : ∀ c : K, c ∈ coveragesOf (readRows sqrt cell period pairs counts scheduled success) ↔
      ∃ n ∈ counts.toList, rate n scheduled = some c := by
    intro c
    rw [coveragesOf_readRows]
    simp [Option.mem_toList]
  have hsample : ∀ {o : Option K} {n : ℕ}, 30 ≤ (if o.isNone then 0 else n) ↔ o.isSome ∧ 30 ≤ n := by
    intro o n
    cases o <;> simp
  constructor
  · rintro ⟨h1, h2, h3, h4⟩
    rw [lastSample_readRows_temperature, hsample] at h1
    rw [lastSample_readRows_f1, hsample] at h2
    refine ⟨h1, h2, fun n hn => ?_⟩
    -- one known coverage means that slots were scheduled, and then all are known
    obtain ⟨c, hc⟩ := List.exists_mem_of_ne_nil _ h3
    obtain ⟨m, -, hm⟩ := (hmem c).mp hc
    have hs : scheduled ≠ 0 := by
      rintro rfl
      simp [rate] at hm
    obtain ⟨c', hc'⟩ : ∃ c' : K, rate n scheduled = some c' := ⟨_, if_neg hs⟩
    exact exists_rate_iff.mp ⟨c', hc', h4 c' ((hmem c').mpr ⟨n, hn, hc'⟩)⟩
  · rintro ⟨h1, h2, h3⟩
    refine ⟨?_, ?_, ?_, fun c hc => ?_⟩
    · rw [lastSample_readRows_temperature, hsample]
      exact h1
    · rw [lastSample_readRows_f1, hsample]
      exact h2
    · have hn : counts.temperature ∈ counts.toList := by simp [VariableCounts.toList]
      obtain ⟨c, hc, -⟩ := exists_rate_iff.mpr (h3 _ hn)
      exact List.ne_nil_of_mem ((hmem c).mpr ⟨_, hn, hc⟩)
    · obtain ⟨n, hn, hr⟩ := (hmem c).mp hc
      obtain ⟨c', hc', hle⟩ := exists_rate_iff.mpr (h3 n hn)
      rw [hr, Option.some.injEq] at hc'
      exact hc' ▸ hle

/-- The status of a provider whose rows are those of `computeRows`, in any order. -/
theorem status_ofRows_readRows {sqrt : K → K} {cell : Cell} {period : Period} {pairs : List (PairRecord K)}
    {counts : VariableCounts} {scheduled success : ℕ} {rows : List (MetricValue K)}
    (hrows : rows.Perm (readRows sqrt cell period pairs counts scheduled success))
    (h : EnoughData period pairs counts scheduled) (id : ℕ) :
    status (ProviderInput.ofRows id (calendarDays period) rows) = .ranked ↔
      (accumulate pairs).occ.f1.isSome ∧ (accumulate pairs).temp.mae.isSome := by
  have h1 := h.temperature
  have h2 := h.precipitation
  rw [← accumulate_temp_n] at h1
  rw [← accumulate_occN] at h2
  rw [status_ofRows_eq_ranked_iff (calendarDays_ge h.days), enoughRows_perm hrows, enoughRows_readRows_iff]
  constructor
  · rintro ⟨⟨hm, -⟩, ⟨hf, -⟩, -⟩
    exact ⟨hf, hm⟩
  · rintro ⟨hf, hm⟩
    exact ⟨⟨hm, h1⟩, ⟨hf, h2⟩, h.coverage⟩

/-- **A provider with enough data is ranked exactly when rain was forecast or observed** in a
counted pair, and some temperature pair has weight; in a rain-free period it is not ranked,
whatever the rest of the cohort is. -/
theorem dry_period_ranked_iff (sqrt : K → K) (cell : Cell) (period : Period) (pairs : List (PairRecord K))
    (counts : VariableCounts) (scheduled success : ℕ) (vals : List (MetricValue K))
    (hvals : (rowsOf vals cell.providerID).Perm (readRows sqrt cell period pairs counts scheduled success))
    (h : EnoughData period pairs counts scheduled) :
    (∃ r ∈ rankCell vals period, r.providerID = cell.providerID ∧ r.status = .ranked) ↔
      (∃ p ∈ pairs, p.occurrenceKnown = true ∧ p.Wet ∧ p.Recognised) ∧
        ∃ p ∈ pairs, eligible p.fTemperature p.oTemperature p.qualityFlag = true ∧ p.Recognised := by
  rw [rankCell, exists_ranking_iff, status_ofRows_readRows hvals h, accumulate_f1_isSome_iff,
    accumulate_mae_isSome_iff]
  exact and_iff_right (mem_providers_of_readRows hvals)

end Ranked

/-! ### A dry week and a wet one -/

/-- A pair that agrees on `20°C` and on the amount of rain, whose forecast gave it no chance. -/
def agreeingPair (precipMM : ℚ) : PairRecord ℚ :=
  { observationType := .stationObservation, qualityFlag := .valid
    fTemperature := some 20, fWindSpeed := some 3, fHumidity := some 50, fPressure := some 1010
    fPrecipMM := some precipMM, fPrecipProb := some 0
    oTemperature := some 20, oWindSpeed := some 3, oHumidity := some 50, oPressure := some 1010
    oPrecipMM := some precipMM }

/-- Thirty hours of one cell. -/
def thirtyPairs (precipMM : ℚ) : List (PairRecord ℚ) := List.replicate 30 (agreeingPair precipMM)

/-- The cell of provider `1`. -/
def sampleCell : Cell := ⟨1, 1, 60⟩

/-- A week. -/
def sampleWeek : Period := ⟨.weekly, 0, 7 * day⟩

/-- Full delivery in thirty scheduled hours. -/
def fullCounts : VariableCounts := ⟨30, 30, 30, 30, 30⟩

/-- The live rows of a cohort of one provider. Its errors do not vary, so the root is only
taken of zero and in a denominator under zero. -/
def thirtyHourRows (precipMM : ℚ) : List (MetricValue ℚ) :=
  readRows id sampleCell sampleWeek (thirtyPairs precipMM) fullCounts 30 30

theorem thirtyPairs_enoughData (precipMM : ℚ) : EnoughData sampleWeek (thirtyPairs precipMM) fullCounts 30 where
  temperature := by simp [thirtyPairs, agreeingPair, eligible]
  precipitation := by simp [thirtyPairs, agreeingPair, PairRecord.occurrenceKnown]
  coverage := by simp [fullCounts, VariableCounts.toList, coverageRankedMin]; norm_num
  days := by decide

theorem rowsOf_thirtyHourRows (precipMM : ℚ) : rowsOf (thirtyHourRows precipMM) 1 = thirtyHourRows precipMM :=
  rowsOf_readRows id sampleCell sampleWeek (thirtyPairs precipMM) fullCounts 30 30

theorem agreeingPair_recognised (precipMM : ℚ) : (agreeingPair precipMM).Recognised := by
  intro name h
  cases h

/-- With one millimetre in each hour the provider is ranked. -/
theorem wet_week_ranked :
    EnoughData sampleWeek (thirtyPairs 1) fullCounts 30 ∧
      ∃ r ∈ rankCell (thirtyHourRows 1) sampleWeek, r.providerID = 1 ∧ r.status = .ranked := by
  have hp : agreeingPair 1 ∈ thirtyPairs 1 := by simp [thirtyPairs]
  refine ⟨thirtyPairs_enoughData 1, (dry_period_ranked_iff id sampleCell sampleWeek (thirtyPairs 1) fullCounts 30 30
    (thirtyHourRows 1) (.of_eq (rowsOf_thirtyHourRows 1)) (thirtyPairs_enoughData 1)).mpr ?_⟩
  exact ⟨⟨agreeingPair 1, hp, by decide +kernel, .inr (by decide +kernel), agreeingPair_recognised 1⟩,
    agreeingPair 1, hp, by decide +kernel, agreeingPair_recognised 1⟩

/-- Without rain the same provider, with thirty exact pairs and full coverage over a week, is
unranked. -/
theorem dry_week_unranked :
    EnoughData sampleWeek (thirtyPairs 0) fullCounts 30 ∧ rowsOf (thirtyHourRows 0) 1 = thirtyHourRows 0 ∧
      (rankCell (thirtyHourRows 0) sampleWeek).map (fun r => (r.providerID, r.status)) = [(1, .unranked)] :=
  ⟨thirtyPairs_enoughData 0, rowsOf_thirtyHourRows 0, by decide +kernel⟩

end ForecastIQ.Analysis
