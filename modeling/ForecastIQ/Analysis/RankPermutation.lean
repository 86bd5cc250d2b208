import ForecastIQ.Analysis.Composite

/-!
# The order of the rows

`ReadCohortMetrics` returns the rows of a cell in no particular order, and `buildCohort` reads them
one after the other into maps. With at most one row for each provider, variable and metric
type, each entry of the maps is written by one row at most (`record_values`,
`record_ciHalf`), and the coverages are only asked for their minimum. So the order decides
nothing but the order of the cohort (`buildCohort_perm`), and that nothing but the order in
which the rankings are listed (`rankCohort_perm`).
-/

namespace ForecastIQ.Analysis

open ForecastIQ.Foundations Eval

variable {K : Type*} [Field K] [LinearOrder K]

/-! ### The row that writes an entry -/

/-- The variable and type of the row that a component's value is read from; the coverage is set
after the rows are read. -/
def ComponentKey.source : ComponentKey → Option (EvalVariable × MetricType)
  | .tempMAE => some (.temperature, .mae)
  | .precipF1 => some (.precipitation, .f1)
  | .rainMAEAll => some (.precipitation, .rainMAEAll)
  | .windMAE => some (.windSpeed, .mae)
  | .tempBiasAbs => some (.temperature, .bias)
  | .coverage => none
  | .reliability => some (.all, .reliability)

/-- What a row leaves under the component it is the source of. -/
def ComponentKey.read (key : ComponentKey) (old : Option K) (m : MetricValue K) : Option K :=
  if key = .tempBiasAbs then
    match m.value with
    | some v => some |v|
    | none => old
  else m.value

theorem record_values (key : ComponentKey) (a : CohortAcc K) (m : MetricValue K) :
    (a.record m).values key =
      if decide (key.source = some (m.var, m.metricType)) then key.read (a.values key) m else a.values key := by
  obtain ⟨id, v, t, val, lo, hi, n⟩ := m
  cases val <;> cases key <;> cases v <;> cases t <;> rfl

theorem record_ciHalf (key : ComponentKey) (a : CohortAcc K) (m : MetricValue K) :
    (a.record m).ciHalf key =
      if decide (key ≠ .reliability ∧ key.source = some (m.var, m.metricType)) then m.halfOf else a.ciHalf key := by
  obtain ⟨id, v, t, val, lo, hi, n⟩ := m
  cases key <;> cases v <;> cases t <;> rfl

/-! ### The input of one provider -/

/-- The provider, variable and type of a row. -/
def MetricValue.rowKey (m : MetricValue K) : ℕ × EvalVariable × MetricType := (m.providerID, m.var, m.metricType)

section Provider

variable {vals vals' : List (MetricValue K)} (h : vals.Perm vals') (hkeys : (vals'.map MetricValue.rowKey).Nodup)

include h hkeys

/-- What one row of a provider writes at most is the same for every order of the rows. -/
theorem foldl_record_perm {γ : Type*} (f : CohortAcc K → γ) (g : γ → MetricValue K → γ) {q : MetricValue K → Bool}
    (hf : ∀ a m, f (a.record m) = if q m then g (f a) m else f a)
    (hq : ∀ m m', q m = true → q m' = true → (m.var, m.metricType) = (m'.var, m'.metricType)) (id : ℕ) :
    f ((rowsOf vals id).foldl CohortAcc.record .empty) = f ((rowsOf vals' id).foldl CohortAcc.record .empty) := by
  have hone : ((rowsOf vals' id).filter q).length ≤ 1 := by
    rw [rowsOf, List.filter_filter]
    refine length_filter_le_one hkeys fun m m' hm hm' => ?_
    rw [Bool.and_eq_true, decide_eq_true_eq] at hm hm'
    rw [MetricValue.rowKey, MetricValue.rowKey, hm.2, hm'.2, hq m m' hm.1 hm'.1]
  have hperm : (rowsOf vals id).Perm (rowsOf vals' id) := h.filter _
  rw [foldl_written g hf, foldl_written g hf, filter_eq_of_perm hperm hone]

/-- **The input made from a provider's rows does not depend on their order.** -/
theorem ofRows_perm (id : ℕ) (days : ℤ) :
    ProviderInput.ofRows id days (rowsOf vals id) = ProviderInput.ofRows id days (rowsOf vals' id) := by
  have hsource : ∀ (s : Option (EvalVariable × MetricType)) (m m' : MetricValue K),
      s = some (m.var, m.metricType) → s = some (m'.var, m'.metricType) →
        (m.var, m.metricType) = (m'.var, m'.metricType) :=
    fun s m m' hm hm' => Option.some.inj (hm.symm.trans hm')
  have hvalues : ((rowsOf vals id).foldl CohortAcc.record .empty).values =
      ((rowsOf vals' id).foldl CohortAcc.record .empty).values := by
    funext key
    refine foldl_record_perm h hkeys (fun a => a.values key) key.read (record_values key) (fun m m' hm hm' => ?_) id
    exact hsource _ m m' (of_decide_eq_true hm) (of_decide_eq_true hm')
  have hhalf : ((rowsOf vals id).foldl CohortAcc.record .empty).ciHalf =
      ((rowsOf vals' id).foldl CohortAcc.record .empty).ciHalf := by
    funext key
    refine foldl_record_perm h hkeys (fun a => a.ciHalf key) (fun _ m => m.halfOf) (record_ciHalf key)
      (fun m m' hm hm' => ?_) id
    exact hsource _ m m' (of_decide_eq_true hm).2 (of_decide_eq_true hm').2
  have hpair : ∀ {var : EvalVariable} {t : MetricType} (m m' : MetricValue K),
      decide (m.var = var ∧ m.metricType = t) = true → decide (m'.var = var ∧ m'.metricType = t) = true →
        (m.var, m.metricType) = (m'.var, m'.metricType) := by
    intro var t m m' hm hm'
    rw [decide_eq_true_eq] at hm hm'
    rw [hm.1, hm.2, hm'.1, hm'.2]
  have htemp := foldl_record_perm h hkeys CohortAcc.tempSample (fun _ m => m.sampleCount) record_tempSample hpair id
  have hprecip := foldl_record_perm h hkeys CohortAcc.precipSample (fun _ m => m.sampleCount) record_precipSample
    hpair id
  have hcov : minCoverage ((rowsOf vals id).foldl CohortAcc.record .empty).coverages =
      minCoverage ((rowsOf vals' id).foldl CohortAcc.record .empty).coverages := by
    rw [foldl_record_coverages, foldl_record_coverages]
    exact minCoverage_perm ((coveragesOf_perm (h.filter _)).append_left _)
  simp only [ProviderInput.ofRows, CohortAcc.toInput, hvalues, hhalf, htemp, hprecip, hcov]

end Provider

/-! ### The cohort -/

theorem nodup_buildCohort (vals : List (MetricValue K)) (days : ℤ) :
    ((buildCohort vals days).map ProviderInput.providerID).Nodup := by
  rw [buildCohort, List.map_map]
  exact nodup_keys_groupFold _ _ _ vals

/-- **The order of the rows only decides the order of the inputs.** -/
theorem buildCohort_perm {vals vals' : List (MetricValue K)} (h : vals.Perm vals')
    (hkeys : (vals'.map MetricValue.rowKey).Nodup) (days : ℤ) :
    (buildCohort vals days).Perm (buildCohort vals' days) := by
  refine (List.perm_ext_iff_of_nodup (nodup_buildCohort vals days).of_map (nodup_buildCohort vals' days).of_map).mpr ?_
  intro p
  rw [mem_buildCohort, mem_buildCohort, (h.map MetricValue.providerID).mem_iff, ofRows_perm h hkeys]

section Cohort

variable {cohort cohort' : List (ProviderInput K)} (h : cohort.Perm cohort')

include h

/-- A provider's ranking does not depend on the order of the cohort. -/
theorem rankProvider_perm (p : ProviderInput K) : rankProvider cohort p = rankProvider cohort' p := by
  have hactive : active cohort = active cohort' := by
    funext key
    rw [active, active, h.isEmpty_eq, h.all_eq]
  have hbest : bestShift cohort = bestShift cohort' := by
    funext c
    have hcol : (cohort.map fun p => deref (p.values c.key)).Perm (cohort'.map fun p => deref (p.values c.key)) :=
      h.map _
    simp only [bestShift, minOf_perm hcol, maxOf_perm hcol]
  have hadd : Composite.addComponent cohort p = Composite.addComponent cohort' p := by
    funext r c
    simp only [Composite.addComponent, activeWeight, hactive, hbest]
  have hcomposite : compositeOf cohort p = compositeOf cohort' p := by rw [compositeOf, compositeOf, hadd]
  rw [rankProvider, rankProvider, hcomposite]

theorem rankCohort_perm : (rankCohort cohort).Perm (rankCohort cohort') := by
  rw [rankCohort, rankCohort, funext (rankProvider_perm h)]
  exact h.map _

end Cohort

/-- **The order of the rows only decides the order of the rankings**: with at most one row for each
provider, variable and metric type, every provider keeps its status, score, interval and
breakdown. -/
theorem rankCell_perm {vals vals' : List (MetricValue K)} (h : vals.Perm vals')
    (hkeys : (vals.map MetricValue.rowKey).Nodup) (period : Period) :
    (rankCell vals period).Perm (rankCell vals' period) :=
  rankCohort_perm (buildCohort_perm h ((h.map _).nodup_iff.mp hkeys) _)

/-- Two providers' rows, read backwards. -/
theorem rankCell_reverse :
    ((thirtyHourRows 1 ++ nullRows).map MetricValue.rowKey).Nodup ∧
      (rankCell (thirtyHourRows 1 ++ nullRows) sampleWeek).Perm
        (rankCell (thirtyHourRows 1 ++ nullRows).reverse sampleWeek) := by
  have hkeys : ((thirtyHourRows 1 ++ nullRows).map MetricValue.rowKey).Nodup := by decide +kernel
  exact ⟨hkeys, rankCell_perm (List.reverse_perm _).symm hkeys sampleWeek⟩

end ForecastIQ.Analysis
