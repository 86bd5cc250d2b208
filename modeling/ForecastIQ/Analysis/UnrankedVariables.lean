import ForecastIQ.Analysis.DryPeriod

/-!
# The variables outside the composite

Humidity and pressure are published but not ranked: the methodology's coverage is the
minimum across the ranked variables. `buildCohort`, however, takes the minimum over
every coverage row it reads. So the humidity and pressure rows interfere with a ranking
through their coverage, and through nothing else: `unranked_rows_noninterference_iff` says
that they leave the results of a cohort alone exactly when no provider could be scored
from its ranked rows in the first place.
-/

namespace ForecastIQ.Analysis

open ForecastIQ.Foundations Eval

variable {K : Type*} [Field K] [LinearOrder K]

/-! ### Altering the rows -/

/-- The row is about a variable that the composite does not use. -/
def MetricValue.isUnranked (m : MetricValue K) : Bool := m.var = .humidity || m.var = .pressure

/-- `Altered vals vals'`: the rows `vals'` are the rows `vals` with some humidity and pressure
rows altered or removed. -/
inductive Altered : List (MetricValue K) → List (MetricValue K) → Prop where
  /-- No rows. -/
  | nil : Altered [] []
  /-- A row stays. -/
  | keep {l l'} (m : MetricValue K) : Altered l l' → Altered (m :: l) (m :: l')
  /-- A row gets another value, interval or sample count; a null value is one of them. -/
  | alter {l l'} {m m' : MetricValue K} : m.isUnranked = true → m'.providerID = m.providerID → m'.var = m.var →
      m'.metricType = m.metricType → Altered l l' → Altered (m :: l) (m' :: l')
  /-- A row is removed. -/
  | remove {l l'} {m : MetricValue K} : m.isUnranked = true → Altered l l' → Altered (m :: l) l'

/-- The rows of the ranked variables. -/
def rankedRows (vals : List (MetricValue K)) : List (MetricValue K) := vals.filter fun m => !m.isUnranked

omit [Field K] [LinearOrder K] in
theorem Altered.rankedRows_eq {vals vals' : List (MetricValue K)} (h : Altered vals vals') :
    rankedRows vals' = rankedRows vals := by
  induction h with
  | nil => rfl
  | keep m _ ih => simp only [rankedRows, List.filter_cons] at ih ⊢; rw [ih]
  | alter hm _ hv _ _ ih =>
    have hm' := hm
    rw [MetricValue.isUnranked, ← hv, ← MetricValue.isUnranked] at hm'
    simpa [rankedRows, List.filter_cons, hm, hm'] using ih
  | remove hm _ ih => simpa [rankedRows, List.filter_cons, hm] using ih

/-- Give every humidity and pressure row the value `v`. -/
def setUnranked (v : Option K) (vals : List (MetricValue K)) : List (MetricValue K) :=
  vals.map fun m => if m.isUnranked then { m with value := v } else m

omit [Field K] [LinearOrder K] in
theorem altered_setUnranked (v : Option K) : ∀ vals : List (MetricValue K), Altered vals (setUnranked v vals)
  | [] => .nil
  | m :: vals => by
    by_cases hm : m.isUnranked = true
    · rw [setUnranked, List.map_cons, if_pos hm]
      exact .alter hm rfl rfl rfl (altered_setUnranked v vals)
    · rw [setUnranked, List.map_cons, if_neg hm]
      exact .keep m (altered_setUnranked v vals)

omit [Field K] [LinearOrder K] in
theorem rowsOf_setUnranked (v : Option K) (vals : List (MetricValue K)) (id : ℕ) :
    rowsOf (setUnranked v vals) id = setUnranked v (rowsOf vals id) := by
  rw [rowsOf, setUnranked, List.filter_map]
  refine congrArg (List.map _) (List.filter_congr fun m _ => ?_)
  simp only [Function.comp]
  split <;> rfl

/-! ### What a status takes from the ranked rows -/

omit [Field K] [LinearOrder K] in
/-- The sample count of a ranked variable comes from the ranked rows. -/
theorem lastSample_rankedRows {var : EvalVariable} (hh : var ≠ .humidity) (hp : var ≠ .pressure) (t : MetricType)
    (d : ℕ) (vals : List (MetricValue K)) (id : ℕ) :
    lastSample var t d (rowsOf (rankedRows vals) id) = lastSample var t d (rowsOf vals id) := by
  simp only [lastSample, rowsOf, rankedRows, List.filter_filter]
  refine congrArg (List.foldl _ d) (List.filter_congr fun m _ => ?_)
  by_cases hv : m.var = var
  · have hm : m.isUnranked = false := by simp [MetricValue.isUnranked, hv, hh, hp]
    simp [hm]
  · simp [hv]

omit [Field K] [LinearOrder K] in
theorem mem_coveragesOf {rows : List (MetricValue K)} {c : K} :
    c ∈ coveragesOf rows ↔ ∃ m ∈ rows, m.metricType = .coverage ∧ m.value = some c := by
  simp [coveragesOf, Option.mem_toList, and_assoc]

omit [Field K] [LinearOrder K] in
/-- The known coverages of the ranked rows are among those of all rows. -/
theorem mem_coveragesOf_of_rankedRows {vals : List (MetricValue K)} {id : ℕ} {c : K}
    (h : c ∈ coveragesOf (rowsOf (rankedRows vals) id)) : c ∈ coveragesOf (rowsOf vals id) := by
  obtain ⟨m, hm, hc⟩ := mem_coveragesOf.mp h
  simp only [rowsOf, rankedRows, List.mem_filter] at hm
  exact mem_coveragesOf.mpr ⟨m, List.mem_filter.mpr ⟨hm.1.1, hm.2⟩, hc⟩

omit [Field K] [LinearOrder K] in
/-- Once the unranked rows have the value `v`, a known coverage is `v` or one of a ranked row. -/
theorem mem_coveragesOf_setUnranked {v c : K} {vals : List (MetricValue K)} {id : ℕ}
    (h : c ∈ coveragesOf (rowsOf (setUnranked (some v) vals) id)) :
    c = v ∨ c ∈ coveragesOf (rowsOf (rankedRows vals) id) := by
  obtain ⟨m', hm', ht, hv⟩ := mem_coveragesOf.mp h
  rw [rowsOf_setUnranked, setUnranked, List.mem_map] at hm'
  obtain ⟨m, hm, rfl⟩ := hm'
  split_ifs at ht hv with hu
  · exact .inl (Option.some.inj hv).symm
  · refine .inr (mem_coveragesOf.mpr ⟨m, ?_, ht, hv⟩)
    simp only [rowsOf, rankedRows, List.mem_filter] at hm ⊢
    exact ⟨⟨hm.1, by simpa using hu⟩, hm.2⟩

/-- Enough samples, and no known coverage below the floor. -/
def Scorable (rows : List (MetricValue K)) : Prop :=
  10 ≤ lastSample .temperature .mae 0 rows ∧ 10 ≤ lastSample .precipitation .f1 0 rows ∧
    ∀ c ∈ coveragesOf rows, coverageFloor ≤ c

section Ordered

variable [IsStrictOrderedRing K]

theorem status_ofRows_eq_unranked_iff (id : ℕ) (days : ℤ) (rows : List (MetricValue K)) :
    status (ProviderInput.ofRows id days rows) = .unranked ↔ ¬ (Scorable rows ∧ coveragesOf rows ≠ []) := by
  have hfloor : (0 : K) < coverageFloor := by rw [coverageFloor]; norm_num
  have hst : ∀ p : ProviderInput K, status p = .unranked ↔
      p.tempSampleCount < 10 ∨ p.precipSampleCount < 10 ∨ deref p.coverage < coverageFloor := by
    intro p
    simp only [status]
    split_ifs with h1 h2 <;> simp [h1]
  rw [hst, ofRows_tempSampleCount, ofRows_precipSampleCount, ofRows_coverage, deref_minCoverage_lt_iff hfloor,
    Scorable]
  simp only [not_and_or, not_le, not_forall, not_not, exists_prop, ← or_assoc]
  constructor <;> rintro (((h | h) | h) | h) <;> simp [h]

omit [IsStrictOrderedRing K] in
/-- What can be scored from all rows can be scored from the ranked ones. -/
theorem Scorable.rankedRows {vals : List (MetricValue K)} {id : ℕ} (h : Scorable (rowsOf vals id)) :
    Scorable (rowsOf (rankedRows vals) id) := by
  obtain ⟨ht, hp, hc⟩ := h
  refine ⟨?_, ?_, fun c hmem => hc c (mem_coveragesOf_of_rankedRows hmem)⟩
  · rwa [lastSample_rankedRows (by decide) (by decide)]
  · rwa [lastSample_rankedRows (by decide) (by decide)]

/-! ### Interference -/

/-- What is published of a ranking: the provider, status, composite and interval. -/
def ProviderRanking.result (r : ProviderRanking K) : ℕ × RankingStatus × Option K × Option K × Option K :=
  (r.providerID, r.status, r.compositeScore, r.ciLower, r.ciUpper)

/-- The rank order, by provider. -/
def providerOrder (rankings : List (ProviderRanking K)) : List (List ℕ) :=
  (rankOrder rankings).map fun group => group.map ProviderRanking.providerID

/-- Both sets of rows give every provider the same result, and all the same rank order. -/
def SameResults (period : Period) (vals vals' : List (MetricValue K)) : Prop :=
  (∀ x, x ∈ (rankCell vals period).map ProviderRanking.result ↔
      x ∈ (rankCell vals' period).map ProviderRanking.result) ∧
    providerOrder (rankCell vals period) = providerOrder (rankCell vals' period)

/-- Every provider of the cohort has the rows that `computeRows` writes for it, of which two
matter here. -/
structure Published (vals : List (MetricValue K)) : Prop where
  humidityCoverage : ∀ m ∈ vals, ∃ c ∈ vals,
    c.providerID = m.providerID ∧ c.var = .humidity ∧ c.metricType = .coverage
  temperatureMAE : ∀ m ∈ vals, ∃ t ∈ vals,
    t.providerID = m.providerID ∧ t.var = .temperature ∧ t.metricType = .mae

omit [IsStrictOrderedRing K] in
/-- Rows that `computeRows` wrote, in any order, are such rows. -/
theorem published_of_readRows {vals : List (MetricValue K)}
    (h : ∀ id ∈ vals.map MetricValue.providerID, ∃ sqrt cell period pairs counts scheduled success,
      (rowsOf vals id).Perm (readRows sqrt cell period pairs counts scheduled success)) : Published vals := by
  have key : ∀ var t, (∀ (sqrt : K → K) cell period pairs counts scheduled success,
      ∃ c ∈ readRows sqrt cell period pairs counts scheduled success, c.var = var ∧ c.metricType = t) →
      ∀ m ∈ vals, ∃ c ∈ vals, c.providerID = m.providerID ∧ c.var = var ∧ c.metricType = t := by
    intro var t hrow m hm
    obtain ⟨sqrt, cell, period, pairs, counts, scheduled, success, hp⟩ := h _ (List.mem_map_of_mem hm)
    obtain ⟨c, hc, hv⟩ := hrow sqrt cell period pairs counts scheduled success
    obtain ⟨hmem, hid⟩ := List.mem_filter.mp (hp.mem_iff.mpr hc)
    exact ⟨c, hmem, of_decide_eq_true hid, hv⟩
  constructor <;> refine key _ _ fun sqrt cell period pairs counts scheduled success => ?_ <;>
    simp [readRows, computeRows, accumulatedRows, continuousRows, ratelessRow, metric, AccuracyMetric.toMetricValue]

omit [Field K] [LinearOrder K] [IsStrictOrderedRing K] in
/-- No provider is added by altering rows, and none is lost that has a ranked row. -/
theorem Altered.mem_providers_iff {vals vals' : List (MetricValue K)} (h : Altered vals vals') (hp : Published vals)
    (id : ℕ) : id ∈ vals'.map MetricValue.providerID ↔ id ∈ vals.map MetricValue.providerID := by
  constructor
  · intro hid
    clear hp
    induction h with
    | nil => exact hid
    | keep m _ ih =>
      rw [List.map_cons, List.mem_cons] at hid ⊢
      exact hid.imp_right ih
    | alter _ hpid _ _ _ ih =>
      rw [List.map_cons, List.mem_cons] at hid ⊢
      exact hid.imp (fun h => h.trans hpid) ih
    | remove _ _ ih => exact List.mem_cons_of_mem _ (ih hid)
  · intro hid
    obtain ⟨m, hm, rfl⟩ := List.mem_map.mp hid
    obtain ⟨t, ht, hid, hv, -⟩ := hp.temperatureMAE m hm
    have hr : t ∈ rankedRows vals := List.mem_filter.mpr ⟨ht, by simp [MetricValue.isUnranked, hv]⟩
    rw [← h.rankedRows_eq] at hr
    exact List.mem_map.mpr ⟨t, (List.mem_filter.mp hr).1, hid⟩

/-- When no provider can be scored from its ranked rows, every result is empty. -/
theorem mem_result_of_not_scorable {vals : List (MetricValue K)} {period : Period}
    (h : ∀ id ∈ vals.map MetricValue.providerID, ¬ Scorable (rowsOf (rankedRows vals) id))
    (x : ℕ × RankingStatus × Option K × Option K × Option K) :
    x ∈ (rankCell vals period).map ProviderRanking.result ↔
      ∃ id ∈ vals.map MetricValue.providerID, x = (id, .unranked, none, none, none) := by
  have hst : ∀ id ∈ vals.map MetricValue.providerID,
      status (ProviderInput.ofRows id (calendarDays period) (rowsOf vals id)) = .unranked := fun id hid =>
    (status_ofRows_eq_unranked_iff _ _ _).mpr fun hs => h id hid hs.1.rankedRows
  have hres : ∀ cohort id, id ∈ vals.map MetricValue.providerID →
      (rankProvider cohort (ProviderInput.ofRows id (calendarDays period) (rowsOf vals id))).result =
        (id, .unranked, none, none, none) := by
    intro cohort id hid
    simp only [ProviderRanking.result, rankProvider, hst id hid]
    simp [ProviderInput.ofRows, CohortAcc.toInput]
  rw [List.mem_map]
  constructor
  · rintro ⟨r, hr, rfl⟩
    obtain ⟨hid, he⟩ := mem_rankCohort_buildCohort.mp hr
    exact ⟨r.providerID, hid, by rw [← hres _ _ hid, ← he]⟩
  · rintro ⟨id, hid, rfl⟩
    exact ⟨rankProvider (buildCohort vals (calendarDays period))
        (ProviderInput.ofRows id (calendarDays period) (rowsOf vals id)),
      mem_rankCohort_buildCohort.mpr ⟨hid, rfl⟩, hres _ _ hid⟩

omit [IsStrictOrderedRing K] in
/-- Without a scored provider the rank order is empty. -/
theorem providerOrder_eq_nil {rankings : List (ProviderRanking K)} (h : ∀ r ∈ rankings, r.compositeScore = none) :
    providerOrder rankings = [] := by
  have hf : rankings.filter (fun r => r.compositeScore.isSome) = [] :=
    List.filter_eq_nil_iff.mpr fun r hr => by simp [h r hr]
  simp [providerOrder, rankOrder, hf]

theorem providerOrder_of_not_scorable {vals : List (MetricValue K)} {period : Period}
    (h : ∀ id ∈ vals.map MetricValue.providerID, ¬ Scorable (rowsOf (rankedRows vals) id)) :
    providerOrder (rankCell vals period) = [] := by
  refine providerOrder_eq_nil fun r hr => ?_
  obtain ⟨id, -, he⟩ := (mem_result_of_not_scorable h _).mp (List.mem_map_of_mem hr)
  exact congrArg (fun x => x.2.2.1) he

/-- A provider that can be scored from its ranked rows is unranked or not, as its humidity
coverage is zero or one. -/
theorem exists_unranked_setUnranked_iff {vals : List (MetricValue K)} (hp : Published vals) (period : Period)
    {id : ℕ} (hid : id ∈ vals.map MetricValue.providerID) (hs : Scorable (rowsOf (rankedRows vals) id)) {v : K} :
    (∃ r ∈ rankCell (setUnranked (some v) vals) period, r.providerID = id ∧ r.status = .unranked) ↔
      v < coverageFloor := by
  have halt := altered_setUnranked (some v) vals
  -- the value of the altered humidity row is one of the provider's coverages
  have hv : v ∈ coveragesOf (rowsOf (setUnranked (some v) vals) id) := by
    obtain ⟨m, hm, rfl⟩ := List.mem_map.mp hid
    obtain ⟨c, hc, hcid, hvar, ht⟩ := hp.humidityCoverage m hm
    have hu : c.isUnranked = true := by simp [MetricValue.isUnranked, hvar]
    rw [rowsOf_setUnranked]
    refine mem_coveragesOf.mpr ⟨{ c with value := some v }, List.mem_map.mpr ⟨c, ?_, by rw [if_pos hu]⟩, ht, rfl⟩
    exact List.mem_filter.mpr ⟨hc, decide_eq_true hcid⟩
  have hscor : Scorable (rowsOf (setUnranked (some v) vals) id) ↔ coverageFloor ≤ v := by
    have hsample : ∀ {var}, var ≠ .humidity → var ≠ .pressure → ∀ t,
        lastSample var t 0 (rowsOf (setUnranked (some v) vals) id) =
          lastSample var t 0 (rowsOf (rankedRows vals) id) := fun hh hpr t => by
      rw [← halt.rankedRows_eq, lastSample_rankedRows hh hpr]
    constructor
    · exact fun h => h.2.2 v hv
    · refine fun hle => ⟨?_, ?_, fun c hc => ?_⟩
      · rw [hsample (by decide) (by decide)]; exact hs.1
      · rw [hsample (by decide) (by decide)]; exact hs.2.1
      · rcases mem_coveragesOf_setUnranked hc with rfl | hc
        · exact hle
        · exact hs.2.2 c hc
  rw [rankCell, exists_ranking_iff, status_ofRows_eq_unranked_iff, hscor, halt.mem_providers_iff hp,
    and_iff_right hid, and_iff_left (List.ne_nil_of_mem hv), not_le]

/-- **The humidity and pressure rows leave the results of a cohort alone exactly when nothing
can be scored from its ranked rows**: for every other cohort some altered humidity and
pressure rows change a status. -/
theorem unranked_rows_noninterference_iff (period : Period) (vals : List (MetricValue K)) (hp : Published vals) :
    (∀ vals', Altered vals vals' → SameResults period vals vals') ↔
      ∀ id ∈ vals.map MetricValue.providerID, ¬ Scorable (rowsOf (rankedRows vals) id) := by
  constructor
  · intro h id hid hs
    -- a result that is the same before and after two alterations is the same after both
    have hiff : ∀ v : K, (∃ r ∈ rankCell vals period, r.providerID = id ∧ r.status = .unranked) ↔
        v < coverageFloor := by
      intro v
      rw [← exists_unranked_setUnranked_iff hp period hid hs]
      have hsame := (h _ (altered_setUnranked (some v) vals)).1
      constructor <;> rintro ⟨r, hr, hrid, hst⟩
      · obtain ⟨r', hr', he⟩ := List.mem_map.mp ((hsame r.result).mp (List.mem_map_of_mem hr))
        simp only [ProviderRanking.result, Prod.mk.injEq] at he
        exact ⟨r', hr', he.1.trans hrid, he.2.1.trans hst⟩
      · obtain ⟨r', hr', he⟩ := List.mem_map.mp ((hsame r.result).mpr (List.mem_map_of_mem hr))
        simp only [ProviderRanking.result, Prod.mk.injEq] at he
        exact ⟨r', hr', he.1.trans hrid, he.2.1.trans hst⟩
    have h01 : (0 : K) < coverageFloor ↔ (1 : K) < coverageFloor := (hiff 0).symm.trans (hiff 1)
    rw [coverageFloor] at h01
    norm_num at h01
  · intro h vals' halt
    have h' : ∀ id ∈ vals'.map MetricValue.providerID, ¬ Scorable (rowsOf (rankedRows vals') id) := by
      intro id hid
      rw [halt.rankedRows_eq]
      exact h id ((halt.mem_providers_iff hp id).mp hid)
    refine ⟨fun x => ?_, by rw [providerOrder_of_not_scorable h, providerOrder_of_not_scorable h']⟩
    rw [mem_result_of_not_scorable h, mem_result_of_not_scorable h']
    simp only [halt.mem_providers_iff hp]

end Ordered

/-! ### A provider without humidity -/

theorem thirtyHourRows_published (precipMM : ℚ) : Published (thirtyHourRows precipMM) := by
  refine published_of_readRows fun pid hpid =>
    ⟨id, sampleCell, sampleWeek, thirtyPairs precipMM, fullCounts, 30, 30, .of_eq ?_⟩
  obtain ⟨m, hm, rfl⟩ := List.mem_map.mp hpid
  rw [← rowsOf_thirtyHourRows, rowsOf, List.mem_filter] at hm
  rw [of_decide_eq_true hm.2]
  exact rowsOf_thirtyHourRows precipMM

/-- Nothing can be scored in a dry week, so there the humidity and pressure rows do not matter. -/
theorem dry_week_noninterference :
    Published (thirtyHourRows 0) ∧
      ∀ vals', Altered (thirtyHourRows 0) vals' → SameResults sampleWeek (thirtyHourRows 0) vals' := by
  refine ⟨thirtyHourRows_published 0,
    (unranked_rows_noninterference_iff sampleWeek (thirtyHourRows 0) (thirtyHourRows_published 0)).mpr ?_⟩
  rintro pid hpid ⟨-, hf1, -⟩
  obtain ⟨m, hm, rfl⟩ := List.mem_map.mp hpid
  rw [← rowsOf_thirtyHourRows, rowsOf, List.mem_filter] at hm
  rw [of_decide_eq_true hm.2] at hf1
  exact absurd hf1 (by decide +kernel)

/-- A provider ranked in a wet week is unranked once no humidity or pressure is delivered. -/
theorem missing_humidity_unranks :
    Altered (thirtyHourRows 1) (setUnranked (some 0) (thirtyHourRows 1)) ∧
      (rankCell (thirtyHourRows 1) sampleWeek).map (fun r => (r.providerID, r.status)) = [(1, .ranked)] ∧
      (rankCell (setUnranked (some 0) (thirtyHourRows 1)) sampleWeek).map (fun r => (r.providerID, r.status)) =
        [(1, .unranked)] :=
  ⟨altered_setUnranked _ _, by decide +kernel, by decide +kernel⟩

end ForecastIQ.Analysis
