import ForecastIQ.Analysis.DryPeriod
import ForecastIQ.Foundations.Supersession

/-!
# Publishing metrics and rankings

`aggregateCellPeriod` and `RankPeriod` write their rows in one transaction for each cell:
insert the new rows, then for each of them run `SupersedePrevious` or
`SupersedePreviousRankings`, which point the other live rows with its logical key to it.
The indexes on the live rows are not unique, and the transactions are READ COMMITTED.

Any number of analysis runs (slots that are executed in parallel, a recomputation that
an administrator asks for) publish at the same time; here their transactions are
interleaved in any way, with any batches the two services can write. The tables keep one
live row for each logical key as long as no `UPDATE` starts while another transaction
holds an uncommitted row with its key (`single_live_row`); otherwise two rows can stay
live for good (`overlapping_publications_both_live`).
-/

namespace ForecastIQ.Analysis

open ForecastIQ.Foundations ForecastIQ.Foundations.Supersession

variable {K : Type*} [Field K] [LinearOrder K]

/-! ### The rows -/

/-- `WeightsVersion`. -/
def weightsVersion : String := "w-2026.1"

/-- `ProfileUniform`. -/
def profileUniform : String := "uniform"

/-- `RankingRow`, without its identifier. -/
structure RankingRow (K : Type*) where
  providerID : ℕ
  locationID : ℕ
  horizonMinutes : ℤ
  compositeScore : Option K
  ciLower : Option K
  ciUpper : Option K
  status : RankingStatus
  sampleCount : ℕ
  coverage : Option K
  reliability : Option K
  componentScores : List (ComponentScore K)
  methodologyVersion : String
  weightsVersion : String
  horizonProfile : String
  periodStart : ℤ
  periodEnd : ℤ

/-- `LocationHorizon`: the cell of a cohort. -/
structure LocationHorizon where
  locationID : ℕ
  horizonMinutes : ℤ
  deriving DecidableEq, Repr

/-- `toRow`. -/
def toRow (r : ProviderRanking K) (cell : LocationHorizon) (period : Period) : RankingRow K where
  providerID := r.providerID
  locationID := cell.locationID
  horizonMinutes := cell.horizonMinutes
  compositeScore := r.compositeScore
  ciLower := r.ciLower
  ciUpper := r.ciUpper
  status := r.status
  sampleCount := r.sampleCount
  coverage := r.coverage
  reliability := r.reliability
  componentScores := r.componentScores
  methodologyVersion := methodologyVersion
  weightsVersion := weightsVersion
  horizonProfile := profileUniform
  periodStart := period.start
  periodEnd := period.stop

/-- A row of `accuracy_metrics` or of `provider_rankings`. -/
inductive PublishedRow (K : Type*) where
  | metric (m : AccuracyMetric K)
  | ranking (r : RankingRow K)

/-- The columns that the two `UPDATE`s compare. -/
inductive LogicalKey where
  | metric (providerID locationID : ℕ) (horizonMinutes : ℤ) (var : EvalVariable) (metricType : MetricType)
      (periodStart periodEnd : ℤ)
  | ranking (providerID locationID : ℕ) (horizonMinutes : ℤ) (horizonProfile : String) (periodStart periodEnd : ℤ)
  deriving DecidableEq, Repr

/-- The logical key of a row, with its table. -/
def PublishedRow.key : PublishedRow K → LogicalKey
  | .metric m => .metric m.providerID m.locationID m.horizonMinutes m.var m.metricType m.periodStart m.periodEnd
  | .ranking r => .ranking r.providerID r.locationID r.horizonMinutes r.horizonProfile r.periodStart r.periodEnd

/-- The key is that of a metric row of the cell and period. -/
def LogicalKey.isOf (cell : Cell) (period : Period) : LogicalKey → Bool
  | .metric providerID locationID horizonMinutes _ _ periodStart periodEnd =>
    (⟨providerID, locationID, horizonMinutes⟩ : Cell) = cell ∧ periodStart = period.start ∧ periodEnd = period.stop
  | .ranking .. => false

/-- A metric row belongs to one cell and one window. -/
theorem LogicalKey.isOf_unique {k : LogicalKey} {cell cell' : Cell} {period period' : Period}
    (h : k.isOf cell period = true) (h' : k.isOf cell' period' = true) :
    cell = cell' ∧ period.start = period'.start ∧ period.stop = period'.stop := by
  cases k with
  | metric p l z var type a b =>
    simp only [isOf, decide_eq_true_eq] at h h'
    exact ⟨h.1.symm.trans h'.1, h.2.1.symm.trans h'.2.1, h.2.2.symm.trans h'.2.2⟩
  | ranking p l z profile a b => cases h

/-! ### The batches -/

/-- What `aggregateCellPeriod` writes in its transaction. -/
def metricBatch (sqrt : K → K) (cell : Cell) (period : Period) (pairs : List (PairRecord K)) (counts : VariableCounts)
    (scheduled success : ℕ) : List (PublishedRow K) :=
  (computeRows sqrt cell period pairs counts scheduled success).map .metric

/-- What `RankPeriod` writes in the transaction of a cell. -/
def rankingBatch (vals : List (MetricValue K)) (cell : LocationHorizon) (period : Period) : List (PublishedRow K) :=
  (rankCell vals period).map fun r => .ranking (toRow r cell period)

/-- The batches of the two services. -/
inductive IsPublication : List (PublishedRow K) → Prop where
  | metrics (sqrt : K → K) (cell : Cell) (period : Period) (pairs : List (PairRecord K)) (counts : VariableCounts)
      (scheduled success : ℕ) : IsPublication (metricBatch sqrt cell period pairs counts scheduled success)
  | rankings (vals : List (MetricValue K)) (cell : LocationHorizon) (period : Period) :
      IsPublication (rankingBatch vals cell period)

/-- The variables and types of the metric rows, in order. -/
def rowTypes : List (EvalVariable × MetricType) :=
  let continuous : List EvalVariable := [.temperature, .windSpeed, .humidity, .pressure]
  let rain : List MetricType :=
    [.rainMAEAll, .rainMAEWet, .recall, .precision, .f1, .far, .threatScore, .occurrenceAgreement, .brier]
  (continuous.flatMap fun var => [(var, .mae), (var, .rmse), (var, .bias)]) ++ rain.map (Prod.mk .precipitation) ++
    (continuous ++ [EvalVariable.precipitation]).map (·, .coverage) ++ [(.all, .reliability)]

theorem computeRows_types (sqrt : K → K) (cell : Cell) (period : Period) (pairs : List (PairRecord K))
    (counts : VariableCounts) (scheduled success : ℕ) :
    (computeRows sqrt cell period pairs counts scheduled success).map (fun m => (m.var, m.metricType)) = rowTypes := by
  simp [computeRows, accumulatedRows, continuousRows, ratelessRow, metric, rowTypes]

/-- The keys of a batch of metrics: those of the cell and window, with the types above. -/
theorem mem_keys_metricBatch {sqrt : K → K} {cell : Cell} {period : Period} {pairs : List (PairRecord K)}
    {counts : VariableCounts} {scheduled success : ℕ} {k : LogicalKey} :
    k ∈ (metricBatch sqrt cell period pairs counts scheduled success).map PublishedRow.key ↔
      ∃ t ∈ rowTypes,
        k = .metric cell.providerID cell.locationID cell.horizonMinutes t.1 t.2 period.start period.stop := by
  rw [metricBatch, List.map_map, ← computeRows_types sqrt cell period pairs counts scheduled success]
  have hkey : ∀ m ∈ computeRows sqrt cell period pairs counts scheduled success, (PublishedRow.metric m).key =
      .metric cell.providerID cell.locationID cell.horizonMinutes m.var m.metricType period.start period.stop := by
    intro m hm
    obtain ⟨hcell, hstart, hstop⟩ := computeRows_isOf sqrt cell period pairs counts scheduled success m hm
    rw [PublishedRow.key, hstart, hstop, ← hcell]
  constructor
  · intro hk
    obtain ⟨m, hm, rfl⟩ := List.mem_map.mp hk
    exact ⟨(m.var, m.metricType), List.mem_map.mpr ⟨m, hm, rfl⟩, hkey m hm⟩
  · rintro ⟨t, ht, rfl⟩
    obtain ⟨m, hm, rfl⟩ := List.mem_map.mp ht
    exact List.mem_map.mpr ⟨m, hm, hkey m hm⟩

theorem metricBatch_nodup (sqrt : K → K) (cell : Cell) (period : Period) (pairs : List (PairRecord K))
    (counts : VariableCounts) (scheduled success : ℕ) :
    ((metricBatch sqrt cell period pairs counts scheduled success).map PublishedRow.key).Nodup := by
  rw [metricBatch, List.map_map]
  -- two rows of a batch differ in the variable or in the type
  refine List.Nodup.of_map (fun k => match k with
    | .metric _ _ _ var type _ _ => (var, type)
    | .ranking .. => (.all, .mae)) ?_
  rw [List.map_map]
  change ((computeRows sqrt cell period pairs counts scheduled success).map fun m => (m.var, m.metricType)).Nodup
  rw [computeRows_types]
  decide

theorem rankingBatch_nodup (vals : List (MetricValue K)) (cell : LocationHorizon) (period : Period) :
    ((rankingBatch vals cell period).map PublishedRow.key).Nodup := by
  rw [rankingBatch, List.map_map]
  -- a cohort has one ranking for each provider
  refine List.Nodup.of_map (fun k => match k with
    | .metric id .. => id
    | .ranking id .. => id) ?_
  rw [List.map_map, rankCell, rankCohort, List.map_map, buildCohort, List.map_map]
  exact nodup_keys_groupFold MetricValue.providerID CohortAcc.record CohortAcc.empty vals

theorem IsPublication.nodup {batch : List (PublishedRow K)} (h : IsPublication batch) :
    (batch.map PublishedRow.key).Nodup := by
  cases h with
  | metrics sqrt cell period pairs counts scheduled success => exact metricBatch_nodup ..
  | rankings vals cell period => exact rankingBatch_nodup ..

/-! ### Interleaved publication -/

/-- A transaction that begins has the batch of one of the services. -/
def Publishes : Act (PublishedRow K) → Prop
  | .beginTx batch => IsPublication batch
  | _ => True

theorem Publishes.distinct {a : Act (PublishedRow K)} (h : Publishes a) : a.Distinct PublishedRow.key := by
  cases a with
  | beginTx batch => exact IsPublication.nodup h
  | _ => trivial

/-- **At most one live row for each logical key**, in both tables and in every state that any
interleaving of publications reaches, as long as every `UPDATE` starts with no other transaction
holding an uncommitted row with its key. -/
theorem single_live_row (s : State (PublishedRow K))
    (h : Reaches PublishedRow.key (fun s a => Publishes a ∧ s.sole PublishedRow.key a = true) s) (k : LogicalKey) :
    (liveRows PublishedRow.key s.table k).length ≤ 1 := by
  have hinv : Inv PublishedRow.key s := h.inv (fun _ _ ha => ha.1.distinct) (fun _ _ ha => ha.2)
  exact hinv.unique k

/-- A batch of metrics for a cell that has no pairs yet. -/
def sampleBatch : List (PublishedRow ℚ) := metricBatch id sampleCell sampleWeek [] ⟨0, 0, 0, 0, 0⟩ 0 0

/-- All marking statements of transaction `i`, for a batch of `n` rows that each replace `m` rows. -/
def marking (i n m : ℕ) : List (Act (PublishedRow ℚ)) :=
  (List.replicate n (.start i :: (List.replicate m (.lock i) ++ [.finish i]))).flatten

/-- The logical key of the temperature error of the sample cell. -/
def sampleKey : LogicalKey := .metric 1 1 60 .temperature .mae sampleWeek.start sampleWeek.stop

/-- Two publications of the cell, one after the other. -/
def serialTrace : List (Act (PublishedRow ℚ)) :=
  [.beginTx sampleBatch, .insert 0] ++ marking 0 27 0 ++ [.commit 0, .beginTx sampleBatch, .insert 1] ++
    marking 1 27 1 ++ [.commit 1]

/-- Two publications of the cell, each of which inserts before the other marks. -/
def overlappingTrace : List (Act (PublishedRow ℚ)) :=
  [.beginTx sampleBatch, .beginTx sampleBatch, .insert 0, .insert 1] ++ marking 0 27 0 ++ marking 1 27 0 ++
    [.commit 0, .commit 1]

theorem publishes_marking {i n m : ℕ} {a : Act (PublishedRow ℚ)} (h : a ∈ marking i n m) : Publishes a := by
  obtain ⟨l, hl, ha⟩ := List.mem_flatten.mp h
  rw [List.eq_of_mem_replicate hl] at ha
  simp only [List.mem_cons, List.mem_append, List.mem_replicate, List.not_mem_nil, or_false] at ha
  rcases ha with rfl | ⟨-, rfl⟩ | rfl <;> trivial

theorem publishes_serialTrace : ∀ a ∈ serialTrace, Publishes a := by
  intro a ha
  simp only [serialTrace, List.mem_append, List.mem_cons, List.not_mem_nil, or_false] at ha
  rcases ha with ((((rfl | rfl) | ha) | rfl | rfl | rfl) | ha) | rfl
  all_goals first | exact publishes_marking ha | exact IsPublication.metrics .. | trivial

theorem publishes_overlappingTrace : ∀ a ∈ overlappingTrace, Publishes a := by
  intro a ha
  simp only [overlappingTrace, List.mem_append, List.mem_cons, List.not_mem_nil, or_false] at ha
  rcases ha with (((rfl | rfl | rfl | rfl) | ha) | ha) | rfl | rfl
  all_goals first | exact publishes_marking ha | exact IsPublication.metrics .. | trivial

/-- Publications one after the other leave one live row. -/
theorem serial_publications_one_live :
    ∃ s, runWhere PublishedRow.key (State.sole PublishedRow.key) .empty serialTrace = some s ∧
      (liveRows PublishedRow.key s.table sampleKey).length ≤ 1 := by
  obtain ⟨s, hs⟩ := Option.isSome_iff_exists.mp
    (show (runWhere PublishedRow.key (State.sole PublishedRow.key) .empty serialTrace).isSome = true by decide +kernel)
  refine ⟨s, hs, single_live_row s ?_ sampleKey⟩
  exact Reaches.init.runWhere (fun a ha s hs => ⟨publishes_serialTrace a ha, hs⟩) hs

/-- Publications that overlap leave two live rows: neither `UPDATE` sees the other's row. -/
theorem overlapping_publications_both_live :
    (∀ a ∈ overlappingTrace, Publishes a) ∧
      (runWhere PublishedRow.key (fun _ _ => true) .empty overlappingTrace).map
        (fun s => (liveRows PublishedRow.key s.table sampleKey).length) = some 2 :=
  ⟨publishes_overlappingTrace, by decide +kernel⟩

end ForecastIQ.Analysis
