import ForecastIQ.Analysis.CalendarDays
import ForecastIQ.Analysis.LatePairs
import ForecastIQ.Foundations.Replacement

/-!
# Recomputing

`RecomputeService` and the dispatcher of the scheduler run the same batch, on demand or by the
clock. A batch publishes one list of metric rows for each period and cell, and one list of ranking
rows for each location and horizon (`metricBatches`, `rankingBatches`). No two of these lists share a
logical key, so the live rows after a batch are those before it with all its rows put in at once
(`liveValues_batch`).

The metric rows depend on the stored forecasts, observations, slots and pairs only, and the ranking
rows on the live metric rows. So a batch that runs again on the same day, with nothing new stored,
leaves every live row as it was, and in its place (`liveValues_batch_again`): only superseded rows are
added. Row identifiers and times of calculation are not modelled.
-/

namespace ForecastIQ.Analysis

open ForecastIQ.Foundations ForecastIQ.Foundations.Supersession ForecastIQ.Collection

/-! ### The lists of a batch -/

/-- The period of `RankBatch`. -/
def monthPeriod (now : ℤ) : Period := calendarMonth (monthOfDay (dayNumber now))

/-- What `AggregateBatch` publishes. -/
def Database.metricBatches (sqrt : ℚ → ℚ) (now : ℤ) (db : Database) : List (List Stamped) :=
  (standardPeriods now).flatMap fun period =>
    (db.listCells period.start period.stop).map (db.cellBatch sqrt period)

/-- What `RankPeriod` publishes for a cell. -/
def Database.rankingCellBatch (period : Period) (db : Database) (cell : LocationHorizon) : List Stamped :=
  (rankingBatch (db.readCohortMetrics cell period) cell period).map fun row => ⟨row, []⟩

/-- What `RankPeriod` publishes. -/
def Database.rankingBatches (period : Period) (db : Database) : List (List Stamped) :=
  (db.listRankingCells period).map (db.rankingCellBatch period)

/-- The metric of a row of exactly this period. -/
def Stamped.metricOf (period : Period) (r : Stamped) : Option (AccuracyMetric ℚ) :=
  match r.row with
  | .metric m => if m.periodStart = period.start ∧ m.periodEnd = period.stop then some m else none
  | .ranking _ => none

theorem Stamped.metricOf_eq_some_iff {period : Period} {r : Stamped} {m : AccuracyMetric ℚ} :
    r.metricOf period = some m ↔ r.row = .metric m ∧ m.periodStart = period.start ∧ m.periodEnd = period.stop := by
  unfold metricOf
  cases r.row with
  | metric m' =>
    simp only [Option.ite_none_right_eq_some, Option.some.injEq, PublishedRow.metric.injEq]
    constructor
    · rintro ⟨h, rfl⟩
      exact ⟨rfl, h⟩
    · rintro ⟨rfl, h⟩
      exact ⟨h, rfl⟩
  | ranking q => simp

theorem Stamped.key_of_metricOf {period : Period} {r : Stamped} {m : AccuracyMetric ℚ}
    (h : r.metricOf period = some m) : (PublishedRow.metric m).key = r.key := by
  rw [Stamped.key, (metricOf_eq_some_iff.mp h).1]

theorem Database.periodMetrics_eq (db : Database) (period : Period) :
    db.periodMetrics period = db.liveValues.filterMap (Stamped.metricOf period) := by
  rw [liveValues, List.filterMap_map]
  rfl

/-- The rankings read the live metrics of the period and nothing else. -/
theorem Database.rankingBatches_congr {db db' : Database} {period : Period}
    (h : db'.periodMetrics period = db.periodMetrics period) :
    db'.rankingBatches period = db.rankingBatches period := by
  have hcohort : ∀ cell, db'.readCohortMetrics cell period = db.readCohortMetrics cell period := fun cell => by
    rw [readCohortMetrics, readCohortMetrics, h]
  have hcells : db'.listRankingCells period = db.listRankingCells period := by
    rw [listRankingCells, listRankingCells, h]
  rw [rankingBatches, rankingBatches, hcells]
  exact List.map_congr_left fun cell _ => by rw [rankingCellBatch, rankingCellBatch, hcohort]

theorem Republished.trans {a b c : Database} (h : Republished a b) (h' : Republished b c) : Republished a c := by
  obtain ⟨published, publications, rfl⟩ := h
  obtain ⟨published', publications', rfl⟩ := h'
  exact ⟨_, _, rfl⟩

/-- The metrics read the other tables only. -/
theorem Database.metricBatches_republished {db db' : Database} (h : Republished db db') (sqrt : ℚ → ℚ) (now : ℤ) :
    db'.metricBatches sqrt now = db.metricBatches sqrt now := by
  obtain ⟨published, publications, rfl⟩ := h
  rfl

/-! ### No two lists share a key -/

theorem standardPeriods_pairwise (now : ℤ) :
    (standardPeriods now).Pairwise fun p q => ¬ (p.start = q.start ∧ p.stop = q.stop) := by
  have hmonth := (monthStartDay_succ_bounds (monthOfDay (dayNumber now))).1
  simp only [standardPeriods, List.pairwise_cons, List.mem_cons, List.not_mem_nil, or_false, forall_eq_or_imp,
    forall_eq, false_imp_iff, implies_true, List.Pairwise.nil, and_true, day_eq]
  omega

theorem cellBatch_keys_disjoint {sqrt : ℚ → ℚ} {db : Database} {p q : Period} {c d : Cell}
    (h : ¬ (c = d ∧ p.start = q.start ∧ p.stop = q.stop)) :
    ∀ r ∈ db.cellBatch sqrt p c, r.key ∉ (db.cellBatch sqrt q d).map Stamped.key := by
  intro r hr hmem
  obtain ⟨r', hr', hkey⟩ := List.mem_map.mp hmem
  have hof' := isOf_of_mem_cellBatch sqrt q db d hr'
  rw [hkey] at hof'
  exact h (LogicalKey.isOf_unique (isOf_of_mem_cellBatch sqrt p db c hr) hof')

theorem Database.metricBatches_pairwise (sqrt : ℚ → ℚ) (now : ℤ) (db : Database) :
    (db.metricBatches sqrt now).Pairwise fun b c => ∀ r ∈ b, r.key ∉ c.map Stamped.key := by
  refine List.pairwise_flatMap.mpr ⟨fun period _ => ?_, ?_⟩
  · refine List.pairwise_map.mpr ?_
    exact (List.nodup_dedup _).imp fun hne => cellBatch_keys_disjoint fun h => hne h.1
  · refine (standardPeriods_pairwise now).imp fun hne b hb c hc => ?_
    obtain ⟨cell, -, rfl⟩ := List.mem_map.mp hb
    obtain ⟨cell', -, rfl⟩ := List.mem_map.mp hc
    exact cellBatch_keys_disjoint fun h => hne h.2

theorem key_of_mem_rankingCellBatch {period : Period} {db : Database} {cell : LocationHorizon} {r : Stamped}
    (h : r ∈ db.rankingCellBatch period cell) :
    ∃ id, r.key = .ranking id cell.locationID cell.horizonMinutes profileUniform period.start period.stop := by
  obtain ⟨row, hrow, rfl⟩ := List.mem_map.mp h
  obtain ⟨q, -, rfl⟩ := List.mem_map.mp hrow
  exact ⟨q.providerID, rfl⟩

theorem Database.rankingBatches_pairwise (period : Period) (db : Database) :
    (db.rankingBatches period).Pairwise fun b c => ∀ r ∈ b, r.key ∉ c.map Stamped.key := by
  refine List.pairwise_map.mpr ((List.nodup_dedup _).imp fun {cell cell'} hne r hr hmem => hne ?_)
  obtain ⟨r', hr', hkey⟩ := List.mem_map.mp hmem
  obtain ⟨id, hid⟩ := key_of_mem_rankingCellBatch hr
  obtain ⟨id', hid'⟩ := key_of_mem_rankingCellBatch hr'
  rw [hid, hid', LogicalKey.ranking.injEq] at hkey
  cases cell
  cases cell'
  simp only [LocationHorizon.mk.injEq]
  exact ⟨hkey.2.1.symm, hkey.2.2.1.symm⟩

/-- Metrics and rankings are in different tables. -/
theorem metric_ranking_disjoint {sqrt : ℚ → ℚ} {now : ℤ} {period : Period} {db db' : Database} :
    ∀ r ∈ (db.metricBatches sqrt now).flatten, r.key ∉ (db'.rankingBatches period).flatten.map Stamped.key := by
  intro r hr hmem
  obtain ⟨b, hb, hrb⟩ := List.mem_flatten.mp hr
  obtain ⟨p, -, hb⟩ := List.mem_flatMap.mp hb
  obtain ⟨cell, -, rfl⟩ := List.mem_map.mp hb
  obtain ⟨t, -, hk⟩ := (mem_keys_cellBatch sqrt p db cell).mp (List.mem_map_of_mem hrb)
  obtain ⟨r', hr', hkey⟩ := List.mem_map.mp hmem
  obtain ⟨b', hb', hrb'⟩ := List.mem_flatten.mp hr'
  obtain ⟨cell', -, rfl⟩ := List.mem_map.mp hb'
  obtain ⟨id, hid⟩ := key_of_mem_rankingCellBatch hrb'
  rw [hid, hk] at hkey
  cases hkey

/-! ### The live rows after a batch -/

/-- A fold whose steps do something to the live values. -/
theorem liveValues_foldl {β : Type*} {f : Database → β → Database} {g : List Stamped → β → List Stamped}
    {P : Database → Prop} {l : List β}
    (hstep : ∀ db, P db → ∀ b ∈ l, P (f db b) ∧ (f db b).liveValues = g db.liveValues b) {db : Database} (h : P db) :
    P (l.foldl f db) ∧ (l.foldl f db).liveValues = l.foldl g db.liveValues := by
  induction l generalizing db with
  | nil => exact ⟨h, rfl⟩
  | cons b l ih =>
    obtain ⟨hP, hvalues⟩ := hstep db h b List.mem_cons_self
    rw [List.foldl_cons, List.foldl_cons, ← hvalues]
    exact ih (fun db' h' b' hb' => hstep db' h' b' (List.mem_cons_of_mem b hb')) hP

theorem liveValues_aggregateBatch (sqrt : ℚ → ℚ) (now : ℤ) {db : Database} (h : db.Valid) :
    (aggregateBatch sqrt now db).liveValues =
      replaceBy Stamped.key db.liveValues (db.metricBatches sqrt now).flatten := by
  rw [← foldl_replaceBy (db.metricBatches_pairwise sqrt now), Database.metricBatches, List.foldl_flatMap]
  refine (liveValues_foldl (P := fun db' => db'.Valid ∧ Republished db db') ?_ ⟨h, .refl db⟩).2
  rintro db' ⟨hv, hr⟩ period -
  have hcells : db'.listCells period.start period.stop = db.listCells period.start period.stop := by
    obtain ⟨published, publications, rfl⟩ := hr
    rfl
  rw [List.foldl_map, aggregatePeriod, hcells]
  refine liveValues_foldl (P := fun db' => db'.Valid ∧ Republished db db') ?_ ⟨hv, hr⟩
  rintro d ⟨hvd, hrd⟩ cell -
  refine ⟨⟨hvd.aggregateCellPeriod, hrd.aggregateCellPeriod sqrt period cell⟩, ?_⟩
  rw [aggregateCellPeriod_eq, Database.liveValues_publish hvd (cellBatch_nodup sqrt period d cell), hrd.cellBatch]
  rfl

theorem rankingCellBatch_nodup (period : Period) (db : Database) (cell : LocationHorizon) :
    ((db.rankingCellBatch period cell).map Stamped.key).Nodup := nodup_keys_rankings

/-- Rankings leave the metrics of every period. -/
theorem periodMetrics_rankCellPeriod {db : Database} (h : db.Valid) (period period' : Period) (cell : LocationHorizon) :
    (rankCellPeriod period db cell).periodMetrics period' = db.periodMetrics period' := by
  have hvalues : (rankCellPeriod period db cell).liveValues =
      replaceBy Stamped.key db.liveValues (db.rankingCellBatch period cell) :=
    Database.liveValues_publish h (rankingCellBatch_nodup period db cell)
  rw [Database.periodMetrics_eq, Database.periodMetrics_eq, hvalues,
    filterMap_replaceBy fun _ _ => Stamped.key_of_metricOf]
  have hnone : (db.rankingCellBatch period cell).filterMap (Stamped.metricOf period') = [] := by
    refine List.filterMap_eq_nil_iff.mpr fun r hr => ?_
    obtain ⟨row, hrow, rfl⟩ := List.mem_map.mp hr
    obtain ⟨q, -, rfl⟩ := List.mem_map.mp hrow
    rfl
  rw [hnone, List.append_nil, List.filter_eq_self]
  intro m _
  refine decide_eq_true fun hmem => ?_
  obtain ⟨r, hr, hkey⟩ := List.mem_map.mp hmem
  obtain ⟨id, hid⟩ := key_of_mem_rankingCellBatch hr
  rw [hid] at hkey
  cases hkey

theorem liveValues_rankPeriod (period : Period) {db : Database} (h : db.Valid) :
    (rankPeriod period db).liveValues =
        replaceBy Stamped.key db.liveValues (db.rankingBatches period).flatten ∧
      (rankPeriod period db).periodMetrics period = db.periodMetrics period := by
  rw [← foldl_replaceBy (db.rankingBatches_pairwise period), Database.rankingBatches, List.foldl_map, rankPeriod]
  refine and_comm.mp (And.imp_left And.right (liveValues_foldl
    (P := fun db' => db'.Valid ∧ db'.periodMetrics period = db.periodMetrics period) ?_ ⟨h, rfl⟩))
  rintro d ⟨hvd, hmetrics⟩ cell -
  have hbatch : d.rankingCellBatch period cell = db.rankingCellBatch period cell := by
    rw [Database.rankingCellBatch, Database.rankingCellBatch, Database.readCohortMetrics, Database.readCohortMetrics,
      hmetrics]
  refine ⟨⟨hvd.rankCellPeriod, (periodMetrics_rankCellPeriod hvd period period cell).trans hmetrics⟩, ?_⟩
  rw [← hbatch]
  exact Database.liveValues_publish hvd (rankingCellBatch_nodup period d cell)

/-- `run`, behind matching: aggregate, then rank. -/
def analysisBatch (sqrt : ℚ → ℚ) (now : ℤ) (db : Database) : Database := rankBatch now (aggregateBatch sqrt now db)

theorem analysisBatch_spec (sqrt : ℚ → ℚ) (now : ℤ) {db : Database} (h : db.Valid) :
    (analysisBatch sqrt now db).Valid ∧ Republished db (analysisBatch sqrt now db) := by
  obtain ⟨hv, hr⟩ := aggregateBatch_spec sqrt now h
  obtain ⟨hv', hr', -⟩ := rankBatch_spec now hv
  exact ⟨hv', hr.trans hr'⟩

/-- The live rows after a batch: all its rows are in the place of those with their keys. -/
theorem liveValues_batch (sqrt : ℚ → ℚ) (now : ℤ) {db : Database} (h : db.Valid) :
    (analysisBatch sqrt now db).liveValues =
      replaceBy Stamped.key db.liveValues ((db.metricBatches sqrt now).flatten ++
        ((aggregateBatch sqrt now db).rankingBatches (monthPeriod now)).flatten) := by
  have hv := (aggregateBatch_spec sqrt now h).1
  rw [← replaceBy_append metric_ranking_disjoint, ← liveValues_aggregateBatch sqrt now h]
  exact (liveValues_rankPeriod (monthPeriod now) hv).1

/-- The live metrics of a period after aggregation. -/
theorem periodMetrics_aggregateBatch (sqrt : ℚ → ℚ) (now : ℤ) {db : Database} (h : db.Valid) (period : Period) :
    (aggregateBatch sqrt now db).periodMetrics period =
      ((db.periodMetrics period).filter fun m =>
          (PublishedRow.metric m).key ∉ (db.metricBatches sqrt now).flatten.map Stamped.key) ++
        (db.metricBatches sqrt now).flatten.filterMap (Stamped.metricOf period) := by
  rw [Database.periodMetrics_eq, liveValues_aggregateBatch sqrt now h,
    filterMap_replaceBy fun _ _ => Stamped.key_of_metricOf, ← Database.periodMetrics_eq]

/-- Aggregating twice leaves the metrics that aggregating once does, whatever is ranked between. -/
theorem periodMetrics_aggregate_again {sqrt : ℚ → ℚ} {now : ℤ} {db db' : Database} {period : Period} (h : db.Valid)
    (h' : db'.Valid) (hr : Republished db db')
    (hmetrics : db'.periodMetrics period = (aggregateBatch sqrt now db).periodMetrics period) :
    (aggregateBatch sqrt now db').periodMetrics period = (aggregateBatch sqrt now db).periodMetrics period := by
  rw [periodMetrics_aggregateBatch sqrt now h', Database.metricBatches_republished hr, hmetrics,
    periodMetrics_aggregateBatch sqrt now h, List.filter_append, List.filter_filter]
  have hnone : (((db.metricBatches sqrt now).flatten.filterMap (Stamped.metricOf period)).filter fun m =>
      (PublishedRow.metric m).key ∉ (db.metricBatches sqrt now).flatten.map Stamped.key) = [] := by
    refine List.filter_eq_nil_iff.mpr fun m hm hkey => of_decide_eq_true hkey ?_
    obtain ⟨r, hrm, hrow⟩ := List.mem_filterMap.mp hm
    exact List.mem_map.mpr ⟨r, hrm, (Stamped.key_of_metricOf hrow).symm⟩
  rw [hnone, List.append_nil]
  simp only [Bool.and_self]

/-! ### A batch that runs again -/

theorem standardPeriods_of_dayNumber {now now' : ℤ} (h : dayNumber now' = dayNumber now) :
    standardPeriods now' = standardPeriods now := by
  rw [standardPeriods, standardPeriods, h]

/-- One more batch on the same day. -/
theorem liveValues_again {sqrt : ℚ → ℚ} {now now' : ℤ} {db db' : Database} (h : db.Valid) (h' : db'.Valid)
    (hr : Republished db db') (hday : dayNumber now' = dayNumber now)
    (hlive : db'.liveValues = (analysisBatch sqrt now db).liveValues) :
    (analysisBatch sqrt now' db').liveValues = (analysisBatch sqrt now db).liveValues := by
  have hmonth : monthPeriod now' = monthPeriod now := by rw [monthPeriod, monthPeriod, hday]
  have hagg : aggregateBatch sqrt now' db' = aggregateBatch sqrt now db' := by
    rw [aggregateBatch, aggregateBatch, standardPeriods_of_dayNumber hday]
  have hbatches : db'.metricBatches sqrt now' = db.metricBatches sqrt now := by
    rw [← Database.metricBatches_republished hr, Database.metricBatches, Database.metricBatches,
      standardPeriods_of_dayNumber hday]
  have hv := (aggregateBatch_spec sqrt now h).1
  -- the rankings of the first batch left the metrics, so the second reads the same
  have hmetrics : db'.periodMetrics (monthPeriod now) =
      (aggregateBatch sqrt now db).periodMetrics (monthPeriod now) := by
    rw [← (liveValues_rankPeriod (monthPeriod now) hv).2, Database.periodMetrics_eq, hlive, ← Database.periodMetrics_eq]
    rfl
  have hrankings := Database.rankingBatches_congr (periodMetrics_aggregate_again h h' hr hmetrics)
  rw [liveValues_batch sqrt now' h', hbatches, hmonth, hagg, hrankings, hlive, liveValues_batch sqrt now h,
    replaceBy_self]

/-- **Recomputing changes nothing that is read**: any number of further batches on the day of a batch, with nothing new
stored, leave every live metric and ranking as the first of them left it, and in its place. -/
theorem liveValues_batch_again {sqrt : ℚ → ℚ} {db : Database} (hreach : Reached sqrt db) {now : ℤ} {times : List ℤ}
    (hday : ∀ t ∈ times, dayNumber t = dayNumber now) :
    (times.foldl (fun d t => analysisBatch sqrt t d) (analysisBatch sqrt now db)).liveValues =
      (analysisBatch sqrt now db).liveValues := by
  have h := hreach.valid
  obtain ⟨hv, hr⟩ := analysisBatch_spec sqrt now h
  refine (List.foldlRecOn (motive := fun d => d.Valid ∧ Republished db d ∧
    d.liveValues = (analysisBatch sqrt now db).liveValues) times _ ⟨hv, hr, rfl⟩ ?_).2.2
  rintro d ⟨hvd, hrd, hlive⟩ t ht
  obtain ⟨hvt, hrt⟩ := analysisBatch_spec sqrt t hvd
  exact ⟨hvt, hrd.trans hrt, liveValues_again h hvd hrd (hday t ht) hlive⟩

/-- Half past one, and twice more on that day: the rows of three periods and of one ranking stay. -/
theorem liveValues_batch_again_oneHour :
    ([14 * hour, 23 * hour].foldl (fun d t => analysisBatch id t d)
        (analysisBatch id (13 * hour + 30 * minute) (oneHourMatched (11 * hour)))).liveValues =
      (analysisBatch id (13 * hour + 30 * minute) (oneHourMatched (11 * hour))).liveValues ∧
    (analysisBatch id (13 * hour + 30 * minute) (oneHourMatched (11 * hour))).liveValues.length = 82 := by
  have hreach : Reached id (oneHourMatched (11 * hour)) :=
    (reached_oneHourDatabase (11 * hour) (by decide +kernel)).matchBatch
      (batchRun_oneHour (11 * hour) (13 * hour + 30 * minute) (by decide +kernel))
  exact ⟨liveValues_batch_again hreach (by decide), by decide +kernel⟩

end ForecastIQ.Analysis
