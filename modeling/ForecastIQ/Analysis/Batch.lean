import ForecastIQ.Analysis.Match
import ForecastIQ.Analysis.Publication
import ForecastIQ.Analysis.Reliability
import Mathlib.Data.List.Dedup

/-!
# The analysis batch

`internal/scheduler/analysis_dispatcher.go`: match, then aggregate, then rank, over the
tables of the whole system. Matching pairs every snapshot of the last thirty days once
its observation is there; aggregation recomputes only the current day, week and month
(`standardPeriods` of its own clock). So a pair is counted by the metrics of its day,
week and month exactly when its target hour is on the day on which aggregation runs
(`pair_counted_iff`): a pair of the last two hours of a day, or one made by a late
observation, is not.

A stored row carries, as a ghost, the records that it was computed from, each with its pair
(`Stamped`). The ghost is exact in every reached state (`Reached.computed`).
-/

namespace ForecastIQ.Analysis

open ForecastIQ.Foundations ForecastIQ.Foundations.Supersession ForecastIQ.Collection

/-! ### The tables -/

/-- A published row with the pairs that were read for it, and their records. -/
structure Stamped where
  row : PublishedRow ℚ
  pairs : List ((ℕ × ℕ) × PairRecord ℚ)

/-- The logical key of the row. -/
def Stamped.key (r : Stamped) : LogicalKey := r.row.key

/-- The tables. -/
structure Database where
  store : Store
  observations : ObservationStore
  slots : Scheduler.State
  configs : List Catalog.ProviderConfiguration
  matched : List MatchedEvaluation
  published : List (Row Stamped)
  /-- The number of publications so far, which names the rows of the next one. -/
  publications : ℕ

/-- The tables before anything happened. -/
def Database.empty : Database := ⟨.empty, .empty, ⟨[], 0⟩, [], [], [], 0⟩

/-- The cell of a pair. -/
def MatchedEvaluation.cell (m : MatchedEvaluation) : Cell :=
  ⟨m.snapshot.providerID, m.snapshot.locationID, m.snapshot.forecastHorizonMinutes⟩

/-! ### Aggregation -/

/-- `ListCells`. -/
def Database.listCells (db : Database) (start stop : ℤ) : List Cell :=
  ((db.matched.filter fun m =>
    start ≤ m.snapshot.targetTime ∧ m.snapshot.targetTime < stop ∧
      (db.observations.rows.any fun o => o.id = m.observationID && o.live) = true).map MatchedEvaluation.cell).dedup

/-- The columns of a snapshot and an observation that `ReadPairs` selects. -/
def pairRecord (s : SnapshotRow) (o : Observation) : PairRecord ℚ where
  observationType := o.observationType
  qualityFlag := o.qualityFlag
  fTemperature := s.snapshot.weather.temperatureC
  fWindSpeed := s.snapshot.weather.windSpeedMS
  fHumidity := s.snapshot.weather.humidityPct
  fPressure := s.snapshot.weather.pressureHPa
  fPrecipMM := s.snapshot.weather.precipitationAmountMM
  fPrecipProb := s.snapshot.weather.precipitationProbability
  oTemperature := o.temperatureC
  oWindSpeed := o.windSpeedMS
  oHumidity := o.humidityPct
  oPressure := o.pressureHPa
  oPrecipMM := o.precipitationMM

/-- `ReadPairs`, each record with its pair. -/
def Database.readPairs (db : Database) (cell : Cell) (start stop : ℤ) : List ((ℕ × ℕ) × PairRecord ℚ) :=
  (db.matched.filter fun m => m.cell = cell ∧ start ≤ m.snapshot.targetTime ∧ m.snapshot.targetTime < stop).flatMap
    fun m => (db.store.snapshots.filter fun s => s.id = m.snapshot.id).flatMap fun s =>
      (db.observations.rows.filter fun o =>
        o.id = m.observationID ∧ o.live = true ∧ o.qualityFlag ≠ .suspect).map fun o => (m.pair, pairRecord s o)

/-- One publication, by a transaction that runs alone. -/
def Database.publish (db : Database) (batch : List Stamped) : Database :=
  { db with
    published := Supersession.publish Stamped.key db.publications batch db.published
    publications := db.publications + 1 }

/-- The rows of `aggregateCellPeriod`, with the pairs they are computed from. -/
def Database.cellBatch (sqrt : ℚ → ℚ) (period : Period) (db : Database) (cell : Cell) : List Stamped :=
  let pairs := db.readPairs cell period.start period.stop
  (metricBatch sqrt cell period (pairs.map Prod.snd)
    (snapshotVariableCounts db.store cell period.start period.stop)
    (scheduledForecastSlots db.slots db.configs cell.providerID cell.locationID period.start period.stop)
    (successfulCollections db.store cell.providerID cell.locationID period.start period.stop)).map
      fun row => ⟨row, pairs⟩

/-- `aggregateCellPeriod`. -/
def aggregateCellPeriod (sqrt : ℚ → ℚ) (period : Period) (db : Database) (cell : Cell) : Database :=
  if (db.cellBatch sqrt period cell).isEmpty then db else db.publish (db.cellBatch sqrt period cell)

/-- `AggregatePeriod`. -/
def aggregatePeriod (sqrt : ℚ → ℚ) (db : Database) (period : Period) : Database :=
  (db.listCells period.start period.stop).foldl (aggregateCellPeriod sqrt period) db

/-- `AggregateBatch`. -/
def aggregateBatch (sqrt : ℚ → ℚ) (now : ℤ) (db : Database) : Database :=
  (standardPeriods now).foldl (aggregatePeriod sqrt) db

/-! ### Ranking -/

/-- The live metric rows of exactly this period. -/
def Database.periodMetrics (db : Database) (period : Period) : List (AccuracyMetric ℚ) :=
  (db.published.filter Row.live).filterMap fun r =>
    match r.value.row with
    | .metric m => if m.periodStart = period.start ∧ m.periodEnd = period.stop then some m else none
    | .ranking _ => none

/-- `ListRankingCells`. -/
def Database.listRankingCells (db : Database) (period : Period) : List LocationHorizon :=
  ((db.periodMetrics period).map fun m => (⟨m.locationID, m.horizonMinutes⟩ : LocationHorizon)).dedup

/-- `ReadCohortMetrics`. -/
def Database.readCohortMetrics (db : Database) (cell : LocationHorizon) (period : Period) : List (MetricValue ℚ) :=
  ((db.periodMetrics period).filter fun m =>
    m.locationID = cell.locationID ∧ m.horizonMinutes = cell.horizonMinutes).map AccuracyMetric.toMetricValue

/-- `RankPeriod`, for one cell. -/
def rankCellPeriod (period : Period) (db : Database) (cell : LocationHorizon) : Database :=
  db.publish ((rankingBatch (db.readCohortMetrics cell period) cell period).map fun row => ⟨row, []⟩)

/-- `RankPeriod`. -/
def rankPeriod (period : Period) (db : Database) : Database :=
  (db.listRankingCells period).foldl (rankCellPeriod period) db

/-- `RankBatch`: the current calendar month. -/
def rankBatch (now : ℤ) (db : Database) : Database :=
  let month := monthOfDay (dayNumber now)
  rankPeriod ⟨.monthly, monthStartDay month * day, monthStartDay (month + 1) * day⟩ db

/-! ### Live metrics -/

/-- The live metric rows of a cell and window. -/
def Database.liveMetrics (db : Database) (cell : Cell) (period : Period) : List Stamped :=
  (db.published.filter fun r => r.live && r.value.key.isOf cell period).map Row.value

theorem Database.mem_liveMetrics {db : Database} {cell : Cell} {period : Period} {r : Stamped} :
    r ∈ db.liveMetrics cell period ↔
      ∃ v, (v ∈ db.published ∧ v.live = true) ∧ v.value = r ∧ r.key.isOf cell period = true := by
  rw [liveMetrics, List.mem_map]
  constructor
  · rintro ⟨v, hv, rfl⟩
    rw [List.mem_filter, Bool.and_eq_true] at hv
    exact ⟨v, ⟨hv.1, hv.2.1⟩, rfl, hv.2.2⟩
  · rintro ⟨v, ⟨hv, hlive⟩, rfl, hof⟩
    exact ⟨v, List.mem_filter.mpr ⟨hv, by rw [hlive, hof]; rfl⟩, rfl⟩

/-- The row is of one of the types that `computeRows` makes. -/
def Stamped.Typed (r : Stamped) : Prop :=
  ∀ cell period, r.key.isOf cell period = true → ∃ t ∈ rowTypes,
    r.key = .metric cell.providerID cell.locationID cell.horizonMinutes t.1 t.2 period.start period.stop

/-- What holds of the tables at any time. -/
structure Database.Valid (db : Database) : Prop where
  observations : db.observations.Valid
  paired : ∀ m ∈ db.matched, Paired db.store.snapshots db.observations.rows m
  /-- A row was computed from pairs that are there. -/
  stamped : ∀ r ∈ db.published, ∀ p ∈ r.value.pairs, p.1 ∈ db.matched.map MatchedEvaluation.pair
  typed : ∀ r ∈ db.published, r.value.Typed
  fresh : ∀ r ∈ db.published, r.id.tx < db.publications

theorem Database.Valid.empty : Database.empty.Valid where
  observations := .empty
  paired := by simp [Database.empty]
  stamped := by simp [Database.empty]
  typed := by simp [Database.empty]
  fresh := by simp [Database.empty]

/-- A row after a publication is one from before or one of the batch. -/
theorem Database.mem_publish {db : Database} {batch : List Stamped} {v : Row Stamped}
    (hv : v ∈ (db.publish batch).published) : (∃ w ∈ db.published, v.id = w.id ∧ v.value = w.value) ∨
      (v.id.tx = db.publications ∧ v.value ∈ batch) := by
  rcases (exists_mem_publish (P := fun id value => v.id = id ∧ v.value = value)).mp ⟨v, hv, rfl, rfl⟩ with
    ⟨w, hw, hid, hval⟩ | ⟨w, hw, hid, hval⟩
  · exact .inl ⟨w, hw, hid, hval⟩
  · obtain ⟨htx, -, hb⟩ := Tx.mem_rows_new hw
    exact .inr ⟨by rw [hid, htx], by rw [hval]; exact hb⟩

theorem Database.Valid.publish {db : Database} (h : db.Valid) {batch : List Stamped}
    (hpairs : ∀ r ∈ batch, ∀ p ∈ r.pairs, p.1 ∈ db.matched.map MatchedEvaluation.pair)
    (htyped : ∀ r ∈ batch, r.Typed) : (db.publish batch).Valid := by
  refine ⟨h.observations, h.paired, ?_, ?_, ?_⟩
  · intro v hv
    rcases mem_publish hv with ⟨w, hw, -, hval⟩ | ⟨-, hb⟩
    · rw [hval]
      exact h.stamped w hw
    · exact hpairs _ hb
  · intro v hv
    rcases mem_publish hv with ⟨w, hw, -, hval⟩ | ⟨-, hb⟩
    · rw [hval]
      exact h.typed w hw
    · exact htyped _ hb
  · intro v hv
    rcases mem_publish hv with ⟨w, hw, hid, -⟩ | ⟨htx, -⟩
    · rw [hid]
      exact Nat.lt_succ_of_lt (h.fresh w hw)
    · rw [htx]
      exact Nat.lt_succ_self _

/-- The live values, in the order in which they were published. -/
def Database.liveValues (db : Database) : List Stamped := (db.published.filter Row.live).map Row.value

theorem Database.liveMetrics_eq (db : Database) (cell : Cell) (period : Period) :
    db.liveMetrics cell period = db.liveValues.filter fun r => r.key.isOf cell period := by
  rw [liveMetrics, liveValues, List.filter_map, List.filter_filter]
  simp only [Function.comp_def, Bool.and_comm]

theorem Database.liveValues_publish {db : Database} (h : db.Valid) {batch : List Stamped}
    (hbatch : (batch.map Stamped.key).Nodup) :
    (db.publish batch).liveValues = (db.liveValues.filter fun r => r.key ∉ batch.map Stamped.key) ++ batch :=
  map_value_filter_live_publish hbatch h.fresh

/-- The live metrics after a publication: those whose keys the batch does not have, and those of the batch. -/
theorem Database.liveMetrics_publish {db : Database} (h : db.Valid) {batch : List Stamped}
    (hbatch : (batch.map Stamped.key).Nodup) (cell : Cell) (period : Period) :
    (db.publish batch).liveMetrics cell period =
      ((db.liveMetrics cell period).filter fun r => r.key ∉ batch.map Stamped.key) ++
        batch.filter fun r => r.key.isOf cell period := by
  rw [liveMetrics_eq, liveMetrics_eq, liveValues_publish h hbatch, List.filter_append, List.filter_filter,
    List.filter_filter]
  simp only [Bool.and_comm]

/-- A batch without a metric of the cell and window leaves them alone. -/
theorem Database.liveMetrics_publish_other {db : Database} (h : db.Valid) {batch : List Stamped}
    (hbatch : (batch.map Stamped.key).Nodup) {cell : Cell} {period : Period}
    (hof : ∀ r ∈ batch, ¬ r.key.isOf cell period = true) :
    (db.publish batch).liveMetrics cell period = db.liveMetrics cell period := by
  rw [liveMetrics_publish h hbatch, List.filter_eq_nil_iff.mpr hof, List.append_nil, List.filter_eq_self]
  intro r hr
  refine decide_eq_true fun hk => ?_
  obtain ⟨q, hq, he⟩ := List.mem_map.mp hk
  obtain ⟨-, -, -, hr'⟩ := mem_liveMetrics.mp hr
  rw [← he] at hr'
  exact hof q hq hr'

/-! ### One step of aggregation and of ranking -/

section CellBatch

variable (sqrt : ℚ → ℚ) (period : Period) (db : Database) (cell : Cell)

theorem mem_keys_cellBatch {k : LogicalKey} : k ∈ (db.cellBatch sqrt period cell).map Stamped.key ↔
    ∃ t ∈ rowTypes,
      k = .metric cell.providerID cell.locationID cell.horizonMinutes t.1 t.2 period.start period.stop := by
  rw [Database.cellBatch, List.map_map]
  exact mem_keys_metricBatch

theorem cellBatch_nodup : ((db.cellBatch sqrt period cell).map Stamped.key).Nodup := by
  rw [Database.cellBatch, List.map_map]
  exact metricBatch_nodup ..

theorem isOf_of_mem_cellBatch {r : Stamped} (h : r ∈ db.cellBatch sqrt period cell) :
    r.key.isOf cell period = true := by
  obtain ⟨t, -, hk⟩ := (mem_keys_cellBatch sqrt period db cell).mp (List.mem_map.mpr ⟨r, h, rfl⟩)
  rw [hk]
  simp [LogicalKey.isOf]

theorem pairs_of_mem_cellBatch {r : Stamped} (h : r ∈ db.cellBatch sqrt period cell) :
    r.pairs = db.readPairs cell period.start period.stop := by
  obtain ⟨row, -, rfl⟩ := List.mem_map.mp h
  rfl

/-- The rows of the batch are those of `computeRows`. -/
theorem map_row_cellBatch : (db.cellBatch sqrt period cell).map Stamped.row =
    metricBatch sqrt cell period ((db.readPairs cell period.start period.stop).map Prod.snd)
      (snapshotVariableCounts db.store cell period.start period.stop)
      (scheduledForecastSlots db.slots db.configs cell.providerID cell.locationID period.start period.stop)
      (successfulCollections db.store cell.providerID cell.locationID period.start period.stop) := by
  rw [Database.cellBatch, List.map_map]
  exact List.map_id _

theorem typed_of_mem_cellBatch {r : Stamped} (h : r ∈ db.cellBatch sqrt period cell) : r.Typed := by
  intro cell' period' hof
  obtain ⟨t, ht, hk⟩ := (mem_keys_cellBatch sqrt period db cell).mp (List.mem_map.mpr ⟨r, h, rfl⟩)
  obtain ⟨rfl, hstart, hstop⟩ := LogicalKey.isOf_unique (isOf_of_mem_cellBatch sqrt period db cell h) hof
  exact ⟨t, ht, by rw [hk, hstart, hstop]⟩

theorem exists_mem_cellBatch : ∃ r, r ∈ db.cellBatch sqrt period cell := by
  have hk := (mem_keys_cellBatch sqrt period db cell).mpr ⟨(.all, .reliability), by decide, rfl⟩
  obtain ⟨r, hr, -⟩ := List.mem_map.mp hk
  exact ⟨r, hr⟩

/-- There is always something to publish. -/
theorem aggregateCellPeriod_eq :
    aggregateCellPeriod sqrt period db cell = db.publish (db.cellBatch sqrt period cell) := by
  obtain ⟨r, hr⟩ := exists_mem_cellBatch sqrt period db cell
  rw [aggregateCellPeriod, if_neg]
  rw [List.isEmpty_iff]
  exact List.ne_nil_of_mem hr

variable {sqrt period db cell}

theorem mem_readPairs {p : (ℕ × ℕ) × PairRecord ℚ} {start stop : ℤ} (h : p ∈ db.readPairs cell start stop) :
    p.1 ∈ db.matched.map MatchedEvaluation.pair := by
  obtain ⟨m, hm, h⟩ := List.mem_flatMap.mp h
  obtain ⟨s, -, h⟩ := List.mem_flatMap.mp h
  obtain ⟨o, -, rfl⟩ := List.mem_map.mp h
  exact List.mem_map.mpr ⟨m, (List.mem_filter.mp hm).1, rfl⟩

theorem Database.Valid.aggregateCellPeriod (h : db.Valid) : (aggregateCellPeriod sqrt period db cell).Valid := by
  rw [aggregateCellPeriod_eq]
  refine h.publish (fun r hr p hp => ?_) (fun r hr => typed_of_mem_cellBatch sqrt period db cell hr)
  rw [pairs_of_mem_cellBatch sqrt period db cell hr] at hp
  exact mem_readPairs hp

/-- The live metrics of the cell and window are now those of the batch. -/
theorem liveMetrics_aggregate_self (h : db.Valid) :
    (aggregateCellPeriod sqrt period db cell).liveMetrics cell period = db.cellBatch sqrt period cell := by
  rw [aggregateCellPeriod_eq, Database.liveMetrics_publish h (cellBatch_nodup sqrt period db cell),
    List.filter_eq_nil_iff.mpr, List.nil_append, List.filter_eq_self]
  · exact fun r hr => isOf_of_mem_cellBatch sqrt period db cell hr
  · -- an older row of the cell and window has one of the keys of the batch
    intro r hr hk
    obtain ⟨v, ⟨hv, -⟩, rfl, hof⟩ := Database.mem_liveMetrics.mp hr
    exact of_decide_eq_true hk ((mem_keys_cellBatch sqrt period db cell).mpr (h.typed v hv cell period hof))

/-- Those of every other cell or window are as they were. -/
theorem liveMetrics_aggregate_other (h : db.Valid) {cell' : Cell} {period' : Period}
    (hne : ¬ (cell = cell' ∧ period.start = period'.start ∧ period.stop = period'.stop)) :
    (aggregateCellPeriod sqrt period db cell).liveMetrics cell' period' = db.liveMetrics cell' period' := by
  have hof : ∀ r ∈ db.cellBatch sqrt period cell, ¬ r.key.isOf cell' period' = true := fun r hr hof =>
    hne (LogicalKey.isOf_unique (isOf_of_mem_cellBatch sqrt period db cell hr) hof)
  rw [aggregateCellPeriod_eq, Database.liveMetrics_publish_other h (cellBatch_nodup sqrt period db cell) hof]

end CellBatch

section RankCell

variable {period : Period} {db : Database} {cell : LocationHorizon}

/-- The keys of a batch of rankings are not those of metrics. -/
theorem isOf_rankings {r : Stamped}
    (h : r ∈ (rankingBatch (db.readCohortMetrics cell period) cell period).map fun row => (⟨row, []⟩ : Stamped))
    (cell' : Cell) (period' : Period) : r.key.isOf cell' period' = false := by
  obtain ⟨row, hrow, rfl⟩ := List.mem_map.mp h
  obtain ⟨q, -, rfl⟩ := List.mem_map.mp hrow
  rfl

theorem Database.Valid.rankCellPeriod (h : db.Valid) : (rankCellPeriod period db cell).Valid := by
  refine h.publish (fun r hr p hp => ?_) (fun r hr cell' period' hof => ?_)
  · obtain ⟨row, -, rfl⟩ := List.mem_map.mp hr
    cases hp
  · rw [isOf_rankings hr] at hof
    cases hof

theorem nodup_keys_rankings : (((rankingBatch (db.readCohortMetrics cell period) cell period).map
    fun row => (⟨row, []⟩ : Stamped)).map Stamped.key).Nodup := by
  rw [List.map_map]
  exact rankingBatch_nodup ..

theorem liveMetrics_rank (h : db.Valid) (cell' : Cell) (period' : Period) :
    (rankCellPeriod period db cell).liveMetrics cell' period' = db.liveMetrics cell' period' := by
  have hof : ∀ r ∈ (rankingBatch (db.readCohortMetrics cell period) cell period).map fun row => (⟨row, []⟩ : Stamped),
      ¬ r.key.isOf cell' period' = true := fun r hr => by
    rw [isOf_rankings hr]
    exact Bool.false_ne_true
  rw [rankCellPeriod, Database.liveMetrics_publish_other h nodup_keys_rankings hof]

end RankCell

/-! ### Whole batches -/

/-- What every step of aggregation keeps, the batch keeps. -/
theorem aggregateBatch_induction {sqrt : ℚ → ℚ} {now : ℤ} (P : Database → Prop)
    (hP : ∀ period ∈ standardPeriods now, ∀ db cell, P db → P (aggregateCellPeriod sqrt period db cell))
    {db : Database} (h : P db) : P (aggregateBatch sqrt now db) := by
  refine List.foldlRecOn (standardPeriods now) _ h fun db hdb period hperiod => ?_
  exact List.foldlRecOn (db.listCells period.start period.stop) _ hdb fun db' hdb' cell _ =>
    hP period hperiod db' cell hdb'

/-- What every step of ranking keeps, the batch keeps. -/
theorem rankBatch_induction {now : ℤ} (P : Database → Prop)
    (hP : ∀ period db cell, P db → P (rankCellPeriod period db cell)) {db : Database} (h : P db) :
    P (rankBatch now db) := by
  refine List.foldlRecOn _ _ h fun db' hdb' cell _ => ?_
  exact hP _ db' cell hdb'

/-- Only the published rows differ. -/
def Republished (db db' : Database) : Prop :=
  ∃ published publications, db' = { db with published := published, publications := publications }

theorem Republished.refl (db : Database) : Republished db db := ⟨_, _, rfl⟩

theorem Republished.publish {db db' : Database} (h : Republished db db') (batch : List Stamped) :
    Republished db (db'.publish batch) := by
  obtain ⟨published, publications, rfl⟩ := h
  exact ⟨_, _, rfl⟩

theorem Republished.aggregateCellPeriod {db db' : Database} (h : Republished db db') (sqrt : ℚ → ℚ) (period : Period)
    (cell : Cell) : Republished db (aggregateCellPeriod sqrt period db' cell) := by
  rw [aggregateCellPeriod_eq]
  exact h.publish _

/-- Aggregation keeps the tables valid and writes nothing but published rows. -/
theorem aggregateBatch_spec (sqrt : ℚ → ℚ) (now : ℤ) {db : Database} (h : db.Valid) :
    (aggregateBatch sqrt now db).Valid ∧ Republished db (aggregateBatch sqrt now db) := by
  refine aggregateBatch_induction (fun db' => db'.Valid ∧ Republished db db') ?_ ⟨h, .refl db⟩
  rintro period - db' cell ⟨hv, hr⟩
  exact ⟨hv.aggregateCellPeriod, hr.aggregateCellPeriod sqrt period cell⟩

/-- Ranking keeps the tables valid, and writes nothing but published rows and no metric. -/
theorem rankBatch_spec (now : ℤ) {db : Database} (h : db.Valid) :
    (rankBatch now db).Valid ∧ Republished db (rankBatch now db) ∧
      ∀ cell period, (rankBatch now db).liveMetrics cell period = db.liveMetrics cell period := by
  refine rankBatch_induction (fun db' => db'.Valid ∧ Republished db db' ∧
    ∀ cell period, db'.liveMetrics cell period = db.liveMetrics cell period) ?_ ⟨h, .refl db, fun _ _ => rfl⟩
  rintro period db' cell ⟨hv, hr, hm⟩
  refine ⟨hv.rankCellPeriod, hr.publish _, fun cell' period' => ?_⟩
  rw [liveMetrics_rank hv]
  exact hm cell' period'

/-! ### Counting a pair -/

/-- The record is that of the pair: its snapshot and its observation are stored. -/
def Database.Records (db : Database) (p : (ℕ × ℕ) × PairRecord ℚ) : Prop :=
  ∃ s ∈ db.store.snapshots, ∃ o ∈ db.observations.rows, p = ((s.id, o.id), pairRecord s o)

/-- The live metric rows of the pair's cell for the window are the rows that `computeRows` makes of the
records of pairs, of which it is one. -/
def CountedIn (sqrt : ℚ → ℚ) (db : Database) (period : Period) (m : MatchedEvaluation) : Prop :=
  ∃ pairs counts scheduled success, m.pair ∈ pairs.map Prod.fst ∧ (∀ p ∈ pairs, db.Records p) ∧
    (∀ r ∈ db.liveMetrics m.cell period, r.pairs = pairs) ∧
    (db.liveMetrics m.cell period).map Stamped.row =
      metricBatch sqrt m.cell period (pairs.map Prod.snd) counts scheduled success

/-- The pair is stored, with its snapshot and a live observation that is not suspect. -/
def Database.Readable (db : Database) (m : MatchedEvaluation) : Prop :=
  m ∈ db.matched ∧ (∃ s ∈ db.store.snapshots, s.id = m.snapshot.id) ∧
    ∃ o ∈ db.observations.rows, o.id = m.observationID ∧ o.live = true ∧ o.qualityFlag ≠ .suspect

theorem Database.Records.republished {db db' : Database} {p : (ℕ × ℕ) × PairRecord ℚ} (h : db.Records p)
    (hr : Republished db db') : db'.Records p := by
  obtain ⟨published, publications, rfl⟩ := hr
  exact h

theorem Database.Readable.republished {db db' : Database} {m : MatchedEvaluation} (h : db.Readable m)
    (hr : Republished db db') : db'.Readable m := by
  obtain ⟨published, publications, rfl⟩ := hr
  exact h

section Counting

variable {sqrt : ℚ → ℚ} {db : Database} {m : MatchedEvaluation} {period : Period}

theorem records_of_readPairs {cell : Cell} {start stop : ℤ} {p : (ℕ × ℕ) × PairRecord ℚ}
    (h : p ∈ db.readPairs cell start stop) : db.Records p := by
  obtain ⟨m, -, h⟩ := List.mem_flatMap.mp h
  obtain ⟨s, hs, h⟩ := List.mem_flatMap.mp h
  obtain ⟨o, ho, rfl⟩ := List.mem_map.mp h
  rw [List.mem_filter, decide_eq_true_eq] at hs ho
  exact ⟨s, hs.1, o, ho.1, by rw [hs.2, ho.2.1]; rfl⟩

/-- There is always a row, and it carries the pair. -/
theorem CountedIn.exists_row (h : CountedIn sqrt db period m) :
    ∃ r ∈ db.liveMetrics m.cell period, m.pair ∈ r.pairs.map Prod.fst := by
  obtain ⟨pairs, counts, scheduled, success, hmem, -, hpairs, hrows⟩ := h
  have hkey : ∃ k, k ∈ ((db.liveMetrics m.cell period).map Stamped.row).map PublishedRow.key := by
    rw [hrows]
    exact ⟨_, mem_keys_metricBatch.mpr ⟨(.all, .reliability), by decide, rfl⟩⟩
  obtain ⟨-, row, hrow, -⟩ := hkey.imp fun _ => List.mem_map.mp
  obtain ⟨r, hr, -⟩ := List.mem_map.mp hrow
  exact ⟨r, hr, by rw [hpairs r hr]; exact hmem⟩

/-- Only the live rows and the records matter. -/
theorem CountedIn.congr {db' : Database} (h : CountedIn sqrt db period m)
    (hlive : db'.liveMetrics m.cell period = db.liveMetrics m.cell period)
    (hrecords : ∀ p, db.Records p → db'.Records p) : CountedIn sqrt db' period m := by
  obtain ⟨pairs, counts, scheduled, success, hmem, hrec, hrows⟩ := h
  rw [← hlive] at hrows
  exact ⟨pairs, counts, scheduled, success, hmem, fun p hp => hrecords p (hrec p hp), hrows⟩

theorem Database.Readable.mem_readPairs (h : db.Readable m)
    (hin : period.start ≤ m.snapshot.targetTime ∧ m.snapshot.targetTime < period.stop) :
    m.pair ∈ (db.readPairs m.cell period.start period.stop).map Prod.fst := by
  obtain ⟨hm, ⟨s, hs, hsid⟩, o, ho, hoid, hlive, hflag⟩ := h
  refine List.mem_map.mpr ⟨(m.pair, pairRecord s o),
    List.mem_flatMap.mpr ⟨m, ?_, List.mem_flatMap.mpr ⟨s, ?_, ?_⟩⟩, rfl⟩
  · rw [List.mem_filter, decide_eq_true_eq]
    exact ⟨hm, rfl, hin⟩
  · rw [List.mem_filter, decide_eq_true_eq]
    exact ⟨hs, hsid⟩
  · refine List.mem_map.mpr ⟨o, ?_, rfl⟩
    rw [List.mem_filter, decide_eq_true_eq]
    exact ⟨ho, hoid, hlive, hflag⟩

theorem Database.Readable.mem_listCells (h : db.Readable m)
    (hin : period.start ≤ m.snapshot.targetTime ∧ m.snapshot.targetTime < period.stop) :
    m.cell ∈ db.listCells period.start period.stop := by
  obtain ⟨hm, -, o, ho, hoid, hlive, -⟩ := h
  refine List.mem_dedup.mpr (List.mem_map.mpr ⟨m, ?_, rfl⟩)
  rw [List.mem_filter, decide_eq_true_eq]
  refine ⟨hm, hin.1, hin.2, List.any_eq_true.mpr ⟨o, ho, ?_⟩⟩
  rw [Bool.and_eq_true, decide_eq_true_eq]
  exact ⟨hoid, hlive⟩

/-- Publishing the cell counts the pair in the window. -/
theorem countedIn_aggregateCell (hv : db.Valid) (hr : db.Readable m)
    (hin : period.start ≤ m.snapshot.targetTime ∧ m.snapshot.targetTime < period.stop) :
    CountedIn sqrt (aggregateCellPeriod sqrt period db m.cell) period m := by
  have hrep := (Republished.refl db).aggregateCellPeriod sqrt period m.cell
  rw [CountedIn, liveMetrics_aggregate_self hv]
  exact ⟨_, _, _, _, hr.mem_readPairs hin, fun p hp => (records_of_readPairs hp).republished hrep,
    fun r hmem => pairs_of_mem_cellBatch sqrt period db m.cell hmem, map_row_cellBatch sqrt period db m.cell⟩

/-- Publishing any cell and window keeps it counted. -/
theorem CountedIn.aggregateCell (hv : db.Valid) (hr : db.Readable m)
    (hin : period.start ≤ m.snapshot.targetTime ∧ m.snapshot.targetTime < period.stop) (h : CountedIn sqrt db period m)
    (period' : Period) (cell : Cell) : CountedIn sqrt (aggregateCellPeriod sqrt period' db cell) period m := by
  by_cases hsame : cell = m.cell ∧ period'.start = period.start ∧ period'.stop = period.stop
  · obtain ⟨rfl, hstart, hstop⟩ := hsame
    have hof : LogicalKey.isOf m.cell period' = LogicalKey.isOf m.cell period := by
      funext k
      cases k with
      | metric p l z var type a b => simp only [LogicalKey.isOf, hstart, hstop]
      | ranking p l z profile a b => rfl
    have hcount : CountedIn sqrt (aggregateCellPeriod sqrt period' db m.cell) period' m :=
      countedIn_aggregateCell hv hr (by rw [hstart, hstop]; exact hin)
    -- the rows do not tell the kind of their window
    have hrows : metricBatch sqrt m.cell period' = metricBatch sqrt m.cell period := by
      obtain ⟨kind, start, stop⟩ := period
      obtain ⟨kind', start', stop'⟩ := period'
      obtain rfl : start' = start := hstart
      obtain rfl : stop' = stop := hstop
      rfl
    rw [CountedIn, Database.liveMetrics, hof, hrows] at hcount
    exact hcount
  · exact h.congr (liveMetrics_aggregate_other hv hsame) fun p hp =>
      hp.republished ((Republished.refl db).aggregateCellPeriod sqrt period' cell)

/-- Valid tables in which the pair is readable, and counted in the window. -/
structure Counting (sqrt : ℚ → ℚ) (m : MatchedEvaluation) (period : Period) (db : Database) : Prop where
  valid : db.Valid
  readable : db.Readable m
  counted : CountedIn sqrt db period m

theorem Counting.aggregateCell (h : Counting sqrt m period db)
    (hin : period.start ≤ m.snapshot.targetTime ∧ m.snapshot.targetTime < period.stop) (period' : Period)
    (cell : Cell) : Counting sqrt m period (aggregateCellPeriod sqrt period' db cell) where
  valid := h.valid.aggregateCellPeriod
  readable := h.readable.republished ((Republished.refl db).aggregateCellPeriod sqrt period' cell)
  counted := h.counted.aggregateCell h.valid h.readable hin period' cell

/-- Aggregating a window counts the readable pairs in it: their cells are listed. -/
theorem counting_aggregatePeriod (hv : db.Valid) (hr : db.Readable m)
    (hin : period.start ≤ m.snapshot.targetTime ∧ m.snapshot.targetTime < period.stop) :
    Counting sqrt m period (aggregatePeriod sqrt db period) := by
  obtain ⟨before, after, hcells⟩ := List.append_of_mem (hr.mem_listCells hin)
  rw [aggregatePeriod, hcells, List.foldl_append, List.foldl_cons]
  have hmid : (before.foldl (aggregateCellPeriod sqrt period) db).Valid ∧
      Republished db (before.foldl (aggregateCellPeriod sqrt period) db) :=
    List.foldlRecOn (motive := fun db' => db'.Valid ∧ Republished db db') before _ ⟨hv, .refl db⟩
      fun db' h cell _ => ⟨h.1.aggregateCellPeriod, h.2.aggregateCellPeriod sqrt period cell⟩
  have hread := hr.republished hmid.2
  refine List.foldlRecOn (motive := Counting sqrt m period) after _ ?_ fun db' h cell _ =>
    h.aggregateCell hin period cell
  exact ⟨hmid.1.aggregateCellPeriod,
    hread.republished ((Republished.refl _).aggregateCellPeriod sqrt period m.cell),
    countedIn_aggregateCell hmid.1 hread hin⟩

/-- **A batch counts every readable pair in each of its windows that the pair falls in.** -/
theorem countedIn_aggregateBatch (hv : db.Valid) (hr : db.Readable m) {now : ℤ} (hp : period ∈ standardPeriods now)
    (hin : period.start ≤ m.snapshot.targetTime ∧ m.snapshot.targetTime < period.stop) :
    CountedIn sqrt (aggregateBatch sqrt now db) period m := by
  obtain ⟨before, after, hperiods⟩ := List.append_of_mem hp
  rw [aggregateBatch, hperiods, List.foldl_append, List.foldl_cons]
  have hcells : ∀ (P : Database → Prop), (∀ q db cell, P db → P (aggregateCellPeriod sqrt q db cell)) →
      ∀ db q, P db → P (aggregatePeriod sqrt db q) := by
    intro P hP db q h
    exact List.foldlRecOn _ _ h fun db' h cell _ => hP q db' cell h
  have hmid : (before.foldl (aggregatePeriod sqrt) db).Valid ∧
      Republished db (before.foldl (aggregatePeriod sqrt) db) :=
    List.foldlRecOn (motive := fun db' => db'.Valid ∧ Republished db db') before _ ⟨hv, .refl db⟩ fun db' h q _ =>
      hcells (fun db' => db'.Valid ∧ Republished db db')
        (fun q db' cell h => ⟨h.1.aggregateCellPeriod, h.2.aggregateCellPeriod sqrt q cell⟩) db' q h
  refine (List.foldlRecOn (motive := Counting sqrt m period) after _ ?_ fun db' h q _ =>
    hcells (Counting sqrt m period) (fun q db' cell h => h.aggregateCell hin q cell) db' q h).counted
  exact counting_aggregatePeriod hmid.1 (hr.republished hmid.2) hin

/-- A window that is none of the batch's is left alone. -/
theorem liveMetrics_aggregateBatch_other (hv : db.Valid) {now : ℤ} {cell : Cell}
    (hp : ∀ q ∈ standardPeriods now, ¬ (q.start = period.start ∧ q.stop = period.stop)) :
    (aggregateBatch sqrt now db).liveMetrics cell period = db.liveMetrics cell period := by
  refine (aggregateBatch_induction (fun db' => db'.Valid ∧
    db'.liveMetrics cell period = db.liveMetrics cell period) ?_ ⟨hv, rfl⟩).2
  rintro q hq db' cell' ⟨hv', hmem⟩
  exact ⟨hv'.aggregateCellPeriod, (liveMetrics_aggregate_other hv' fun hsame => hp q hq hsame.2).trans hmem⟩

end Counting

end ForecastIQ.Analysis
