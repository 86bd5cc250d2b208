import ForecastIQ.Analysis.Batch

/-!
# The calendar-day gate

The business rules want the data of a cell to span seven calendar days before a provider is
`ranked`. What `RankPeriod` hands to `status` is the number of days of the period itself, and a
calendar month has at least 28, so the gate stands open in every month. `few_days_not_ranked_iff` says
what is left of it for a whole run of aggregation and ranking: a provider with pairs on fewer
than seven days is kept from `ranked` exactly by the other thresholds.

A run recomputes the metrics of the cells that have a live pair in the period, and ranks whoever
has live metrics of the period. A cell without a live pair is ranked on its older metrics.
-/

namespace ForecastIQ.Analysis

open ForecastIQ.Foundations ForecastIQ.Foundations.Supersession ForecastIQ.Collection Eval

/-! ### Months, days and rankings -/

/-- The period of a calendar month, as `RankBatch` and `standardPeriods` build it. -/
def calendarMonth (month : ℤ) : Period := ⟨.monthly, monthStartDay month * day, monthStartDay (month + 1) * day⟩

/-- The gate is open in every month. -/
theorem seven_le_calendarDays (month : ℤ) : 7 ≤ calendarDays (calendarMonth month) := by
  refine calendarDays_ge ?_
  have h := (monthStartDay_succ_bounds month).1
  simp only [calendarMonth, day_eq]
  omega

/-- The days on which the live pairs of a cell fall in a window. -/
def Database.pairDays (db : Database) (cell : Cell) (period : Period) : List ℤ :=
  ((db.matched.filter fun m =>
    m.cell = cell ∧ period.start ≤ m.snapshot.targetTime ∧ m.snapshot.targetTime < period.stop ∧
      (db.observations.rows.any fun o => o.id = m.observationID && o.live) = true).map
        fun m => dayNumber m.snapshot.targetTime).dedup

/-- The location and horizon of a cell. -/
def Cell.locationHorizon (cell : Cell) : LocationHorizon := ⟨cell.locationID, cell.horizonMinutes⟩

/-- The row is a ranking of the cell and window with this status. -/
def Stamped.Ranks (cell : Cell) (period : Period) (st : RankingStatus) (r : Stamped) : Prop :=
  ∃ row, r.row = .ranking row ∧ row.providerID = cell.providerID ∧ row.locationID = cell.locationID ∧
    row.horizonMinutes = cell.horizonMinutes ∧ row.periodStart = period.start ∧ row.periodEnd = period.stop ∧
    row.status = st

/-- A publication since number `since` gave the cell's provider this status in the window. -/
def Receives (since : ℕ) (db : Database) (cell : Cell) (period : Period) (st : RankingStatus) : Prop :=
  ∃ r ∈ db.published, since ≤ r.id.tx ∧ r.value.Ranks cell period st

/-- The live metrics of a cell and window, as ranking reads them. -/
def Database.cohortRows (db : Database) (cell : Cell) (period : Period) : List (MetricValue ℚ) :=
  (db.liveMetrics cell period).filterMap fun r =>
    match r.row with
    | .metric m => some m.toMetricValue
    | .ranking _ => none

/-- They are the provider's part of its cohort. -/
theorem rowsOf_readCohortMetrics (db : Database) (cell : Cell) (period : Period) :
    rowsOf (db.readCohortMetrics cell.locationHorizon period) cell.providerID = db.cohortRows cell period := by
  have hperiod : db.periodMetrics period = db.liveValues.filterMap fun r =>
      match r.row with
      | .metric m => if m.periodStart = period.start ∧ m.periodEnd = period.stop then some m else none
      | .ranking _ => none := by
    rw [Database.periodMetrics, Database.liveValues, List.filterMap_map]
    rfl
  rw [Database.readCohortMetrics, hperiod, Database.cohortRows, Database.liveMetrics_eq]
  obtain ⟨provider, location, horizon⟩ := cell
  generalize db.liveValues = values
  induction values with
  | nil => rfl
  | cons r values ih =>
    obtain ⟨row, pairs⟩ := r
    cases row with
    | ranking row => exact ih
    | metric m =>
      simp only [rowsOf, Cell.locationHorizon, Stamped.key, List.filterMap_cons, List.filter_cons] at ih ⊢
      by_cases h1 : m.periodStart = period.start ∧ m.periodEnd = period.stop <;>
        by_cases h2 : m.locationID = location ∧ m.horizonMinutes = horizon <;>
          by_cases h3 : m.providerID = provider <;>
            simp [LogicalKey.isOf, PublishedRow.key, AccuracyMetric.toMetricValue, h1, h2, h3, ih]

/-- A publication gives what its batch gives. -/
theorem receives_publish {since : ℕ} {db : Database} (hsince : since ≤ db.publications) (batch : List Stamped)
    {cell : Cell} {period : Period} {st : RankingStatus} :
    Receives since (db.publish batch) cell period st ↔
      Receives since db cell period st ∨ ∃ r ∈ batch, r.Ranks cell period st := by
  refine (exists_mem_publish (P := fun id (r : Stamped) => since ≤ id.tx ∧ r.Ranks cell period st)).trans
    (or_congr Iff.rfl ?_)
  constructor
  · rintro ⟨v, hv, -, hranks⟩
    exact ⟨v.value, (Tx.mem_rows_new hv).2.2, hranks⟩
  · rintro ⟨r, hr, hranks⟩
    rw [← Tx.map_value_rows_new db.publications batch] at hr
    obtain ⟨v, hv, rfl⟩ := List.mem_map.mp hr
    exact ⟨v, hv, (Tx.mem_rows_new hv).1 ▸ hsince, hranks⟩

/-! ### Aggregation -/

section Aggregation

variable {sqrt : ℚ → ℚ} {period : Period} {db db' : Database} {cell : Cell}

theorem Republished.cellBatch (h : Republished db db') :
    db'.cellBatch sqrt period cell = db.cellBatch sqrt period cell := by
  obtain ⟨published, publications, rfl⟩ := h
  rfl

/-- The live metrics after some cells have been aggregated, in any order. -/
theorem liveMetrics_foldl_aggregate (hv : db'.Valid) (hr : Republished db db') (cells : List Cell) :
    (cells.foldl (aggregateCellPeriod sqrt period) db').liveMetrics cell period =
      if cell ∈ cells then db.cellBatch sqrt period cell else db'.liveMetrics cell period := by
  induction cells generalizing db' with
  | nil => simp
  | cons c cells ih =>
    rw [List.foldl_cons, ih hv.aggregateCellPeriod (hr.aggregateCellPeriod sqrt period c)]
    by_cases hc : c = cell
    · subst hc
      rw [liveMetrics_aggregate_self hv, hr.cellBatch, ite_self, if_pos List.mem_cons_self]
    · rw [liveMetrics_aggregate_other hv fun hsame => hc hsame.1]
      simp [Ne.symm hc]

/-- Metrics rank nobody. -/
theorem not_ranks_of_mem_cellBatch {c : Cell} {r : Stamped} (h : r ∈ db.cellBatch sqrt period c)
    (st : RankingStatus) : ¬ r.Ranks cell period st := by
  rintro ⟨row, hrow, -⟩
  obtain ⟨m, hm, rfl⟩ := List.mem_map.mp h
  obtain ⟨m', -, rfl⟩ := List.mem_map.mp hm
  cases hrow

variable (sqrt period cell) in
/-- A run of aggregation keeps the tables valid and ranks nobody. -/
theorem aggregatePeriod_spec (hv : db.Valid) :
    (aggregatePeriod sqrt db period).Valid ∧ db.publications ≤ (aggregatePeriod sqrt db period).publications ∧
      ∀ st, ¬ Receives db.publications (aggregatePeriod sqrt db period) cell period st := by
  refine List.foldlRecOn (motive := fun db' : Database => db'.Valid ∧ db.publications ≤ db'.publications ∧
    ∀ st, ¬ Receives db.publications db' cell period st) _ _ ⟨hv, Nat.le_refl _, fun st => ?_⟩ ?_
  · rintro ⟨r, hr, hle, -⟩
    exact absurd (hv.fresh r hr) (not_lt.mpr hle)
  · rintro db' ⟨hv', hle, hrec⟩ c -
    refine ⟨hv'.aggregateCellPeriod, ?_, fun st => ?_⟩
    · rw [aggregateCellPeriod_eq]
      exact hle.trans (Nat.le_succ _)
    · rw [aggregateCellPeriod_eq, receives_publish hle]
      rintro (h | ⟨r, hr, hranks⟩)
      · exact hrec st h
      · exact not_ranks_of_mem_cellBatch hr st hranks

/-- The rows that ranking reads after a run of aggregation: computed from the pairs where the cell
has a live one, and the older ones otherwise. -/
theorem cohortRows_aggregatePeriod (hv : db.Valid) :
    (aggregatePeriod sqrt db period).cohortRows cell period =
      if cell ∈ db.listCells period.start period.stop then
        readRows sqrt cell period ((db.readPairs cell period.start period.stop).map Prod.snd)
          (snapshotVariableCounts db.store cell period.start period.stop)
          (scheduledForecastSlots db.slots db.configs cell.providerID cell.locationID period.start period.stop)
          (successfulCollections db.store cell.providerID cell.locationID period.start period.stop)
      else db.cohortRows cell period := by
  rw [Database.cohortRows, aggregatePeriod, liveMetrics_foldl_aggregate hv (.refl db)]
  split_ifs
  · rw [Database.cellBatch, List.filterMap_map, metricBatch, List.filterMap_map, readRows, ← List.filterMap_eq_map]
    rfl
  · rfl

end Aggregation

/-! ### Ranking -/

section Ranking

variable {period : Period} {db : Database} {cell : Cell} {since : ℕ}

theorem EnoughRows.ne_nil {rows : List (MetricValue ℚ)} (h : EnoughRows rows) : rows ≠ [] := by
  rintro rfl
  exact h.known rfl

/-- Ranking one location and horizon makes a provider `ranked` exactly when it is the provider's and
its rows suffice. -/
theorem receives_rankCellPeriod (hsince : since ≤ db.publications) (hdays : 7 ≤ calendarDays period)
    (lh : LocationHorizon) :
    Receives since (rankCellPeriod period db lh) cell period .ranked ↔
      Receives since db cell period .ranked ∨ lh = cell.locationHorizon ∧ EnoughRows (db.cohortRows cell period) := by
  have hbatch : (∃ r ∈ (rankingBatch (db.readCohortMetrics lh period) lh period).map fun row => (⟨row, []⟩ : Stamped),
      r.Ranks cell period .ranked) ↔ lh = cell.locationHorizon ∧
        ∃ q ∈ rankCell (db.readCohortMetrics lh period) period,
          q.providerID = cell.providerID ∧ q.status = .ranked := by
    constructor
    · rintro ⟨r, hr, row, hrow, hp, hl, hh, -, -, hst⟩
      obtain ⟨row', hrow', rfl⟩ := List.mem_map.mp hr
      obtain ⟨q, hq, rfl⟩ := List.mem_map.mp hrow'
      cases hrow
      refine ⟨?_, q, hq, hp, hst⟩
      rw [Cell.locationHorizon, ← hl, ← hh]
      rfl
    · rintro ⟨rfl, q, hq, hp, hst⟩
      exact ⟨_, List.mem_map_of_mem (List.mem_map_of_mem hq), _, rfl, hp, rfl, rfl, rfl, rfl, hst⟩
  rw [rankCellPeriod, receives_publish hsince, hbatch]
  refine or_congr Iff.rfl (and_congr_right ?_)
  rintro rfl
  rw [rankCell, exists_ranking_iff, rowsOf_readCohortMetrics, status_ofRows_eq_ranked_iff hdays]
  refine and_iff_right_of_imp fun h => ?_
  obtain ⟨m, hm⟩ := List.exists_mem_of_ne_nil _ h.ne_nil
  rw [← rowsOf_readCohortMetrics, rowsOf, List.mem_filter, decide_eq_true_eq] at hm
  exact List.mem_map.mpr ⟨m, hm⟩

theorem cohortRows_rankCellPeriod (hv : db.Valid) (lh : LocationHorizon) :
    (rankCellPeriod period db lh).cohortRows cell period = db.cohortRows cell period := by
  rw [Database.cohortRows, liveMetrics_rank hv, Database.cohortRows]

/-- The statuses after some locations and horizons have been ranked, in any order. -/
theorem receives_foldl_rankCellPeriod (hv : db.Valid) (hsince : since ≤ db.publications)
    (hdays : 7 ≤ calendarDays period) (cells : List LocationHorizon) :
    Receives since (cells.foldl (rankCellPeriod period) db) cell period .ranked ↔
      Receives since db cell period .ranked ∨
        cell.locationHorizon ∈ cells ∧ EnoughRows (db.cohortRows cell period) := by
  induction cells generalizing db with
  | nil => simp
  | cons lh cells ih =>
    rw [List.foldl_cons, ih hv.rankCellPeriod (hsince.trans (Nat.le_succ _)), cohortRows_rankCellPeriod hv,
      receives_rankCellPeriod hsince hdays, List.mem_cons, or_assoc, ← or_and_right, eq_comm]

/-- A run of ranking makes a provider `ranked` exactly when its rows suffice: with rows, its location
and horizon are among those that are ranked. -/
theorem receives_rankPeriod (hv : db.Valid) (hsince : since ≤ db.publications) (hdays : 7 ≤ calendarDays period) :
    Receives since (rankPeriod period db) cell period .ranked ↔
      Receives since db cell period .ranked ∨ EnoughRows (db.cohortRows cell period) := by
  rw [rankPeriod, receives_foldl_rankCellPeriod hv hsince hdays]
  refine or_congr Iff.rfl (and_iff_right_of_imp fun h => ?_)
  obtain ⟨m, hm⟩ := List.exists_mem_of_ne_nil _ h.ne_nil
  rw [← rowsOf_readCohortMetrics, rowsOf, List.mem_filter, Database.readCohortMetrics] at hm
  obtain ⟨x, hx, -⟩ := List.mem_map.mp hm.1
  rw [List.mem_filter, decide_eq_true_eq] at hx
  refine List.mem_dedup.mpr (List.mem_map.mpr ⟨x, hx.1, ?_⟩)
  rw [hx.2.1, hx.2.2]

end Ranking

/-! ### What keeps a provider from being ranked -/

/-- The pairs, snapshots and slots of a cell reach the thresholds of `ranked`, apart from the days. -/
structure EnoughPairs (pairs : List (PairRecord ℚ)) (counts : VariableCounts) (scheduled : ℕ) : Prop where
  temperature : 30 ≤ pairs.countP fun p => eligible p.fTemperature p.oTemperature p.qualityFlag
  recognised : ∃ p ∈ pairs, eligible p.fTemperature p.oTemperature p.qualityFlag = true ∧ p.Recognised
  precipitation : 30 ≤ pairs.countP PairRecord.occurrenceKnown
  wet : ∃ p ∈ pairs, p.occurrenceKnown = true ∧ p.Wet ∧ p.Recognised
  coverage : ∀ n ∈ counts.toList, coverageRankedMin ≤ (n : ℚ) / scheduled

theorem enoughRows_readRows_iff_enoughPairs {sqrt : ℚ → ℚ} {cell : Cell} {period : Period}
    {pairs : List (PairRecord ℚ)} {counts : VariableCounts} {scheduled success : ℕ} :
    EnoughRows (readRows sqrt cell period pairs counts scheduled success) ↔ EnoughPairs pairs counts scheduled := by
  rw [enoughRows_readRows_iff, accumulate_mae_isSome_iff, accumulate_f1_isSome_iff, accumulate_temp_n,
    accumulate_occN]
  constructor
  · rintro ⟨⟨h1, h2⟩, ⟨h3, h4⟩, h5⟩
    exact ⟨h2, h1, h4, h3, h5⟩
  · rintro ⟨h2, h1, h4, h3, h5⟩
    exact ⟨⟨h1, h2⟩, ⟨h3, h4⟩, h5⟩

/-- What a run makes `ranked`: a cell with a live pair in the window by its pairs, and another by the
metrics it has. -/
def Database.EnoughToRank (db : Database) (cell : Cell) (period : Period) : Prop :=
  if cell ∈ db.listCells period.start period.stop then
    EnoughPairs ((db.readPairs cell period.start period.stop).map Prod.snd)
      (snapshotVariableCounts db.store cell period.start period.stop)
      (scheduledForecastSlots db.slots db.configs cell.providerID cell.locationID period.start period.stop)
  else EnoughRows (db.cohortRows cell period)

/-- A run over a month makes a provider `ranked` exactly when it has enough, on however few days. -/
theorem receives_ranked_iff (sqrt : ℚ → ℚ) {db : Database} (hv : db.Valid) (month : ℤ) (cell : Cell) :
    Receives db.publications (rankPeriod (calendarMonth month) (aggregatePeriod sqrt db (calendarMonth month))) cell
      (calendarMonth month) .ranked ↔ db.EnoughToRank cell (calendarMonth month) := by
  obtain ⟨hv', hle, hnone⟩ := aggregatePeriod_spec sqrt (calendarMonth month) cell hv
  rw [receives_rankPeriod hv' hle (seven_le_calendarDays month), or_iff_right (hnone .ranked),
    cohortRows_aggregatePeriod hv, Database.EnoughToRank]
  split_ifs
  · exact enoughRows_readRows_iff_enoughPairs
  · exact Iff.rfl

/-- **Pairs on fewer than seven days do not keep a provider from being ranked.** After a run of
aggregation and ranking over a calendar month, from any valid tables, the rule holds of a provider
exactly when its pairs fall on seven days or more, or it misses one of the other thresholds. -/
theorem few_days_not_ranked_iff (sqrt : ℚ → ℚ) {db : Database} (hv : db.Valid) (month : ℤ) (cell : Cell) :
    ((db.pairDays cell (calendarMonth month)).length < 7 →
      ¬ Receives db.publications (rankPeriod (calendarMonth month) (aggregatePeriod sqrt db (calendarMonth month)))
        cell (calendarMonth month) .ranked) ↔
      7 ≤ (db.pairDays cell (calendarMonth month)).length ∨ ¬ db.EnoughToRank cell (calendarMonth month) := by
  rw [receives_ranked_iff sqrt hv]
  constructor
  · intro h
    by_cases hd : (db.pairDays cell (calendarMonth month)).length < 7
    · exact .inr (h hd)
    · exact .inl (not_lt.mp hd)
  · rintro (hd | hn) hlt
    · exact absurd hlt (not_lt.mpr hd)
    · exact hn

/-! ### A month with data on two days -/

/-- The snapshot of hour `i`, one hour ahead: one millimetre of rain at `20°C`. -/
def hourSnapshot (i : ℕ) : SnapshotRow :=
  ⟨i, 0, 1, 1, ⟨i * hour - hour, i * hour, 60,
    ⟨some 20, none, some 1, some 1, some 50, some 3, none, some 1010, none⟩, none⟩⟩

/-- The observation of hour `i`, which agrees. -/
def hourObservation (i : ℕ) : Observation where
  toReading := ⟨.stationObservation, i * hour, some 20, some 50, some 3, none, some 1010, some 1, none, .valid⟩
  id := i
  locationID := 1
  source := "station"
  supersededObservationID := none

/-- The slot of hour `i`. -/
def hourSlot (i : ℕ) : Scheduler.Slot :=
  ⟨i, ⟨1, .forecastCollection, some 1, i * hour⟩, .completed, none, none, none, 1, none, none, i * hour⟩

/-- The first `n` hours of January 1970, with nothing published yet. -/
def hoursDatabase (n : ℕ) : Database where
  store := { Store.empty with snapshots := (List.range n).map hourSnapshot, nextID := n }
  observations := ⟨(List.range n).map hourObservation, n⟩
  slots := ⟨(List.range n).map hourSlot, n⟩
  configs := oneConfig
  matched := (List.range n).map fun i => newPair (toMatch (hourSnapshot i)) i (i * hour)
  published := []
  publications := 0

theorem hoursDatabase_valid (n : ℕ) : (hoursDatabase n).Valid where
  observations :=
    { id_lt := by simp [hoursDatabase, hourObservation]
      nodup := by
        simp only [hoursDatabase, List.map_map, Function.comp_def, hourObservation, List.map_id']
        exact List.nodup_range
      superseded_lt := by simp [hoursDatabase, hourObservation]
      corrected := by simp [hoursDatabase, hourObservation] }
  paired := by
    intro m hm
    obtain ⟨i, hi, rfl⟩ := List.mem_map.mp hm
    exact ⟨⟨hourSnapshot i, List.mem_map_of_mem hi, rfl⟩, hourObservation i, List.mem_map_of_mem hi, rfl,
      fun h => nomatch h⟩
  stamped := by simp [hoursDatabase]
  typed := by simp [hoursDatabase]
  fresh := by simp [hoursDatabase]

/-- January 1970. -/
def january : Period := calendarMonth (12 * 1970)

/-- With 29 hours on two days the provider is not ranked, for want of pairs. -/
theorem twentyNine_hours_not_ranked :
    ((hoursDatabase 29).pairDays sampleCell january).length = 2 ∧
      ¬ Receives 0 (rankPeriod january (aggregatePeriod id (hoursDatabase 29) january)) sampleCell january .ranked := by
  have hdays : ((hoursDatabase 29).pairDays sampleCell january).length = 2 := by decide +kernel
  refine ⟨hdays, (few_days_not_ranked_iff id (hoursDatabase_valid 29) (12 * 1970) sampleCell).mpr
    (.inr fun h => ?_) (lt_of_eq_of_lt hdays (by decide))⟩
  rw [Database.EnoughToRank, if_pos (by decide +kernel)] at h
  exact absurd h.temperature (by decide +kernel)

/-- With 30 hours on the same two days it is ranked. -/
theorem thirty_hours_ranked :
    (hoursDatabase 30).Valid ∧ ((hoursDatabase 30).pairDays sampleCell january).length = 2 ∧
      Receives 0 (rankPeriod january (aggregatePeriod id (hoursDatabase 30) january)) sampleCell january .ranked := by
  refine ⟨hoursDatabase_valid 30, by decide +kernel,
    (receives_ranked_iff id (hoursDatabase_valid 30) (12 * 1970) sampleCell).mpr ?_⟩
  rw [Database.EnoughToRank, if_pos (by decide +kernel)]
  have hany : (((hoursDatabase 30).readPairs sampleCell january.start january.stop).map Prod.snd).any (fun p =>
      eligible p.fTemperature p.oTemperature p.qualityFlag && p.occurrenceKnown && observedRain p.oPrecipMM &&
        decide (p.observationType = .stationObservation)) = true := by decide +kernel
  obtain ⟨p, hp, hcheck⟩ := List.any_eq_true.mp hany
  simp only [Bool.and_eq_true, decide_eq_true_eq] at hcheck
  obtain ⟨⟨⟨heligible, hknown⟩, hrain⟩, htype⟩ := hcheck
  have hrec : p.Recognised := fun name h => by rw [htype] at h; cases h
  exact ⟨by decide +kernel, ⟨p, hp, heligible, hrec⟩, by decide +kernel, ⟨p, hp, hknown, .inr hrain, hrec⟩,
    by decide +kernel⟩

end ForecastIQ.Analysis
