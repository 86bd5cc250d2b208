import ForecastIQ.Analysis.Batch
import Mathlib.Logic.Relation

/-!
# Pairs that no metric counts

Any sequence of batches, with forecasts, observations and corrections arriving between
them and between their stages, and with batches that stop anywhere (`Reached`). A batch
matches, aggregates and ranks, each at its own clock.

Whether the metrics of a pair's day, week and month count it after the batch that made
it depends on the two clocks alone: they do exactly when aggregation runs on the UTC day
of the target hour (`pair_counted_iff`). Since matching leaves out the last two hours,
the pairs of those hours of a day are never made on that day.

To be counted means that the rows are those that `computeRows` makes of records with that
of the pair among them. `Reached.computed` says of every row ever published that it is so
computed from exactly the records it carries.
-/

namespace ForecastIQ.Analysis

open ForecastIQ.Foundations ForecastIQ.Collection

/-! ### Arrivals -/

/-- What other parts of the system write: a collection, an observation run, or the schedule. -/
inductive Arrival : Database → Database → Prop where
  | collected {db : Database} (input : CollectInput) (x : Exchange) :
      Arrival db { db with store := (collect input x db.store).2 }
  | observed {db : Database} {active : Bool} {source : String} {locationID : ℕ} {windowStart windowEnd : ℤ}
      {fetched : Option (List Reading)} {n : ℕ} {observations : ObservationStore} :
      observe active source locationID windowStart windowEnd fetched db.observations = .ok (n, observations) →
      Arrival db { db with observations := observations }
  | scheduled {db : Database} (slots : Scheduler.State) (configs : List Catalog.ProviderConfiguration) :
      Arrival db { db with slots := slots, configs := configs }

/-- Any number of arrivals. -/
def Arrivals : Database → Database → Prop := Relation.ReflTransGen Arrival

/-- What arrivals keep. -/
structure Arrived (db db' : Database) : Prop where
  valid : db.Valid → db'.Valid
  matched : db'.matched = db.matched
  published : db'.published = db.published
  publications : db'.publications = db.publications
  nextID : db.observations.nextID ≤ db'.observations.nextID
  live : ∀ o ∈ db'.observations.rows, o.live = true → o.id < db.observations.nextID → o ∈ db.observations.rows
  records : ∀ p, db.Records p → db'.Records p

theorem Arrived.trans {a b c : Database} (h : Arrived a b) (h' : Arrived b c) : Arrived a c where
  valid := h'.valid ∘ h.valid
  matched := h'.matched.trans h.matched
  published := h'.published.trans h.published
  publications := h'.publications.trans h.publications
  nextID := h.nextID.trans h'.nextID
  live := fun o ho hl hid => h.live o (h'.live o ho hl (lt_of_lt_of_le hid h.nextID)) hl hid
  records := fun p => h'.records p ∘ h.records p

theorem Arrival.arrived {db db' : Database} (h : Arrival db db') : Arrived db db' := by
  cases h with
  | collected input x =>
    refine ⟨fun hv => ?_, rfl, rfl, rfl, le_refl _, fun o ho _ _ => ho, ?_⟩
    · refine ⟨hv.observations, fun m hm => ?_, hv.stamped, hv.typed, hv.fresh⟩
      obtain ⟨⟨r, hr, he⟩, ho⟩ := hv.paired m hm
      exact ⟨⟨r, snapshots_subset_collect input x db.store hr, he⟩, ho⟩
    · rintro p ⟨s, hs, ho⟩
      exact ⟨s, snapshots_subset_collect input x db.store hs, ho⟩
  | observed hobs =>
    refine ⟨fun hv => ?_, rfl, rfl, rfl, (observe_ok hobs).1, fun o ho hl hid => live_of_observe hobs ho hl hid, ?_⟩
    · refine ⟨hv.observations.observe hobs, fun m hm => ?_, hv.stamped, hv.typed, hv.fresh⟩
      obtain ⟨hs, o, ho, hid, hflag⟩ := hv.paired m hm
      obtain ⟨o', ho', hid', hsame⟩ := kept_of_observe hobs ho
      exact ⟨hs, o', ho', hid'.trans hid, by rw [hsame]; exact hflag⟩
    · rintro p ⟨s, hs, o, ho, rfl⟩
      obtain ⟨o', ho', hid', hsame⟩ := kept_of_observe hobs ho
      exact ⟨s, hs, o', ho', by rw [hid', pairRecord, pairRecord, hsame]⟩
  | scheduled slots configs =>
    exact ⟨fun hv => ⟨hv.observations, hv.paired, hv.stamped, hv.typed, hv.fresh⟩, rfl, rfl, rfl, le_refl _,
      fun o ho _ _ => ho, fun _ => id⟩

theorem Arrivals.arrived {db db' : Database} (h : Arrivals db db') : Arrived db db' := by
  induction h with
  | refl => exact ⟨id, rfl, rfl, rfl, le_refl _, fun o ho _ _ => ho, fun _ => id⟩
  | tail _ hstep ih => exact ih.trans hstep.arrived

/-! ### Runs -/

/-- The tables that arrivals and batches reach. A batch may stop after any chunk of matching and
after any cell of aggregation or ranking, so these are its steps. -/
inductive Reached (sqrt : ℚ → ℚ) : Database → Prop where
  | init : Reached sqrt .empty
  | arrival {db db' : Database} : Reached sqrt db → Arrival db db' → Reached sqrt db'
  | chunk {db : Database} (chunk : List SnapshotToMatch) :
      Reached sqrt db → (∀ snap ∈ chunk, ∃ r ∈ db.store.snapshots, toMatch r = snap) →
      Reached sqrt { db with matched := matchChunk db.observations.rows chunk db.matched }
  | rematched {db : Database} :
      Reached sqrt db → Reached sqrt { db with matched := rematch db.observations.rows db.matched }
  | aggregated {db : Database} (period : Period) (cell : Cell) :
      Reached sqrt db → Reached sqrt (aggregateCellPeriod sqrt period db cell)
  | ranked {db : Database} (period : Period) (cell : LocationHorizon) :
      Reached sqrt db → Reached sqrt (rankCellPeriod period db cell)

/-- New pairs keep the tables valid. -/
theorem Database.Valid.insertMatches {db : Database} (h : db.Valid) {new : List MatchedEvaluation}
    (hnew : ∀ m ∈ new, Paired db.store.snapshots db.observations.rows m) :
    { db with matched := insertMatches db.matched new }.Valid := by
  refine ⟨h.observations, fun m hm => ?_, fun r hr p hp => ?_, h.typed, h.fresh⟩
  · rcases mem_of_mem_insertAll hm with hm | hm
    · exact h.paired m hm
    · exact hnew m hm
  · obtain ⟨m, hm, he⟩ := List.mem_map.mp (h.stamped r hr p hp)
    exact List.mem_map.mpr ⟨m, mem_insertAll_of_mem hm, he⟩

theorem Reached.valid {sqrt : ℚ → ℚ} {db : Database} (h : Reached sqrt db) : db.Valid := by
  induction h with
  | init => exact Database.Valid.empty
  | arrival _ harr ih => exact harr.arrived.valid ih
  | chunk chunk _ hchunk ih =>
    refine ih.insertMatches fun m hm => ?_
    obtain ⟨snap, hsnap, hpair⟩ := List.mem_filterMap.mp hm
    exact paired_of_pairFor (hchunk snap hsnap) hpair
  | rematched _ ih =>
    refine ih.insertMatches fun m hm => ?_
    obtain ⟨t, ht, rfl⟩ := List.mem_map.mp hm
    exact paired_of_rematch ih.observations ih.paired ht
  | aggregated period cell _ ih => exact ih.aggregateCellPeriod
  | ranked period cell _ ih => exact ih.rankCellPeriod

/-! ### What the rows are computed from -/

/-- The row carries records of stored rows, and, if it is a metric, `computeRows` makes it of them. -/
structure Stamped.Computed (sqrt : ℚ → ℚ) (db : Database) (r : Stamped) : Prop where
  records : ∀ p ∈ r.pairs, db.Records p
  row : ∀ m, r.row = .metric m → ∃ cell period counts scheduled success,
    m ∈ computeRows sqrt cell period (r.pairs.map Prod.snd) counts scheduled success

theorem Stamped.Computed.mono {sqrt : ℚ → ℚ} {db db' : Database} {r : Stamped} (h : r.Computed sqrt db)
    (hdb : ∀ p, db.Records p → db'.Records p) : r.Computed sqrt db' := ⟨fun p hp => hdb p (h.records p hp), h.row⟩

theorem computed_of_mem_cellBatch {sqrt : ℚ → ℚ} {period : Period} {db : Database} {cell : Cell} {r : Stamped}
    (h : r ∈ db.cellBatch sqrt period cell) : r.Computed sqrt db := by
  have hpairs := pairs_of_mem_cellBatch sqrt period db cell h
  refine ⟨fun p hp => ?_, fun m hm => ?_⟩
  · rw [hpairs] at hp
    exact records_of_readPairs hp
  · have hrow : r.row ∈ (db.cellBatch sqrt period cell).map Stamped.row := List.mem_map_of_mem h
    rw [map_row_cellBatch, ← hpairs, hm] at hrow
    obtain ⟨m', hm', he⟩ := List.mem_map.mp hrow
    cases he
    exact ⟨cell, period, _, _, _, hm'⟩

theorem computed_publish {sqrt : ℚ → ℚ} {db : Database} {batch : List Stamped}
    (h : ∀ v ∈ db.published, v.value.Computed sqrt db) (hbatch : ∀ r ∈ batch, r.Computed sqrt db) :
    ∀ v ∈ (db.publish batch).published, v.value.Computed sqrt (db.publish batch) := by
  intro v hv
  have hold : v.value.Computed sqrt db := by
    rcases Database.mem_publish hv with ⟨w, hw, -, he⟩ | ⟨-, hb⟩
    · rw [he]
      exact h w hw
    · exact hbatch _ hb
  exact hold.mono fun p hp => hp.republished ((Republished.refl db).publish batch)

/-- **Every row ever published was computed from exactly the records it carries.** -/
theorem Reached.computed {sqrt : ℚ → ℚ} {db : Database} (h : Reached sqrt db) :
    ∀ v ∈ db.published, v.value.Computed sqrt db := by
  induction h with
  | init => exact fun v hv => absurd hv List.not_mem_nil
  | arrival _ harr ih =>
    intro v hv
    rw [harr.arrived.published] at hv
    exact (ih v hv).mono harr.arrived.records
  | chunk _ _ _ ih => exact fun v hv => (ih v hv).mono fun _ ⟨s, hs, ho⟩ => ⟨s, hs, ho⟩
  | rematched _ ih => exact fun v hv => (ih v hv).mono fun _ ⟨s, hs, ho⟩ => ⟨s, hs, ho⟩
  | @aggregated db period cell _ ih =>
    rw [aggregateCellPeriod_eq]
    exact computed_publish ih fun r hr => computed_of_mem_cellBatch hr
  | @ranked db period cell _ ih =>
    refine computed_publish ih fun r hr => ?_
    obtain ⟨row, hrow, rfl⟩ := List.mem_map.mp hr
    obtain ⟨q, -, rfl⟩ := List.mem_map.mp hrow
    exact ⟨fun p hp => absurd hp List.not_mem_nil, fun m hm => nomatch hm⟩

/-! ### One batch -/

/-- A batch: match, aggregate and rank, each at its clock, with arrivals in between. The tables
after matching are `matched`. -/
structure BatchRun (sqrt : ℚ → ℚ) (chunkSize : ℕ) (matchedAt aggregatedAt rankedAt : ℤ)
    (before matched after : Database) : Prop where
  matching : ∃ n pairs, matchBatch chunkSize matchedAt before.store.snapshots before.observations.rows before.matched =
    some (n, pairs) ∧ matched = { before with matched := pairs }
  publishing : ∃ db db', Arrivals matched db ∧ Arrivals (aggregateBatch sqrt aggregatedAt db) db' ∧
    after = rankBatch rankedAt db'

section BatchRun

variable {sqrt : ℚ → ℚ} {chunkSize : ℕ} {matchedAt aggregatedAt rankedAt : ℤ} {before matched after : Database}

theorem Reached.matchBatch (h : Reached sqrt before)
    (hb : BatchRun sqrt chunkSize matchedAt aggregatedAt rankedAt before matched after) : Reached sqrt matched := by
  obtain ⟨n, pairs, hmatch, rfl⟩ := hb.matching
  refine matchBatch_induction (fun l => Reached sqrt { before with matched := l }) ?_ ?_ hmatch h
  · intro chunk l hchunk hl
    have hnext := hl.chunk chunk hchunk
    exact hnext
  · intro l hl
    have hnext := hl.rematched
    exact hnext

/-- A pair of the batch whose observation is live at the end could be read by aggregation. -/
theorem readable_of_live {m : MatchedEvaluation} {db db' : Database} (hv : matched.Valid) (hm : m ∈ matched.matched)
    (h1 : Arrivals matched db) (h2 : Arrivals (aggregateBatch sqrt aggregatedAt db) db') {o : Observation}
    (ho : o ∈ db'.observations.rows) (hid : o.id = m.observationID) (hlive : o.live = true) : db.Readable m := by
  have hvdb := h1.arrived.valid hv
  obtain ⟨published, publications, hrep⟩ := (aggregateBatch_spec sqrt aggregatedAt hvdb).2
  have hm' : m ∈ db.matched := by
    rw [h1.arrived.matched]
    exact hm
  obtain ⟨⟨r, hr, hsnap⟩, o', ho', hid', hflag⟩ := hvdb.paired m hm'
  -- the observation was there, and live, when aggregation read it
  have hlt : o.id < db.observations.nextID := by
    rw [hid, ← hid']
    exact hvdb.observations.id_lt o' ho'
  have hmem : o ∈ db.observations.rows := by
    have := h2.arrived.live o ho hlive
    rw [hrep] at this
    exact this hlt
  obtain rfl := List.inj_on_of_nodup_map hvdb.observations.nodup ho' hmem (hid'.trans hid.symm)
  exact ⟨hm', ⟨r, hr, by rw [← hsnap]; rfl⟩, o', ho', hid', hlive, hflag⟩

end BatchRun

/-- **A new pair is counted by the metrics of its day, week and month exactly when aggregation runs
on the day of its target hour**, over every run of batches and arrivals. -/
theorem pair_counted_iff (sqrt : ℚ → ℚ) (chunkSize : ℕ) (matchedAt aggregatedAt rankedAt : ℤ)
    (before matched after : Database) (m : MatchedEvaluation) (o : Observation) (hreach : Reached sqrt before)
    (hb : BatchRun sqrt chunkSize matchedAt aggregatedAt rankedAt before matched after)
    (hm : m ∈ matched.matched) (hnew : m.pair ∉ before.matched.map MatchedEvaluation.pair)
    (ho : o ∈ after.observations.rows) (hid : o.id = m.observationID) (hlive : o.live = true) :
    (∀ period ∈ standardPeriods m.snapshot.targetTime, CountedIn sqrt after period m) ↔
      dayNumber m.snapshot.targetTime = dayNumber aggregatedAt := by
  have hvm := (hreach.matchBatch hb).valid
  obtain ⟨n, pairs, hmatch, hmatched⟩ := hb.matching
  obtain ⟨db, db', h1, h2, rfl⟩ := hb.publishing
  have hvdb := h1.arrived.valid hvm
  have hagg := (aggregateBatch_spec sqrt aggregatedAt hvdb).1
  have hvdb' := h2.arrived.valid hagg
  obtain ⟨-, ⟨_, _, hrank⟩, hmetrics⟩ := rankBatch_spec rankedAt hvdb'
  rw [hrank] at ho
  have hread := readable_of_live hvm hm h1 h2 ho hid hlive
  -- ranking and arrivals change no metric
  have hlast : ∀ period, (rankBatch rankedAt db').liveMetrics m.cell period =
      (aggregateBatch sqrt aggregatedAt db).liveMetrics m.cell period := by
    intro period
    rw [hmetrics, Database.liveMetrics, Database.liveMetrics, h2.arrived.published]
  constructor
  · intro hall
    by_contra hday
    obtain ⟨r, hr, hpair⟩ := (hall ⟨.daily, dayNumber m.snapshot.targetTime * day,
      (dayNumber m.snapshot.targetTime + 1) * day⟩ List.mem_cons_self).exists_row
    -- the day is not recomputed, so its rows are older than the pair
    rw [hlast, liveMetrics_aggregateBatch_other hvdb fun q hq hsame =>
      hday (dayNumber_of_mem_standardPeriods hq hsame.1 hsame.2)] at hr
    obtain ⟨v, ⟨hv, -⟩, rfl, -⟩ := Database.mem_liveMetrics.mp hr
    rw [h1.arrived.published, hmatched] at hv
    obtain ⟨p, hp, he⟩ := List.mem_map.mp hpair
    exact hnew (he ▸ hreach.valid.stamped v hv p hp)
  · intro hday period hperiod
    have hin := mem_standardPeriods hperiod
    have hp : period ∈ standardPeriods aggregatedAt := by
      rw [standardPeriods, ← hday]
      exact hperiod
    refine (countedIn_aggregateBatch hvdb hread hp hin).congr (hlast period) fun p hp => ?_
    exact (h2.arrived.records p hp).republished ⟨_, _, hrank⟩

/-! ### Two batches -/

/-- A reading of a known temperature and no rain. -/
def sampleReading (observedAt : ℤ) : Reading :=
  ⟨.reanalysis, observedAt, some 21, some 55, some 2, some 180, some 1010, some 0, none, .valid⟩

/-- The stored observation of that hour. -/
def sampleObservation (observedAt : ℤ) : Observation :=
  { sampleReading observedAt with
    id := 0, locationID := 1, source := "openmeteo_historical", supersededObservationID := none }

/-- One snapshot for the hour `target`, collected two hours before, and the observation of the hour. -/
def oneHourDatabase (target : ℤ) : Database :=
  ⟨afterOneSlot none (target - 2 * hour), ⟨[sampleObservation target], 1⟩, ⟨[], 0⟩, [], [], [], 0⟩

/-- The pair of the two. -/
def samplePair (target : ℤ) : MatchedEvaluation := newPair ⟨1, 1, 1, target, 180⟩ 0 target

/-- The tables after matching. -/
def oneHourMatched (target : ℤ) : Database := { oneHourDatabase target with matched := [samplePair target] }

/-- The tables after a batch that publishes at `now`. -/
def oneHourAfter (target now : ℤ) : Database := rankBatch now (aggregateBatch id now (oneHourMatched target))

theorem reached_oneHourDatabase (target : ℤ)
    (h : observe true "openmeteo_historical" 1 (target - hour) target (some [sampleReading target]) .empty =
      .ok (1, ⟨[sampleObservation target], 1⟩)) : Reached id (oneHourDatabase target) := by
  have hcollected : Reached id { Database.empty with store := afterOneSlot none (target - 2 * hour) } :=
    Reached.init.arrival (.collected (oneHourExecution none (target - 2 * hour)).input
      (oneHourExecution none (target - 2 * hour)).exchange)
  exact hcollected.arrival (.observed h)

theorem batchRun_oneHour (target now : ℤ)
    (h : matchBatch defaultChunkSize now (oneHourDatabase target).store.snapshots
      (oneHourDatabase target).observations.rows [] = some (1, [samplePair target])) :
    BatchRun id defaultChunkSize now now now (oneHourDatabase target) (oneHourMatched target)
      (oneHourAfter target now) :=
  ⟨⟨1, _, h, rfl⟩, _, _, .refl, .refl, rfl⟩

/-- A batch with no arrivals leaves the observations alone. -/
theorem oneHourAfter_observations (target now : ℤ) :
    (oneHourAfter target now).observations.rows = [sampleObservation target] := by
  unfold oneHourAfter
  refine rankBatch_induction (fun db => db.observations.rows = [sampleObservation target]) (fun _ _ _ h => h) ?_
  refine aggregateBatch_induction (fun db => db.observations.rows = [sampleObservation target]) ?_ rfl
  intro period _ db cell h
  rw [aggregateCellPeriod_eq]
  exact h

/-- A pair of eleven o'clock, made at half past one, is counted. -/
theorem morning_pair_counted :
    dayNumber (11 * hour) = dayNumber (13 * hour + 30 * minute) ∧
      ∀ period ∈ standardPeriods (11 * hour),
        CountedIn id (oneHourAfter (11 * hour) (13 * hour + 30 * minute)) period (samplePair (11 * hour)) := by
  have hday : dayNumber (11 * hour) = dayNumber (13 * hour + 30 * minute) := by decide
  have hrun := batchRun_oneHour (11 * hour) (13 * hour + 30 * minute) (by decide +kernel)
  have hobs : sampleObservation (11 * hour) ∈
      (oneHourAfter (11 * hour) (13 * hour + 30 * minute)).observations.rows := by
    rw [oneHourAfter_observations]
    exact List.mem_cons_self
  refine ⟨hday, ?_⟩
  exact (pair_counted_iff id defaultChunkSize _ _ _ _ _ _ (samplePair (11 * hour)) (sampleObservation (11 * hour))
    (reached_oneHourDatabase (11 * hour) (by decide +kernel)) hrun List.mem_cons_self List.not_mem_nil hobs
    rfl rfl).mpr hday

/-- The pair of the last hour of a day is made on the next day, and no live metric of its day counts
it: there is none. -/
theorem last_hour_pair_uncounted :
    Reached id (oneHourDatabase (23 * hour)) ∧
      BatchRun id defaultChunkSize (day + 90 * minute) (day + 90 * minute) (day + 90 * minute)
        (oneHourDatabase (23 * hour)) (oneHourMatched (23 * hour)) (oneHourAfter (23 * hour) (day + 90 * minute)) ∧
      (oneHourMatched (23 * hour)).matched = [samplePair (23 * hour)] ∧ (oneHourDatabase (23 * hour)).matched = [] ∧
      (oneHourAfter (23 * hour) (day + 90 * minute)).observations.rows = [sampleObservation (23 * hour)] ∧
      (sampleObservation (23 * hour)).live = true ∧
      ((oneHourAfter (23 * hour) (day + 90 * minute)).liveMetrics
        (samplePair (23 * hour)).cell ⟨.daily, 0, day⟩).isEmpty
        = true :=
  ⟨reached_oneHourDatabase (23 * hour) (by decide +kernel),
    batchRun_oneHour (23 * hour) (day + 90 * minute) (by decide +kernel), rfl, rfl,
    oneHourAfter_observations _ _, rfl, by decide +kernel⟩

end ForecastIQ.Analysis
