import ForecastIQ.Analysis.Reliability
import ForecastIQ.Collection.OpenMeteo

/-!
# The window of an Open-Meteo answer

The adapter asks for seven days, and the answer begins at midnight UTC of the day of the
collection, whatever the hour. The issuance is one hour before the clock's hour. So the
first `hourOfDay now` rows are not after the issuance and are rejected: the collection
is `partial` in every hour but the first of the day (`day_window_success_iff`), and the
furthest horizon is `168 - hourOfDay now` hours (`day_window_horizons_iff`).
-/

namespace ForecastIQ.Analysis

open ForecastIQ.Foundations ForecastIQ.Collection

/-- The rows of a complete answer. -/
def answerRows : ℕ := OpenMeteo.forecastDays * 24

/-- A complete answer to a request at `now`: seven full UTC days of hours from midnight on, with
every value within its physical range. -/
structure CompleteAnswer (now : ℤ) (h : OpenMeteo.HourlyData) : Prop where
  length : h.time.length = answerRows
  times : ∀ (i : ℕ) (text : String), h.time[i]? = some text →
    OpenMeteo.parseTime text = some (startOfDay now + i * hour)
  inRange : ∀ i, (h.weatherAt i).InRange

/-- The snapshot of row `i` of a complete answer. -/
def windowSnapshot (h : OpenMeteo.HourlyData) (now : ℤ) (i : ℕ) : ForecastSnapshot where
  issuedAt := issuance now
  targetTime := startOfDay now + i * hour
  forecastHorizonMinutes := horizonMinutes (issuance now) (startOfDay now + i * hour)
  weather := h.weatherAt i
  condition := (OpenMeteo.entry h.weatherCode i).map fun c => (c, (OpenMeteo.mapCondition c).1)

/-- The hour of the day, as a row index. -/
def hourIndex (now : ℤ) : ℕ := (hourOfDay now).toNat

theorem hourIndex_lt (now : ℤ) : hourIndex now < 24 := by
  have := hourOfDay_nonneg now
  have := hourOfDay_lt now
  rw [hourIndex]
  omega

/-- Row `i` lies `i - hourIndex now + 1` hours after the issuance. -/
theorem window_target (now : ℤ) (i : ℕ) :
    startOfDay now + i * hour = issuance now + ((i : ℤ) - hourIndex now + 1) * hour := by
  have h0 := hourOfDay_nonneg now
  have h1 := truncateHour_eq_startOfDay_add now
  have h2 : ((hourIndex now : ℕ) : ℤ) = hourOfDay now := Int.toNat_of_nonneg h0
  rw [issuance, h1, h2]
  ring

theorem windowSnapshot_horizon (h : OpenMeteo.HourlyData) (now : ℤ) {i : ℕ} (hi : i < answerRows) :
    (windowSnapshot h now i).forecastHorizonMinutes = 60 * ((i : ℤ) - hourIndex now + 1) := by
  have hlt := hourIndex_lt now
  have hrows : answerRows = 168 := rfl
  rw [windowSnapshot, window_target, horizonMinutes_add_hours]
  rw [abs_le]
  omega

/-- The times of the row are whole hours, which the columns hold exactly. -/
theorem storedTime_issuance (now : ℤ) : storedTime (issuance now) = issuance now := by
  have h := truncateHour_emod now
  apply storedTime_of_emod_hour
  simp only [issuance, hour_eq] at h ⊢
  omega

theorem storedTime_target (now : ℤ) (i : ℕ) : storedTime (startOfDay now + i * hour) = startOfDay now + i * hour := by
  apply storedTime_of_emod_hour
  rw [startOfDay, day_eq, hour_eq]
  omega

theorem windowSnapshot_lt_iff (h : OpenMeteo.HourlyData) (now : ℤ) (i : ℕ) :
    (windowSnapshot h now i).issuedAt < (windowSnapshot h now i).targetTime ↔ hourIndex now ≤ i := by
  have := window_target now i
  simp only [windowSnapshot, hour_eq] at this ⊢
  omega

/-- The snapshot is valid exactly from the row of the current hour on. -/
theorem CompleteAnswer.validate_iff {now : ℤ} {h : OpenMeteo.HourlyData} (hc : CompleteAnswer now h) {i : ℕ}
    (hi : i < answerRows) : (windowSnapshot h now i).validate = [] ↔ hourIndex now ≤ i := by
  rw [ForecastSnapshot.validate_eq_nil_iff, windowSnapshot_lt_iff, windowSnapshot_horizon h now hi]
  constructor
  · exact fun h => h.1
  · exact fun h => ⟨h, by omega, hc.inRange i⟩

/-- Every row of a complete answer is built. -/
theorem CompleteAnswer.rows_eq {now : ℤ} {h : OpenMeteo.HourlyData} (hc : CompleteAnswer now h) :
    ∃ unmapped : ℕ → Option ℤ, h.rows (issuance now) =
      (List.range' 0 answerRows).map fun i => .ok ⟨windowSnapshot h now i, unmapped i⟩ := by
  refine ⟨fun i => (OpenMeteo.entry h.weatherCode i).filter fun c => !(OpenMeteo.mapCondition c).2, ?_⟩
  rw [OpenMeteo.HourlyData.rows, ← hc.length, ← List.zipIdx_map_snd 0 h.time, List.map_map]
  refine List.map_congr_left fun p hp => ?_
  have ht := hc.times p.2 p.1 (List.mem_zipIdx_iff_getElem?.mp hp)
  simp only [OpenMeteo.buildSnapshot, ht, Function.comp]
  rfl

/-- **The accepted rows of a complete answer** are those from the current hour on. -/
theorem CompleteAnswer.accepted {now : ℤ} {h : OpenMeteo.HourlyData} (hc : CompleteAnswer now h) :
    (h.rows (issuance now)).filterMap acceptRow =
      (List.range' (hourIndex now) (answerRows - hourIndex now)).map (windowSnapshot h now) := by
  obtain ⟨unmapped, hrows⟩ := hc.rows_eq
  have hlt := hourIndex_lt now
  have hsplit : List.range' 0 answerRows =
      List.range' 0 (hourIndex now) ++ List.range' (hourIndex now) (answerRows - hourIndex now) := by
    have happ := List.range'_append_1 (s := 0) (m := hourIndex now) (n := answerRows - hourIndex now)
    rw [Nat.zero_add] at happ
    rw [happ, show hourIndex now + (answerRows - hourIndex now) = answerRows by
      rw [answerRows, OpenMeteo.forecastDays]; omega]
  have hanswer : answerRows = 168 := rfl
  rw [hrows, hsplit, List.filterMap_map, List.filterMap_append]
  have h1 : (List.range' 0 (hourIndex now)).filterMap
      (acceptRow ∘ fun i => .ok ⟨windowSnapshot h now i, unmapped i⟩) = [] := by
    refine List.filterMap_eq_nil_iff.mpr fun i hi => ?_
    have hbefore := (List.mem_range'_1.mp hi).2
    simp [acceptRow, hc.validate_iff (i := i) (by omega), show ¬ hourIndex now ≤ i by omega]
  have h2 : (List.range' (hourIndex now) (answerRows - hourIndex now)).filterMap
      (acceptRow ∘ fun i => .ok ⟨windowSnapshot h now i, unmapped i⟩) =
        (List.range' (hourIndex now) (answerRows - hourIndex now)).map (windowSnapshot h now) := by
    rw [← List.filterMap_eq_map]
    refine List.filterMap_congr fun i hi => ?_
    have hfrom := List.mem_range'_1.mp hi
    simp [acceptRow, hc.validate_iff (i := i) (by omega), hfrom.1]
  rw [h1, h2, List.nil_append]

/-- What the adapter makes of a complete answer. -/
theorem CompleteAnswer.fetchForecast {now : ℤ} {h : OpenMeteo.HourlyData} (hc : CompleteAnswer now h)
    {unmarshal : List UInt8 → Except String OpenMeteo.ForecastResponse} {body : List UInt8}
    (hbody : unmarshal body = .ok ⟨some h⟩) {result : ForecastResult}
    (hresult : OpenMeteo.fetchForecast unmarshal body none (issuance now) = result) :
    result.snapshots = (List.range' (hourIndex now) (answerRows - hourIndex now)).map (windowSnapshot h now) ∧
      result.modelRunTime = none ∧ result.outcome = if hourIndex now = 0 then .success else .partialData := by
  have hne : h.time ≠ [] := by
    rw [← List.length_pos_iff, hc.length]
    decide
  have hlen : (h.rows (issuance now)).length = answerRows := by
    rw [OpenMeteo.HourlyData.rows, List.length_map, List.length_zipIdx, hc.length]
  have hlt := hourIndex_lt now
  obtain rfl : decomposeRows (h.rows (issuance now)) (.ofPayload body) = result := by
    rw [← hresult, OpenMeteo.fetchForecast, hbody]
    simp only [OpenMeteo.decompose, hne, if_false]
  obtain ⟨h1, -, -, h4⟩ := decomposeRows_eq (h.rows (issuance now)) body
  refine ⟨by rw [h1, hc.accepted], h4, ?_⟩
  rw [decomposeRows_outcome, hlen, hc.accepted, List.length_map, List.length_range']
  have hrows : answerRows = 168 := rfl
  rw [if_neg (by omega)]
  by_cases h0 : hourIndex now = 0
  · rw [if_pos h0, if_neg (by omega)]
  · rw [if_neg h0, if_pos (by omega)]

/-! ### Success -/

/-- `Collect` runs, for active records and with the circuit not open, and gets a complete answer. -/
structure CompleteRun (input : CollectInput) (x : Exchange) (s : Store) (h : OpenMeteo.HourlyData) : Prop where
  active : (input.providerActive && input.locationActive && input.configActive) = true
  allowed : ((s.circuits input.providerID).evaluate x.now).1.allowed = true
  answered : ∃ unmarshal body, x.adapter = some (OpenMeteo.fetchForecast unmarshal body none) ∧
    unmarshal body = .ok ⟨some h⟩
  complete : CompleteAnswer x.now h

/-- What a run with a complete answer does to the tables. -/
theorem CompleteRun.collect {input : CollectInput} {x : Exchange} {s : Store} {h : OpenMeteo.HourlyData}
    (hr : CompleteRun input x s h) :
    ∃ coll s' result, Collection.collect input x s = (.ok coll, s') ∧
      result.snapshots =
        (List.range' (hourIndex x.now) (answerRows - hourIndex x.now)).map (windowSnapshot h x.now) ∧
      coll.providerID = input.providerID ∧ coll.locationID = input.locationID ∧ coll.requestedAt = issuance x.now ∧
      coll.providerModelRunTime = none ∧ s'.collections = s.collections ++ [coll] ∧
      ((s.HasDedup input.providerID input.locationID (issuance x.now) ∧ coll.status = .deduplicated ∧
          s'.snapshots = s.snapshots) ∨
        (¬ s.HasDedup input.providerID input.locationID (issuance x.now) ∧
          coll.status = (if hourIndex x.now = 0 then .success else .partialData) ∧
          s'.snapshots = insertAll SnapshotRow.dedupKey s.snapshots (addedRows input result s))) := by
  obtain ⟨unmarshal, body, hx, hbody⟩ := hr.answered
  obtain ⟨circuits, coll, s', he, hres⟩ := collect_eq_ok hr.active hr.allowed hx
  generalize hresult : OpenMeteo.fetchForecast unmarshal body none (issuance x.now) = result at hres
  obtain ⟨h1, h2, h3⟩ := hr.complete.fetchForecast hbody hresult
  obtain ⟨hp, hl, hreq, hrun, hcs, hcase⟩ := collectResult_cases hres
  have husable : result.outcome.usable = true := by
    rw [h3]
    split_ifs <;> rfl
  rw [h2, Option.getD_none, husable] at hcase
  refine ⟨coll, s', result, he, h1, hp, hl, hreq, hrun.trans h2, hcs, ?_⟩
  rcases hcase with ⟨-, hd, hst, hs⟩ | ⟨hd, hst, hs⟩
  · exact .inl ⟨hd, hst, hs⟩
  · refine .inr ⟨fun h => hd ⟨rfl, h⟩, ?_, by rw [hs, if_pos rfl]; rfl⟩
    rw [hst, h3]
    split_ifs <;> rfl

/-- Appending a collection of the provider and location counts it where it counts. -/
theorem successfulCollections_append {s s' : Store} {coll : ForecastCollection}
    (h : s'.collections = s.collections ++ [coll]) (start stop : ℤ) :
    successfulCollections s' coll.providerID coll.locationID start stop =
      successfulCollections s coll.providerID coll.locationID start stop +
        if countsAsSuccess start stop coll then 1 else 0 := by
  simp only [successfulCollections, collectionsOf, h, List.filter_append, List.countP_append]
  congr 1
  simp [List.countP_cons]

/-- **A complete answer is a counted success exactly in the first hour of the day**, and when it is
not a repetition: at every other hour the rows before the issuance are rejected, and the collection
is `partial`. -/
theorem day_window_success_iff (input : CollectInput) (x : Exchange) (s : Store) (h : OpenMeteo.HourlyData)
    (hr : CompleteRun input x s h) :
    ((∀ row ∈ h.rows (issuance x.now), ∃ built, row = .ok built ∧
          built.snapshot.issuedAt < built.snapshot.targetTime) ∧
        ∃ coll s', collect input x s = (.ok coll, s') ∧ coll.status = .success ∧
          ∀ start stop, start ≤ issuance x.now → issuance x.now < stop →
            successfulCollections s' input.providerID input.locationID start stop =
              successfulCollections s input.providerID input.locationID start stop + 1) ↔
      hourOfDay x.now = 0 ∧ ¬ s.HasDedup input.providerID input.locationID (issuance x.now) := by
  have hzero : hourIndex x.now = 0 ↔ hourOfDay x.now = 0 := by
    have := hourOfDay_nonneg x.now
    rw [hourIndex]
    omega
  obtain ⟨coll, s', result, he, -, hp, hl, hreq, -, hcs, hcase⟩ := hr.collect
  constructor
  · rintro ⟨-, coll', s'', he', hst, -⟩
    rw [he, Prod.mk.injEq, Except.ok.injEq] at he'
    obtain ⟨rfl, rfl⟩ := he'
    rcases hcase with ⟨-, hd, -⟩ | ⟨hd, hst', -⟩
    · rw [hst] at hd
      exact absurd hd (by decide)
    · refine ⟨hzero.mp ?_, hd⟩
      by_contra h0
      rw [hst, if_neg h0] at hst'
      exact absurd hst' (by decide)
  · rintro ⟨h0, hd⟩
    rw [← hzero] at h0
    obtain ⟨-, hst, -⟩ := hcase.resolve_left fun hdup => hd hdup.1
    rw [if_pos h0] at hst
    refine ⟨fun row hrow => ?_, coll, s', he, hst, fun start stop hlo hhi => ?_⟩
    · obtain ⟨unmapped, hrows⟩ := hr.complete.rows_eq
      rw [hrows] at hrow
      obtain ⟨i, -, rfl⟩ := List.mem_map.mp hrow
      exact ⟨_, rfl, (windowSnapshot_lt_iff h x.now i).mpr (by omega)⟩
    · rw [← hp, ← hl, successfulCollections_append hcs, if_pos]
      simp [countsAsSuccess, hst, hreq, hlo, hhi]

/-- A complete answer for the first day of 1970. -/
def sampleAnswer : OpenMeteo.HourlyData where
  time := (List.range answerRows).map fun i : ℕ => OpenMeteo.timestamp (i * hour)
  temperature2m := List.replicate answerRows (some 20)
  apparentTemperature := List.replicate answerRows (some 19)
  precipitationProbability := List.replicate answerRows (some 50)
  precipitation := List.replicate answerRows (some 0)
  relativeHumidity2m := List.replicate answerRows (some 60)
  windSpeed10m := List.replicate answerRows (some 3)
  windDirection10m := List.replicate answerRows (some 180)
  surfacePressure := List.replicate answerRows (some 1010)
  cloudCover := List.replicate answerRows (some 40)
  weatherCode := List.replicate answerRows (some 2)

theorem sampleAnswer_parseTime {i : ℕ} (hi : i < answerRows) :
    OpenMeteo.parseTime (OpenMeteo.timestamp (i * hour)) = some (i * hour) := by
  have hmonth : ∀ d : ℕ, d < 7 → monthOfDay d = 12 * 1970 := by decide +kernel
  have hd : dayNumber (i * hour) = ((i / 24 : ℕ) : ℤ) := by
    simp only [dayNumber, hour_eq, day_eq]
    omega
  have hrows : answerRows = 168 := rfl
  have hm := hmonth (i / 24) (by omega)
  refine OpenMeteo.parseTime_timestamp ?_ ?_ ?_
  · rw [hd, hm]; decide
  · rw [hd, hm]; decide
  · simp only [hour_eq, minute_eq]; omega

theorem sampleAnswer_complete {now : ℤ} (hday : startOfDay now = 0) : CompleteAnswer now sampleAnswer where
  length := by simp [sampleAnswer]
  times := by
    intro i text h
    simp only [sampleAnswer, List.getElem?_map, Option.map_eq_some_iff] at h
    obtain ⟨j, hj, rfl⟩ := h
    obtain ⟨hi, rfl⟩ := List.getElem?_eq_some_iff.mp hj
    rw [List.getElem_range, hday, zero_add]
    exact sampleAnswer_parseTime (by simpa using hi)
  inRange := by
    intro i
    by_cases hi : i < answerRows
    · have he : ∀ {α : Type} (v : α), OpenMeteo.entry (List.replicate answerRows (some v)) i = some v := by
        intro α v
        simp [OpenMeteo.entry, hi]
      simp only [OpenMeteo.HourlyData.weatherAt, sampleAnswer, he]
      decide +kernel
    · have he : ∀ {α : Type} (v : α), OpenMeteo.entry (List.replicate answerRows (some v)) i = none := by
        intro α v
        simp [OpenMeteo.entry, hi]
      simp only [OpenMeteo.HourlyData.weatherAt, sampleAnswer, he]
      decide +kernel

/-- The run of provider `1` for location `1` at `now`. -/
def sampleInput : CollectInput := ⟨1, "open-meteo", true, 1, true, 1, true⟩

/-- Its exchange: the sample answer. -/
def sampleExchange (now : ℤ) : Exchange :=
  { now := now, completedAt := now, payloadOK := true, now_le_completedAt := Int.le_refl now
    adapter := some (OpenMeteo.fetchForecast (fun _ => .ok ⟨some sampleAnswer⟩) [0] none) }

theorem sample_completeRun {now : ℤ} (hday : startOfDay now = 0) :
    CompleteRun sampleInput (sampleExchange now) .empty sampleAnswer :=
  ⟨rfl, rfl, ⟨_, _, rfl, rfl⟩, sampleAnswer_complete hday⟩

/-- At half past midnight the answer is a success. -/
theorem midnight_answer_success :
    ∃ coll s', collect sampleInput (sampleExchange (30 * minute)) .empty = (.ok coll, s') ∧ coll.status = .success ∧
      ∀ start stop, start ≤ issuance (30 * minute) → issuance (30 * minute) < stop →
        successfulCollections s' 1 1 start stop = successfulCollections .empty 1 1 start stop + 1 :=
  ((day_window_success_iff sampleInput (sampleExchange (30 * minute)) .empty sampleAnswer
    (sample_completeRun (by decide))).mpr ⟨by decide, by decide⟩).2

/-- At half past two the rows of midnight and of one o'clock are rejected, and the collection is
`partial` and not counted. -/
theorem two_oclock_answer_not_success :
    CompleteRun sampleInput (sampleExchange (2 * hour + 30 * minute)) .empty sampleAnswer ∧
      ∃ coll s', collect sampleInput (sampleExchange (2 * hour + 30 * minute)) .empty = (.ok coll, s') ∧
        coll.status = .partialData ∧ successfulCollections s' 1 1 0 day = 0 := by
  have hr : CompleteRun sampleInput (sampleExchange (2 * hour + 30 * minute)) .empty sampleAnswer :=
    sample_completeRun (by decide)
  obtain ⟨coll, s', result, he, -, hp, hl, -, -, hcs, hcase⟩ := hr.collect
  obtain ⟨-, hst, -⟩ := hcase.resolve_left fun hdup => absurd hdup.1 (by decide)
  rw [if_neg (by decide)] at hst
  refine ⟨hr, coll, s', he, hst, ?_⟩
  have happ := successfulCollections_append hcs 0 day
  rw [hp, hl] at happ
  refine happ.trans ?_
  simp [countsAsSuccess, hst, successfulCollections, collectionsOf, Store.empty]

/-! ### Horizons -/

/-- The stored snapshots of an issuance with a horizon of `k` hours. -/
def snapshotsAt (s : Store) (providerID locationID : ℕ) (issuedAt : ℤ) (k : ℕ) : List SnapshotRow :=
  s.snapshots.filter fun r => r.providerID = providerID ∧ r.locationID = locationID ∧ r.snapshot.issuedAt = issuedAt ∧
    r.snapshot.forecastHorizonMinutes = 60 * (k : ℤ)

/-- The store has exactly one snapshot of the issuance for every whole hour up to the horizon that
the adapter declares. -/
def AllHorizons (s : Store) (providerID locationID : ℕ) (issuedAt : ℤ) : Prop :=
  ∀ k : ℕ, 1 ≤ k → k * hour ≤ OpenMeteo.maxForecastHorizon → (snapshotsAt s providerID locationID issuedAt k).length = 1

/-- `OpenMeteoRun p s`: the store `s` is reached by runs of `collect`, those of provider `p` with the
Open-Meteo adapter, whatever it was answered. -/
inductive OpenMeteoRun (providerID : ℕ) : Store → Prop where
  /-- Nothing was collected yet. -/
  | init : OpenMeteoRun providerID .empty
  /-- A run for any provider. -/
  | collected {s : Store} (input : CollectInput) (x : Exchange)
      (adapter : input.providerID = providerID → ∀ fetch, x.adapter = some fetch →
        ∃ unmarshal body failure, fetch = OpenMeteo.fetchForecast unmarshal body failure) :
      OpenMeteoRun providerID s → OpenMeteoRun providerID (collect input x s).2

/-- Every snapshot of the provider belongs to the issuance of a usable collection. -/
def Recorded (providerID : ℕ) (s : Store) : Prop :=
  ∀ r ∈ s.snapshots, r.providerID = providerID → s.HasDedup providerID r.locationID r.snapshot.issuedAt

theorem Store.HasDedup.append {s s' : Store} {coll : ForecastCollection}
    (hs : s'.collections = s.collections ++ [coll]) {p l : ℕ} {key : ℤ} (h : s.HasDedup p l key) :
    s'.HasDedup p l key := by
  obtain ⟨c, hc, hrest⟩ := h
  exact ⟨c, by rw [hs]; exact List.mem_append_left _ hc, hrest⟩

/-- One run keeps the snapshots recorded. -/
theorem Recorded.collect {p : ℕ} {s : Store} (h : Recorded p s) (input : CollectInput) (x : Exchange)
    (adapter : input.providerID = p → ∀ fetch, x.adapter = some fetch →
      ∃ unmarshal body failure, fetch = OpenMeteo.fetchForecast unmarshal body failure) :
    Recorded p (Collection.collect input x s).2 := by
  rcases collect_cases input x s with ⟨e, circuits, he⟩ | ⟨fetch, circuits, coll, s', hx, he, hres⟩
  · rw [he]
    exact h
  · obtain ⟨hcp, hcl, hreq, hrun, hcs, hcase⟩ := collectResult_cases hres
    rw [he]
    have hold : ∀ r ∈ s.snapshots, r.providerID = p → s'.HasDedup p r.locationID r.snapshot.issuedAt :=
      fun r hr hp => Store.HasDedup.append hcs (h r hr hp)
    intro r hr hp
    rcases hcase with ⟨-, -, -, hs⟩ | ⟨-, hst, hs⟩
    · rw [hs] at hr
      exact hold r hr hp
    · rw [hs] at hr
      split_ifs at hr with hu
      · rcases mem_of_mem_insertAll hr with hr | hr
        · exact hold r hr hp
        · -- a new snapshot: the collection of this run is usable and has its issuance
          obtain ⟨⟨snap, i⟩, hmem, rfl⟩ := List.mem_map.mp hr
          obtain ⟨unmarshal, body, failure, rfl⟩ := adapter hp fetch hx
          obtain ⟨hnone, hissued⟩ := OpenMeteo.fetchForecast_issuedAt unmarshal body failure (issuance x.now)
          refine ⟨coll, by rw [hcs]; simp, hcp.trans hp, hcl, ?_, by rw [hst, Outcome.status_successful, hu]⟩
          rw [ForecastCollection.dedupKey, hrun, hnone, Option.getD_none, hreq]
          exact (storedTime_issuance x.now).symm.trans
            (congrArg storedTime (hissued snap (List.fst_mem_of_mem_zipIdx hmem)).symm)
      · exact hold r hr hp

/-- Every reached store has the snapshots of the provider recorded. -/
theorem OpenMeteoRun.recorded {p : ℕ} {s : Store} (h : OpenMeteoRun p s) : Recorded p s := by
  induction h with
  | init => simp [Recorded, Store.empty]
  | collected input x adapter _ ih => exact ih.collect input x adapter

section Added

variable {input : CollectInput} {result : ForecastResult} {s s' : Store} {h : OpenMeteo.HourlyData} {now : ℤ}
  {first n : ℕ}

/-- The keys of the rows of a complete answer. -/
theorem keys_addedRows (hsnaps : result.snapshots = (List.range' first n).map (windowSnapshot h now)) :
    keys SnapshotRow.dedupKey (addedRows input result s) = (List.range' first n).map fun i : ℕ =>
      (input.providerID, input.locationID, issuance now, startOfDay now + i * hour) := by
  rw [addedRows, keys_snapshotRows, hsnaps, List.map_map]
  refine List.map_congr_left fun i _ => ?_
  simp only [Function.comp, snapshotKey, windowSnapshot, storedTime_issuance, storedTime_target]

/-- The rows of a complete answer that is not a repetition are new. -/
theorem insertAll_addedRows (hrec : Recorded input.providerID s)
    (hd : ¬ s.HasDedup input.providerID input.locationID (issuance now))
    (hsnaps : result.snapshots = (List.range' first n).map (windowSnapshot h now)) :
    insertAll SnapshotRow.dedupKey s.snapshots (addedRows input result s) =
      s.snapshots ++ addedRows input result s := by
  have hkeys : keys SnapshotRow.dedupKey (addedRows input result s) = _ := keys_addedRows hsnaps
  refine insertAll_eq_of_disjoint ?_ fun key hkey hmem => ?_
  · rw [hkeys]
    refine List.Nodup.map (fun i j hij => ?_) List.nodup_range'
    simp only [Prod.mk.injEq, hour_eq] at hij
    omega
  · rw [hkeys] at hkey
    obtain ⟨i, -, rfl⟩ := List.mem_map.mp hkey
    obtain ⟨r, hr, he⟩ := List.mem_filterMap.mp hmem
    simp only [SnapshotRow.dedupKey, Option.some.injEq, Prod.mk.injEq] at he
    obtain ⟨hp, hl, hi, -⟩ := he
    exact hd (hl ▸ hi ▸ hrec r hr hp)

/-- A complete answer that is not a repetition adds one snapshot for each hour that it reaches. -/
theorem length_snapshotsAt_added (hrec : Recorded input.providerID s)
    (hd : ¬ s.HasDedup input.providerID input.locationID (issuance now))
    (hsnaps : result.snapshots =
      (List.range' (hourIndex now) (answerRows - hourIndex now)).map (windowSnapshot h now))
    (hs : s'.snapshots = insertAll SnapshotRow.dedupKey s.snapshots (addedRows input result s)) {k : ℕ} (hk : 1 ≤ k) :
    (snapshotsAt s' input.providerID input.locationID (issuance now) k).length =
      if k ≤ answerRows - hourIndex now then 1 else 0 := by
  have hold : snapshotsAt s input.providerID input.locationID (issuance now) k = [] := by
    refine List.filter_eq_nil_iff.mpr fun r hr hr' => ?_
    obtain ⟨hp, hl, hi, -⟩ := of_decide_eq_true hr'
    exact hd (hl ▸ hi ▸ hrec r hr hp)
  have hrow : (fun r : SnapshotRow => decide (r.providerID = input.providerID ∧ r.locationID = input.locationID ∧
        r.snapshot.issuedAt = issuance now ∧ r.snapshot.forecastHorizonMinutes = 60 * (k : ℤ))) ∘
      (fun q : ForecastSnapshot × ℕ => (⟨s.nextID + 1 + q.2, s.nextID, input.providerID, input.locationID,
        q.1.stored⟩ : SnapshotRow)) =
      (fun snap : ForecastSnapshot => decide (storedTime snap.issuedAt = issuance now ∧
        snap.forecastHorizonMinutes = 60 * (k : ℤ))) ∘ Prod.fst := by
    funext q
    simp [ForecastSnapshot.stored]
  have hlt := hourIndex_lt now
  have hrows : answerRows = 168 := rfl
  -- the row with the horizon is the one `k` hours after the issuance
  have hindex : ∀ i ∈ List.range' (hourIndex now) (answerRows - hourIndex now),
      ((fun snap : ForecastSnapshot => decide (storedTime snap.issuedAt = issuance now ∧
        snap.forecastHorizonMinutes = 60 * (k : ℤ))) ∘ windowSnapshot h now) i = true ↔
        (i == k + hourIndex now - 1) = true := by
    intro i hi
    have hmem := List.mem_range'_1.mp hi
    rw [Function.comp, windowSnapshot_horizon h now (by omega), decide_eq_true_eq, beq_iff_eq]
    refine ⟨fun he => by omega, fun he => ⟨storedTime_issuance now, by omega⟩⟩
  rw [snapshotsAt, hs, insertAll_addedRows hrec hd hsnaps, List.filter_append, ← snapshotsAt, hold, List.nil_append,
    ← List.countP_eq_length_filter, addedRows, snapshotRows, List.countP_map, hrow, ← List.countP_map,
    List.zipIdx_map_fst, hsnaps, List.countP_map, List.countP_congr hindex, ← List.count,
    (List.nodup_range' : (List.range' (hourIndex now) _).Nodup).count]
  refine if_congr ?_ rfl rfl
  rw [List.mem_range'_1]
  omega

end Added

/-- **The declared horizons are stored exactly by a collection in the first hour of the day**, unless
the store already has them from an earlier collection of the same hour: the answer ends seven days
after midnight, so in hour `H` of the day the last `H` horizons are missing. -/
theorem day_window_horizons_iff (input : CollectInput) (x : Exchange) (s : Store) (h : OpenMeteo.HourlyData)
    (hrun : OpenMeteoRun input.providerID s) (hr : CompleteRun input x s h) :
    AllHorizons (collect input x s).2 input.providerID input.locationID (issuance x.now) ↔
      if s.HasDedup input.providerID input.locationID (issuance x.now) then
        AllHorizons s input.providerID input.locationID (issuance x.now)
      else hourOfDay x.now = 0 := by
  obtain ⟨coll, s', result, he, hsnaps, -, -, -, -, -, hcase⟩ := hr.collect
  rw [he]
  rcases hcase with ⟨hd, -, hs⟩ | ⟨hd, -, hs⟩
  · rw [if_pos hd]
    simp only [AllHorizons, snapshotsAt, hs]
  · rw [if_neg hd]
    have hlen := fun k hk => length_snapshotsAt_added hrun.recorded hd hsnaps hs (k := k) hk
    have hrows : answerRows = 168 := rfl
    have hmax : ∀ k : ℕ, (k : ℤ) * hour ≤ OpenMeteo.maxForecastHorizon ↔ k ≤ 168 := by
      intro k
      simp only [OpenMeteo.maxForecastHorizon, OpenMeteo.forecastDays, hour_eq]
      omega
    have h0 := hourOfDay_nonneg x.now
    constructor
    · intro hall
      have := hall 168 (by omega) ((hmax 168).mpr (le_refl _))
      rw [hlen 168 (by omega), hourIndex] at this
      by_contra hne
      rw [if_neg (by omega)] at this
      omega
    · intro hzero k hk hle
      rw [hlen k hk, if_pos]
      have := (hmax k).mp hle
      rw [hourIndex, hzero]
      omega

/-- At half past midnight all declared horizons are stored. -/
theorem midnight_answer_horizons :
    AllHorizons (collect sampleInput (sampleExchange (30 * minute)) .empty).2 1 1 (issuance (30 * minute)) :=
  (day_window_horizons_iff sampleInput (sampleExchange (30 * minute)) .empty sampleAnswer .init
    (sample_completeRun (by decide))).mpr (by rw [if_neg (by decide)]; decide)

/-- At half past two the horizons of 167 and 168 hours are missing. -/
theorem two_oclock_answer_horizons :
    CompleteRun sampleInput (sampleExchange (2 * hour + 30 * minute)) .empty sampleAnswer ∧
      [166, 167, 168].map (fun k =>
        (snapshotsAt (collect sampleInput (sampleExchange (2 * hour + 30 * minute)) .empty).2
        1 1 (issuance (2 * hour + 30 * minute)) k).length) = [1, 0, 0] := by
  have hr : CompleteRun sampleInput (sampleExchange (2 * hour + 30 * minute)) .empty sampleAnswer :=
    sample_completeRun (by decide)
  obtain ⟨coll, s', result, he, hsnaps, -, -, -, -, -, hcase⟩ := hr.collect
  obtain ⟨hd, -, hs⟩ := hcase.resolve_left fun hdup => absurd hdup.1 (by decide)
  have hlen : ∀ k, 1 ≤ k → (snapshotsAt s' 1 1 (issuance (2 * hour + 30 * minute)) k).length =
      if k ≤ 166 then 1 else 0 :=
    fun k hk => length_snapshotsAt_added OpenMeteoRun.init.recorded hd hsnaps hs hk
  refine ⟨hr, ?_⟩
  simp [he, hlen]

end ForecastIQ.Analysis
