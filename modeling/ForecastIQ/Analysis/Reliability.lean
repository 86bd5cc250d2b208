import ForecastIQ.Analysis.DryPeriod
import ForecastIQ.Collection.Collect
import ForecastIQ.Collection.OpenWeather
import ForecastIQ.Scheduler.Slots

/-!
# Counting what was delivered

The counts that aggregation reads from the tables (`analysispg/metricspg.go`), and the
reliability row made of two of them: successful collections over scheduled slots.

The two counts are taken by different times and statuses. A slot is counted by its slot
time, and its collection by `requested_at`, which `collect` sets one hour before the
hour it runs in; and only the status `success` counts, not `partial`. So the row of a
period in which every slot ended with a usable collection is not always one:
`reliability_eq_one_iff` says when it is.
-/

namespace ForecastIQ.Analysis

open ForecastIQ.Foundations ForecastIQ.Collection

/-! ### The counts -/

/-- The snapshots of a cell with target time in the window. -/
def cellSnapshots (s : Store) (cell : Cell) (start stop : ℤ) : List SnapshotRow :=
  s.snapshots.filter fun r =>
    r.providerID = cell.providerID ∧ r.locationID = cell.locationID ∧
      r.snapshot.forecastHorizonMinutes = cell.horizonMinutes ∧
      start ≤ r.snapshot.targetTime ∧ r.snapshot.targetTime < stop

/-- `SnapshotVariableCounts`: how many of them have a value, by column. -/
def snapshotVariableCounts (s : Store) (cell : Cell) (start stop : ℤ) : VariableCounts :=
  let rows := (cellSnapshots s cell start stop).map fun r => r.snapshot.weather
  { temperature := rows.countP fun w => w.temperatureC.isSome
    windSpeed := rows.countP fun w => w.windSpeedMS.isSome
    humidity := rows.countP fun w => w.humidityPct.isSome
    pressure := rows.countP fun w => w.pressureHPa.isSome
    precipitation := rows.countP fun w => w.precipitationAmountMM.isSome }

/-- The forecast slots of the provider's configurations at a location, with slot time in the window. -/
def forecastSlots (slots : Scheduler.State) (configs : List Catalog.ProviderConfiguration)
    (providerID locationID : ℕ) (start stop : ℤ) : List Scheduler.Slot :=
  slots.slots.filter fun r =>
    r.key.jobType = .forecastCollection ∧ r.key.locationID = some locationID ∧
      (configs.any fun c => c.id = r.key.providerConfigurationID && c.providerID = providerID) = true ∧
      start ≤ r.key.slotTime ∧ r.key.slotTime < stop

/-- `ScheduledForecastSlots`. -/
def scheduledForecastSlots (slots : Scheduler.State) (configs : List Catalog.ProviderConfiguration)
    (providerID locationID : ℕ) (start stop : ℤ) : ℕ :=
  (forecastSlots slots configs providerID locationID start stop).length

/-- The collections of a provider at a location. -/
def collectionsOf (s : Store) (providerID locationID : ℕ) : List ForecastCollection :=
  s.collections.filter fun c => c.providerID = providerID ∧ c.locationID = locationID

/-- A collection that `SuccessfulCollections` counts in the window. -/
def countsAsSuccess (start stop : ℤ) (c : ForecastCollection) : Bool :=
  c.status = .success ∧ start ≤ c.requestedAt ∧ c.requestedAt < stop

/-- `SuccessfulCollections`. -/
def successfulCollections (s : Store) (providerID locationID : ℕ) (start stop : ℤ) : ℕ :=
  (collectionsOf s providerID locationID).countP (countsAsSuccess start stop)

/-- A rate is one exactly when something was scheduled and as much was delivered. -/
theorem rate_eq_one_iff {K : Type*} [Field K] [LinearOrder K] [IsStrictOrderedRing K] (n d : ℕ) :
    (rate n d : Option K) = some 1 ↔ 0 < d ∧ d ≤ n := by
  rw [rate]
  split_ifs with hd hlt
  · simp [hd]
  · have hpos : (0 : K) < d := by exact_mod_cast Nat.pos_of_ne_zero hd
    rw [lt_div_iff₀ hpos, one_mul, Nat.cast_lt] at hlt
    simp only [true_iff]
    omega
  · have hpos : (0 : K) < d := by exact_mod_cast Nat.pos_of_ne_zero hd
    rw [lt_div_iff₀ hpos, one_mul, Nat.cast_lt] at hlt
    rw [Option.some.injEq, div_eq_one_iff_eq hpos.ne', Nat.cast_inj]
    omega

/-! ### Executed slots -/

/-- One executed forecast slot: the slot, and the run of `collect` for it. -/
structure Execution where
  slot : Scheduler.Slot
  input : CollectInput
  exchange : Exchange

/-- The outcome that the provider's adapter reported. -/
def Execution.outcome (e : Execution) : Outcome :=
  match e.exchange.adapter with
  | some fetch => (fetch (issuance e.exchange.now)).outcome
  | none => .failed

/-- `Executed p l s es s'`: from store `s` to store `s'` the collections made for provider `p` at
location `l` are those of the slots `es`, each within the clock hour of its slot and each ending
with a usable status. -/
inductive Executed (providerID locationID : ℕ) : Store → List Execution → Store → Prop where
  /-- Nothing more happens. -/
  | done (s : Store) : Executed providerID locationID s [] s
  /-- A slot is executed. -/
  | slot {s s1 s' : Store} {e : Execution} {es : List Execution} {coll : ForecastCollection} :
      e.input.providerID = providerID → e.input.locationID = locationID →
      truncateHour e.exchange.now = truncateHour e.slot.key.slotTime →
      collect e.input e.exchange s = (.ok coll, s1) → coll.status.successful = true →
      Executed providerID locationID s1 es s' → Executed providerID locationID s (e :: es) s'
  /-- Anything else is written, but no collection of the provider at the location. -/
  | elsewhere {s s1 s' : Store} {es : List Execution} :
      collectionsOf s1 providerID locationID = collectionsOf s providerID locationID →
      Executed providerID locationID s1 es s' → Executed providerID locationID s es s'

/-- A run that ends with a usable status appends a collection of the adapter's outcome, requested at
the issuance. -/
theorem collect_successful {input : CollectInput} {x : Exchange} {s s' : Store} {coll : ForecastCollection}
    (h : collect input x s = (.ok coll, s')) (hs : coll.status.successful = true) :
    ∃ fetch, x.adapter = some fetch ∧ coll.status = (fetch (issuance x.now)).outcome.status ∧
      coll.requestedAt = issuance x.now ∧
      collectionsOf s' input.providerID input.locationID =
        collectionsOf s input.providerID input.locationID ++ [coll] := by
  rcases collect_cases input x s with ⟨e, circuits, he⟩ | ⟨fetch, circuits, coll1, s1, hx, he, hr⟩
  · rw [he] at h
    simp at h
  · rw [he, Prod.mk.injEq, Except.ok.injEq] at h
    obtain ⟨rfl, rfl⟩ := h
    obtain ⟨hp, hl, hreq, -, hcs, hcase⟩ := collectResult_cases hr
    refine ⟨fetch, hx, ?_, hreq, ?_⟩
    · rcases hcase with ⟨-, -, hd, -⟩ | ⟨-, hst, -⟩
      · rw [hd] at hs
        exact absurd hs (by decide)
      · exact hst
    · rw [collectionsOf, hcs, List.filter_append]
      congr 1
      simp [hp, hl]

/-- The collections of a provider and location after its slots were executed, in order: one for each
slot, with the status of the slot's outcome, requested an hour before the hour of the slot. -/
theorem Executed.collections {p l : ℕ} {s s' : Store} {es : List Execution} (h : Executed p l s es s') :
    ∃ rows, collectionsOf s' p l = collectionsOf s p l ++ rows ∧
      List.Forall₂ (fun c e => c.status = e.outcome.status ∧
        c.requestedAt = truncateHour e.slot.key.slotTime - hour) rows es := by
  induction h with
  | done s => exact ⟨[], by simp, .nil⟩
  | slot hp hl hhour hc hs _ ih =>
    obtain ⟨rows, hrows, hall⟩ := ih
    obtain ⟨fetch, hx, hst, hreq, happ⟩ := collect_successful hc hs
    rw [hp, hl] at happ
    refine ⟨_ :: rows, by rw [hrows, happ, List.append_assoc]; rfl, .cons ⟨?_, ?_⟩ hall⟩
    · rw [hst, Execution.outcome, hx]
    · rw [hreq, issuance, hhour]
  | elsewhere he _ ih =>
    obtain ⟨rows, hrows, hall⟩ := ih
    exact ⟨rows, by rw [hrows, he], hall⟩

/-- The successes that the window counts, by the slots behind them. -/
theorem Executed.successfulCollections_eq {p l : ℕ} {s s' : Store} {es : List Execution} (h : Executed p l s es s')
    (hnone : collectionsOf s p l = []) (start stop : ℤ) :
    successfulCollections s' p l start stop =
      es.countP fun e => e.outcome = .success ∧ start ≤ truncateHour e.slot.key.slotTime - hour ∧
        truncateHour e.slot.key.slotTime - hour < stop := by
  obtain ⟨rows, hrows, hall⟩ := h.collections
  rw [successfulCollections, hrows, hnone, List.nil_append]
  clear hrows h
  induction hall with
  | nil => rfl
  | cons hce _ ih =>
    rw [List.countP_cons, List.countP_cons, ih]
    simp only [countsAsSuccess, hce.1, hce.2, Outcome.status_eq_success_iff]

/-- The value of the reliability row. -/
theorem exists_reliability_row_iff (cell : Cell) (period : Period) (sqrt : ℚ → ℚ) (pairs : List (PairRecord ℚ))
    (counts : VariableCounts) (scheduled success : ℕ) (v : ℚ) :
    (∃ m ∈ computeRows sqrt cell period pairs counts scheduled success,
        m.metricType = .reliability ∧ m.value = some v) ↔ (rate success scheduled : Option ℚ) = some v := by
  simp [computeRows, accumulatedRows, continuousRows, ratelessRow, metric]

/-- **The reliability of a period whose slots all ended with a usable collection** is one exactly when
the period has a slot, every collection was a full success, and the hour of every slot begins at
least an hour into the period, so that `requested_at` does not fall before it. -/
theorem reliability_eq_one_iff (cell : Cell) (period : Period) (sqrt : ℚ → ℚ) (pairs : List (PairRecord ℚ))
    (counts : VariableCounts) (slots : Scheduler.State) (configs : List Catalog.ProviderConfiguration)
    (s s' : Store) (es : List Execution)
    (hexec : Executed cell.providerID cell.locationID s es s')
    (hnone : collectionsOf s cell.providerID cell.locationID = [])
    (hslots : (forecastSlots slots configs cell.providerID cell.locationID period.start period.stop).Perm
      (es.map Execution.slot)) :
    (∃ m ∈ computeRows sqrt cell period pairs counts
          (scheduledForecastSlots slots configs cell.providerID cell.locationID period.start period.stop)
          (successfulCollections s' cell.providerID cell.locationID period.start period.stop),
        m.metricType = .reliability ∧ m.value = some 1) ↔
      es ≠ [] ∧ ∀ e ∈ es, e.outcome = .success ∧ period.start ≤ truncateHour e.slot.key.slotTime - hour := by
  have hlen : scheduledForecastSlots slots configs cell.providerID cell.locationID period.start period.stop =
      es.length := by
    rw [scheduledForecastSlots, hslots.length_eq, List.length_map]
  -- the end of the period never cuts a collection off
  have hstop : ∀ e ∈ es, truncateHour e.slot.key.slotTime - hour < period.stop := by
    intro e he
    have hmem := hslots.mem_iff.mpr (List.mem_map_of_mem he)
    simp only [forecastSlots, List.mem_filter, decide_eq_true_eq] at hmem
    have h1 := hmem.2.2.2.2.2
    have h2 := truncateHour_le e.slot.key.slotTime
    have h3 : (0 : ℤ) < hour := by decide
    omega
  rw [exists_reliability_row_iff, rate_eq_one_iff, hlen, hexec.successfulCollections_eq hnone]
  have hle := List.countP_le_length (l := es) (p := fun e => decide (e.outcome = .success ∧
    period.start ≤ truncateHour e.slot.key.slotTime - hour ∧ truncateHour e.slot.key.slotTime - hour < period.stop))
  rw [List.length_pos_iff, (Nat.le_antisymm_iff.trans (and_iff_right hle)).symm, List.countP_eq_length]
  refine and_congr_right fun _ => forall₂_congr fun e he => ?_
  simp [hstop e he]

/-! ### One slot -/

/-- An hour at `20°C`, with or without rain. -/
def sampleHour (dt : ℤ) (rain : Option OpenWeather.PrecipVolume) : OpenWeather.HourlyItem :=
  ⟨dt, some 20, none, some 1010, some 50, none, some 3, none, none, rain, none, []⟩

/-- A slot of provider `1` at location `1`, executed at its slot time: the provider answers with one
hour, two hours after the slot. -/
def oneHourExecution (rain : Option OpenWeather.PrecipVolume) (slotTime : ℤ) : Execution where
  slot := Scheduler.newSlot slotTime 1 ⟨1, .forecastCollection, some 1, slotTime⟩
  input := ⟨1, "openweather", true, 1, true, 1, true⟩
  exchange :=
    { now := slotTime, completedAt := slotTime, payloadOK := true, now_le_completedAt := le_refl _
      adapter := some <| OpenWeather.fetchForecast
        (fun _ => .ok ⟨[some (sampleHour (slotTime / second + 7200) rain)]⟩) [0] none }

/-- The slot table with that slot. -/
def oneSlot (slotTime : ℤ) : Scheduler.State := ⟨[(oneHourExecution none slotTime).slot], 2⟩

/-- The configuration that owns the slot. -/
def oneConfig : List Catalog.ProviderConfiguration := [⟨1, 1, ⟨.hourly, 0⟩⟩]

/-- The store after the slot was executed from an empty store. -/
def afterOneSlot (rain : Option OpenWeather.PrecipVolume) (slotTime : ℤ) : Store :=
  (collect (oneHourExecution rain slotTime).input (oneHourExecution rain slotTime).exchange .empty).2

theorem executed_of_status (e : Execution) (s : Store) (st : CollectionStatus)
    (hhour : truncateHour e.exchange.now = truncateHour e.slot.key.slotTime)
    (h : (collect e.input e.exchange s).1.map ForecastCollection.status = .ok st) (hst : st.successful = true) :
    Executed e.input.providerID e.input.locationID s [e] (collect e.input e.exchange s).2 := by
  rcases hc : collect e.input e.exchange s with ⟨r, s1⟩
  rw [hc] at h
  cases r with
  | error err => simp [Except.map] at h
  | ok coll =>
    simp only [Except.map, Except.ok.injEq] at h
    exact .slot rfl rfl hhour hc (h ▸ hst) (.done s1)

theorem executed_second_hour : Executed 1 1 .empty [oneHourExecution none hour] (afterOneSlot none hour) :=
  executed_of_status (oneHourExecution none hour) .empty .success rfl (by decide +kernel) rfl

/-- The slot of the second hour of a day, executed in time, counts. -/
theorem reliability_one_hour_in :
    ∃ m ∈ computeRows (id : ℚ → ℚ) sampleCell ⟨.daily, 0, day⟩ [] ⟨0, 0, 0, 0, 0⟩
        (scheduledForecastSlots (oneSlot hour) oneConfig 1 1 0 day)
        (successfulCollections (afterOneSlot none hour) 1 1 0 day),
      m.metricType = .reliability ∧ m.value = some 1 :=
  (reliability_eq_one_iff sampleCell ⟨.daily, 0, day⟩ id [] ⟨0, 0, 0, 0, 0⟩ (oneSlot hour) oneConfig .empty
    (afterOneSlot none hour) [oneHourExecution none hour] executed_second_hour rfl
    (.of_eq (by decide +kernel))).mpr ⟨by simp, by decide +kernel⟩

/-- The slot at the start of a day, executed in time and with full success, does not: its collection
has `requested_at` in the day before. -/
theorem reliability_zero_at_start :
    Executed 1 1 .empty [oneHourExecution none 0] (afterOneSlot none 0) ∧
      forecastSlots (oneSlot 0) oneConfig 1 1 0 day = [(oneHourExecution none 0).slot] ∧
      (collectionsOf (afterOneSlot none 0) 1 1).map (fun c => (c.status, c.requestedAt)) = [(.success, -hour)] ∧
      (computeRows (id : ℚ → ℚ) sampleCell ⟨.daily, 0, day⟩ [] ⟨0, 0, 0, 0, 0⟩
          (scheduledForecastSlots (oneSlot 0) oneConfig 1 1 0 day)
          (successfulCollections (afterOneSlot none 0) 1 1 0 day)).filterMap
        (fun m => if m.metricType = .reliability then m.value else none) = [0] :=
  ⟨executed_of_status (oneHourExecution none 0) _ .success rfl (by decide +kernel) rfl,
    by decide +kernel, by decide +kernel,
    by decide +kernel⟩

end ForecastIQ.Analysis
