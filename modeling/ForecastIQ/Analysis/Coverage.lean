import ForecastIQ.Analysis.Reliability

/-!
# Dry hours and coverage

An OpenWeather hour with neither rain nor snow is a dry hour, not a missing one. The
adapter gives it no precipitation amount, `snapshotVariableCounts` counts the amounts
that are there, and ranking takes the least coverage: a provider that delivers every
hour loses coverage for each dry one. `dry_hours_coverage_iff` says that full delivery
is full coverage exactly when as many wet hours were delivered as slots were scheduled.
-/

namespace ForecastIQ.Analysis

open ForecastIQ.Foundations ForecastIQ.Collection Eval

/-! ### What was delivered -/

/-- The items of an answer that OpenWeather sent. -/
def deliveredItems (unmarshal : List UInt8 → Except String OpenWeather.ForecastResponse) (body : List UInt8)
    (failure : Option ProviderError) : List OpenWeather.HourlyItem :=
  match failure, unmarshal body with
  | none, .ok resp => resp.hourly.filterMap id
  | _, _ => []

/-- `OpenWeatherRun p items s`: the store `s` is reached by runs of `collect`, those of provider `p`
with the OpenWeather adapter, which was delivered the hourly items `items` in them. -/
inductive OpenWeatherRun (providerID : ℕ) : List OpenWeather.HourlyItem → Store → Prop where
  /-- Nothing was collected yet. -/
  | init : OpenWeatherRun providerID [] .empty
  /-- A run for the provider, with an answer, a failure or neither. -/
  | fetched {items : List OpenWeather.HourlyItem} {s : Store} (input : CollectInput) (x : Exchange)
      (unmarshal : List UInt8 → Except String OpenWeather.ForecastResponse) (body : List UInt8)
      (failure : Option ProviderError) :
      x.adapter = some (OpenWeather.fetchForecast unmarshal body failure) → OpenWeatherRun providerID items s →
      OpenWeatherRun providerID (items ++ deliveredItems unmarshal body failure) (collect input x s).2
  /-- A run for another provider, with any adapter. -/
  | elsewhere {items : List OpenWeather.HourlyItem} {s : Store} (input : CollectInput) (x : Exchange) :
      input.providerID ≠ providerID → OpenWeatherRun providerID items s →
      OpenWeatherRun providerID items (collect input x s).2

/-- The stored row is the snapshot of the item. -/
def BuiltFrom (r : SnapshotRow) (item : OpenWeather.HourlyItem) : Prop :=
  ∃ issuedAt, r.snapshot = (item.snapshot issuedAt).stored

/-- Only a wet hour is stored with an amount. -/
theorem BuiltFrom.precipitation_isSome {r : SnapshotRow} {item : OpenWeather.HourlyItem} (h : BuiltFrom r item) :
    r.snapshot.weather.precipitationAmountMM.isSome = item.wet := by
  obtain ⟨issuedAt, h⟩ := h
  rw [h, ← OpenWeather.precipMM_isSome]
  exact Option.isSome_map

theorem mem_snapshots_fetchForecast {unmarshal : List UInt8 → Except String OpenWeather.ForecastResponse}
    {body : List UInt8} {failure : Option ProviderError} {issuedAt : ℤ} {snap : ForecastSnapshot}
    (h : snap ∈ (OpenWeather.fetchForecast unmarshal body failure issuedAt).snapshots) :
    ∃ item ∈ deliveredItems unmarshal body failure, snap = item.snapshot issuedAt := by
  cases failure with
  | some e => simp [OpenWeather.fetchForecast, ForecastResult.ofError, ForecastResult.ofPayload] at h
  | none =>
    rw [OpenWeather.fetchForecast] at h
    cases hu : unmarshal body with
    | error err =>
      rw [hu] at h
      simp [OpenWeather.decompose, ForecastResult.drift, ForecastResult.ofPayload] at h
    | ok resp =>
      rw [hu] at h
      obtain ⟨item, hmem, he⟩ := OpenWeather.mem_snapshots_decompose h
      refine ⟨item, ?_, he⟩
      simpa [deliveredItems, hu] using hmem

/-- Every stored snapshot of the provider is the snapshot of an item it delivered. -/
theorem OpenWeatherRun.builtFrom {p : ℕ} {items : List OpenWeather.HourlyItem} {s : Store}
    (h : OpenWeatherRun p items s) {r : SnapshotRow} (hr : r ∈ s.snapshots) (hp : r.providerID = p) :
    ∃ item ∈ items, BuiltFrom r item := by
  induction h with
  | init => simp [Store.empty] at hr
  | fetched input x unmarshal body failure hx _ ih =>
    rcases mem_snapshots_collect hr with hr | ⟨-, -, fetch, hfetch, snap, hsnap, he⟩
    · obtain ⟨item, hmem, hb⟩ := ih hr
      exact ⟨item, List.mem_append_left _ hmem, hb⟩
    · obtain rfl := Option.some.inj (hx.symm.trans hfetch)
      obtain ⟨item, hmem, rfl⟩ := mem_snapshots_fetchForecast hsnap
      exact ⟨item, List.mem_append_right _ hmem, _, he⟩
  | elsewhere input x hne _ ih =>
    rcases mem_snapshots_collect hr with hr | ⟨hid, -⟩
    · exact ih hr
    · exact absurd (hid.symm.trans hp) hne

/-- The items behind the snapshots of a cell, in order. -/
theorem OpenWeatherRun.exists_items {items : List OpenWeather.HourlyItem} {s : Store} {cell : Cell}
    (h : OpenWeatherRun cell.providerID items s) (start stop : ℤ) :
    ∃ rows, List.Forall₂ (fun r item => item ∈ items ∧ BuiltFrom r item) (cellSnapshots s cell start stop) rows := by
  have hall : ∀ r ∈ cellSnapshots s cell start stop, ∃ item, item ∈ items ∧ BuiltFrom r item := by
    intro r hr
    simp only [cellSnapshots, List.mem_filter, decide_eq_true_eq] at hr
    exact h.builtFrom hr.1 hr.2.1
  choose! f hf using hall
  exact ⟨(cellSnapshots s cell start stop).map f, List.forall₂_map_right_iff.mpr (List.forall₂_same.mpr hf)⟩

/-! ### The coverage that ranking uses -/

/-- The coverage of a provider with the rows of `computeRows` is one exactly when something was
scheduled and every variable was delivered as often. -/
theorem coverage_ofRows_eq_one_iff {sqrt : ℚ → ℚ} {cell : Cell} {period : Period} {pairs : List (PairRecord ℚ)}
    {counts : VariableCounts} {scheduled success : ℕ} {rows : List (MetricValue ℚ)}
    (hrows : rows.Perm (readRows sqrt cell period pairs counts scheduled success)) (id : ℕ) (days : ℤ) :
    (ProviderInput.ofRows id days rows).coverage = some 1 ↔ 0 < scheduled ∧ ∀ n ∈ counts.toList, scheduled ≤ n := by
  have hmem : ∀ c : ℚ, c ∈ coveragesOf rows ↔ ∃ n ∈ counts.toList, rate n scheduled = some c := by
    intro c
    rw [(coveragesOf_perm hrows).mem_iff, coveragesOf_readRows]
    simp [Option.mem_toList]
  rw [ofRows_coverage, minCoverage_eq_some_iff]
  simp only [hmem]
  constructor
  · rintro ⟨⟨n, -, hn⟩, hle⟩
    have hpos := ((rate_eq_one_iff n scheduled).mp hn).1
    refine ⟨hpos, fun n hn => ((rate_eq_one_iff (K := ℚ) n scheduled).mp ?_).2⟩
    -- a rate is at most one, and here at least one
    have h1 := hle _ ⟨n, hn, if_neg hpos.ne'⟩
    rw [rate, if_neg hpos.ne', Option.some.injEq]
    split_ifs at h1 ⊢ with hlt
    · rfl
    · exact le_antisymm (not_lt.mp hlt) h1
  · rintro ⟨hpos, hall⟩
    have hone : ∀ n ∈ counts.toList, (rate n scheduled : Option ℚ) = some 1 := fun n hn =>
      (rate_eq_one_iff n scheduled).mpr ⟨hpos, hall n hn⟩
    refine ⟨⟨counts.temperature, by simp [VariableCounts.toList], hone _ (by simp [VariableCounts.toList])⟩, ?_⟩
    rintro x ⟨n, hn, hx⟩
    rw [hone n hn, Option.some.injEq] at hx
    exact hx.le

theorem countP_precipitation {items rows : List OpenWeather.HourlyItem} {snaps : List SnapshotRow}
    (h : List.Forall₂ (fun r item => item ∈ items ∧ BuiltFrom r item) snaps rows) :
    snaps.countP (fun r => r.snapshot.weather.precipitationAmountMM.isSome) =
      rows.countP OpenWeather.HourlyItem.wet := by
  induction h with
  | nil => rfl
  | cons hr _ ih => rw [List.countP_cons, List.countP_cons, ih, hr.2.precipitation_isSome]

/-- Delivered hours with every other variable are counted in full, and the wet ones among them for
precipitation. -/
theorem snapshotVariableCounts_eq {s : Store} {cell : Cell} {start stop : ℤ} {items rows : List OpenWeather.HourlyItem}
    (hrows : List.Forall₂ (fun r item => item ∈ items ∧ BuiltFrom r item) (cellSnapshots s cell start stop) rows)
    (hfull : ∀ r ∈ cellSnapshots s cell start stop, r.snapshot.weather.temperatureC.isSome = true ∧
      r.snapshot.weather.windSpeedMS.isSome = true ∧ r.snapshot.weather.humidityPct.isSome = true ∧
      r.snapshot.weather.pressureHPa.isSome = true) :
    snapshotVariableCounts s cell start stop =
      ⟨(cellSnapshots s cell start stop).length, (cellSnapshots s cell start stop).length,
        (cellSnapshots s cell start stop).length, (cellSnapshots s cell start stop).length,
        rows.countP OpenWeather.HourlyItem.wet⟩ := by
  simp only [snapshotVariableCounts, List.countP_map, VariableCounts.mk.injEq]
  refine ⟨?_, ?_, ?_, ?_, countP_precipitation hrows⟩ <;> refine List.countP_eq_length.mpr fun r hr => ?_
  · exact (hfull r hr).1
  · exact (hfull r hr).2.1
  · exact (hfull r hr).2.2.1
  · exact (hfull r hr).2.2.2

/-- **Full delivery is full coverage exactly when enough of the delivered hours were wet.** In every
run, the snapshots of a cell are those of delivered items; when there are as many snapshots as slots
and only precipitation amounts are missing, the coverage that ranking uses is one exactly when at
least as many of these items are wet as slots were scheduled. -/
theorem dry_hours_coverage_iff (cell : Cell) (period : Period) (sqrt : ℚ → ℚ) (pairs : List (PairRecord ℚ))
    (slots : Scheduler.State) (configs : List Catalog.ProviderConfiguration) (items : List OpenWeather.HourlyItem)
    (s : Store) (vals : List (MetricValue ℚ)) (hrun : OpenWeatherRun cell.providerID items s)
    (hmany : scheduledForecastSlots slots configs cell.providerID cell.locationID period.start period.stop ≤
      (cellSnapshots s cell period.start period.stop).length)
    (hfull : ∀ r ∈ cellSnapshots s cell period.start period.stop, r.snapshot.weather.temperatureC.isSome = true ∧
      r.snapshot.weather.windSpeedMS.isSome = true ∧ r.snapshot.weather.humidityPct.isSome = true ∧
      r.snapshot.weather.pressureHPa.isSome = true)
    (hvals : (rowsOf vals cell.providerID).Perm
      (readRows sqrt cell period pairs (snapshotVariableCounts s cell period.start period.stop)
        (scheduledForecastSlots slots configs cell.providerID cell.locationID period.start period.stop)
        (successfulCollections s cell.providerID cell.locationID period.start period.stop))) :
    (∃ rows, List.Forall₂ (fun r item => item ∈ items ∧ BuiltFrom r item)
        (cellSnapshots s cell period.start period.stop) rows) ∧
      ∀ rows, List.Forall₂ (fun r item => item ∈ items ∧ BuiltFrom r item)
          (cellSnapshots s cell period.start period.stop) rows →
        ((∃ r ∈ rankCell vals period, r.providerID = cell.providerID ∧ r.coverage = some 1) ↔
          0 < scheduledForecastSlots slots configs cell.providerID cell.locationID period.start period.stop ∧
            scheduledForecastSlots slots configs cell.providerID cell.locationID period.start period.stop ≤
              rows.countP OpenWeather.HourlyItem.wet) := by
  refine ⟨hrun.exists_items period.start period.stop, fun rows hrows => ?_⟩
  rw [rankCell, exists_ranking_iff_of (g := ProviderInput.coverage) fun _ _ => rfl,
    and_iff_right (mem_providers_of_readRows hvals), coverage_ofRows_eq_one_iff hvals,
    snapshotVariableCounts_eq hrows hfull]
  simp only [VariableCounts.toList, List.forall_mem_cons, List.not_mem_nil, false_implies, implies_true, and_true,
    hmany, true_and]

/-! ### One delivered hour -/

/-- The cell of the hour that `oneHourExecution` delivers. -/
def threeHourCell : Cell := ⟨1, 1, 180⟩

/-- The live rows of that cell for a day with one slot, after the slot was executed. -/
def oneHourRows (rain : Option OpenWeather.PrecipVolume) : List (MetricValue ℚ) :=
  readRows id threeHourCell ⟨.daily, 0, day⟩ []
    (snapshotVariableCounts (afterOneSlot rain hour) threeHourCell 0 day)
    (scheduledForecastSlots (oneSlot hour) oneConfig 1 1 0 day)
    (successfulCollections (afterOneSlot rain hour) 1 1 0 day)

theorem oneHour_run (rain : Option OpenWeather.PrecipVolume) :
    OpenWeatherRun 1 [sampleHour 10800 rain] (afterOneSlot rain hour) :=
  .fetched (oneHourExecution rain hour).input (oneHourExecution rain hour).exchange
    (fun _ => .ok ⟨[some (sampleHour 10800 rain)]⟩) [0] none rfl .init

theorem rowsOf_oneHourRows (rain : Option OpenWeather.PrecipVolume) :
    rowsOf (oneHourRows rain) threeHourCell.providerID = oneHourRows rain :=
  rowsOf_readRows id threeHourCell ⟨.daily, 0, day⟩ _ _ _ _

/-- One delivered hour with rain is full coverage of one slot. -/
theorem wet_hour_coverage :
    ∃ r ∈ rankCell (oneHourRows (some ⟨some 1⟩)) ⟨.daily, 0, day⟩, r.providerID = 1 ∧ r.coverage = some 1 :=
  ((dry_hours_coverage_iff threeHourCell ⟨.daily, 0, day⟩ id [] (oneSlot hour) oneConfig
    [sampleHour 10800 (some ⟨some 1⟩)] (afterOneSlot (some ⟨some 1⟩) hour) (oneHourRows (some ⟨some 1⟩))
    (oneHour_run _) (by decide +kernel) (by decide +kernel) (.of_eq (rowsOf_oneHourRows _))).2
      [sampleHour 10800 (some ⟨some 1⟩)] (by
        rw [show cellSnapshots (afterOneSlot (some ⟨some 1⟩) hour) threeHourCell 0 day =
          [⟨1, 0, 1, 1, ((sampleHour 10800 (some ⟨some 1⟩)).snapshot 0).stored⟩] by decide +kernel]
        exact .cons ⟨List.mem_singleton_self _, 0, rfl⟩ .nil)).mpr (by decide +kernel)

/-- One delivered hour without rain, with every other value there, is no coverage. -/
theorem dry_hour_no_coverage :
    OpenWeatherRun 1 [sampleHour 10800 none] (afterOneSlot none hour) ∧
      scheduledForecastSlots (oneSlot hour) oneConfig 1 1 0 day = 1 ∧
      (cellSnapshots (afterOneSlot none hour) threeHourCell 0 day).map (fun r => r.snapshot.weather) =
        [⟨some 20, none, none, none, some 50, some 3, none, some 1010, none⟩] ∧
      (rankCell (oneHourRows none) ⟨.daily, 0, day⟩).map (fun r => (r.providerID, r.coverage)) = [(1, some 0)] :=
  ⟨oneHour_run none, by decide +kernel, by decide +kernel, by decide +kernel⟩

end ForecastIQ.Analysis
