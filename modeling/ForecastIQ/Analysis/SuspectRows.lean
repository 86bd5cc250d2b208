import ForecastIQ.Analysis.Batch
import ForecastIQ.Analysis.MatchLoop
import ForecastIQ.Collection.ObserveExact

/-!
# Suspect observations

The adapter flags a reading with a value outside its range as suspect, and neither matching
nor aggregation reads a suspect row. But `Observe` flags a correction as corrected, whatever
the adapter said. So what matters is whether a reading outside its ranges ever corrects a
live row (`Fetch.CorrectsInRange`). `out_of_range_is_suspect` is about every sequence of runs.

A correction is a difference of two doubles beyond a limit, so a reading outside its range can
correct a live row at the end of the range by the rounding of the difference alone: a stored
60.0 by a fetched 60.1 (`floatDiffers`).
-/

namespace ForecastIQ.Analysis

open ForecastIQ.Foundations ForecastIQ.Collection

/-! ### Runs of the collector -/

/-- One run: what it is for, and what the source answers. -/
structure Fetch where
  active : Bool
  window : LocationWindow
  defaultType : ObservationType
  unmarshal : List UInt8 → Except String Historical.HistoricalResponse
  answer : Except ProviderError (List UInt8)

/-- The readings, when the fetch is a success. -/
def Fetch.fetched (f : Fetch) : Option (List Reading) :=
  (Historical.fetchObservations f.defaultType f.unmarshal f.window.stop f.answer).fetched

/-- The store after the run; one that fails leaves it. -/
def Fetch.run (f : Fetch) (s : ObservationStore) : ObservationStore :=
  match observe f.active f.window.source f.window.locationID f.window.start f.window.stop f.fetched s with
  | .ok (_, s') => s'
  | .error _ => s

/-- No reading that would be stored outside its ranges corrects a live row of the window. -/
def Fetch.CorrectsInRange (f : Fetch) (s : ObservationStore) : Prop :=
  ∀ readings, f.fetched = some readings → ∀ r ∈ readings, r.stored.rangeReasons ≠ [] →
    f.window.Covers r.observedAt → ∀ o ∈ s.liveAt (f.window.key r.observedAt), r.differsFrom o.toReading = false

/-- The stores that runs which meet a condition lead to. -/
inductive CollectedBy (condition : Fetch → ObservationStore → Prop) : ObservationStore → Prop where
  | empty : CollectedBy condition .empty
  | run {s : ObservationStore} (f : Fetch) : CollectedBy condition s → condition f s → CollectedBy condition (f.run s)

/-- Every live row with a value outside its range is flagged. -/
def Flagged (s : ObservationStore) : Prop :=
  ∀ o ∈ s.rows, o.live = true → o.rangeReasons ≠ [] → o.qualityFlag = .suspect

section Run

variable {s : ObservationStore} {f : Fetch}

/-- The run succeeds, on a store and with a result. -/
def Fetch.Succeeds (f : Fetch) (s s' : ObservationStore) : Prop :=
  ∃ n, observe f.active f.window.source f.window.locationID f.window.start f.window.stop f.fetched s = .ok (n, s')

/-- A run changes nothing, or succeeds. -/
theorem Fetch.run_cases (f : Fetch) (s : ObservationStore) : f.run s = s ∨ f.Succeeds s (f.run s) := by
  rw [run]
  split
  · rename_i n s' h
    exact .inr ⟨n, h⟩
  · exact .inl rfl

/-- What a run that succeeds leaves. -/
theorem Fetch.Succeeds.eq_observed (hs : s.Keyed) {s' : ObservationStore} (h : f.Succeeds s s') :
    ∃ readings, f.fetched = some readings ∧ s' = s.observed f.window readings ∧
      ((s.corrections f.window readings).map Correction.oldID).Nodup := by
  obtain ⟨n, h⟩ := h
  cases hactive : f.active with
  | false =>
    rw [hactive] at h
    cases h
  | true =>
    cases hf : f.fetched with
    | none =>
      rw [hactive, hf] at h
      cases h
    | some readings =>
      rw [hactive, hf] at h
      obtain ⟨hnodup, -, he, -⟩ := hs.observe_eq_ok_iff.mp h
      exact ⟨readings, rfl, he, hnodup⟩

theorem keyed_run (hs : s.Keyed) : (f.run s).Keyed := by
  rcases f.run_cases s with he | hok
  · rwa [he]
  · obtain ⟨readings, -, he, -⟩ := hok.eq_observed hs
    rw [he]
    exact hs.observed f.window readings

/-- A row that is stored as the adapter flagged it is flagged by its stored values. -/
theorem suspect_of_fetched {readings : List Reading} (hf : f.fetched = some readings) {r : Reading}
    (hr : r ∈ readings) (hrange : r.stored.rangeReasons ≠ []) : r.qualityFlag = .suspect := by
  rw [(Historical.mem_fetched hf hr).1, if_neg fun hnil => hrange (Reading.rangeReasons_stored hnil)]

/-- A run keeps the rows flagged when none of its corrections is outside the ranges. -/
theorem Flagged.of_succeeds (hs : s.Keyed) (h : Flagged s) (hcond : f.CorrectsInRange s) {s' : ObservationStore}
    (hok : f.Succeeds s s') : Flagged s' := by
  obtain ⟨readings, hf, rfl, -⟩ := hok.eq_observed hs
  intro o ho hlive hrange
  rcases hs.mem_liveAt_observed (ObservationStore.mem_liveAt.mpr ⟨ho, rfl, hlive⟩) with ⟨hold, -⟩ | ⟨g, hg, hw, -, rfl⟩
  · exact h o (ObservationStore.mem_liveAt.mp hold).1 hlive hrange
  · have hr : g.toReading ∈ readings := ObservationStore.mem_fetched_iff.mpr ⟨g, hg, rfl⟩
    by_cases hcorr : f.window.Covers g.observedAt ∧ s.liveAt (f.window.key g.observedAt) ≠ []
    · -- a correction differs from the live row, which the condition excludes
      obtain ⟨prev, hprev⟩ := List.exists_mem_of_ne_nil _ hcorr.2
      rw [ObservationStore.landing, if_pos hcorr] at hrange
      have hsame := hcond readings hf g.toReading hr hrange hcorr.1 prev hprev
      rw [hw hcorr.1 prev hprev] at hsame
      cases hsame
    · rw [ObservationStore.landing, if_neg hcorr] at hrange ⊢
      change g.qualityFlag = .suspect
      exact suspect_of_fetched hf hr hrange

end Run

/-! ### Every sequence of runs -/

theorem CollectedBy.keyed {condition : Fetch → ObservationStore → Prop} {s : ObservationStore}
    (h : CollectedBy condition s) : s.Keyed := by
  induction h with
  | empty => exact .empty
  | run f _ _ ih => exact keyed_run ih

theorem CollectedBy.flagged {s : ObservationStore} (h : CollectedBy Fetch.CorrectsInRange s) : Flagged s := by
  induction h with
  | empty => exact fun o ho => absurd ho List.not_mem_nil
  | run f hs hcond ih =>
    rcases f.run_cases _ with he | hok
    · rwa [he]
    · exact ih.of_succeeds hs.keyed hcond hok

/-- What matching reads is not suspect. -/
theorem mem_findCandidates {obs : List Observation} {locationID : ℕ} {atHour : ℤ} {c : ObservationCandidate}
    (h : c ∈ findCandidates obs locationID atHour) : ∃ o ∈ obs, o.id = c.id ∧ o.qualityFlag ≠ .suspect := by
  obtain ⟨o, ho, rfl⟩ := List.mem_map.mp h
  rw [List.mem_filter, decide_eq_true_eq] at ho
  exact ⟨o, ho.1, rfl, ho.2.2.2.1⟩

/-- What aggregation reads is not suspect. -/
theorem observation_of_readPairs {db : Database} {cell : Cell} {start stop : ℤ} {p : (ℕ × ℕ) × PairRecord ℚ}
    (h : p ∈ db.readPairs cell start stop) :
    ∃ r ∈ db.store.snapshots, ∃ o ∈ db.observations.rows, o.qualityFlag ≠ .suspect ∧ o.id = p.1.2 ∧
      p.2 = pairRecord r o := by
  obtain ⟨m, hm, h⟩ := List.mem_flatMap.mp h
  obtain ⟨r, hr, h⟩ := List.mem_flatMap.mp h
  obtain ⟨o, ho, rfl⟩ := List.mem_map.mp h
  rw [List.mem_filter, decide_eq_true_eq] at ho
  exact ⟨r, (List.mem_filter.mp hr).1, o, ho.1, ho.2.2.2, ho.2.1, rfl⟩

/-- **In every store that runs lead to whose corrections are within the ranges, a live observation with
a value outside its range is suspect: it is no candidate for matching, no pair with it is read, and the
metric rows of a cell are computed from records of other observations.** -/
theorem out_of_range_is_suspect {s : ObservationStore} (h : CollectedBy Fetch.CorrectsInRange s) {o : Observation}
    (ho : o ∈ s.rows) (hlive : o.live = true) (hrange : o.rangeReasons ≠ []) :
    o.qualityFlag = .suspect ∧
      (∀ locationID atHour, ∀ c ∈ findCandidates s.rows locationID atHour, c.id ≠ o.id) ∧
      ∀ db : Database, db.observations = s →
        (∀ cell start stop, ∀ p ∈ db.readPairs cell start stop, p.1.2 ≠ o.id) ∧
        ∀ sqrt period cell, ∃ records : List (PairRecord ℚ),
          (∀ p ∈ records, ∃ r ∈ db.store.snapshots, ∃ o' ∈ s.rows, o'.id ≠ o.id ∧ p = pairRecord r o') ∧
          (db.cellBatch sqrt period cell).map Stamped.row = metricBatch sqrt cell period records
            (snapshotVariableCounts db.store cell period.start period.stop)
            (scheduledForecastSlots db.slots db.configs cell.providerID cell.locationID period.start period.stop)
            (successfulCollections db.store cell.providerID cell.locationID period.start period.stop) := by
  have hsuspect := h.flagged o ho hlive hrange
  have hread : ∀ o' ∈ s.rows, o'.qualityFlag ≠ .suspect → o'.id ≠ o.id := by
    intro o' ho' hflag hid
    rw [List.inj_on_of_nodup_map h.keyed.nodup ho' ho hid] at hflag
    exact hflag hsuspect
  refine ⟨hsuspect, fun locationID atHour c hc => ?_, ?_⟩
  · obtain ⟨o', ho', hid, hflag⟩ := mem_findCandidates hc
    rw [← hid]
    exact hread o' ho' hflag
  · rintro db rfl
    refine ⟨fun cell start stop p hp => ?_, fun sqrt period cell =>
      ⟨_, fun p hp => ?_, map_row_cellBatch sqrt period db cell⟩⟩
    · obtain ⟨-, -, o', ho', hflag, hid, -⟩ := observation_of_readPairs hp
      rw [← hid]
      exact hread o' ho' hflag
    · obtain ⟨q, hq, rfl⟩ := List.mem_map.mp hp
      obtain ⟨r, hr, o', ho', hflag, -, he⟩ := observation_of_readPairs hq
      exact ⟨r, hr, o', ho', hread o' ho' hflag, he⟩

/-- A run for the first two hours at location `1`, in which the source gives the first one. -/
def firstHourFetch (temperatureC : ℚ) : Fetch :=
  ⟨true, ⟨Historical.source, 1, 0, hour⟩, .reanalysis, answerOf [(0, temperatureC, 50)], .ok []⟩

/-- Seventy degrees for a new hour are stored as suspect. -/
theorem hotHour_is_suspect :
    ∃ s o, CollectedBy Fetch.CorrectsInRange s ∧ o ∈ s.rows ∧ o.temperatureC = some 70 ∧ o.qualityFlag = .suspect ∧
      ∀ c ∈ findCandidates s.rows 1 0, c.id ≠ o.id := by
  have hreach : CollectedBy Fetch.CorrectsInRange ((firstHourFetch 70).run .empty) :=
    .run _ .empty fun _ _ _ _ _ _ o ho => absurd ho List.not_mem_nil
  have hrows : ((firstHourFetch 70).run .empty).rows =
      [⟨{ hourOf 0 70 50 with qualityFlag := .suspect }, 0, 1, Historical.source, none⟩] := by
    decide +kernel
  have hmem : ⟨{ hourOf 0 70 50 with qualityFlag := .suspect }, 0, 1, Historical.source, none⟩ ∈
      ((firstHourFetch 70).run .empty).rows := by
    rw [hrows]
    exact List.mem_singleton_self _
  obtain ⟨hflag, hcand, -⟩ := out_of_range_is_suspect hreach hmem (by decide +kernel) (by decide +kernel)
  exact ⟨_, _, hreach, hmem, rfl, hflag, hcand 1 0⟩

/-- Twenty degrees are stored, and the source then gives seventy for the same hour: the live row is
flagged corrected, a snapshot of the hour is paired with it, and aggregation reads the pair. -/
theorem hotCorrection_is_read :
    ∃ s o, CollectedBy (fun _ _ => True) s ∧ o ∈ s.rows ∧ o.live = true ∧
      o.rangeReasons = ["temperature_c out of range"] ∧ o.qualityFlag = .corrected ∧
      (∃ c ∈ findCandidates s.rows 1 0, c.id = o.id) ∧
      ∃ m, matchBatch defaultChunkSize day [snapshotAt 1 0] s.rows [] = some (1, [m]) ∧
        ∃ p ∈ Database.readPairs ⟨{ Store.empty with snapshots := [snapshotAt 1 0] }, s, ⟨[], 0⟩, [], [m], [], 0⟩
            m.cell 0 day, p.1.2 = o.id ∧ p.2.oTemperature = some 70 := by
  have hreach : CollectedBy (fun _ _ => True) ((firstHourFetch 70).run ((firstHourFetch 20).run .empty)) :=
    .run _ (.run _ .empty trivial) trivial
  have hstore : (firstHourFetch 70).run ((firstHourFetch 20).run .empty) =
      ⟨[⟨hourOf 0 20 50, 0, 1, Historical.source, some 1⟩,
        ⟨{ hourOf 0 70 50 with qualityFlag := .corrected }, 1, 1, Historical.source, none⟩], 2⟩ := by
    decide +kernel
  rw [hstore] at hreach
  exact ⟨_, ⟨{ hourOf 0 70 50 with qualityFlag := .corrected }, 1, 1, Historical.source, none⟩, hreach,
    by decide +kernel, by decide +kernel, by decide +kernel, rfl, by decide +kernel,
    newPair (toMatch (snapshotAt 1 0)) 1 0, by decide +kernel, by decide +kernel⟩

end ForecastIQ.Analysis
