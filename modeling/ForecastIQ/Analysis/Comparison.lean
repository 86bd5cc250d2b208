import ForecastIQ.Analysis.MatchLoop
import ForecastIQ.Foundations.Grouping
import Mathlib.Data.List.Pairwise

/-!
# Forecast against actual

`ForecastComparison` of `internal/analysis/read.go`, for any forecast points, with the query of
`readpg.go` that it reads the observations with. The screen shows one day of one location: the
forecast points of each provider, the observations of the day, and the day's errors of each
provider, computed from the points that have an observation.

The query is modelled by the lists it may return: its `ORDER BY` leaves the order of equal rows
to the database. The observations are ordered by their time only, and the code keeps the last
one of each time, so with two sources any of them can be the one a point is scored against
(`exists_rows_truthRow`). `MatchBatch` takes the best candidate of the target's hour instead. The
two agree exactly when there is no choice to make.
-/

namespace ForecastIQ.Analysis

open ForecastIQ.Foundations ForecastIQ.Collection Eval

/-! ### The query -/

/-- The variables that can be compared. -/
inductive ComparisonVariable where
  | temperature
  | windSpeed
  | humidity
  | pressure
  | precipitation
  deriving DecidableEq, Repr

/-- `observationColumn`. -/
def observationColumn : ComparisonVariable → Reading → Option ℚ
  | .temperature => Reading.temperatureC
  | .windSpeed => Reading.windSpeedMS
  | .humidity => Reading.humidityPct
  | .pressure => Reading.pressureHPa
  | .precipitation => Reading.precipitationMM

/-- `ComparisonQuery`: the day is the interval `[start, stop)`. -/
structure ComparisonQuery where
  locationID : ℕ
  providerIDs : List ℕ
  var : ComparisonVariable
  horizonMinutes : ℤ
  start : ℤ
  stop : ℤ

/-- `ForecastPoint`. -/
structure ForecastPoint where
  providerID : ℕ
  targetTime : ℤ
  issuedAt : ℤ
  horizonMinutes : ℤ
  value : ℚ
  deriving DecidableEq, Repr

/-- `ComparisonObservation`. -/
structure ComparisonObservation where
  observedAt : ℤ
  value : ℚ
  source : String
  observationType : ObservationType
  qualityFlag : QualityFlag
  conditionCode : Option Condition
  deriving DecidableEq, Repr

/-- The columns that `ComparisonObservations` selects. -/
def toComparison (var : ComparisonVariable) (o : Observation) : ComparisonObservation :=
  ⟨o.observedAt, deref (observationColumn var o.toReading), o.source, o.observationType, o.qualityFlag,
    o.condition.map Prod.snd⟩

/-- The rows that the condition of `ComparisonObservations` selects. -/
def comparisonRows (obs : List Observation) (q : ComparisonQuery) : List Observation :=
  obs.filter fun o =>
    o.locationID = q.locationID ∧ q.start ≤ o.observedAt ∧ o.observedAt < q.stop ∧ o.live = true ∧
      o.qualityFlag ≠ .suspect ∧ (observationColumn q.var o.toReading).isSome = true

/-- `rows` are the rows of a result of `ComparisonObservations`: `ORDER BY observed_at`. -/
structure IsObservationRows (obs : List Observation) (q : ComparisonQuery) (rows : List Observation) : Prop where
  perm : rows.Perm (comparisonRows obs q)
  sorted : rows.Pairwise fun a b => a.observedAt ≤ b.observedAt

/-! ### The payload -/

/-- `ComparisonSeries`. -/
structure ComparisonSeries where
  providerID : ℕ
  issuedAt : ℤ
  points : List ForecastPoint

/-- `ComparisonDayMetric`. -/
structure ComparisonDayMetric where
  providerID : ℕ
  mae : Option ℚ
  rmse : Option ℚ
  bias : Option ℚ
  sampleCount : ℕ
  deriving DecidableEq, Repr

/-- `ComparisonResult`. -/
structure ComparisonResult where
  series : List ComparisonSeries
  observations : List ComparisonObservation
  dayMetrics : List ComparisonDayMetric
  errorBandMAE : Option ℚ
  observationsAvailable : Bool
  provenanceMix : List (ObservationType × ℚ)
  latestObservedAt : Option ℤ

/-- The map `obsByHour`: a later observation of a time replaces an earlier one. -/
def obsByHour (obs : List ComparisonObservation) : ℤ → Option ComparisonObservation :=
  obs.foldl (fun m o => Function.update m o.observedAt (some o)) fun _ => none

/-- `seriesAcc`: the series is there once the provider has a point. -/
structure SeriesAcc where
  series : Option ComparisonSeries
  cont : Continuous ℚ

/-- Score a point against its observation, if it has one. -/
def scorePoint (obs : List ComparisonObservation) (c : Continuous ℚ) (p : ForecastPoint) : Continuous ℚ :=
  match obsByHour obs p.targetTime with
  | some o => c.add p.value o.value (provenanceWeight o.observationType)
  | none => c

/-- The body of the loop over the points. -/
def SeriesAcc.addPoint (obs : List ComparisonObservation) (a : SeriesAcc) (p : ForecastPoint) : SeriesAcc where
  series := some (match a.series with
    | none => ⟨p.providerID, p.issuedAt, [p]⟩
    | some s =>
      { s with
        points := s.points ++ [p]
        issuedAt := if p.issuedAt < s.issuedAt then p.issuedAt else s.issuedAt })
  cont := scorePoint obs a.cont p

/-- The day's errors of one provider. -/
def dayMetric (sqrt : ℚ → ℚ) (id : ℕ) (c : Continuous ℚ) : ComparisonDayMetric :=
  ⟨id, c.mae, c.rmse sqrt, c.bias, c.n⟩

/-- `provenanceMix`. -/
def provenanceMix (obs : List ComparisonObservation) : List (ObservationType × ℚ) :=
  (groupFold ComparisonObservation.observationType (fun n _ => n + 1) 0 obs).map fun g =>
    (g.1, (g.2 : ℚ) / obs.length)

/-- `ForecastComparison`, from the results of its two queries. -/
def forecastComparison (sqrt : ℚ → ℚ) (q : ComparisonQuery) (points : List ForecastPoint)
    (obs : List ComparisonObservation) : ComparisonResult :=
  let accs := groupFold ForecastPoint.providerID (SeriesAcc.addPoint obs) ⟨none, .zero⟩ points
  { series := q.providerIDs.filterMap fun id => (groupOf accs id).bind SeriesAcc.series
    observations := obs
    dayMetrics := q.providerIDs.filterMap fun id => (groupOf accs id).map fun a => dayMetric sqrt id a.cont
    errorBandMAE := (points.foldl (scorePoint obs) .zero).mae
    observationsAvailable := !obs.isEmpty
    provenanceMix := provenanceMix obs
    latestObservedAt := obs.getLast?.map ComparisonObservation.observedAt }

/-! ### What a point is scored against -/

/-- The map keeps the last observation of each time. -/
theorem obsByHour_eq (obs : List ComparisonObservation) (t : ℤ) :
    obsByHour obs t = (obs.filter fun o => o.observedAt = t).getLast? := by
  induction obs using List.reverseRecOn with
  | nil => rfl
  | append_singleton obs o ih =>
    rw [obsByHour, List.foldl_append, List.foldl_cons, List.foldl_nil, ← obsByHour, List.filter_append]
    by_cases ht : o.observedAt = t
    · subst ht
      simp
    · simp [Function.update_of_ne (Ne.symm ht), ih, ht]

/-- The row that a point with the target time `t` is scored against. -/
def truthRow (rows : List Observation) (t : ℤ) : Option Observation :=
  (rows.filter fun o => o.observedAt = t).getLast?

/-- The observation of the code's map is that of the row. -/
theorem obsByHour_map (var : ComparisonVariable) (rows : List Observation) (t : ℤ) :
    obsByHour (rows.map (toComparison var)) t = (truthRow rows t).map (toComparison var) := by
  rw [obsByHour_eq, List.filter_map, List.getLast?_map]
  rfl

/-- The forecast, observation and weight of the points that are scored against a row. -/
def scoredPairs (var : ComparisonVariable) (rows : List Observation) (points : List ForecastPoint) :
    List (ℚ × ℚ × ℚ) :=
  points.filterMap fun p =>
    (truthRow rows p.targetTime).map fun o => (p.value, (toComparison var o).value, provenanceWeight o.observationType)

theorem foldl_scorePoint (var : ComparisonVariable) (rows : List Observation) (points : List ForecastPoint) :
    points.foldl (scorePoint (rows.map (toComparison var))) .zero =
      Continuous.ofList (scoredPairs var rows points) := by
  rw [Continuous.ofList, scoredPairs]
  generalize (Continuous.zero : Continuous ℚ) = c
  induction points generalizing c with
  | nil => rfl
  | cons p points ih =>
    rw [List.foldl_cons, ih, scorePoint, obsByHour_map, List.filterMap_cons]
    cases truthRow rows p.targetTime <;> rfl

/-- **The day's errors of a provider are those of its points against the rows they are scored
against.** -/
theorem forecastComparison_dayMetrics (sqrt : ℚ → ℚ) (q : ComparisonQuery) (points : List ForecastPoint)
    (var : ComparisonVariable) (rows : List Observation) :
    (forecastComparison sqrt q points (rows.map (toComparison var))).dayMetrics =
      (q.providerIDs.filter fun id => id ∈ points.map ForecastPoint.providerID).map fun id =>
        dayMetric sqrt id (Continuous.ofList (scoredPairs var rows (points.filter fun p => p.providerID = id))) := by
  generalize hobs : rows.map (toComparison var) = obs
  have hcont : ∀ (l : List ForecastPoint) (a : SeriesAcc),
      (l.foldl (SeriesAcc.addPoint obs) a).cont = l.foldl (scorePoint obs) a.cont := fun l a =>
    (List.foldl_hom SeriesAcc.cont fun _ _ => rfl).symm
  simp only [forecastComparison, groupOf_groupFold]
  generalize q.providerIDs = ids
  induction ids with
  | nil => rfl
  | cons id ids ih =>
    rw [List.filterMap_cons, List.filter_cons, ih]
    by_cases hid : id ∈ points.map ForecastPoint.providerID
    · rw [if_pos hid, if_pos (decide_eq_true hid), Option.map_some, List.map_cons, hcont, ← hobs]
      exact congrArg (fun c => dayMetric sqrt id c :: _) (foldl_scorePoint var rows _)
    · rw [if_neg hid, if_neg (by simpa using hid), Option.map_none]

/-! ### Which observation that is -/

/-- The live rows of a location and time that are not suspect. -/
def hourRows (obs : List Observation) (locationID : ℕ) (t : ℤ) : List Observation :=
  obs.filter fun o => o.locationID = locationID ∧ o.observedAt = t ∧ o.qualityFlag ≠ .suspect ∧ o.live = true

/-- The candidates of `MatchBatch` are these rows. -/
theorem findCandidates_eq (obs : List Observation) (locationID : ℕ) (t : ℤ) :
    findCandidates obs locationID t =
      (hourRows obs locationID t).map fun o => ⟨o.id, o.observationType, o.qualityFlag, o.observedAt⟩ := rfl

/-- The identifier of the observation that `SelectCandidate` chooses for a target time. -/
def chosenID (obs : List Observation) (locationID : ℕ) (target : ℤ) : Option ℕ :=
  (selectCandidate (truncateHour target) ((findCandidates obs locationID (truncateHour target)).map some)).map
    ObservationCandidate.id

theorem chosenID_mem {obs : List Observation} {locationID : ℕ} {target : ℤ} {i : ℕ}
    (h : chosenID obs locationID target = some i) :
    ∃ o ∈ hourRows obs locationID (truncateHour target), o.id = i := by
  obtain ⟨c, hc, rfl⟩ := Option.map_eq_some_iff.mp h
  obtain ⟨c', hmem, he⟩ := List.mem_map.mp (mem_of_selectCandidate hc)
  cases he
  rw [findCandidates_eq] at hmem
  obtain ⟨o, ho, rfl⟩ := List.mem_map.mp hmem
  exact ⟨o, ho, rfl⟩

/-- Something is chosen as soon as there is a candidate. -/
theorem chosenID_eq_none_iff {obs : List Observation} {locationID : ℕ} {target : ℤ} :
    chosenID obs locationID target = none ↔ hourRows obs locationID (truncateHour target) = [] := by
  rw [chosenID, Option.map_eq_none_iff, selectCandidate_eq_none_iff, findCandidates_eq]
  simp [List.eq_nil_iff_forall_not_mem]

section Truth

variable {obs : List Observation} {q : ComparisonQuery} {target : ℤ}
  (hpresent : ∀ o ∈ obs, o.live = true → o.qualityFlag ≠ .suspect →
    (observationColumn q.var o.toReading).isSome = true)
  (hstart : q.start ≤ target) (hstop : target < q.stop)

include hpresent hstart hstop

/-- The rows of a time that the query returns are the candidates of that time. -/
theorem filter_comparisonRows :
    (comparisonRows obs q).filter (fun o => o.observedAt = target) = hourRows obs q.locationID target := by
  rw [comparisonRows, List.filter_filter, hourRows]
  refine List.filter_congr fun o ho => ?_
  have := hpresent o ho
  rw [← Bool.decide_and, decide_eq_decide]
  constructor
  · rintro ⟨rfl, hloc, -, -, hlive, hflag, -⟩
    exact ⟨hloc, rfl, hflag, hlive⟩
  · rintro ⟨hloc, rfl, hflag, hlive⟩
    exact ⟨rfl, hloc, hstart, hstop, hlive, hflag, this hlive hflag⟩

theorem filter_rows_perm {rows : List Observation} (h : IsObservationRows obs q rows) :
    (rows.filter fun o => o.observedAt = target).Perm (hourRows obs q.locationID target) := by
  rw [← filter_comparisonRows hpresent hstart hstop]
  exact h.perm.filter _

/-- **The database may return any of the candidates last.** -/
theorem exists_rows_truthRow {a : Observation} (ha : a ∈ hourRows obs q.locationID target) :
    ∃ rows, IsObservationRows obs q rows ∧ truthRow rows target = some a := by
  -- order by time, and `a` behind the other rows of its time
  let key : Observation → ℤ ×ₗ ℕ := fun o => toLex (o.observedAt, if o = a then 1 else 0)
  have hle : ∀ x y : Observation, key x ≤ key y → x.observedAt ≤ y.observedAt ∧
      (x.observedAt = y.observedAt → x = a → y = a) := by
    intro x y hxy
    rcases Prod.Lex.toLex_le_toLex.mp hxy with hlt | ⟨heq, hdec⟩
    · exact ⟨hlt.le, fun he => absurd he hlt.ne⟩
    · refine ⟨heq.le, fun _ hx => ?_⟩
      by_contra hy
      rw [if_pos hx, if_neg hy] at hdec
      omega
  have hsorted : (ordered key (comparisonRows obs q)).Pairwise fun x y => key x ≤ key y := pairwise_ordered _
  have hrows : IsObservationRows obs q (ordered key (comparisonRows obs q)) :=
    ⟨ordered_perm _, hsorted.imp fun hxy => (hle _ _ hxy).1⟩
  refine ⟨_, hrows, ?_⟩
  have hmem := (filter_rows_perm hpresent hstart hstop hrows).mem_iff.mpr ha
  have hpair := hsorted.filter fun o => decide (o.observedAt = target)
  have htime : ∀ o ∈ (ordered key (comparisonRows obs q)).filter (fun o => o.observedAt = target),
      o.observedAt = target := fun o ho => of_decide_eq_true (List.mem_filter.mp ho).2
  rw [truthRow]
  generalize (ordered key (comparisonRows obs q)).filter (fun o => o.observedAt = target) = l at hmem hpair htime ⊢
  rcases List.eq_nil_or_concat' l with rfl | ⟨init, last, rfl⟩
  · cases hmem
  · rw [List.getLast?_concat]
    rcases List.mem_append.mp hmem with hinit | hlast
    · have hkey := (List.pairwise_append.mp hpair).2.2 a hinit last (by simp)
      have ht : a.observedAt = last.observedAt := (htime a hmem).trans (htime last (by simp)).symm
      rw [(hle a last hkey).2 ht rfl]
    · rw [List.mem_singleton.mp hlast]

theorem truthRow_mem {rows : List Observation} (h : IsObservationRows obs q rows) {a : Observation}
    (ha : truthRow rows target = some a) : a ∈ hourRows obs q.locationID target :=
  (filter_rows_perm hpresent hstart hstop h).mem_iff.mp (List.mem_of_getLast? ha)

theorem truthRow_eq_none_iff {rows : List Observation} (h : IsObservationRows obs q rows) :
    truthRow rows target = none ↔ hourRows obs q.locationID target = [] := by
  rw [truthRow, List.getLast?_eq_none_iff, ← List.length_eq_zero_iff,
    (filter_rows_perm hpresent hstart hstop h).length_eq, List.length_eq_zero_iff]

omit hpresent hstart hstop in
/-- Candidates that share an identifier are one. -/
theorem length_hourRows_le_one (hids : (obs.map fun o => o.id).Nodup) {id : ℕ}
    (h : ∀ a ∈ hourRows obs q.locationID target, a.id = id) : (hourRows obs q.locationID target).length ≤ 1 := by
  have hnodup : ((hourRows obs q.locationID target).map fun o => o.id).Nodup :=
    hids.sublist (List.filter_sublist.map _)
  match hl : hourRows obs q.locationID target with
  | [] => simp
  | [a] => simp
  | a :: b :: rest =>
    rw [hl] at h hnodup
    have hab : a.id = b.id := (h a (by simp)).trans (h b (by simp)).symm
    simp [hab] at hnodup

/-- On the hour, with at most one candidate, there is no choice. -/
theorem truthRow_of_length_le_one {rows : List Observation} (hrows : IsObservationRows obs q rows)
    (ht : truncateHour target = target) (hone : (hourRows obs q.locationID target).length ≤ 1) :
    (truthRow rows target).map (fun o => o.id) = chosenID obs q.locationID target := by
  cases htruth : truthRow rows target with
  | none =>
    have hempty := (truthRow_eq_none_iff hpresent hstart hstop hrows).mp htruth
    rw [← ht] at hempty
    rw [chosenID_eq_none_iff.mpr hempty, Option.map_none]
  | some a =>
    have ha := truthRow_mem hpresent hstart hstop hrows htruth
    cases hid : chosenID obs q.locationID target with
    | none =>
      have hempty := chosenID_eq_none_iff.mp hid
      rw [ht] at hempty
      rw [hempty] at ha
      cases ha
    | some i =>
      obtain ⟨o, ho, rfl⟩ := chosenID_mem hid
      rw [ht] at ho
      match hl : hourRows obs q.locationID target with
      | [] => rw [hl] at ha; cases ha
      | [b] =>
        rw [hl] at ha ho
        rw [Option.map_some, List.mem_singleton.mp ha, List.mem_singleton.mp ho]
      | _ :: _ :: _ => rw [hl] at hone; simp at hone

/-- **A point is scored against the observation that `SelectCandidate` chooses, whatever order the
database returns**, exactly when its target is on the hour and has at most one candidate, or
neither its target nor the hour has any. -/
theorem comparison_truth_iff (hids : (obs.map fun o => o.id).Nodup) :
    (∀ rows, IsObservationRows obs q rows →
        (truthRow rows target).map (fun o => o.id) = chosenID obs q.locationID target) ↔
      (truncateHour target = target ∧ (hourRows obs q.locationID target).length ≤ 1) ∨
        (hourRows obs q.locationID target = [] ∧ hourRows obs q.locationID (truncateHour target) = []) := by
  have hinj : ∀ {t t' : ℤ} {a b : Observation}, a ∈ hourRows obs q.locationID t → b ∈ hourRows obs q.locationID t' →
      a.id = b.id → a = b := fun ha hb hab =>
    List.inj_on_of_nodup_map hids (List.mem_filter.mp ha).1 (List.mem_filter.mp hb).1 hab
  have htime : ∀ {t : ℤ} {a : Observation}, a ∈ hourRows obs q.locationID t → a.observedAt = t := fun ha =>
    (of_decide_eq_true (List.mem_filter.mp ha).2).2.1
  constructor
  · intro h
    -- every candidate of the target time may be the one the point is scored against
    have hchosen : ∀ a ∈ hourRows obs q.locationID target, chosenID obs q.locationID target = some a.id := by
      intro a ha
      obtain ⟨rows, hrows, htruth⟩ := exists_rows_truthRow hpresent hstart hstop ha
      rw [← h rows hrows, htruth]
      rfl
    by_cases ht : truncateHour target = target
    · refine .inl ⟨ht, ?_⟩
      cases hid : chosenID obs q.locationID target with
      | none =>
        have hempty := chosenID_eq_none_iff.mp hid
        rw [ht] at hempty
        simp [hempty]
      | some id => exact length_hourRows_le_one hids fun a ha => Option.some.inj ((hchosen a ha).symm.trans hid)
    · have hempty : hourRows obs q.locationID target = [] := by
        rw [List.eq_nil_iff_forall_not_mem]
        intro a ha
        obtain ⟨o, ho, hoa⟩ := chosenID_mem (hchosen a ha)
        have he := hinj ho ha hoa
        subst he
        exact ht ((htime ho).symm.trans (htime ha))
      refine .inr ⟨hempty, ?_⟩
      have hrows : IsObservationRows obs q (ordered (fun o => o.observedAt) (comparisonRows obs q)) :=
        ⟨ordered_perm _, pairwise_ordered _⟩
      have hnone := h _ hrows
      rw [(truthRow_eq_none_iff hpresent hstart hstop hrows).mpr hempty, Option.map_none] at hnone
      exact chosenID_eq_none_iff.mp hnone.symm
  · rintro (⟨ht, hone⟩ | ⟨hempty, hempty'⟩) rows hrows
    · exact truthRow_of_length_le_one hpresent hstart hstop hrows ht hone
    · rw [(truthRow_eq_none_iff hpresent hstart hstop hrows).mpr hempty, chosenID_eq_none_iff.mpr hempty',
        Option.map_none]

end Truth

/-! ### One source and two -/

/-- The first day of location `1`, for the temperature forecasts of provider `1`. -/
def firstDay : ComparisonQuery := ⟨1, [1], .temperature, 60, 0, day⟩

/-- With one observation of the hour both use it. -/
theorem comparison_truth_one_source :
    (∀ o ∈ [observationAt 7 hour], o.live = true → o.qualityFlag ≠ .suspect →
        (observationColumn firstDay.var o.toReading).isSome = true) ∧
      ∀ rows, IsObservationRows [observationAt 7 hour] firstDay rows →
        (truthRow rows hour).map (fun o => o.id) = chosenID [observationAt 7 hour] 1 hour := by
  have hpresent : ∀ o ∈ [observationAt 7 hour], o.live = true → o.qualityFlag ≠ .suspect →
      (observationColumn firstDay.var o.toReading).isSome = true := by decide
  refine ⟨hpresent, (comparison_truth_iff hpresent (by decide) (by decide) (by decide)).mpr (.inl ?_)⟩
  decide

/-- A station's reading of `20°C` for the first hour. -/
def stationReading : Observation :=
  ⟨⟨.stationObservation, hour, some 20, none, none, none, none, none, none, .valid⟩, 1, 1, "station", none⟩

/-- A provider's estimate of `25°C` for the same hour. -/
def providerEstimate : Observation :=
  ⟨⟨.providerEstimated, hour, some 25, none, none, none, none, none, none, .valid⟩, 2, 1, "estimate", none⟩

/-- The station's reading is the better candidate, but the estimate may come last in the result of
the query: a forecast that agrees with the station is then shown with an error of five degrees. -/
theorem scored_against_estimate :
    IsObservationRows [stationReading, providerEstimate] firstDay [stationReading, providerEstimate] ∧
      truthRow [stationReading, providerEstimate] hour = some providerEstimate ∧
      chosenID [stationReading, providerEstimate] 1 hour = some stationReading.id ∧
      (forecastComparison id firstDay [⟨1, hour, 0, 60, 20⟩]
          ([stationReading, providerEstimate].map (toComparison .temperature))).dayMetrics.map
        (fun m => (m.providerID, m.mae, m.bias)) = [(1, some 5, some (-5))] := by
  refine ⟨⟨?_, by decide⟩, by decide, by decide +kernel, by decide +kernel⟩
  have hrows : comparisonRows [stationReading, providerEstimate] firstDay = [stationReading, providerEstimate] := by
    decide
  rw [hrows]

end ForecastIQ.Analysis
