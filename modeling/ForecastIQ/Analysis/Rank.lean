import ForecastIQ.Analysis.Aggregate
import ForecastIQ.Foundations.Grouping
import Mathlib.Data.List.Sort

/-!
# Ranking

`internal/analysis/rank.go` and `internal/analysis/domain/ranking.go`: the live metric
rows of a cell become one input for each provider (`buildCohort`), the inputs become
rankings with a status, a composite score and an interval (`rankCohort`), and the
scored rankings are ordered into groups that share a rank (`rankOrder`).

The maps keyed by component name are functions on `ComponentKey`; an absent key and a
nil value are the same `none`, as every reader of the maps treats them.

A provider's ranking depends on its own rows through `ProviderInput.ofRows` and on the
other providers only through the active components and their best values; the status
depends on its own rows alone (`exists_ranking_iff`).
-/

namespace ForecastIQ.Analysis

open ForecastIQ.Foundations Eval

variable {K : Type*} [Field K] [LinearOrder K]

/-! ### The cohort's inputs -/

/-- `MetricValue`: one live metric row as ranking reads it. -/
structure MetricValue (K : Type*) where
  providerID : ℕ
  var : EvalVariable
  metricType : MetricType
  value : Option K
  ciLower : Option K
  ciUpper : Option K
  sampleCount : ℕ
  deriving DecidableEq, Repr

/-- The columns of a stored row that ranking reads. -/
def AccuracyMetric.toMetricValue (m : AccuracyMetric K) : MetricValue K :=
  ⟨m.providerID, m.var, m.metricType, m.value, m.ciLower, m.ciUpper, m.sampleCount⟩

/-- The keys of the composite's components. -/
inductive ComponentKey where
  | tempMAE
  | precipF1
  | rainMAEAll
  | windMAE
  | tempBiasAbs
  | coverage
  | reliability
  deriving DecidableEq, Repr

/-- Whether a component is better low, better high, or used as it is. -/
inductive Direction where
  | lowerBetter
  | higherBetter
  | directValue
  deriving DecidableEq, Repr

/-- `Component`: one composite input. -/
structure Component (K : Type*) where
  key : ComponentKey
  weight : K
  direction : Direction

/-- `Components`: the default weights `w-2026.1`. -/
def components : List (Component K) :=
  [⟨.tempMAE, 30 / 100, .lowerBetter⟩,
   ⟨.precipF1, 25 / 100, .higherBetter⟩,
   ⟨.rainMAEAll, 15 / 100, .lowerBetter⟩,
   ⟨.windMAE, 15 / 100, .lowerBetter⟩,
   ⟨.tempBiasAbs, 5 / 100, .lowerBetter⟩,
   ⟨.coverage, 5 / 100, .directValue⟩,
   ⟨.reliability, 5 / 100, .directValue⟩]

/-- `ProviderInput`: what ranking knows of one provider. -/
structure ProviderInput (K : Type*) where
  providerID : ℕ
  /-- The raw component values. -/
  values : ComponentKey → Option K
  /-- The half-widths of the components' intervals. -/
  ciHalf : ComponentKey → Option K
  tempSampleCount : ℕ
  precipSampleCount : ℕ
  calendarDays : ℤ
  coverage : Option K
  reliability : Option K

/-- What `buildCohort` collects of one provider while it reads the rows. -/
structure CohortAcc (K : Type*) where
  values : ComponentKey → Option K
  ciHalf : ComponentKey → Option K
  tempSample : ℕ
  precipSample : ℕ
  coverages : List K

/-- A provider before any of its rows. -/
def CohortAcc.empty : CohortAcc K := ⟨fun _ => none, fun _ => none, 0, 0, []⟩

/-- The half-width of a row's interval. -/
def MetricValue.halfOf (m : MetricValue K) : Option K :=
  match m.ciLower, m.ciUpper with
  | some lo, some hi => some ((hi - lo) / 2)
  | _, _ => none

/-- Keep a row's value and half-width under a component. -/
def CohortAcc.set (a : CohortAcc K) (key : ComponentKey) (m : MetricValue K) : CohortAcc K :=
  { a with values := Function.update a.values key m.value, ciHalf := Function.update a.ciHalf key m.halfOf }

/-- The switch of `buildCohort` on a row's variable and type. -/
def CohortAcc.record (a : CohortAcc K) (m : MetricValue K) : CohortAcc K :=
  match m.var, m.metricType with
  | .temperature, .mae => { a.set .tempMAE m with tempSample := m.sampleCount }
  | .temperature, .bias =>
    -- a null bias leaves the value of an earlier row standing
    { a with
      values := match m.value with
        | some v => Function.update a.values .tempBiasAbs (some |v|)
        | none => a.values
      ciHalf := Function.update a.ciHalf .tempBiasAbs m.halfOf }
  | .precipitation, .f1 => { a.set .precipF1 m with precipSample := m.sampleCount }
  | .precipitation, .rainMAEAll => a.set .rainMAEAll m
  | .windSpeed, .mae => a.set .windMAE m
  | _, .coverage => { a with coverages := a.coverages ++ m.value.toList }
  | .all, .reliability => { a with values := Function.update a.values .reliability m.value }
  | _, _ => a

/-- `minOf`, for the nonempty lists it is called on. -/
def minOf : List K → K
  | [] => 0
  | m :: rest => rest.foldl (fun m x => if x < m then x else m) m

/-- `maxOf`, for the nonempty lists it is called on. -/
def maxOf : List K → K
  | [] => 0
  | m :: rest => rest.foldl (fun m x => if m < x then x else m) m

/-- The coverage of a provider: the least of its known coverages. -/
def minCoverage (coverages : List K) : Option K :=
  if coverages.isEmpty then none else some (minOf coverages)

/-- The input of one provider, from what was collected of it. -/
def CohortAcc.toInput (a : CohortAcc K) (id : ℕ) (calendarDays : ℤ) : ProviderInput K :=
  let coverage := minCoverage a.coverages
  { providerID := id
    values := Function.update a.values .coverage coverage
    ciHalf := a.ciHalf
    tempSampleCount := a.tempSample
    precipSampleCount := a.precipSample
    calendarDays := calendarDays
    coverage := coverage
    reliability := a.values .reliability }

/-- `buildCohort`: one input for each provider, in the order of first appearance. -/
def buildCohort (vals : List (MetricValue K)) (calendarDays : ℤ) : List (ProviderInput K) :=
  (groupFold MetricValue.providerID CohortAcc.record CohortAcc.empty vals).map
    fun p => p.2.toInput p.1 calendarDays

/-! ### The rankings -/

/-- The ranking statuses. -/
inductive RankingStatus where
  | ranked
  | provisionallyRanked
  | unranked
  deriving DecidableEq, Repr

/-- `ComponentScore`: the breakdown of one component. -/
structure ComponentScore (K : Type*) where
  component : ComponentKey
  value : Option K
  normalized : Option K
  weight : K
  excluded : Bool
  deriving DecidableEq, Repr

/-- `ProviderRanking`: one computed ranking. -/
structure ProviderRanking (K : Type*) where
  providerID : ℕ
  compositeScore : Option K
  ciLower : Option K
  ciUpper : Option K
  status : RankingStatus
  sampleCount : ℕ
  coverage : Option K
  reliability : Option K
  componentScores : List (ComponentScore K)
  deriving DecidableEq, Repr

/-- `epsilon`. -/
def epsilon : K := 1 / 1000000000

/-- `coverageRankedMin`. -/
def coverageRankedMin : K := 8 / 10

/-- `coverageFloor`. -/
def coverageFloor : K := 5 / 10

/-- `status`: the sample, coverage and calendar thresholds; an unknown coverage counts as zero. -/
def status (p : ProviderInput K) : RankingStatus :=
  let cov := deref p.coverage
  if p.tempSampleCount < 10 ∨ p.precipSampleCount < 10 ∨ cov < coverageFloor then .unranked
  else if p.tempSampleCount < 30 ∨ p.precipSampleCount < 30 ∨ cov < coverageRankedMin ∨ p.calendarDays < 7 then
    .provisionallyRanked
  else .ranked

/-- A component is active when the cohort is not empty and every provider has a value for it. -/
def active (cohort : List (ProviderInput K)) (key : ComponentKey) : Bool :=
  !cohort.isEmpty && cohort.all fun p => (p.values key).isSome

/-- The total weight of the active components. -/
def activeWeight (cohort : List (ProviderInput K)) : K :=
  components.foldl (fun w c => if active cohort c.key then w + c.weight else w) 0

/-- The best value of a component in the cohort, and the shift that guards a best value of zero. -/
def bestShift (cohort : List (ProviderInput K)) (c : Component K) : K × K :=
  let vals := cohort.map fun p => deref (p.values c.key)
  match c.direction with
  | .lowerBetter => if minOf vals = 0 then (minOf vals + epsilon, epsilon) else (minOf vals, 0)
  | .higherBetter => (maxOf vals, 0)
  | .directValue => (0, 0)

/-- `normalize`. -/
def normalize (c : Component K) (value best shift : K) : K :=
  match c.direction with
  | .lowerBetter => best / (value + shift)
  | .higherBetter => if best = 0 then 0 else value / best
  | .directValue => value

/-- `clamp01`. -/
def clamp01 (x : K) : K := if x < 0 then 0 else if 1 < x then 1 else x

/-- The running composite, half-width and breakdown of one provider. -/
structure Composite (K : Type*) where
  composite : K
  ciHalf : K
  scores : List (ComponentScore K)

/-- The body of the loop of `RankCohort` over the components, for provider `p`. -/
def Composite.addComponent (cohort : List (ProviderInput K)) (p : ProviderInput K) (r : Composite K)
    (c : Component K) : Composite K :=
  if active cohort c.key then
    let w := c.weight / activeWeight cohort
    let value := deref (p.values c.key)
    let norm := normalize c value (bestShift cohort c).1 (bestShift cohort c).2
    { composite := r.composite + w * norm
      ciHalf := match p.ciHalf c.key with
        | some h => if c.direction ≠ .directValue ∧ value ≠ 0 then r.ciHalf + w * norm * (h / value) else r.ciHalf
        | none => r.ciHalf
      scores := r.scores ++ [⟨c.key, p.values c.key, some norm, w, false⟩] }
  else
    { r with scores := r.scores ++ [⟨c.key, p.values c.key, none, c.weight, true⟩] }

/-- The composite, half-width and breakdown of provider `p`, before the penalty. -/
def compositeOf (cohort : List (ProviderInput K)) (p : ProviderInput K) : Composite K :=
  components.foldl (Composite.addComponent cohort p) ⟨0, 0, []⟩

/-- The factor for coverage below the ranked minimum. -/
def coveragePenalty (coverage : Option K) : K :=
  match coverage with
  | some c => if c < coverageRankedMin then c / coverageRankedMin else 1
  | none => 1

/-- One iteration of the last loop of `RankCohort`. -/
def rankProvider (cohort : List (ProviderInput K)) (p : ProviderInput K) : ProviderRanking K :=
  let r := compositeOf cohort p
  let composite := clamp01 (r.composite * coveragePenalty p.coverage)
  let ciHalf := r.ciHalf * coveragePenalty p.coverage
  let scored := status p ≠ .unranked
  { providerID := p.providerID
    compositeScore := if scored then some composite else none
    ciLower := if scored ∧ 0 < ciHalf then some (clamp01 (composite - ciHalf)) else none
    ciUpper := if scored ∧ 0 < ciHalf then some (clamp01 (composite + ciHalf)) else none
    status := status p
    sampleCount := if p.tempSampleCount < p.precipSampleCount then p.tempSampleCount else p.precipSampleCount
    coverage := p.coverage
    reliability := p.reliability
    componentScores := r.scores }

/-- `RankCohort`. -/
def rankCohort (cohort : List (ProviderInput K)) : List (ProviderRanking K) := cohort.map (rankProvider cohort)

/-- The whole days of a period, as `RankPeriod` counts them. -/
def calendarDays (period : Period) : ℤ := (period.stop - period.start).tdiv day

/-- The rankings of a cell from its live rows. -/
def rankCell (vals : List (MetricValue K)) (period : Period) : List (ProviderRanking K) :=
  rankCohort (buildCohort vals (calendarDays period))

/-! ### Rank order -/

/-- `ciOverlap`. -/
def ciOverlap (a b : ProviderRanking K) : Bool :=
  match a.ciLower, a.ciUpper, b.ciLower, b.ciUpper with
  | some al, some au, some bl, some bu => decide (al ≤ bu ∧ bl ≤ au)
  | _, _, _, _ => false

/-- The body of the loop of `RankOrder`: the ranking joins the last group when its interval
overlaps that of the group's leader, and starts a group otherwise. -/
def joinGroup (groups : List (List (ProviderRanking K))) (r : ProviderRanking K) : List (List (ProviderRanking K)) :=
  match groups.getLast? with
  | some (lead :: rest) =>
    if ciOverlap lead r then groups.dropLast ++ [lead :: rest ++ [r]] else groups ++ [[r]]
  | _ => groups ++ [[r]]

/-- `RankOrder`: the scored rankings by descending composite, in groups that share a rank. The
sort is stable; the groups hold the rankings where the code holds their indexes. -/
def rankOrder (rankings : List (ProviderRanking K)) : List (List (ProviderRanking K)) :=
  let scored := rankings.filter fun r => r.compositeScore.isSome
  let sorted := scored.insertionSort fun a b => deref b.compositeScore ≤ deref a.compositeScore
  sorted.foldl joinGroup []

/-! ### One provider's part of the result -/

/-- The input of the provider whose rows are `rows`. -/
def ProviderInput.ofRows (id : ℕ) (calendarDays : ℤ) (rows : List (MetricValue K)) : ProviderInput K :=
  (rows.foldl CohortAcc.record CohortAcc.empty).toInput id calendarDays

/-- The rows of one provider. -/
def rowsOf (vals : List (MetricValue K)) (id : ℕ) : List (MetricValue K) := vals.filter fun m => m.providerID = id

theorem mem_buildCohort {vals : List (MetricValue K)} {days : ℤ} {p : ProviderInput K} :
    p ∈ buildCohort vals days ↔
      p.providerID ∈ vals.map MetricValue.providerID ∧
        p = ProviderInput.ofRows p.providerID days (rowsOf vals p.providerID) := by
  simp only [buildCohort, List.mem_map, Prod.exists, mem_groupFold]
  constructor
  · rintro ⟨id, a, ⟨hid, rfl⟩, rfl⟩
    exact ⟨hid, rfl⟩
  · rintro ⟨hid, hp⟩
    exact ⟨p.providerID, _, ⟨hid, rfl⟩, hp.symm⟩

@[simp] theorem rankProvider_providerID (cohort : List (ProviderInput K)) (p : ProviderInput K) :
    (rankProvider cohort p).providerID = p.providerID := rfl

/-- What holds of a provider's ranking for every cohort around it, holds of the ranking of the
input made from its rows. -/
theorem mem_rankCohort_buildCohort {vals : List (MetricValue K)} {days : ℤ} {r : ProviderRanking K} :
    r ∈ rankCohort (buildCohort vals days) ↔
      r.providerID ∈ vals.map MetricValue.providerID ∧
        r = rankProvider (buildCohort vals days)
          (ProviderInput.ofRows r.providerID days (rowsOf vals r.providerID)) := by
  rw [rankCohort, List.mem_map]
  constructor
  · rintro ⟨p, hp, rfl⟩
    obtain ⟨hid, he⟩ := mem_buildCohort.mp hp
    exact ⟨hid, by rw [rankProvider_providerID, ← he]⟩
  · rintro ⟨hid, he⟩
    exact ⟨ProviderInput.ofRows r.providerID days (rowsOf vals r.providerID),
      mem_buildCohort.mpr ⟨hid, rfl⟩, he.symm⟩

/-- A provider is ranked exactly when it has rows, and what its ranking takes from its own input
alone is decided by these rows. -/
theorem exists_ranking_iff_of {β : Type*} {f : ProviderRanking K → β} {g : ProviderInput K → β}
    (hfg : ∀ cohort p, f (rankProvider cohort p) = g p) {vals : List (MetricValue K)} {days : ℤ} {id : ℕ} {b : β} :
    (∃ r ∈ rankCohort (buildCohort vals days), r.providerID = id ∧ f r = b) ↔
      id ∈ vals.map MetricValue.providerID ∧ g (ProviderInput.ofRows id days (rowsOf vals id)) = b := by
  constructor
  · rintro ⟨r, hr, rfl, rfl⟩
    obtain ⟨hid, he⟩ := mem_rankCohort_buildCohort.mp hr
    exact ⟨hid, by rw [he, hfg]; rfl⟩
  · rintro ⟨hid, rfl⟩
    exact ⟨rankProvider (buildCohort vals days) (ProviderInput.ofRows id days (rowsOf vals id)),
      mem_rankCohort_buildCohort.mpr ⟨hid, rfl⟩, rfl, hfg _ _⟩

theorem exists_ranking_iff {vals : List (MetricValue K)} {days : ℤ} {id : ℕ} {st : RankingStatus} :
    (∃ r ∈ rankCohort (buildCohort vals days), r.providerID = id ∧ r.status = st) ↔
      id ∈ vals.map MetricValue.providerID ∧ status (ProviderInput.ofRows id days (rowsOf vals id)) = st :=
  exists_ranking_iff_of fun _ _ => rfl

/-! ### What the rows of a provider decide -/

/-- The sample count of the last row with a given variable and type, or `d` without one. -/
def lastSample (var : EvalVariable) (t : MetricType) (d : ℕ) (rows : List (MetricValue K)) : ℕ :=
  (rows.filter fun m => m.var = var ∧ m.metricType = t).foldl (fun _ m => m.sampleCount) d

/-- The known coverages among the rows. -/
def coveragesOf (rows : List (MetricValue K)) : List K :=
  (rows.filter fun m => m.metricType = .coverage).flatMap fun m => m.value.toList

theorem record_tempSample (a : CohortAcc K) (m : MetricValue K) :
    (a.record m).tempSample =
      if decide (m.var = .temperature ∧ m.metricType = .mae) then m.sampleCount else a.tempSample := by
  obtain ⟨id, v, t, val, lo, hi, n⟩ := m
  cases v <;> cases t <;> rfl

theorem record_precipSample (a : CohortAcc K) (m : MetricValue K) :
    (a.record m).precipSample =
      if decide (m.var = .precipitation ∧ m.metricType = .f1) then m.sampleCount else a.precipSample := by
  obtain ⟨id, v, t, val, lo, hi, n⟩ := m
  cases v <;> cases t <;> rfl

theorem foldl_record_tempSample (rows : List (MetricValue K)) (a : CohortAcc K) :
    (rows.foldl CohortAcc.record a).tempSample = lastSample .temperature .mae a.tempSample rows :=
  foldl_written (fun _ m => m.sampleCount) record_tempSample rows a

theorem foldl_record_precipSample (rows : List (MetricValue K)) (a : CohortAcc K) :
    (rows.foldl CohortAcc.record a).precipSample = lastSample .precipitation .f1 a.precipSample rows :=
  foldl_written (fun _ m => m.sampleCount) record_precipSample rows a

theorem foldl_record_coverages (rows : List (MetricValue K)) (a : CohortAcc K) :
    (rows.foldl CohortAcc.record a).coverages = a.coverages ++ coveragesOf rows := by
  induction rows generalizing a with
  | nil => simp [coveragesOf]
  | cons m rows ih =>
    rw [List.foldl_cons, ih]
    obtain ⟨id, v, t, val, lo, hi, n⟩ := m
    cases v <;> cases t <;> simp [coveragesOf, CohortAcc.record, CohortAcc.set]

theorem ofRows_tempSampleCount (id : ℕ) (days : ℤ) (rows : List (MetricValue K)) :
    (ProviderInput.ofRows id days rows).tempSampleCount = lastSample .temperature .mae 0 rows :=
  foldl_record_tempSample rows CohortAcc.empty

theorem ofRows_precipSampleCount (id : ℕ) (days : ℤ) (rows : List (MetricValue K)) :
    (ProviderInput.ofRows id days rows).precipSampleCount = lastSample .precipitation .f1 0 rows :=
  foldl_record_precipSample rows CohortAcc.empty

theorem ofRows_coverage (id : ℕ) (days : ℤ) (rows : List (MetricValue K)) :
    (ProviderInput.ofRows id days rows).coverage = minCoverage (coveragesOf rows) := by
  change minCoverage (rows.foldl CohortAcc.record CohortAcc.empty).coverages = _
  rw [foldl_record_coverages]
  rfl

theorem ofRows_calendarDays (id : ℕ) (days : ℤ) (rows : List (MetricValue K)) :
    (ProviderInput.ofRows id days rows).calendarDays = days := rfl

theorem minOf_mem : ∀ {l : List K}, l ≠ [] → minOf l ∈ l
  | m :: rest, _ => foldl_best_mem (· < ·) rest m

theorem minOf_le : ∀ {l : List K} {x : K}, x ∈ l → minOf l ≤ x
  | m :: rest, x, hx => by
    refine not_lt.mp (not_better_foldl_best (· < ·) (fun _ _ => lt_asymm) ?_ rest m x hx)
    exact fun _ _ _ hba hcb => not_lt.mpr ((not_lt.mp hba).trans (not_lt.mp hcb))

theorem maxOf_mem : ∀ {l : List K}, l ≠ [] → maxOf l ∈ l
  | m :: rest, _ => foldl_best_mem (· > ·) rest m

theorem le_maxOf : ∀ {l : List K} {x : K}, x ∈ l → x ≤ maxOf l
  | m :: rest, x, hx => by
    refine not_lt.mp (not_better_foldl_best (· > ·) (fun _ _ => lt_asymm) ?_ rest m x hx)
    exact fun _ _ _ hba hcb => not_lt.mpr ((not_lt.mp hcb).trans (not_lt.mp hba))

theorem minOf_perm {l l' : List K} (h : l.Perm l') : minOf l = minOf l' := by
  rcases eq_or_ne l [] with rfl | hl
  · rw [h.nil_eq]
  · have hl' : l' ≠ [] := fun he => hl (by rw [he] at h; exact h.eq_nil)
    exact le_antisymm (minOf_le (h.mem_iff.mpr (minOf_mem hl'))) (minOf_le (h.mem_iff.mp (minOf_mem hl)))

theorem maxOf_perm {l l' : List K} (h : l.Perm l') : maxOf l = maxOf l' := by
  rcases eq_or_ne l [] with rfl | hl
  · rw [h.nil_eq]
  · have hl' : l' ≠ [] := fun he => hl (by rw [he] at h; exact h.eq_nil)
    exact le_antisymm (le_maxOf (h.mem_iff.mp (maxOf_mem hl))) (le_maxOf (h.mem_iff.mpr (maxOf_mem hl')))

theorem minCoverage_perm {l l' : List K} (h : l.Perm l') : minCoverage l = minCoverage l' := by
  rw [minCoverage, minCoverage, minOf_perm h, h.isEmpty_eq]

/-- The coverage is the least known one. -/
theorem minCoverage_eq_some_iff {l : List K} {c : K} : minCoverage l = some c ↔ c ∈ l ∧ ∀ x ∈ l, c ≤ x := by
  cases l with
  | nil => simp [minCoverage]
  | cons m rest =>
    simp only [minCoverage, List.isEmpty_cons, Bool.false_eq_true, if_false, Option.some.injEq]
    constructor
    · rintro rfl
      exact ⟨minOf_mem (by simp), fun x hx => minOf_le hx⟩
    · rintro ⟨hc, hle⟩
      exact le_antisymm (minOf_le hc) (hle _ (minOf_mem (by simp)))

/-- The coverage is below a positive bound exactly when some known coverage is, or none is known. -/
theorem deref_minCoverage_lt_iff {l : List K} {b : K} (hb : 0 < b) :
    deref (minCoverage l) < b ↔ l = [] ∨ ∃ c ∈ l, c < b := by
  cases l with
  | nil => simp [minCoverage, deref, hb]
  | cons m rest =>
    simp only [minCoverage, List.isEmpty_cons, Bool.false_eq_true, if_false, deref, Option.getD_some,
      reduceCtorEq, false_or]
    constructor
    · exact fun h => ⟨_, minOf_mem (by simp), h⟩
    · rintro ⟨c, hc, hlt⟩
      exact (minOf_le hc).trans_lt hlt

end ForecastIQ.Analysis
