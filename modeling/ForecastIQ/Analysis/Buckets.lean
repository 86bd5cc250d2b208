import ForecastIQ.Analysis.Aggregate
import ForecastIQ.Foundations.CivilTime

/-!
# Calendar windows, computed three times

The batch computes the windows it writes rows for (`standardPeriods`), the read side cuts the
time line of a zone into the buckets it shows (`truncToBucket` of `internal/analysis/read.go`),
and the database tells daily, weekly and monthly rows apart by the length of their windows
(`aggregationSpanSQL` of `analysispg/readpg.go`), as there is no column for the kind.

All three are the ruler of the kind (`PeriodKind.windows`): `standardPeriods_eq` and
`truncToBucket_eq` say so of the first two, and `aggregationSpan_iff` that the third one
recognises its windows. A zone is at a fixed offset from UTC, given as how far it is ahead, and
the session of the database is in UTC.
-/

namespace ForecastIQ.Analysis

open ForecastIQ.Foundations

/-- The text of a kind. -/
def PeriodKind.label : PeriodKind → String
  | .daily => "daily"
  | .weekly => "weekly"
  | .monthly => "monthly"

/-- `truncToBucket`: the bucket of an instant in a zone. -/
def truncToBucket (t loc : ℤ) (aggregation : String) : ℤ × ℤ :=
  let d := localDay t loc
  if aggregation = "weekly" then
    let back := (weekday d + 6) % 7
    let start := addDate (date (civilYear d) (civilMonth d) (civilDay d) loc) 0 0 (-back) loc
    (start, addDate start 0 0 7 loc)
  else if aggregation = "monthly" then
    let start := date (civilYear d) (civilMonth d) 1 loc
    (start, addDate start 0 1 0 loc)
  else
    let start := date (civilYear d) (civilMonth d) (civilDay d) loc
    (start, addDate start 0 0 1 loc)

/-- `aggregationSpanSQL`: the test on the window of a stored row. -/
def aggregationSpan (aggregation : String) (periodStart periodEnd : ℤ) : Bool :=
  if aggregation = "weekly" then periodEnd = plusDays periodStart 7
  else if aggregation = "monthly" then periodEnd = plusMonths periodStart 1
  else periodEnd = plusDays periodStart 1

/-! ### The windows of a kind -/

/-- The windows of the kind, in UTC. -/
def PeriodKind.windows : PeriodKind → Ruler
  | .daily => midnights
  | .weekly => mondays.among midnights
  | .monthly => monthStarts.among midnights

/-- The kind that a label stands for; any other label is daily. -/
def PeriodKind.ofLabel (aggregation : String) : PeriodKind :=
  if aggregation = "weekly" then .weekly else if aggregation = "monthly" then .monthly else .daily

@[simp] theorem PeriodKind.ofLabel_label (kind : PeriodKind) : ofLabel kind.label = kind := by
  cases kind <;> decide

/-- The window of the kind that holds an instant. -/
def PeriodKind.periodOf (kind : PeriodKind) (t : ℤ) : Period :=
  ⟨kind, kind.windows.floor t, kind.windows.ceil t⟩

/-- The batch computes one window of each kind. -/
theorem standardPeriods_eq (t : ℤ) :
    standardPeriods t = [PeriodKind.daily.periodOf t, PeriodKind.weekly.periodOf t, PeriodKind.monthly.periodOf t] := by
  simp only [standardPeriods]
  rw [← ceil_mondays, ← floor_mondays]
  rfl

theorem mem_standardPeriods_iff {t : ℤ} {p : Period} : p ∈ standardPeriods t ↔ p = p.kind.periodOf t := by
  rw [standardPeriods_eq]
  constructor
  · intro h
    simp only [List.mem_cons, List.not_mem_nil, or_false] at h
    rcases h with rfl | rfl | rfl <;> rfl
  · intro h
    rw [h]
    cases p.kind <;> simp

/-- The bucket in a zone is the window of the kind, moved to the zone. -/
theorem truncToBucket_eq (t loc : ℤ) (aggregation : String) :
    truncToBucket t loc aggregation =
      let r := (PeriodKind.ofLabel aggregation).windows.shift loc
      (r.floor t, r.ceil t) := by
  simp only [truncToBucket, PeriodKind.ofLabel, date_localDay, date_first, addDate_days, addDate_month]
  split_ifs
  · have hback : localDay t loc + -((weekday (localDay t loc) + 6) % 7) = mondayOf (localDay t loc) := by
      simp only [weekday, mondayOf, daysSinceMonday]
      omega
    rw [hback, ← ceil_mondays, ← floor_mondays]
    rfl
  · rfl
  · rfl

/-- A window of the kind satisfies the test of a label exactly when the label stands for the kind. -/
theorem aggregationSpan_iff {kind : PeriodKind} {aggregation : String} (n : ℤ) :
    aggregationSpan aggregation (kind.windows.mark n) (kind.windows.mark (n + 1)) = true ↔
      PeriodKind.ofLabel aggregation = kind := by
  have hlong := plusDays_le_plusMonths (kind.windows.mark n)
  have hmonth := monthStartDay_succ_bounds n
  have hsame := plusMonths_monthStartDay n 1
  simp only [aggregationSpan, PeriodKind.ofLabel]
  split_ifs <;> rw [decide_eq_true_eq] <;> cases kind <;>
    simp only [PeriodKind.windows, Ruler.among, midnights, mondays, monthStarts, plusDays,
      reduceCtorEq, iff_false, iff_true, day_eq] at * <;> omega

/-! ### The windows of consecutive instants -/

namespace PeriodKind

variable (kind : PeriodKind) {t u : ℤ}

theorem truncToBucket_utc (t : ℤ) :
    truncToBucket t 0 kind.label = ((kind.periodOf t).start, (kind.periodOf t).stop) := by
  rw [truncToBucket_eq, ofLabel_label]
  simp only [periodOf, Ruler.floor, Ruler.ceil, Ruler.shift, add_zero, sub_zero]

/-- The window is re-derived from any instant inside it. -/
theorem periodOf_of_mem (h1 : (kind.periodOf t).start ≤ u) (h2 : u < (kind.periodOf t).stop) :
    kind.periodOf u = kind.periodOf t := by
  simp only [periodOf, Ruler.floor, Ruler.ceil, kind.windows.index_of_mem h1 h2]

/-- The windows of two instants are one window, or that of the first ends before that of the second. -/
theorem periodOf_of_le (h : t ≤ u) :
    kind.periodOf u = kind.periodOf t ∨ (kind.periodOf t).stop ≤ (kind.periodOf u).start := by
  rcases (kind.windows.index_mono h).eq_or_lt with he | hlt
  · refine .inl ?_
    simp only [periodOf, Ruler.floor, Ruler.ceil, he]
  · exact .inr (kind.windows.ceil_le_floor hlt)

/-- The windows of an instant and the next one are one window, or the second starts where the first ends. -/
theorem periodOf_succ (t : ℤ) :
    kind.periodOf (t + 1) = kind.periodOf t ∨ (kind.periodOf (t + 1)).start = (kind.periodOf t).stop := by
  rcases kind.windows.index_succ t with he | he
  · refine .inl ?_
    simp only [periodOf, Ruler.floor, Ruler.ceil, he]
  · refine .inr ?_
    simp only [periodOf, Ruler.floor, Ruler.ceil, he]

end PeriodKind

/-- **The three computations of calendar windows agree.** There is one window of each kind at an
instant. It holds the instant; it is the bucket of the instant in UTC; any instant inside it has
the same window; the windows of two instants are one or do not overlap, and those of an instant
and the next one are one or adjacent; and it satisfies the test of its own label and no other. -/
theorem standardPeriods_agree (t : ℤ) :
    (standardPeriods t).map Period.kind = [.daily, .weekly, .monthly] ∧
    ∀ p ∈ standardPeriods t,
      (p.start ≤ t ∧ t < p.stop) ∧
      truncToBucket t 0 p.kind.label = (p.start, p.stop) ∧
      (∀ u, p.start ≤ u → u < p.stop → p ∈ standardPeriods u) ∧
      (∀ u, t ≤ u → ∀ q ∈ standardPeriods u, q.kind = p.kind → q = p ∨ p.stop ≤ q.start) ∧
      (∀ q ∈ standardPeriods (t + 1), q.kind = p.kind → q = p ∨ q.start = p.stop) ∧
      ∀ kind : PeriodKind, aggregationSpan kind.label p.start p.stop = true ↔ kind = p.kind := by
  refine ⟨by rw [standardPeriods_eq]; rfl, fun p hp => ?_⟩
  have hin := mem_standardPeriods hp
  rw [mem_standardPeriods_iff] at hp
  refine ⟨hin, ?_, fun u h1 h2 => ?_, fun u hu q hq hk => ?_, fun q hq hk => ?_, fun kind => ?_⟩
  · rw [p.kind.truncToBucket_utc, ← hp]
  · rw [mem_standardPeriods_iff, p.kind.periodOf_of_mem (by rwa [← hp]) (by rwa [← hp])]
    exact hp
  · rw [mem_standardPeriods_iff, hk] at hq
    rw [hp, hq]
    exact p.kind.periodOf_of_le hu
  · rw [mem_standardPeriods_iff, hk] at hq
    rw [hp, hq]
    exact p.kind.periodOf_succ t
  · rw [hp]
    refine (aggregationSpan_iff _).trans ?_
    rw [PeriodKind.ofLabel_label]
    rfl

/-- The windows of 2024-02-29, a Thursday. -/
example : standardPeriods (dayOfCivil 2024 2 29 * day + 5 * hour) =
    [⟨.daily, dayOfCivil 2024 2 29 * day, dayOfCivil 2024 3 1 * day⟩,
     ⟨.weekly, dayOfCivil 2024 2 26 * day, dayOfCivil 2024 3 4 * day⟩,
     ⟨.monthly, dayOfCivil 2024 2 1 * day, dayOfCivil 2024 3 1 * day⟩] := by decide

end ForecastIQ.Analysis
