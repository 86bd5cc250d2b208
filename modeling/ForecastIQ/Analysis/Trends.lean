import ForecastIQ.Analysis.Buckets
import ForecastIQ.Foundations.Grouping
import ForecastIQ.Foundations.Keyset
import ForecastIQ.Foundations.WeightedMoments
import Mathlib.Data.List.Dedup

/-!
# Trends in the zone of the reader

`Trends` of `internal/analysis/read.go`: the stored rows of a filter become one series for each
provider, cut into the days, weeks or months of a zone. A bucket with one row shows it as it is;
a bucket with several shows the mean of their values, weighted by their sample counts, and no
confidence interval.

`rebucket` says what a series is without the maps and accumulators: the rows by the window of
their starts, in order. `buckets_eq_rebucket` is that the loops compute it, whatever the order of
the rows, and the results are read off it.

Buckets are keyed by `nano` of their starts: in the code `UnixNano`, which wraps outside the years
1677 to 2262, and in exact arithmetic the start itself. The results are for rows of buckets that have
their start as key (`TrendBucket.NanoKey`): in exact arithmetic that is every row.

Rows of one kind are one to a bucket: a window of any kind is at least a day long, and the zone
is less than a day away from UTC, so its windows hold one start each (`PeriodKind.index_start`).
-/

namespace ForecastIQ.Analysis

open ForecastIQ.Foundations

/-- `TrendBucket`: a stored row, and also a bucket of a series. -/
structure TrendBucket (K : Type*) where
  providerID : ℕ
  periodStart : ℤ
  periodEnd : ℤ
  value : Option K
  ciLower : Option K
  ciUpper : Option K
  sampleCount : ℤ
  deriving DecidableEq, Repr

/-- `trendBucketAcc`: what is known of the rows in one bucket. -/
structure TrendBucketAcc (K : Type*) where
  start : ℤ
  stop : ℤ
  sumVW : K
  sumW : K
  sample : ℤ
  n : ℕ
  single : TrendBucket K

/-- `trendGrouping`: the accumulators by the start of their bucket, in the order of their first rows. -/
abbrev TrendGrouping (K : Type*) := List (ℤ × Option (TrendBucketAcc K))

/-- `TrendSeries`. -/
structure TrendSeries (K : Type*) where
  providerID : ℕ
  buckets : List (TrendBucket K)
  deriving DecidableEq, Repr

/-- `TrendsResult`. -/
structure TrendsResult (K : Type*) where
  series : List (TrendSeries K)
  hasData : Bool
  lastPeriodEnd : Option ℤ
  deriving DecidableEq, Repr

variable {K : Type*} [Field K] [LinearOrder K]

/-- The weight of a row with a value; without samples it is `1`. -/
def TrendBucket.weight (b : TrendBucket K) : K := if (b.sampleCount : K) = 0 then 1 else b.sampleCount

/-- A row more in a bucket. -/
def TrendBucketAcc.add (a : TrendBucketAcc K) (b : TrendBucket K) : TrendBucketAcc K :=
  let a := { a with n := a.n + 1, single := b, sample := a.sample + b.sampleCount }
  match b.value with
  | none => a
  | some v => { a with sumVW := a.sumVW + v * b.weight, sumW := a.sumW + b.weight }

/-- `add`; `nano` is `UnixNano`. -/
def TrendGrouping.add (nano : ℤ → ℤ) (loc : ℤ) (aggregation : String) (g : TrendGrouping K) (b : TrendBucket K) :
    TrendGrouping K :=
  let bucket := truncToBucket b.periodStart loc aggregation
  upsert none (nano bucket.1) (fun a => some ((a.getD ⟨bucket.1, bucket.2, 0, 0, 0, 0, b⟩).add b)) g

/-- The bucket that is shown. -/
def TrendBucketAcc.bucket (a : TrendBucketAcc K) : TrendBucket K :=
  let b : TrendBucket K := ⟨a.single.providerID, a.start, a.stop, none, none, none, a.sample⟩
  if a.n = 1 then { b with value := a.single.value, ciLower := a.single.ciLower, ciUpper := a.single.ciUpper }
  else if 0 < a.sumW then { b with value := some (a.sumVW / a.sumW) }
  else b

/-- `buckets`: in the order of their starts. -/
def TrendGrouping.buckets (g : TrendGrouping K) : List (TrendBucket K) :=
  (ordered Prod.fst g).filterMap fun e => e.2.map TrendBucketAcc.bucket

/-- The later of two ends. -/
def later (last : Option ℤ) (stop : ℤ) : Option ℤ := if last.all fun e => e < stop then some stop else last

/-- The last end so far, with a series more. -/
def laterEnd (last : Option ℤ) (s : TrendSeries K) : Option ℤ :=
  match s.buckets.getLast? with
  | none => last
  | some b => later last b.periodEnd

/-- `Trends` on the rows of the filter; without a zone it is UTC. `nano` is `UnixNano`. -/
def trends (nano : ℤ → ℤ) (rows : List (TrendBucket K)) (loc : Option ℤ) (aggregation : String) : TrendsResult K :=
  let byProvider := groupFold TrendBucket.providerID (TrendGrouping.add nano (loc.getD 0) aggregation) [] rows
  let series := byProvider.map fun g => ⟨g.1, TrendGrouping.buckets g.2⟩
  { series := series, hasData := 0 < rows.length, lastPeriodEnd := series.foldl laterEnd none }

/-! ### What a series is -/

/-- The values of rows, with their weights. -/
def points (l : List (TrendBucket K)) : List (K × K) := l.filterMap fun b => b.value.map fun v => (v, b.weight)

/-- The rows of one bucket as one row. -/
def combine (providerID : ℕ) (start stop : ℤ) : List (TrendBucket K) → TrendBucket K
  | [b] => ⟨providerID, start, stop, b.value, b.ciLower, b.ciUpper, b.sampleCount⟩
  | l => ⟨providerID, start, stop,
      if 0 < totalWeight (points l) Prod.snd then
        some (weightedSum (points l) Prod.snd Prod.fst / totalWeight (points l) Prod.snd)
      else none, none, none, (l.map TrendBucket.sampleCount).sum⟩

/-- The starts of the buckets that have a row. -/
def bucketStarts (r : Ruler) (l : List (TrendBucket K)) : List ℤ :=
  ordered id ((l.map fun b => r.floor b.periodStart).dedup)

/-- The rows of a provider by the window of their starts. -/
def rebucket (r : Ruler) (providerID : ℕ) (l : List (TrendBucket K)) : List (TrendBucket K) :=
  (bucketStarts r l).map fun k => combine providerID k (r.ceil k) (l.filter fun b => r.floor b.periodStart = k)

/-- The windows that the zone shows for a label. -/
def zoneWindows (loc : ℤ) (aggregation : String) : Ruler := (PeriodKind.ofLabel aggregation).windows.shift loc

/-! ### The loops compute it -/

omit [Field K] [LinearOrder K] in
theorem mem_bucketStarts {r : Ruler} {l : List (TrendBucket K)} {k : ℤ} :
    k ∈ bucketStarts r l ↔ ∃ b ∈ l, r.floor b.periodStart = k := by
  rw [bucketStarts, mem_ordered, List.mem_dedup, List.mem_map]

omit [Field K] [LinearOrder K] in
theorem pairwise_bucketStarts (r : Ruler) (l : List (TrendBucket K)) : (bucketStarts r l).Pairwise (· < ·) := by
  have hn : (((l.map fun b => r.floor b.periodStart).dedup).map id).Nodup := by
    rw [List.map_id]
    exact List.nodup_dedup _
  exact pairwise_lt_ordered hn

theorem points_cons (b : TrendBucket K) (l : List (TrendBucket K)) :
    points (b :: l) = (b.value.map fun v => (v, b.weight)).toList ++ points l := by
  rw [points, List.filterMap_cons]
  cases b.value <;> rfl

/-- What the rows leave in an accumulator. -/
theorem foldl_add (l : List (TrendBucket K)) (a : TrendBucketAcc K) :
    l.foldl TrendBucketAcc.add a =
      ⟨a.start, a.stop, a.sumVW + weightedSum (points l) Prod.snd Prod.fst, a.sumW + totalWeight (points l) Prod.snd,
        a.sample + (l.map TrendBucket.sampleCount).sum, a.n + l.length, l.getLast?.getD a.single⟩ := by
  induction l generalizing a with
  | nil => simp [points, weightedSum, totalWeight]
  | cons b l ih =>
    rw [List.foldl_cons, ih, points_cons, List.getLast?_cons, List.map_cons, List.sum_cons, List.length_cons]
    cases hv : b.value with
    | none =>
      simp only [TrendBucketAcc.add, hv, Option.map_none, Option.toList_none, List.nil_append, Option.getD_some]
      rw [add_assoc, Nat.add_right_comm, Nat.add_assoc]
    | some v =>
      simp only [TrendBucketAcc.add, hv, Option.map_some, Option.toList_some, List.singleton_append, Option.getD_some,
        weightedSum_cons, totalWeight_cons]
      rw [add_assoc, add_assoc, add_assoc, mul_comm v, Nat.add_right_comm, Nat.add_assoc]

/-- The bucket of an accumulator that has read some rows of one provider. -/
theorem bucket_foldl {providerID : ℕ} {start stop : ℤ} {b : TrendBucket K} {l : List (TrendBucket K)}
    (hp : ∀ c ∈ b :: l, c.providerID = providerID) :
    ((b :: l).foldl TrendBucketAcc.add ⟨start, stop, 0, 0, 0, 0, b⟩).bucket =
      combine providerID start stop (b :: l) := by
  rw [foldl_add]
  cases l with
  | nil =>
    have hb : b.providerID = providerID := hp b List.mem_cons_self
    simp [TrendBucketAcc.bucket, combine, hb]
  | cons c l =>
    have hlast : ((b :: c :: l).getLast?.getD b).providerID = providerID := by
      rw [List.getLast?_eq_some_getLast (List.cons_ne_nil _ _), Option.getD_some]
      exact hp _ (List.getLast_mem _)
    have hn : (b :: c :: l).length ≠ 1 := by simp
    simp only [TrendBucketAcc.bucket, combine, hlast, zero_add, if_neg hn]
    split_ifs <;> rfl

/-- The step of the loop on the accumulator of a bucket. -/
def readRow (loc : ℤ) (aggregation : String) (a : Option (TrendBucketAcc K)) (b : TrendBucket K) :
    Option (TrendBucketAcc K) :=
  let bucket := truncToBucket b.periodStart loc aggregation
  some ((a.getD ⟨bucket.1, bucket.2, 0, 0, 0, 0, b⟩).add b)

theorem foldl_readRow (loc : ℤ) (aggregation : String) (l : List (TrendBucket K)) (a : TrendBucketAcc K) :
    l.foldl (readRow loc aggregation) (some a) = some (l.foldl TrendBucketAcc.add a) := by
  induction l generalizing a with
  | nil => rfl
  | cons b l ih => exact ih (a.add b)

variable {nano : ℤ → ℤ} {loc : ℤ} {aggregation : String}

/-- The rows of one bucket, combined. -/
theorem bucket_readRow {providerID : ℕ} {k : ℤ} {l : List (TrendBucket K)} (hl : l ≠ [])
    (hp : ∀ b ∈ l, b.providerID = providerID) (hk : ∀ b ∈ l, (zoneWindows loc aggregation).floor b.periodStart = k) :
    (l.foldl (readRow loc aggregation) none).map TrendBucketAcc.bucket =
      some (combine providerID k ((zoneWindows loc aggregation).ceil k) l) := by
  obtain ⟨b, l, rfl⟩ := List.exists_cons_of_ne_nil hl
  have hb := hk b List.mem_cons_self
  have hceil : (zoneWindows loc aggregation).ceil k = (zoneWindows loc aggregation).ceil b.periodStart := by
    rw [← hb, Ruler.ceil_floor]
  have htrunc : truncToBucket b.periodStart loc aggregation = (k, (zoneWindows loc aggregation).ceil k) := by
    rw [truncToBucket_eq, hceil, ← hb]
    rfl
  have hfold : (b :: l).foldl (readRow loc aggregation) none =
      some ((b :: l).foldl TrendBucketAcc.add ⟨k, (zoneWindows loc aggregation).ceil k, 0, 0, 0, 0, b⟩) := by
    rw [List.foldl_cons, readRow, htrunc, foldl_readRow]
    rfl
  rw [hfold, Option.map_some, bucket_foldl hp]

/-- The key of the bucket of a row. -/
def bucketKey (nano : ℤ → ℤ) (loc : ℤ) (aggregation : String) (b : TrendBucket K) : ℤ :=
  nano (truncToBucket b.periodStart loc aggregation).1

/-- The start of the bucket of the row is its own key. -/
def TrendBucket.NanoKey (nano : ℤ → ℤ) (loc : ℤ) (aggregation : String) (b : TrendBucket K) : Prop :=
  bucketKey nano loc aggregation b = (truncToBucket b.periodStart loc aggregation).1

omit [Field K] [LinearOrder K] in
instance (b : TrendBucket K) : Decidable (b.NanoKey nano loc aggregation) := inferInstanceAs (Decidable (_ = _))

omit [Field K] [LinearOrder K] in
/-- In exact arithmetic. -/
example (b : TrendBucket K) : b.NanoKey id loc aggregation := rfl

omit [Field K] [LinearOrder K] in
theorem TrendBucket.NanoKey.key_eq {b : TrendBucket K} (h : b.NanoKey nano loc aggregation) :
    bucketKey nano loc aggregation b = (zoneWindows loc aggregation).floor b.periodStart := by
  rw [h, truncToBucket_eq]
  rfl

/-- **The buckets of a provider are its rows by the windows of the zone.** -/
theorem buckets_eq_rebucket {providerID : ℕ} {l : List (TrendBucket K)} (hp : ∀ b ∈ l, b.providerID = providerID)
    (hnano : ∀ b ∈ l, b.NanoKey nano loc aggregation) :
    TrendGrouping.buckets (l.foldl (TrendGrouping.add nano loc aggregation) []) =
      rebucket (zoneWindows loc aggregation) providerID l := by
  have hgroup : l.foldl (TrendGrouping.add nano loc aggregation) [] =
      groupFold (bucketKey nano loc aggregation) (readRow loc aggregation) none l := rfl
  rw [hgroup, TrendGrouping.buckets]
  set g := groupFold (bucketKey nano loc aggregation) (readRow loc aggregation) none l with hg
  have hstarts : (ordered Prod.fst g).map Prod.fst = bucketStarts (zoneWindows loc aggregation) l := by
    refine List.Pairwise.eq_of_mem_iff (r := (· < ·))
      (List.pairwise_map.mpr (pairwise_lt_ordered (nodup_keys_groupFold ..))) (pairwise_bucketStarts _ l) fun k => ?_
    rw [mem_bucketStarts, List.mem_map]
    constructor
    · rintro ⟨⟨k, a⟩, he, rfl⟩
      obtain ⟨b, hb, hk⟩ := List.mem_map.mp (mem_groupFold.mp (mem_ordered.mp he)).1
      exact ⟨b, hb, (hnano b hb).key_eq.symm.trans hk⟩
    · rintro ⟨b, hb, hk⟩
      have hkey : k ∈ l.map (bucketKey nano loc aggregation) := List.mem_map.mpr ⟨b, hb, (hnano b hb).key_eq.trans hk⟩
      exact ⟨(k, _), mem_ordered.mpr (mem_groupFold.mpr ⟨hkey, rfl⟩), rfl⟩
  rw [rebucket, ← hstarts, List.map_map, ← List.filterMap_eq_map]
  refine List.filterMap_congr fun e he => ?_
  obtain ⟨k, a⟩ := e
  obtain ⟨hk, rfl⟩ := mem_groupFold.mp (mem_ordered.mp he)
  obtain ⟨b, hb, rfl⟩ := List.mem_map.mp hk
  have hfilter : (l.filter fun c => bucketKey nano loc aggregation c = bucketKey nano loc aggregation b) =
      l.filter fun c => (zoneWindows loc aggregation).floor c.periodStart = bucketKey nano loc aggregation b :=
    List.filter_congr fun c hc => by rw [(hnano c hc).key_eq]
  rw [hfilter]
  refine bucket_readRow (List.ne_nil_of_mem (List.mem_filter.mpr ⟨hb, ?_⟩)) (fun c hc => hp c (List.mem_filter.mp hc).1)
    fun c hc => of_decide_eq_true (List.mem_filter.mp hc).2
  rw [(hnano b hb).key_eq, decide_eq_true_eq]

/-! ### The buckets of a series -/

section Rebucket

variable {providerID : ℕ} {start stop : ℤ} {r : Ruler} {l l' : List (TrendBucket K)}

/-- The row is of the provider of the bucket and starts in it. -/
def TrendBucket.Holds (k b : TrendBucket K) : Prop :=
  b.providerID = k.providerID ∧ k.periodStart ≤ b.periodStart ∧ b.periodStart < k.periodEnd

omit [Field K] [LinearOrder K] in
instance (k b : TrendBucket K) : Decidable (k.Holds b) := inferInstanceAs (Decidable (_ ∧ _))

theorem combine_window (providerID : ℕ) (start stop : ℤ) (l : List (TrendBucket K)) :
    (combine providerID start stop l).providerID = providerID ∧ (combine providerID start stop l).periodStart = start ∧
      (combine providerID start stop l).periodEnd = stop := by
  match l with
  | [] => exact ⟨rfl, rfl, rfl⟩
  | [_] => exact ⟨rfl, rfl, rfl⟩
  | _ :: _ :: _ => exact ⟨rfl, rfl, rfl⟩

theorem combine_sampleCount (l : List (TrendBucket K)) :
    (combine providerID start stop l).sampleCount = (l.map TrendBucket.sampleCount).sum := by
  match l with
  | [] => rfl
  | [b] => simp [combine]
  | _ :: _ :: _ => rfl

/-- The order of the rows of a bucket does not matter. -/
theorem combine_perm (h : l.Perm l') : combine providerID start stop l = combine providerID start stop l' := by
  match l with
  | [] => rw [List.nil_perm.mp h]
  | [b] => rw [List.singleton_perm.mp h]
  | b :: c :: l =>
    obtain ⟨b', c', l', rfl⟩ : ∃ b' c' m, l' = b' :: c' :: m := by
      match l', h.length_eq with
      | b' :: c' :: m, _ => exact ⟨b', c', m, rfl⟩
    have hpoints : (points (b :: c :: l)).Perm (points (b' :: c' :: l')) := h.filterMap _
    rw [combine, combine, totalWeight_perm hpoints, weightedSum_perm hpoints, (h.map _).sum_eq]
    all_goals simp

omit [Field K] [LinearOrder K] in
theorem bucketStarts_perm (r : Ruler) (h : l.Perm l') : bucketStarts r l = bucketStarts r l' := by
  refine List.Pairwise.eq_of_mem_iff (pairwise_bucketStarts r l) (pairwise_bucketStarts r l') fun k => ?_
  simp only [mem_bucketStarts, h.mem_iff]

theorem rebucket_perm (r : Ruler) (providerID : ℕ) (h : l.Perm l') :
    rebucket r providerID l = rebucket r providerID l' := by
  rw [rebucket, rebucket, bucketStarts_perm r h]
  exact List.map_congr_left fun k _ => combine_perm (h.filter _)

/-- A bucket is that of one of the rows. -/
theorem mem_rebucket {k : TrendBucket K} :
    k ∈ rebucket r providerID l ↔ ∃ b ∈ l, k = combine providerID (r.floor b.periodStart) (r.ceil b.periodStart)
      (l.filter fun c => r.floor c.periodStart = r.floor b.periodStart) := by
  rw [rebucket, List.mem_map]
  constructor
  · rintro ⟨s, hs, rfl⟩
    obtain ⟨b, hb, rfl⟩ := mem_bucketStarts.mp hs
    exact ⟨b, hb, by rw [Ruler.ceil_floor]⟩
  · rintro ⟨b, hb, rfl⟩
    exact ⟨_, mem_bucketStarts.mpr ⟨b, hb, rfl⟩, by rw [Ruler.ceil_floor]⟩

/-- A bucket holds the rows that it was combined from. -/
theorem holds_combine {b c : TrendBucket K} {m : List (TrendBucket K)} :
    (combine providerID (r.floor b.periodStart) (r.ceil b.periodStart) m).Holds c ↔
      c.providerID = providerID ∧ r.floor c.periodStart = r.floor b.periodStart := by
  obtain ⟨h1, h2, h3⟩ := combine_window providerID (r.floor b.periodStart) (r.ceil b.periodStart) m
  rw [TrendBucket.Holds, h1, h2, h3, r.floor_eq_floor_iff]

/-- The buckets are in order, and none reaches into the next. -/
theorem pairwise_rebucket (r : Ruler) (providerID : ℕ) (l : List (TrendBucket K)) :
    (rebucket r providerID l).Pairwise fun a b => a.periodStart < b.periodStart ∧ a.periodEnd ≤ b.periodStart := by
  rw [rebucket, List.pairwise_map]
  refine (pairwise_bucketStarts r l).imp_of_mem fun {s t} hs ht hlt => ?_
  obtain ⟨b, -, rfl⟩ := mem_bucketStarts.mp hs
  obtain ⟨c, -, rfl⟩ := mem_bucketStarts.mp ht
  rw [(combine_window ..).2.1, (combine_window ..).2.2, (combine_window ..).2.1, Ruler.ceil_floor]
  exact ⟨hlt, r.ceil_le_of_floor_lt hlt⟩

/-- The samples of the buckets are those of the rows. -/
theorem sum_sampleCount_rebucket (r : Ruler) (providerID : ℕ) (l : List (TrendBucket K)) :
    ((rebucket r providerID l).map TrendBucket.sampleCount).sum = (l.map TrendBucket.sampleCount).sum := by
  have hnodup : (bucketStarts r l).Nodup := (pairwise_bucketStarts r l).imp ne_of_lt
  have hperm : ((bucketStarts r l).flatMap fun k => l.filter fun b => r.floor b.periodStart = k).Perm l :=
    perm_flatMap_filter hnodup fun b hb => mem_bucketStarts.mpr ⟨b, hb, rfl⟩
  rw [rebucket, List.map_map, ← (hperm.map TrendBucket.sampleCount).sum_eq, List.map_flatMap, List.flatMap_def,
    List.sum_flatten, List.map_map]
  simp only [Function.comp_def, combine_sampleCount]

end Rebucket

/-! ### The values of the buckets -/

section Values

variable {providerID : ℕ} {start stop : ℤ} {l : List (TrendBucket K)}

theorem mem_points {p : K × K} : p ∈ points l ↔ ∃ b ∈ l, b.value = some p.1 ∧ b.weight = p.2 := by
  obtain ⟨v, w⟩ := p
  simp [points, List.mem_filterMap]

theorem points_eq_nil_iff : points l = [] ↔ ∀ b ∈ l, b.value = none := by
  simp [points, List.filterMap_eq_nil_iff]

variable [IsStrictOrderedRing K]

theorem TrendBucket.weight_pos {b : TrendBucket K} (h : 0 ≤ b.sampleCount) : 0 < b.weight := by
  rw [weight]
  split_ifs with h0
  · exact one_pos
  · exact lt_of_le_of_ne (Int.cast_nonneg h) (Ne.symm h0)

theorem points_pos (h : ∀ b ∈ l, 0 ≤ b.sampleCount) : ∀ p ∈ points l, 0 < p.2 := by
  intro p hp
  obtain ⟨b, hb, -, hw⟩ := mem_points.mp hp
  rw [← hw]
  exact TrendBucket.weight_pos (h b hb)

/-- Several rows have a value together when one of them has, and it is their mean. -/
theorem combine_value (h : ∀ b ∈ l, 0 ≤ b.sampleCount) (hl : l.length ≠ 1) :
    (combine providerID start stop l).value =
      if points l = [] then none
      else some (weightedSum (points l) Prod.snd Prod.fst / totalWeight (points l) Prod.snd) := by
  have hvalue : (combine providerID start stop l).value = if 0 < totalWeight (points l) Prod.snd then
      some (weightedSum (points l) Prod.snd Prod.fst / totalWeight (points l) Prod.snd) else none := by
    match l with
    | [] => rfl
    | [b] => exact absurd rfl hl
    | _ :: _ :: _ => rfl
  rw [hvalue]
  by_cases hnil : points l = []
  · rw [if_pos hnil, hnil]
    simp [totalWeight]
  · rw [if_neg hnil, if_pos (totalWeight_pos (points_pos h) hnil)]

theorem combine_value_eq_none_iff (providerID : ℕ) (start stop : ℤ) (h : ∀ b ∈ l, 0 ≤ b.sampleCount) :
    (combine providerID start stop l).value = none ↔ ∀ b ∈ l, b.value = none := by
  by_cases hl : l.length = 1
  · obtain ⟨b, rfl⟩ := List.length_eq_one_iff.mp hl
    simp [combine]
  · rw [combine_value h hl, ← points_eq_nil_iff]
    split_ifs with hnil <;> simp [hnil]

/-- A bucket's value lies between values of its rows. -/
theorem combine_value_between (h : ∀ b ∈ l, 0 ≤ b.sampleCount) {v : K}
    (hv : (combine providerID start stop l).value = some v) :
    ∃ b ∈ l, ∃ c ∈ l, ∃ x ∈ b.value, ∃ y ∈ c.value, x ≤ v ∧ v ≤ y := by
  by_cases hl : l.length = 1
  · obtain ⟨b, rfl⟩ := List.length_eq_one_iff.mp hl
    exact ⟨b, List.mem_cons_self, b, List.mem_cons_self, v, hv, v, hv, le_rfl, le_rfl⟩
  · rw [combine_value h hl] at hv
    split_ifs at hv with hnil
    cases hv
    obtain ⟨p, hp, hle⟩ := exists_le_mean (x := Prod.fst) (points_pos h) hnil
    obtain ⟨q, hq, hge⟩ := exists_mean_le (x := Prod.fst) (points_pos h) hnil
    obtain ⟨b, hb, hx, -⟩ := mem_points.mp hp
    obtain ⟨c, hc, hy, -⟩ := mem_points.mp hq
    exact ⟨b, hb, c, hc, p.1, hx, q.1, hy, hle, hge⟩

end Values

/-! ### Rows of one kind -/

/-- A window of any kind is at least a day. -/
theorem PeriodKind.day_le_window (kind : PeriodKind) (n : ℤ) :
    kind.windows.mark n + day ≤ kind.windows.mark (n + 1) := by
  have hmonth := (monthStartDay_succ_bounds n).1
  cases kind <;>
    simp only [windows, Ruler.among, midnights, mondays, monthStarts, day_eq] <;> omega

/-- In a zone less than a day from UTC, the windows of the UTC starts are numbered as these are. -/
theorem PeriodKind.index_start (kind : PeriodKind) {loc : ℤ} (hloc : |loc| < day) (n : ℤ) :
    (kind.windows.shift loc).index (kind.windows.mark n) = if 0 ≤ loc then n else n - 1 :=
  kind.windows.index_mark_add kind.day_le_window (abs_lt.mp hloc).1.le (abs_lt.mp hloc).2 n

/-- The row starts with a standard period of the kind. -/
def TrendBucket.OfKind (b : TrendBucket K) (kind : PeriodKind) : Prop :=
  ∃ t, ∃ p ∈ standardPeriods t, p.kind = kind ∧ p.start = b.periodStart

omit [Field K] [LinearOrder K] in
theorem TrendBucket.OfKind.exists_mark {b : TrendBucket K} {kind : PeriodKind} (h : b.OfKind kind) :
    ∃ n, b.periodStart = kind.windows.mark n := by
  obtain ⟨t, p, hp, rfl, hstart⟩ := h
  rw [mem_standardPeriods_iff] at hp
  rw [← hstart, hp]
  exact ⟨p.kind.windows.index t, rfl⟩

omit [Field K] [LinearOrder K] in
/-- Rows of the kind in one window of the zone start at one instant. -/
theorem TrendBucket.OfKind.periodStart_eq {b c : TrendBucket K} (hloc : |loc| < day)
    (hb : b.OfKind (.ofLabel aggregation)) (hc : c.OfKind (.ofLabel aggregation))
    (h : (zoneWindows loc aggregation).floor b.periodStart = (zoneWindows loc aggregation).floor c.periodStart) :
    b.periodStart = c.periodStart := by
  obtain ⟨n, hn⟩ := hb.exists_mark
  obtain ⟨m, hm⟩ := hc.exists_mark
  have hindex := (zoneWindows loc aggregation).strictMono_mark.injective h
  rw [hn, hm, zoneWindows, PeriodKind.index_start _ hloc, PeriodKind.index_start _ hloc] at hindex
  have hnm : n = m := by
    split_ifs at hindex <;> omega
  rw [hn, hm, hnm]

omit [Field K] [LinearOrder K] in
/-- Rows of the kind with different starts are one to a window. -/
theorem filter_floor_eq_singleton {l : List (TrendBucket K)} (hloc : |loc| < day)
    (hkind : ∀ b ∈ l, b.OfKind (.ofLabel aggregation)) (hn : (l.map TrendBucket.periodStart).Nodup)
    {b : TrendBucket K} (hb : b ∈ l) :
    (l.filter fun c => (zoneWindows loc aggregation).floor c.periodStart =
      (zoneWindows loc aggregation).floor b.periodStart) = [b] := by
  have hsame : (l.filter fun c => (zoneWindows loc aggregation).floor c.periodStart =
      (zoneWindows loc aggregation).floor b.periodStart) = l.filter fun c => c.periodStart = b.periodStart := by
    refine List.filter_congr fun c hc => ?_
    rw [decide_eq_decide]
    exact ⟨(hkind c hc).periodStart_eq hloc (hkind b hb), fun he => by rw [he]⟩
  have hmem : b ∈ l.filter fun c => c.periodStart = b.periodStart := List.mem_filter.mpr ⟨hb, decide_eq_true rfl⟩
  have hone := length_filter_le_one (q := fun c => c.periodStart = b.periodStart) hn fun c d hc hd =>
    (of_decide_eq_true hc).trans (of_decide_eq_true hd).symm
  obtain ⟨c, hc⟩ := List.length_eq_one_iff.mp (le_antisymm hone (List.length_pos_of_mem hmem))
  rw [hc, List.mem_singleton] at hmem
  rw [hsame, hc, hmem]

/-! ### The series -/

variable {rows rows' : List (TrendBucket K)}

/-- There is a series for each provider of the rows, of its rows. -/
theorem mem_series (hnano : ∀ b ∈ rows, b.NanoKey nano loc aggregation) {s : TrendSeries K} :
    s ∈ (trends nano rows (some loc) aggregation).series ↔ s.providerID ∈ rows.map TrendBucket.providerID ∧
      s.buckets = rebucket (zoneWindows loc aggregation) s.providerID
        (rows.filter fun b => b.providerID = s.providerID) := by
  have hbuckets : ∀ p : ℕ, TrendGrouping.buckets
      ((rows.filter fun b => b.providerID = p).foldl (TrendGrouping.add nano loc aggregation) []) =
        rebucket (zoneWindows loc aggregation) p (rows.filter fun b => b.providerID = p) := fun p =>
    buckets_eq_rebucket (fun b hb => of_decide_eq_true (List.mem_filter.mp hb).2)
      fun b hb => hnano b (List.mem_filter.mp hb).1
  rw [trends, List.mem_map]
  constructor
  · rintro ⟨⟨p, g⟩, hg, rfl⟩
    obtain ⟨hp, rfl⟩ := mem_groupFold.mp hg
    exact ⟨hp, hbuckets p⟩
  · rintro ⟨hp, hs⟩
    refine ⟨(s.providerID, _), mem_groupFold.mpr ⟨hp, rfl⟩, ?_⟩
    rw [Option.getD_some, hbuckets, ← hs]

theorem nodup_series : ((trends nano rows (some loc) aggregation).series.map TrendSeries.providerID).Nodup := by
  rw [trends, List.map_map]
  exact nodup_keys_groupFold ..

theorem perm_series (hnano : ∀ b ∈ rows, b.NanoKey nano loc aggregation) (h : rows.Perm rows') :
    (trends nano rows (some loc) aggregation).series.Perm (trends nano rows' (some loc) aggregation).series := by
  refine (List.perm_ext_iff_of_nodup (nodup_series.of_map _) (nodup_series.of_map _)).mpr fun s => ?_
  rw [mem_series hnano, mem_series fun b hb => hnano b (h.mem_iff.mpr hb), (h.map _).mem_iff,
    rebucket_perm _ _ (h.filter _)]

theorem later_eq (last : Option ℤ) (stop : ℤ) : later last stop = some (max (last.getD stop) stop) := by
  cases last with
  | none => simp [later]
  | some e =>
    simp only [later, Option.all_some, decide_eq_true_eq, Option.getD_some]
    split_ifs with h
    · rw [max_eq_right h.le]
    · rw [max_eq_left (not_lt.mp h)]

theorem later_comm (last : Option ℤ) (a b : ℤ) : later (later last a) b = later (later last b) a := by
  rw [later_eq, later_eq, later_eq, later_eq, Option.getD_some, Option.getD_some]
  cases last with
  | none => rw [Option.getD_none, Option.getD_none, max_self, max_self, max_comm]
  | some e => rw [Option.getD_some, Option.getD_some, max_right_comm]

omit [Field K] [LinearOrder K] in
/-- Of two series it does not matter which is looked at first. -/
theorem laterEnd_comm (last : Option ℤ) (s s' : TrendSeries K) :
    laterEnd (laterEnd last s) s' = laterEnd (laterEnd last s') s := by
  rcases h : s.buckets.getLast? with _ | b <;> rcases h' : s'.buckets.getLast? with _ | b' <;>
    simp only [laterEnd, h, h']
  exact later_comm last b.periodEnd b'.periodEnd

/-- What the rows of a provider become. -/
structure TrendSeries.Rebuckets (s : TrendSeries K) (rows : List (TrendBucket K)) : Prop where
  /-- The buckets are in order and do not overlap. -/
  increasing : s.buckets.Pairwise fun a b => a.periodStart < b.periodStart ∧ a.periodEnd ≤ b.periodStart
  /-- A row of the provider is in one bucket. -/
  one : ∀ b ∈ rows, b.providerID = s.providerID → ∃! k, k ∈ s.buckets ∧ k.Holds b
  /-- A bucket has a row, and counts the samples of its rows. -/
  samples : ∀ k ∈ s.buckets, (∃ b ∈ rows, k.Holds b) ∧
    k.sampleCount = ((rows.filter fun b => k.Holds b).map TrendBucket.sampleCount).sum
  /-- No sample is lost. -/
  total : (s.buckets.map TrendBucket.sampleCount).sum =
    ((rows.filter fun b => b.providerID = s.providerID).map TrendBucket.sampleCount).sum
  /-- A bucket has a value when one of its rows has. -/
  value_none : ∀ k ∈ s.buckets, k.value = none ↔ ∀ b ∈ rows, k.Holds b → b.value = none
  /-- The value lies between values of its rows. -/
  value_between : ∀ k ∈ s.buckets, ∀ v ∈ k.value, ∃ b ∈ rows, ∃ c ∈ rows, k.Holds b ∧ k.Holds c ∧
    ∃ x ∈ b.value, ∃ y ∈ c.value, x ≤ v ∧ v ≤ y

/-- The rows that a bucket holds. -/
theorem filter_holds {providerID : ℕ} {r : Ruler} {b : TrendBucket K} {m : List (TrendBucket K)} :
    (rows.filter fun c => (combine providerID (r.floor b.periodStart) (r.ceil b.periodStart) m).Holds c) =
      (rows.filter fun c => c.providerID = providerID).filter fun c =>
        r.floor c.periodStart = r.floor b.periodStart := by
  rw [List.filter_filter]
  refine List.filter_congr fun c _ => ?_
  rw [← Bool.decide_and, decide_eq_decide, holds_combine, and_comm]

/-- A bucket of a series is combined from the rows that it holds, and it holds one. -/
theorem bucket_of_series (hnano : ∀ b ∈ rows, b.NanoKey nano loc aggregation) {s : TrendSeries K}
    (hs : s ∈ (trends nano rows (some loc) aggregation).series) {k : TrendBucket K} (hk : k ∈ s.buckets) :
    k = combine s.providerID k.periodStart k.periodEnd (rows.filter fun b => k.Holds b) ∧
      ∃ b ∈ rows, k.Holds b := by
  rw [((mem_series hnano).mp hs).2, mem_rebucket] at hk
  obtain ⟨b, hb, rfl⟩ := hk
  rw [List.mem_filter, decide_eq_true_eq] at hb
  refine ⟨?_, b, hb.1, holds_combine.mpr ⟨hb.2, rfl⟩⟩
  rw [filter_holds, (combine_window ..).2.1, (combine_window ..).2.2]

/-- A row of the provider is in one bucket of its series. -/
theorem existsUnique_bucket (hnano : ∀ b ∈ rows, b.NanoKey nano loc aggregation) {s : TrendSeries K}
    (hs : s ∈ (trends nano rows (some loc) aggregation).series) {b : TrendBucket K} (hb : b ∈ rows)
    (hp : b.providerID = s.providerID) :
    ∃! k, k ∈ s.buckets ∧ k.Holds b := by
  rw [((mem_series hnano).mp hs).2]
  have hmem : b ∈ rows.filter fun c => c.providerID = s.providerID := List.mem_filter.mpr ⟨hb, decide_eq_true hp⟩
  refine ⟨_, ⟨mem_rebucket.mpr ⟨b, hmem, rfl⟩, holds_combine.mpr ⟨hp, rfl⟩⟩, ?_⟩
  rintro k ⟨hk, hholds⟩
  obtain ⟨c, -, rfl⟩ := mem_rebucket.mp hk
  have hfloor := (holds_combine.mp hholds).2
  rw [← Ruler.ceil_floor _ c.periodStart, ← hfloor, Ruler.ceil_floor]

theorem rebuckets_of_mem [IsStrictOrderedRing K] (hcount : ∀ b ∈ rows, 0 ≤ b.sampleCount)
    (hnano : ∀ b ∈ rows, b.NanoKey nano loc aggregation) {s : TrendSeries K}
    (hs : s ∈ (trends nano rows (some loc) aggregation).series) : s.Rebuckets rows where
  increasing := by
    rw [((mem_series hnano).mp hs).2]
    exact pairwise_rebucket ..
  one b hb hp := existsUnique_bucket hnano hs hb hp
  samples k hk := by
    obtain ⟨he, hex⟩ := bucket_of_series hnano hs hk
    refine ⟨hex, ?_⟩
    nth_rewrite 1 [he]
    exact combine_sampleCount _
  total := by
    rw [((mem_series hnano).mp hs).2]
    exact sum_sampleCount_rebucket ..
  value_none k hk := by
    have hnone := combine_value_eq_none_iff s.providerID k.periodStart k.periodEnd
      (l := rows.filter fun b => k.Holds b) fun b hb => hcount b (List.mem_filter.mp hb).1
    rw [← (bucket_of_series hnano hs hk).1] at hnone
    rw [hnone]
    simp only [List.mem_filter, decide_eq_true_eq, and_imp]
  value_between k hk v hv := by
    rw [(bucket_of_series hnano hs hk).1] at hv
    obtain ⟨b, hb, c, hc, hbetween⟩ :=
      combine_value_between (fun b hb => hcount b (List.mem_filter.mp hb).1) hv
    rw [List.mem_filter, decide_eq_true_eq] at hb hc
    exact ⟨b, hb.1, c, hc.1, hb.2, hc.2, hbetween⟩

/-- A row that is alone in its bucket is shown as it is. -/
theorem relabelled (hnano : ∀ b ∈ rows, b.NanoKey nano loc aggregation) {s : TrendSeries K}
    (hs : s ∈ (trends nano rows (some loc) aggregation).series) (hloc : |loc| < day)
    (hkind : ∀ b ∈ rows, b.providerID = s.providerID → b.OfKind (.ofLabel aggregation))
    (hn : ((rows.filter fun b => b.providerID = s.providerID).map TrendBucket.periodStart).Nodup)
    {b : TrendBucket K} (hb : b ∈ rows) (hp : b.providerID = s.providerID) :
    ∃ k ∈ s.buckets, (rows.filter fun c => k.Holds c) = [b] ∧
      k = { b with periodStart := k.periodStart, periodEnd := k.periodEnd } := by
  have hmem : b ∈ rows.filter fun c => c.providerID = s.providerID := List.mem_filter.mpr ⟨hb, decide_eq_true hp⟩
  obtain ⟨k, ⟨hk, hholds⟩, -⟩ := existsUnique_bucket hnano hs hb hp
  have hone : (rows.filter fun c => k.Holds c) = [b] := by
    have hk' := hk
    rw [((mem_series hnano).mp hs).2, mem_rebucket] at hk'
    obtain ⟨c, -, rfl⟩ := hk'
    rw [filter_holds, ← (holds_combine.mp hholds).2]
    refine filter_floor_eq_singleton hloc (fun c hc => ?_) hn hmem
    rw [List.mem_filter, decide_eq_true_eq] at hc
    exact hkind c hc.1 hc.2
  refine ⟨k, hk, hone, ?_⟩
  have he := (bucket_of_series hnano hs hk).1
  rw [hone, combine, ← hp] at he
  exact he

/-- **Re-bucketing into a zone.** For rows in any order, of buckets whose starts are their keys, and a zone
less than a day from UTC: there is one series for each provider, and it re-buckets its rows; another order of
the rows gives the same series, up to their order, and the same last end; and rows with different starts of
the kind that is asked for are one to a bucket, with the value and the interval they were stored with. -/
theorem trends_rebucketed [IsStrictOrderedRing K] {loc : ℤ} (hloc : |loc| < day) (aggregation : String)
    {rows : List (TrendBucket K)} (hcount : ∀ b ∈ rows, 0 ≤ b.sampleCount)
    (hnano : ∀ b ∈ rows, b.NanoKey nano loc aggregation) :
    ((trends nano rows (some loc) aggregation).series.map TrendSeries.providerID).Nodup ∧
    (∀ b ∈ rows, ∃ s ∈ (trends nano rows (some loc) aggregation).series, s.providerID = b.providerID) ∧
    (∀ s ∈ (trends nano rows (some loc) aggregation).series, s.Rebuckets rows) ∧
    (∀ rows', rows.Perm rows' →
      (trends nano rows (some loc) aggregation).series.Perm (trends nano rows' (some loc) aggregation).series ∧
      (trends nano rows (some loc) aggregation).hasData = (trends nano rows' (some loc) aggregation).hasData ∧
      (trends nano rows (some loc) aggregation).lastPeriodEnd =
        (trends nano rows' (some loc) aggregation).lastPeriodEnd) ∧
    ∀ s ∈ (trends nano rows (some loc) aggregation).series,
      (∀ b ∈ rows, b.providerID = s.providerID → b.OfKind (.ofLabel aggregation)) →
      ((rows.filter fun b => b.providerID = s.providerID).map TrendBucket.periodStart).Nodup →
      ∀ b ∈ rows, b.providerID = s.providerID → ∃ k ∈ s.buckets, (rows.filter fun c => k.Holds c) = [b] ∧
        k = { b with periodStart := k.periodStart, periodEnd := k.periodEnd } := by
  refine ⟨nodup_series, fun b hb => ?_, fun s hs => rebuckets_of_mem hcount hnano hs,
    fun rows' h => ⟨perm_series hnano h, ?_, ?_⟩, fun s hs hkind hn b hb hp => relabelled hnano hs hloc hkind hn hb hp⟩
  · exact ⟨⟨b.providerID, rebucket (zoneWindows loc aggregation) b.providerID
      (rows.filter fun c => c.providerID = b.providerID)⟩, (mem_series hnano).mpr ⟨List.mem_map_of_mem hb, rfl⟩, rfl⟩
  · simp only [trends, h.length_eq]
  · exact (perm_series hnano h).foldl_eq' (fun s _ s' _ last => laterEnd_comm last s s') none

/-- The daily row of a provider with this value and sample count. -/
def dailyRow (providerID : ℕ) (d : ℤ) (value : Option ℚ) (sampleCount : ℤ) : TrendBucket ℚ :=
  ⟨providerID, d * day, (d + 1) * day, value, value, value, sampleCount⟩

/-- Three daily rows of two providers. -/
def threeRows : List (TrendBucket ℚ) := [dailyRow 1 1 (some 2) 3, dailyRow 2 0 none 0, dailyRow 1 0 (some 1) 4]

/-- Five and a half hours ahead of UTC each row keeps its value, and the days begin at half past six in the
evening before. -/
theorem trends_rebucketed_days :
    (∀ s ∈ (trends unixNano threeRows (some (5 * hour + 30 * minute)) "daily").series, s.Rebuckets threeRows) ∧
      (trends unixNano threeRows (some (5 * hour + 30 * minute)) "daily").series =
        [⟨1, [{ dailyRow 1 0 (some 1) 4 with
                periodStart := -(5 * hour + 30 * minute), periodEnd := day - (5 * hour + 30 * minute) },
              { dailyRow 1 1 (some 2) 3 with
                periodStart := day - (5 * hour + 30 * minute), periodEnd := 2 * day - (5 * hour + 30 * minute) }]⟩,
         ⟨2, [{ dailyRow 2 0 none 0 with
                periodStart := -(5 * hour + 30 * minute), periodEnd := day - (5 * hour + 30 * minute) }]⟩] :=
  ⟨(trends_rebucketed (by decide) "daily" (by decide) (by decide +kernel)).2.2.1, by decide +kernel⟩

/-- Two rows of one month are one bucket, with the mean of their values. -/
example : (trends unixNano [dailyRow 1 4 (some 2) 3, dailyRow 1 11 (some 6) 1] none "monthly").series =
    [⟨1, [⟨1, 0, 31 * day, some 3, none, none, 4⟩]⟩] := by decide +kernel

end ForecastIQ.Analysis
