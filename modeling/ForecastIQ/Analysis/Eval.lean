import ForecastIQ.Foundations.WeightedMoments

/-!
# The evaluation kernel

`internal/analysis/eval`: the accumulators that turn matched pairs into error,
occurrence and probability metrics. Arithmetic is exact, over any linearly ordered
field `K`; `math.Sqrt` is a parameter `sqrt : K → K`, since nothing proved here
depends on which root it computes. A metric with a zero denominator is `none`, the
methodology's `null`.

Each accumulator is a fold over the pairs it was given, and its fields are the
weighted sums the formulas name (`Continuous.ofList_eq`, `Brier.ofList_eq`,
`Confusion.ofList_eq`).
-/

namespace ForecastIQ.Analysis

/-- The provenance of an observation; `other` is any text the code does not know. -/
inductive ObservationType where
  | stationObservation
  | interpolated
  | reanalysis
  | providerEstimated
  | other (name : String)
  deriving DecidableEq, Repr

/-- The quality flag of an observation; `other` is any text the code does not know. -/
inductive QualityFlag where
  | valid
  | suspect
  | corrected
  | other (name : String)
  deriving DecidableEq, Repr

namespace Eval

open ForecastIQ.Foundations

variable {K : Type*} [Field K] [LinearOrder K]

/-! The numerals of the weights and thresholds, in evaluation and ranking. -/

instance atLeastTwo_two : Nat.AtLeastTwo 2 := ⟨by decide⟩

instance atLeastTwo_four : Nat.AtLeastTwo 4 := ⟨by decide⟩

instance atLeastTwo_five : Nat.AtLeastTwo 5 := ⟨by decide⟩

instance atLeastTwo_eight : Nat.AtLeastTwo 8 := ⟨by decide⟩

instance atLeastTwo_ten : Nat.AtLeastTwo 10 := ⟨by decide⟩

instance atLeastTwo_hundred : Nat.AtLeastTwo 100 := ⟨by decide⟩

/-- `ProvenanceWeight`: how much a pair counts, by where its observation comes from. -/
def provenanceWeight : ObservationType → K
  | .stationObservation => 1
  | .interpolated => 8 / 10
  | .reanalysis => 8 / 10
  | .providerEstimated => 5 / 10
  | .other _ => 0

/-- `Eligible`: both sides are known and the observation is not suspect. -/
def eligible (forecast observed : Option K) (qualityFlag : QualityFlag) : Bool :=
  forecast.isSome && observed.isSome && decide (qualityFlag ≠ .suspect)

/-- `ObservedRainThresholdMM`. -/
def observedRainThresholdMM : K := 1 / 10

/-- `ForecastRainProbability`. -/
def forecastRainProbability : K := 5 / 10

/-- `ForecastRain`: a probability of at least one half, or an amount above zero. -/
def forecastRain (precipProbability precipAmount : Option K) : Bool :=
  precipProbability.any (fun p => decide (forecastRainProbability ≤ p)) ||
    precipAmount.any (fun a => decide (0 < a))

/-- `ObservedRain`: at least a tenth of a millimetre; an unknown amount is dry. -/
def observedRain (precipMM : Option K) : Bool :=
  precipMM.any fun a => decide (observedRainThresholdMM ≤ a)

/-- `*p`, read only where `p` is known to be set. -/
def deref (p : Option K) : K := p.getD 0

/-! ### Continuous errors -/

/-- `Continuous`: the weighted sums of errors. -/
structure Continuous (K : Type*) where
  /-- `Σ w`. -/
  sumWeight : K
  /-- `Σ w²`. -/
  sumWeightSqrd : K
  /-- `Σ w|e|`. -/
  sumWeightAbs : K
  /-- `Σ w e`. -/
  sumWeightErr : K
  /-- `Σ w e²`. -/
  sumWeightSq : K
  /-- The number of pairs. -/
  n : ℕ

namespace Continuous

/-- The accumulator before any pair. -/
def zero : Continuous K := ⟨0, 0, 0, 0, 0, 0⟩

/-- `Add`: one pair, with `e = forecast - observed`. -/
def add (c : Continuous K) (forecast observed weight : K) : Continuous K :=
  let e := forecast - observed
  { sumWeight := c.sumWeight + weight
    sumWeightSqrd := c.sumWeightSqrd + weight * weight
    sumWeightAbs := c.sumWeightAbs + weight * |e|
    sumWeightErr := c.sumWeightErr + weight * e
    sumWeightSq := c.sumWeightSq + weight * e * e
    n := c.n + 1 }

/-- `MAE`. -/
def mae (c : Continuous K) : Option K :=
  if c.sumWeight = 0 then none else some (c.sumWeightAbs / c.sumWeight)

/-- `RMSE`. -/
def rmse (sqrt : K → K) (c : Continuous K) : Option K :=
  if c.sumWeight = 0 then none else some (sqrt (c.sumWeightSq / c.sumWeight))

/-- `Bias`. -/
def bias (c : Continuous K) : Option K :=
  if c.sumWeight = 0 then none else some (c.sumWeightErr / c.sumWeight)

end Continuous

/-! ### Occurrence -/

/-- `Confusion`: the weighted occurrence table. -/
structure Confusion (K : Type*) where
  /-- Forecast rain, observed rain. -/
  tp : K
  /-- Forecast rain, observed dry. -/
  fp : K
  /-- Forecast dry, observed rain. -/
  fn : K
  /-- Forecast dry, observed dry. -/
  tn : K

namespace Confusion

/-- The table before any pair. -/
def zero : Confusion K := ⟨0, 0, 0, 0⟩

/-- `Add`: the pair's weight goes to one cell. -/
def add (c : Confusion K) (forecastRain observedRain : Bool) (weight : K) : Confusion K :=
  match forecastRain, observedRain with
  | true, true => { c with tp := c.tp + weight }
  | true, false => { c with fp := c.fp + weight }
  | false, true => { c with fn := c.fn + weight }
  | false, false => { c with tn := c.tn + weight }

/-- `N`: the total weight. -/
def total (c : Confusion K) : K := c.tp + c.fp + c.fn + c.tn

/-- A ratio that is null when its denominator is zero; the six metrics below are its cases. -/
def ratio (num d : K) : Option K := if d = 0 then none else some (num / d)

/-- `Recall`. -/
def «recall» (c : Confusion K) : Option K := ratio c.tp (c.tp + c.fn)

/-- `Precision`. -/
def precision (c : Confusion K) : Option K := ratio c.tp (c.tp + c.fp)

/-- `F1`. -/
def f1 (c : Confusion K) : Option K := ratio (2 * c.tp) (2 * c.tp + c.fp + c.fn)

/-- `FalseAlarmRate`. -/
def falseAlarmRate (c : Confusion K) : Option K := ratio c.fp (c.fp + c.tn)

/-- `ThreatScore`. -/
def threatScore (c : Confusion K) : Option K := ratio c.tp (c.tp + c.fp + c.fn)

/-- `OccurrenceAgreement`. -/
def occurrenceAgreement (c : Confusion K) : Option K := ratio (c.tp + c.tn) c.total

end Confusion

/-! ### Probability -/

/-- `Brier`: the weighted sums of squared probability errors. -/
structure Brier (K : Type*) where
  /-- `Σ w`. -/
  sumWeight : K
  /-- `Σ w²`. -/
  sumWeightSqrd : K
  /-- `Σ w(p - a)²`. -/
  sumWeightSq : K
  /-- `Σ w(p - a)⁴`. -/
  sumWeightQuad : K
  /-- The number of pairs. -/
  n : ℕ

namespace Brier

/-- The accumulator before any pair. -/
def zero : Brier K := ⟨0, 0, 0, 0, 0⟩

/-- `Add`: one forecast probability against what was observed. -/
def add (b : Brier K) (probability : K) (observedRain : Bool) (weight : K) : Brier K :=
  let a := if observedRain then 1 else 0
  let d := probability - a
  let d2 := d * d
  { sumWeight := b.sumWeight + weight
    sumWeightSqrd := b.sumWeightSqrd + weight * weight
    sumWeightSq := b.sumWeightSq + weight * d2
    sumWeightQuad := b.sumWeightQuad + weight * d2 * d2
    n := b.n + 1 }

/-- `Score`. -/
def score (b : Brier K) : Option K :=
  if b.sumWeight = 0 then none else some (b.sumWeightSq / b.sumWeight)

end Brier

/-! ### Confidence intervals -/

/-- `Z95`. -/
def z95 : K := 196 / 100

/-- `Wilson`: the score interval of a proportion over an effective sample size. -/
def wilson (sqrt : K → K) (pHat n : K) : K × K :=
  if n ≤ 0 then (0, 0)
  else
    let z2 : K := z95 * z95
    let denom := 1 + z2 / n
    let center := (pHat + z2 / (2 * n)) / denom
    let margin := z95 * sqrt (pHat * (1 - pHat) / n + z2 / (4 * n * n)) / denom
    let lower := if center - margin < 0 then 0 else center - margin
    let upper := if 1 < center + margin then 1 else center + margin
    (if pHat < lower then pHat else lower, if upper < pHat then pHat else upper)

/-- `ciFromMoments`: the interval `mean ± z s / √n`, when two pairs leave a degree of freedom. -/
def ciFromMoments (sqrt : K → K) (mean sumWx sumWx2 sumW sumWsqrd : K) (n : ℕ) : Option K × Option K :=
  if n < 2 ∨ sumW ≤ 0 then (none, none)
  else
    let d := sumW - sumWsqrd / sumW
    if d ≤ 0 then (none, none)
    else
      let v := (sumWx2 - sumWx * sumWx / sumW) / d
      let variance := if v < 0 then 0 else v
      let half := z95 * sqrt variance / sqrt n
      (some (mean - half), some (mean + half))

/-- An interval centred on a metric, absent when the metric is. -/
def centredCI (sqrt : K → K) (m : Option K) (sumWx sumWx2 sumW sumWsqrd : K) (n : ℕ) : Option K × Option K :=
  match m with
  | none => (none, none)
  | some m => ciFromMoments sqrt m sumWx sumWx2 sumW sumWsqrd n

/-- `MAECI`. -/
def Continuous.maeCI (sqrt : K → K) (c : Continuous K) : Option K × Option K :=
  centredCI sqrt c.mae c.sumWeightAbs c.sumWeightSq c.sumWeight c.sumWeightSqrd c.n

/-- `RMSECI`. -/
def Continuous.rmseCI (sqrt : K → K) (c : Continuous K) : Option K × Option K :=
  centredCI sqrt (c.rmse sqrt) c.sumWeightAbs c.sumWeightSq c.sumWeight c.sumWeightSqrd c.n

/-- `BiasCI`. -/
def Continuous.biasCI (sqrt : K → K) (c : Continuous K) : Option K × Option K :=
  centredCI sqrt c.bias c.sumWeightErr c.sumWeightSq c.sumWeight c.sumWeightSqrd c.n

/-- `ScoreCI`. -/
def Brier.scoreCI (sqrt : K → K) (b : Brier K) : Option K × Option K :=
  centredCI sqrt b.score b.sumWeightSq b.sumWeightQuad b.sumWeight b.sumWeightSqrd b.n

/-! ### What the accumulators hold -/

/-- The accumulator of a list of pairs, each forecast, observed and weight. -/
def Continuous.ofList (l : List (K × K × K)) : Continuous K :=
  l.foldl (fun c p => c.add p.1 p.2.1 p.2.2) Continuous.zero

/-- The error of a pair. -/
def errorOf (p : K × K × K) : K := p.1 - p.2.1

/-- The weight of a pair. -/
def weightOf {α β : Type*} (p : α × β × K) : K := p.2.2

private theorem Continuous.foldl_add (l : List (K × K × K)) (c : Continuous K) :
    l.foldl (fun c p => c.add p.1 p.2.1 p.2.2) c =
      { sumWeight := c.sumWeight + totalWeight l weightOf
        sumWeightSqrd := c.sumWeightSqrd + totalWeight l fun p => weightOf p * weightOf p
        sumWeightAbs := c.sumWeightAbs + weightedSum l weightOf fun p => |errorOf p|
        sumWeightErr := c.sumWeightErr + weightedSum l weightOf errorOf
        sumWeightSq := c.sumWeightSq + weightedSum l weightOf fun p => errorOf p ^ 2
        n := c.n + l.length } := by
  induction l generalizing c with
  | nil => simp [totalWeight, weightedSum]
  | cons p l ih =>
    rw [List.foldl_cons, ih]
    simp only [add, totalWeight_cons, weightedSum_cons, List.length_cons, Continuous.mk.injEq, errorOf, weightOf]
    refine ⟨?_, ?_, ?_, ?_, ?_, ?_⟩
    · ring
    · ring
    · ring
    · ring
    · ring
    · omega

/-- **The accumulator holds the weighted sums of the errors of its pairs.** -/
theorem Continuous.ofList_eq (l : List (K × K × K)) :
    ofList l =
      { sumWeight := totalWeight l weightOf
        sumWeightSqrd := totalWeight l fun p => weightOf p * weightOf p
        sumWeightAbs := weightedSum l weightOf fun p => |errorOf p|
        sumWeightErr := weightedSum l weightOf errorOf
        sumWeightSq := weightedSum l weightOf fun p => errorOf p ^ 2
        n := l.length } := by
  rw [ofList, foldl_add]
  simp only [zero, zero_add]

@[simp] theorem Continuous.ofList_n (l : List (K × K × K)) : (ofList l).n = l.length := by
  rw [ofList_eq]

@[simp] theorem Continuous.ofList_sumWeight (l : List (K × K × K)) :
    (ofList l).sumWeight = (l.map (·.2.2)).sum := by
  rw [ofList_eq]
  rfl

/-- The accumulator of a list of forecast probabilities, each with what was observed and a weight. -/
def Brier.ofList (l : List (K × Bool × K)) : Brier K :=
  l.foldl (fun b p => b.add p.1 p.2.1 p.2.2) Brier.zero

/-- The squared error of a forecast probability. -/
def Brier.errorSq (p : K × Bool × K) : K := (p.1 - if p.2.1 then 1 else 0) ^ 2

omit [LinearOrder K] in
private theorem Brier.foldl_add (l : List (K × Bool × K)) (b : Brier K) :
    l.foldl (fun b p => b.add p.1 p.2.1 p.2.2) b =
      { sumWeight := b.sumWeight + totalWeight l weightOf
        sumWeightSqrd := b.sumWeightSqrd + totalWeight l fun p => weightOf p * weightOf p
        sumWeightSq := b.sumWeightSq + weightedSum l weightOf errorSq
        sumWeightQuad := b.sumWeightQuad + weightedSum l weightOf fun p => errorSq p ^ 2
        n := b.n + l.length } := by
  induction l generalizing b with
  | nil => simp [totalWeight, weightedSum]
  | cons p l ih =>
    rw [List.foldl_cons, ih]
    simp only [add, totalWeight_cons, weightedSum_cons, List.length_cons, Brier.mk.injEq, errorSq, weightOf]
    refine ⟨?_, ?_, ?_, ?_, ?_⟩
    · ring
    · ring
    · ring
    · ring
    · omega

omit [LinearOrder K] in
/-- **The accumulator holds the weighted sums of the squared errors of its probabilities.** -/
theorem Brier.ofList_eq (l : List (K × Bool × K)) :
    ofList l =
      { sumWeight := totalWeight l weightOf
        sumWeightSqrd := totalWeight l fun p => weightOf p * weightOf p
        sumWeightSq := weightedSum l weightOf errorSq
        sumWeightQuad := weightedSum l weightOf fun p => errorSq p ^ 2
        n := l.length } := by
  rw [ofList, foldl_add]
  simp only [zero, zero_add]

/-- The table of a list of pairs, each forecast rain, observed rain and weight. -/
def Confusion.ofList (l : List (Bool × Bool × K)) : Confusion K :=
  l.foldl (fun c p => c.add p.1 p.2.1 p.2.2) Confusion.zero

omit [LinearOrder K] in
private theorem Confusion.foldl_add (l : List (Bool × Bool × K)) (c : Confusion K) :
    l.foldl (fun c p => c.add p.1 p.2.1 p.2.2) c =
      { tp := c.tp + totalWeight (l.filter fun p => p.1 && p.2.1) weightOf
        fp := c.fp + totalWeight (l.filter fun p => p.1 && !p.2.1) weightOf
        fn := c.fn + totalWeight (l.filter fun p => !p.1 && p.2.1) weightOf
        tn := c.tn + totalWeight (l.filter fun p => !p.1 && !p.2.1) weightOf } := by
  induction l generalizing c with
  | nil => simp [totalWeight]
  | cons p l ih =>
    obtain ⟨f, o, w⟩ := p
    rw [List.foldl_cons, ih]
    cases f <;> cases o <;> simp [add, weightOf, add_assoc]

omit [LinearOrder K] in
/-- **Each cell of the table holds the weight of its pairs.** -/
theorem Confusion.ofList_eq (l : List (Bool × Bool × K)) :
    ofList l =
      { tp := totalWeight (l.filter fun p => p.1 && p.2.1) weightOf
        fp := totalWeight (l.filter fun p => p.1 && !p.2.1) weightOf
        fn := totalWeight (l.filter fun p => !p.1 && p.2.1) weightOf
        tn := totalWeight (l.filter fun p => !p.1 && !p.2.1) weightOf } := by
  rw [ofList, foldl_add]
  simp only [zero, zero_add]

omit [LinearOrder K] in
/-- The denominator of the occurrence score counts a pair once for each side with rain. -/
theorem Confusion.ofList_f1_denominator (l : List (Bool × Bool × K)) :
    2 * (ofList l).tp + (ofList l).fp + (ofList l).fn =
      (l.map fun p => (if p.1 then p.2.2 else 0) + (if p.2.1 then p.2.2 else 0)).sum := by
  rw [ofList_eq]
  induction l with
  | nil => simp [totalWeight]
  | cons p l ih =>
    obtain ⟨f, o, w⟩ := p
    rw [List.map_cons, List.sum_cons, ← ih]
    cases f <;> cases o <;> simp [weightOf] <;> ring

section Ordered

variable [IsStrictOrderedRing K]

theorem provenanceWeight_nonneg (t : ObservationType) : (0 : K) ≤ provenanceWeight t := by
  cases t <;> simp only [provenanceWeight] <;> norm_num

/-- Only an unknown observation type has no weight. -/
theorem provenanceWeight_ne_zero_iff (t : ObservationType) :
    (provenanceWeight t : K) ≠ 0 ↔ ∀ name, t ≠ .other name := by
  cases t <;> simp [provenanceWeight]

/-- A sum of weights is zero only when every weight is. -/
theorem sum_weights_eq_zero_iff {l : List K} (h : ∀ w ∈ l, 0 ≤ w) : l.sum = 0 ↔ ∀ w ∈ l, w = 0 := by
  constructor
  · intro hs w hw
    have := List.single_le_sum h w hw
    exact le_antisymm (hs ▸ this) (h w hw)
  · exact List.sum_eq_zero

/-- A mean error is known exactly when some pair has weight. -/
theorem Continuous.mae_isSome_iff {l : List (K × K × K)} (h : ∀ p ∈ l, 0 ≤ p.2.2) :
    (ofList l).mae.isSome ↔ ∃ p ∈ l, p.2.2 ≠ 0 := by
  have hs : (ofList l).sumWeight = 0 ↔ ∀ p ∈ l, p.2.2 = 0 := by
    rw [ofList_sumWeight, sum_weights_eq_zero_iff (List.forall_mem_map.mpr h), List.forall_mem_map]
  unfold mae
  split_ifs with h0
  · simp only [Option.isSome_none, Bool.false_eq_true, false_iff, not_exists, not_and, not_not]
    exact hs.mp h0
  · simp only [Option.isSome_some, true_iff]
    by_contra hne
    simp only [not_exists, not_and, not_not] at hne
    exact h0 (hs.mpr hne)

/-- An occurrence score is known exactly when some pair of weight had rain on either side. -/
theorem Confusion.f1_isSome_iff {l : List (Bool × Bool × K)} (h : ∀ p ∈ l, 0 ≤ p.2.2) :
    (ofList l).f1.isSome ↔ ∃ p ∈ l, (p.1 = true ∨ p.2.1 = true) ∧ p.2.2 ≠ 0 := by
  have hs : 2 * (ofList l).tp + (ofList l).fp + (ofList l).fn = 0 ↔
      ∀ p ∈ l, (if p.1 then p.2.2 else 0) + (if p.2.1 then p.2.2 else 0) = 0 := by
    rw [ofList_f1_denominator, sum_weights_eq_zero_iff, List.forall_mem_map]
    refine List.forall_mem_map.mpr fun p hp => ?_
    have := h p hp
    split_ifs <;> linarith
  have hp : ∀ p : Bool × Bool × K, (if p.1 then p.2.2 else 0) + (if p.2.1 then p.2.2 else 0) = 0 ↔
      ¬ ((p.1 = true ∨ p.2.1 = true) ∧ p.2.2 ≠ 0) := by
    rintro ⟨_ | _, _ | _, w⟩ <;> simp [← two_mul]
  simp only [hp] at hs
  unfold f1 ratio
  split_ifs with h0
  · simp only [Option.isSome_none, Bool.false_eq_true, false_iff, not_exists, not_and]
    exact fun p hp' hr => by simpa [hr] using hs.mp h0 p hp'
  · simp only [Option.isSome_some, true_iff]
    by_contra hne
    exact h0 (hs.mpr fun p hp' hr => hne ⟨p, hp', hr⟩)

/-- A table without negative cells. -/
structure Confusion.Nonneg (c : Confusion K) : Prop where
  tp : 0 ≤ c.tp
  fp : 0 ≤ c.fp
  fn : 0 ≤ c.fn
  tn : 0 ≤ c.tn

/-- The cells of a table of nonnegative weights are not negative. -/
theorem Confusion.ofList_nonneg {l : List (Bool × Bool × K)} (h : ∀ p ∈ l, 0 ≤ p.2.2) : (ofList l).Nonneg := by
  have hcell : ∀ q : Bool × Bool × K → Bool, 0 ≤ totalWeight (l.filter q) weightOf := by
    intro q
    refine List.sum_nonneg fun y hy => ?_
    obtain ⟨p, hp, rfl⟩ := List.mem_map.mp hy
    exact h p (List.mem_filter.mp hp).1
  rw [ofList_eq]
  exact ⟨hcell _, hcell _, hcell _, hcell _⟩

/-- A part of a whole lies between zero and one. -/
theorem Confusion.ratio_mem {num d x : K} (h0 : 0 ≤ num) (h1 : num ≤ d) (hx : ratio num d = some x) :
    0 ≤ x ∧ x ≤ 1 := by
  unfold ratio at hx
  split_ifs at hx with hd
  cases hx
  have hpos : 0 < d := lt_of_le_of_ne (h0.trans h1) (Ne.symm hd)
  exact ⟨div_nonneg h0 hpos.le, (div_le_one hpos).mpr h1⟩

end Ordered

end Eval

end ForecastIQ.Analysis
