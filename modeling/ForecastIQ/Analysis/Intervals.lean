import ForecastIQ.Analysis.ErrorMetrics

/-!
# The confidence intervals

The two kinds of interval of `eval/ci.go`, in exact arithmetic.

`ciFromMoments` centres an interval on a mean. Its width comes from five sums, the
`Moments` of a quantity over the pairs: `|e|` for `MAE` and `RMSE`, `e` for `Bias`, the
squared probability error for the Brier score. With positive weights and two pairs the
number of degrees of freedom is positive and the variance is not negative, so the guards
of the code turn nothing away (`Moments.ofList_regular`); a common factor of the weights
cancels (`Moments.ci_scale`).

`Wilson` clamps its bounds to `[0, 1]` and around the proportion. Over the reals the bounds
are there already: both comparisons are between a sum and a root, and the difference of
their squares is a product of factors that are not negative (`wilson_lower_sq`,
`wilson_bracket_sq`).
-/

namespace ForecastIQ.Analysis.Eval

open ForecastIQ.Foundations

variable {K : Type*} [Field K]

/-! ### Intervals from moments -/

/-- The sums that `ciFromMoments` reads. -/
structure Moments (K : Type*) where
  sumWx : K
  sumWx2 : K
  sumW : K
  sumWsqrd : K
  n : ℕ

namespace Moments

/-- The moments of the values `x` over the items of a list, with the weights `w`. -/
def ofList {ι : Type*} (l : List ι) (w x : ι → K) : Moments K where
  sumWx := weightedSum l w x
  sumWx2 := weightedSum l w fun i => x i ^ 2
  sumW := totalWeight l w
  sumWsqrd := totalWeight l fun i => w i * w i
  n := l.length

/-- The number of degrees of freedom. -/
def dof (m : Moments K) : K := m.sumW - m.sumWsqrd / m.sumW

/-- The weighted variance, before the guard against a negative one. -/
def variance (m : Moments K) : K := (m.sumWx2 - m.sumWx * m.sumWx / m.sumW) / m.dof

/-- The moments when all weights are multiplied by `k`. -/
def scale (k : K) (m : Moments K) : Moments K where
  sumWx := k * m.sumWx
  sumWx2 := k * m.sumWx2
  sumW := k * m.sumW
  sumWsqrd := k * k * m.sumWsqrd
  n := m.n

theorem dof_scale {k : K} (hk : k ≠ 0) (m : Moments K) : (m.scale k).dof = k * m.dof := by
  simp only [dof, scale, mul_assoc, mul_div_mul_left _ _ hk]
  ring

theorem variance_scale {k : K} (hk : k ≠ 0) (m : Moments K) : (m.scale k).variance = m.variance := by
  have hsq : k * m.sumWx * (k * m.sumWx) / (k * m.sumW) = k * (m.sumWx * m.sumWx / m.sumW) := by
    rw [mul_assoc, mul_div_mul_left _ _ hk]
    ring
  rw [variance, variance, dof_scale hk]
  simp only [scale, hsq, ← mul_sub, mul_div_mul_left _ _ hk]

/-- The ordinary sample variance. -/
def sampleVariance (v : List K) : K :=
  (v.map fun x => (x - v.sum / v.length) ^ 2).sum / (v.length - 1)

/-- With unit weights the variance is the sample variance. -/
theorem variance_of_unit [CharZero K] {ι : Type*} {l : List ι} {w x : ι → K} (hw : ∀ i ∈ l, w i = 1) :
    (ofList l w x).variance = sampleVariance (l.map x) := by
  have hsum : ∀ y : ι → K, weightedSum l w y = (l.map y).sum := fun y => by
    rw [weightedSum, List.map_congr_left fun i hi => by rw [hw i hi, one_mul]]
  have htotal : totalWeight l w = l.length := by
    rw [totalWeight, List.map_congr_left hw]
    simp
  have hsqrd : (totalWeight l fun i => w i * w i) = l.length := by
    rw [← htotal, totalWeight, totalWeight, List.map_congr_left fun i hi => by rw [hw i hi, one_mul]]
    exact congrArg List.sum (List.map_congr_left fun i hi => (hw i hi).symm)
  rcases eq_or_ne l [] with rfl | hl
  · simp [variance, ofList, sampleVariance, weightedSum, totalWeight]
  · have hn : (l.length : K) ≠ 0 := Nat.cast_ne_zero.mpr (List.length_pos_iff.mpr hl).ne'
    have hdev := weightedSum_sq_sub (x := x) (htotal ▸ hn : totalWeight l w ≠ 0)
    rw [variance, dof]
    simp only [ofList]
    rw [← hdev, htotal, hsqrd, hsum, hsum, div_self hn, sampleVariance, List.map_map, List.length_map]
    rfl

variable [LinearOrder K]

/-- `ciFromMoments` of the moments, centred on `mean`. -/
def ci (sqrt : K → K) (mean : K) (m : Moments K) : Option K × Option K :=
  ciFromMoments sqrt mean m.sumWx m.sumWx2 m.sumW m.sumWsqrd m.n

/-- Half the width of the interval. -/
def half (sqrt : K → K) (m : Moments K) : K := z95 * sqrt (if m.variance < 0 then 0 else m.variance) / sqrt m.n

theorem ci_eq (sqrt : K → K) (mean : K) (m : Moments K) :
    m.ci sqrt mean =
      if m.n < 2 ∨ m.sumW ≤ 0 ∨ m.dof ≤ 0 then (none, none)
      else (some (mean - m.half sqrt), some (mean + m.half sqrt)) := by
  rw [ci, ciFromMoments]
  by_cases hsum : m.n < 2 ∨ m.sumW ≤ 0
  · rw [if_pos hsum, if_pos (or_assoc.mp (.inl hsum))]
  · rw [if_neg hsum]
    by_cases hdof : m.dof ≤ 0
    · have hstop : m.n < 2 ∨ m.sumW ≤ 0 ∨ m.dof ≤ 0 := .inr (.inr hdof)
      rw [if_pos hstop]
      exact if_pos hdof
    · have hpass : ¬ (m.n < 2 ∨ m.sumW ≤ 0 ∨ m.dof ≤ 0) := fun h => (or_assoc.mpr h).elim hsum hdof
      rw [if_neg hpass]
      exact if_neg hdof

variable [IsStrictOrderedRing K]

/-- A common factor of the weights does not change the interval. -/
theorem ci_scale {k : K} (hk : 0 < k) (sqrt : K → K) (mean : K) (m : Moments K) :
    (m.scale k).ci sqrt mean = m.ci sqrt mean := by
  have hhalf : (m.scale k).half sqrt = m.half sqrt := by
    simp only [half, variance_scale hk.ne']
    rfl
  have hsign : ∀ x : K, k * x ≤ 0 ↔ x ≤ 0 := fun x =>
    ⟨fun h => nonpos_of_mul_nonpos_right h hk, fun h => mul_nonpos_of_nonneg_of_nonpos hk.le h⟩
  have hsum : (m.scale k).sumW ≤ 0 ↔ m.sumW ≤ 0 := hsign _
  have hdof : (m.scale k).dof ≤ 0 ↔ m.dof ≤ 0 := by
    rw [dof_scale hk.ne']
    exact hsign _
  rw [ci_eq, ci_eq, hhalf]
  simp only [hsum, hdof]
  rfl

/-- The interval is there exactly with two pairs, and the guards turn nothing away. -/
structure Regular (m : Moments K) : Prop where
  interval : ∀ (sqrt : K → K) (mean : K),
    ((m.ci sqrt mean).1.isSome = true ↔ 2 ≤ m.n) ∧ ((m.ci sqrt mean).2.isSome = true ↔ 2 ≤ m.n)
  dof : 2 ≤ m.n → 0 < m.dof
  variance : 2 ≤ m.n → 0 ≤ m.variance

/-- **Positive weights are regular.** -/
theorem ofList_regular {ι : Type*} {l : List ι} {w x : ι → K} (hw : ∀ i ∈ l, 0 < w i) : (ofList l w x).Regular := by
  have hW : 2 ≤ l.length → 0 < totalWeight l w := fun hn =>
    totalWeight_pos hw (List.ne_nil_of_length_pos (by omega))
  have hdof : 2 ≤ l.length → 0 < (ofList l w x).dof := by
    intro hn
    rw [Moments.dof, sub_pos]
    simp only [ofList]
    rw [div_lt_iff₀ (hW hn)]
    exact totalWeight_sq_lt hw hn
  refine ⟨fun sqrt mean => ?_, hdof, fun hn => ?_⟩
  · by_cases hn : 2 ≤ l.length
    · have hpass : ¬ ((ofList l w x).n < 2 ∨ (ofList l w x).sumW ≤ 0 ∨ (ofList l w x).dof ≤ 0) :=
        not_or.mpr ⟨not_lt.mpr hn, not_or.mpr ⟨not_le.mpr (hW hn), not_le.mpr (hdof hn)⟩⟩
      rw [ci_eq, if_neg hpass]
      exact ⟨⟨fun _ => hn, fun _ => rfl⟩, ⟨fun _ => hn, fun _ => rfl⟩⟩
    · have hstop : (ofList l w x).n < 2 ∨ (ofList l w x).sumW ≤ 0 ∨ (ofList l w x).dof ≤ 0 := .inl (not_le.mp hn)
      rw [ci_eq, if_pos hstop]
      exact ⟨⟨fun h => by simp at h, fun h => absurd h hn⟩, ⟨fun h => by simp at h, fun h => absurd h hn⟩⟩
  · have hl : l ≠ [] := List.ne_nil_of_length_pos (lt_of_lt_of_le zero_lt_two hn)
    exact div_nonneg (sub_nonneg.mpr (sq_weightedSum_le hw hl)) (hdof hn).le

/-- The interval is around the mean. -/
theorem mem_ci {sqrt : K → K} (hsqrt : ∀ x, 0 ≤ sqrt x) {mean lo : K} {m : Moments K}
    (h : (m.ci sqrt mean).1 = some lo) : lo ≤ mean ∧ ∃ hi, (m.ci sqrt mean).2 = some hi ∧ mean ≤ hi := by
  have hhalf : 0 ≤ m.half sqrt := by
    refine div_nonneg (mul_nonneg ?_ (hsqrt _)) (hsqrt _)
    norm_num [z95]
  rw [ci_eq] at h ⊢
  split_ifs at h ⊢
  cases h
  exact ⟨by linarith, _, rfl, by linarith⟩

end Moments

section Accumulators

variable [LinearOrder K]

/-- The moments of the absolute errors. -/
def Continuous.absMoments (c : Continuous K) : Moments K :=
  ⟨c.sumWeightAbs, c.sumWeightSq, c.sumWeight, c.sumWeightSqrd, c.n⟩

/-- The moments of the errors. -/
def Continuous.errMoments (c : Continuous K) : Moments K :=
  ⟨c.sumWeightErr, c.sumWeightSq, c.sumWeight, c.sumWeightSqrd, c.n⟩

/-- The moments of the squared probability errors. -/
def Brier.moments (b : Brier K) : Moments K :=
  ⟨b.sumWeightSq, b.sumWeightQuad, b.sumWeight, b.sumWeightSqrd, b.n⟩

theorem Continuous.absMoments_ofList (l : List (K × K × K)) :
    (ofList l).absMoments = .ofList l weightOf fun p => |errorOf p| := by
  simp only [absMoments, Moments.ofList, ofList_eq, sq_abs]

theorem Continuous.errMoments_ofList (l : List (K × K × K)) :
    (ofList l).errMoments = .ofList l weightOf errorOf := by
  simp only [errMoments, Moments.ofList, ofList_eq]

omit [LinearOrder K] in
theorem Brier.moments_ofList (l : List (K × Bool × K)) : (ofList l).moments = .ofList l weightOf errorSq := by
  simp only [moments, Moments.ofList, ofList_eq]

theorem Continuous.absMoments_scale (k : K) (l : List (K × K × K)) :
    (ofList (scaleWeights k l)).absMoments = (ofList l).absMoments.scale k := by
  rw [absMoments, ofList_scale]
  rfl

theorem Continuous.errMoments_scale (k : K) (l : List (K × K × K)) :
    (ofList (scaleWeights k l)).errMoments = (ofList l).errMoments.scale k := by
  rw [errMoments, ofList_scale]
  rfl

omit [LinearOrder K] in
theorem Brier.moments_scale (k : K) (l : List (K × Bool × K)) :
    (ofList (scaleWeights k l)).moments = (ofList l).moments.scale k := by
  rw [moments_ofList, moments_ofList, Moments.ofList, totalWeight_scaleWeights, totalWeight_sq_scaleWeights,
    weightedSum_scaleWeights k l fun _ => rfl, weightedSum_scaleWeights k l fun _ => rfl, scaleWeights,
    List.length_map]
  rfl

/-- An interval around a metric, absent when the metric is. -/
theorem centredCI_eq (sqrt : K → K) (v : Option K) (m : Moments K) :
    centredCI sqrt v m.sumWx m.sumWx2 m.sumW m.sumWsqrd m.n = v.elim (none, none) fun x => m.ci sqrt x := by
  cases v <;> rfl

theorem Continuous.maeCI_eq (sqrt : K → K) (c : Continuous K) :
    c.maeCI sqrt = c.mae.elim (none, none) fun x => c.absMoments.ci sqrt x :=
  centredCI_eq sqrt c.mae c.absMoments

theorem Continuous.rmseCI_eq (sqrt : K → K) (c : Continuous K) :
    c.rmseCI sqrt = (c.rmse sqrt).elim (none, none) fun x => c.absMoments.ci sqrt x :=
  centredCI_eq sqrt (c.rmse sqrt) c.absMoments

theorem Continuous.biasCI_eq (sqrt : K → K) (c : Continuous K) :
    c.biasCI sqrt = c.bias.elim (none, none) fun x => c.errMoments.ci sqrt x :=
  centredCI_eq sqrt c.bias c.errMoments

theorem Brier.scoreCI_eq (sqrt : K → K) (b : Brier K) :
    b.scoreCI sqrt = b.score.elim (none, none) fun x => b.moments.ci sqrt x :=
  centredCI_eq sqrt b.score b.moments

theorem Brier.score_scale {k : K} (hk : k ≠ 0) (l : List (K × Bool × K)) :
    (ofList (scaleWeights k l)).score = (ofList l).score := by
  have hmoments := moments_scale k l
  simp only [moments, Moments.scale, Moments.mk.injEq] at hmoments
  simp [score, hmoments.1, hmoments.2.2.1, hk, mul_div_mul_left]

variable [IsStrictOrderedRing K]

theorem Continuous.maeCI_scale {k : K} (hk : 0 < k) (sqrt : K → K) (l : List (K × K × K)) :
    (ofList (scaleWeights k l)).maeCI sqrt = (ofList l).maeCI sqrt := by
  simp only [maeCI_eq, mae_scale hk.ne', absMoments_scale, Moments.ci_scale hk]

theorem Continuous.rmseCI_scale {k : K} (hk : 0 < k) (sqrt : K → K) (l : List (K × K × K)) :
    (ofList (scaleWeights k l)).rmseCI sqrt = (ofList l).rmseCI sqrt := by
  simp only [rmseCI_eq, rmse_scale hk.ne', absMoments_scale, Moments.ci_scale hk]

theorem Continuous.biasCI_scale {k : K} (hk : 0 < k) (sqrt : K → K) (l : List (K × K × K)) :
    (ofList (scaleWeights k l)).biasCI sqrt = (ofList l).biasCI sqrt := by
  simp only [biasCI_eq, bias_scale hk.ne', errMoments_scale, Moments.ci_scale hk]

theorem Brier.scoreCI_scale {k : K} (hk : 0 < k) (sqrt : K → K) (l : List (K × Bool × K)) :
    (ofList (scaleWeights k l)).scoreCI sqrt = (ofList l).scoreCI sqrt := by
  simp only [scoreCI_eq, score_scale hk.ne', moments_scale, Moments.ci_scale hk]

end Accumulators

/-- **The intervals of any pairs with positive weights**, `l` for the errors and `b` for the
probabilities: they are there exactly with two pairs, then with a positive number of degrees of
freedom and a variance that is not negative; a common factor of the weights changes nothing; and
with unit weights the variance is the sample variance. -/
theorem intervals_agree {l : List (ℝ × ℝ × ℝ)} {b : List (ℝ × Bool × ℝ)} (hl : ∀ p ∈ l, 0 < p.2.2)
    (hb : ∀ p ∈ b, 0 < p.2.2) :
    ((Continuous.ofList l).absMoments.Regular ∧ (Continuous.ofList l).errMoments.Regular ∧
        (Brier.ofList b).moments.Regular) ∧
      ((Continuous.ofList l).absMoments.n = l.length ∧ (Continuous.ofList l).errMoments.n = l.length ∧
        (Brier.ofList b).moments.n = b.length) ∧
      (∀ k, 0 < k →
        (Continuous.ofList (scaleWeights k l)).absMoments.variance = (Continuous.ofList l).absMoments.variance ∧
        (Continuous.ofList (scaleWeights k l)).errMoments.variance = (Continuous.ofList l).errMoments.variance ∧
        (Brier.ofList (scaleWeights k b)).moments.variance = (Brier.ofList b).moments.variance ∧
        (Continuous.ofList (scaleWeights k l)).maeCI Real.sqrt = (Continuous.ofList l).maeCI Real.sqrt ∧
        (Continuous.ofList (scaleWeights k l)).rmseCI Real.sqrt = (Continuous.ofList l).rmseCI Real.sqrt ∧
        (Continuous.ofList (scaleWeights k l)).biasCI Real.sqrt = (Continuous.ofList l).biasCI Real.sqrt ∧
        (Brier.ofList (scaleWeights k b)).scoreCI Real.sqrt = (Brier.ofList b).scoreCI Real.sqrt) ∧
      ((∀ p ∈ l, p.2.2 = 1) →
        (Continuous.ofList l).absMoments.variance = Moments.sampleVariance (l.map fun p => |errorOf p|) ∧
        (Continuous.ofList l).errMoments.variance = Moments.sampleVariance (l.map errorOf)) ∧
      ((∀ p ∈ b, p.2.2 = 1) →
        (Brier.ofList b).moments.variance = Moments.sampleVariance (b.map Brier.errorSq)) := by
  refine ⟨?_, ?_, fun k hk => ?_, fun hunit => ?_, fun hunit => ?_⟩
  · rw [Continuous.absMoments_ofList, Continuous.errMoments_ofList, Brier.moments_ofList]
    exact ⟨Moments.ofList_regular hl, Moments.ofList_regular hl, Moments.ofList_regular hb⟩
  · rw [Continuous.absMoments_ofList, Continuous.errMoments_ofList, Brier.moments_ofList]
    exact ⟨rfl, rfl, rfl⟩
  · refine ⟨?_, ?_, ?_, Continuous.maeCI_scale hk _ l, Continuous.rmseCI_scale hk _ l, Continuous.biasCI_scale hk _ l,
      Brier.scoreCI_scale hk _ b⟩
    · rw [Continuous.absMoments_scale, Moments.variance_scale hk.ne']
    · rw [Continuous.errMoments_scale, Moments.variance_scale hk.ne']
    · rw [Brier.moments_scale, Moments.variance_scale hk.ne']
  · rw [Continuous.absMoments_ofList, Continuous.errMoments_ofList]
    exact ⟨Moments.variance_of_unit hunit, Moments.variance_of_unit hunit⟩
  · rw [Brier.moments_ofList]
    exact Moments.variance_of_unit hunit

/-- Two pairs with unit weights have an interval around their bias, from the sample variance of
their errors. -/
theorem intervals_agree_two :
    (∀ p ∈ ([(1, 0, 1), (0, 1, 1)] : List (ℝ × ℝ × ℝ)), 0 < p.2.2) ∧
      (∀ mean, ((Continuous.ofList [(1, 0, 1), (0, 1, 1)]).errMoments.ci Real.sqrt mean).1.isSome = true) ∧
      (Continuous.ofList [(1, 0, 1), (0, 1, 1)]).errMoments.variance = Moments.sampleVariance [(1 : ℝ), -1] := by
  have hl : ∀ p ∈ ([(1, 0, 1), (0, 1, 1)] : List (ℝ × ℝ × ℝ)), 0 < p.2.2 := by simp
  obtain ⟨⟨-, hreg, -⟩, ⟨-, hn, -⟩, -, hunit, -⟩ := intervals_agree (b := []) hl (by simp)
  refine ⟨hl, fun mean => (hreg.interval Real.sqrt mean).1.mpr (by rw [hn]; rfl), ?_⟩
  rw [(hunit (by simp)).2]
  simp [errorOf]

/-! ### The Wilson interval -/

section Wilson

variable [LinearOrder K]

/-- The factor both bounds are divided by. -/
def wilsonDenom (n : K) : K := 1 + z95 * z95 / n

/-- The centre of the interval, times the factor. -/
def wilsonCenter (pHat n : K) : K := pHat + z95 * z95 / (2 * n)

/-- Half the width of the interval, times the factor. -/
def wilsonMargin (sqrt : K → K) (pHat n : K) : K :=
  z95 * sqrt (pHat * (1 - pHat) / n + z95 * z95 / (4 * n * n))

/-- The bounds of `Wilson` before any of its clamps. -/
def wilsonBounds (sqrt : K → K) (pHat n : K) : K × K :=
  (wilsonCenter pHat n / wilsonDenom n - wilsonMargin sqrt pHat n / wilsonDenom n,
    wilsonCenter pHat n / wilsonDenom n + wilsonMargin sqrt pHat n / wilsonDenom n)

/-- The last two clamps put the interval around the proportion. -/
theorem mem_wilson (sqrt : K → K) (pHat : K) {n : K} (hn : 0 < n) :
    (wilson sqrt pHat n).1 ≤ pHat ∧ pHat ≤ (wilson sqrt pHat n).2 := by
  have hlower : ∀ x : K, (if pHat < x then pHat else x) ≤ pHat := by
    intro x
    split_ifs with hlt
    · exact le_rfl
    · exact not_lt.mp hlt
  have hupper : ∀ x : K, pHat ≤ if x < pHat then pHat else x := by
    intro x
    split_ifs with hlt
    · exact le_rfl
    · exact not_lt.mp hlt
  rw [wilson, if_neg (not_le.mpr hn)]
  exact ⟨hlower _, hupper _⟩

/-- Bounds that are in order already are not clamped. -/
theorem wilson_eq_bounds {sqrt : K → K} {pHat n : K} (hn : 0 < n) (h0 : 0 ≤ (wilsonBounds sqrt pHat n).1)
    (hl : (wilsonBounds sqrt pHat n).1 ≤ pHat) (hu : pHat ≤ (wilsonBounds sqrt pHat n).2)
    (h1 : (wilsonBounds sqrt pHat n).2 ≤ 1) : wilson sqrt pHat n = wilsonBounds sqrt pHat n := by
  simp only [wilsonBounds, wilsonDenom, wilsonCenter, wilsonMargin] at h0 hl hu h1 ⊢
  simp only [wilson, if_neg (not_le.mpr hn), if_neg (not_lt.mpr h0), if_neg (not_lt.mpr h1), if_neg (not_lt.mpr hl),
    if_neg (not_lt.mpr hu)]

end Wilson

section WilsonReal

variable {p n : ℝ} (hp0 : 0 ≤ p) (hp1 : p ≤ 1) (hn : 0 < n)

theorem z95_pos : (0 : ℝ) < z95 := by norm_num [z95]

theorem wilsonMargin_nonneg (p n : ℝ) : 0 ≤ wilsonMargin Real.sqrt p n := mul_nonneg z95_pos.le (Real.sqrt_nonneg _)

include hn

theorem wilsonDenom_pos : 0 < wilsonDenom n := by
  have hz := z95_pos
  unfold wilsonDenom
  positivity

/-- Both halves of the interval change places with the proportion. -/
theorem wilsonBounds_mirror :
    wilsonBounds Real.sqrt (1 - p) n = (1 - (wilsonBounds Real.sqrt p n).2, 1 - (wilsonBounds Real.sqrt p n).1) := by
  have hD := (wilsonDenom_pos hn).ne'
  have hcenter : wilsonCenter (1 - p) n = wilsonDenom n - wilsonCenter p n := by
    simp only [wilsonCenter, wilsonDenom]
    field_simp
    ring
  have hmargin : wilsonMargin Real.sqrt (1 - p) n = wilsonMargin Real.sqrt p n := by
    rw [wilsonMargin, wilsonMargin, sub_sub_cancel, mul_comm (1 - p) p]
  simp only [wilsonBounds, hcenter, hmargin, sub_div, div_self hD, Prod.mk.injEq]
  constructor <;> ring

include hp0

theorem wilsonCenter_pos : 0 < wilsonCenter p n := by
  have hz := z95_pos
  unfold wilsonCenter
  positivity

include hp1

theorem wilsonMargin_sq :
    wilsonMargin Real.sqrt p n ^ 2 = z95 ^ 2 * (p * (1 - p) / n + z95 * z95 / (4 * n * n)) := by
  have hz := z95_pos
  have hq : 0 ≤ 1 - p := sub_nonneg.mpr hp1
  rw [wilsonMargin, mul_pow, Real.sq_sqrt (by positivity)]

/-- The centre exceeds the margin, by squares. -/
theorem wilson_lower_sq : wilsonCenter p n ^ 2 - wilsonMargin Real.sqrt p n ^ 2 = p ^ 2 * wilsonDenom n := by
  rw [wilsonMargin_sq hp0 hp1 hn, wilsonCenter, wilsonDenom]
  field_simp
  ring

/-- The margin exceeds the distance from the centre to the proportion, by squares. -/
theorem wilson_bracket_sq :
    wilsonMargin Real.sqrt p n ^ 2 - (wilsonCenter p n - p * wilsonDenom n) ^ 2 =
      z95 * z95 / n * (p * (1 - p)) * wilsonDenom n := by
  rw [wilsonMargin_sq hp0 hp1 hn, wilsonCenter, wilsonDenom]
  field_simp
  ring

theorem wilsonMargin_le_center : wilsonMargin Real.sqrt p n ≤ wilsonCenter p n := by
  have hsq := wilson_lower_sq hp0 hp1 hn
  have hdiff : 0 ≤ p ^ 2 * wilsonDenom n := mul_nonneg (sq_nonneg p) (wilsonDenom_pos hn).le
  exact abs_le_of_sq_le_sq' (by linarith) (wilsonCenter_pos hp0 hn).le |>.2

theorem wilson_lower_nonneg : 0 ≤ (wilsonBounds Real.sqrt p n).1 := by
  rw [wilsonBounds, ← sub_div]
  exact div_nonneg (sub_nonneg.mpr (wilsonMargin_le_center hp0 hp1 hn)) (wilsonDenom_pos hn).le

theorem wilson_lower_eq_zero_iff : (wilsonBounds Real.sqrt p n).1 = 0 ↔ p = 0 := by
  have hD := wilsonDenom_pos hn
  have hsq := wilson_lower_sq hp0 hp1 hn
  rw [wilsonBounds, ← sub_div, div_eq_zero_iff, or_iff_left hD.ne', sub_eq_zero]
  constructor
  · intro h
    rw [h, sub_self, eq_comm, mul_eq_zero, or_iff_left hD.ne'] at hsq
    exact pow_eq_zero_iff two_ne_zero |>.mp hsq
  · rintro rfl
    rw [zero_pow two_ne_zero, zero_mul, sub_eq_zero] at hsq
    exact (pow_left_inj₀ (wilsonCenter_pos hp0 hn).le (wilsonMargin_nonneg 0 n) two_ne_zero).mp hsq

/-- The proportion is no further from the centre than the margin. -/
theorem abs_center_sub_le : |wilsonCenter p n - p * wilsonDenom n| ≤ wilsonMargin Real.sqrt p n := by
  have hz := z95_pos
  have hD := wilsonDenom_pos hn
  have hq : 0 ≤ 1 - p := sub_nonneg.mpr hp1
  have hsq := wilson_bracket_sq hp0 hp1 hn
  have hdiff : 0 ≤ z95 * z95 / n * (p * (1 - p)) * wilsonDenom n := by positivity
  exact abs_le_of_sq_le_sq (by linarith) (wilsonMargin_nonneg p n)

theorem wilson_lower_le : (wilsonBounds Real.sqrt p n).1 ≤ p := by
  have hle := (abs_le.mp (abs_center_sub_le hp0 hp1 hn)).2
  rw [wilsonBounds, ← sub_div, div_le_iff₀ (wilsonDenom_pos hn)]
  linarith

theorem le_wilson_upper : p ≤ (wilsonBounds Real.sqrt p n).2 := by
  have hle := (abs_le.mp (abs_center_sub_le hp0 hp1 hn)).1
  rw [wilsonBounds, ← add_div, le_div_iff₀ (wilsonDenom_pos hn)]
  linarith

/-- **The Wilson interval over the reals**: the bounds lie in order around the proportion without
any clamp, reach the ends only with it, and mirror with it. -/
theorem wilson_unclamped :
    0 ≤ (wilsonBounds Real.sqrt p n).1 ∧ (wilsonBounds Real.sqrt p n).1 ≤ p ∧ p ≤ (wilsonBounds Real.sqrt p n).2 ∧
      (wilsonBounds Real.sqrt p n).2 ≤ 1 ∧ wilson Real.sqrt p n = wilsonBounds Real.sqrt p n ∧
      ((wilsonBounds Real.sqrt p n).1 = 0 ↔ p = 0) ∧ ((wilsonBounds Real.sqrt p n).2 = 1 ↔ p = 1) ∧
      wilson Real.sqrt (1 - p) n = (1 - (wilson Real.sqrt p n).2, 1 - (wilson Real.sqrt p n).1) := by
  -- the upper bound is the lower one of the mirrored proportion
  have hupper : ∀ {q : ℝ}, 0 ≤ q → q ≤ 1 → (wilsonBounds Real.sqrt q n).2 ≤ 1 := by
    intro q hq0 hq1
    have hlower := wilson_lower_nonneg (sub_nonneg.mpr hq1) (sub_le_self 1 hq0) hn
    rw [wilsonBounds_mirror hn] at hlower
    linarith
  have hbounds : ∀ {q : ℝ}, 0 ≤ q → q ≤ 1 → wilson Real.sqrt q n = wilsonBounds Real.sqrt q n := fun hq0 hq1 =>
    wilson_eq_bounds hn (wilson_lower_nonneg hq0 hq1 hn) (wilson_lower_le hq0 hq1 hn) (le_wilson_upper hq0 hq1 hn)
      (hupper hq0 hq1)
  refine ⟨wilson_lower_nonneg hp0 hp1 hn, wilson_lower_le hp0 hp1 hn, le_wilson_upper hp0 hp1 hn, hupper hp0 hp1,
    hbounds hp0 hp1, wilson_lower_eq_zero_iff hp0 hp1 hn, ?_, ?_⟩
  · have hzero := wilson_lower_eq_zero_iff (sub_nonneg.mpr hp1) (sub_le_self 1 hp0) hn
    rw [wilsonBounds_mirror hn, sub_eq_zero, sub_eq_zero] at hzero
    rw [eq_comm, hzero, eq_comm]
  · rw [hbounds hp0 hp1, hbounds (sub_nonneg.mpr hp1) (sub_le_self 1 hp0), wilsonBounds_mirror hn]

end WilsonReal

/-- One success in two: the interval is around one half and reaches neither end. -/
theorem wilson_unclamped_half :
    (0 : ℝ) ≤ 1 / 2 ∧ (wilson Real.sqrt (1 / 2) 2).1 ≤ 1 / 2 ∧ (wilson Real.sqrt (1 / 2) 2).1 ≠ 0 ∧
      (wilson Real.sqrt (1 / 2) 2).2 ≠ 1 := by
  have h0 : (0 : ℝ) ≤ 1 / 2 := by norm_num
  obtain ⟨-, hle, -, -, heq, hzero, hone, -⟩ := wilson_unclamped h0 (by norm_num) (zero_lt_two (α := ℝ))
  rw [heq, ne_eq, hzero, ne_eq, hone]
  exact ⟨h0, hle, by norm_num, by norm_num⟩

end ForecastIQ.Analysis.Eval
