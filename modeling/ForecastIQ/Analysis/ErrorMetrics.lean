import ForecastIQ.Analysis.Eval
import Mathlib.Analysis.Real.Sqrt

/-!
# The error metrics of a continuous variable

`MAE`, `RMSE` and `Bias` of `Continuous`, over the reals, for pairs with positive weights.
They are the weighted means of `|e|`, `e²` and `e` (the second one under a root), so the
inequalities between them and their cases of equality are those of weighted sums. The
accumulator is the same in every order of the pairs (`Continuous.ofList_perm`), and a
factor of all weights cancels in each mean (`Continuous.ofList_scale`).
-/

namespace ForecastIQ.Analysis.Eval

open ForecastIQ.Foundations

variable {K : Type*} [Field K]

/-- All weights multiplied by one factor. -/
def scaleWeights {α β : Type*} (k : K) (l : List (α × β × K)) : List (α × β × K) :=
  l.map fun p => (p.1, p.2.1, k * p.2.2)

theorem weightedSum_scaleWeights {α β : Type*} (k : K) (l : List (α × β × K)) {x : α × β × K → K}
    (hx : ∀ p, x (p.1, p.2.1, k * p.2.2) = x p) :
    weightedSum (scaleWeights k l) weightOf x = k * weightedSum l weightOf x := by
  rw [← weightedSum_mul_left, weightedSum, weightedSum, scaleWeights, List.map_map]
  congr 1
  refine List.map_congr_left fun p _ => ?_
  simp only [Function.comp, hx, weightOf]

theorem totalWeight_scaleWeights {α β : Type*} (k : K) (l : List (α × β × K)) :
    totalWeight (scaleWeights k l) weightOf = k * totalWeight l weightOf := by
  rw [← weightedSum_one, ← weightedSum_one, weightedSum_scaleWeights k l fun _ => rfl]

theorem totalWeight_sq_scaleWeights {α β : Type*} (k : K) (l : List (α × β × K)) :
    totalWeight (scaleWeights k l) (fun p => weightOf p * weightOf p) =
      k * k * totalWeight l (fun p => weightOf p * weightOf p) := by
  rw [← totalWeight_mul_left, totalWeight, totalWeight, scaleWeights, List.map_map]
  congr 1
  refine List.map_congr_left fun p _ => ?_
  simp only [Function.comp, weightOf]
  ring

variable [LinearOrder K]

namespace Continuous

/-- The accumulator does not depend on the order of the pairs. -/
theorem ofList_perm {l l' : List (K × K × K)} (h : l'.Perm l) : ofList l' = ofList l := by
  rw [ofList_eq, ofList_eq, totalWeight_perm h, totalWeight_perm h, weightedSum_perm h, weightedSum_perm h,
    weightedSum_perm h, h.length_eq]

/-- A factor of all weights is a factor of all sums. -/
theorem ofList_scale (k : K) (l : List (K × K × K)) :
    ofList (scaleWeights k l) =
      { sumWeight := k * (ofList l).sumWeight
        sumWeightSqrd := k * k * (ofList l).sumWeightSqrd
        sumWeightAbs := k * (ofList l).sumWeightAbs
        sumWeightErr := k * (ofList l).sumWeightErr
        sumWeightSq := k * (ofList l).sumWeightSq
        n := (ofList l).n } := by
  rw [ofList_eq, ofList_eq, totalWeight_scaleWeights, totalWeight_sq_scaleWeights,
    weightedSum_scaleWeights k l fun _ => rfl, weightedSum_scaleWeights k l fun _ => rfl,
    weightedSum_scaleWeights k l fun _ => rfl, scaleWeights, List.length_map]

section Scale

variable {k : K} (hk : k ≠ 0) (l : List (K × K × K))

include hk

theorem mae_scale : (ofList (scaleWeights k l)).mae = (ofList l).mae := by
  simp [mae, ofList_scale, hk, mul_div_mul_left]

theorem rmse_scale (sqrt : K → K) : (ofList (scaleWeights k l)).rmse sqrt = (ofList l).rmse sqrt := by
  simp [rmse, ofList_scale, hk, mul_div_mul_left]

theorem bias_scale : (ofList (scaleWeights k l)).bias = (ofList l).bias := by
  simp [bias, ofList_scale, hk, mul_div_mul_left]

end Scale

section Positive

variable [IsStrictOrderedRing K] {l : List (K × K × K)} (hl : l ≠ []) (hw : ∀ p ∈ l, 0 < weightOf p)

include hl hw

theorem sumWeight_pos : 0 < (ofList l).sumWeight := by
  rw [ofList_eq]
  exact totalWeight_pos hw hl

theorem mae_eq : (ofList l).mae = some ((ofList l).sumWeightAbs / (ofList l).sumWeight) :=
  if_neg (sumWeight_pos hl hw).ne'

theorem rmse_eq (sqrt : K → K) : (ofList l).rmse sqrt = some (sqrt ((ofList l).sumWeightSq / (ofList l).sumWeight)) :=
  if_neg (sumWeight_pos hl hw).ne'

theorem bias_eq : (ofList l).bias = some ((ofList l).sumWeightErr / (ofList l).sumWeight) :=
  if_neg (sumWeight_pos hl hw).ne'

/-- `|Bias| ≤ MAE`. -/
theorem abs_bias_le :
    |(ofList l).sumWeightErr / (ofList l).sumWeight| ≤ (ofList l).sumWeightAbs / (ofList l).sumWeight := by
  have hW := sumWeight_pos hl hw
  rw [abs_div, abs_of_pos hW]
  refine div_le_div_of_nonneg_right ?_ hW.le
  rw [ofList_eq]
  exact abs_weightedSum_le hw

/-- `|Bias| = MAE` exactly when all errors have one sign. -/
theorem abs_bias_eq_iff :
    |(ofList l).sumWeightErr / (ofList l).sumWeight| = (ofList l).sumWeightAbs / (ofList l).sumWeight ↔
      (∀ p ∈ l, 0 ≤ errorOf p) ∨ ∀ p ∈ l, errorOf p ≤ 0 := by
  have hW := sumWeight_pos hl hw
  rw [abs_div, abs_of_pos hW, div_left_inj' hW.ne', ofList_eq]
  exact abs_weightedSum_eq_iff hw

/-- The square of `MAE`, over the total weight of the squares. -/
theorem mae_sq_eq :
    ((ofList l).sumWeightAbs / (ofList l).sumWeight) ^ 2 =
      (ofList l).sumWeightAbs * (ofList l).sumWeightAbs / (ofList l).sumWeight / (ofList l).sumWeight := by
  have hW := (sumWeight_pos hl hw).ne'
  field_simp

omit [IsStrictOrderedRing K] hl hw in
/-- The mean of the squared errors is that of the squared absolute errors. -/
theorem sumWeightSq_eq (l : List (K × K × K)) :
    (ofList l).sumWeightSq = weightedSum l weightOf fun p => |errorOf p| ^ 2 := by
  simp only [ofList_eq, sq_abs]

/-- `MAE² ≤ RMSE²`. -/
theorem mae_sq_le :
    ((ofList l).sumWeightAbs / (ofList l).sumWeight) ^ 2 ≤ (ofList l).sumWeightSq / (ofList l).sumWeight := by
  rw [mae_sq_eq hl hw]
  refine div_le_div_of_nonneg_right ?_ (sumWeight_pos hl hw).le
  rw [sumWeightSq_eq, ofList_eq]
  exact sq_weightedSum_le hw hl

/-- `MAE² = RMSE²` exactly when all absolute errors are equal. -/
theorem mae_sq_eq_iff :
    ((ofList l).sumWeightAbs / (ofList l).sumWeight) ^ 2 = (ofList l).sumWeightSq / (ofList l).sumWeight ↔
      ∀ p ∈ l, ∀ q ∈ l, |errorOf p| = |errorOf q| := by
  rw [mae_sq_eq hl hw, div_left_inj' (sumWeight_pos hl hw).ne', sumWeightSq_eq, ofList_eq]
  exact sq_weightedSum_eq_iff hw hl

theorem mae_nonneg : 0 ≤ (ofList l).sumWeightAbs / (ofList l).sumWeight := by
  refine div_nonneg ?_ (sumWeight_pos hl hw).le
  rw [ofList_eq]
  exact weightedSum_nonneg hw fun p _ => abs_nonneg _

end Positive

/-- **The error metrics of any pairs with positive weights**: the two inequalities with their cases
of equality, and that neither the order of the pairs nor a common factor of the weights matters. -/
theorem errors_agree {l : List (ℝ × ℝ × ℝ)} (hl : l ≠ []) (hw : ∀ p ∈ l, 0 < p.2.2) :
    (∃ mae rmse bias, (ofList l).mae = some mae ∧ (ofList l).rmse Real.sqrt = some rmse ∧
        (ofList l).bias = some bias ∧ |bias| ≤ mae ∧ mae ^ 2 ≤ rmse ^ 2 ∧
        (mae = rmse ↔ ∀ p ∈ l, ∀ q ∈ l, |errorOf p| = |errorOf q|) ∧
        (|bias| = mae ↔ (∀ p ∈ l, 0 ≤ errorOf p) ∨ ∀ p ∈ l, errorOf p ≤ 0)) ∧
      (∀ l', l'.Perm l → (ofList l').mae = (ofList l).mae ∧
        (ofList l').rmse Real.sqrt = (ofList l).rmse Real.sqrt ∧ (ofList l').bias = (ofList l).bias) ∧
      ∀ k, 0 < k → (ofList (scaleWeights k l)).mae = (ofList l).mae ∧
        (ofList (scaleWeights k l)).rmse Real.sqrt = (ofList l).rmse Real.sqrt ∧
        (ofList (scaleWeights k l)).bias = (ofList l).bias := by
  refine ⟨⟨_, _, _, mae_eq hl hw, rmse_eq hl hw Real.sqrt, bias_eq hl hw, abs_bias_le hl hw, ?_, ?_,
    abs_bias_eq_iff hl hw⟩, fun l' hl' => ?_, fun k hk => ?_⟩
  · have hle := mae_sq_le hl hw
    rwa [Real.sq_sqrt ((sq_nonneg _).trans hle)]
  · have hle := mae_sq_le hl hw
    rw [← mae_sq_eq_iff hl hw, eq_comm, Real.sqrt_eq_iff_mul_self_eq ((sq_nonneg _).trans hle) (mae_nonneg hl hw), sq,
      eq_comm]
  · rw [ofList_perm hl']
    exact ⟨rfl, rfl, rfl⟩
  · exact ⟨mae_scale hk.ne' l, rmse_scale hk.ne' l Real.sqrt, bias_scale hk.ne' l⟩

/-- Two pairs with the errors `1` and `-1`: the bias is smaller than the mean error, and the mean
error is the root of the mean square. -/
theorem errors_agree_opposite :
    (∀ p ∈ ([(1, 0, 1), (0, 1, 1)] : List (ℝ × ℝ × ℝ)), 0 < p.2.2) ∧
      ∃ mae rmse bias, (ofList ([(1, 0, 1), (0, 1, 1)] : List (ℝ × ℝ × ℝ))).mae = some mae ∧
        (ofList ([(1, 0, 1), (0, 1, 1)] : List (ℝ × ℝ × ℝ))).rmse Real.sqrt = some rmse ∧
        (ofList ([(1, 0, 1), (0, 1, 1)] : List (ℝ × ℝ × ℝ))).bias = some bias ∧ |bias| ≠ mae ∧ mae = rmse := by
  have hw : ∀ p ∈ ([(1, 0, 1), (0, 1, 1)] : List (ℝ × ℝ × ℝ)), 0 < p.2.2 := by simp
  obtain ⟨⟨mae, rmse, bias, hmae, hrmse, hbias, -, -, heq, hsign⟩, -⟩ := errors_agree (by simp) hw
  refine ⟨hw, mae, rmse, bias, hmae, hrmse, hbias, ?_, ?_⟩
  · rw [ne_eq, hsign]
    norm_num [errorOf]
  · rw [heq]
    norm_num [errorOf]

end Continuous

end ForecastIQ.Analysis.Eval
