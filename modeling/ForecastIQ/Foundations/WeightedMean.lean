import Mathlib.Algebra.BigOperators.Group.List.Basic
import Mathlib.Algebra.Order.BigOperators.Group.List
import Mathlib.Algebra.Order.Field.Basic
import Mathlib.Algebra.BigOperators.Ring.List

/-!
# Weighted means

The mean of the values of the items of a list, each with a share in proportion to its
weight. With positive weights the shares sum to one as soon as there is an item
(`sum_shares`), the mean of values between zero and one is between zero and one, and it
grows with the values (`weightedMean_mono`).
-/

namespace ForecastIQ.Foundations

variable {ι K : Type*} [Field K]

/-- The total weight of the items. -/
def totalWeight (l : List ι) (w : ι → K) : K := (l.map w).sum

/-- The share of an item in the total weight. -/
def shareOf (l : List ι) (w : ι → K) (i : ι) : K := w i / totalWeight l w

/-- The mean of the values, weighted by the shares. -/
def weightedMean (l : List ι) (w x : ι → K) : K := (l.map fun i => shareOf l w i * x i).sum

theorem sum_shares {l : List ι} {w : ι → K} (h : totalWeight l w ≠ 0) : (l.map (shareOf l w)).sum = 1 := by
  have hfun : shareOf l w = fun i => w i * (totalWeight l w)⁻¹ := funext fun i => div_eq_mul_inv _ _
  rw [hfun, List.sum_map_mul_right]
  exact mul_inv_cancel₀ h

section Ordered

variable [LinearOrder K] [IsStrictOrderedRing K]

theorem totalWeight_pos {l : List ι} {w : ι → K} (hw : ∀ i ∈ l, 0 < w i) (hl : l ≠ []) : 0 < totalWeight l w := by
  refine List.sum_pos (l.map w) ?_ (by simpa using hl)
  intro y hy
  obtain ⟨i, hi, rfl⟩ := List.mem_map.mp hy
  exact hw i hi

theorem shareOf_nonneg {l : List ι} {w : ι → K} (hw : ∀ i ∈ l, 0 < w i) {i : ι} (hi : i ∈ l) :
    0 ≤ shareOf l w i :=
  div_nonneg (hw i hi).le (totalWeight_pos hw (List.ne_nil_of_mem hi)).le

/-- The mean grows with the values. -/
theorem weightedMean_mono {l : List ι} {w x y : ι → K} (hw : ∀ i ∈ l, 0 < w i) (h : ∀ i ∈ l, x i ≤ y i) :
    weightedMean l w x ≤ weightedMean l w y :=
  List.sum_le_sum fun i hi => mul_le_mul_of_nonneg_left (h i hi) (shareOf_nonneg hw hi)

theorem weightedMean_nonneg {l : List ι} {w x : ι → K} (hw : ∀ i ∈ l, 0 < w i) (h : ∀ i ∈ l, 0 ≤ x i) :
    0 ≤ weightedMean l w x := by
  refine List.sum_nonneg fun y hy => ?_
  obtain ⟨i, hi, rfl⟩ := List.mem_map.mp hy
  exact mul_nonneg (shareOf_nonneg hw hi) (h i hi)

theorem weightedMean_le_one {l : List ι} {w x : ι → K} (hw : ∀ i ∈ l, 0 < w i) (h : ∀ i ∈ l, x i ≤ 1) :
    weightedMean l w x ≤ 1 := by
  rcases eq_or_ne l [] with rfl | hl
  · exact zero_le_one
  · calc weightedMean l w x ≤ weightedMean l w fun _ => 1 := weightedMean_mono hw h
      _ = (l.map (shareOf l w)).sum := by simp only [weightedMean, mul_one]
      _ = 1 := sum_shares (totalWeight_pos hw hl).ne'

end Ordered

end ForecastIQ.Foundations
