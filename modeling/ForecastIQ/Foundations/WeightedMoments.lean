import ForecastIQ.Foundations.WeightedMean
import Mathlib.Tactic.FieldSimp
import Mathlib.Tactic.Linarith
import Mathlib.Tactic.Ring

/-!
# Weighted sums and their moments

The sums `Σ w x` over the items of a list, and what is computed from them: a mean, which lies
between the smallest and the largest value (`exists_le_mean`, `exists_mean_le`), the spread
around it, and the two inequalities between means. With positive weights the
absolute value of a mean is at most the mean of the absolute values, with equality exactly
when the values have one sign (`abs_weightedSum_eq_iff`); and the square of a mean is at
most the mean of the squares, with equality exactly when all values are equal
(`sq_weightedSum_eq_iff`). The second one is that the squared deviations from the mean,
which are not negative, sum to `Σ w x² - (Σ w x)² / Σ w` (`weightedSum_sq_sub`).

The squares of the weights sum to less than the square of their sum as soon as there are
two of them (`totalWeight_sq_lt`): the number of degrees of freedom is positive.
-/

namespace ForecastIQ.Foundations

variable {ι K : Type*} [Field K]

/-- The sum of the values, each with its weight. -/
def weightedSum (l : List ι) (w x : ι → K) : K := (l.map fun i => w i * x i).sum

@[simp] theorem weightedSum_cons (i : ι) (l : List ι) (w x : ι → K) :
    weightedSum (i :: l) w x = w i * x i + weightedSum l w x := by
  simp [weightedSum]

@[simp] theorem totalWeight_cons (i : ι) (l : List ι) (w : ι → K) :
    totalWeight (i :: l) w = w i + totalWeight l w := by
  simp [totalWeight]

/-- The order of the items does not matter. -/
theorem weightedSum_perm {l l' : List ι} (h : l.Perm l') (w x : ι → K) : weightedSum l w x = weightedSum l' w x :=
  (h.map _).sum_eq

theorem totalWeight_perm {l l' : List ι} (h : l.Perm l') (w : ι → K) : totalWeight l w = totalWeight l' w :=
  (h.map _).sum_eq

/-- A factor of all weights is a factor of the sum. -/
theorem weightedSum_mul_left (l : List ι) (c : K) (w x : ι → K) :
    weightedSum l (fun i => c * w i) x = c * weightedSum l w x := by
  simp only [weightedSum, mul_assoc, List.sum_map_mul_left]

theorem totalWeight_mul_left (l : List ι) (c : K) (w : ι → K) :
    totalWeight l (fun i => c * w i) = c * totalWeight l w := by
  simp only [totalWeight, List.sum_map_mul_left]

theorem weightedSum_one (l : List ι) (w : ι → K) : weightedSum l w (fun _ => 1) = totalWeight l w := by
  simp only [weightedSum, mul_one, totalWeight]

theorem weightedSum_add (l : List ι) (w x y : ι → K) :
    weightedSum l w (fun i => x i + y i) = weightedSum l w x + weightedSum l w y := by
  simp only [weightedSum, mul_add, List.sum_map_add]

theorem weightedSum_const_mul (l : List ι) (c : K) (w x : ι → K) :
    weightedSum l w (fun i => c * x i) = c * weightedSum l w x := by
  simp only [weightedSum, mul_left_comm _ c, List.sum_map_mul_left]

theorem weightedSum_congr {l : List ι} {w x y : ι → K} (h : ∀ i ∈ l, x i = y i) :
    weightedSum l w x = weightedSum l w y := by
  rw [weightedSum, weightedSum, List.map_congr_left fun i hi => by rw [h i hi]]

theorem weightedSum_neg (l : List ι) (w x : ι → K) : weightedSum l w (fun i => -x i) = -weightedSum l w x := by
  have hneg : (fun i => -x i) = fun i => -1 * x i := by
    funext i
    ring
  rw [hneg, weightedSum_const_mul, neg_one_mul]

/-- The deviations from the mean cancel. -/
theorem weightedSum_sub_mean {l : List ι} {w x : ι → K} (h : totalWeight l w ≠ 0) :
    weightedSum l w (fun i => x i + -(weightedSum l w x / totalWeight l w) * 1) = 0 := by
  rw [weightedSum_add, weightedSum_const_mul, weightedSum_one, neg_mul, div_mul_cancel₀ _ h, add_neg_cancel]

/-- **The squared deviations from the mean**: expand the squares and collect the sums. -/
theorem weightedSum_sq_sub {l : List ι} {w x : ι → K} (h : totalWeight l w ≠ 0) :
    weightedSum l w (fun i => (x i - weightedSum l w x / totalWeight l w) ^ 2) =
      weightedSum l w (fun i => x i ^ 2) - weightedSum l w x * weightedSum l w x / totalWeight l w := by
  generalize hm : weightedSum l w x / totalWeight l w = m
  have hexpand : (fun i => (x i - m) ^ 2) = fun i => x i ^ 2 + (-(2 * m) * x i + m ^ 2 * 1) := by
    funext i
    ring
  rw [hexpand, weightedSum_add, weightedSum_add, weightedSum_const_mul, weightedSum_const_mul, weightedSum_one, ← hm]
  field_simp
  ring

section Ordered

variable [LinearOrder K] [IsStrictOrderedRing K] {l : List ι} {w x : ι → K} (hw : ∀ i ∈ l, 0 < w i)

include hw

theorem weightedSum_nonneg (hx : ∀ i ∈ l, 0 ≤ x i) : 0 ≤ weightedSum l w x := by
  refine List.sum_nonneg fun y hy => ?_
  obtain ⟨i, hi, rfl⟩ := List.mem_map.mp hy
  exact mul_nonneg (hw i hi).le (hx i hi)

/-- A sum of values that are not negative is zero only if all of them are. -/
theorem weightedSum_eq_zero_iff (hx : ∀ i ∈ l, 0 ≤ x i) : weightedSum l w x = 0 ↔ ∀ i ∈ l, x i = 0 := by
  induction l with
  | nil => simp [weightedSum]
  | cons j l ih =>
    obtain ⟨hj, hl⟩ := List.forall_mem_cons.mp hw
    obtain ⟨hxj, hxl⟩ := List.forall_mem_cons.mp hx
    have hterm : 0 ≤ w j * x j := mul_nonneg hj.le hxj
    have hrest : 0 ≤ weightedSum l w x := weightedSum_nonneg hl hxl
    rw [weightedSum_cons, add_eq_zero_iff_of_nonneg hterm hrest, ih hl hxl, mul_eq_zero, List.forall_mem_cons]
    simp [hj.ne']

/-- Some value is at most the mean: else all deviations from it would be positive. -/
theorem exists_le_mean (hl : l ≠ []) : ∃ i ∈ l, x i ≤ weightedSum l w x / totalWeight l w := by
  by_contra hno
  have hgt : ∀ i ∈ l, 0 < x i + -(weightedSum l w x / totalWeight l w) * 1 := fun i hi => by
    have h := not_le.mp fun hle => hno ⟨i, hi, hle⟩
    linarith
  have hzero := (weightedSum_eq_zero_iff hw fun i hi => (hgt i hi).le).mp
    (weightedSum_sub_mean (totalWeight_pos hw hl).ne')
  obtain ⟨i, hi⟩ := List.exists_mem_of_ne_nil l hl
  exact (hgt i hi).ne' (hzero i hi)

/-- Some value is at least the mean. -/
theorem exists_mean_le (hl : l ≠ []) : ∃ i ∈ l, weightedSum l w x / totalWeight l w ≤ x i := by
  obtain ⟨i, hi, h⟩ := exists_le_mean (x := fun i => -x i) hw hl
  rw [weightedSum_neg, neg_div, neg_le_neg_iff] at h
  exact ⟨i, hi, h⟩

omit [IsStrictOrderedRing K] hw in
/-- The sum of the absolute values exceeds the sum by twice the negative parts. -/
theorem weightedSum_abs_sub (l : List ι) (w x : ι → K) :
    weightedSum l w (fun i => |x i| - x i) = weightedSum l w (fun i => |x i|) - weightedSum l w x := by
  have hsub : (fun i => |x i| - x i) = fun i => |x i| + -1 * x i := by
    funext i
    ring
  rw [hsub, weightedSum_add, weightedSum_const_mul]
  ring

theorem weightedSum_le_abs : weightedSum l w x ≤ weightedSum l w (fun i => |x i|) := by
  have hdiff := weightedSum_nonneg hw (x := fun i => |x i| - x i) fun i _ => sub_nonneg.mpr (le_abs_self _)
  rw [weightedSum_abs_sub] at hdiff
  linarith

/-- The sum reaches that of the absolute values exactly when no value is negative. -/
theorem weightedSum_eq_abs_iff : weightedSum l w x = weightedSum l w (fun i => |x i|) ↔ ∀ i ∈ l, 0 ≤ x i := by
  have hdiff := weightedSum_eq_zero_iff hw (x := fun i => |x i| - x i) fun i _ => sub_nonneg.mpr (le_abs_self _)
  rw [weightedSum_abs_sub, sub_eq_zero, eq_comm] at hdiff
  rw [hdiff]
  refine forall₂_congr fun i _ => ?_
  rw [sub_eq_zero, abs_eq_self]

/-- **The triangle inequality.** -/
theorem abs_weightedSum_le : |weightedSum l w x| ≤ weightedSum l w (fun i => |x i|) := by
  refine abs_le'.mpr ⟨weightedSum_le_abs hw, ?_⟩
  have hneg := weightedSum_le_abs hw (x := fun i => -x i)
  simpa only [weightedSum_neg, abs_neg] using hneg

/-- **Equality in the triangle inequality** holds exactly when the values have one sign. -/
theorem abs_weightedSum_eq_iff :
    |weightedSum l w x| = weightedSum l w (fun i => |x i|) ↔ (∀ i ∈ l, 0 ≤ x i) ∨ ∀ i ∈ l, x i ≤ 0 := by
  have hpos := weightedSum_eq_abs_iff hw (x := x)
  have hneg := weightedSum_eq_abs_iff hw (x := fun i => -x i)
  simp only [weightedSum_neg, abs_neg, neg_nonneg] at hneg
  rw [← hpos, ← hneg]
  constructor
  · intro h
    rcases abs_choice (weightedSum l w x) with habs | habs
    · exact .inl (habs ▸ h)
    · exact .inr (habs ▸ h)
  · have hle := abs_weightedSum_le hw (x := x)
    rintro (h | h)
    · exact le_antisymm hle (h ▸ le_abs_self _)
    · exact le_antisymm hle (h ▸ neg_le_abs _)

section NonEmpty

variable (hl : l ≠ [])

include hl

/-- **The square of the mean is at most the mean of the squares.** -/
theorem sq_weightedSum_le :
    weightedSum l w x * weightedSum l w x / totalWeight l w ≤ weightedSum l w fun i => x i ^ 2 := by
  have hdev := weightedSum_nonneg hw (x := fun i => (x i - weightedSum l w x / totalWeight l w) ^ 2) fun i _ =>
    sq_nonneg _
  rw [weightedSum_sq_sub (totalWeight_pos hw hl).ne'] at hdev
  linarith

/-- **Equality** holds exactly when all values are equal. -/
theorem sq_weightedSum_eq_iff :
    weightedSum l w x * weightedSum l w x / totalWeight l w = (weightedSum l w fun i => x i ^ 2) ↔
      ∀ i ∈ l, ∀ j ∈ l, x i = x j := by
  have hW := totalWeight_pos hw hl
  have hdev := weightedSum_eq_zero_iff hw (x := fun i => (x i - weightedSum l w x / totalWeight l w) ^ 2) fun i _ =>
    sq_nonneg _
  rw [weightedSum_sq_sub hW.ne', sub_eq_zero, eq_comm] at hdev
  rw [hdev]
  constructor
  · intro h i hi j hj
    rw [sub_eq_zero.mp (pow_eq_zero_iff two_ne_zero |>.mp (h i hi)),
      sub_eq_zero.mp (pow_eq_zero_iff two_ne_zero |>.mp (h j hj))]
  · intro h i hi
    -- a constant is its own mean
    have hmean : weightedSum l w x = x i * totalWeight l w := by
      rw [weightedSum_congr (y := fun _ => x i * 1) fun j hj => by rw [h j hj i hi, mul_one], weightedSum_const_mul,
        weightedSum_one]
    rw [hmean, mul_div_assoc, div_self hW.ne', mul_one, sub_self]
    exact zero_pow two_ne_zero

end NonEmpty

/-- The squares of the weights sum to at most the square of the sum. -/
theorem totalWeight_sq_le : totalWeight l (fun i => w i * w i) ≤ totalWeight l w * totalWeight l w := by
  induction l with
  | nil => simp [totalWeight]
  | cons j l ih =>
    obtain ⟨hj, hl⟩ := List.forall_mem_cons.mp hw
    have hrest : 0 ≤ totalWeight l w := by
      rcases eq_or_ne l [] with rfl | hne
      · simp [totalWeight]
      · exact (totalWeight_pos hl hne).le
    have hcross : 0 ≤ w j * totalWeight l w := mul_nonneg hj.le hrest
    rw [totalWeight_cons, totalWeight_cons]
    nlinarith [ih hl]

/-- **Two positive weights leave a degree of freedom.** -/
theorem totalWeight_sq_lt (hlen : 2 ≤ l.length) :
    totalWeight l (fun i => w i * w i) < totalWeight l w * totalWeight l w := by
  match l, hlen with
  | j :: k :: l, _ =>
    obtain ⟨hj, hl⟩ := List.forall_mem_cons.mp hw
    have hcross : 0 < w j * totalWeight (k :: l) w := mul_pos hj (totalWeight_pos hl (by simp))
    have hrest := totalWeight_sq_le hl
    rw [totalWeight_cons, totalWeight_cons j]
    nlinarith

end Ordered

end ForecastIQ.Foundations
