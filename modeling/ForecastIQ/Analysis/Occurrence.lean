import ForecastIQ.Analysis.Eval

/-!
# The occurrence ratios

The six ratios of `Confusion` have six denominators, each a sum of some of the four cells,
and a ratio is null when its own denominator is zero. On a table without negative cells
these agree with each other as the methodology says: the occurrence score `F1` is null
exactly when recall and precision are (`f1_eq_none_iff`), it is their harmonic mean where
that is defined (`f1_eq_harmonic`), and the threat score is a function of it
(`threatScore_of_f1`).
-/

namespace ForecastIQ.Analysis.Eval

open ForecastIQ.Foundations

variable {K : Type*} [Field K] [LinearOrder K]

namespace Confusion

omit [LinearOrder K] in
/-- The table does not depend on the order of the pairs. -/
theorem ofList_perm {l l' : List (Bool × Bool × K)} (h : l'.Perm l) : ofList l' = ofList l := by
  rw [ofList_eq, ofList_eq, totalWeight_perm (h.filter _), totalWeight_perm (h.filter _),
    totalWeight_perm (h.filter _), totalWeight_perm (h.filter _)]

/-- The six ratios. -/
def ratios (c : Confusion K) : List (Option K) :=
  [c.recall, c.precision, c.f1, c.falseAlarmRate, c.threatScore, c.occurrenceAgreement]

@[simp] theorem ratio_eq_none_iff {num d : K} : ratio num d = none ↔ d = 0 := by
  simp [ratio]

theorem ratio_of_ne_zero {d : K} (num : K) (hd : d ≠ 0) : ratio num d = some (num / d) := if_neg hd

section Nonneg

variable [IsStrictOrderedRing K] {c : Confusion K} (h : c.Nonneg)

include h

theorem recall_eq_none_iff : c.recall = none ↔ c.tp = 0 ∧ c.fn = 0 := by
  rw [«recall», ratio_eq_none_iff, add_eq_zero_iff_of_nonneg h.tp h.fn]

theorem precision_eq_none_iff : c.precision = none ↔ c.tp = 0 ∧ c.fp = 0 := by
  rw [precision, ratio_eq_none_iff, add_eq_zero_iff_of_nonneg h.tp h.fp]

theorem f1_eq_none_iff_cells : c.f1 = none ↔ c.tp = 0 ∧ c.fp = 0 ∧ c.fn = 0 := by
  have htp : 0 ≤ 2 * c.tp := mul_nonneg zero_le_two h.tp
  rw [f1, ratio_eq_none_iff, add_eq_zero_iff_of_nonneg (add_nonneg htp h.fp) h.fn,
    add_eq_zero_iff_of_nonneg htp h.fp, and_assoc, mul_eq_zero]
  simp

theorem threatScore_eq_none_iff_cells : c.threatScore = none ↔ c.tp = 0 ∧ c.fp = 0 ∧ c.fn = 0 := by
  rw [threatScore, ratio_eq_none_iff, add_eq_zero_iff_of_nonneg (add_nonneg h.tp h.fp) h.fn,
    add_eq_zero_iff_of_nonneg h.tp h.fp, and_assoc]

/-- `F1` is null exactly when recall and precision are. -/
theorem f1_eq_none_iff : c.f1 = none ↔ c.recall = none ∧ c.precision = none := by
  rw [f1_eq_none_iff_cells h, recall_eq_none_iff h, precision_eq_none_iff h]
  tauto

/-- The threat score is null exactly when `F1` is. -/
theorem threatScore_eq_none_iff : c.threatScore = none ↔ c.f1 = none := by
  rw [threatScore_eq_none_iff_cells h, f1_eq_none_iff_cells h]

/-- Where one of recall and precision is not zero, `F1` is their harmonic mean. -/
theorem f1_eq_harmonic {r p : K} (hr : c.recall = some r) (hp : c.precision = some p) (hne : r ≠ 0 ∨ p ≠ 0) :
    c.f1 = some (2 * r * p / (r + p)) := by
  obtain ⟨htp0, hfp0, hfn0, -⟩ := h
  simp only [«recall», precision, ratio] at hr hp
  split_ifs at hr with hd
  split_ifs at hp with hd'
  cases hr
  cases hp
  have htp : c.tp ≠ 0 := by
    intro htp
    simp [htp] at hne
  have hpos : 0 < c.tp := lt_of_le_of_ne htp0 (Ne.symm htp)
  have hf1 : 2 * c.tp + c.fp + c.fn ≠ 0 := by positivity
  have hsum : c.tp / (c.tp + c.fn) + c.tp / (c.tp + c.fp) ≠ 0 := by positivity
  rw [f1, ratio_of_ne_zero _ hf1]
  congr 1
  field_simp
  ring

/-- Without rain on one side, `F1` is zero. -/
theorem f1_eq_zero (hone : c.recall.isNone ≠ c.precision.isNone) : c.f1 = some 0 := by
  have hne : c.f1 ≠ none := by
    rw [ne_eq, f1_eq_none_iff h]
    rintro ⟨hr, hp⟩
    exact hone (by rw [hr, hp])
  have htp : c.tp = 0 := by
    by_contra htp
    have hr : c.recall ≠ none := fun hr => htp ((recall_eq_none_iff h).mp hr).1
    have hp : c.precision ≠ none := fun hp => htp ((precision_eq_none_iff h).mp hp).1
    rw [ne_eq, ← Option.isNone_iff_eq_none, Bool.not_eq_true] at hr hp
    exact hone (hr.trans hp.symm)
  rw [f1, ne_eq, ratio_eq_none_iff] at hne
  rw [f1, ratio_of_ne_zero _ hne, htp, mul_zero, zero_div]

/-- The threat score from `F1`. -/
theorem threatScore_of_f1 {f : K} (hf : c.f1 = some f) : c.threatScore = some (f / (2 - f)) := by
  have hne : c.threatScore ≠ none := by
    rw [ne_eq, threatScore_eq_none_iff h, hf]
    simp
  rw [threatScore, ne_eq, ratio_eq_none_iff] at hne
  simp only [f1, ratio] at hf
  split_ifs at hf with hd
  cases hf
  have htwo : 2 - 2 * c.tp / (2 * c.tp + c.fp + c.fn) =
      2 * (c.tp + c.fp + c.fn) / (2 * c.tp + c.fp + c.fn) := by
    field_simp
    ring
  rw [threatScore, ratio_of_ne_zero _ hne, htwo, div_div_div_cancel_right₀ hd, mul_div_mul_left _ _ two_ne_zero]

/-- Every ratio lies between zero and one. -/
theorem ratios_mem {v : Option K} (hv : v ∈ c.ratios) {x : K} (hx : v = some x) : 0 ≤ x ∧ x ≤ 1 := by
  obtain ⟨htp, hfp, hfn, htn⟩ := h
  simp only [ratios, List.mem_cons, List.not_mem_nil, or_false] at hv
  subst hx
  rcases hv with hv | hv | hv | hv | hv | hv
  all_goals exact ratio_mem (by linarith) (by first | linarith | (unfold total; linarith)) hv.symm

end Nonneg

/-- **The occurrence ratios of any pairs**: which of them are null together, how `F1` and the
threat score follow from the others, and that they lie between zero and one and do not depend
on the order of the pairs. -/
theorem ratios_agree [IsStrictOrderedRing K] {l : List (Bool × Bool × K)} (hw : ∀ p ∈ l, 0 < p.2.2) :
    ((ofList l).f1 = none ↔ (ofList l).recall = none ∧ (ofList l).precision = none) ∧
      (∀ r p, (ofList l).recall = some r → (ofList l).precision = some p → r ≠ 0 ∨ p ≠ 0 →
        (ofList l).f1 = some (2 * r * p / (r + p))) ∧
      ((ofList l).recall.isNone ≠ (ofList l).precision.isNone → (ofList l).f1 = some 0) ∧
      ((ofList l).threatScore = none ↔ (ofList l).f1 = none) ∧
      (∀ f, (ofList l).f1 = some f → (ofList l).threatScore = some (f / (2 - f))) ∧
      (∀ l', l'.Perm l → (ofList l').ratios = (ofList l).ratios) ∧
      ∀ v ∈ (ofList l).ratios, ∀ x, v = some x → 0 ≤ x ∧ x ≤ 1 := by
  have h : (ofList l).Nonneg := ofList_nonneg fun p hp => (hw p hp).le
  refine ⟨f1_eq_none_iff h, fun _ _ => f1_eq_harmonic h, f1_eq_zero h, threatScore_eq_none_iff h,
    fun _ => threatScore_of_f1 h, fun l' hl' => ?_, fun _ hv _ => ratios_mem h hv⟩
  rw [ofList_perm hl']

/-- Three hours: a hit, a false alarm, and a miss that counts half. -/
def threeHours : List (Bool × Bool × ℚ) := [(true, true, 1), (true, false, 1), (false, true, 1 / 2)]

/-- With recall `2/3` and precision `1/2`, `F1` is their harmonic mean. -/
theorem ratios_threeHours :
    (∀ p ∈ threeHours, 0 < p.2.2) ∧ (ofList threeHours).recall = some (2 / 3) ∧
      (ofList threeHours).precision = some (1 / 2) ∧
      (ofList threeHours).f1 = some (2 * (2 / 3) * (1 / 2) / (2 / 3 + 1 / 2)) := by
  have hw : ∀ p ∈ threeHours, 0 < p.2.2 := by decide +kernel
  have hr : (ofList threeHours).recall = some (2 / 3) := by decide +kernel
  have hp : (ofList threeHours).precision = some (1 / 2) := by decide +kernel
  exact ⟨hw, hr, hp, (ratios_agree hw).2.1 _ _ hr hp (.inl (by norm_num))⟩

end Confusion

end ForecastIQ.Analysis.Eval
