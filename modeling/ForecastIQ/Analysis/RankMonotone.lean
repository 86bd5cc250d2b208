import ForecastIQ.Analysis.RankPermutation
import ForecastIQ.Foundations.Processes

/-!
# A better provider

What happens to the scores of a cohort when one provider gets better on one component. Its
own ratio to the best value grows, and the ratios of the others can only fall, since the best
value can only get better (`lowRatio_set_self`, `lowRatio_set_other`, `highRatio_set_self`,
`highRatio_set_other`). The guard for a best error of zero changes the ratio of every
provider at once; errors that are zero or at least `epsilon` keep it in order.

So the provider's own normalized values do not fall and no other ones rise
(`normalized_withValue_self`, `normalized_withValue_other`), and neither do the scores.
-/

namespace ForecastIQ.Analysis

open ForecastIQ.Foundations Eval

variable {K : Type*} [Field K] [LinearOrder K]

/-! ### The best value after one value changes -/

section Best

variable {vals : List K} {i : ℕ} {v v' : K}

omit [Field K] [LinearOrder K] in
/-- A value that gets better is the new best one, or leaves the old one. -/
theorem best_set {r : K → K → Prop} (htrans : ∀ {a b c}, r a b → r b c → r a c)
    (hanti : ∀ {a b}, r a b → r b a → a = b) {best : List K → K} (hmem : ∀ {l : List K}, l ≠ [] → best l ∈ l)
    (hbest : ∀ {l : List K} {x : K}, x ∈ l → r (best l) x) (hi : vals[i]? = some v) (h : r v' v) :
    r (best (vals.set i v')) (best vals) ∧ (best (vals.set i v') = v' ∨ best (vals.set i v') = best vals) := by
  have hne : vals ≠ [] := List.ne_nil_of_mem (List.mem_of_getElem? hi)
  have hne' : vals.set i v' ≠ [] := by simpa using hne
  have hv' : v' ∈ vals.set i v' := List.mem_set (List.getElem?_eq_some_iff.mp hi).1 v'
  have hle : r (best (vals.set i v')) (best vals) := by
    obtain ⟨j, hj⟩ := List.mem_iff_getElem?.mp (hmem hne)
    rcases eq_or_ne i j with rfl | hij
    · rw [hi, Option.some.injEq] at hj
      rw [← hj]
      exact htrans (hbest hv') h
    · refine hbest (List.mem_of_getElem? (i := j) ?_)
      rw [List.getElem?_set_ne hij]
      exact hj
  refine ⟨hle, ?_⟩
  obtain ⟨j, hj⟩ := List.mem_iff_getElem?.mp (hmem hne')
  rcases getElem?_set_cases hj with ⟨-, he⟩ | ⟨-, hj⟩
  · exact .inl he
  · exact .inr (hanti hle (hbest (List.mem_of_getElem? hj)))

/-- A smaller value is the new minimum, or leaves the old one. -/
theorem minOf_set (hi : vals[i]? = some v) (h : v' ≤ v) :
    minOf (vals.set i v') ≤ minOf vals ∧ (minOf (vals.set i v') = v' ∨ minOf (vals.set i v') = minOf vals) :=
  best_set (r := (· ≤ ·)) le_trans le_antisymm minOf_mem minOf_le hi h

/-- A greater value is the new maximum, or leaves the old one. -/
theorem maxOf_set (hi : vals[i]? = some v) (h : v ≤ v') :
    maxOf vals ≤ maxOf (vals.set i v') ∧ (maxOf (vals.set i v') = v' ∨ maxOf (vals.set i v') = maxOf vals) :=
  best_set (r := (· ≥ ·)) ge_trans ge_antisymm maxOf_mem le_maxOf hi h

variable [IsStrictOrderedRing K]

/-- A smaller error does not lower the ratio of the provider that has it. -/
theorem lowRatio_set_self (hi : vals[i]? = some v) (hvals : ∀ x ∈ vals, 0 ≤ x) (h0 : 0 ≤ v') (h : v' ≤ v) :
    lowRatio vals v ≤ lowRatio (vals.set i v') v' := by
  have heps : (0 : K) < epsilon := epsilon_pos
  obtain ⟨-, hmin | hmin⟩ := minOf_set hi h
  · -- the best value is the provider's own
    have hone : lowRatio (vals.set i v') v' = 1 := by
      rw [lowRatio, hmin]
      split_ifs with hv'
      · rw [hv', zero_add, div_self heps.ne']
      · exact div_self hv'
    rw [hone]
    exact (lowRatio_mem hvals (List.mem_of_getElem? hi)).2
  · rw [lowRatio, lowRatio, hmin]
    split_ifs with hm
    · exact div_le_div_of_nonneg_left heps.le (by linarith) (by linarith)
    · have hmem : minOf vals ∈ vals := minOf_mem (List.ne_nil_of_mem (List.mem_of_getElem? hi))
      have hpos : 0 < minOf vals := lt_of_le_of_ne (hvals _ hmem) (Ne.symm hm)
      have hle : minOf vals ≤ v' := by
        rw [← hmin]
        exact minOf_le (List.mem_set (List.getElem?_eq_some_iff.mp hi).1 v')
      exact div_le_div_of_nonneg_left hpos.le (hpos.trans_le hle) h

/-- A smaller error does not raise the ratio of another provider. -/
theorem lowRatio_set_other (hi : vals[i]? = some v) (hvals : ∀ x ∈ vals, x = 0 ∨ epsilon ≤ x) (h0 : 0 ≤ v')
    (h : v' ≤ v) {x : K} (hx : x ∈ vals) : lowRatio (vals.set i v') x ≤ lowRatio vals x := by
  have heps : (0 : K) < epsilon := epsilon_pos
  have hnonneg : ∀ y ∈ vals, 0 ≤ y := fun y hy => (hvals y hy).elim (fun he => he.ge) fun he => heps.le.trans he
  have hmem : minOf vals ∈ vals := minOf_mem (List.ne_nil_of_mem hx)
  have hmin0 : 0 ≤ minOf (vals.set i v') := by
    obtain ⟨-, hmin | hmin⟩ := minOf_set hi h
    · rw [hmin]
      exact h0
    · rw [hmin]
      exact hnonneg _ hmem
  have hle := (minOf_set hi h).1
  have hxle : minOf vals ≤ x := minOf_le hx
  rw [lowRatio, lowRatio]
  split_ifs with hm' hm hm
  · exact le_rfl
  · -- the guard comes in: the old best value was at least `epsilon`
    have hbest : epsilon ≤ minOf vals := (hvals _ hmem).resolve_left hm
    have hxpos : 0 < x := (heps.trans_le hbest).trans_le hxle
    rw [div_le_div_iff₀ (by linarith) hxpos]
    nlinarith
  · exact absurd (le_antisymm (hle.trans hm.le) hmin0) hm'
  · exact div_le_div_of_nonneg_right hle ((hnonneg _ hmem).trans hxle)

/-- A greater score does not lower the ratio of the provider that has it. -/
theorem highRatio_set_self (hi : vals[i]? = some v) (hvals : ∀ x ∈ vals, 0 ≤ x) (h : v < v') :
    highRatio vals v ≤ highRatio (vals.set i v') v' := by
  have hv : v ∈ vals := List.mem_of_getElem? hi
  have hpos : 0 < v' := (hvals v hv).trans_lt h
  obtain ⟨-, hmax | hmax⟩ := maxOf_set hi h.le
  · have hone : highRatio (vals.set i v') v' = 1 := by rw [highRatio, hmax, if_neg hpos.ne', div_self hpos.ne']
    rw [hone]
    exact (highRatio_mem hvals hv).2
  · have hle : v' ≤ maxOf vals := by
      rw [← hmax]
      exact le_maxOf (List.mem_set (List.getElem?_eq_some_iff.mp hi).1 v')
    have hbest : 0 < maxOf vals := hpos.trans_le hle
    rw [highRatio, highRatio, hmax, if_neg hbest.ne', if_neg hbest.ne']
    exact div_le_div_of_nonneg_right h.le hbest.le

/-- A greater score does not raise the ratio of another provider. -/
theorem highRatio_set_other (hi : vals[i]? = some v) (hvals : ∀ x ∈ vals, 0 ≤ x) (h : v < v') {x : K}
    (hx : x ∈ vals) : highRatio (vals.set i v') x ≤ highRatio vals x := by
  have hv : v ∈ vals := List.mem_of_getElem? hi
  have hbest' : 0 < maxOf (vals.set i v') :=
    ((hvals v hv).trans_lt h).trans_le (le_maxOf (List.mem_set (List.getElem?_eq_some_iff.mp hi).1 v'))
  rw [highRatio, highRatio, if_neg hbest'.ne']
  split_ifs with hm
  · have hx0 : x = 0 := le_antisymm ((le_maxOf hx).trans hm.le) (hvals x hx)
    rw [hx0, zero_div]
  · have hbest : 0 < maxOf vals := lt_of_le_of_ne ((hvals x hx).trans (le_maxOf hx)) (Ne.symm hm)
    exact div_le_div_of_nonneg_left (hvals x hx) hbest (maxOf_set hi h.le).1

end Best

/-! ### One provider of the cohort gets better -/

/-- The provider with another value for one component; the coverage is the same number in the
component and in the penalty. -/
def ProviderInput.withValue (p : ProviderInput K) (key : ComponentKey) (v : K) : ProviderInput K :=
  { p with
    values := Function.update p.values key (some v)
    coverage := if key = .coverage then some v else p.coverage
    reliability := if key = .reliability then some v else p.reliability }

/-- The value `v'` of a component is strictly better than `v`. -/
def Component.Better (c : Component K) (v v' : K) : Prop :=
  match c.direction with
  | .lowerBetter => v' < v
  | .higherBetter | .directValue => v < v'

/-- The values of a provider are as they are stored: an error is zero or at least `epsilon`, and an
`F1` score is not negative. -/
structure ProviderInput.Stored (q : ProviderInput K) : Prop where
  error : ∀ c ∈ (components : List (Component K)), c.direction = .lowerBetter →
    ∀ x, q.values c.key = some x → x = 0 ∨ epsilon ≤ x
  f1_nonneg : ∀ x, q.values .precipF1 = some x → 0 ≤ x

section Improved

variable {cohort : List (ProviderInput K)} {i : ℕ} {p : ProviderInput K} (hi : cohort[i]? = some p)
  {c : Component K} {v v' : K} (hv : p.values c.key = some v)

omit [Field K] [LinearOrder K] in
include hi hv in
/-- A component is active before and after. -/
theorem active_set (key : ComponentKey) :
    active (cohort.set i (p.withValue c.key v')) key = active cohort key := by
  have hmap : (cohort.set i (p.withValue c.key v')).map (fun q => (q.values key).isSome) =
      cohort.map fun q => (q.values key).isSome := by
    refine map_set_of_eq hi ?_
    rcases eq_or_ne key c.key with rfl | hne
    · simp [ProviderInput.withValue, hv]
    · simp [ProviderInput.withValue, Function.update_of_ne hne]
  have hactive : ∀ l : List (ProviderInput K), active l key =
      (!(l.map fun q => (q.values key).isSome).isEmpty && (l.map fun q => (q.values key).isSome).all id) := by
    intro l
    rw [active, List.all_map, List.isEmpty_map]
    rfl
  rw [hactive, hactive, hmap]

omit [LinearOrder K] in
include hi hv in
theorem activeComponents_set :
    activeComponents (cohort.set i (p.withValue c.key v')) = activeComponents cohort :=
  List.filter_congr fun d _ => active_set hi hv d.key

omit [LinearOrder K] in
theorem column_set_self :
    column (cohort.set i (p.withValue c.key v')) c.key = (column cohort c.key).set i v' := by
  simp [column, List.map_set, ProviderInput.withValue, deref]

omit [LinearOrder K] in
include hi in
theorem column_set_of_ne {key : ComponentKey} (hne : key ≠ c.key) :
    column (cohort.set i (p.withValue c.key v')) key = column cohort key :=
  map_set_of_eq hi (by simp [ProviderInput.withValue, Function.update_of_ne hne])

variable [IsStrictOrderedRing K] (hc : c ∈ components) (hbetter : c.Better v v')
  (h0 : c.direction = .lowerBetter → 0 ≤ v') (hstored : ∀ q ∈ cohort, q.Stored)

omit [LinearOrder K] [IsStrictOrderedRing K] in
theorem eq_of_key_eq {c d : Component K} (hc : c ∈ components) (hd : d ∈ components) (h : d.key = c.key) : d = c :=
  List.inj_on_of_nodup_map (by simp [components]) hd hc h

omit [LinearOrder K] [IsStrictOrderedRing K] in
theorem key_of_higherBetter : ∀ c ∈ (components : List (Component K)), c.direction = .higherBetter →
    c.key = .precipF1 := by
  rw [forall_mem_components]
  simp

omit [IsStrictOrderedRing K] in
include hc hstored in
/-- The errors of an active component are zero or at least `epsilon`. -/
theorem column_error (hact : active cohort c.key = true) (hd : c.direction = .lowerBetter) :
    ∀ x ∈ column cohort c.key, x = 0 ∨ epsilon ≤ x :=
  List.forall_mem_map.mpr fun q hq => (hstored q hq).error c hc hd _ (values_of_active hact hq)

include hc hstored in
/-- The values of an active component are not negative, if it is one that is compared. -/
theorem column_nonneg (hact : active cohort c.key = true) (hd : c.direction ≠ .directValue) :
    ∀ x ∈ column cohort c.key, 0 ≤ x := by
  intro x hx
  cases hdir : c.direction with
  | lowerBetter =>
    rcases column_error hc hstored hact hdir x hx with he | he
    · exact he.ge
    · exact epsilon_pos.le.trans he
  | higherBetter =>
    obtain ⟨q, hq, rfl⟩ := List.mem_map.mp hx
    have hkey := key_of_higherBetter c hc hdir
    have hvalue := values_of_active hact hq
    rw [hkey] at hvalue ⊢
    exact (hstored q hq).f1_nonneg _ hvalue
  | directValue => exact absurd hdir hd

include hi hv hc hbetter h0 hstored in
/-- The provider's own normalized values do not fall. -/
theorem normalized_withValue_self {d : Component K} (hd : d ∈ activeComponents cohort) :
    normalized cohort p d ≤ normalized (cohort.set i (p.withValue c.key v')) (p.withValue c.key v') d := by
  obtain ⟨hdc, hact⟩ := mem_activeComponents.mp hd
  rcases eq_or_ne d.key c.key with hkey | hkey
  · rw [eq_of_key_eq hc hdc hkey] at hact ⊢
    have hcol : (column cohort c.key)[i]? = some v := by simp [column, hi, hv, deref]
    have hnew : deref ((p.withValue c.key v').values c.key) = v' := by simp [ProviderInput.withValue, deref]
    have hold : deref (p.values c.key) = v := by rw [hv]; rfl
    rw [normalized_eq, normalized_eq, column_set_self, hnew, hold]
    cases hdir : c.direction with
    | lowerBetter =>
      simp only [Component.Better, hdir] at hbetter
      exact lowRatio_set_self hcol (column_nonneg hc hstored hact (by rw [hdir]; decide)) (h0 hdir) hbetter.le
    | higherBetter =>
      simp only [Component.Better, hdir] at hbetter
      exact highRatio_set_self hcol (column_nonneg hc hstored hact (by rw [hdir]; decide)) hbetter
    | directValue =>
      simp only [Component.Better, hdir] at hbetter
      exact hbetter.le
  · have hsame : (p.withValue c.key v').values d.key = p.values d.key := Function.update_of_ne hkey _ _
    rw [normalized_eq, normalized_eq, column_set_of_ne hi hkey, hsame]

include hi hv hc hbetter h0 hstored in
/-- The normalized values of the other providers do not rise. -/
theorem normalized_withValue_other {q : ProviderInput K} (hq : q ∈ cohort) {d : Component K}
    (hd : d ∈ activeComponents cohort) :
    normalized (cohort.set i (p.withValue c.key v')) q d ≤ normalized cohort q d := by
  obtain ⟨hdc, hact⟩ := mem_activeComponents.mp hd
  rcases eq_or_ne d.key c.key with hkey | hkey
  · rw [eq_of_key_eq hc hdc hkey] at hact ⊢
    have hcol : (column cohort c.key)[i]? = some v := by simp [column, hi, hv, deref]
    have hmem : deref (q.values c.key) ∈ column cohort c.key := List.mem_map_of_mem hq
    rw [normalized_eq, normalized_eq, column_set_self]
    cases hdir : c.direction with
    | lowerBetter =>
      simp only [Component.Better, hdir] at hbetter
      exact lowRatio_set_other hcol (column_error hc hstored hact hdir) (h0 hdir) hbetter.le hmem
    | higherBetter =>
      simp only [Component.Better, hdir] at hbetter
      exact highRatio_set_other hcol (column_nonneg hc hstored hact (by rw [hdir]; decide)) hbetter hmem
    | directValue => exact le_rfl
  · rw [normalized_eq, normalized_eq, column_set_of_ne hi hkey]

end Improved

/-! ### The scores -/

/-- The score that `RankCohort` publishes for the provider at a place of the cohort. -/
def scoreAt (cohort : List (ProviderInput K)) (i : ℕ) : Option K :=
  (rankCohort cohort)[i]?.bind ProviderRanking.compositeScore

theorem scoreAt_eq {cohort : List (ProviderInput K)} {i : ℕ} {p : ProviderInput K} (hi : cohort[i]? = some p) :
    scoreAt cohort i = if status p ≠ .unranked then some (clamp01 (unclamped cohort p)) else none := by
  rw [scoreAt, rankCohort, List.getElem?_map, hi]
  rfl

section Scores

variable [IsStrictOrderedRing K]

/-- A provider that is scored has a coverage, and a positive penalty factor. -/
theorem coveragePenalty_pos {p : ProviderInput K} (h : status p ≠ .unranked) : 0 < coveragePenalty p.coverage := by
  have hfloor : (0 : K) < coverageFloor := by rw [coverageFloor]; norm_num
  have hcov : coverageFloor ≤ deref p.coverage := by
    simp only [status] at h
    split_ifs at h with hst
    · exact absurd rfl h
    all_goals exact not_lt.mp fun hlt => hst (.inr (.inr hlt))
  cases hp : p.coverage with
  | none => exact zero_lt_one
  | some v =>
    rw [hp] at hcov
    have hv : 0 < v := hfloor.trans_le hcov
    simp only [coveragePenalty]
    split_ifs
    · exact div_pos hv coverageRankedMin_pos
    · exact zero_lt_one

/-- A greater coverage is not penalized more. -/
theorem coveragePenalty_mono {v v' : K} (h : v ≤ v') : coveragePenalty (some v) ≤ coveragePenalty (some v') := by
  have hpos : (0 : K) < coverageRankedMin := coverageRankedMin_pos
  simp only [coveragePenalty]
  split_ifs with h1 h2 h2
  · exact div_le_div_of_nonneg_right h hpos.le
  · exact (div_le_one hpos).mpr h1.le
  · exact absurd (h.trans_lt h2) h1
  · exact le_rfl

theorem clamp01_mul_le {x y a b : K} (hxy : x ≤ y) (ha : 0 ≤ a) (hab : a ≤ b) : clamp01 (x * a) ≤ clamp01 (y * b) := by
  rcases le_total 0 x with hx | hx
  · exact clamp01_mono (mul_le_mul hxy hab ha (hx.trans hxy))
  · -- a negative mean is published as zero
    have hzero : clamp01 (x * a) ≤ 0 := by
      calc clamp01 (x * a) ≤ clamp01 0 := clamp01_mono (mul_nonpos_of_nonpos_of_nonneg hx ha)
        _ = 0 := clamp01_eq_self le_rfl zero_le_one
    have hnonneg : 0 ≤ clamp01 (y * b) := by
      simp only [clamp01]
      split_ifs <;> linarith
    exact hzero.trans hnonneg

/-- **A provider that gets strictly better on one component and stays scored does not get a lower
score, and no other provider gets a higher one.** -/
theorem rankCohort_withValue {cohort : List (ProviderInput K)} (hstored : ∀ q ∈ cohort, q.Stored) {i : ℕ}
    {p : ProviderInput K} (hi : cohort[i]? = some p) {c : Component K} (hc : c ∈ components) {v v' : K}
    (hv : p.values c.key = some v) (hcov : p.coverage = p.values .coverage) (hbetter : c.Better v v')
    (h0 : c.direction = .lowerBetter → 0 ≤ v') (hst : status p ≠ .unranked)
    (hst' : status (p.withValue c.key v') ≠ .unranked) :
    (∃ x x', scoreAt cohort i = some x ∧ scoreAt (cohort.set i (p.withValue c.key v')) i = some x' ∧ x ≤ x') ∧
      ∀ j, j ≠ i → ∀ y', scoreAt (cohort.set i (p.withValue c.key v')) j = some y' →
        ∃ y, scoreAt cohort j = some y ∧ y' ≤ y := by
  have hset : (cohort.set i (p.withValue c.key v'))[i]? = some (p.withValue c.key v') := by
    rw [List.getElem?_set_self (List.getElem?_eq_some_iff.mp hi).1]
  constructor
  · refine ⟨_, _, (scoreAt_eq hi).trans (if_pos hst), (scoreAt_eq hset).trans (if_pos hst'), ?_⟩
    rw [unclamped, unclamped, compositeOf_eq, compositeOf_eq, activeComponents_set hi hv]
    refine clamp01_mul_le (weightedMean_mono weight_pos fun d hd =>
      normalized_withValue_self hi hv hc hbetter h0 hstored hd) (coveragePenalty_pos hst).le ?_
    simp only [ProviderInput.withValue]
    split_ifs with hkey
    · -- the coverage got better: the penalty is on the same number
      have hdir : c.direction = .directValue := by
        have h : ∀ d ∈ (components : List (Component K)), d.key = .coverage → d.direction = .directValue := by
          rw [forall_mem_components]
          simp
        exact h c hc hkey
      simp only [Component.Better, hdir] at hbetter
      rw [hcov, ← hkey, hv]
      exact coveragePenalty_mono hbetter.le
    · exact le_rfl
  · intro j hj y' hy'
    cases hq : cohort[j]? with
    | none =>
      rw [scoreAt, rankCohort, List.getElem?_map, List.getElem?_set_ne (Ne.symm hj), hq] at hy'
      cases hy'
    | some q =>
      have hq' : (cohort.set i (p.withValue c.key v'))[j]? = some q := by rw [List.getElem?_set_ne (Ne.symm hj), hq]
      rw [scoreAt_eq hq'] at hy'
      split_ifs at hy' with hsq
      cases hy'
      refine ⟨_, (scoreAt_eq hq).trans (if_pos hsq), ?_⟩
      rw [unclamped, unclamped, compositeOf_eq, compositeOf_eq, activeComponents_set hi hv]
      exact clamp01_mul_le (weightedMean_mono weight_pos fun d hd =>
        normalized_withValue_other hi hv hc hbetter h0 hstored (List.mem_of_getElem? hq) hd)
        (coveragePenalty_pos hsq).le le_rfl

end Scores

theorem plainInput_stored (id : ℕ) : (plainInput id).Stored := by
  have heps : (epsilon : ℚ) ≤ 1 := by rw [epsilon]; norm_num
  constructor <;> simp [plainInput, heps]

/-- The first of two equal providers halves its temperature error. -/
theorem plainInput_better :
    ∃ x x' y y', scoreAt [plainInput 1, plainInput 2] 0 = some x ∧ scoreAt [plainInput 1, plainInput 2] 1 = some y ∧
      scoreAt [(plainInput 1).withValue .tempMAE (1 / 2), plainInput 2] 0 = some x' ∧
      scoreAt [(plainInput 1).withValue .tempMAE (1 / 2), plainInput 2] 1 = some y' ∧ x ≤ x' ∧ y' ≤ y := by
  have hstored : ∀ q ∈ [plainInput 1, plainInput 2], q.Stored := by simp [plainInput_stored]
  have hbetter : (⟨.tempMAE, 30 / 100, .lowerBetter⟩ : Component ℚ).Better 1 (1 / 2) := by
    simp only [Component.Better]
    norm_num
  obtain ⟨⟨x, x', hx, hx', hle⟩, hothers⟩ := rankCohort_withValue hstored (i := 0) (p := plainInput 1) rfl
    (c := ⟨.tempMAE, 30 / 100, .lowerBetter⟩) (v := 1) (by simp [components]) rfl rfl hbetter
    (fun _ => by norm_num) (by decide +kernel) (by decide +kernel)
  obtain ⟨y', hy'⟩ : ∃ y', scoreAt [(plainInput 1).withValue .tempMAE (1 / 2), plainInput 2] 1 = some y' :=
    Option.isSome_iff_exists.mp (by decide +kernel)
  obtain ⟨y, hy, hyle⟩ := hothers 1 (by decide) y' hy'
  exact ⟨x, x', y, y', hx, hy, hx', hy', hle, hyle⟩

end ForecastIQ.Analysis
