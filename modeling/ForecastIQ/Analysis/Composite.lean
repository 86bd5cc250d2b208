import ForecastIQ.Analysis.Publication
import ForecastIQ.Foundations.WeightedMean
import Mathlib.Tactic.Linarith

/-!
# The composite score

`RankCohort` scores a provider by the mean of its normalized components, weighted by the
shares of the components that every provider of the cohort has a value for
(`compositeOf_eq`). From the ranges of the raw values follow those of the normalized ones
(`normalized_mem`), of the composite (`unclamped_mem`) and of its interval
(`interval_of_inRange`), and so the `CHECK` constraints of `provider_rankings`.

A mean needs something to take the mean of. The code asks only whether the provider itself
may be scored: when the other providers' null metrics leave no component active, the score
that is published is the empty sum.
-/

namespace ForecastIQ.Analysis

open ForecastIQ.Foundations Eval

variable {K : Type*} [Field K] [LinearOrder K]

/-! ### The composite is a weighted mean -/

/-- The components that every provider of the cohort has a value for. -/
def activeComponents (cohort : List (ProviderInput K)) : List (Component K) :=
  components.filter fun c => active cohort c.key

/-- The normalized value of a component. -/
def normalized (cohort : List (ProviderInput K)) (p : ProviderInput K) (c : Component K) : K :=
  normalize c (deref (p.values c.key)) (bestShift cohort c).1 (bestShift cohort c).2

/-- The raw values of a component in the cohort. -/
def column (cohort : List (ProviderInput K)) (key : ComponentKey) : List K :=
  cohort.map fun p => deref (p.values key)

/-- The ratio of the least of the values to one of them, with the guard for a least value of zero. -/
def lowRatio (vals : List K) (v : K) : K := if minOf vals = 0 then epsilon / (v + epsilon) else minOf vals / v

/-- The ratio of one of the values to the greatest of them. -/
def highRatio (vals : List K) (v : K) : K := if maxOf vals = 0 then 0 else v / maxOf vals

/-- A component is normalized by its ratio to the best value of the cohort. -/
theorem normalized_eq (cohort : List (ProviderInput K)) (p : ProviderInput K) (c : Component K) :
    normalized cohort p c =
      match c.direction with
      | .lowerBetter => lowRatio (column cohort c.key) (deref (p.values c.key))
      | .higherBetter => highRatio (column cohort c.key) (deref (p.values c.key))
      | .directValue => deref (p.values c.key) := by
  obtain ⟨key, weight, direction⟩ := c
  cases direction with
  | lowerBetter =>
    have hbest : bestShift cohort ⟨key, weight, .lowerBetter⟩ =
        if minOf (column cohort key) = 0 then (minOf (column cohort key) + epsilon, epsilon)
        else (minOf (column cohort key), 0) := rfl
    rw [normalized, hbest]
    by_cases h0 : minOf (column cohort key) = 0
    · simp only [normalize, lowRatio, h0, if_true, zero_add]
    · simp only [normalize, lowRatio, h0, if_false, add_zero]
  | higherBetter => rfl
  | directValue => rfl

/-- What a component adds to the half-width of the composite's interval, relative to its share:
the relative error of the raw value, carried into the normalized one. -/
def halfTerm (cohort : List (ProviderInput K)) (p : ProviderInput K) (c : Component K) : K :=
  match p.ciHalf c.key with
  | some h =>
    if c.direction ≠ .directValue ∧ deref (p.values c.key) ≠ 0 then
      normalized cohort p c * (h / deref (p.values c.key))
    else 0
  | none => 0

/-- The breakdown of one component. -/
def scoreOf (cohort : List (ProviderInput K)) (p : ProviderInput K) (c : Component K) : ComponentScore K :=
  if active cohort c.key then
    ⟨c.key, p.values c.key, some (normalized cohort p c), c.weight / activeWeight cohort, false⟩
  else ⟨c.key, p.values c.key, none, c.weight, true⟩

omit [LinearOrder K] in
theorem mem_activeComponents {cohort : List (ProviderInput K)} {c : Component K} :
    c ∈ activeComponents cohort ↔ c ∈ components ∧ active cohort c.key = true := by
  rw [activeComponents, List.mem_filter]

omit [LinearOrder K] in
/-- Every key is that of a component. -/
theorem exists_component (key : ComponentKey) : ∃ c ∈ (components : List (Component K)), c.key = key := by
  cases key <;> simp [components]

omit [Field K] [LinearOrder K] in
theorem active_iff {cohort : List (ProviderInput K)} {key : ComponentKey} :
    active cohort key = true ↔ cohort ≠ [] ∧ ∀ p ∈ cohort, (p.values key).isSome = true := by
  simp [active]

omit [LinearOrder K] in
/-- A raw value of an active component. -/
theorem values_of_active {cohort : List (ProviderInput K)} {key : ComponentKey} (h : active cohort key = true)
    {p : ProviderInput K} (hp : p ∈ cohort) : p.values key = some (deref (p.values key)) := by
  obtain ⟨v, hv⟩ := Option.isSome_iff_exists.mp ((active_iff.mp h).2 p hp)
  rw [hv]
  rfl

omit [LinearOrder K] in
theorem activeWeight_eq (cohort : List (ProviderInput K)) :
    activeWeight cohort = totalWeight (activeComponents cohort) Component.weight := by
  suffices h : ∀ (l : List (Component K)) (w : K),
      l.foldl (fun w c => if active cohort c.key then w + c.weight else w) w =
        w + ((l.filter fun c => active cohort c.key).map Component.weight).sum by
    rw [activeWeight, h, zero_add]
    rfl
  intro l
  induction l with
  | nil => simp
  | cons c l ih =>
    intro w
    rw [List.foldl_cons, ih, List.filter_cons]
    split_ifs
    · rw [List.map_cons, List.sum_cons, add_assoc]
    · rfl

/-- **What the loop over the components leaves**: the weighted means of the normalized values and
of the relative errors, and the breakdown of every component. -/
theorem compositeOf_eq (cohort : List (ProviderInput K)) (p : ProviderInput K) :
    compositeOf cohort p =
      { composite := weightedMean (activeComponents cohort) Component.weight (normalized cohort p)
        ciHalf := weightedMean (activeComponents cohort) Component.weight (halfTerm cohort p)
        scores := components.map (scoreOf cohort p) } := by
  suffices h : ∀ (l : List (Component K)) (r : Composite K),
      l.foldl (Composite.addComponent cohort p) r =
        { composite := r.composite + ((l.filter fun c => active cohort c.key).map fun c =>
            c.weight / activeWeight cohort * normalized cohort p c).sum
          ciHalf := r.ciHalf + ((l.filter fun c => active cohort c.key).map fun c =>
            c.weight / activeWeight cohort * halfTerm cohort p c).sum
          scores := r.scores ++ l.map (scoreOf cohort p) } by
    rw [compositeOf, h, activeWeight_eq]
    simp only [zero_add, List.nil_append, weightedMean, shareOf, activeComponents]
  intro l
  induction l with
  | nil => simp
  | cons c l ih =>
    intro r
    rw [List.foldl_cons, ih, List.filter_cons, Composite.addComponent]
    by_cases hc : active cohort c.key = true
    · simp only [hc, if_true, List.map_cons, List.sum_cons, scoreOf, List.append_assoc, List.singleton_append,
        normalized, halfTerm, Composite.mk.injEq, and_true]
      refine ⟨add_assoc _ _ _, ?_⟩
      cases p.ciHalf c.key with
      | none => simp
      | some h =>
        split_ifs
        · rw [add_assoc, mul_assoc]
        · simp
    · simp only [hc, if_false, List.map_cons, scoreOf, List.append_assoc, List.singleton_append,
        Bool.false_eq_true]

/-! ### The published weights -/

/-- The breakdown of the components that are not excluded. -/
def ProviderRanking.activeScores (r : ProviderRanking K) : List (ComponentScore K) :=
  r.componentScores.filter fun s => !s.excluded

theorem activeScores_rankProvider (cohort : List (ProviderInput K)) (p : ProviderInput K) :
    (rankProvider cohort p).activeScores = (activeComponents cohort).map (scoreOf cohort p) := by
  have hactive : ∀ c : Component K, (!(scoreOf cohort p c).excluded) = active cohort c.key := by
    intro c
    rw [scoreOf]
    split_ifs with hc
    · exact hc.symm
    · rw [Bool.not_eq_true] at hc
      exact hc.symm
  change (compositeOf cohort p).scores.filter _ = _
  rw [compositeOf_eq, List.filter_map, activeComponents]
  exact congrArg (List.map _) (List.filter_congr fun c _ => hactive c)

/-- The published weights are the shares of the active components. -/
theorem weights_activeScores (cohort : List (ProviderInput K)) (p : ProviderInput K) :
    (rankProvider cohort p).activeScores.map ComponentScore.weight =
      (activeComponents cohort).map (shareOf (activeComponents cohort) Component.weight) := by
  rw [activeScores_rankProvider, List.map_map]
  refine List.map_congr_left fun c hc => ?_
  rw [Function.comp, scoreOf, if_pos (mem_activeComponents.mp hc).2, shareOf, activeWeight_eq]

omit [LinearOrder K] in
/-- A component is active exactly when every provider has a value for it. -/
theorem activeComponents_ne_nil_iff {cohort : List (ProviderInput K)} :
    activeComponents cohort ≠ [] ↔ cohort ≠ [] ∧ ∃ key, ∀ p ∈ cohort, (p.values key).isSome = true := by
  constructor
  · intro h
    obtain ⟨c, hc⟩ := List.exists_mem_of_ne_nil _ h
    obtain ⟨hne, hall⟩ := active_iff.mp (mem_activeComponents.mp hc).2
    exact ⟨hne, c.key, hall⟩
  · rintro ⟨hne, key, hall⟩
    obtain ⟨c, hc, rfl⟩ := exists_component (K := K) key
    exact List.ne_nil_of_mem (mem_activeComponents.mpr ⟨hc, active_iff.mpr ⟨hne, hall⟩⟩)

theorem compositeScore_isSome_iff (cohort : List (ProviderInput K)) (p : ProviderInput K) :
    (rankProvider cohort p).compositeScore.isSome = true ↔ status p ≠ .unranked := by
  simp only [rankProvider]
  split_ifs with h <;> simp [h]

/-- The `CHECK` constraints of `provider_rankings`; a null value passes a range check. -/
structure RankingRow.Checks (row : RankingRow K) : Prop where
  sampleCount : 0 ≤ row.sampleCount
  coverage : ∀ v, row.coverage = some v → 0 ≤ v ∧ v ≤ 1
  reliability : ∀ v, row.reliability = some v → 0 ≤ v ∧ v ≤ 1
  period : row.periodStart < row.periodEnd
  unranked : row.compositeScore = none ↔ row.status = .unranked
  compositeScore : ∀ v, row.compositeScore = some v → 0 ≤ v ∧ v ≤ 1

section Ordered

variable [IsStrictOrderedRing K]

omit [LinearOrder K] [IsStrictOrderedRing K] in
theorem forall_mem_components {P : Component K → Prop} :
    (∀ c ∈ components, P c) ↔ P ⟨.tempMAE, 30 / 100, .lowerBetter⟩ ∧ P ⟨.precipF1, 25 / 100, .higherBetter⟩ ∧
      P ⟨.rainMAEAll, 15 / 100, .lowerBetter⟩ ∧ P ⟨.windMAE, 15 / 100, .lowerBetter⟩ ∧
      P ⟨.tempBiasAbs, 5 / 100, .lowerBetter⟩ ∧ P ⟨.coverage, 5 / 100, .directValue⟩ ∧
      P ⟨.reliability, 5 / 100, .directValue⟩ := by
  simp [components]

theorem weight_pos {cohort : List (ProviderInput K)} : ∀ c ∈ activeComponents cohort, 0 < c.weight := by
  have h : ∀ c ∈ (components : List (Component K)), 0 < c.weight := by
    rw [forall_mem_components]
    norm_num
  exact fun c hc => h c (mem_activeComponents.mp hc).1

/-- **The shares of the published components sum to one** exactly when no provider of the cohort
is scored, or there is a component that all of them have a value for. -/
theorem published_shares_iff (cohort : List (ProviderInput K)) :
    (∀ r ∈ rankCohort cohort, r.compositeScore.isSome = true →
        r.activeScores ≠ [] ∧ (r.activeScores.map ComponentScore.weight).sum = 1) ↔
      (∀ p ∈ cohort, status p = .unranked) ∨ ∃ key, ∀ p ∈ cohort, (p.values key).isSome = true := by
  simp only [rankCohort, List.forall_mem_map, compositeScore_isSome_iff]
  constructor
  · intro h
    by_cases hst : ∀ p ∈ cohort, status p = .unranked
    · exact .inl hst
    · simp only [not_forall, exists_prop] at hst
      obtain ⟨p, hp, hst⟩ := hst
      have hne := (h p hp hst).1
      rw [activeScores_rankProvider, ne_eq, List.map_eq_nil_iff] at hne
      exact .inr (activeComponents_ne_nil_iff.mp hne).2
  · rintro (hst | hkey) p hp hp'
    · exact absurd (hst p hp) hp'
    · have hne := activeComponents_ne_nil_iff.mpr ⟨List.ne_nil_of_mem hp, hkey⟩
      rw [weights_activeScores, activeScores_rankProvider, ne_eq, List.map_eq_nil_iff]
      exact ⟨hne, sum_shares (totalWeight_pos weight_pos hne).ne'⟩

/-- A provider alone in its cohort, with the rows of a wet week, is scored from all its components. -/
theorem published_shares_alone :
    (rankCell (thirtyHourRows 1) sampleWeek).map (fun r => (r.status, r.compositeScore.isSome)) = [(.ranked, true)] ∧
      ∀ r ∈ rankCell (thirtyHourRows 1) sampleWeek, r.compositeScore.isSome = true →
        r.activeScores ≠ [] ∧ (r.activeScores.map ComponentScore.weight).sum = 1 :=
  ⟨by decide +kernel, (published_shares_iff _).mpr (.inr ⟨.tempMAE, by decide +kernel⟩)⟩

/-- The rows of a second provider whose pairs have no value that counts, in a week without
scheduled slots: all of them are null. -/
def nullRows : List (MetricValue ℚ) := readRows id ⟨2, 1, 60⟩ sampleWeek [] ⟨0, 0, 0, 0, 0⟩ 0 0

/-- Beside a provider with null rows, the provider of the wet week is ranked with the score zero,
computed from no component. -/
theorem scored_from_nothing :
    (rankCell (thirtyHourRows 1 ++ nullRows) sampleWeek).map
        (fun r => (r.providerID, r.status, r.compositeScore, r.activeScores.length)) =
      [(1, .ranked, some 0, 0), (2, .unranked, none, 0)] := by
  decide +kernel

/-! ### Ranges -/

/-- The components whose raw values lie between zero and one. -/
def ComponentKey.isRate : ComponentKey → Bool
  | .precipF1 | .coverage | .reliability => true
  | _ => false

/-- A provider's inputs are in range: no negative error, rate, or half-width, and no rate above one. -/
structure ProviderInput.InRange (p : ProviderInput K) : Prop where
  values_nonneg : ∀ key v, p.values key = some v → 0 ≤ v
  values_le_one : ∀ key v, key.isRate = true → p.values key = some v → v ≤ 1
  ciHalf_nonneg : ∀ key h, p.ciHalf key = some h → 0 ≤ h
  coverage_mem : ∀ v, p.coverage = some v → 0 ≤ v ∧ v ≤ 1
  reliability_mem : ∀ v, p.reliability = some v → 0 ≤ v ∧ v ≤ 1

theorem epsilon_pos : (0 : K) < epsilon := by
  rw [epsilon]
  norm_num

theorem lowRatio_mem {vals : List K} (hvals : ∀ x ∈ vals, 0 ≤ x) {v : K} (hv : v ∈ vals) :
    0 ≤ lowRatio vals v ∧ lowRatio vals v ≤ 1 := by
  have hmin : 0 ≤ minOf vals := hvals _ (minOf_mem (List.ne_nil_of_mem hv))
  have hle : minOf vals ≤ v := minOf_le hv
  rw [lowRatio]
  split_ifs with h0
  · have heps : (0 : K) < epsilon := epsilon_pos
    have hpos : 0 < v + epsilon := by linarith
    exact ⟨div_nonneg heps.le hpos.le, (div_le_one hpos).mpr (by linarith)⟩
  · have hpos : 0 < v := (lt_of_le_of_ne hmin (Ne.symm h0)).trans_le hle
    exact ⟨div_nonneg hmin hpos.le, (div_le_one hpos).mpr hle⟩

theorem highRatio_mem {vals : List K} (hvals : ∀ x ∈ vals, 0 ≤ x) {v : K} (hv : v ∈ vals) :
    0 ≤ highRatio vals v ∧ highRatio vals v ≤ 1 := by
  have hv0 : 0 ≤ v := hvals v hv
  have hle : v ≤ maxOf vals := le_maxOf hv
  rw [highRatio]
  split_ifs with h0
  · exact ⟨le_rfl, zero_le_one⟩
  · have hpos : 0 < maxOf vals := lt_of_le_of_ne (hv0.trans hle) (Ne.symm h0)
    exact ⟨div_nonneg hv0 hpos.le, (div_le_one hpos).mpr hle⟩

omit [LinearOrder K] [IsStrictOrderedRing K] in
/-- Only errors are better low. -/
theorem isRate_of_mem_components : ∀ c ∈ (components : List (Component K)),
    c.direction ≠ .lowerBetter → c.key.isRate = true := by
  rw [forall_mem_components]
  simp [ComponentKey.isRate]

variable {cohort : List (ProviderInput K)} {p : ProviderInput K} {c : Component K}

/-- **Every normalized value of an active component lies between zero and one.** -/
theorem normalized_mem (h : ∀ q ∈ cohort, q.InRange) (hp : p ∈ cohort) (hc : c ∈ activeComponents cohort) :
    0 ≤ normalized cohort p c ∧ normalized cohort p c ≤ 1 := by
  obtain ⟨hcs, hact⟩ := mem_activeComponents.mp hc
  have hcol : ∀ x ∈ column cohort c.key, 0 ≤ x :=
    List.forall_mem_map.mpr fun q hq => (h q hq).values_nonneg _ _ (values_of_active hact hq)
  have hv : deref (p.values c.key) ∈ column cohort c.key := List.mem_map_of_mem hp
  rw [normalized_eq]
  cases hd : c.direction with
  | lowerBetter => exact lowRatio_mem hcol hv
  | higherBetter => exact highRatio_mem hcol hv
  | directValue =>
    have hrate := isRate_of_mem_components c hcs (by rw [hd]; decide)
    exact ⟨hcol _ hv, (h p hp).values_le_one _ _ hrate (values_of_active hact hp)⟩

theorem halfTerm_nonneg (h : ∀ q ∈ cohort, q.InRange) (hp : p ∈ cohort) (hc : c ∈ activeComponents cohort) :
    0 ≤ halfTerm cohort p c := by
  have hact := (mem_activeComponents.mp hc).2
  have hv : 0 ≤ deref (p.values c.key) := (h p hp).values_nonneg _ _ (values_of_active hact hp)
  rw [halfTerm]
  cases hh : p.ciHalf c.key with
  | none => exact le_rfl
  | some half =>
    simp only
    split_ifs
    · exact mul_nonneg (normalized_mem h hp hc).1 (div_nonneg ((h p hp).ciHalf_nonneg _ _ hh) hv)
    · exact le_rfl

theorem coverageRankedMin_pos : (0 : K) < coverageRankedMin := by
  rw [coverageRankedMin]
  norm_num

theorem coveragePenalty_mem {coverage : Option K} (h : ∀ v, coverage = some v → 0 ≤ v) :
    0 ≤ coveragePenalty coverage ∧ coveragePenalty coverage ≤ 1 := by
  have hpos : (0 : K) < coverageRankedMin := coverageRankedMin_pos
  cases coverage with
  | none => exact ⟨zero_le_one, le_rfl⟩
  | some v =>
    simp only [coveragePenalty]
    split_ifs with hlt
    · exact ⟨div_nonneg (h v rfl) hpos.le, (div_le_one hpos).mpr hlt.le⟩
    · exact ⟨zero_le_one, le_rfl⟩

/-- The score of a provider before it is clamped. -/
def unclamped (cohort : List (ProviderInput K)) (p : ProviderInput K) : K :=
  (compositeOf cohort p).composite * coveragePenalty p.coverage

/-- The half-width of a provider's interval. -/
def halfWidth (cohort : List (ProviderInput K)) (p : ProviderInput K) : K :=
  (compositeOf cohort p).ciHalf * coveragePenalty p.coverage

theorem unclamped_mem (h : ∀ q ∈ cohort, q.InRange) (hp : p ∈ cohort) :
    0 ≤ unclamped cohort p ∧ unclamped cohort p ≤ 1 := by
  obtain ⟨hpen0, hpen1⟩ := coveragePenalty_mem fun v hv => ((h p hp).coverage_mem v hv).1
  rw [unclamped, compositeOf_eq]
  have h0 := weightedMean_nonneg weight_pos fun c hc => (normalized_mem h hp hc).1
  have h1 := weightedMean_le_one weight_pos fun c hc => (normalized_mem h hp hc).2
  exact ⟨mul_nonneg h0 hpen0, mul_le_one₀ h1 hpen0 hpen1⟩

omit [IsStrictOrderedRing K] in
theorem clamp01_eq_self {x : K} (h0 : 0 ≤ x) (h1 : x ≤ 1) : clamp01 x = x := by
  rw [clamp01, if_neg (not_lt.mpr h0), if_neg (not_lt.mpr h1)]

theorem clamp01_mono {x y : K} (h : x ≤ y) : clamp01 x ≤ clamp01 y := by
  simp only [clamp01]
  split_ifs <;> linarith

theorem halfWidth_nonneg (h : ∀ q ∈ cohort, q.InRange) (hp : p ∈ cohort) : 0 ≤ halfWidth cohort p := by
  rw [halfWidth, compositeOf_eq]
  exact mul_nonneg (weightedMean_nonneg weight_pos fun c hc => halfTerm_nonneg h hp hc)
    (coveragePenalty_mem fun v hv => ((h p hp).coverage_mem v hv).1).1

/-- In range, the score is published as it is before the clamping. -/
theorem compositeScore_of_inRange (h : ∀ q ∈ cohort, q.InRange) (hp : p ∈ cohort) :
    (rankProvider cohort p).compositeScore = if status p ≠ .unranked then some (unclamped cohort p) else none := by
  obtain ⟨h0, h1⟩ := unclamped_mem h hp
  change (if status p ≠ .unranked then some (clamp01 (unclamped cohort p)) else none) = _
  rw [clamp01_eq_self h0 h1]

/-- In range, the interval is around the score. -/
theorem interval_of_inRange (h : ∀ q ∈ cohort, q.InRange) (hp : p ∈ cohort) {lo hi : K}
    (hlo : (rankProvider cohort p).ciLower = some lo) (hhi : (rankProvider cohort p).ciUpper = some hi) :
    ∃ c, (rankProvider cohort p).compositeScore = some c ∧ lo ≤ c ∧ c ≤ hi := by
  obtain ⟨h0, h1⟩ := unclamped_mem h hp
  have hhalf := halfWidth_nonneg h hp
  have hself := clamp01_eq_self h0 h1
  change (if status p ≠ .unranked ∧ 0 < halfWidth cohort p then
    some (clamp01 (clamp01 (unclamped cohort p) - halfWidth cohort p)) else none) = some lo at hlo
  change (if status p ≠ .unranked ∧ 0 < halfWidth cohort p then
    some (clamp01 (clamp01 (unclamped cohort p) + halfWidth cohort p)) else none) = some hi at hhi
  rw [hself] at hlo hhi
  split_ifs at hlo hhi with hs
  cases hlo
  cases hhi
  refine ⟨unclamped cohort p, by rw [compositeScore_of_inRange h hp, if_pos hs.1], ?_, ?_⟩
  · calc clamp01 (unclamped cohort p - halfWidth cohort p) ≤ clamp01 (unclamped cohort p) :=
        clamp01_mono (by linarith)
      _ = unclamped cohort p := hself
  · calc unclamped cohort p = clamp01 (unclamped cohort p) := hself.symm
      _ ≤ clamp01 (unclamped cohort p + halfWidth cohort p) := clamp01_mono (by linarith)

/-- **From inputs in range `RankCohort` makes rows in range**: every normalized component and every
score before its clamping lies between zero and one, the interval is around the score, a score
is missing exactly for unranked rows, and a row passes the constraints of its table as soon as
its period does. -/
theorem rankCohort_inRange (h : ∀ q ∈ cohort, q.InRange) {r : ProviderRanking K} (hr : r ∈ rankCohort cohort)
    (cell : LocationHorizon) (period : Period) :
    (∀ s ∈ r.componentScores, ∀ n, s.normalized = some n → 0 ≤ n ∧ n ≤ 1) ∧
      (∃ p ∈ cohort, r = rankProvider cohort p ∧ 0 ≤ unclamped cohort p ∧ unclamped cohort p ≤ 1 ∧
        ∀ c, r.compositeScore = some c → c = unclamped cohort p) ∧
      r.ciLower.isSome = r.ciUpper.isSome ∧
      (∀ lo hi, r.ciLower = some lo → r.ciUpper = some hi → ∃ c, r.compositeScore = some c ∧ lo ≤ c ∧ c ≤ hi) ∧
      (r.compositeScore = none ↔ r.status = .unranked) ∧
      ((toRow r cell period).Checks ↔ period.start < period.stop) := by
  obtain ⟨p, hp, rfl⟩ := List.mem_map.mp hr
  obtain ⟨h0, h1⟩ := unclamped_mem h hp
  have hscore := compositeScore_of_inRange h hp
  have hself : ∀ c, (rankProvider cohort p).compositeScore = some c → c = unclamped cohort p := by
    intro c hc
    rw [hscore] at hc
    split_ifs at hc
    exact (Option.some.inj hc).symm
  have hnone : (rankProvider cohort p).compositeScore = none ↔ (rankProvider cohort p).status = .unranked := by
    rw [← Option.not_isSome_iff_eq_none, compositeScore_isSome_iff, not_not]
    rfl
  refine ⟨?_, ⟨p, hp, rfl, h0, h1, hself⟩, ?_, fun lo hi => interval_of_inRange h hp, hnone, ?_⟩
  · intro s hs n hn
    change s ∈ (compositeOf cohort p).scores at hs
    rw [compositeOf_eq] at hs
    obtain ⟨c, hc, rfl⟩ := List.mem_map.mp hs
    rw [scoreOf] at hn
    split_ifs at hn with hact
    · cases hn
      exact normalized_mem h hp (mem_activeComponents.mpr ⟨hc, hact⟩)
  · simp only [rankProvider]
    split_ifs <;> rfl
  · constructor
    · exact fun hchecks => hchecks.period
    · exact fun hperiod => ⟨Nat.zero_le _, (h p hp).coverage_mem, (h p hp).reliability_mem, hperiod, hnone,
        fun c hc => hself c hc ▸ ⟨h0, h1⟩⟩

end Ordered

/-- A provider with plain values in range. -/
def plainInput (id : ℕ) : ProviderInput ℚ where
  providerID := id
  values _ := some 1
  ciHalf _ := some (1 / 10)
  tempSampleCount := 30
  precipSampleCount := 30
  calendarDays := 7
  coverage := some 1
  reliability := some 1

theorem plainInput_inRange (id : ℕ) : (plainInput id).InRange := by
  constructor <;> simp [plainInput]

/-- A cohort of two such providers is stored. -/
theorem plainInput_checks :
    (∀ p ∈ [plainInput 1, plainInput 2], p.InRange) ∧
      ∀ r ∈ rankCohort [plainInput 1, plainInput 2], (toRow r ⟨1, 60⟩ sampleWeek).Checks := by
  have h : ∀ p ∈ [plainInput 1, plainInput 2], p.InRange := by simp [plainInput_inRange]
  refine ⟨h, fun r hr => ?_⟩
  obtain ⟨-, -, -, -, -, hchecks⟩ := rankCohort_inRange h hr ⟨1, 60⟩ sampleWeek
  exact hchecks.mpr (by decide)

end ForecastIQ.Analysis
