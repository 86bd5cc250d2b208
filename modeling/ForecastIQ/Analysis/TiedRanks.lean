import ForecastIQ.Analysis.OrderRankings

/-!
# Ties and the order of the rows

Two questions about the ranks of `orderRankings`. The methodology shows providers with
overlapping intervals as tied, but a row is compared with the leader of its group only,
and overlapping is not transitive: rows of different groups may overlap, unless the leaders
cover the rows behind them (`LeadersCover`). And the query that supplies the rows does not
order them, while the leader among rows with the same composite is the first one supplied:
the ranks can change with the order of the rows, unless the tiers of equal composites are
steady (`Steady`).
-/

namespace ForecastIQ.Analysis

open ForecastIQ.Foundations Eval

variable {K : Type*} [Field K] [LinearOrder K]

/-! ### The entries of a class -/

omit [Field K] in
theorem overlaps_comm (a b : RankingReadRow K) : overlaps a b = overlaps b a := by
  simp only [overlaps, ciOverlap, RankingReadRow.toRanking]
  cases a.ciLower <;> cases a.ciUpper <;> cases b.ciLower <;> cases b.ciUpper <;> simp [and_comm]

/-- The number of the first group of a class. -/
def firstRank (rows : List (RankingReadRow K)) : RankingStatus → ℕ
  | .provisionallyRanked => (tieGroups overlaps (displayed .ranked rows)).length + 1
  | _ => 1

/-- The groups of a class hold rows of the class. -/
theorem filter_status_numbered (rows : List (RankingReadRow K)) (base : ℕ) (s s' : RankingStatus) :
    (numbered base (tieGroups overlaps (displayed s rows))).filter (fun p => p.row.status = s') =
      if s = s' then numbered base (tieGroups overlaps (displayed s rows)) else [] := by
  have hstatus : ∀ p ∈ numbered base (tieGroups overlaps (displayed s rows)), p.row.status = s := by
    intro p hp
    have hrow := List.mem_map_of_mem (f := Placed.row) hp
    rw [map_row_numbered, flatten_tieGroups] at hrow
    exact (mem_displayed.mp hrow).2.1
  split_ifs with he
  · exact List.filter_eq_self.mpr fun p hp => by simpa [he] using hstatus p hp
  · exact List.filter_eq_nil_iff.mpr fun p hp => by simpa [hstatus p hp] using he

/-- The entries of a class with ranks are its numbered groups. -/
theorem filter_status_orderRankings (rows : List (RankingReadRow K)) {s : RankingStatus} (hs : s ≠ .unranked) :
    (orderRankings rows).filter (fun p => p.row.status = s) =
      numbered (firstRank rows s) (tieGroups overlaps (displayed s rows)) := by
  have hunranked : ((rows.filter fun r => r.status = .unranked).map fun r => (⟨r, 0, false⟩ : RankedRow K)).filter
      (fun p => p.row.status = s) = [] := by
    refine List.filter_eq_nil_iff.mpr (List.forall_mem_map.mpr fun r hr => ?_)
    rw [List.mem_filter, decide_eq_true_eq] at hr
    simpa [hr.2] using hs.symm
  rw [orderRankings_eq, displayGroups, numbered_append, List.filter_append, List.filter_append, hunranked,
    filter_status_numbered, filter_status_numbered]
  cases s with
  | ranked => simp [firstRank]
  | provisionallyRanked => simp [firstRank, Nat.add_comm]
  | unranked => exact absurd rfl hs

/-! ### Overlapping rows -/

/-- **Overlapping rows of a class have the same rank exactly when, in the order of display, each row that
overlaps none before it overlaps the next ones in a run, and all that those overlap.** -/
theorem orderRankings_overlap_iff (rows : List (RankingReadRow K)) :
    (∀ p ∈ orderRankings rows, ∀ q ∈ orderRankings rows, p.row.status = q.row.status →
        overlaps p.row q.row = true → p.rank = q.rank) ↔
      ∀ s, s ≠ .unranked → LeadersCover overlaps [] (displayed s rows) := by
  have hclass : ∀ {s}, s ≠ .unranked → (LeadersCover overlaps [] (displayed s rows) ↔
      ∀ p ∈ orderRankings rows, ∀ q ∈ orderRankings rows, p.row.status = s → q.row.status = s →
        overlaps p.row q.row = true → p.rank = q.rank) := by
    intro s hs
    rw [← separated_iff, Separated, pairwise_groups_iff overlaps_comm (firstRank rows s),
      ← filter_status_orderRankings rows hs]
    simp only [List.mem_filter, decide_eq_true_eq]
    exact ⟨fun h p hp q hq hps hqs => h p ⟨hp, hps⟩ q ⟨hq, hqs⟩, fun h p hp q hq => h p hp.1 q hq.1 hp.2 hq.2⟩
  constructor
  · intro h s hs
    exact (hclass hs).mpr fun p hp q hq hps hqs => h p hp q hq (hps.trans hqs.symm)
  · intro h p hp q hq he hover
    by_cases hs : q.row.status = .unranked
    · have hzero : ∀ {p : RankedRow K}, p ∈ orderRankings rows → p.row.status = .unranked → p.rank = 0 := by
        intro p hp hps
        rcases mem_orderRankings hp with hp | ⟨-, hrank, -⟩
        · exact absurd hps (row_of_mem_numbered hp).2.1
        · exact hrank
      rw [hzero hp (he.trans hs), hzero hq hs]
    · exact (hclass hs).mp (h _ hs) p hp q hq he rfl hover

/-- Three rows whose intervals all overlap. -/
def overlappingRows : List (RankingReadRow ℚ) :=
  [⟨1, some (9 / 10), some (7 / 10), some 1, .ranked⟩, ⟨2, some (8 / 10), some (6 / 10), some (9 / 10), .ranked⟩,
   ⟨3, some (7 / 10), some (5 / 10), some (8 / 10), .ranked⟩]

/-- Rows that all overlap share one rank. -/
theorem overlap_sameRank :
    (∀ s, s ≠ .unranked → LeadersCover overlaps [] (displayed s overlappingRows)) ∧
      ∀ p ∈ orderRankings overlappingRows, ∀ q ∈ orderRankings overlappingRows, p.row.status = q.row.status →
        overlaps p.row q.row = true → p.rank = q.rank := by
  have hcover : ∀ s, s ≠ .unranked → LeadersCover overlaps [] (displayed s overlappingRows) := by
    intro s _
    cases s <;> decide +kernel
  exact ⟨hcover, (orderRankings_overlap_iff overlappingRows).mpr hcover⟩

/-- A chain: the second row overlaps the first and the third. -/
def chainedRows : List (RankingReadRow ℚ) :=
  [⟨1, some (90 / 100), some (80 / 100), some 1, .ranked⟩,
   ⟨2, some (75 / 100), some (65 / 100), some (85 / 100), .ranked⟩,
   ⟨3, some (60 / 100), some (50 / 100), some (70 / 100), .ranked⟩]

/-- The second and the third row overlap and have different ranks. -/
theorem overlap_chainedRows :
    ∃ p ∈ orderRankings chainedRows, ∃ q ∈ orderRankings chainedRows, p.row.status = q.row.status ∧
      overlaps p.row q.row = true ∧ p.row.providerID = 2 ∧ p.rank = 1 ∧ q.row.providerID = 3 ∧ q.rank = 2 := by
  decide +kernel

/-! ### The order of the supply -/

section Supply

variable {rows : List (RankingReadRow K)} {s : RankingStatus}

/-- The ranks of a class do not depend on the order of its rows exactly when its tiers are steady. -/
theorem class_perm_iff (r : ℕ) :
    (∀ l, l.Perm (scoredRows s rows) → (numbered (r + 1) (tieGroups overlaps (ordered bestFirst l))).Perm
        (numbered (r + 1) (tieGroups overlaps (displayed s rows)))) ↔
      Steady overlaps [none] (tiersOf bestFirst (scoredRows s rows)) := by
  rw [← ranks_perm_iff overlaps_comm r]
  simp only [numbered_perm_iff, displayed]

omit [Field K] [LinearOrder K] in
/-- Every order of the rows of a class is that of some order of all rows, with the other classes as they were. -/
theorem exists_rows_perm {l : List (RankingReadRow K)} (h : l.Perm (scoredRows s rows)) :
    ∃ rows', rows'.Perm rows ∧ scoredRows s rows' = l ∧ ∀ s', s' ≠ s → scoredRows s' rows' = scoredRows s' rows := by
  simp only [scoredRows_eq_filter] at h ⊢
  have hmem : ∀ r ∈ l, r.status = s ∧ r.compositeScore.isSome = true := fun r hr => by
    simpa using (List.mem_filter.mp (h.mem_iff.mp hr)).2
  refine ⟨l ++ rows.filter fun r => !decide (r.status = s ∧ r.compositeScore.isSome = true), ?_, ?_, fun s' hs' => ?_⟩
  · exact (h.append_right _).trans (List.filter_append_perm _ rows)
  · rw [List.filter_append, List.filter_eq_self.mpr (by simpa using hmem), List.filter_filter,
      List.filter_eq_nil_iff.mpr fun r _ => by simp only [Bool.and_not_self, Bool.false_eq_true, not_false_eq_true],
      List.append_nil]
  · rw [List.filter_append, List.filter_filter, List.filter_eq_nil_iff.mpr, List.nil_append]
    · refine List.filter_congr fun r _ => ?_
      by_cases he : r.status = s'
      · simp [he, hs']
      · simp [he]
    · intro r hr
      simp [(hmem r hr).1, hs'.symm]

end Supply

/-- **The ranks and ties do not depend on the order in which the rows are supplied exactly when, from
composite to composite, the rows that may lead a group agree on the rows behind them.** -/
theorem orderRankings_steady_iff (rows : List (RankingReadRow K)) :
    (∀ rows', rows'.Perm rows → (orderRankings rows').Perm (orderRankings rows)) ↔
      ∀ s, s ≠ .unranked → Steady overlaps [none] (tiersOf bestFirst (scoredRows s rows)) := by
  constructor
  · intro h s hs
    obtain ⟨r, hr⟩ : ∃ r, firstRank rows s = r + 1 := by
      cases s <;> exact ⟨_, rfl⟩
    refine (class_perm_iff r).mp fun l hl => ?_
    obtain ⟨rows', hperm, hl', hother⟩ := exists_rows_perm hl
    have hbase : firstRank rows' s = firstRank rows s := by
      cases s with
      | ranked => rfl
      | provisionallyRanked => rw [firstRank, firstRank, displayed, displayed, hother .ranked (by decide)]
      | unranked => rfl
    have hentries := (h rows' hperm).filter fun p => p.row.status = s
    rwa [filter_status_orderRankings rows' hs, filter_status_orderRankings rows hs, displayed, hl', hbase,
      hr] at hentries
  · intro h rows' hperm
    have hscored : ∀ s, (scoredRows s rows').Perm (scoredRows s rows) := fun s => (hperm.filter _).filter _
    have hclass : ∀ {s}, s ≠ .unranked → ∀ r, (numbered (r + 1) (tieGroups overlaps (displayed s rows'))).Perm
        (numbered (r + 1) (tieGroups overlaps (displayed s rows))) := fun hs r =>
      (class_perm_iff r).mpr (h _ hs) _ (hscored _)
    have hranked := hclass (s := .ranked) (by decide) 0
    have hlen := length_eq_of_numbered_perm (fun g hg => ?_) (fun g hg => ?_) hranked
    · rw [orderRankings_eq, orderRankings_eq, displayGroups, displayGroups, numbered_append, numbered_append, hlen,
        Nat.add_comm]
      exact (hranked.append (hclass (by decide) _)).append ((hperm.filter _).map _)
    · obtain ⟨lead, rest, rfl, -⟩ := mem_tieGroups hg
      exact List.cons_ne_nil lead rest
    · obtain ⟨lead, rest, rfl, -⟩ := mem_tieGroups hg
      exact List.cons_ne_nil lead rest

/-- Rows with different composites come in one order only. -/
theorem steady_overlappingRows :
    (∀ s, s ≠ .unranked → Steady overlaps [none] (tiersOf bestFirst (scoredRows s overlappingRows))) ∧
      ∀ rows', rows'.Perm overlappingRows → (orderRankings rows').Perm (orderRankings overlappingRows) := by
  have hsteady : ∀ s, s ≠ .unranked → Steady overlaps [none] (tiersOf bestFirst (scoredRows s overlappingRows)) := by
    intro s _
    cases s <;> decide +kernel
  exact ⟨hsteady, (orderRankings_steady_iff overlappingRows).mpr hsteady⟩

/-- Two rows with the same composite; the third overlaps the interval of the first, not of the second. -/
def equalComposites : List (RankingReadRow ℚ) :=
  [⟨1, some (50 / 100), some (40 / 100), some (60 / 100), .ranked⟩,
   ⟨2, some (50 / 100), some (50 / 100), some (90 / 100), .ranked⟩,
   ⟨3, some (30 / 100), some (20 / 100), some (45 / 100), .ranked⟩]

/-- With the first two rows exchanged, the third provider goes from a shared first rank to the second rank. -/
theorem equalComposites_ranks :
    ∃ rows', rows'.Perm equalComposites ∧
      ((orderRankings equalComposites).map fun p => (p.row.providerID, p.rank, p.tied)) =
        [(1, 1, true), (2, 1, true), (3, 1, true)] ∧
      ((orderRankings rows').map fun p => (p.row.providerID, p.rank, p.tied)) =
        [(2, 1, true), (1, 1, true), (3, 2, false)] ∧
      ¬ (orderRankings rows').Perm (orderRankings equalComposites) :=
  ⟨[⟨2, some (50 / 100), some (50 / 100), some (90 / 100), .ranked⟩,
    ⟨1, some (50 / 100), some (40 / 100), some (60 / 100), .ranked⟩,
    ⟨3, some (30 / 100), some (20 / 100), some (45 / 100), .ranked⟩], List.Perm.swap _ _ _, by decide +kernel,
    by decide +kernel, by decide +kernel⟩

end ForecastIQ.Analysis
