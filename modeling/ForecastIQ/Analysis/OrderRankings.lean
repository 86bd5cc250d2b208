import ForecastIQ.Analysis.Rank
import ForecastIQ.Foundations.TieTiers
import Mathlib.Data.List.FinRange
import Mathlib.Order.OrderDual

/-!
# The order of a ranking

`orderRankings` of `internal/analysis/read.go` puts the stored rankings of a cell into the
order of display: the ranked ones, the provisionally ranked ones, and the rest. Inside the
first two classes they are ordered by `RankOrder` into groups of overlapping intervals,
and the groups are numbered through.

The result is the numbering of the groups of ties of both classes and the unranked rows
(`orderRankings_eq`), so what it promises follows from the library of ties.
-/

namespace ForecastIQ.Analysis

open ForecastIQ.Foundations Eval

variable {K : Type*} [Field K] [LinearOrder K]

/-! ### The code -/

/-- `RankingReadRow`: the columns that the order depends on. -/
structure RankingReadRow (K : Type*) where
  providerID : ℕ
  compositeScore : Option K
  ciLower : Option K
  ciUpper : Option K
  status : RankingStatus
  deriving DecidableEq, Repr

/-- `RankedRow`: a row with its display rank, which is `0` for an unranked row. -/
abbrev RankedRow (K : Type*) := Placed (RankingReadRow K)

/-- The ranking that `rankGroups` makes of a row; `RankOrder` does not read the fields it leaves out. -/
def RankingReadRow.toRanking (r : RankingReadRow K) : ProviderRanking K :=
  { providerID := r.providerID
    compositeScore := r.compositeScore
    ciLower := r.ciLower
    ciUpper := r.ciUpper
    status := .unranked
    sampleCount := 0
    coverage := none
    reliability := none
    componentScores := [] }

/-- `RankOrder`, with the groups of indexes that it returns. -/
def rankIndexes (rankings : List (ProviderRanking K)) : List (List (Fin rankings.length)) :=
  let idx := (List.finRange rankings.length).filter fun i => (rankings.get i).compositeScore.isSome
  let sorted := idx.insertionSort fun a b =>
    deref (rankings.get b).compositeScore ≤ deref (rankings.get a).compositeScore
  sorted.foldl (joinLast fun lead i => ciOverlap (rankings.get lead) (rankings.get i)) []

/-- `rankGroups`: appends the groups of the rows, numbered from `base` on, and returns the next number. -/
def rankGroups (subset : List (RankingReadRow K)) (base : ℕ) (out : List (RankedRow K)) :
    ℕ × List (RankedRow K) :=
  if subset.isEmpty then (base, out)
  else
    (rankIndexes (subset.map RankingReadRow.toRanking)).foldl
      (fun s g => (s.1 + 1, s.2 ++ g.map fun idx =>
        ⟨subset.get (idx.cast (List.length_map _)), s.1, decide (1 < g.length)⟩)) (base, out)

/-- `orderRankings`. -/
def orderRankings (rows : List (RankingReadRow K)) : List (RankedRow K) :=
  let ranked := rows.filter fun r => r.status = .ranked
  let provisional := rows.filter fun r => r.status = .provisionallyRanked
  let unranked := rows.filter fun r => r.status = .unranked
  let (next, out) := rankGroups ranked 1 []
  let (_, out) := rankGroups provisional next out
  out ++ unranked.map fun r => ⟨r, 0, false⟩

/-! ### Groups of ties -/

/-- The intervals of the rows overlap. -/
def overlaps (a b : RankingReadRow K) : Bool := ciOverlap a.toRanking b.toRanking

/-- What the rows are ordered by: the composite, the best first. -/
def bestFirst (r : RankingReadRow K) : Kᵒᵈ := OrderDual.toDual (deref r.compositeScore)

/-- The rows of a class that have a composite. -/
def scoredRows (s : RankingStatus) (rows : List (RankingReadRow K)) : List (RankingReadRow K) :=
  (rows.filter fun r => r.status = s).filter fun r => r.compositeScore.isSome

/-- The scored rows of a class in the order of display; the order of the supply is kept among equal composites. -/
def displayed (s : RankingStatus) (rows : List (RankingReadRow K)) : List (RankingReadRow K) :=
  ordered bestFirst (scoredRows s rows)

/-- The groups of both classes. -/
def displayGroups (rows : List (RankingReadRow K)) : List (List (RankingReadRow K)) :=
  tieGroups overlaps (displayed .ranked rows) ++ tieGroups overlaps (displayed .provisionallyRanked rows)

/-- The indexes stand for what has them. -/
theorem map_rankIndexes {β : Type*} {rankings : List (ProviderRanking K)} {f : Fin rankings.length → β}
    {toRanking : β → ProviderRanking K} (h : ∀ i, rankings.get i = toRanking (f i)) :
    (rankIndexes rankings).map (List.map f) =
      tieGroups (fun a b => ciOverlap (toRanking a) (toRanking b))
        (ordered (fun b => OrderDual.toDual (deref (toRanking b).compositeScore))
          (((List.finRange rankings.length).map f).filter fun b => (toRanking b).compositeScore.isSome)) := by
  simp only [rankIndexes, h]
  rw [List.filter_map, ordered_map, tieGroups_map]
  rfl

omit [Field K] in
theorem joinGroup_eq : (joinGroup : List (List (ProviderRanking K)) → _) = joinLast ciOverlap := by
  funext groups r
  unfold joinGroup joinLast
  rcases groups.getLast? with _ | _ | ⟨lead, rest⟩ <;> rfl

/-- `rankOrder` holds the rankings at the indexes. -/
theorem rankOrder_eq (rankings : List (ProviderRanking K)) :
    rankOrder rankings = (rankIndexes rankings).map (List.map rankings.get) := by
  have hget : ∀ i, rankings.get i = id (rankings.get i) := fun _ => rfl
  rw [map_rankIndexes hget, List.map_get_finRange, rankOrder, joinGroup_eq]
  rfl

theorem rankGroups_eq (subset : List (RankingReadRow K)) (base : ℕ) (out : List (RankedRow K)) :
    let groups := tieGroups overlaps (ordered bestFirst (subset.filter fun r => r.compositeScore.isSome))
    rankGroups subset base out = (base + groups.length, out ++ numbered base groups) := by
  have hget : ∀ i, (subset.map RankingReadRow.toRanking).get i =
      (subset.get (i.cast (List.length_map _))).toRanking := by simp
  have hall : (List.finRange (subset.map RankingReadRow.toRanking).length).map
      (fun i => subset.get (i.cast (List.length_map _))) = subset := by
    refine List.ext_getElem (by simp) fun i _ _ => ?_
    simp
  have hgroups := map_rankIndexes hget
  rw [hall] at hgroups
  rw [rankGroups]
  split_ifs with hempty
  · rw [List.isEmpty_iff.mp hempty]
    simp [ordered, numbered]
  · rw [foldl_numbered, ← List.length_map (List.map _), hgroups]
    rfl

/-- **The order of display is the numbering of the groups of both classes, and the unranked rows.** -/
theorem orderRankings_eq (rows : List (RankingReadRow K)) :
    orderRankings rows =
      numbered 1 (displayGroups rows) ++ (rows.filter fun r => r.status = .unranked).map fun r => ⟨r, 0, false⟩ := by
  simp only [orderRankings, rankGroups_eq, displayGroups, numbered_append, List.nil_append]
  rfl

/-! ### What the order promises -/

/-- The place of a class in the order of display. -/
def RankingStatus.place : RankingStatus → ℕ
  | .ranked => 0
  | .provisionallyRanked => 1
  | .unranked => 2

/-- What `out` is to `rows`. -/
structure DisplayOrder (rows : List (RankingReadRow K)) (out : List (RankedRow K)) : Prop where
  /-- Every row is there once. -/
  perm : (out.map Placed.row).Perm rows
  /-- Ranked rows come before provisionally ranked ones, and those before unranked ones. -/
  classes : out.Pairwise fun p q => p.row.status.place ≤ q.row.status.place
  /-- The first number of the scored rows is one. -/
  first : ∀ p ∈ (out.filter fun p => p.row.compositeScore.isSome).head?, p.rank = 1
  /-- From one scored row to the next the number stays or goes up by one. -/
  next : (out.filter fun p => p.row.compositeScore.isSome).IsChain fun p q => q.rank = p.rank ∨ q.rank = p.rank + 1
  /-- The composites of a class do not increase. -/
  composites : out.Pairwise fun p q => p.row.status = q.row.status →
    ∀ x y, p.row.compositeScore = some x → q.row.compositeScore = some y → y ≤ x
  /-- A row that shares its rank overlaps the first row of the rank. -/
  leaders : ∀ p ∈ out, p.tied = true →
    ∃ lead, out.find? (fun q => q.rank = p.rank) = some lead ∧ overlaps lead.row p.row = true
  /-- The tied rows are those whose rank has several rows. -/
  tied : ∀ p ∈ out, p.tied = true ↔ p.rank ≠ 0 ∧ 1 < out.countP fun q => q.rank = p.rank
  /-- The unranked rows have no rank. -/
  unranked : ∀ p ∈ out, p.rank = 0 ↔ p.row.status = .unranked

section Display

variable {rows : List (RankingReadRow K)}

omit [Field K] [LinearOrder K] in
theorem scoredRows_eq_filter (s : RankingStatus) (rows : List (RankingReadRow K)) :
    scoredRows s rows = rows.filter fun r => r.status = s ∧ r.compositeScore.isSome = true := by
  rw [scoredRows, List.filter_filter]
  refine List.filter_congr fun r _ => ?_
  rw [Bool.decide_and, Bool.decide_eq_true, Bool.and_comm]

theorem mem_displayed {s : RankingStatus} {r : RankingReadRow K} :
    r ∈ displayed s rows ↔ r ∈ rows ∧ r.status = s ∧ r.compositeScore.isSome = true := by
  rw [displayed, mem_ordered, scoredRows_eq_filter, List.mem_filter, decide_eq_true_eq]

theorem mem_displayGroups {g : List (RankingReadRow K)} (h : g ∈ displayGroups rows) :
    ∃ lead rest, g = lead :: rest ∧ ∀ y ∈ rest, overlaps lead y = true := by
  rcases List.mem_append.mp h with h | h
  · exact mem_tieGroups h
  · exact mem_tieGroups h

theorem flatten_displayGroups :
    (displayGroups rows).flatten = displayed .ranked rows ++ displayed .provisionallyRanked rows := by
  rw [displayGroups, List.flatten_append, flatten_tieGroups, flatten_tieGroups]

theorem mem_flatten_displayGroups {r : RankingReadRow K} :
    r ∈ (displayGroups rows).flatten ↔ r ∈ rows ∧ r.status ≠ .unranked ∧ r.compositeScore.isSome = true := by
  rw [flatten_displayGroups, List.mem_append, mem_displayed, mem_displayed]
  cases r.status <;> simp

/-- A numbered row is a scored row of the first two classes. -/
theorem row_of_mem_numbered {base : ℕ} {p : RankedRow K} (h : p ∈ numbered base (displayGroups rows)) :
    p.row ∈ rows ∧ p.row.status ≠ .unranked ∧ p.row.compositeScore.isSome = true := by
  have hrow := List.mem_map_of_mem (f := Placed.row) h
  rwa [map_row_numbered, mem_flatten_displayGroups] at hrow

/-- The composites of a class do not increase. -/
theorem displayed_pairwise (rows : List (RankingReadRow K)) (s : RankingStatus) :
    (displayed s rows).Pairwise fun a b => ∀ x y, a.compositeScore = some x → b.compositeScore = some y → y ≤ x := by
  have hsorted : (displayed s rows).Pairwise fun a b => bestFirst a ≤ bestFirst b := pairwise_ordered _
  refine hsorted.imp fun {a b} hle x y hx hy => ?_
  simpa [bestFirst, hx, hy, deref] using hle

/-- An entry is a numbered row or an unranked one. -/
theorem mem_orderRankings {p : RankedRow K} (h : p ∈ orderRankings rows) :
    p ∈ numbered 1 (displayGroups rows) ∨ p.row.status = .unranked ∧ p.rank = 0 ∧ p.tied = false := by
  rw [orderRankings_eq, List.mem_append, List.mem_map] at h
  rcases h with h | ⟨r, hr, rfl⟩
  · exact .inl h
  · exact .inr ⟨by simpa using (List.mem_filter.mp hr).2, rfl, rfl⟩

theorem map_row_orderRankings :
    (orderRankings rows).map Placed.row = displayed .ranked rows ++ displayed .provisionallyRanked rows ++
      rows.filter fun r => r.status = .unranked := by
  rw [orderRankings_eq, List.map_append, List.map_map, map_row_numbered, flatten_displayGroups]
  exact congrArg _ (List.map_id _)

/-- What holds inside each class and from a class to a later one holds of the whole order. -/
theorem pairwise_orderRankings {R : RankingReadRow K → RankingReadRow K → Prop}
    (hclass : ∀ s, (displayed s rows).Pairwise R) (hunranked : (rows.filter fun r => r.status = .unranked).Pairwise R)
    (hcross : ∀ a b : RankingReadRow K, a.status.place < b.status.place → R a b) :
    (orderRankings rows).Pairwise fun p q => R p.row q.row := by
  have hstatus : ∀ {s r}, r ∈ displayed s rows → r.status = s := fun hr => (mem_displayed.mp hr).2.1
  have hlast : ∀ r ∈ rows.filter fun r => r.status = .unranked, r.status = .unranked := fun r hr => by
    simpa using (List.mem_filter.mp hr).2
  refine List.pairwise_map.mp ?_
  rw [map_row_orderRankings, List.pairwise_append, List.pairwise_append]
  refine ⟨⟨hclass _, hclass _, fun a ha b hb => hcross a b ?_⟩, hunranked, fun a ha b hb => hcross a b ?_⟩
  · rw [hstatus ha, hstatus hb]
    decide
  · rw [hlast b hb]
    rcases List.mem_append.mp ha with ha | ha
    · rw [hstatus ha]
      decide
    · rw [hstatus ha]
      decide

omit [Field K] [LinearOrder K] in
/-- The three classes are all there is. -/
theorem filter_status_perm (rows : List (RankingReadRow K)) :
    ((rows.filter fun r => r.status = .ranked) ++ (rows.filter fun r => r.status = .provisionallyRanked) ++
      rows.filter fun r => r.status = .unranked).Perm rows := by
  induction rows with
  | nil => exact .refl _
  | cons r rows ih =>
    cases hs : r.status with
    | ranked => simpa [hs] using ih
    | provisionallyRanked =>
      simp only [List.filter_cons, hs, reduceCtorEq, decide_true, decide_false, Bool.false_eq_true, if_true, if_false,
        List.append_assoc, List.cons_append] at ih ⊢
      exact List.perm_middle.trans (ih.cons r)
    | unranked =>
      simp only [List.filter_cons, hs, reduceCtorEq, decide_true, decide_false, Bool.false_eq_true, if_true, if_false]
      exact List.perm_middle.trans (ih.cons r)

section Constraints

variable (hscore : ∀ r ∈ rows, r.compositeScore = none ↔ r.status = .unranked)

include hscore

omit [Field K] [LinearOrder K] in
theorem scoredRows_eq {s : RankingStatus} (hs : s ≠ .unranked) :
    scoredRows s rows = rows.filter fun r => r.status = s := by
  refine List.filter_eq_self.mpr fun r hr => ?_
  rw [List.mem_filter, decide_eq_true_eq] at hr
  rw [Option.isSome_iff_ne_none, ne_eq, hscore r hr.1, hr.2]
  exact hs

/-- The scored rows are the numbered ones. -/
theorem filter_scored_orderRankings :
    (orderRankings rows).filter (fun p => p.row.compositeScore.isSome) = numbered 1 (displayGroups rows) := by
  have hunranked : ((rows.filter fun r => r.status = .unranked).map fun r => (⟨r, 0, false⟩ : RankedRow K)).filter
      (fun p => p.row.compositeScore.isSome) = [] := by
    refine List.filter_eq_nil_iff.mpr (List.forall_mem_map.mpr fun r hr => ?_)
    rw [List.mem_filter, decide_eq_true_eq] at hr
    simp [(hscore r hr.1).mpr hr.2]
  rw [orderRankings_eq, List.filter_append, hunranked, List.append_nil]
  exact List.filter_eq_self.mpr fun p hp => (row_of_mem_numbered hp).2.2

theorem orderRankings_perm : ((orderRankings rows).map Placed.row).Perm rows := by
  rw [map_row_orderRankings, displayed, displayed, scoredRows_eq hscore (by decide), scoredRows_eq hscore (by decide)]
  exact (((ordered_perm _).append (ordered_perm _)).append_right _).trans (filter_status_perm rows)

end Constraints

/-- The rows of a rank are the group with its number. -/
theorem filter_rank_orderRankings {p : RankedRow K} (hp : p ∈ numbered 1 (displayGroups rows)) :
    (orderRankings rows).filter (fun q => q.rank = p.rank) =
      (numbered 1 (displayGroups rows)).filter fun q => q.rank = p.rank := by
  have hunranked : ((rows.filter fun r => r.status = .unranked).map fun r => (⟨r, 0, false⟩ : RankedRow K)).filter
      (fun q => q.rank = p.rank) = [] := by
    have := (rank_mem_numbered hp).1
    refine List.filter_eq_nil_iff.mpr (List.forall_mem_map.mpr fun r _ => ?_)
    simp only [decide_eq_true_eq]
    omega
  rw [orderRankings_eq, List.filter_append, hunranked, List.append_nil]

omit [Field K] in
/-- An interval around the composite overlaps itself, once it overlaps another. -/
theorem overlaps_self {r r' : RankingReadRow K} (hscore : r.compositeScore.isSome = true)
    (hci : ∀ c lo hi, r.compositeScore = some c → r.ciLower = some lo → r.ciUpper = some hi → lo ≤ c ∧ c ≤ hi)
    (h : overlaps r r' = true) : overlaps r r = true := by
  obtain ⟨c, hc⟩ := Option.isSome_iff_exists.mp hscore
  simp only [overlaps, ciOverlap, RankingReadRow.toRanking] at h ⊢
  cases hlo : r.ciLower with
  | none => simp [hlo] at h
  | some lo =>
    cases hhi : r.ciUpper with
    | none => simp [hlo, hhi] at h
    | some hi =>
      have := hci c lo hi hc hlo hhi
      simpa using this.1.trans this.2

theorem leaders_orderRankings
    (hci : ∀ r ∈ rows, ∀ c lo hi, r.compositeScore = some c → r.ciLower = some lo → r.ciUpper = some hi →
      lo ≤ c ∧ c ≤ hi) {p : RankedRow K} (hp : p ∈ numbered 1 (displayGroups rows)) (htied : p.tied = true) :
    ∃ lead, (orderRankings rows).find? (fun q => q.rank = p.rank) = some lead ∧ overlaps lead.row p.row = true := by
  obtain ⟨g, hg, hrow, hlen, hfilter⟩ := filter_numbered hp
  obtain ⟨lead, rest, rfl, hnear⟩ := mem_displayGroups hg
  refine ⟨⟨lead, p.rank, p.tied⟩, ?_, ?_⟩
  · rw [← List.head?_filter, filter_rank_orderRankings hp, hfilter]
    rfl
  · rcases List.mem_cons.mp hrow with he | hmem
    · -- the leader itself: another row of the group overlaps it
      obtain ⟨y, hy⟩ : ∃ y, y ∈ rest := by
        rw [htied, eq_comm, decide_eq_true_eq, List.length_cons] at hlen
        exact List.exists_mem_of_length_pos (by omega)
      obtain ⟨hmem, -, hscore⟩ := row_of_mem_numbered hp
      rw [he] at hmem hscore ⊢
      exact overlaps_self hscore (hci lead hmem) (hnear y hy)
    · exact hnear p.row hmem

end Display

/-- **`orderRankings` keeps every row and orders, groups and numbers them as the ranking is displayed.** -/
theorem orderRankings_displayOrder (rows : List (RankingReadRow K))
    (hscore : ∀ r ∈ rows, r.compositeScore = none ↔ r.status = .unranked)
    (hci : ∀ r ∈ rows, ∀ c lo hi, r.compositeScore = some c → r.ciLower = some lo → r.ciUpper = some hi →
      lo ≤ c ∧ c ≤ hi) : DisplayOrder rows (orderRankings rows) := by
  have hne : ∀ g ∈ displayGroups rows, g ≠ [] := by
    intro g hg
    obtain ⟨lead, rest, rfl, -⟩ := mem_displayGroups hg
    exact List.cons_ne_nil lead rest
  have hunranked : ∀ r ∈ rows.filter fun r => r.status = .unranked, r ∈ rows ∧ r.status = .unranked := fun r hr => by
    simpa using hr
  refine ⟨orderRankings_perm hscore, ?_, ?_, ?_, ?_, ?_, ?_, ?_⟩
  · refine pairwise_orderRankings (fun s => ?_) ?_ fun a b hab => hab.le
    · refine List.pairwise_of_forall_mem_list fun a ha b hb => ?_
      rw [(mem_displayed.mp ha).2.1, (mem_displayed.mp hb).2.1]
    · refine List.pairwise_of_forall_mem_list fun a ha b hb => ?_
      rw [(hunranked a ha).2, (hunranked b hb).2]
  · rw [filter_scored_orderRankings hscore]
    exact (isChain_numbered 1 hne).1
  · rw [filter_scored_orderRankings hscore]
    exact (isChain_numbered 1 hne).2
  · refine pairwise_orderRankings (R := fun a b => a.status = b.status → ∀ x y, a.compositeScore = some x →
      b.compositeScore = some y → y ≤ x) (fun s => ?_) ?_ fun a b hab hs => ?_
    · refine (displayed_pairwise rows s).imp fun {a b} h => ?_
      exact fun _ => h
    · refine List.pairwise_of_forall_mem_list fun a ha b _ _ x y hx => ?_
      rw [(hscore a (hunranked a ha).1).mpr (hunranked a ha).2] at hx
      cases hx
    · rw [hs] at hab
      exact absurd hab (lt_irrefl _)
  · intro p hp htied
    rcases mem_orderRankings hp with hp | ⟨-, -, hfalse⟩
    · exact leaders_orderRankings hci hp htied
    · rw [hfalse] at htied
      cases htied
  · intro p hp
    rcases mem_orderRankings hp with hp | ⟨-, hrank, hfalse⟩
    · have hpos := (rank_mem_numbered hp).1
      rw [List.countP_eq_length_filter, filter_rank_orderRankings hp, ← List.countP_eq_length_filter, tied_numbered hp,
        decide_eq_true_eq]
      exact ⟨fun h => ⟨by omega, h⟩, fun h => h.2⟩
    · simp [hrank, hfalse]
  · intro p hp
    rcases mem_orderRankings hp with hp | ⟨hs, hrank, -⟩
    · have hpos := (rank_mem_numbered hp).1
      exact ⟨fun h => by omega, fun h => absurd h (row_of_mem_numbered hp).2.1⟩
    · exact ⟨fun _ => hs, fun _ => hrank⟩

/-- Two rows that overlap, one behind them, a provisional row and an unranked one. -/
def fiveRows : List (RankingReadRow ℚ) :=
  [⟨1, some (3 / 10), some (2 / 10), some (4 / 10), .ranked⟩,
   ⟨2, some (9 / 10), some (8 / 10), some 1, .ranked⟩,
   ⟨3, none, none, none, .unranked⟩,
   ⟨4, some (5 / 10), some (4 / 10), some (6 / 10), .provisionallyRanked⟩,
   ⟨5, some (7 / 10), some (6 / 10), some (9 / 10), .ranked⟩]

/-- The best row is tied with the second, and the numbers go on with the provisional row. -/
theorem displayOrder_fiveRows :
    DisplayOrder fiveRows (orderRankings fiveRows) ∧
      ((orderRankings fiveRows).map fun p => (p.row.providerID, p.rank, p.tied)) =
        [(2, 1, true), (5, 1, true), (1, 2, false), (4, 3, false), (3, 0, false)] := by
  refine ⟨orderRankings_displayOrder fiveRows (by decide +kernel) ?_, by decide +kernel⟩
  simp only [fiveRows, List.forall_mem_cons]
  refine ⟨?_, ?_, ?_, ?_, ?_, by simp⟩
  all_goals rintro c lo hi ⟨⟩ ⟨⟩ ⟨⟩ <;> norm_num

end ForecastIQ.Analysis
