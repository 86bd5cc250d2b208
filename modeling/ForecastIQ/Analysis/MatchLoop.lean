import ForecastIQ.Analysis.Match
import ForecastIQ.Foundations.Keyset
import Mathlib.Data.Int.ConditionallyCompleteOrder

/-!
# The matching loop

The loop of `MatchBatch` asks again and again for the unmatched snapshots behind its
cursor, while the pairs it inserts take snapshots out of what it asks for. With the
chunks it works on written down (`matchRounds`, the same loop), the invariant is: the
chunks so far are a piece of the unmatched snapshots in the order of their identifiers,
the pairs are those of the start and those of the piece, and what the next query can see
is the rest.

So the loop ends, each unmatched snapshot of the window is in exactly one chunk, and the
pairs it creates are the same for every chunk size (`matchRounds_eq`).
-/

namespace ForecastIQ.Analysis

open ForecastIQ.Foundations ForecastIQ.Collection

/-! ### The loop with its chunks -/

/-- The loop of `MatchBatch`, with the chunks it worked on. -/
def matchRounds (chunkSize : ℕ) (snaps : List SnapshotRow) (obs : List Observation) (start stop : ℤ) :
    ℕ → Option ℕ → List MatchedEvaluation → Option (List (List SnapshotToMatch) × List MatchedEvaluation)
  | 0, _, _ => none
  | fuel + 1, after, pairs =>
    let chunk := listUnmatchedSnapshots snaps pairs start stop after chunkSize
    match chunk.getLast? with
    | none => some ([], pairs)
    | some last =>
      let pairs := matchChunk obs chunk pairs
      if chunk.length < chunkSize then some ([chunk], pairs)
      else (matchRounds chunkSize snaps obs start stop fuel (some last.id) pairs).map fun r => (chunk :: r.1, r.2)

/-- It is the same loop. -/
theorem matchChunks_eq_matchRounds (chunkSize : ℕ) (snaps : List SnapshotRow) (obs : List Observation) (start stop : ℤ)
    (fuel : ℕ) (after : Option ℕ) (pairs : List MatchedEvaluation) :
    matchChunks chunkSize snaps obs start stop fuel after pairs =
      (matchRounds chunkSize snaps obs start stop fuel after pairs).map Prod.snd := by
  induction fuel generalizing after pairs with
  | zero => rfl
  | succ fuel ih =>
    simp only [matchChunks, matchRounds]
    generalize listUnmatchedSnapshots snaps pairs start stop after chunkSize = chunk
    cases chunk.getLast? with
    | none => rfl
    | some last =>
      simp only
      split_ifs
      · rfl
      · rw [ih, Option.map_map]
        rfl

/-! ### What the queries see -/

/-- The snapshot is in the window and has no pair. -/
def Unmatched (pairs : List MatchedEvaluation) (start stop : ℤ) (r : SnapshotRow) : Prop :=
  start ≤ r.snapshot.targetTime ∧ r.snapshot.targetTime < stop ∧ ∀ m ∈ pairs, m.snapshot.id ≠ r.id

instance (pairs : List MatchedEvaluation) (start stop : ℤ) (r : SnapshotRow) :
    Decidable (Unmatched pairs start stop r) :=
  inferInstanceAs (Decidable (_ ∧ _ ∧ _))

/-- The unmatched snapshots of the window, in the order of their identifiers. -/
def unmatchedSnapshots (snaps : List SnapshotRow) (pairs : List MatchedEvaluation) (start stop : ℤ) :
    List SnapshotToMatch :=
  ordered SnapshotToMatch.id ((snaps.filter fun r => Unmatched pairs start stop r).map toMatch)

section Queries

variable {snaps : List SnapshotRow} {pairs : List MatchedEvaluation} {start stop : ℤ}

theorem mem_unmatchedSnapshots {snap : SnapshotToMatch} :
    snap ∈ unmatchedSnapshots snaps pairs start stop ↔
      ∃ r ∈ snaps, Unmatched pairs start stop r ∧ toMatch r = snap := by
  simp [unmatchedSnapshots, mem_ordered, and_assoc]

theorem nodup_map_id_unmatched (hids : (snaps.map fun r => r.id).Nodup) :
    (((snaps.filter fun r => Unmatched pairs start stop r).map toMatch).map SnapshotToMatch.id).Nodup := by
  rw [List.map_map]
  exact (List.filter_sublist.map _).nodup hids

/-- Restricting the unmatched snapshots is restricting the rows. -/
theorem filter_unmatchedSnapshots (hids : (snaps.map fun r => r.id).Nodup) (p : SnapshotToMatch → Bool) :
    (unmatchedSnapshots snaps pairs start stop).filter p =
      ordered SnapshotToMatch.id
        ((snaps.filter fun r => p (toMatch r) = true ∧ Unmatched pairs start stop r).map toMatch) := by
  rw [unmatchedSnapshots, ← ordered_filter (nodup_map_id_unmatched hids), List.filter_map, List.filter_filter]
  simp only [Function.comp_apply, Bool.decide_and, Bool.decide_eq_true]

/-- The query returns the first of the unmatched snapshots behind the cursor. -/
theorem listUnmatchedSnapshots_eq (hids : (snaps.map fun r => r.id).Nodup) (after : Option ℕ) (limit : ℕ) :
    listUnmatchedSnapshots snaps pairs start stop after limit =
      ((unmatchedSnapshots snaps pairs start stop).filter (behind SnapshotToMatch.id after)).take limit := by
  rw [filter_unmatchedSnapshots hids]
  refine congrArg (fun l => List.take limit (ordered SnapshotToMatch.id (List.map toMatch l))) ?_
  refine List.filter_congr fun r _ => ?_
  rw [decide_eq_decide]
  simp only [Unmatched, behind, toMatch, List.any_eq_false, decide_eq_true_eq]
  tauto

/-- Pairs of snapshots that are not behind the cursor do not change what is behind it. -/
theorem filter_behind_append (hids : (snaps.map fun r => r.id).Nodup) {after : Option ℕ} {new : List MatchedEvaluation}
    (hnew : ∀ m ∈ new, behind SnapshotToMatch.id after m.snapshot = false) :
    (unmatchedSnapshots snaps (pairs ++ new) start stop).filter (behind SnapshotToMatch.id after) =
      (unmatchedSnapshots snaps pairs start stop).filter (behind SnapshotToMatch.id after) := by
  rw [filter_unmatchedSnapshots hids, filter_unmatchedSnapshots hids]
  refine congrArg (fun l => ordered SnapshotToMatch.id (List.map toMatch l)) ?_
  refine List.filter_congr fun r _ => ?_
  rw [decide_eq_decide]
  refine and_congr_right fun hr => ⟨fun h => ⟨h.1, h.2.1, fun m hm => h.2.2 m (List.mem_append_left _ hm)⟩,
    fun h => ⟨h.1, h.2.1, fun m hm => ?_⟩⟩
  rcases List.mem_append.mp hm with hm | hm
  · exact h.2.2 m hm
  · intro he
    have hm' := hnew m hm
    simp only [behind] at hr hm'
    rw [he] at hm'
    exact Bool.false_ne_true (hm'.symm.trans hr)

end Queries

/-! ### The invariant of the loop -/

theorem snapshot_of_pairFor {obs : List Observation} {snap : SnapshotToMatch} {m : MatchedEvaluation}
    (h : pairFor obs snap = some m) : m.snapshot = snap := by
  simp only [pairFor, Option.map_eq_some_iff] at h
  obtain ⟨c, -, rfl⟩ := h
  rfl

theorem keys_pair (l : List MatchedEvaluation) : keys (fun m => some m.pair) l = l.map MatchedEvaluation.pair := by
  simp [keys]

theorem nodup_map_pair_filterMap {obs : List Observation} {chunk : List SnapshotToMatch}
    (hn : (chunk.map SnapshotToMatch.id).Nodup) :
    ((chunk.filterMap (pairFor obs)).map MatchedEvaluation.pair).Nodup := by
  rw [List.Nodup, List.pairwise_map, List.pairwise_filterMap]
  refine (List.pairwise_map.mp hn).imp fun {snap snap'} hne m hm m' hm' he => hne ?_
  rw [← snapshot_of_pairFor hm, ← snapshot_of_pairFor hm']
  exact congrArg Prod.fst he

/-- The pairs of different snapshots that had none are all new. -/
theorem matchChunk_eq_append {obs : List Observation} {chunk : List SnapshotToMatch} {pairs : List MatchedEvaluation}
    (hn : (chunk.map SnapshotToMatch.id).Nodup) (hd : ∀ snap ∈ chunk, ∀ m ∈ pairs, m.snapshot.id ≠ snap.id) :
    matchChunk obs chunk pairs = pairs ++ chunk.filterMap (pairFor obs) := by
  rw [matchChunk, insertMatches, insertAll_eq_of_disjoint]
  · rw [keys_pair]
    exact nodup_map_pair_filterMap hn
  · intro k hk hk'
    rw [keys_pair] at hk hk'
    obtain ⟨m, hm, rfl⟩ := List.mem_map.mp hk
    obtain ⟨m', hm', he⟩ := List.mem_map.mp hk'
    obtain ⟨snap, hsnap, hpair⟩ := List.mem_filterMap.mp hm
    refine hd snap hsnap m' hm' ?_
    rw [← snapshot_of_pairFor hpair]
    exact congrArg Prod.fst he

section Loop

variable {chunkSize : ℕ} {snaps : List SnapshotRow} {obs : List Observation} {start stop : ℤ}
  {pairs : List MatchedEvaluation}

theorem pairwise_lt_unmatchedSnapshots (hids : (snaps.map fun r => r.id).Nodup) (pairs : List MatchedEvaluation)
    (start stop : ℤ) : (unmatchedSnapshots snaps pairs start stop).Pairwise fun a b => a.id < b.id :=
  pairwise_lt_ordered (nodup_map_id_unmatched hids)

/-- The query after a piece of the unmatched snapshots was matched returns the first of the rest. -/
theorem listUnmatchedSnapshots_rest (hids : (snaps.map fun r => r.id).Nodup) {piece rest : List SnapshotToMatch}
    (h : unmatchedSnapshots snaps pairs start stop = piece ++ rest) (limit : ℕ) :
    listUnmatchedSnapshots snaps (pairs ++ piece.filterMap (pairFor obs)) start stop
      (cursorAfter SnapshotToMatch.id piece) limit = rest.take limit := by
  have hlt := pairwise_lt_unmatchedSnapshots hids pairs start stop
  rw [h] at hlt
  rw [listUnmatchedSnapshots_eq hids, filter_behind_append hids, h, filter_behind hlt]
  intro m hm
  obtain ⟨snap, hsnap, hpair⟩ := List.mem_filterMap.mp hm
  rw [snapshot_of_pairFor hpair]
  exact behind_eq_false (List.pairwise_append.mp hlt).1 hsnap

/-- The next chunk after a piece of the unmatched snapshots is paired as a whole. -/
theorem matchChunk_rest (hids : (snaps.map fun r => r.id).Nodup) {piece chunk rest : List SnapshotToMatch}
    (h : unmatchedSnapshots snaps pairs start stop = piece ++ (chunk ++ rest)) :
    matchChunk obs chunk (pairs ++ piece.filterMap (pairFor obs)) =
      pairs ++ (piece ++ chunk).filterMap (pairFor obs) := by
  have hlt := pairwise_lt_unmatchedSnapshots hids pairs start stop
  rw [h] at hlt
  obtain ⟨-, hlt, hpiece⟩ := List.pairwise_append.mp hlt
  rw [matchChunk_eq_append, List.filterMap_append, List.append_assoc]
  · exact List.pairwise_map.mpr ((List.pairwise_append.mp hlt).1.imp fun hab => Nat.ne_of_lt hab)
  · intro snap hsnap m hm
    rcases List.mem_append.mp hm with hm | hm
    · have hmem : snap ∈ unmatchedSnapshots snaps pairs start stop := by
        rw [h]
        simp [hsnap]
      obtain ⟨r, -, hr, rfl⟩ := mem_unmatchedSnapshots.mp hmem
      exact hr.2.2 m hm
    · obtain ⟨snap', hsnap', hpair⟩ := List.mem_filterMap.mp hm
      rw [snapshot_of_pairFor hpair]
      exact Nat.ne_of_lt (hpiece snap' hsnap' snap (List.mem_append_left _ hsnap))

/-- **The loop goes through the rest of the unmatched snapshots**, from any piece of them. -/
theorem matchRounds_rest (obs : List Observation) (hchunk : 1 ≤ chunkSize)
    (hids : (snaps.map fun r => r.id).Nodup) {fuel : ℕ} {piece rest : List SnapshotToMatch}
    (h : unmatchedSnapshots snaps pairs start stop = piece ++ rest) (hfuel : rest.length < fuel) :
    ∃ chunks, matchRounds chunkSize snaps obs start stop fuel (cursorAfter SnapshotToMatch.id piece)
        (pairs ++ piece.filterMap (pairFor obs)) =
        some (chunks, pairs ++ (unmatchedSnapshots snaps pairs start stop).filterMap (pairFor obs)) ∧
      chunks.flatten = rest := by
  induction fuel generalizing piece rest with
  | zero => omega
  | succ fuel ih =>
    have hsplit : unmatchedSnapshots snaps pairs start stop =
        piece ++ (rest.take chunkSize ++ rest.drop chunkSize) := by
      rw [List.take_append_drop, h]
    simp only [matchRounds, listUnmatchedSnapshots_rest hids h, matchChunk_rest hids hsplit]
    cases hlast : (rest.take chunkSize).getLast? with
    | none =>
      have hnil : rest = [] := by
        rw [List.getLast?_eq_none_iff, List.take_eq_nil_iff] at hlast
        exact hlast.resolve_left (by omega)
      subst hnil
      exact ⟨[], by simp [h], rfl⟩
    | some last =>
      simp only
      split_ifs with hlen
      · -- the last chunk
        have hall : rest.take chunkSize = rest := by
          rw [List.length_take] at hlen
          exact List.take_of_length_le (by omega)
        exact ⟨[rest], by rw [hall, h], by simp⟩
      · have hcursor : some last.id = cursorAfter SnapshotToMatch.id (piece ++ rest.take chunkSize) := by
          rw [cursorAfter, List.getLast?_append_of_ne_nil, hlast]
          · rfl
          · intro hnil
            rw [hnil] at hlast
            cases hlast
        have hrest : (rest.drop chunkSize).length < fuel := by
          rw [List.length_drop]
          rw [List.length_take] at hlen
          omega
        rw [← List.append_assoc] at hsplit
        obtain ⟨chunks, hrun, hflat⟩ := ih hsplit hrest
        rw [hcursor, hrun]
        exact ⟨rest.take chunkSize :: chunks, rfl, by rw [List.flatten_cons, hflat, List.take_append_drop]⟩

/-- The whole loop. -/
theorem matchRounds_eq (obs : List Observation) (pairs : List MatchedEvaluation) (start stop : ℤ)
    (hchunk : 1 ≤ chunkSize) (hids : (snaps.map fun r => r.id).Nodup) {fuel : ℕ} (hfuel : snaps.length < fuel) :
    ∃ chunks, matchRounds chunkSize snaps obs start stop fuel none pairs =
        some (chunks, pairs ++ (unmatchedSnapshots snaps pairs start stop).filterMap (pairFor obs)) ∧
      chunks.flatten = unmatchedSnapshots snaps pairs start stop := by
  have hlen : (unmatchedSnapshots snaps pairs start stop).length ≤ snaps.length := by
    rw [unmatchedSnapshots, (ordered_perm _).length_eq, List.length_map]
    exact List.length_filter_le ..
  have hnil : unmatchedSnapshots snaps pairs start stop = [] ++ unmatchedSnapshots snaps pairs start stop := rfl
  have h := matchRounds_rest obs hchunk hids hnil (Nat.lt_of_le_of_lt hlen hfuel)
  rwa [List.filterMap_nil, List.append_nil] at h

theorem matchChunks_eq (pairs : List MatchedEvaluation) (start stop : ℤ) (hchunk : 1 ≤ chunkSize)
    (hids : (snaps.map fun r => r.id).Nodup) {fuel : ℕ} (hfuel : snaps.length < fuel) :
    matchChunks chunkSize snaps obs start stop fuel none pairs =
      some (pairs ++ (unmatchedSnapshots snaps pairs start stop).filterMap (pairFor obs)) := by
  obtain ⟨chunks, hrun, -⟩ := matchRounds_eq obs pairs start stop hchunk hids hfuel
  rw [matchChunks_eq_matchRounds, hrun]
  rfl

end Loop

/-- **The loop of a batch ends, puts each unmatched snapshot of the window into exactly one chunk, and
creates exactly their pairs with the selected observations, whatever the chunk size.** -/
theorem matching_loop_exact (now : ℤ) (snaps : List SnapshotRow) (obs : List Observation)
    (pairs : List MatchedEvaluation) (hids : (snaps.map fun r => r.id).Nodup) :
    ∃ created : List MatchedEvaluation,
      (created.map MatchedEvaluation.pair).Nodup ∧
      (∀ m, m ∈ created ↔
        ∃ r ∈ snaps, Unmatched pairs (now - matchWindowBack) (now - publicationMargin) r ∧
          ∃ c, selectCandidate (truncateHour r.snapshot.targetTime)
              ((findCandidates obs r.locationID (truncateHour r.snapshot.targetTime)).map some) = some c ∧
            m = newPair (toMatch r) c.id c.observedAt) ∧
      ∀ chunkSize, 1 ≤ chunkSize → ∀ fuel, snaps.length < fuel →
        (∃ chunks, matchRounds chunkSize snaps obs (now - matchWindowBack) (now - publicationMargin) fuel none pairs =
            some (chunks, pairs ++ created) ∧
          chunks.flatten.Perm
            ((snaps.filter fun r => Unmatched pairs (now - matchWindowBack) (now - publicationMargin) r).map toMatch)) ∧
        matchChunks chunkSize snaps obs (now - matchWindowBack) (now - publicationMargin) fuel none pairs =
          some (pairs ++ created) := by
  refine ⟨(unmatchedSnapshots snaps pairs (now - matchWindowBack) (now - publicationMargin)).filterMap (pairFor obs),
    ?_, ?_, ?_⟩
  · exact nodup_map_pair_filterMap (List.pairwise_map.mpr
      ((pairwise_lt_unmatchedSnapshots hids _ _ _).imp fun hab => Nat.ne_of_lt hab))
  · intro m
    simp only [List.mem_filterMap, mem_unmatchedSnapshots, pairFor, Option.map_eq_some_iff]
    constructor
    · rintro ⟨_, ⟨r, hr, hun, rfl⟩, c, hc, rfl⟩
      exact ⟨r, hr, hun, c, hc, rfl⟩
    · rintro ⟨r, hr, hun, c, hc, rfl⟩
      exact ⟨toMatch r, ⟨r, hr, hun, rfl⟩, c, hc, rfl⟩
  · intro chunkSize hchunk fuel hfuel
    refine ⟨?_, matchChunks_eq pairs _ _ hchunk hids hfuel⟩
    obtain ⟨chunks, hrun, hflat⟩ :=
      matchRounds_eq obs pairs (now - matchWindowBack) (now - publicationMargin) hchunk hids
      hfuel
    refine ⟨chunks, hrun, ?_⟩
    rw [hflat]
    exact ordered_perm _

/-- A snapshot of provider `1` for the hour `target` at location `1`, issued an hour before. -/
def snapshotAt (id : ℕ) (target : ℤ) : SnapshotRow :=
  ⟨id, 0, 1, 1, ⟨target - hour, target, 60, ⟨some 20, none, none, none, none, none, none, none, none⟩, none⟩⟩

/-- The live observation of the hour `target` at location `1`. -/
def observationAt (id : ℕ) (target : ℤ) : Observation :=
  ⟨⟨.reanalysis, target, some 21, none, none, none, none, none, none, .valid⟩, id, 1, "openmeteo_historical", none⟩

/-- Three snapshots, of which two have an observation: chunks of one and of five thousand leave the
same pairs. -/
theorem three_snapshots_loop :
    ([snapshotAt 3 hour, snapshotAt 1 0, snapshotAt 2 (2 * hour)].map fun r => r.id).Nodup ∧
      ∃ created, newPair (toMatch (snapshotAt 3 hour)) 7 hour ∈ created ∧
        ∀ chunkSize ∈ [1, defaultChunkSize],
          matchChunks chunkSize [snapshotAt 3 hour, snapshotAt 1 0, snapshotAt 2 (2 * hour)]
            [observationAt 5 0, observationAt 7 hour] (day - matchWindowBack) (day - publicationMargin) 4 none [] =
            some created := by
  refine ⟨by decide, ?_⟩
  obtain ⟨created, -, hmem, hrun⟩ := matching_loop_exact day
    [snapshotAt 3 hour, snapshotAt 1 0, snapshotAt 2 (2 * hour)] [observationAt 5 0, observationAt 7 hour] []
    (by decide)
  refine ⟨created, (hmem _).mpr ⟨snapshotAt 3 hour, by simp, by decide +kernel, ⟨7, .reanalysis, .valid, hour⟩,
    by decide +kernel, rfl⟩, ?_⟩
  intro chunkSize hsize
  exact (hrun chunkSize (by revert hsize; revert chunkSize; decide) 4 (by decide)).2

end ForecastIQ.Analysis
