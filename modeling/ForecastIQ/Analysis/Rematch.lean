import ForecastIQ.Analysis.PairChains
import ForecastIQ.Foundations.Grouping

/-!
# Running a batch twice

`rematch` adds a pair for each pair whose observation was superseded by one the snapshot
has no pair with, such a pair is *outdated*. It follows one pointer, and adds at most
`rematchBatchLimit` pairs in a run. So a second run right after the first one adds pairs
when too many pairs were outdated, or when an observation was corrected twice since it was
paired: then the pair the first run added is outdated itself.

`second_run_creates_nothing_iff` says that nothing else makes a second run add pairs, and
that otherwise every snapshot is paired with the live end of its chain.
-/

namespace ForecastIQ.Analysis

open ForecastIQ.Foundations ForecastIQ.Collection

/-- The unique keys of the tables, and that an observation corrects one other at most. -/
structure Consistent (snaps : List SnapshotRow) (obs : List Observation) (pairs : List MatchedEvaluation) : Prop where
  snapshotIDs : (snaps.map SnapshotRow.id).Nodup
  observationIDs : (obs.map Observation.id).Nodup
  pairKeys : (pairs.map MatchedEvaluation.pair).Nodup
  correctsOne : ∀ o ∈ obs, ∀ o' ∈ obs, ∀ n, o.supersededObservationID = some n →
    o'.supersededObservationID = some n → o.id = o'.id

/-- The tables of every run are so. -/
theorem MatchState.Reachable.consistent {chunkSize : ℕ} {s : MatchState} (h : s.Reachable chunkSize) :
    Consistent s.snapshots s.obs s.pairs where
  snapshotIDs := h.inv.ids
  observationIDs := h.inv.observing.inv.linked.nodup
  pairKeys := h.inv.pairs.nodup
  correctsOne := h.inv.observing.inv.linked.correctsOne

/-- The snapshot is paired with the observation. -/
def PairedWith (pairs : List MatchedEvaluation) (snapshotID observationID : ℕ) : Prop :=
  (snapshotID, observationID) ∈ pairs.map MatchedEvaluation.pair

instance (pairs : List MatchedEvaluation) (snapshotID observationID : ℕ) :
    Decidable (PairedWith pairs snapshotID observationID) :=
  inferInstanceAs (Decidable (_ ∈ _))

instance (obs : List Observation) (a b : ℕ) : Decidable (SupersededBy obs a b) :=
  inferInstanceAs (Decidable (∃ o ∈ obs, _))

/-- The observation of the pair was superseded by one that the snapshot is not paired with. -/
def Outdated (obs : List Observation) (pairs : List MatchedEvaluation) (m : MatchedEvaluation) : Prop :=
  ∃ n ∈ obs, SupersededBy obs m.observationID n.id ∧ ¬ PairedWith pairs m.snapshot.id n.id

instance (obs : List Observation) (pairs : List MatchedEvaluation) (m : MatchedEvaluation) :
    Decidable (Outdated obs pairs m) :=
  inferInstanceAs (Decidable (∃ n ∈ obs, _))

/-! ### The targets of a run -/

section Targets

variable {obs : List Observation} {pairs : List MatchedEvaluation}

/-- The targets that one pair gives. -/
def targetsOf (obs : List Observation) (pairs : List MatchedEvaluation) (m : MatchedEvaluation) : List RematchTarget :=
  (obs.filter fun o => o.id = m.observationID).flatMap fun o =>
    (obs.filter fun n => o.supersededObservationID = some n.id ∧
      (pairs.any fun m' => m'.snapshot.id = m.snapshot.id && m'.observationID = n.id) = false).map fun n =>
        ⟨m.snapshot, n.id, n.observedAt⟩

theorem listRematchTargets_eq (limit : ℕ) :
    listRematchTargets obs pairs limit =
      ((pairs.flatMap (targetsOf obs pairs)).insertionSort fun a b => a.snapshot.id ≤ b.snapshot.id).take limit :=
  rfl

theorem any_eq_false_iff {snapshotID observationID : ℕ} :
    (pairs.any fun m' => m'.snapshot.id = snapshotID && m'.observationID = observationID) = false ↔
      ¬ PairedWith pairs snapshotID observationID := by
  simp [PairedWith, MatchedEvaluation.pair]

theorem mem_targetsOf {m : MatchedEvaluation} {t : RematchTarget} :
    t ∈ targetsOf obs pairs m ↔ ∃ n ∈ obs, SupersededBy obs m.observationID n.id ∧
      ¬ PairedWith pairs m.snapshot.id n.id ∧ t = ⟨m.snapshot, n.id, n.observedAt⟩ := by
  simp only [targetsOf, List.mem_flatMap, List.mem_map, List.mem_filter, decide_eq_true_eq, any_eq_false_iff]
  constructor
  · rintro ⟨o, ⟨ho, hid⟩, n, ⟨hn, hnext, hnot⟩, rfl⟩
    exact ⟨n, hn, ⟨o, ho, hid, hnext⟩, hnot, rfl⟩
  · rintro ⟨n, hn, ⟨o, ho, hid, hnext⟩, hnot, rfl⟩
    exact ⟨o, ⟨ho, hid⟩, n, ⟨hn, hnext, hnot⟩, rfl⟩

/-- A pair has at most one target, because identifiers are unique. -/
theorem length_targetsOf_le (pairs : List MatchedEvaluation) (hn : (obs.map Observation.id).Nodup)
    (m : MatchedEvaluation) : (targetsOf obs pairs m).length ≤ 1 := by
  have hone : (obs.filter fun o => o.id = m.observationID).length ≤ 1 :=
    length_filter_le_one hn fun _ _ ho ho' => (decide_eq_true_eq.mp ho).trans (decide_eq_true_eq.mp ho').symm
  rw [targetsOf]
  generalize obs.filter (fun o => o.id = m.observationID) = rows at hone
  cases rows with
  | nil => simp
  | cons o rows =>
    obtain rfl : rows = [] := List.length_eq_zero_iff.mp (by rw [List.length_cons] at hone; omega)
    rw [List.flatMap_singleton, List.length_map]
    cases hnext : o.supersededObservationID with
    | none => simp
    | some b =>
      refine length_filter_le_one hn fun n n' h h' => ?_
      rw [decide_eq_true_eq] at h h'
      exact Option.some.inj (h.1.symm.trans h'.1)

theorem length_targetsOf (pairs : List MatchedEvaluation) (hn : (obs.map Observation.id).Nodup)
    (m : MatchedEvaluation) : (targetsOf obs pairs m).length = if Outdated obs pairs m then 1 else 0 := by
  split_ifs with h
  · obtain ⟨n, hmem, hnext, hnot⟩ := h
    have hpos := List.length_pos_of_mem (mem_targetsOf.mpr ⟨n, hmem, hnext, hnot, rfl⟩)
    have hle := length_targetsOf_le pairs hn m
    omega
  · rw [List.length_eq_zero_iff, List.eq_nil_iff_forall_not_mem]
    intro t ht
    obtain ⟨n, hmem, hnext, hnot, -⟩ := mem_targetsOf.mp ht
    exact h ⟨n, hmem, hnext, hnot⟩

/-- The query without its limit returns a row for each outdated pair. -/
theorem length_flatMap_targetsOf (hn : (obs.map Observation.id).Nodup) (l : List MatchedEvaluation) :
    (l.flatMap (targetsOf obs pairs)).length = l.countP fun m => Outdated obs pairs m := by
  induction l with
  | nil => rfl
  | cons m l ih =>
    rw [List.flatMap_cons, List.length_append, ih, length_targetsOf pairs hn, List.countP_cons, Nat.add_comm]
    simp only [decide_eq_true_eq]

/-- What a target is about. -/
def RematchTarget.key (t : RematchTarget) : ℕ × ℕ := (t.snapshot.id, t.newObservationID)

theorem mem_map_key_targets {snapshotID observationID : ℕ} :
    (snapshotID, observationID) ∈ (pairs.flatMap (targetsOf obs pairs)).map RematchTarget.key ↔
      ¬ PairedWith pairs snapshotID observationID ∧
      ∃ m ∈ pairs, m.snapshot.id = snapshotID ∧
        ∃ n ∈ obs, n.id = observationID ∧ SupersededBy obs m.observationID n.id := by
  simp only [List.mem_map, List.mem_flatMap, mem_targetsOf]
  constructor
  · rintro ⟨t, ⟨m, hm, n, hn, hnext, hnot, rfl⟩, he⟩
    obtain ⟨rfl, rfl⟩ := Prod.mk.inj he
    exact ⟨hnot, m, hm, rfl, n, hn, rfl, hnext⟩
  · rintro ⟨hnot, m, hm, rfl, n, hn, rfl, hnext⟩
    exact ⟨_, ⟨m, hm, n, hn, hnext, hnot, rfl⟩, rfl⟩

end Targets

/-! ### One run of the rematching -/

section Run

variable {snaps : List SnapshotRow} {obs : List Observation} {pairs : List MatchedEvaluation}

/-- No two targets are for the same snapshot and observation. -/
theorem Consistent.nodup_targets (h : Consistent snaps obs pairs) :
    ((pairs.flatMap (targetsOf obs pairs)).map RematchTarget.key).Nodup := by
  rw [List.map_flatMap, List.nodup_flatMap]
  constructor
  · intro m _
    have hle := length_targetsOf_le pairs h.observationIDs m
    generalize targetsOf obs pairs m = l at hle
    cases l with
    | nil => exact List.nodup_nil
    | cons t l =>
      obtain rfl : l = [] := List.length_eq_zero_iff.mp (by rw [List.length_cons] at hle; omega)
      exact List.nodup_singleton _
  · refine (List.pairwise_map.mp h.pairKeys).imp fun {m m'} hne k hk hk' => hne ?_
    obtain ⟨t, ht, rfl⟩ := List.mem_map.mp hk
    obtain ⟨t', ht', he⟩ := List.mem_map.mp hk'
    obtain ⟨n, -, ⟨o, ho, hid, hnext⟩, -, rfl⟩ := mem_targetsOf.mp ht
    obtain ⟨n', -, ⟨o', ho', hid', hnext'⟩, -, rfl⟩ := mem_targetsOf.mp ht'
    simp only [RematchTarget.key, Prod.mk.injEq] at he
    rw [he.2] at hnext'
    rw [MatchedEvaluation.pair, MatchedEvaluation.pair, he.1, ← hid, ← hid',
      h.correctsOne o ho o' ho' n.id hnext hnext']

theorem mem_of_mem_listRematchTargets {limit : ℕ} {k : ℕ × ℕ}
    (h : k ∈ (listRematchTargets obs pairs limit).map RematchTarget.key) :
    k ∈ (pairs.flatMap (targetsOf obs pairs)).map RematchTarget.key := by
  obtain ⟨t, ht, rfl⟩ := List.mem_map.mp h
  exact List.mem_map_of_mem ((List.mem_insertionSort _).mp (List.mem_of_mem_take ht))

theorem Consistent.nodup_listRematchTargets (h : Consistent snaps obs pairs) (limit : ℕ) :
    ((listRematchTargets obs pairs limit).map RematchTarget.key).Nodup := by
  rw [listRematchTargets_eq]
  exact ((List.take_sublist _ _).map _).nodup (((List.perm_insertionSort _ _).map _).nodup_iff.mpr h.nodup_targets)

theorem length_listRematchTargets (hn : (obs.map Observation.id).Nodup) (limit : ℕ) :
    (listRematchTargets obs pairs limit).length = min limit (pairs.countP fun m => Outdated obs pairs m) := by
  rw [listRematchTargets_eq, List.length_take, List.length_insertionSort, length_flatMap_targetsOf hn]

theorem map_pair_targets (l : List RematchTarget) :
    (l.map fun t => newPair t.snapshot t.newObservationID t.newObservedAt).map MatchedEvaluation.pair =
      l.map RematchTarget.key := by
  rw [List.map_map]
  rfl

/-- Every target becomes a pair. -/
theorem Consistent.rematch_eq (h : Consistent snaps obs pairs) :
    rematch obs pairs = pairs ++ (listRematchTargets obs pairs rematchBatchLimit).map fun t =>
      newPair t.snapshot t.newObservationID t.newObservedAt := by
  rw [rematch, insertMatches, insertAll_eq_of_disjoint]
  · rw [keys_pair, map_pair_targets]
    exact h.nodup_listRematchTargets _
  · intro k hk
    rw [keys_pair, map_pair_targets] at hk
    rw [keys_pair]
    exact (mem_map_key_targets.mp (mem_of_mem_listRematchTargets hk)).1

theorem Consistent.rematch (h : Consistent snaps obs pairs) : Consistent snaps obs (rematch obs pairs) where
  snapshotIDs := h.snapshotIDs
  observationIDs := h.observationIDs
  pairKeys := by
    have hn : (keys (fun m => some m.pair) pairs).Nodup := by
      rw [keys_pair]
      exact h.pairKeys
    rw [← keys_pair]
    exact nodup_keys_insertAll hn _
  correctsOne := h.correctsOne

theorem Consistent.pairedWith_rematch (h : Consistent snaps obs pairs) {snapshotID observationID : ℕ} :
    PairedWith (Analysis.rematch obs pairs) snapshotID observationID ↔ PairedWith pairs snapshotID observationID ∨
      (snapshotID, observationID) ∈ (listRematchTargets obs pairs rematchBatchLimit).map RematchTarget.key := by
  rw [PairedWith, h.rematch_eq, List.map_append, List.mem_append, map_pair_targets]
  rfl

/-- A run adds no pair exactly when none is outdated. -/
theorem Consistent.length_rematch_iff (h : Consistent snaps obs pairs) :
    (Analysis.rematch obs pairs).length = pairs.length ↔ ∀ m ∈ pairs, ¬ Outdated obs pairs m := by
  rw [h.rematch_eq, List.length_append, List.length_map, length_listRematchTargets h.observationIDs,
    Nat.add_eq_left, Nat.min_eq_zero_iff]
  simp [rematchBatchLimit, List.countP_eq_zero]

/-- If a run leaves no outdated pair, it has added what was missing. -/
theorem Consistent.pairedWith_of_no_outdated (h : Consistent snaps obs pairs)
    (hno : ∀ m ∈ Analysis.rematch obs pairs, ¬ Outdated obs (Analysis.rematch obs pairs) m) {m : MatchedEvaluation}
    (hm : m ∈ pairs) {n : Observation} (hn : n ∈ obs) (hnext : SupersededBy obs m.observationID n.id) :
    PairedWith (Analysis.rematch obs pairs) m.snapshot.id n.id := by
  by_contra hnot
  exact hno m (by rw [h.rematch_eq]; exact List.mem_append_left _ hm) ⟨n, hn, hnext, hnot⟩

theorem Consistent.countP_outdated_le (h : Consistent snaps obs pairs)
    (hno : ∀ m ∈ Analysis.rematch obs pairs, ¬ Outdated obs (Analysis.rematch obs pairs) m) :
    (pairs.countP fun m => Outdated obs pairs m) ≤ rematchBatchLimit := by
  have hsub : (pairs.flatMap (targetsOf obs pairs)).map RematchTarget.key ⊆
      (listRematchTargets obs pairs rematchBatchLimit).map RematchTarget.key := by
    rintro ⟨_, _⟩ hk
    obtain ⟨hnot, m, hm, rfl, n, hn, rfl, hnext⟩ := mem_map_key_targets.mp hk
    exact (h.pairedWith_rematch.mp (h.pairedWith_of_no_outdated hno hm hn hnext)).resolve_left hnot
  have hlen := (List.subperm_of_subset h.nodup_targets hsub).length_le
  rw [List.length_map, List.length_map, length_flatMap_targetsOf h.observationIDs,
    length_listRematchTargets h.observationIDs] at hlen
  exact hlen.trans (Nat.min_le_left _ _)

/-- A pair with a correction of `n` is added to a snapshot that is paired with `n`, and to no other. -/
theorem Consistent.pairedWith_of_target (h : Consistent snaps obs pairs) {snapshotID n k : ℕ}
    (hkey : (snapshotID, k) ∈ (pairs.flatMap (targetsOf obs pairs)).map RematchTarget.key)
    (hnext : SupersededBy obs n k) : PairedWith pairs snapshotID n := by
  obtain ⟨-, m, hm, hs, k', -, rfl, o', ho', hid', hnext'⟩ := mem_map_key_targets.mp hkey
  obtain ⟨o, ho, rfl, hnexto⟩ := hnext
  have hsame := h.correctsOne o' ho' o ho k'.id hnext' hnexto
  exact List.mem_map.mpr ⟨m, hm, by rw [MatchedEvaluation.pair, hs, ← hid', hsame]⟩

/-- No pair is behind by more than one correction: what corrects an observation that is missing for
a snapshot is not missing for it. -/
def OneBehind (obs : List Observation) (pairs : List MatchedEvaluation) : Prop :=
  ∀ m ∈ pairs, ∀ n ∈ obs, SupersededBy obs m.observationID n.id → ¬ PairedWith pairs m.snapshot.id n.id →
    ∀ k ∈ obs, SupersededBy obs n.id k.id → PairedWith pairs m.snapshot.id k.id

instance (obs : List Observation) (pairs : List MatchedEvaluation) : Decidable (OneBehind obs pairs) :=
  inferInstanceAs (Decidable (∀ m ∈ pairs, ∀ n ∈ obs, _))

theorem Consistent.oneBehind (h : Consistent snaps obs pairs)
    (hno : ∀ m ∈ Analysis.rematch obs pairs, ¬ Outdated obs (Analysis.rematch obs pairs) m) : OneBehind obs pairs := by
  intro m hm n hn hnext hnot k hk hnext'
  obtain ⟨m', hm', he⟩ := List.mem_map.mp (h.pairedWith_of_no_outdated hno hm hn hnext)
  obtain ⟨hs, ho⟩ := Prod.mk.inj he
  have hpk : PairedWith (Analysis.rematch obs pairs) m.snapshot.id k.id := by
    by_contra hnk
    exact hno m' hm' ⟨k, hk, by rw [ho]; exact hnext', by rw [hs]; exact hnk⟩
  exact (h.pairedWith_rematch.mp hpk).resolve_right fun hkey =>
    hnot (h.pairedWith_of_target (mem_of_mem_listRematchTargets hkey) hnext')

/-- Below the limit, all that is missing is added. -/
theorem mem_listRematchTargets_of_le (hn : (obs.map Observation.id).Nodup)
    (hle : (pairs.countP fun m => Outdated obs pairs m) ≤ rematchBatchLimit) {k : ℕ × ℕ}
    (hk : k ∈ (pairs.flatMap (targetsOf obs pairs)).map RematchTarget.key) :
    k ∈ (listRematchTargets obs pairs rematchBatchLimit).map RematchTarget.key := by
  rw [listRematchTargets_eq, List.take_of_length_le]
  · exact ((List.perm_insertionSort _ _).map _).mem_iff.mpr hk
  · rwa [List.length_insertionSort, length_flatMap_targetsOf hn]

/-- **A run leaves no outdated pair exactly when no more were outdated than it takes, and none was
behind by more than one correction.** -/
theorem Consistent.no_outdated_rematch_iff (h : Consistent snaps obs pairs) :
    (∀ m ∈ Analysis.rematch obs pairs, ¬ Outdated obs (Analysis.rematch obs pairs) m) ↔
      (pairs.countP fun m => Outdated obs pairs m) ≤ rematchBatchLimit ∧ OneBehind obs pairs := by
  refine ⟨fun hno => ⟨h.countP_outdated_le hno, h.oneBehind hno⟩, ?_⟩
  rintro ⟨hle, hone⟩ m hm ⟨n, hn, hnext, hnot⟩
  rw [h.pairedWith_rematch, not_or] at hnot
  rw [h.rematch_eq] at hm
  rcases List.mem_append.mp hm with hm | hm
  · exact hnot.2 (mem_listRematchTargets_of_le h.observationIDs hle
      (mem_map_key_targets.mpr ⟨hnot.1, m, hm, rfl, n, hn, rfl, hnext⟩))
  · -- a pair of this run: what corrects its observation is there already
    obtain ⟨t, ht, rfl⟩ := List.mem_map.mp hm
    obtain ⟨hnot0, m0, hm0, hs0, n0, hn0, hid0, hnext0⟩ := mem_map_key_targets.mp
      (mem_of_mem_listRematchTargets (List.mem_map_of_mem ht))
    refine hnot.1 ?_
    have hp := hone m0 hm0 n0 hn0 hnext0 (by rw [hs0, hid0]; exact hnot0) n hn (by rw [hid0]; exact hnext)
    rwa [hs0] at hp

end Run

/-! ### The scan before it -/

/-- The pairs after the loop of a batch. -/
def scanned (now : ℤ) (snaps : List SnapshotRow) (obs : List Observation) (pairs : List MatchedEvaluation) :
    List MatchedEvaluation :=
  pairs ++ (unmatchedSnapshots snaps pairs (now - matchWindowBack) (now - publicationMargin)).filterMap (pairFor obs)

section Scan

variable {now : ℤ} {snaps : List SnapshotRow} {obs : List Observation} {pairs : List MatchedEvaluation}

theorem mem_scanned {m : MatchedEvaluation} :
    m ∈ scanned now snaps obs pairs ↔ m ∈ pairs ∨
      ∃ r ∈ snaps, Unmatched pairs (now - matchWindowBack) (now - publicationMargin) r ∧
        pairFor obs (toMatch r) = some m := by
  simp only [scanned, List.mem_append, List.mem_filterMap, mem_unmatchedSnapshots]
  refine or_congr_right ⟨?_, ?_⟩
  · rintro ⟨_, ⟨r, hr, hun, rfl⟩, hpair⟩
    exact ⟨r, hr, hun, hpair⟩
  · rintro ⟨r, hr, hun, hpair⟩
    exact ⟨_, ⟨r, hr, hun, rfl⟩, hpair⟩

theorem matchBatch_eq {chunkSize : ℕ} (hchunk : 1 ≤ chunkSize) (hids : (snaps.map SnapshotRow.id).Nodup) :
    matchBatch chunkSize now snaps obs pairs =
      some ((rematch obs (scanned now snaps obs pairs)).length - pairs.length,
        rematch obs (scanned now snaps obs pairs)) := by
  rw [matchBatch, matchChunks_eq pairs _ _ hchunk hids (Nat.lt_succ_self _)]
  rfl

/-- The new pairs are of snapshots that had none. -/
theorem snapshot_ne_of_created {r : SnapshotRow} {m m' : MatchedEvaluation}
    (hun : Unmatched pairs (now - matchWindowBack) (now - publicationMargin) r) (hm : pairFor obs (toMatch r) = some m)
    (hm' : m' ∈ pairs) : m'.snapshot.id ≠ m.snapshot.id := by
  rw [snapshot_of_pairFor hm]
  exact hun.2.2 m' hm'

theorem pairedWith_scanned (now : ℤ) (snaps : List SnapshotRow) (obs : List Observation) {m : MatchedEvaluation}
    (hm : m ∈ pairs) {n : ℕ} :
    PairedWith (scanned now snaps obs pairs) m.snapshot.id n ↔ PairedWith pairs m.snapshot.id n := by
  constructor
  · intro h
    obtain ⟨m', hm', he⟩ := List.mem_map.mp h
    rcases mem_scanned.mp hm' with hm' | ⟨r, -, hun, hpair⟩
    · exact List.mem_map.mpr ⟨m', hm', he⟩
    · exact absurd (congrArg Prod.fst he).symm (snapshot_ne_of_created hun hpair hm)
  · intro h
    rw [PairedWith, scanned, List.map_append]
    exact List.mem_append_left _ h

/-- The new pairs are with live observations. -/
theorem not_supersededBy_of_pairFor (hn : (obs.map Observation.id).Nodup) {snap : SnapshotToMatch}
    {m : MatchedEvaluation} (h : pairFor obs snap = some m) {n : ℕ} : ¬ SupersededBy obs m.observationID n := by
  rintro ⟨o, ho, hid, hnext⟩
  obtain ⟨o', ho', ⟨-, -, -, hlive⟩, rfl⟩ := observation_of_pairFor h
  have hsame : o = o' := List.inj_on_of_nodup_map hn ho ho' hid
  rw [hsame] at hnext
  rw [Observation.live, hnext] at hlive
  cases hlive

theorem Consistent.scanned (h : Consistent snaps obs pairs) (now : ℤ) :
    Consistent snaps obs (scanned now snaps obs pairs) where
  snapshotIDs := h.snapshotIDs
  observationIDs := h.observationIDs
  correctsOne := h.correctsOne
  pairKeys := by
    rw [Analysis.scanned, List.map_append, List.nodup_append]
    refine ⟨h.pairKeys, nodup_map_pair_filterMap (List.pairwise_map.mpr
      ((pairwise_lt_unmatchedSnapshots h.snapshotIDs _ _ _).imp fun hab => Nat.ne_of_lt hab)), ?_⟩
    intro k hk k' hk' he
    obtain ⟨m, hm, rfl⟩ := List.mem_map.mp hk
    obtain ⟨m', hm', rfl⟩ := List.mem_map.mp hk'
    obtain ⟨snap, hsnap, hpair⟩ := List.mem_filterMap.mp hm'
    obtain ⟨r, -, hun, rfl⟩ := mem_unmatchedSnapshots.mp hsnap
    exact snapshot_ne_of_created hun hpair hm (congrArg Prod.fst he)

/-- The scan makes no pair outdated, and none up to date. -/
theorem Consistent.countP_scanned (h : Consistent snaps obs pairs) (now : ℤ) :
    ((Analysis.scanned now snaps obs pairs).countP fun m => Outdated obs (Analysis.scanned now snaps obs pairs) m) =
      pairs.countP fun m => Outdated obs pairs m := by
  have hnew : ((unmatchedSnapshots snaps pairs (now - matchWindowBack) (now - publicationMargin)).filterMap
      (pairFor obs)).countP (fun m => Outdated obs (Analysis.scanned now snaps obs pairs) m) = 0 := by
    rw [List.countP_eq_zero]
    intro m hm hout
    obtain ⟨snap, -, hpair⟩ := List.mem_filterMap.mp hm
    obtain ⟨n, -, hnext, -⟩ := decide_eq_true_eq.mp hout
    exact not_supersededBy_of_pairFor h.observationIDs hpair hnext
  refine (List.countP_append ..).trans ?_
  rw [hnew, Nat.add_zero]
  refine List.countP_congr fun m hm => ?_
  rw [decide_eq_true_eq, decide_eq_true_eq]
  simp only [Outdated, pairedWith_scanned now snaps obs hm]

theorem Consistent.oneBehind_scanned (h : Consistent snaps obs pairs) (now : ℤ) :
    OneBehind obs (Analysis.scanned now snaps obs pairs) ↔ OneBehind obs pairs := by
  constructor
  · intro hone m hm n hn hnext hnot k hk hnext'
    rw [← pairedWith_scanned now snaps obs hm] at hnot ⊢
    exact hone m (mem_scanned.mpr (.inl hm)) n hn hnext hnot k hk hnext'
  · intro hone m hm n hn hnext hnot k hk hnext'
    rcases mem_scanned.mp hm with hm | ⟨r, -, -, hpair⟩
    · rw [pairedWith_scanned now snaps obs hm] at hnot ⊢
      exact hone m hm n hn hnext hnot k hk hnext'
    · exact absurd hnext (not_supersededBy_of_pairFor h.observationIDs hpair)

/-- After a batch the scan finds nothing to pair. -/
theorem Consistent.scanned_rematch (h : Consistent snaps obs pairs) (now : ℤ) :
    Analysis.scanned now snaps obs (Analysis.rematch obs (Analysis.scanned now snaps obs pairs)) =
      Analysis.rematch obs (Analysis.scanned now snaps obs pairs) := by
  have hsub : ∀ m ∈ Analysis.scanned now snaps obs pairs,
      m ∈ Analysis.rematch obs (Analysis.scanned now snaps obs pairs) := by
    intro m hm
    rw [(h.scanned now).rematch_eq]
    exact List.mem_append_left _ hm
  nth_rewrite 1 [Analysis.scanned]
  rw [List.append_right_eq_self, List.filterMap_eq_nil_iff]
  intro snap hsnap
  obtain ⟨r, hr, hun, rfl⟩ := mem_unmatchedSnapshots.mp hsnap
  rw [Option.eq_none_iff_forall_ne_some]
  intro m hpair
  have hun0 : Unmatched pairs (now - matchWindowBack) (now - publicationMargin) r :=
    ⟨hun.1, hun.2.1, fun m' hm' => hun.2.2 m' (hsub m' (mem_scanned.mpr (.inl hm')))⟩
  refine hun.2.2 m (hsub m (mem_scanned.mpr (.inr ⟨r, hr, hun0, hpair⟩))) ?_
  rw [snapshot_of_pairFor hpair]
  rfl

end Scan

/-! ### Two runs -/

/-- Where no pair is outdated, every snapshot is paired with the live ends of the chains it is on. -/
theorem pairedWith_end_of_no_outdated {obs : List Observation} {pairs : List MatchedEvaluation}
    (hno : ∀ m ∈ pairs, ¬ Outdated obs pairs m) {m : MatchedEvaluation} (hm : m ∈ pairs) {e : Observation}
    (he : e ∈ obs) (hreach : Corrects obs m.observationID e.id) : PairedWith pairs m.snapshot.id e.id := by
  generalize hid : m.observationID = a at hreach
  -- along the chain, each next observation is missing or paired, and none is missing
  induction hreach using Relation.ReflTransGen.head_induction_on generalizing m with
  | refl => exact List.mem_map.mpr ⟨m, hm, by rw [MatchedEvaluation.pair, hid]⟩
  | head hnext hrest ih =>
    rename_i a b
    obtain ⟨n, hn, rfl⟩ : ∃ n ∈ obs, n.id = b := by
      rcases Relation.ReflTransGen.cases_head hrest with rfl | ⟨c, ⟨n, hn, hid, -⟩, -⟩
      · exact ⟨e, he, rfl⟩
      · exact ⟨n, hn, hid⟩
    have hpaired : PairedWith pairs m.snapshot.id n.id := by
      by_contra hnot
      exact hno m hm ⟨n, hn, by rw [hid]; exact hnext, hnot⟩
    obtain ⟨m', hm', hpair⟩ := List.mem_map.mp hpaired
    obtain ⟨hs, ho⟩ := Prod.mk.inj hpair
    rw [← hs]
    exact ih hm' ho

/-- **A second batch at the same instant creates no pair, and every snapshot is paired with the live
end of each chain it is on, exactly when no more pairs were outdated than a run takes and none was
behind by more than one correction.** -/
theorem second_run_creates_nothing_iff {chunkSize : ℕ} (hchunk : 1 ≤ chunkSize) (now : ℤ) {snaps : List SnapshotRow}
    {obs : List Observation} {pairs pairs1 pairs2 : List MatchedEvaluation} (h : Consistent snaps obs pairs) {n1 n2 : ℕ}
    (h1 : matchBatch chunkSize now snaps obs pairs = some (n1, pairs1))
    (h2 : matchBatch chunkSize now snaps obs pairs1 = some (n2, pairs2)) :
    (n2 = 0 ∧ ∀ m ∈ pairs1, ∀ e ∈ obs, e.live = true → Corrects obs m.observationID e.id →
        PairedWith pairs1 m.snapshot.id e.id) ↔
      (pairs.countP fun m => Outdated obs pairs m) ≤ rematchBatchLimit ∧ OneBehind obs pairs := by
  rw [matchBatch_eq hchunk h.snapshotIDs] at h1 h2
  cases h1
  cases h2
  rw [h.scanned_rematch now, ← h.countP_scanned now, ← h.oneBehind_scanned now,
    ← (h.scanned now).no_outdated_rematch_iff]
  have h1 := (h.scanned now).rematch
  have hlen : (rematch obs (rematch obs (scanned now snaps obs pairs))).length -
      (rematch obs (scanned now snaps obs pairs)).length = 0 ↔
      ∀ m ∈ rematch obs (scanned now snaps obs pairs),
        ¬ Outdated obs (rematch obs (scanned now snaps obs pairs)) m := by
    rw [← h1.length_rematch_iff, h1.rematch_eq, List.length_append]
    omega
  rw [hlen]
  exact ⟨fun hno => hno.1, fun hno => ⟨hno, fun m hm e he _ hreach => pairedWith_end_of_no_outdated hno hm he hreach⟩⟩

/-- The observation `0` of the first hour, corrected by `1`. -/
def correctedOnce : List Observation :=
  [{ observationAt 0 0 with supersededObservationID := some 1 }, { observationAt 1 0 with qualityFlag := .corrected }]

/-- A pair is behind by one correction: the first batch adds the pair with the live observation, the
second one nothing. -/
theorem correctedOnce_second_run :
    ∃ pairs1 pairs2,
      matchBatch defaultChunkSize day [snapshotAt 1 0] correctedOnce [newPair (toMatch (snapshotAt 1 0)) 0 0] =
        some (1, pairs1) ∧
      matchBatch defaultChunkSize day [snapshotAt 1 0] correctedOnce pairs1 = some (0, pairs2) := by
  have hc : Consistent [snapshotAt 1 0] correctedOnce [newPair (toMatch (snapshotAt 1 0)) 0 0] :=
    ⟨by decide, by decide, by decide, by decide +kernel⟩
  have h1 : matchBatch defaultChunkSize day [snapshotAt 1 0] correctedOnce [newPair (toMatch (snapshotAt 1 0)) 0 0] =
      some (1, [newPair (toMatch (snapshotAt 1 0)) 0 0, newPair (toMatch (snapshotAt 1 0)) 1 0]) := by
    decide +kernel
  obtain ⟨⟨n2, pairs2⟩, h2⟩ := Option.isSome_iff_exists.mp (matchBatch_isSome defaultChunkSize day [snapshotAt 1 0]
    correctedOnce [newPair (toMatch (snapshotAt 1 0)) 0 0, newPair (toMatch (snapshotAt 1 0)) 1 0])
  obtain ⟨rfl, -⟩ := (second_run_creates_nothing_iff (by decide) day hc h1 h2).mpr
    ⟨by decide +kernel, by decide +kernel⟩
  exact ⟨_, pairs2, h1, h2⟩

/-- A snapshot is paired with the observation of its hour, which is then corrected twice before the
next batch. -/
def correctedTwice : List MatchAct :=
  [.arrive (snapshotAt 1 0), .observe (.beginTx "openmeteo_historical" 1 0 hour [readingOf 20]), .observe (.read 0),
    .observe (.insert 0), .observe (.commit 0), .start day, .list, .find, .insert, .listRematch, .insertRematch,
    .observe (.beginTx "openmeteo_historical" 1 0 hour [readingOf 21]), .observe (.read 1), .observe (.supersede 1),
    .observe (.insert 1), .observe (.commit 1),
    .observe (.beginTx "openmeteo_historical" 1 0 hour [readingOf 22]), .observe (.read 2), .observe (.supersede 2),
    .observe (.insert 2), .observe (.commit 2)]

/-- The first batch pairs the snapshot with the first correction, and only the second one with the
live observation. -/
theorem correctedTwice_second_run :
    ∃ s : MatchState, s.Reachable defaultChunkSize ∧ s.batch.isNone = true ∧
      (∃ e ∈ s.obs, e.id = 2 ∧ e.live = true) ∧ SupersededBy s.obs 0 1 ∧ SupersededBy s.obs 1 2 ∧
      ∃ pairs1 pairs2, matchBatch defaultChunkSize day s.snapshots s.obs s.pairs = some (1, pairs1) ∧
        PairedWith pairs1 1 0 ∧ ¬ PairedWith pairs1 1 2 ∧
        matchBatch defaultChunkSize day s.snapshots s.obs pairs1 = some (1, pairs2) ∧ PairedWith pairs2 1 2 := by
  have hrun : (MatchState.empty.run defaultChunkSize correctedTwice).map
      (fun s => (s.batch.isNone, s.snapshots, s.obs, s.pairs)) =
      some (true, [snapshotAt 1 0], [⟨readingOf 20, 0, 1, "openmeteo_historical", some 1⟩,
        ⟨{ readingOf 21 with qualityFlag := .corrected }, 1, 1, "openmeteo_historical", some 2⟩,
        ⟨{ readingOf 22 with qualityFlag := .corrected }, 2, 1, "openmeteo_historical", none⟩],
        [newPair (toMatch (snapshotAt 1 0)) 0 0]) := by
    decide +kernel
  obtain ⟨s, hs, he⟩ := Option.map_eq_some_iff.mp hrun
  obtain ⟨hbatch, hsnaps, hobs, hpairs⟩ := Prod.mk.inj he |>.imp_right fun h => Prod.mk.inj h |>.imp_right Prod.mk.inj
  refine ⟨s, MatchState.Reachable.init.run hs, hbatch, ?_⟩
  rw [hsnaps, hobs, hpairs]
  exact ⟨by decide +kernel, by decide +kernel, by decide +kernel,
    [newPair (toMatch (snapshotAt 1 0)) 0 0, newPair (toMatch (snapshotAt 1 0)) 1 0],
    [newPair (toMatch (snapshotAt 1 0)) 0 0, newPair (toMatch (snapshotAt 1 0)) 1 0,
      newPair (toMatch (snapshotAt 1 0)) 2 0], by decide +kernel, by decide +kernel, by decide +kernel,
    by decide +kernel, by decide +kernel⟩

end ForecastIQ.Analysis
