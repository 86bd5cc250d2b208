import ForecastIQ.Analysis.MatchLoop
import ForecastIQ.Collection.ObserveInvariant

/-!
# Pairs along chains of corrections

Matching batches run one after the other while observations are collected: the statements
of a batch (the query for a chunk, the query for the candidates of each snapshot of the
chunk, the insert of their pairs, the query and the insert of `rematch`) interleave with
the statements of any number of observation runs, and with snapshots that arrive. A batch
can fail between any two of its statements.

The observations that a snapshot was ever paired with are on one chain of corrections:
the first pair is made while the snapshot has none, and a later one follows a pointer
(`PairsOK.rooted`). So at most one of them is live.
-/

namespace ForecastIQ.Analysis

open ForecastIQ.Foundations ForecastIQ.Collection

/-! ### Batches and observation runs -/

/-- How far a batch is. -/
inductive BatchProgress where
  /-- Before the query for a chunk. -/
  | listing (start stop : ℤ) (after : Option ℕ)
  /-- In a chunk: the snapshots whose candidates are not read yet, and the pairs so far. -/
  | finding (start stop : ℤ) (chunk left : List SnapshotToMatch) (found : List MatchedEvaluation)
  /-- Before the query of `rematch`. -/
  | rematching
  /-- Before the insert of `rematch`. -/
  | rematched (targets : List RematchTarget)

/-- The observations with their running transactions, the snapshots, the pairs and the batch that
is running. -/
structure MatchState where
  observing : ObserveState
  snapshots : List SnapshotRow
  pairs : List MatchedEvaluation
  batch : Option BatchProgress

/-- The committed observations. -/
def MatchState.obs (s : MatchState) : List Observation := s.observing.table

/-- The empty tables. -/
def MatchState.empty : MatchState := ⟨.empty, [], [], none⟩

/-- One statement. -/
inductive MatchAct where
  /-- A statement of an observation run. -/
  | observe (a : ObserveAct)
  /-- A snapshot is stored. -/
  | arrive (r : SnapshotRow)
  /-- A batch starts. -/
  | start (now : ℤ)
  /-- `ListUnmatchedSnapshots`. -/
  | list
  /-- `FindCandidates`, for the next snapshot of the chunk. -/
  | find
  /-- `InsertMatches`, at the end of the chunk. -/
  | insert
  /-- `ListRematchTargets`. -/
  | listRematch
  /-- `InsertMatches`, in `rematch`. -/
  | insertRematch
  /-- The batch fails. -/
  | fail

/-- The batch after a chunk: the next one, unless this one was short. -/
def afterChunk (chunkSize : ℕ) (start stop : ℤ) (chunk : List SnapshotToMatch) : BatchProgress :=
  match chunk.getLast? with
  | none => .rematching
  | some last => if chunk.length < chunkSize then .rematching else .listing start stop (some last.id)

/-- One act; `none` when it cannot be taken now. -/
def MatchState.step (chunkSize : ℕ) (s : MatchState) : MatchAct → Option MatchState
  | .observe a => (s.observing.step a).map fun observing => { s with observing := observing }
  | .arrive r =>
    -- identifiers are generated, and never used again
    if r.id ∈ s.snapshots.map SnapshotRow.id then none else some { s with snapshots := s.snapshots ++ [r] }
  | .start now =>
    match s.batch with
    | none => some { s with batch := some (.listing (now - matchWindowBack) (now - publicationMargin) none) }
    | some _ => none
  | .list =>
    match s.batch with
    | some (.listing start stop after) =>
      let chunk := listUnmatchedSnapshots s.snapshots s.pairs start stop after chunkSize
      some { s with batch := some (if chunk = [] then .rematching else .finding start stop chunk chunk []) }
    | _ => none
  | .find =>
    match s.batch with
    | some (.finding start stop chunk (snap :: left) found) =>
      some { s with batch := some (.finding start stop chunk left (found ++ (pairFor s.obs snap).toList)) }
    | _ => none
  | .insert =>
    match s.batch with
    | some (.finding start stop chunk [] found) =>
      some { s with pairs := insertMatches s.pairs found, batch := some (afterChunk chunkSize start stop chunk) }
    | _ => none
  | .listRematch =>
    match s.batch with
    | some .rematching =>
      some { s with batch := some (.rematched (listRematchTargets s.obs s.pairs rematchBatchLimit)) }
    | _ => none
  | .insertRematch =>
    match s.batch with
    | some (.rematched targets) =>
      some { s with
        pairs := insertMatches s.pairs (targets.map fun t => newPair t.snapshot t.newObservationID t.newObservedAt)
        batch := none }
    | _ => none
  | .fail => some { s with batch := none }

/-- The states that any interleaving reaches. -/
inductive MatchState.Reachable (chunkSize : ℕ) : MatchState → Prop where
  | init : Reachable chunkSize .empty
  | step {s s' : MatchState} {a : MatchAct} : Reachable chunkSize s → s.step chunkSize a = some s' →
      Reachable chunkSize s'

/-! ### What holds of the pairs -/

/-- `b` is `a`, or corrects it in some number of corrections. -/
abbrev Corrects (obs : List Observation) : ℕ → ℕ → Prop :=
  Chain.Reaches Observation.id Observation.supersededObservationID obs

/-- The observation of the pair is of the place and hour of the snapshot. -/
def AtTarget (obs : List Observation) (m : MatchedEvaluation) : Prop :=
  ∃ o ∈ obs, o.id = m.observationID ∧ o.locationID = m.snapshot.locationID ∧
    o.observedAt = truncateHour m.snapshot.targetTime

theorem AtTarget.mono {obs obs' : List Observation} (h : Extends obs obs') {m : MatchedEvaluation}
    (hm : AtTarget obs m) : AtTarget obs' m := by
  obtain ⟨o, ho, hid, hloc, hat⟩ := hm
  obtain ⟨o', ho', hid', hkey, -⟩ := h o ho
  simp only [Observation.hourKey, Prod.mk.injEq] at hkey
  exact ⟨o', ho', hid'.trans hid, hkey.2.1.trans hloc, hkey.2.2.trans hat⟩

theorem atTarget_of_pairFor {obs : List Observation} {snap : SnapshotToMatch} {m : MatchedEvaluation}
    (h : pairFor obs snap = some m) : AtTarget obs m := by
  obtain ⟨o, ho, ⟨hloc, hat, -, -⟩, rfl⟩ := observation_of_pairFor h
  exact ⟨o, ho, rfl, hloc, hat⟩

/-- What holds of the pairs. -/
structure PairsOK (snaps : List SnapshotRow) (obs : List Observation) (pairs : List MatchedEvaluation) : Prop where
  stored : ∀ m ∈ pairs, ∃ r ∈ snaps, toMatch r = m.snapshot
  atTarget : ∀ m ∈ pairs, AtTarget obs m
  nodup : (pairs.map MatchedEvaluation.pair).Nodup
  /-- The observations of a snapshot correct one observation. -/
  rooted : ∀ id, ∃ root, ∀ m ∈ pairs, m.snapshot.id = id → Corrects obs root m.observationID

theorem PairsOK.mono {snaps snaps' : List SnapshotRow} {obs obs' : List Observation} {pairs : List MatchedEvaluation}
    (h : PairsOK snaps obs pairs) (hs : snaps ⊆ snaps') (ho : Extends obs obs') : PairsOK snaps' obs' pairs where
  stored m hm := by
    obtain ⟨r, hr, he⟩ := h.stored m hm
    exact ⟨r, hs hr, he⟩
  atTarget m hm := (h.atTarget m hm).mono ho
  nodup := h.nodup
  rooted id := by
    obtain ⟨root, hroot⟩ := h.rooted id
    exact ⟨root, fun m hm hid => ho.reaches (hroot m hm hid)⟩

theorem nodup_insertMatches {pairs : List MatchedEvaluation} (h : (pairs.map MatchedEvaluation.pair).Nodup)
    (new : List MatchedEvaluation) : ((insertMatches pairs new).map MatchedEvaluation.pair).Nodup := by
  rw [← keys_pair] at h ⊢
  exact nodup_keys_insertAll h new

/-- First pairs of different snapshots. -/
theorem PairsOK.insertFirst {snaps : List SnapshotRow} {obs : List Observation} {pairs found : List MatchedEvaluation}
    (h : PairsOK snaps obs pairs) (hstored : ∀ m ∈ found, ∃ r ∈ snaps, toMatch r = m.snapshot)
    (hat : ∀ m ∈ found, AtTarget obs m) (hnodup : (found.map fun m => m.snapshot.id).Nodup)
    (hfirst : ∀ m ∈ found, ∀ m' ∈ pairs, m'.snapshot.id ≠ m.snapshot.id) :
    PairsOK snaps obs (insertMatches pairs found) where
  stored m hm := (mem_of_mem_insertAll hm).elim (h.stored m) (hstored m)
  atTarget m hm := (mem_of_mem_insertAll hm).elim (h.atTarget m) (hat m)
  nodup := nodup_insertMatches h.nodup found
  rooted id := by
    by_cases hid : ∃ m ∈ found, m.snapshot.id = id
    · obtain ⟨m, hm, rfl⟩ := hid
      refine ⟨m.observationID, fun m' hm' hsame => ?_⟩
      rcases mem_of_mem_insertAll hm' with hm' | hm'
      · exact absurd hsame (hfirst m hm m' hm')
      · rw [List.inj_on_of_nodup_map hnodup hm' hm hsame]
        exact .refl
    · obtain ⟨root, hroot⟩ := h.rooted id
      refine ⟨root, fun m hm hsame => ?_⟩
      rcases mem_of_mem_insertAll hm with hm | hm
      · exact hroot m hm hsame
      · exact absurd ⟨m, hm, hsame⟩ hid

/-- The row `a` was superseded, by the stored row `b`. -/
def CorrectedBy (obs : List Observation) (a b : ℕ) : Prop := SupersededBy obs a b ∧ b ∈ obs.map Observation.id

/-- Pairs that follow a pointer to a row. -/
theorem PairsOK.insertNext {snaps : List SnapshotRow} {obs : List Observation} {pairs new : List MatchedEvaluation}
    (h : PairsOK snaps obs pairs) (hl : Linked obs)
    (hnew : ∀ m ∈ new, ∃ m' ∈ pairs, m'.snapshot = m.snapshot ∧ CorrectedBy obs m'.observationID m.observationID) :
    PairsOK snaps obs (insertMatches pairs new) where
  stored m hm := by
    rcases mem_of_mem_insertAll hm with hm | hm
    · exact h.stored m hm
    · obtain ⟨m', hm', hsnap, -⟩ := hnew m hm
      rw [← hsnap]
      exact h.stored m' hm'
  atTarget m hm := by
    rcases mem_of_mem_insertAll hm with hm | hm
    · exact h.atTarget m hm
    · obtain ⟨m', hm', hsnap, ⟨o', ho', hid', hnext⟩, hrow⟩ := hnew m hm
      obtain ⟨o, ho, hid, hloc, hat⟩ := h.atTarget m' hm'
      obtain ⟨n, hn, hnid⟩ := List.mem_map.mp hrow
      obtain rfl := List.inj_on_of_nodup_map hl.nodup ho' ho (hid'.trans hid.symm)
      have hkey := hl.sameHour o' ho' n hn (by rw [hnid]; exact hnext)
      simp only [Observation.hourKey, Prod.mk.injEq] at hkey
      rw [AtTarget, ← hsnap]
      exact ⟨n, hn, hnid, hkey.2.1.trans hloc, hkey.2.2.trans hat⟩
  nodup := nodup_insertMatches h.nodup new
  rooted id := by
    obtain ⟨root, hroot⟩ := h.rooted id
    refine ⟨root, fun m hm hsame => ?_⟩
    rcases mem_of_mem_insertAll hm with hm | hm
    · exact hroot m hm hsame
    · obtain ⟨m', hm', hsnap, hby, -⟩ := hnew m hm
      exact (hroot m' hm' (by rw [hsnap]; exact hsame)).tail hby

/-! ### The invariant -/

/-- What holds of a running batch. -/
def BatchOK (snaps : List SnapshotRow) (obs : List Observation) (pairs : List MatchedEvaluation) :
    BatchProgress → Prop
  | .listing _ _ _ => True
  | .finding _ _ _ left found =>
    (found.map (fun m => m.snapshot.id) ++ left.map SnapshotToMatch.id).Nodup ∧
      (∀ m ∈ found, ∃ r ∈ snaps, toMatch r = m.snapshot) ∧ (∀ snap ∈ left, ∃ r ∈ snaps, toMatch r = snap) ∧
      (∀ m ∈ found, AtTarget obs m) ∧
      ∀ m ∈ pairs, m.snapshot.id ∉ found.map (fun m => m.snapshot.id) ++ left.map SnapshotToMatch.id
  | .rematching => True
  | .rematched targets =>
    ∀ t ∈ targets, ∃ m ∈ pairs, m.snapshot = t.snapshot ∧ CorrectedBy obs m.observationID t.newObservationID

theorem BatchOK.mono {snaps snaps' : List SnapshotRow} {obs obs' : List Observation} {pairs : List MatchedEvaluation}
    {b : BatchProgress} (h : BatchOK snaps obs pairs b) (hs : snaps ⊆ snaps') (ho : Extends obs obs') :
    BatchOK snaps' obs' pairs b := by
  cases b with
  | listing => trivial
  | finding =>
    obtain ⟨h1, h2, h3, h4, h5⟩ := h
    refine ⟨h1, fun m hm => ?_, fun snap hsnap => ?_, fun m hm => (h4 m hm).mono ho, h5⟩
    · obtain ⟨r, hr, he⟩ := h2 m hm
      exact ⟨r, hs hr, he⟩
    · obtain ⟨r, hr, he⟩ := h3 snap hsnap
      exact ⟨r, hs hr, he⟩
  | rematching => trivial
  | rematched =>
    intro t ht
    obtain ⟨m, hm, hsnap, hby, hrow⟩ := h t ht
    obtain ⟨n, hn, hid⟩ := List.mem_map.mp hrow
    obtain ⟨n', hn', hid', -⟩ := ho n hn
    exact ⟨m, hm, hsnap, ho.supersededBy hby, List.mem_map.mpr ⟨n', hn', hid'.trans hid⟩⟩

/-- What holds in every reached state. -/
structure MatchState.Inv (s : MatchState) : Prop where
  observing : s.observing.Reachable
  ids : (s.snapshots.map SnapshotRow.id).Nodup
  pairs : PairsOK s.snapshots s.obs s.pairs
  batch : ∀ b, s.batch = some b → BatchOK s.snapshots s.obs s.pairs b

theorem MatchState.Inv.empty : MatchState.empty.Inv where
  observing := .init
  ids := List.nodup_nil
  pairs := ⟨by simp [MatchState.empty], by simp [MatchState.empty], List.nodup_nil,
    fun _ => ⟨0, by simp [MatchState.empty]⟩⟩
  batch := by simp [MatchState.empty]

section Preserved

variable {chunkSize : ℕ} {s : MatchState}

theorem MatchState.Inv.observe (h : s.Inv) {a : ObserveAct} {observing : ObserveState}
    (ha : s.observing.step a = some observing) : { s with observing := observing }.Inv where
  observing := h.observing.step ha
  ids := h.ids
  pairs := h.pairs.mono (List.Subset.refl _) (ObserveState.extends_step ha)
  batch b hb := (h.batch b hb).mono (List.Subset.refl _) (ObserveState.extends_step ha)

theorem MatchState.Inv.arrive (h : s.Inv) {r : SnapshotRow} (hr : r.id ∉ s.snapshots.map SnapshotRow.id) :
    { s with snapshots := s.snapshots ++ [r] }.Inv where
  observing := h.observing
  ids := by
    rw [List.map_append, List.map_singleton, ← List.concat_eq_append]
    exact .concat hr h.ids
  pairs := h.pairs.mono (List.subset_append_left _ _) (.refl _)
  batch b hb := (h.batch b hb).mono (List.subset_append_left _ _) (.refl _)

/-- The batch goes on, and nothing is written. -/
theorem MatchState.Inv.setBatch (h : s.Inv) {b : Option BatchProgress}
    (hb : ∀ b', b = some b' → BatchOK s.snapshots s.obs s.pairs b') : { s with batch := b }.Inv where
  observing := h.observing
  ids := h.ids
  pairs := h.pairs
  batch := hb

/-- Pairs are written, and the batch goes on with nothing to remember. -/
theorem MatchState.Inv.setPairs (h : s.Inv) {pairs : List MatchedEvaluation} (hp : PairsOK s.snapshots s.obs pairs)
    {b : Option BatchProgress} (hb : ∀ b', b = some b' → BatchOK s.snapshots s.obs pairs b') :
    { s with pairs := pairs, batch := b }.Inv where
  observing := h.observing
  ids := h.ids
  pairs := hp
  batch := hb

/-- A chunk is of different snapshots that have no pair. -/
theorem batchOK_chunk {snaps : List SnapshotRow} {obs : List Observation} {pairs : List MatchedEvaluation}
    (hids : (snaps.map SnapshotRow.id).Nodup) (start stop : ℤ) (after : Option ℕ) (limit : ℕ)
    {start' stop' : ℤ} {chunk' : List SnapshotToMatch} :
    BatchOK snaps obs pairs
      (.finding start' stop' chunk' (listUnmatchedSnapshots snaps pairs start stop after limit) []) := by
  have hsub : (listUnmatchedSnapshots snaps pairs start stop after limit).Sublist
      (unmatchedSnapshots snaps pairs start stop) := by
    rw [listUnmatchedSnapshots_eq hids]
    exact (List.take_sublist _ _).trans List.filter_sublist
  have hnodup : ((listUnmatchedSnapshots snaps pairs start stop after limit).map SnapshotToMatch.id).Nodup :=
    List.pairwise_map.mpr (((pairwise_lt_unmatchedSnapshots hids pairs start stop).sublist hsub).imp
      fun hab => Nat.ne_of_lt hab)
  refine ⟨by simpa using hnodup, by simp, fun snap hsnap => ?_, by simp, fun m hm hmem => ?_⟩
  · obtain ⟨r, hr, -, he⟩ := mem_unmatchedSnapshots.mp (hsub.subset hsnap)
    exact ⟨r, hr, he⟩
  · simp only [List.map_nil, List.nil_append] at hmem
    obtain ⟨snap, hsnap, he⟩ := List.mem_map.mp hmem
    obtain ⟨r, -, hun, rfl⟩ := mem_unmatchedSnapshots.mp (hsub.subset hsnap)
    exact hun.2.2 m hm he.symm

/-- The candidates of the next snapshot are read. -/
theorem BatchOK.find {snaps : List SnapshotRow} {obs : List Observation} {pairs : List MatchedEvaluation}
    {start stop : ℤ} {chunk left : List SnapshotToMatch} {snap : SnapshotToMatch} {found : List MatchedEvaluation}
    (h : BatchOK snaps obs pairs (.finding start stop chunk (snap :: left) found)) :
    BatchOK snaps obs pairs (.finding start stop chunk left (found ++ (pairFor obs snap).toList)) := by
  obtain ⟨h1, h2, h3, h4, h5⟩ := h
  have hleft : ∀ snap' ∈ left, ∃ r ∈ snaps, toMatch r = snap' := fun snap' hs => h3 snap' (List.mem_cons_of_mem _ hs)
  cases hpair : pairFor obs snap with
  | none =>
    have hsub : (found.map (fun m => m.snapshot.id) ++ left.map SnapshotToMatch.id).Sublist
        (found.map (fun m => m.snapshot.id) ++ (snap :: left).map SnapshotToMatch.id) :=
      (List.Sublist.refl _).append (List.sublist_cons_self _ _)
    simp only [Option.toList_none, List.append_nil]
    exact ⟨hsub.nodup h1, h2, hleft, h4, fun m hm hmem => h5 m hm (hsub.subset hmem)⟩
  | some m =>
    have hsnap := snapshot_of_pairFor hpair
    have hids : (found ++ [m]).map (fun m => m.snapshot.id) ++ left.map SnapshotToMatch.id =
        found.map (fun m => m.snapshot.id) ++ (snap :: left).map SnapshotToMatch.id := by
      simp [hsnap]
    simp only [Option.toList_some]
    refine ⟨by rw [hids]; exact h1, fun m' hm' => ?_, hleft, fun m' hm' => ?_, by rw [hids]; exact h5⟩
    · rcases List.mem_append.mp hm' with hm' | hm'
      · exact h2 m' hm'
      · rw [List.mem_singleton.mp hm', hsnap]
        exact h3 snap List.mem_cons_self
    · rcases List.mem_append.mp hm' with hm' | hm'
      · exact h4 m' hm'
      · rw [List.mem_singleton.mp hm']
        exact atTarget_of_pairFor hpair

theorem batchOK_afterChunk {snaps : List SnapshotRow} {obs : List Observation} {pairs : List MatchedEvaluation}
    (chunkSize : ℕ) (start stop : ℤ) (chunk : List SnapshotToMatch) :
    BatchOK snaps obs pairs (afterChunk chunkSize start stop chunk) := by
  rw [afterChunk]
  split
  · trivial
  · split_ifs <;> trivial

/-- Every act keeps the invariant. -/
theorem MatchState.Inv.step (h : s.Inv) {a : MatchAct} {s' : MatchState} (hs : s.step chunkSize a = some s') :
    s'.Inv := by
  cases a with
  | observe a =>
    obtain ⟨observing, ha, rfl⟩ := Option.map_eq_some_iff.mp hs
    exact h.observe ha
  | arrive r =>
    simp only [MatchState.step] at hs
    split_ifs at hs with hr
    cases hs
    exact h.arrive hr
  | start now =>
    simp only [MatchState.step] at hs
    split at hs
    · cases hs
      exact h.setBatch fun b hb => by cases hb; trivial
    · cases hs
  | list =>
    simp only [MatchState.step] at hs
    split at hs
    · cases hs
      refine h.setBatch fun b hb => ?_
      cases hb
      split_ifs
      · trivial
      · exact batchOK_chunk h.ids _ _ _ _
    · cases hs
  | find =>
    simp only [MatchState.step] at hs
    split at hs
    · rename_i hb
      cases hs
      refine h.setBatch fun b hb' => ?_
      cases hb'
      exact (h.batch _ hb).find
    · cases hs
  | insert =>
    simp only [MatchState.step] at hs
    split at hs
    · rename_i hb
      cases hs
      obtain ⟨h1, h2, -, h4, h5⟩ := h.batch _ hb
      rw [List.map_nil, List.append_nil] at h1 h5
      refine h.setPairs (h.pairs.insertFirst h2 h4 h1 fun m hm m' hm' he => h5 m' hm' ?_) fun b hb' => ?_
      · rw [he]
        exact List.mem_map.mpr ⟨m, hm, rfl⟩
      · cases hb'
        exact batchOK_afterChunk ..
    · cases hs
  | listRematch =>
    simp only [MatchState.step] at hs
    split at hs
    · cases hs
      refine h.setBatch fun b hb => ?_
      cases hb
      intro t ht
      obtain ⟨m, hm, o, ho, hid, n, hn, hnext, -, rfl⟩ := mem_of_listRematchTargets ht
      exact ⟨m, hm, rfl, ⟨o, ho, hid, hnext⟩, List.mem_map_of_mem hn⟩
    · cases hs
  | insertRematch =>
    simp only [MatchState.step] at hs
    split at hs
    · rename_i hb
      cases hs
      refine h.setPairs (h.pairs.insertNext h.observing.inv.linked fun m hm => ?_) fun b hb' => by cases hb'
      obtain ⟨t, ht, rfl⟩ := List.mem_map.mp hm
      exact h.batch _ hb t ht
    · cases hs
  | fail =>
    cases hs
    exact h.setBatch fun b hb => by cases hb

end Preserved

theorem MatchState.Reachable.inv {chunkSize : ℕ} {s : MatchState} (h : s.Reachable chunkSize) : s.Inv := by
  induction h with
  | init => exact .empty
  | step _ hs ih => exact ih.step hs

/-- The acts one after another. -/
def MatchState.run (chunkSize : ℕ) (s : MatchState) (acts : List MatchAct) : Option MatchState :=
  acts.foldlM (step chunkSize) s

theorem MatchState.Reachable.run {chunkSize : ℕ} {s s' : MatchState} (h : s.Reachable chunkSize)
    {acts : List MatchAct} (hrun : s.run chunkSize acts = some s') : s'.Reachable chunkSize :=
  foldlM_invariant (fun _ _ _ => .step) h hrun

/-! ### One live pair -/

/-- The pairs of a snapshot whose observation is live. -/
def MatchState.livePairs (s : MatchState) (snapshotID : ℕ) : List MatchedEvaluation :=
  s.pairs.filter fun m => m.snapshot.id = snapshotID && s.obs.any fun o => o.id = m.observationID && o.live

theorem MatchState.mem_livePairs {s : MatchState} {snapshotID : ℕ} {m : MatchedEvaluation} :
    m ∈ s.livePairs snapshotID ↔
      m ∈ s.pairs ∧ m.snapshot.id = snapshotID ∧ ∃ o ∈ s.obs, o.id = m.observationID ∧ o.live = true := by
  simp [livePairs]

/-- The end of a chain is the only live row on it. -/
theorem MatchState.Inv.livePairs_eq {s : MatchState} (h : s.Inv) {snapshotID : ℕ} {m m' : MatchedEvaluation}
    (hm : m ∈ s.livePairs snapshotID) (hm' : m' ∈ s.livePairs snapshotID) : m = m' := by
  obtain ⟨hmp, hid, o, ho, hoid, hlive⟩ := mem_livePairs.mp hm
  obtain ⟨hmp', hid', o', ho', hoid', hlive'⟩ := mem_livePairs.mp hm'
  obtain ⟨root, hroot⟩ := h.pairs.rooted snapshotID
  have hreach := hroot m hmp hid
  have hreach' := hroot m' hmp' hid'
  rw [← hoid] at hreach
  rw [← hoid'] at hreach'
  have hsame : o = o' := Chain.eq_of_reaches_ends h.observing.inv.linked.nodup ho ho'
    (Option.isNone_iff_eq_none.mp hlive) (Option.isNone_iff_eq_none.mp hlive') hreach hreach'
  refine List.inj_on_of_nodup_map h.pairs.nodup hmp hmp' ?_
  rw [MatchedEvaluation.pair, MatchedEvaluation.pair, hid, hid', ← hoid, ← hoid', hsame]

theorem MatchState.Inv.length_livePairs {s : MatchState} (h : s.Inv) (snapshotID : ℕ) :
    (s.livePairs snapshotID).length ≤ 1 := by
  have hnodup : (s.livePairs snapshotID).Nodup := List.filter_sublist.nodup (List.Nodup.of_map _ h.pairs.nodup)
  have heq : ∀ m ∈ s.livePairs snapshotID, ∀ m' ∈ s.livePairs snapshotID, m = m' := fun m hm m' hm' =>
    h.livePairs_eq hm hm'
  match hl : s.livePairs snapshotID with
  | [] => simp
  | [m] => simp
  | m :: m' :: rest =>
    rw [hl] at hnodup heq
    exact absurd (heq m (by simp) m' (by simp)) fun he => (List.nodup_cons.mp hnodup).1 (by simp [he])

/-- The observation that the others correct is a row, if there is a pair. -/
theorem PairsOK.exists_root {snaps : List SnapshotRow} {obs : List Observation} {pairs : List MatchedEvaluation}
    (h : PairsOK snaps obs pairs) {root : ℕ} {m : MatchedEvaluation} (hm : m ∈ pairs)
    (hroot : Corrects obs root m.observationID) : ∃ o ∈ obs, o.id = root := by
  rcases Relation.ReflTransGen.cases_head hroot with rfl | ⟨c, ⟨o, ho, hid, -⟩, -⟩
  · obtain ⟨o, ho, hid, -⟩ := h.atTarget m hm
    exact ⟨o, ho, hid⟩
  · exact ⟨o, ho, hid⟩

/-- **In every run, a snapshot has at most one pair whose observation is live, and all observations
it was ever paired with are on one chain of corrections, of one source, the place of the snapshot
and its target hour.** -/
theorem pairs_on_one_chain {chunkSize : ℕ} {s : MatchState} (h : s.Reachable chunkSize) {r : SnapshotRow}
    (hr : r ∈ s.snapshots) :
    (s.livePairs r.id).length ≤ 1 ∧
      ∃ root source, ∀ m ∈ s.pairs, m.snapshot.id = r.id →
        Corrects s.obs root m.observationID ∧
          ∃ o ∈ s.obs, o.id = m.observationID ∧ o.source = source ∧ o.locationID = r.locationID ∧
            o.observedAt = truncateHour r.snapshot.targetTime := by
  have hinv := h.inv
  refine ⟨hinv.length_livePairs r.id, ?_⟩
  obtain ⟨root, hroot⟩ := hinv.pairs.rooted r.id
  by_cases hany : ∃ m ∈ s.pairs, m.snapshot.id = r.id
  · obtain ⟨m0, hm0, hid0⟩ := hany
    obtain ⟨first, hfirst, hfid⟩ := hinv.pairs.exists_root hm0 (hroot m0 hm0 hid0)
    refine ⟨root, first.source, fun m hm hid => ⟨hroot m hm hid, ?_⟩⟩
    obtain ⟨o, ho, hoid, hloc, hat⟩ := hinv.pairs.atTarget m hm
    obtain ⟨r', hr', hmatch⟩ := hinv.pairs.stored m hm
    obtain rfl : r' = r := List.inj_on_of_nodup_map hinv.ids hr' hr (by rw [← hid, ← hmatch]; rfl)
    have hkey := hinv.observing.inv.linked.hourKey_of_reaches (hroot m hm hid) hfirst ho hfid hoid
    rw [← hmatch] at hloc hat
    exact ⟨o, ho, hoid, congrArg Prod.fst hkey, hloc, hat⟩
  · exact ⟨root, "", fun m hm hid => absurd ⟨m, hm, hid⟩ hany⟩

/-- A snapshot is paired with the observation of its hour; the observation is corrected while the
next batch is between its queries, and the batch after that adds the pair with the correction. -/
def correctedWhileMatching : List MatchAct :=
  [.arrive (snapshotAt 1 0), .observe (.beginTx "openmeteo_historical" 1 0 hour [readingOf 20]), .observe (.read 0),
    .observe (.insert 0), .observe (.commit 0), .start day, .list, .find,
    .observe (.beginTx "openmeteo_historical" 1 0 hour [readingOf 21]), .observe (.read 1), .observe (.supersede 1),
    .observe (.insert 1), .observe (.commit 1), .insert, .fail, .start day, .list, .listRematch, .insertRematch]

theorem correctedWhileMatching_chain :
    ∃ s : MatchState, s.Reachable defaultChunkSize ∧ snapshotAt 1 0 ∈ s.snapshots ∧
      s.pairs.map MatchedEvaluation.pair = [(1, 0), (1, 1)] ∧ (s.livePairs 1).length ≤ 1 := by
  have hrun : (MatchState.empty.run defaultChunkSize correctedWhileMatching).map
      (fun s => (s.snapshots, s.pairs.map MatchedEvaluation.pair)) = some ([snapshotAt 1 0], [(1, 0), (1, 1)]) := by
    decide +kernel
  obtain ⟨s, hs, he⟩ := Option.map_eq_some_iff.mp hrun
  simp only [Prod.mk.injEq] at he
  have hr : s.Reachable defaultChunkSize := MatchState.Reachable.init.run hs
  have hmem : snapshotAt 1 0 ∈ s.snapshots := by
    rw [he.1]
    exact List.mem_cons_self
  exact ⟨s, hr, hmem, he.2, (pairs_on_one_chain hr hmem).1⟩

end ForecastIQ.Analysis
