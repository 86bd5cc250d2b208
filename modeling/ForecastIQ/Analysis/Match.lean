import ForecastIQ.Collection.Collect
import ForecastIQ.Collection.Observe
import Mathlib.Data.Int.ConditionallyCompleteOrder
import Mathlib.Data.List.MinMax
import Mathlib.Data.List.ReduceOption
import Mathlib.Data.List.Sort
import Mathlib.Data.Prod.Lex

/-!
# Matching snapshots with observations

`internal/analysis/match.go`, `internal/analysis/domain/match.go` and the queries of
`analysispg.go`. A batch looks at the unmatched snapshots whose target time is at most
thirty days and at least two hours past, chunk by chunk in the order of their
identifiers, and pairs each with the best live observation of its target hour. Then it
adds a pair for each pair whose observation was superseded meanwhile.

The best observation is the least one in the order of a key (`candidateLess_iff`), and no
two candidates have the same key (`eq_of_rank`), so it does not matter in which order the
candidates come.

A pair is of a stored snapshot and of an observation that is not suspect (`Paired`). The
loop over the chunks is on a bound of its number of rounds, which it never exhausts
(`matchChunks_isSome`).
-/

namespace ForecastIQ.Analysis

open ForecastIQ.Foundations ForecastIQ.Collection

/-! ### Candidates -/

/-- `ObservationCandidate`. -/
structure ObservationCandidate where
  id : ℕ
  observationType : ObservationType
  qualityFlag : QualityFlag
  observedAt : ℤ
  deriving DecidableEq, Repr

/-- `provenanceRank`. -/
def provenanceRank : ObservationType → ℕ
  | .stationObservation => 1
  | .interpolated => 2
  | .reanalysis => 2
  | .providerEstimated => 3
  | .other _ => 99

/-- `absDuration`; the negation of the least duration is itself. -/
def absDuration (d : ℤ) : ℤ := if d < 0 then if d = minDuration then d else -d else d

/-- `candidateLess`: corrected first, then provenance, distance to the hour, and identifier. -/
def candidateLess (a b : ObservationCandidate) (targetHour : ℤ) : Bool :=
  let ac := a.qualityFlag = .corrected
  let bc := b.qualityFlag = .corrected
  let ra := provenanceRank a.observationType
  let rb := provenanceRank b.observationType
  let da := absDuration (timeSub a.observedAt targetHour)
  let db := absDuration (timeSub b.observedAt targetHour)
  if decide ac ≠ decide bc then ac
  else if ra ≠ rb then ra < rb
  else if da ≠ db then da < db
  else a.id < b.id

/-- `SelectCandidate`; nil entries are passed over. -/
def selectCandidate (targetHour : ℤ) (candidates : List (Option ObservationCandidate)) :
    Option ObservationCandidate :=
  candidates.foldl (fun best c =>
    match c, best with
    | none, _ => best
    | some c, none => some c
    | some c, some b => if candidateLess c b targetHour then some c else best) none

/-! ### The best candidate -/

/-- What `candidateLess` compares: corrections first, then provenance, distance and identifier. -/
def ObservationCandidate.rank (targetHour : ℤ) (c : ObservationCandidate) : ℕ ×ₗ ℕ ×ₗ ℤ ×ₗ ℕ :=
  toLex (if c.qualityFlag = .corrected then 0 else 1, toLex (provenanceRank c.observationType,
    toLex (absDuration (timeSub c.observedAt targetHour), c.id)))

theorem candidateLess_iff (a b : ObservationCandidate) (targetHour : ℤ) :
    candidateLess a b targetHour = true ↔ a.rank targetHour < b.rank targetHour := by
  simp only [candidateLess, ObservationCandidate.rank, Prod.Lex.toLex_lt_toLex]
  by_cases ha : a.qualityFlag = .corrected <;> by_cases hb : b.qualityFlag = .corrected
  · split_ifs <;> simp_all
  · simp [ha, hb]
  · simp [ha, hb]
  · split_ifs <;> simp_all

/-- Only the candidate itself has its rank. -/
theorem ObservationCandidate.id_eq_of_rank {targetHour : ℤ} {a b : ObservationCandidate}
    (h : a.rank targetHour = b.rank targetHour) : a.id = b.id := by
  simp only [ObservationCandidate.rank, toLex_inj, Prod.mk.injEq] at h
  exact h.2.2.2

/-- `SelectCandidate` returns the first candidate of the least rank. -/
theorem selectCandidate_eq_argmin (targetHour : ℤ) (candidates : List (Option ObservationCandidate)) :
    selectCandidate targetHour candidates = candidates.reduceOption.argmin fun c => c.rank targetHour := by
  rw [selectCandidate, List.argmin, List.reduceOption, List.foldl_filterMap]
  congr 1
  funext best c
  cases c with
  | none => cases best <;> rfl
  | some c =>
    cases best with
    | none => rfl
    | some b => simp only [candidateLess_iff, List.argAux, id_eq]

/-- The selected candidate is one of the candidates. -/
theorem mem_of_selectCandidate {targetHour : ℤ} {candidates : List (Option ObservationCandidate)}
    {c : ObservationCandidate} (h : selectCandidate targetHour candidates = some c) : some c ∈ candidates := by
  rw [selectCandidate_eq_argmin] at h
  exact List.reduceOption_mem_iff.mp (List.argmin_mem h)

/-- Nothing is selected only where there is no candidate. -/
theorem selectCandidate_eq_none_iff {targetHour : ℤ} {candidates : List (Option ObservationCandidate)} :
    selectCandidate targetHour candidates = none ↔ ∀ c, some c ∉ candidates := by
  simp only [selectCandidate_eq_argmin, List.argmin_eq_none, List.eq_nil_iff_forall_not_mem, List.reduceOption_mem_iff]

section Distinct

variable {targetHour : ℤ} {candidates : List (Option ObservationCandidate)}
  (hids : (candidates.reduceOption.map ObservationCandidate.id).Nodup)

include hids

/-- Candidates of one rank are the same candidate. -/
theorem eq_of_rank {a b : ObservationCandidate} (ha : some a ∈ candidates) (hb : some b ∈ candidates)
    (h : a.rank targetHour = b.rank targetHour) : a = b :=
  List.inj_on_of_nodup_map hids (List.reduceOption_mem_iff.mpr ha) (List.reduceOption_mem_iff.mpr hb)
    (ObservationCandidate.id_eq_of_rank h)

/-- The selected candidate is less than every other. -/
theorem selectCandidate_eq_some_iff {c : ObservationCandidate} :
    selectCandidate targetHour candidates = some c ↔
      some c ∈ candidates ∧ ∀ b, some b ∈ candidates → b ≠ c → candidateLess c b targetHour = true := by
  simp only [candidateLess_iff]
  constructor
  · intro h
    have hc := mem_of_selectCandidate h
    refine ⟨hc, fun b hb hne => ?_⟩
    rw [selectCandidate_eq_argmin] at h
    have hle := List.le_of_mem_argmin (List.reduceOption_mem_iff.mpr hb) h
    exact lt_of_le_of_ne hle fun he => hne (eq_of_rank hids hb hc he.symm)
  · rintro ⟨hc, hlt⟩
    cases hsel : selectCandidate targetHour candidates with
    | none => exact absurd hc (selectCandidate_eq_none_iff.mp hsel c)
    | some b =>
      have hb := mem_of_selectCandidate hsel
      rw [selectCandidate_eq_argmin] at hsel
      have hle := List.le_of_mem_argmin (List.reduceOption_mem_iff.mpr hc) hsel
      by_contra hne
      exact absurd (hlt b hb fun he => hne (congrArg some he)) (not_lt.mpr hle)

end Distinct

/-- **`candidateLess` orders candidates with distinct identifiers totally, and `SelectCandidate` returns the
least of them**, in whatever order they come and with or without nil entries. -/
theorem selectCandidate_least (targetHour : ℤ) (candidates : List (Option ObservationCandidate))
    (hids : (candidates.reduceOption.map ObservationCandidate.id).Nodup) :
    (∀ a, candidateLess a a targetHour = false) ∧
      (∀ a b c, candidateLess a b targetHour = true → candidateLess b c targetHour = true →
        candidateLess a c targetHour = true) ∧
      (∀ a b, some a ∈ candidates → some b ∈ candidates → a ≠ b →
        (candidateLess a b targetHour = true ↔ candidateLess b a targetHour = false)) ∧
      (∀ c, selectCandidate targetHour candidates = some c ↔
        some c ∈ candidates ∧ ∀ b, some b ∈ candidates → b ≠ c → candidateLess c b targetHour = true) ∧
      (∀ candidates', candidates'.Perm candidates →
        selectCandidate targetHour candidates' = selectCandidate targetHour candidates) ∧
      (selectCandidate targetHour candidates = none ↔ ∀ c, some c ∉ candidates) := by
  refine ⟨fun a => ?_, fun a b c => ?_, fun a b ha hb hne => ?_, fun c => selectCandidate_eq_some_iff hids,
    fun candidates' hp => ?_, selectCandidate_eq_none_iff⟩
  · rw [Bool.eq_false_iff, ne_eq, candidateLess_iff]
    exact lt_irrefl _
  · simp only [candidateLess_iff]
    exact lt_trans
  · rw [Bool.eq_false_iff, ne_eq, candidateLess_iff, candidateLess_iff, not_lt]
    exact ⟨le_of_lt, fun hle => lt_of_le_of_ne hle fun he => hne (eq_of_rank hids ha hb he)⟩
  · have hids' : (candidates'.reduceOption.map ObservationCandidate.id).Nodup :=
      ((hp.filterMap id).map ObservationCandidate.id).nodup_iff.mpr hids
    refine Option.ext fun c => ?_
    rw [selectCandidate_eq_some_iff hids', selectCandidate_eq_some_iff hids]
    simp only [hp.mem_iff]

/-- A correction is preferred to the observation of a station, in either order. -/
theorem selectCandidate_correction :
    selectCandidate 0 [none, some ⟨1, .stationObservation, .valid, 0⟩, some ⟨2, .reanalysis, .corrected, minute⟩] =
        some ⟨2, .reanalysis, .corrected, minute⟩ ∧
      selectCandidate 0 [some ⟨2, .reanalysis, .corrected, minute⟩, none, some ⟨1, .stationObservation, .valid, 0⟩] =
        some ⟨2, .reanalysis, .corrected, minute⟩ := by
  obtain ⟨-, -, -, hsome, hperm, -⟩ := selectCandidate_least 0
    [none, some ⟨1, .stationObservation, .valid, 0⟩, some ⟨2, .reanalysis, .corrected, minute⟩] (by decide)
  have hsel := (hsome ⟨2, .reanalysis, .corrected, minute⟩).mpr ⟨by simp, by simp [candidateLess]⟩
  exact ⟨hsel, (hperm _ (by decide)).trans hsel⟩

/-! ### The tables -/

/-- `SnapshotToMatch`. -/
structure SnapshotToMatch where
  id : ℕ
  providerID : ℕ
  locationID : ℕ
  targetTime : ℤ
  forecastHorizonMinutes : ℤ
  deriving DecidableEq, Repr

/-- The columns of a stored snapshot that matching reads. -/
def toMatch (r : SnapshotRow) : SnapshotToMatch :=
  ⟨r.id, r.providerID, r.locationID, r.snapshot.targetTime, r.snapshot.forecastHorizonMinutes⟩

/-- How a snapshot was matched. -/
inductive MatchRule where
  | exactHour
  | subHourly15
  deriving DecidableEq, Repr

/-- `MatchedEvaluation`: one pair. -/
structure MatchedEvaluation where
  snapshot : SnapshotToMatch
  observationID : ℕ
  matchRule : MatchRule
  timeDeltaMinutes : ℤ
  deriving DecidableEq, Repr

/-- The snapshot and the observation of a pair. -/
def MatchedEvaluation.pair (m : MatchedEvaluation) : ℕ × ℕ := (m.snapshot.id, m.observationID)

/-- `newPair`. -/
def newPair (snap : SnapshotToMatch) (observationID : ℕ) (observedAt : ℤ) : MatchedEvaluation :=
  let delta := (timeSub observedAt snap.targetTime).tdiv minute
  ⟨snap, observationID, .exactHour, if delta < 0 then -delta else delta⟩

/-- `ListUnmatchedSnapshots`; the cursor is `none` before the first chunk. -/
def listUnmatchedSnapshots (snaps : List SnapshotRow) (pairs : List MatchedEvaluation) (start stop : ℤ)
    (after : Option ℕ) (limit : ℕ) : List SnapshotToMatch :=
  (((snaps.filter fun s =>
      start ≤ s.snapshot.targetTime ∧ s.snapshot.targetTime < stop ∧ (after.all fun a => a < s.id) = true ∧
        (pairs.any fun m => m.snapshot.id = s.id) = false).map toMatch).insertionSort
    fun a b => a.id ≤ b.id).take limit

/-- `FindCandidates`. -/
def findCandidates (obs : List Observation) (locationID : ℕ) (atHour : ℤ) : List ObservationCandidate :=
  (obs.filter fun o =>
    o.locationID = locationID ∧ o.observedAt = atHour ∧ o.qualityFlag ≠ .suspect ∧ o.live = true).map
    fun o => ⟨o.id, o.observationType, o.qualityFlag, o.observedAt⟩

/-- The pair of one snapshot, if there is an observation for it. -/
def pairFor (obs : List Observation) (snap : SnapshotToMatch) : Option MatchedEvaluation :=
  let atHour := truncateHour snap.targetTime
  (selectCandidate atHour ((findCandidates obs snap.locationID atHour).map some)).map fun chosen =>
    newPair snap chosen.id chosen.observedAt

/-- `InsertMatches`. -/
def insertMatches (pairs new : List MatchedEvaluation) : List MatchedEvaluation :=
  insertAll (fun m => some m.pair) pairs new

/-- `RematchTarget`. -/
structure RematchTarget where
  snapshot : SnapshotToMatch
  newObservationID : ℕ
  newObservedAt : ℤ
  deriving DecidableEq, Repr

/-- `ListRematchTargets`: the pairs whose observation was superseded by one they are not paired with. -/
def listRematchTargets (obs : List Observation) (pairs : List MatchedEvaluation) (limit : ℕ) : List RematchTarget :=
  ((pairs.flatMap fun m => (obs.filter fun o => o.id = m.observationID).flatMap fun o =>
      (obs.filter fun n => o.supersededObservationID = some n.id ∧
        (pairs.any fun m' => m'.snapshot.id = m.snapshot.id && m'.observationID = n.id) = false).map fun n =>
          (⟨m.snapshot, n.id, n.observedAt⟩ : RematchTarget)).insertionSort
    fun a b => a.snapshot.id ≤ b.snapshot.id).take limit

/-! ### The batch -/

/-- `defaultChunkSize`. -/
def defaultChunkSize : ℕ := 5000

/-- `rematchBatchLimit`. -/
def rematchBatchLimit : ℕ := 5000

/-- `matchWindowBack`. -/
def matchWindowBack : ℤ := 30 * 24 * hour

/-- `publicationMargin`. -/
def publicationMargin : ℤ := 2 * hour

/-- One round of the loop of `MatchBatch`, with its chunk. -/
def matchChunk (obs : List Observation) (chunk : List SnapshotToMatch) (pairs : List MatchedEvaluation) :
    List MatchedEvaluation :=
  insertMatches pairs (chunk.filterMap (pairFor obs))

/-- The loop of `MatchBatch`; `none` when `fuel` rounds are not enough. -/
def matchChunks (chunkSize : ℕ) (snaps : List SnapshotRow) (obs : List Observation) (start stop : ℤ) :
    ℕ → Option ℕ → List MatchedEvaluation → Option (List MatchedEvaluation)
  | 0, _, _ => none
  | fuel + 1, after, pairs =>
    let chunk := listUnmatchedSnapshots snaps pairs start stop after chunkSize
    match chunk.getLast? with
    | none => some pairs
    | some last =>
      let pairs := matchChunk obs chunk pairs
      if chunk.length < chunkSize then some pairs
      else matchChunks chunkSize snaps obs start stop fuel (some last.id) pairs

/-- `rematch`. -/
def rematch (obs : List Observation) (pairs : List MatchedEvaluation) : List MatchedEvaluation :=
  insertMatches pairs ((listRematchTargets obs pairs rematchBatchLimit).map fun t =>
    newPair t.snapshot t.newObservationID t.newObservedAt)

/-- `MatchBatch`: the number of pairs created, and the pairs. -/
def matchBatch (chunkSize : ℕ) (now : ℤ) (snaps : List SnapshotRow) (obs : List Observation)
    (pairs : List MatchedEvaluation) : Option (ℕ × List MatchedEvaluation) := do
  let matched ← matchChunks chunkSize snaps obs (now - matchWindowBack) (now - publicationMargin)
    (snaps.length + 1) none pairs
  let all := rematch obs matched
  some (all.length - pairs.length, all)

/-! ### The loop ends -/

theorem mem_listUnmatchedSnapshots {snaps : List SnapshotRow} {pairs : List MatchedEvaluation} {start stop : ℤ}
    {after : Option ℕ} {limit : ℕ} {snap : SnapshotToMatch}
    (h : snap ∈ listUnmatchedSnapshots snaps pairs start stop after limit) :
    ∃ r ∈ snaps, toMatch r = snap ∧ (after.all fun a => a < r.id) = true := by
  have hmem := (List.mem_insertionSort _).mp (List.mem_of_mem_take h)
  obtain ⟨r, hr, rfl⟩ := List.mem_map.mp hmem
  rw [List.mem_filter, decide_eq_true_eq] at hr
  exact ⟨r, hr.1, rfl, hr.2.2.2.1⟩

/-- Each round leaves fewer snapshots behind the cursor, so one round more than there are snapshots
behind it is enough. -/
theorem matchChunks_isSome {chunkSize : ℕ} {snaps : List SnapshotRow} {obs : List Observation} {start stop : ℤ}
    {fuel : ℕ} {after : Option ℕ} {pairs : List MatchedEvaluation}
    (h : (snaps.countP fun r => after.all fun a => a < r.id) < fuel) :
    (matchChunks chunkSize snaps obs start stop fuel after pairs).isSome = true := by
  induction fuel generalizing after pairs with
  | zero => omega
  | succ fuel ih =>
    simp only [matchChunks]
    split
    · rfl
    · rename_i last hlast
      split_ifs
      · rfl
      · refine ih ?_
        obtain ⟨r, hr, rfl, hafter⟩ := mem_listUnmatchedSnapshots (List.mem_of_getLast? hlast)
        have hmono : ∀ l : List SnapshotRow, (l.countP fun r' => (some (toMatch r).id).all fun a => a < r'.id) ≤
            l.countP fun r' => after.all fun a => a < r'.id := by
          refine fun l => List.countP_mono_left fun r' _ hr' => ?_
          cases after with
          | none => rfl
          | some a =>
            simp only [toMatch, Option.all_some, decide_eq_true_eq] at hr' hafter ⊢
            omega
        have hlt : (snaps.countP fun r' => (some (toMatch r).id).all fun a => a < r'.id) <
            snaps.countP fun r' => after.all fun a => a < r'.id := by
          -- the last snapshot of the chunk is behind the old cursor, and not behind the new one
          obtain ⟨l₁, l₂, rfl⟩ := List.append_of_mem hr
          have h₁ := hmono l₁
          have h₂ := hmono l₂
          rw [List.countP_append, List.countP_append, List.countP_cons, List.countP_cons, if_pos hafter,
            if_neg (by simp [toMatch])]
          omega
        omega

/-- A batch always ends. -/
theorem matchBatch_isSome (chunkSize : ℕ) (now : ℤ) (snaps : List SnapshotRow) (obs : List Observation)
    (pairs : List MatchedEvaluation) : (matchBatch chunkSize now snaps obs pairs).isSome = true := by
  have h : (matchChunks chunkSize snaps obs (now - matchWindowBack) (now - publicationMargin) (snaps.length + 1) none
      pairs).isSome = true := matchChunks_isSome (Nat.lt_succ_of_le List.countP_le_length)
  obtain ⟨l, hl⟩ := Option.isSome_iff_exists.mp h
  simp [matchBatch, hl]

/-! ### What a batch adds -/

/-- What the rounds and the rematching keep, the batch keeps. -/
theorem matchBatch_induction {chunkSize : ℕ} {now : ℤ} {snaps : List SnapshotRow} {obs : List Observation}
    (P : List MatchedEvaluation → Prop)
    (hchunk : ∀ chunk pairs, (∀ snap ∈ chunk, ∃ r ∈ snaps, toMatch r = snap) → P pairs → P (matchChunk obs chunk pairs))
    (hrematch : ∀ pairs, P pairs → P (rematch obs pairs)) {pairs pairs' : List MatchedEvaluation} {n : ℕ}
    (h : matchBatch chunkSize now snaps obs pairs = some (n, pairs')) (hp : P pairs) : P pairs' := by
  obtain ⟨matched, hm, he⟩ := Option.bind_eq_some_iff.mp h
  cases he
  clear h
  refine hrematch matched ?_
  generalize snaps.length + 1 = fuel at hm
  generalize (none : Option ℕ) = after at hm
  induction fuel generalizing after pairs with
  | zero => cases hm
  | succ fuel ih =>
    simp only [matchChunks] at hm
    generalize hl : listUnmatchedSnapshots snaps pairs (now - matchWindowBack) (now - publicationMargin) after
      chunkSize = chunk at hm
    have hnext : P (matchChunk obs chunk pairs) := by
      refine hchunk chunk pairs (fun snap hsnap => ?_) hp
      rw [← hl] at hsnap
      obtain ⟨r, hr, he, -⟩ := mem_listUnmatchedSnapshots hsnap
      exact ⟨r, hr, he⟩
    split at hm
    · cases hm
      exact hp
    · split_ifs at hm
      · cases hm
        exact hnext
      · exact ih hnext _ hm

/-- The pair is of a stored snapshot and of an observation that is not suspect. -/
def Paired (snaps : List SnapshotRow) (obs : List Observation) (m : MatchedEvaluation) : Prop :=
  (∃ r ∈ snaps, toMatch r = m.snapshot) ∧ ∃ o ∈ obs, o.id = m.observationID ∧ o.qualityFlag ≠ .suspect

/-- The observation of a new pair. -/
theorem observation_of_pairFor {obs : List Observation} {snap : SnapshotToMatch} {m : MatchedEvaluation}
    (h : pairFor obs snap = some m) :
    ∃ o ∈ obs, (o.locationID = snap.locationID ∧ o.observedAt = truncateHour snap.targetTime ∧
      o.qualityFlag ≠ .suspect ∧ o.live = true) ∧ m = newPair snap o.id o.observedAt := by
  simp only [pairFor, Option.map_eq_some_iff] at h
  obtain ⟨c, hc, rfl⟩ := h
  obtain ⟨c', hmem, he⟩ := List.mem_map.mp (mem_of_selectCandidate hc)
  cases he
  obtain ⟨o, ho, rfl⟩ := List.mem_map.mp hmem
  rw [List.mem_filter, decide_eq_true_eq] at ho
  exact ⟨o, ho.1, ho.2, rfl⟩

theorem paired_of_pairFor {snaps : List SnapshotRow} {obs : List Observation} {snap : SnapshotToMatch}
    {m : MatchedEvaluation} (hsnap : ∃ r ∈ snaps, toMatch r = snap) (h : pairFor obs snap = some m) :
    Paired snaps obs m := by
  obtain ⟨o, ho, ⟨-, -, hflag, -⟩, rfl⟩ := observation_of_pairFor h
  exact ⟨hsnap, o, ho, rfl, hflag⟩

/-- A target is of a pair whose observation was superseded by one the snapshot has no pair with. -/
theorem mem_of_listRematchTargets {obs : List Observation} {pairs : List MatchedEvaluation} {limit : ℕ}
    {t : RematchTarget} (h : t ∈ listRematchTargets obs pairs limit) :
    ∃ m ∈ pairs, ∃ o ∈ obs, o.id = m.observationID ∧ ∃ n ∈ obs, o.supersededObservationID = some n.id ∧
      (∀ m' ∈ pairs, m'.snapshot.id = m.snapshot.id → m'.observationID ≠ n.id) ∧
      t = ⟨m.snapshot, n.id, n.observedAt⟩ := by
  have hmem := (List.mem_insertionSort _).mp (List.mem_of_mem_take h)
  obtain ⟨m, hm, hmem⟩ := List.mem_flatMap.mp hmem
  obtain ⟨o, ho, hmem⟩ := List.mem_flatMap.mp hmem
  obtain ⟨n, hn, rfl⟩ := List.mem_map.mp hmem
  rw [List.mem_filter, decide_eq_true_eq] at ho hn
  refine ⟨m, hm, o, ho.1, ho.2, n, hn.1, hn.2.1, ?_, rfl⟩
  simpa using hn.2.2

/-- A rematched pair is of the snapshot of an older pair, and of a correction. -/
theorem paired_of_rematch {snaps : List SnapshotRow} {s : ObservationStore} (hv : s.Valid)
    {pairs : List MatchedEvaluation} (hp : ∀ m ∈ pairs, Paired snaps s.rows m) {t : RematchTarget} {limit : ℕ}
    (h : t ∈ listRematchTargets s.rows pairs limit) :
    Paired snaps s.rows (newPair t.snapshot t.newObservationID t.newObservedAt) := by
  obtain ⟨m, hm, o, ho, -, c, hc, hnext, -, rfl⟩ := mem_of_listRematchTargets h
  refine ⟨(hp m hm).1, c, hc, rfl, ?_⟩
  rw [hv.corrected o ho c.id hnext c hc rfl]
  decide

end ForecastIQ.Analysis
