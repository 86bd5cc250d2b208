import ForecastIQ.Collection.Collect
import ForecastIQ.Foundations.Processes

/-!
# Concurrent collections

Any number of `Collect` calls that the circuit let through and the provider has answered,
for any providers and locations, statement by statement:

* the deduplication lookup reads the committed rows, outside of a transaction;
* when it finds nothing, the payload is written and a transaction inserts the pending
  collection and then its snapshots, one by one; a snapshot waits for a transaction that
  has inserted one with its key, and is passed over when a committed one, or one of its
  own, has the key;
* the completion of a usable collection enters the partial unique index
  `forecast_collections_dedup`: it waits for a transaction that has entered its key, and a
  committed row with its key is a unique violation, which rolls the transaction back;
* a call that has met a row with its key, at the lookup or at the completion, records its
  attempt with one insert outside of a transaction;
* a call can fail at any time before it has returned (the database is gone, a deadlock
  victim), which rolls its transaction back.

The circuit is a row of its own, and is left out here.

What holds in every interleaving is `Inv`: the rows and the snapshots of the tables are
those of calls that have returned, and no two calls hold a key of the index.
-/

namespace ForecastIQ.Collection

open ForecastIQ.Foundations

/-- The index `forecast_collections_dedup`. -/
def ForecastCollection.index (c : ForecastCollection) : Option (ℕ × ℕ × ℤ) :=
  if c.status.successful then some (c.providerID, c.locationID, c.dedupKey) else none

/-! ### Calls -/

/-- How far a call is. -/
inductive CallPhase where
  /-- The provider has answered. -/
  | fetched
  /-- No usable collection has the key, or the response is not usable. -/
  | missed
  /-- The transaction has inserted the pending row; the snapshots that are left, and those inserted. -/
  | storing (payloadOK : Bool) (objectKey : Option PayloadKey) (left inserted : List SnapshotRow)
  /-- The row is completed, and not committed. -/
  | completed (row : ForecastCollection) (inserted : List SnapshotRow)
  /-- A usable collection has the key, and nothing of the call is stored. -/
  | lost
  /-- The call has returned its row. -/
  | returned (row : ForecastCollection)
  /-- The call has returned an error. -/
  | failed

/-- A call of `Collect`: its request, what happens to it, the identifier of its collection and the
provider's result. -/
structure CollectCall where
  input : CollectInput
  x : Exchange
  id : ℕ
  result : ForecastResult
  phase : CallPhase

namespace CollectCall

/-- The issuance of the call. -/
def issuedAt (c : CollectCall) : ℤ := issuance c.x.now

/-- The key of the call in the deduplication index. -/
def key (c : CollectCall) : ℕ × ℕ × ℤ :=
  (c.input.providerID, c.input.locationID, c.result.modelRunTime.getD c.issuedAt)

/-- The response is usable. -/
def usable (c : CollectCall) : Bool := c.result.outcome.usable

/-- The transaction of the call has inserted a snapshot with the key. -/
def holdsSnapshot (c : CollectCall) (k : Option (ℕ × ℕ × ℤ × ℤ)) : Bool :=
  match c.phase with
  | .storing _ _ _ inserted => inserted.any fun r => r.dedupKey = k
  | .completed _ inserted => inserted.any fun r => r.dedupKey = k
  | _ => false

/-- The key that the transaction of the call has entered in the index. -/
def entered (c : CollectCall) : Option (ℕ × ℕ × ℤ) :=
  match c.phase with
  | .completed row _ => row.index
  | _ => none

/-- The snapshots that the call stores. -/
def rows (c : CollectCall) (firstID : ℕ) : List SnapshotRow :=
  if c.usable then snapshotRows firstID c.id c.input.providerID c.input.locationID c.result.snapshots else []

/-- The row of the call once it is completed. -/
def row (c : CollectCall) (payloadOK : Bool) (objectKey : Option PayloadKey) (inserted : List SnapshotRow) :
    ForecastCollection :=
  completedRow c.input c.x c.id c.issuedAt c.result payloadOK objectKey inserted.length

/-- The call has not returned. -/
def running (c : CollectCall) : Bool :=
  match c.phase with
  | .returned _ => false
  | .failed => false
  | _ => true

end CollectCall

/-! ### Statements -/

/-- The committed tables and the calls so far. -/
structure CollectState where
  store : Store
  calls : List CollectCall

/-- No table has a row, and nothing was called. -/
def CollectState.empty : CollectState := ⟨.empty, []⟩

/-- One statement of a call, or its end. -/
inductive CollectAct where
  /-- The provider answers a call. -/
  | fetch (input : CollectInput) (x : Exchange) (result : ForecastResult)
  /-- `FindDedup`, for a usable response. -/
  | lookup (i : ℕ)
  /-- The payload is written, and the transaction inserts the pending row. -/
  | beginTx (i : ℕ)
  /-- The next row of `InsertBatch`. -/
  | insert (i : ℕ)
  /-- `Complete`. -/
  | complete (i : ℕ)
  | commit (i : ℕ)
  /-- `storeDeduplicated`. -/
  | record (i : ℕ)
  /-- A failure, and the rollback of the transaction. -/
  | fail (i : ℕ)

/-- The call takes a step, and the tables may change. -/
def CollectState.move (s : CollectState) (i : ℕ) (c : CollectCall) (phase : CallPhase) (store : Store) :
    CollectState :=
  ⟨store, s.calls.set i { c with phase := phase }⟩

/-- One act; `none` when the call cannot take it now. -/
def CollectState.step (s : CollectState) : CollectAct → Option CollectState
  | .fetch input x result =>
    some ⟨{ s.store with nextID := s.store.nextID + 1 }, s.calls ++ [⟨input, x, s.store.nextID, result, .fetched⟩]⟩
  | .lookup i => do
    let c ← s.calls[i]?
    match c.phase with
    | .fetched =>
      if c.usable && (s.store.findDedup c.key.1 c.key.2.1 c.key.2.2).isSome then some (s.move i c .lost s.store)
      else some (s.move i c .missed s.store)
    | _ => none
  | .beginTx i => do
    let c ← s.calls[i]?
    match c.phase with
    | .missed =>
      let key : PayloadKey := ⟨c.input.providerSlug, c.x.now, c.id⟩
      let payloadOK := c.result.rawPayload.isEmpty || c.x.payloadOK
      let written := payloadOK && !c.result.rawPayload.isEmpty
      let payloads := if written then s.store.payloads ++ [(key, c.result.rawPayload)] else s.store.payloads
      let rows := c.rows s.store.nextID
      some (s.move i c (.storing payloadOK (if written then some key else none) rows [])
        { s.store with payloads := payloads, nextID := s.store.nextID + rows.length })
    | _ => none
  | .insert i => do
    let c ← s.calls[i]?
    match c.phase with
    | .storing payloadOK objectKey (r :: left) inserted =>
      if existsOther s.calls i fun d => d.holdsSnapshot r.dedupKey then none
      else
        let inserted :=
          if conflicts SnapshotRow.dedupKey (s.store.snapshots ++ inserted) r then inserted else inserted ++ [r]
        some (s.move i c (.storing payloadOK objectKey left inserted) s.store)
    | _ => none
  | .complete i => do
    let c ← s.calls[i]?
    match c.phase with
    | .storing payloadOK objectKey [] inserted =>
      if c.usable && existsOther s.calls i (fun d => d.entered = some c.key) then none
      else if c.usable && (s.store.findDedup c.key.1 c.key.2.1 c.key.2.2).isSome then some (s.move i c .lost s.store)
      else some (s.move i c (.completed (c.row payloadOK objectKey inserted) inserted) s.store)
    | _ => none
  | .commit i => do
    let c ← s.calls[i]?
    match c.phase with
    | .completed row inserted =>
      some (s.move i c (.returned row)
        { s.store with collections := s.store.collections ++ [row], snapshots := s.store.snapshots ++ inserted })
    | _ => none
  | .record i => do
    let c ← s.calls[i]?
    match c.phase with
    | .lost =>
      let (row, store) := storeDeduplicated c.input c.x c.id c.issuedAt c.result s.store
      some (s.move i c (.returned row) store)
    | _ => none
  | .fail i => do
    let c ← s.calls[i]?
    if c.running then some (s.move i c .failed s.store) else none

/-- The states that any interleaving reaches. -/
inductive CollectState.Reachable : CollectState → Prop where
  | init : Reachable .empty
  | step {s s' : CollectState} {a : CollectAct} : Reachable s → s.step a = some s' → Reachable s'

/-- The acts one after another. -/
def CollectState.run (s : CollectState) (acts : List CollectAct) : Option CollectState := acts.foldlM step s

theorem CollectState.Reachable.run {s s' : CollectState} (h : s.Reachable) {acts : List CollectAct}
    (hrun : s.run acts = some s') : s'.Reachable :=
  foldlM_invariant (fun _ _ _ => .step) h hrun

/-! ### What an act does -/

/-- Everything a call can do to itself and the tables, with its guards. -/
inductive CollectState.Moves (s : CollectState) (i : ℕ) (c : CollectCall) : CallPhase → Store → Prop where
  | missed : Moves s i c .missed s.store
  | began (payloadOK : Bool) (objectKey : Option PayloadKey) (payloads : List (PayloadKey × List UInt8)) :
      c.phase = .missed →
      Moves s i c (.storing payloadOK objectKey (c.rows s.store.nextID) [])
        { s.store with payloads := payloads, nextID := s.store.nextID + (c.rows s.store.nextID).length }
  | inserted {payloadOK : Bool} {objectKey : Option PayloadKey} {r : SnapshotRow} {left inserted : List SnapshotRow} :
      c.phase = .storing payloadOK objectKey (r :: left) inserted →
      Moves s i c (.storing payloadOK objectKey left
        (if conflicts SnapshotRow.dedupKey (s.store.snapshots ++ inserted) r then inserted else inserted ++ [r]))
      s.store
  | completed {payloadOK : Bool} {objectKey : Option PayloadKey} {inserted : List SnapshotRow} :
      c.phase = .storing payloadOK objectKey [] inserted →
      (c.usable = true → existsOther s.calls i (fun d => d.entered = some c.key) = false ∧
        ¬ s.store.HasDedup c.key.1 c.key.2.1 c.key.2.2) →
      Moves s i c (.completed (c.row payloadOK objectKey inserted) inserted) s.store
  /-- At the lookup or at the completion, a committed row has the key. -/
  | lost : c.running = true → c.usable = true → s.store.HasDedup c.key.1 c.key.2.1 c.key.2.2 →
      Moves s i c .lost s.store
  | committed {row : ForecastCollection} {inserted : List SnapshotRow} : c.phase = .completed row inserted →
      Moves s i c (.returned row)
        { s.store with collections := s.store.collections ++ [row], snapshots := s.store.snapshots ++ inserted }
  | recorded : c.phase = .lost →
      Moves s i c (.returned (storeDeduplicated c.input c.x c.id c.issuedAt c.result s.store).1)
        (storeDeduplicated c.input c.x c.id c.issuedAt c.result s.store).2
  | failed : Moves s i c .failed s.store

/-- An act is an answer of the provider, or a move of a running call. -/
theorem CollectState.step_cases {s s' : CollectState} {a : CollectAct} (h : s.step a = some s') :
    (∃ input x result, s' = ⟨{ s.store with nextID := s.store.nextID + 1 },
      s.calls ++ [⟨input, x, s.store.nextID, result, .fetched⟩]⟩) ∨
    ∃ i c phase store, s.calls[i]? = some c ∧ c.running = true ∧ s.Moves i c phase store ∧
      s' = s.move i c phase store := by
  cases a with
  | fetch input x result =>
    cases h
    exact .inl ⟨input, x, result, rfl⟩
  | lookup i =>
    obtain ⟨c, hc, h⟩ := Option.bind_eq_some_iff.mp h
    split at h
    · rename_i hp
      have hrun : c.running = true := by rw [CollectCall.running, hp]
      split_ifs at h with hfound
      · cases h
        obtain ⟨hu, hd⟩ := Bool.and_eq_true_iff.mp hfound
        exact .inr ⟨i, c, _, _, hc, hrun, .lost hrun hu ((Store.findDedup_isSome_iff ..).mp hd), rfl⟩
      · cases h
        exact .inr ⟨i, c, _, _, hc, hrun, .missed, rfl⟩
    · cases h
  | beginTx i =>
    obtain ⟨c, hc, h⟩ := Option.bind_eq_some_iff.mp h
    split at h
    · rename_i hp
      cases h
      exact .inr ⟨i, c, _, _, hc, by rw [CollectCall.running, hp], .began _ _ _ hp, rfl⟩
    · cases h
  | insert i =>
    obtain ⟨c, hc, h⟩ := Option.bind_eq_some_iff.mp h
    split at h
    · rename_i hp
      split at h
      · cases h
      · cases h
        exact .inr ⟨i, c, _, _, hc, by rw [CollectCall.running, hp], .inserted hp, rfl⟩
    · cases h
  | complete i =>
    obtain ⟨c, hc, h⟩ := Option.bind_eq_some_iff.mp h
    split at h
    · rename_i hp
      have hrun : c.running = true := by rw [CollectCall.running, hp]
      split_ifs at h with hwait hfound
      · cases h
        obtain ⟨hu, hd⟩ := Bool.and_eq_true_iff.mp hfound
        exact .inr ⟨i, c, _, _, hc, hrun, .lost hrun hu ((Store.findDedup_isSome_iff ..).mp hd), rfl⟩
      · cases h
        refine .inr ⟨i, c, _, _, hc, hrun, .completed hp fun hu => ?_, rfl⟩
        rw [hu, Bool.true_and] at hwait hfound
        exact ⟨Bool.eq_false_iff.mpr hwait, fun hd => hfound ((Store.findDedup_isSome_iff ..).mpr hd)⟩
    · cases h
  | commit i =>
    obtain ⟨c, hc, h⟩ := Option.bind_eq_some_iff.mp h
    split at h
    · rename_i hp
      cases h
      exact .inr ⟨i, c, _, _, hc, by rw [CollectCall.running, hp], .committed hp, rfl⟩
    · cases h
  | record i =>
    obtain ⟨c, hc, h⟩ := Option.bind_eq_some_iff.mp h
    split at h
    · rename_i hp
      cases h
      exact .inr ⟨i, c, _, _, hc, by rw [CollectCall.running, hp], .recorded hp, rfl⟩
    · cases h
  | fail i =>
    obtain ⟨c, hc, h⟩ := Option.bind_eq_some_iff.mp h
    split_ifs at h with hrun
    cases h
    exact .inr ⟨i, c, _, _, hc, hrun, .failed, rfl⟩

/-! ### The invariant -/

theorem completedRow_status (input : CollectInput) (x : Exchange) (collectionID : ℕ) (issuedAt : ℤ)
    (result : ForecastResult) (payloadOK : Bool) (objectKey : Option PayloadKey) (stored : ℕ) :
    (completedRow input x collectionID issuedAt result payloadOK objectKey stored).status = result.outcome.status :=
  classify_status result payloadOK

/-- A completed row is in the index when the response is usable. -/
theorem CollectCall.index_row (c : CollectCall) (payloadOK : Bool) (objectKey : Option PayloadKey)
    (inserted : List SnapshotRow) :
    (c.row payloadOK objectKey inserted).index = if c.usable then some c.key else none := by
  unfold ForecastCollection.index CollectCall.row
  rw [completedRow_status, Outcome.status_successful]
  rfl

/-- The keys of the index are those of the usable rows. -/
theorem Store.hasDedup_iff_mem_keys {s : Store} {p l : ℕ} {k : ℤ} :
    s.HasDedup p l k ↔ (p, l, k) ∈ keys ForecastCollection.index s.collections := by
  simp only [Store.HasDedup, keys, List.mem_filterMap, ForecastCollection.index, Option.ite_none_right_eq_some,
    Option.some.injEq, Prod.mk.injEq]
  refine exists_congr fun c => and_congr_right fun _ => ?_
  tauto

theorem Store.HasDedup.mono {s s' : Store} {p l : ℕ} {k : ℤ} (h : s.HasDedup p l k)
    (hsub : s.collections ⊆ s'.collections) : s'.HasDedup p l k := by
  obtain ⟨c, hc, hrest⟩ := h
  exact ⟨c, hsub hc, hrest⟩

/-- What holds of a call over the committed tables. -/
def CollectCall.OK (store : Store) (c : CollectCall) : Prop :=
  match c.phase with
  | .storing _ _ left inserted =>
    (∀ r ∈ left ++ inserted, r.forecastCollectionID = c.id) ∧ (c.usable = false → left = [] ∧ inserted = [])
  | .completed row inserted =>
    row.id = c.id ∧ row.status = c.result.outcome.status ∧ row.index = (if c.usable then some c.key else none) ∧
      (∀ r ∈ inserted, r.forecastCollectionID = c.id) ∧ (c.usable = false → inserted = [])
  | .lost => c.usable = true ∧ store.HasDedup c.key.1 c.key.2.1 c.key.2.2
  | .returned row =>
    row ∈ store.collections ∧ row.id = c.id ∧ (row.status = c.result.outcome.status ∨
      c.usable = true ∧ row.status = .deduplicated ∧ store.HasDedup c.key.1 c.key.2.1 c.key.2.2)
  | _ => True

theorem CollectCall.OK.mono {store store' : Store} {c : CollectCall} (h : c.OK store)
    (hsub : store.collections ⊆ store'.collections) : c.OK store' := by
  unfold CollectCall.OK at h ⊢
  split at h
  · exact h
  · exact h
  · exact ⟨h.1, h.2.mono hsub⟩
  · obtain ⟨hrow, hid, hstatus⟩ := h
    exact ⟨hsub hrow, hid, hstatus.imp_right fun hd => ⟨hd.1, hd.2.1, hd.2.2.mono hsub⟩⟩
  · exact trivial

/-- Two calls have different identifiers, and have not both entered a key. -/
def CollectCall.Distinct (a b : CollectCall) : Prop := a.id ≠ b.id ∧ ∀ k, ¬ (a.entered = some k ∧ b.entered = some k)

theorem CollectCall.Distinct.symm (a b : CollectCall) (h : a.Distinct b) : b.Distinct a :=
  ⟨h.1.symm, fun k hk => h.2 k hk.symm⟩

/-- What holds in every reached state. -/
structure CollectState.Inv (s : CollectState) : Prop where
  id_lt : ∀ c ∈ s.calls, c.id < s.store.nextID
  distinct : ForAllPairs CollectCall.Distinct s.calls
  ok : ∀ c ∈ s.calls, c.OK s.store
  index : (keys ForecastCollection.index s.store.collections).Nodup
  /-- A key that a running transaction has entered is not that of a committed row. -/
  entered : ∀ c ∈ s.calls, ∀ k, c.entered = some k → k ∉ keys ForecastCollection.index s.store.collections
  ids : (s.store.collections.map ForecastCollection.id).Nodup
  /-- A committed row is that of a call that has returned it. -/
  collections : ∀ r ∈ s.store.collections, ∃ c ∈ s.calls, c.phase = .returned r ∧ r.id = c.id
  /-- A committed snapshot is of a call that has returned a usable row. -/
  snapshots : ∀ r ∈ s.store.snapshots, ∃ c ∈ s.calls, ∃ row, c.phase = .returned row ∧ row.status.successful = true ∧
    c.id = r.forecastCollectionID

theorem CollectState.Inv.empty : CollectState.empty.Inv where
  id_lt := by simp [CollectState.empty]
  distinct := .nil
  ok := by simp [CollectState.empty]
  index := by simp [CollectState.empty, Store.empty, keys]
  entered := by simp [CollectState.empty]
  ids := by simp [CollectState.empty, Store.empty]
  collections := by simp [CollectState.empty, Store.empty]
  snapshots := by simp [CollectState.empty, Store.empty]

section Preserved

variable {s : CollectState}

/-- A new call. -/
theorem CollectState.Inv.fetch (h : s.Inv) (input : CollectInput) (x : Exchange) (result : ForecastResult) :
    CollectState.Inv ⟨{ s.store with nextID := s.store.nextID + 1 },
      s.calls ++ [⟨input, x, s.store.nextID, result, .fetched⟩]⟩ := by
  set d : CollectCall := ⟨input, x, s.store.nextID, result, .fetched⟩ with hd
  have hmem : ∀ {c}, c ∈ s.calls → c ∈ s.calls ++ [d] := fun hc => List.mem_append_left _ hc
  have hforall : ∀ {p : CollectCall → Prop}, (∀ c ∈ s.calls, p c) → p d → ∀ c ∈ s.calls ++ [d], p c := by
    intro p hp hpd c hc
    rcases List.mem_append.mp hc with hc | hc
    · exact hp c hc
    · rw [List.mem_singleton.mp hc]
      exact hpd
  refine ⟨hforall (fun c hc => Nat.lt_succ_of_lt (h.id_lt c hc)) (Nat.lt_succ_self _), h.distinct.concat .symm ?_,
    hforall (fun c hc => (h.ok c hc).mono (List.Subset.refl _)) trivial, h.index,
    hforall h.entered (fun k hk => by cases hk), h.ids, fun r hr => ?_, fun r hr => ?_⟩
  · intro c hc
    refine ⟨(Nat.ne_of_lt (h.id_lt c hc)).symm, fun k hk => ?_⟩
    cases hk.1
  · obtain ⟨c, hc, hrest⟩ := h.collections r hr
    exact ⟨c, hmem hc, hrest⟩
  · obtain ⟨c, hc, hrest⟩ := h.snapshots r hr
    exact ⟨c, hmem hc, hrest⟩

variable {i : ℕ} {c : CollectCall}

/-- A call that has returned is not the running one, and stays. -/
theorem CollectState.mem_set_of_returned (hc : s.calls[i]? = some c) (hrun : c.running = true) {d : CollectCall}
    (hd : d ∈ s.calls) {row : ForecastCollection} (hphase : d.phase = .returned row) (c' : CollectCall) :
    d ∈ s.calls.set i c' := by
  refine mem_set_of_ne hd hc ?_
  rintro rfl
  rw [CollectCall.running, hphase] at hrun
  cases hrun

/-- A move within the call: the rows stay as they are. -/
theorem CollectState.Inv.move (h : s.Inv) (hc : s.calls[i]? = some c) (hrun : c.running = true) {phase : CallPhase}
    {store : Store} (hcoll : store.collections = s.store.collections) (hsnap : store.snapshots = s.store.snapshots)
    (hnext : s.store.nextID ≤ store.nextID) (hok : ({ c with phase := phase } : CollectCall).OK store)
    (hentered : ∀ k, ({ c with phase := phase } : CollectCall).entered = some k →
      k ∉ keys ForecastCollection.index s.store.collections ∧
        ∀ j d, j ≠ i → s.calls[j]? = some d → d.entered ≠ some k) : (s.move i c phase store).Inv := by
  have hmem := List.mem_of_getElem? hc
  refine ⟨forall_mem_set (fun d hd => (h.id_lt d hd).trans_le hnext) ((h.id_lt c hmem).trans_le hnext), ?_,
    forall_mem_set (fun d hd => (h.ok d hd).mono (hcoll ▸ List.Subset.refl _)) hok, hcoll ▸ h.index, ?_, hcoll ▸ h.ids,
    fun r hr => ?_, fun r hr => ?_⟩
  · refine h.distinct.set .symm fun j d hj hd => ⟨(h.distinct i j c d hj.symm hc hd).1, fun k hk => ?_⟩
    exact (hentered k hk.1).2 j d hj hd hk.2
  · refine forall_mem_set (fun d hd k hk => ?_) fun k hk => ?_
    · exact hcoll ▸ h.entered d hd k hk
    · exact hcoll ▸ (hentered k hk).1
  · obtain ⟨d, hd, hphase, hid⟩ := h.collections r (hcoll ▸ hr)
    exact ⟨d, mem_set_of_returned hc hrun hd hphase _, hphase, hid⟩
  · obtain ⟨d, hd, row, hphase, hrest⟩ := h.snapshots r (hsnap ▸ hr)
    exact ⟨d, mem_set_of_returned hc hrun hd hphase _, row, hphase, hrest⟩

/-- A row with the identifier of a call is that of the call, once it has returned. -/
theorem CollectState.Inv.id_fresh (h : s.Inv) (hc : s.calls[i]? = some c) (hrun : c.running = true) :
    c.id ∉ s.store.collections.map ForecastCollection.id := by
  intro hin
  obtain ⟨r, hr, hrid⟩ := List.mem_map.mp hin
  obtain ⟨d, hd, hphase, hdid⟩ := h.collections r hr
  obtain ⟨j, hj⟩ := List.mem_iff_getElem?.mp hd
  by_cases hij : i = j
  · subst hij
    rw [hc, Option.some.injEq] at hj
    rw [CollectCall.running, hj, hphase] at hrun
    cases hrun
  · exact (h.distinct i j c d hij hc hj).1 (hrid.symm.trans hdid)

/-- The end of a call that appends its row, and the snapshots of a usable one. -/
theorem CollectState.Inv.returned (h : s.Inv) (hc : s.calls[i]? = some c) (hrun : c.running = true)
    {row : ForecastCollection} {inserted : List SnapshotRow} {store : Store}
    (hcoll : store.collections = s.store.collections ++ [row])
    (hsnap : store.snapshots = s.store.snapshots ++ inserted) (hnext : store.nextID = s.store.nextID)
    (hid : row.id = c.id) (hstatus : row.status = c.result.outcome.status ∨
      c.usable = true ∧ row.status = .deduplicated ∧ s.store.HasDedup c.key.1 c.key.2.1 c.key.2.2)
    (hindex : ∀ k, row.index = some k → k ∉ keys ForecastCollection.index s.store.collections ∧
      ∀ j d, j ≠ i → s.calls[j]? = some d → d.entered ≠ some k)
    (hinserted : ∀ r ∈ inserted, r.forecastCollectionID = c.id ∧ row.status.successful = true) :
    (s.move i c (.returned row) store).Inv := by
  have hmem := List.mem_of_getElem? hc
  have hsub : s.store.collections ⊆ store.collections := by
    rw [hcoll]
    exact List.subset_append_left _ _
  have hnew : ({ c with phase := .returned row } : CollectCall) ∈ (s.move i c (.returned row) store).calls :=
    List.mem_set (List.getElem?_eq_some_iff.mp hc).1 _
  refine ⟨?_, ?_, forall_mem_set (fun d hd => (h.ok d hd).mono hsub) ?_, ?_, ?_, ?_, fun r hr => ?_, fun r hr => ?_⟩
  · rw [show (s.move i c (.returned row) store).store.nextID = s.store.nextID from hnext]
    exact forall_mem_set h.id_lt (h.id_lt c hmem)
  · refine h.distinct.set .symm fun j d hj hd => ⟨(h.distinct i j c d hj.symm hc hd).1, fun k hk => ?_⟩
    cases hk.1
  · refine ⟨?_, hid, hstatus.imp_right fun hd => ⟨hd.1, hd.2.1, hd.2.2.mono hsub⟩⟩
    rw [hcoll]
    exact List.mem_append_right _ (List.mem_singleton.mpr rfl)
  · show (keys ForecastCollection.index store.collections).Nodup
    rw [hcoll]
    exact nodup_keys_concat h.index fun k hk => (hindex k hk).1
  · intro d hd k hk
    show k ∉ keys ForecastCollection.index store.collections
    obtain ⟨j, hj⟩ := List.mem_iff_getElem?.mp hd
    rcases getElem?_set_cases hj with ⟨-, rfl⟩ | ⟨hij, hj⟩
    · cases hk
    · rw [hcoll, keys_concat, List.mem_append, not_or, Option.mem_toList]
      exact ⟨h.entered d (List.mem_of_getElem? hj) k hk, fun hrow => (hindex k hrow).2 j d hij hj hk⟩
  · show (store.collections.map ForecastCollection.id).Nodup
    rw [hcoll, List.map_append, List.map_singleton, ← List.concat_eq_append]
    exact h.ids.concat (hid ▸ h.id_fresh hc hrun)
  · rw [show (s.move i c (.returned row) store).store.collections = _ from hcoll, List.mem_append,
      List.mem_singleton] at hr
    rcases hr with hr | rfl
    · obtain ⟨d, hd, hphase, hdid⟩ := h.collections r hr
      exact ⟨d, mem_set_of_returned hc hrun hd hphase _, hphase, hdid⟩
    · exact ⟨_, hnew, rfl, hid⟩
  · rw [show (s.move i c (.returned row) store).store.snapshots = _ from hsnap, List.mem_append] at hr
    rcases hr with hr | hr
    · obtain ⟨d, hd, row', hphase, hrest⟩ := h.snapshots r hr
      exact ⟨d, mem_set_of_returned hc hrun hd hphase _, row', hphase, hrest⟩
    · exact ⟨_, hnew, row, rfl, (hinserted r hr).2, (hinserted r hr).1.symm⟩

/-- A move keeps the invariant. -/
theorem CollectState.Inv.moves (h : s.Inv) (hc : s.calls[i]? = some c) (hrun : c.running = true) {phase : CallPhase}
    {store : Store} (hmove : s.Moves i c phase store) : (s.move i c phase store).Inv := by
  have hok := h.ok c (List.mem_of_getElem? hc)
  unfold CollectCall.OK at hok
  cases hmove with
  | missed => exact h.move hc hrun rfl rfl (Nat.le_refl _) trivial (fun k hk => by cases hk)
  | failed => exact h.move hc hrun rfl rfl (Nat.le_refl _) trivial (fun k hk => by cases hk)
  | lost _ hu hd => exact h.move hc hrun rfl rfl (Nat.le_refl _) ⟨hu, hd⟩ (fun k hk => by cases hk)
  | began payloadOK objectKey payloads hp =>
    refine h.move hc hrun rfl rfl (Nat.le_add_right _ _) ⟨fun r hr => ?_, fun hu => ?_⟩ (fun k hk => by cases hk)
    · rw [List.append_nil, CollectCall.rows] at hr
      split_ifs at hr
      · obtain ⟨p, -, rfl⟩ := List.mem_map.mp hr
        rfl
      · cases hr
    · have hu : c.usable = false := hu
      exact ⟨by rw [CollectCall.rows, hu]; rfl, rfl⟩
  | @inserted payloadOK objectKey r left inserted hp =>
    rw [hp] at hok
    obtain ⟨hrows, hunusable⟩ := hok
    refine h.move hc hrun rfl rfl (Nat.le_refl _) ⟨fun r' hr' => hrows r' ?_, fun hu => ?_⟩ (fun k hk => by cases hk)
    · rcases List.mem_append.mp hr' with hr' | hr'
      · simp [hr']
      · split_ifs at hr'
        · simp [hr']
        · rcases List.mem_append.mp hr' with hr' | hr'
          · simp [hr']
          · simp [List.mem_singleton.mp hr']
    · cases (hunusable hu).1
  | @completed payloadOK objectKey inserted hp hfree =>
    rw [hp] at hok
    obtain ⟨hrows, hunusable⟩ := hok
    refine h.move hc hrun rfl rfl (Nat.le_refl _) ⟨rfl, completedRow_status .., c.index_row .., fun r hr => ?_,
      fun hu => (hunusable hu).2⟩ fun k hk => ?_
    · exact hrows r (by simpa using hr)
    · have hk : (c.row payloadOK objectKey inserted).index = some k := hk
      rw [c.index_row, Option.ite_none_right_eq_some, Option.some.injEq] at hk
      obtain ⟨hu, rfl⟩ := hk
      obtain ⟨hother, hnone⟩ := hfree hu
      refine ⟨fun hmem => hnone (Store.hasDedup_iff_mem_keys.mpr hmem), fun j d hj hd heq => ?_⟩
      have hfalse := existsOther_eq_false_iff.mp hother j d hj hd
      rw [heq] at hfalse
      simp at hfalse
  | @committed row inserted hp =>
    rw [hp] at hok
    obtain ⟨hid, hstatus, hindex, hrows, hunusable⟩ := hok
    have hentered : c.entered = row.index := by rw [CollectCall.entered, hp]
    refine h.returned hc hrun rfl rfl rfl hid (.inl hstatus) (fun k hk => ?_) fun r hr => ⟨hrows r hr, ?_⟩
    · rw [← hentered] at hk
      refine ⟨h.entered c (List.mem_of_getElem? hc) k hk, fun j d hj hd hdk => ?_⟩
      exact (h.distinct i j c d hj.symm hc hd).2 k ⟨hk, hdk⟩
    · rw [hstatus, Outcome.status_successful]
      by_contra hu
      rw [hunusable (Bool.eq_false_iff.mpr hu)] at hr
      cases hr
  | recorded hp =>
    rw [hp] at hok
    exact h.returned hc hrun rfl (List.append_nil _).symm rfl rfl (.inr ⟨hok.1, rfl, hok.2⟩) (fun k hk => by cases hk)
      (fun r hr => by cases hr)

end Preserved

theorem CollectState.Reachable.inv {s : CollectState} (h : s.Reachable) : s.Inv := by
  induction h with
  | init => exact .empty
  | step _ hstep ih =>
    rcases CollectState.step_cases hstep with ⟨input, x, result, rfl⟩ | ⟨i, c, phase, store, hc, hrun, hmove, rfl⟩
    · exact ih.fetch input x result
    · exact ih.moves hc hrun hmove

/-! ### The race -/

section Race

variable {s : CollectState} {i : ℕ} {c : CollectCall}

/-- Calls with one identifier are one call. -/
theorem CollectState.Inv.eq_of_id (h : s.Inv) (hc : s.calls[i]? = some c) {d : CollectCall} (hd : d ∈ s.calls)
    (hid : d.id = c.id) : d = c := by
  obtain ⟨j, hj⟩ := List.mem_iff_getElem?.mp hd
  by_cases hij : i = j
  · subst hij
    exact Option.some.inj (hj.symm.trans hc)
  · exact absurd hid.symm (h.distinct i j c d hij hc hj).1

/-- A committed row with the identifier of a call is the one that the call has returned. -/
theorem CollectState.Inv.phase_of_row (h : s.Inv) (hc : s.calls[i]? = some c) {r : ForecastCollection}
    (hr : r ∈ s.store.collections) (hid : r.id = c.id) : c.phase = .returned r := by
  obtain ⟨d, hd, hphase, hrd⟩ := h.collections r hr
  rwa [← h.eq_of_id hc hd (hrd.symm.trans hid)]

/-- A committed snapshot of a call is of one that has returned a usable row. -/
theorem CollectState.Inv.phase_of_snapshot (h : s.Inv) (hc : s.calls[i]? = some c) {r : SnapshotRow}
    (hr : r ∈ s.store.snapshots) (hid : r.forecastCollectionID = c.id) :
    ∃ row, c.phase = .returned row ∧ row.status.successful = true := by
  obtain ⟨d, hd, row, hphase, hrow, hrd⟩ := h.snapshots r hr
  rw [← h.eq_of_id hc hd (hrd.trans hid)]
  exact ⟨row, hphase, hrow⟩

/-- The call has met a committed row with its key: it is about to record its attempt, or has recorded it. -/
def CollectCall.hasLost (c : CollectCall) : Bool :=
  match c.phase with
  | .lost => true
  | .returned row => row.status = .deduplicated
  | _ => false

/-- A call that has lost waits for nothing to record its attempt. -/
theorem CollectState.exists_record (hc : s.calls[i]? = some c) (hp : c.phase = .lost) :
    ∃ s', s.step (.record i) = some s' ∧
      ∃ row ∈ s'.store.collections, row.id = c.id ∧ row.status = .deduplicated := by
  refine ⟨s.move i c (.returned (storeDeduplicated c.input c.x c.id c.issuedAt c.result s.store).1)
    (storeDeduplicated c.input c.x c.id c.issuedAt c.result s.store).2, ?_,
    (storeDeduplicated c.input c.x c.id c.issuedAt c.result s.store).1,
    List.mem_append_right _ (List.mem_singleton.mpr rfl), rfl, rfl⟩
  simp only [CollectState.step, hc, Option.bind_eq_bind, Option.bind_some, hp]

end Race

/-- **One collection of a key, whatever the interleaving.** At most one usable collection of a provider and location has
a key. A usable response whose call has returned is that collection or has lost; and a call that
has lost has met a usable collection with its key, leaves no snapshot and no row but a deduplicated
one, and has this row or can record it without waiting. -/
theorem collect_race {s : CollectState} (h : s.Reachable) :
    (∀ r ∈ s.store.collections, ∀ r' ∈ s.store.collections, r.status.successful = true →
      r'.status.successful = true → r.providerID = r'.providerID → r.locationID = r'.locationID →
      r.dedupKey = r'.dedupKey → r = r') ∧
    (∀ c ∈ s.calls, ∀ row, c.phase = .returned row → c.usable = true →
      row.status.successful = true ∨ c.hasLost = true) ∧
    ∀ i c, s.calls[i]? = some c → c.hasLost = true →
      s.store.HasDedup c.key.1 c.key.2.1 c.key.2.2 ∧
      (∀ r ∈ s.store.snapshots, r.forecastCollectionID ≠ c.id) ∧
      (∀ r ∈ s.store.collections, r.id = c.id → r.status = .deduplicated) ∧
      ((∃ r ∈ s.store.collections, r.id = c.id) ∨ ∃ s', s.step (.record i) = some s' ∧
        ∃ row ∈ s'.store.collections, row.id = c.id ∧ row.status = .deduplicated) := by
  have hinv := h.inv
  refine ⟨fun r hr r' hr' hs hs' hp hl hk => ?_, fun c hc row hphase hu => ?_, fun i c hc hlost => ?_⟩
  · refine eq_of_nodup_keys hinv.index hr hr' (k := (r.providerID, r.locationID, r.dedupKey)) ?_ ?_
    · rw [ForecastCollection.index, if_pos hs]
    · rw [ForecastCollection.index, if_pos hs', hp, hl, hk]
  · have hok := hinv.ok c hc
    rw [CollectCall.OK, hphase] at hok
    obtain ⟨-, -, hstatus | ⟨-, hstatus, -⟩⟩ := hok
    · rw [hstatus, Outcome.status_successful]
      exact .inl hu
    · rw [CollectCall.hasLost, hphase]
      exact .inr (decide_eq_true hstatus)
  · have hok := hinv.ok c (List.mem_of_getElem? hc)
    rw [CollectCall.OK] at hok
    rw [CollectCall.hasLost] at hlost
    split at hlost
    · rename_i hp
      rw [hp] at hok
      refine ⟨hok.2, fun r hr hid => ?_, fun r hr hid => ?_, .inr (CollectState.exists_record hc hp)⟩
      · obtain ⟨row, hphase, -⟩ := hinv.phase_of_snapshot hc hr hid
        rw [hp] at hphase
        cases hphase
      · cases hp.symm.trans (hinv.phase_of_row hc hr hid)
    · rename_i row hp
      have hdedup : row.status = .deduplicated := of_decide_eq_true hlost
      rw [hp] at hok
      obtain ⟨hrow, hid, hstatus⟩ := hok
      have hhas : s.store.HasDedup c.key.1 c.key.2.1 c.key.2.2 := by
        rcases hstatus with hstatus | ⟨-, -, hhas⟩
        · exact absurd (hstatus.symm.trans hdedup) (Outcome.status_ne_deduplicated _)
        · exact hhas
      refine ⟨hhas, fun r hr hrid => ?_, fun r hr hrid => ?_, .inl ⟨row, hrow, hid⟩⟩
      · obtain ⟨row', hphase, hsucc⟩ := hinv.phase_of_snapshot hc hr hrid
        obtain rfl : row = row' := CallPhase.returned.inj (hp.symm.trans hphase)
        rw [hdedup] at hsucc
        cases hsucc
      · obtain rfl : row = r := CallPhase.returned.inj (hp.symm.trans (hinv.phase_of_row hc hr hrid))
        exact hdedup
    · cases hlost

/-- Two calls of one hour that both find nothing; the second meets the row of the first when it completes. -/
def twoCalls : List CollectAct :=
  let (input, x) := runAtZero 1 oneHour
  [.fetch input x (oneHour (issuance 0)), .fetch input x (oneHour (issuance 0)), .lookup 0, .lookup 1,
    .beginTx 0, .insert 0, .complete 0, .commit 0, .beginTx 1, .insert 1, .complete 1, .record 1]

/-- The first call stores the hour, and the second is recorded. -/
theorem collect_race_two : ∃ s : CollectState, s.Reachable ∧
    (s.store.collections.map fun r => (r.id, r.status)) = [(0, .success), (1, .deduplicated)] ∧
    (s.store.snapshots.map fun r => r.forecastCollectionID) = [0] ∧
    ∀ r ∈ s.store.snapshots, ∀ c, s.calls[1]? = some c → r.forecastCollectionID ≠ c.id := by
  have hrun : (CollectState.empty.run twoCalls).map (fun s => (s.store.collections.map fun r => (r.id, r.status),
      s.store.snapshots.map fun r => r.forecastCollectionID, s.calls.map CollectCall.hasLost)) =
      some ([(0, .success), (1, .deduplicated)], [0], [false, true]) := by decide +kernel
  obtain ⟨s, hs, hrows⟩ := Option.map_eq_some_iff.mp hrun
  simp only [Prod.mk.injEq] at hrows
  obtain ⟨hcoll, hsnap, hlost⟩ := hrows
  have hreach : s.Reachable := CollectState.Reachable.init.run hs
  refine ⟨s, hreach, hcoll, hsnap, fun r hr c hc => ?_⟩
  have hc' := congrArg (fun l => l[1]?) hlost
  simp only [List.getElem?_map, hc, Option.map_some] at hc'
  exact ((collect_race hreach).2.2 1 c hc (Option.some.inj hc')).2.1 r hr

end ForecastIQ.Collection
