import ForecastIQ.Catalog.Circuit
import ForecastIQ.Collection.Decompose
import ForecastIQ.Foundations.Table

/-!
# Collecting a forecast

`internal/collection/collect.go` on the tables it writes: the circuit check, the
issuance, the deduplication lookup, the payload write and the transaction that stores
the collection with its snapshots. `collect` runs with nothing else writing; the
database's answers to its lookups are functions of the store.

The issuance is one hour before the clock's hour, and it is what `requested_at` holds.

`collect_cases` says everything one run can do to the tables, and later results use it
instead of the definition.
-/

namespace ForecastIQ.Collection

open ForecastIQ.Foundations ForecastIQ.Catalog

/-- `CollectionStatus`. -/
inductive CollectionStatus where
  | pending
  | success
  | partialData
  | failed
  | deduplicated
  | rateLimited
  | timeout
  deriving DecidableEq, Repr

/-- `Successful`: the collection produced usable data. -/
def CollectionStatus.successful (s : CollectionStatus) : Bool := s = .success || s = .partialData

/-- The object key of a stored payload, `BuildPayloadKey`. -/
structure PayloadKey where
  providerSlug : String
  time : ℤ
  collectionID : ℕ
  deriving DecidableEq, Repr

/-- The error message of a collection: the first row reasons, or the transport failure. -/
inductive ErrorMessage where
  | empty
  | reasons (l : List RowReason)
  | failure (e : ProviderError)
  deriving DecidableEq, Repr

/-- The text of the message. -/
def ErrorMessage.text (quote : String → String) : ErrorMessage → String
  | .empty => ""
  | .reasons l => "; ".intercalate (l.map (RowReason.text quote))
  | .failure e => e.message

/-- `ForecastCollection`: one provider exchange for one location. -/
structure ForecastCollection where
  id : ℕ
  providerID : ℕ
  locationID : ℕ
  providerConfigurationID : ℕ
  requestedAt : ℤ
  completedAt : Option ℤ
  status : CollectionStatus
  providerModelRunTime : Option ℤ
  rawPayloadObjectKey : Option PayloadKey
  recordsReceived : ℕ
  snapshotsStored : ℕ
  snapshotsDeduplicated : ℕ
  snapshotsInvalid : ℕ
  errorCode : Option ErrorCode
  errorMessage : ErrorMessage
  createdAt : ℤ
  deriving DecidableEq, Repr

/-- `COALESCE(provider_model_run_time, requested_at)`. -/
def ForecastCollection.dedupKey (c : ForecastCollection) : ℤ := c.providerModelRunTime.getD c.requestedAt

/-- A stored snapshot. -/
structure SnapshotRow where
  id : ℕ
  forecastCollectionID : ℕ
  providerID : ℕ
  locationID : ℕ
  snapshot : ForecastSnapshot
  deriving DecidableEq, Repr

/-- The index `snapshots_dedup`. -/
def SnapshotRow.dedupKey (r : SnapshotRow) : Option (ℕ × ℕ × ℤ × ℤ) :=
  some (r.providerID, r.locationID, r.snapshot.issuedAt, r.snapshot.targetTime)

/-- The tables that collection reads and writes, the payload store and the next identifier. -/
structure Store where
  collections : List ForecastCollection
  snapshots : List SnapshotRow
  payloads : List (PayloadKey × List UInt8)
  circuits : ℕ → ProviderCircuit
  nextID : ℕ

/-- The store before anything was collected. -/
def Store.empty : Store := ⟨[], [], [], fun _ => .new, 0⟩

/-- `CollectInput`. -/
structure CollectInput where
  providerID : ℕ
  providerSlug : String
  providerActive : Bool
  locationID : ℕ
  locationActive : Bool
  configID : ℕ
  configActive : Bool
  deriving DecidableEq, Repr

/-- What the world does in one run: the clock at the start and at the end, the adapter of the
provider (its result for an issuance) and whether the payload could be written. -/
structure Exchange where
  now : ℤ
  completedAt : ℤ
  adapter : Option (ℤ → ForecastResult)
  payloadOK : Bool
  now_le_completedAt : now ≤ completedAt

/-- Why a run stores nothing. -/
inductive CollectError where
  /-- `ErrInactive`. -/
  | inactive
  /-- `ErrInactive`, wrapped with the slug that has no adapter. -/
  | noAdapter (slug : String)
  /-- `CircuitOpenError`. -/
  | circuitOpen (providerID : ℕ) (retryAt : Option ℤ)
  deriving DecidableEq, Repr

/-- The deterministic issuance of a run. -/
def issuance (now : ℤ) : ℤ := truncateHour now - hour

/-! ### The repositories -/

/-- `FindDedup`: a usable collection of the provider and location with the key. -/
def Store.findDedup (s : Store) (providerID locationID : ℕ) (key : ℤ) : Option ForecastCollection :=
  s.collections.find? fun c =>
    c.providerID = providerID && c.locationID = locationID && c.dedupKey = key && c.status.successful

/-- The rows of a batch, with their identifiers and the values as the columns hold them. -/
def snapshotRows (firstID collectionID providerID locationID : ℕ) (snaps : List ForecastSnapshot) :
    List SnapshotRow :=
  snaps.zipIdx.map fun p => ⟨firstID + p.2, collectionID, providerID, locationID, p.1.stored⟩

/-- `InsertBatch`: the snapshots that are not there yet; returns how many were stored. -/
def Store.insertBatch (s : Store) (rows : List SnapshotRow) : ℕ × Store :=
  let snapshots := insertAll SnapshotRow.dedupKey s.snapshots rows
  (snapshots.length - s.snapshots.length, { s with snapshots := snapshots, nextID := s.nextID + rows.length })

/-- Write the circuit of a provider. -/
def Store.setCircuit (s : Store) (providerID : ℕ) (c : ProviderCircuit) : Store :=
  { s with circuits := Function.update s.circuits providerID c }

/-! ### The workflow -/

/-- `classify`: the status, error code and message of a result. -/
def classify (result : ForecastResult) (payloadOK : Bool) : CollectionStatus × Option ErrorCode × ErrorMessage :=
  let message : ErrorMessage :=
    if result.invalidReasons = [] then
      match result.err with
      | some e => .failure e
      | none => .empty
    else .reasons (result.invalidReasons.take 5)
  let code : Option ErrorCode := if payloadOK then none else some .payloadWriteFailed
  match result.outcome with
  | .success => (.success, code, message)
  | .partialData => (.partialData, code.or (some .partialValidation), message)
  | .rateLimited => (.rateLimited, code.or (some .rateLimited), message)
  | .timeout => (.timeout, code.or (some .timeout), message)
  | .authFailed => (.failed, code.or (some .invalidCredentials), message)
  | .failed => (.failed, code.or result.errorCode, message)

/-- The outcomes that are looked up for deduplication. -/
def Outcome.usable (o : Outcome) : Bool := o = .success || o = .partialData

/-- `storeDeduplicated`: the attempt is recorded with no snapshot of its own. -/
def storeDeduplicated (input : CollectInput) (x : Exchange) (collectionID : ℕ) (issuedAt : ℤ)
    (result : ForecastResult) (s : Store) : ForecastCollection × Store :=
  let coll : ForecastCollection :=
    { id := collectionID, providerID := input.providerID, locationID := input.locationID
      providerConfigurationID := input.configID, requestedAt := issuedAt, completedAt := some x.completedAt
      status := .deduplicated, providerModelRunTime := result.modelRunTime, rawPayloadObjectKey := none
      recordsReceived := result.recordsReceived, snapshotsStored := 0
      snapshotsDeduplicated := result.recordsReceived, snapshotsInvalid := 0
      errorCode := none, errorMessage := .empty, createdAt := x.completedAt }
  (coll, { s with collections := s.collections ++ [coll] })

/-- The transaction of `Collect`: insert the collection, store its snapshots, complete it and record
the outcome in the circuit. `none` is the unique violation on completion, `ErrDuplicateCollection`;
the pending row it had inserted is rolled back with the rest. -/
def persist (input : CollectInput) (x : Exchange) (collectionID : ℕ) (issuedAt : ℤ) (result : ForecastResult)
    (payloadOK : Bool) (objectKey : Option PayloadKey) (s : Store) : Option (ForecastCollection × Store) :=
  let (status, errorCode, errorMessage) := classify result payloadOK
  let (storedCount, s) :=
    if status.successful then
      s.insertBatch (snapshotRows s.nextID collectionID input.providerID input.locationID result.snapshots)
    else (0, s)
  let coll : ForecastCollection :=
    { id := collectionID, providerID := input.providerID, locationID := input.locationID
      providerConfigurationID := input.configID, requestedAt := issuedAt, completedAt := some x.completedAt
      status := status, providerModelRunTime := result.modelRunTime, rawPayloadObjectKey := objectKey
      recordsReceived := result.recordsReceived, snapshotsStored := storedCount
      snapshotsDeduplicated := result.snapshots.length - storedCount, snapshotsInvalid := result.invalidCount
      errorCode := errorCode, errorMessage := errorMessage, createdAt := x.now }
  if status.successful && (s.findDedup input.providerID input.locationID coll.dedupKey).isSome then none
  else
    let circuit := s.circuits input.providerID
    let circuit :=
      if status.successful then circuit.applySuccess
      else if result.outcome = .failed || result.outcome = .timeout then circuit.applyFailure x.completedAt
      else circuit
    some (coll, { s with collections := s.collections ++ [coll] }.setCircuit input.providerID circuit)

/-- `Collect`, from the provider call on. -/
def collectResult (input : CollectInput) (x : Exchange) (issuedAt : ℤ) (result : ForecastResult) (s : Store) :
    ForecastCollection × Store :=
  let collectionID := s.nextID
  let s := { s with nextID := s.nextID + 1 }
  let dedupKey := result.modelRunTime.getD issuedAt
  if result.outcome.usable && (s.findDedup input.providerID input.locationID dedupKey).isSome then
    storeDeduplicated input x collectionID issuedAt result s
  else
    let key : PayloadKey := ⟨input.providerSlug, x.now, collectionID⟩
    -- an empty payload is not written, and counts as written
    let payloadOK := result.rawPayload.isEmpty || x.payloadOK
    let written := payloadOK && !result.rawPayload.isEmpty
    let s := if written then { s with payloads := s.payloads ++ [(key, result.rawPayload)] } else s
    match persist input x collectionID issuedAt result payloadOK (if written then some key else none) s with
    | some r => r
    | none => storeDeduplicated input x collectionID issuedAt result s

/-- `Collect`. -/
def collect (input : CollectInput) (x : Exchange) (s : Store) : Except CollectError ForecastCollection × Store :=
  if !(input.providerActive && input.locationActive && input.configActive) then (.error .inactive, s)
  else
    match x.adapter with
    | none => (.error (.noAdapter input.providerSlug), s)
    | some fetch =>
      let (decision, circuit) := (s.circuits input.providerID).evaluate x.now
      let s := s.setCircuit input.providerID circuit
      if decision.allowed then
        let (coll, s) := collectResult input x (issuance x.now) (fetch (issuance x.now)) s
        (.ok coll, s)
      else (.error (.circuitOpen input.providerID decision.retryAt), s)

/-! ### What a run does -/

/-- The status that `classify` gives an outcome. -/
def Outcome.status : Outcome → CollectionStatus
  | .success => .success
  | .partialData => .partialData
  | .rateLimited => .rateLimited
  | .timeout => .timeout
  | .authFailed => .failed
  | .failed => .failed

theorem classify_status (result : ForecastResult) (payloadOK : Bool) :
    (classify result payloadOK).1 = result.outcome.status := by
  simp only [classify]
  cases result.outcome <;> rfl

@[simp] theorem Outcome.status_successful (o : Outcome) : o.status.successful = o.usable := by
  cases o <;> rfl

theorem Outcome.status_eq_success_iff (o : Outcome) : o.status = .success ↔ o = .success := by
  cases o <;> decide

/-- A usable collection of the provider and location has the key. -/
def Store.HasDedup (s : Store) (providerID locationID : ℕ) (key : ℤ) : Prop :=
  ∃ c ∈ s.collections, c.providerID = providerID ∧ c.locationID = locationID ∧ c.dedupKey = key ∧
    c.status.successful = true

instance (s : Store) (providerID locationID : ℕ) (key : ℤ) : Decidable (s.HasDedup providerID locationID key) :=
  inferInstanceAs (Decidable (∃ c ∈ s.collections, _))

theorem Store.findDedup_isSome_iff (s : Store) (providerID locationID : ℕ) (key : ℤ) :
    (s.findDedup providerID locationID key).isSome = true ↔ s.HasDedup providerID locationID key := by
  simp [findDedup, HasDedup, and_assoc]

/-- The transaction cannot fail when the lookup found nothing, since nothing else writes. -/
theorem persist_eq_some {input : CollectInput} {x : Exchange} {collectionID : ℕ} {issuedAt : ℤ}
    {result : ForecastResult} {payloadOK : Bool} {objectKey : Option PayloadKey} {s : Store}
    (h : ¬ (result.outcome.usable = true ∧
      s.HasDedup input.providerID input.locationID (result.modelRunTime.getD issuedAt))) :
    ∃ coll s', persist input x collectionID issuedAt result payloadOK objectKey s = some (coll, s') ∧
      coll.providerID = input.providerID ∧ coll.locationID = input.locationID ∧ coll.requestedAt = issuedAt ∧
      coll.providerModelRunTime = result.modelRunTime ∧ coll.status = result.outcome.status ∧
      s'.collections = s.collections ++ [coll] ∧
      s'.snapshots = if result.outcome.usable then insertAll SnapshotRow.dedupKey s.snapshots
        (snapshotRows s.nextID collectionID input.providerID input.locationID result.snapshots) else s.snapshots := by
  have hst := classify_status result payloadOK
  rcases hcl : classify result payloadOK with ⟨status, code, message⟩
  rw [hcl] at hst
  obtain rfl : status = result.outcome.status := hst
  simp only [persist, hcl, Outcome.status_successful]
  by_cases hu : result.outcome.usable = true
  · -- storing snapshots does not change what the lookup finds
    have hnone : ∀ s2 : Store, s2.collections = s.collections →
        ¬ (s2.findDedup input.providerID input.locationID (result.modelRunTime.getD issuedAt)).isSome = true := by
      intro s2 hs2
      rw [Store.findDedup_isSome_iff, Store.HasDedup, hs2]
      exact fun hd => h ⟨hu, hd⟩
    simp only [hu, if_true, Store.insertBatch, ForecastCollection.dedupKey, Bool.true_and]
    rw [if_neg (by exact hnone _ rfl)]
    exact ⟨_, _, rfl, rfl, rfl, rfl, rfl, rfl, rfl, rfl⟩
  · simp only [Bool.not_eq_true] at hu
    simp only [hu, Bool.false_and, Bool.false_eq_true, if_false]
    exact ⟨_, _, rfl, rfl, rfl, rfl, rfl, rfl, rfl, rfl⟩

/-- The index key that a snapshot of a provider and location is stored under. -/
def snapshotKey (providerID locationID : ℕ) (snap : ForecastSnapshot) : ℕ × ℕ × ℤ × ℤ :=
  (providerID, locationID, storedTime snap.issuedAt, storedTime snap.targetTime)

theorem mem_snapshotRows {firstID collectionID providerID locationID : ℕ} {snaps : List ForecastSnapshot}
    {r : SnapshotRow} (h : r ∈ snapshotRows firstID collectionID providerID locationID snaps) :
    ∃ snap ∈ snaps, r.providerID = providerID ∧ r.locationID = locationID ∧ r.snapshot = snap.stored := by
  obtain ⟨⟨snap, i⟩, hmem, rfl⟩ := List.mem_map.mp h
  exact ⟨snap, List.fst_mem_of_mem_zipIdx hmem, rfl, rfl, rfl⟩

/-- The key of a stored snapshot is that of the snapshot it was stored from. -/
theorem dedupKey_of_stored {r : SnapshotRow} {providerID locationID : ℕ} {snap : ForecastSnapshot}
    (hp : r.providerID = providerID) (hl : r.locationID = locationID) (hst : r.snapshot = snap.stored) :
    r.dedupKey = some (snapshotKey providerID locationID snap) := by
  rw [SnapshotRow.dedupKey, hp, hl, hst]
  rfl

theorem keys_snapshotRows (firstID collectionID providerID locationID : ℕ) (snaps : List ForecastSnapshot) :
    keys SnapshotRow.dedupKey (snapshotRows firstID collectionID providerID locationID snaps) =
      snaps.map (snapshotKey providerID locationID) := by
  have hsome : SnapshotRow.dedupKey ∘ (fun p : ForecastSnapshot × ℕ => (⟨firstID + p.2, collectionID, providerID,
      locationID, p.1.stored⟩ : SnapshotRow)) = some ∘ snapshotKey providerID locationID ∘ Prod.fst := rfl
  rw [keys, snapshotRows, List.filterMap_map, hsome, List.filterMap_eq_map, ← List.map_map, List.zipIdx_map_fst]

/-- The rows that a result adds to the snapshots. -/
def addedRows (input : CollectInput) (result : ForecastResult) (s : Store) : List SnapshotRow :=
  snapshotRows (s.nextID + 1) s.nextID input.providerID input.locationID result.snapshots

/-- Everything `collectResult` does to the two tables: it appends one collection, whose status is
`deduplicated` when a usable result meets a usable collection with its key, and the status of the
outcome otherwise; only in the second case, and only for a usable result, are snapshots stored. -/
theorem collectResult_cases {input : CollectInput} {x : Exchange} {issuedAt : ℤ} {result : ForecastResult}
    {s s' : Store} {coll : ForecastCollection} (h : collectResult input x issuedAt result s = (coll, s')) :
    coll.providerID = input.providerID ∧ coll.locationID = input.locationID ∧ coll.requestedAt = issuedAt ∧
      coll.providerModelRunTime = result.modelRunTime ∧ s'.collections = s.collections ++ [coll] ∧
      ((result.outcome.usable = true ∧
          s.HasDedup input.providerID input.locationID (result.modelRunTime.getD issuedAt) ∧
          coll.status = .deduplicated ∧ s'.snapshots = s.snapshots) ∨
        (¬ (result.outcome.usable = true ∧
            s.HasDedup input.providerID input.locationID (result.modelRunTime.getD issuedAt)) ∧
          coll.status = result.outcome.status ∧
          s'.snapshots = if result.outcome.usable then
            insertAll SnapshotRow.dedupKey s.snapshots (addedRows input result s) else s.snapshots)) := by
  set s1 : Store := { s with nextID := s.nextID + 1 } with hs1
  have hfind : ((s1.findDedup input.providerID input.locationID (result.modelRunTime.getD issuedAt)).isSome = true) ↔
      s.HasDedup input.providerID input.locationID (result.modelRunTime.getD issuedAt) :=
    Store.findDedup_isSome_iff s1 _ _ _
  by_cases hdedup : result.outcome.usable = true ∧
      s.HasDedup input.providerID input.locationID (result.modelRunTime.getD issuedAt)
  · have hif : (result.outcome.usable &&
        (s1.findDedup input.providerID input.locationID (result.modelRunTime.getD issuedAt)).isSome) = true := by
      rw [Bool.and_eq_true, hfind]
      exact hdedup
    simp only [collectResult, ← hs1, hif, if_true] at h
    cases h
    exact ⟨rfl, rfl, rfl, rfl, rfl, .inl ⟨hdedup.1, hdedup.2, rfl, rfl⟩⟩
  · have hif : (result.outcome.usable &&
        (s1.findDedup input.providerID input.locationID (result.modelRunTime.getD issuedAt)).isSome) = false := by
      rw [← Bool.not_eq_true, Bool.and_eq_true, hfind]
      exact hdedup
    simp only [collectResult, ← hs1, hif, Bool.false_eq_true, if_false] at h
    generalize hok : (result.rawPayload.isEmpty || x.payloadOK) = ok at h
    generalize hs2 : (if (ok && !result.rawPayload.isEmpty) = true then
      { s1 with payloads := s1.payloads ++ [(⟨input.providerSlug, x.now, s.nextID⟩, result.rawPayload)] } else s1) = s2
      at h
    -- writing the payload touches neither table
    obtain ⟨hc, hsn, hid⟩ : s2.collections = s.collections ∧ s2.snapshots = s.snapshots ∧ s2.nextID = s.nextID + 1 := by
      rw [← hs2]
      split_ifs <;> exact ⟨rfl, rfl, rfl⟩
    have h2 : ¬ (result.outcome.usable = true ∧
        s2.HasDedup input.providerID input.locationID (result.modelRunTime.getD issuedAt)) := by
      rw [Store.HasDedup, hc]
      exact hdedup
    obtain ⟨coll', s3, he, h3, h4, h5, h6, h7, h8, h9⟩ := persist_eq_some h2
    rw [he] at h
    cases h
    refine ⟨h3, h4, h5, h6, by rw [h8, hc], .inr ⟨hdedup, h7, ?_⟩⟩
    rw [h9, hsn, hid]
    rfl

/-- The two ways in which a result is stored, once the payload was written or not. -/
theorem collectResult_inv {input : CollectInput} {x : Exchange} {issuedAt : ℤ} {result : ForecastResult}
    {s s' : Store} {coll : ForecastCollection} (h : collectResult input x issuedAt result s = (coll, s')) :
    ∃ payloads,
      storeDeduplicated input x s.nextID issuedAt result { s with nextID := s.nextID + 1, payloads := payloads } =
        (coll, s') ∨
      ∃ payloadOK objectKey, persist input x s.nextID issuedAt result payloadOK objectKey
        { s with nextID := s.nextID + 1, payloads := payloads } = some (coll, s') := by
  simp only [collectResult] at h
  split_ifs at h
  · exact ⟨s.payloads, .inl h⟩
  · split at h
    · rename_i r hr
      subst h
      exact ⟨_, .inr ⟨_, _, hr⟩⟩
    · exact ⟨_, .inl h⟩
  · split at h
    · rename_i r hr
      subst h
      exact ⟨_, .inr ⟨_, _, hr⟩⟩
    · exact ⟨s.payloads, .inl h⟩

/-- The outcomes that count against the provider. -/
def Outcome.isFailure (o : Outcome) : Bool := o = .failed || o = .timeout

/-- What the transaction records of the outcome in the circuit. -/
def recordOutcome (outcome : Outcome) (completedAt : ℤ) (c : ProviderCircuit) : ProviderCircuit :=
  if outcome.usable then c.applySuccess else if outcome.isFailure then c.applyFailure completedAt else c

/-- The row of a completed collection, with the number of snapshots it has stored. -/
def completedRow (input : CollectInput) (x : Exchange) (collectionID : ℕ) (issuedAt : ℤ) (result : ForecastResult)
    (payloadOK : Bool) (objectKey : Option PayloadKey) (stored : ℕ) : ForecastCollection :=
  let c := classify result payloadOK
  { id := collectionID, providerID := input.providerID, locationID := input.locationID
    providerConfigurationID := input.configID, requestedAt := issuedAt, completedAt := some x.completedAt
    status := c.1, providerModelRunTime := result.modelRunTime, rawPayloadObjectKey := objectKey
    recordsReceived := result.recordsReceived, snapshotsStored := stored
    snapshotsDeduplicated := result.snapshots.length - stored, snapshotsInvalid := result.invalidCount
    errorCode := c.2.1, errorMessage := c.2.2, createdAt := x.now }

/-- Everything a committed transaction writes. -/
theorem persist_inv {input : CollectInput} {x : Exchange} {collectionID : ℕ} {issuedAt : ℤ}
    {result : ForecastResult} {payloadOK : Bool} {objectKey : Option PayloadKey} {s s' : Store}
    {coll : ForecastCollection}
    (h : persist input x collectionID issuedAt result payloadOK objectKey s = some (coll, s')) :
    ∃ stored s1,
      (if result.outcome.usable then
        s.insertBatch (snapshotRows s.nextID collectionID input.providerID input.locationID result.snapshots)
      else (0, s)) = (stored, s1) ∧
      coll = completedRow input x collectionID issuedAt result payloadOK objectKey stored ∧
      s' = { s1 with collections := s1.collections ++ [coll] }.setCircuit input.providerID
        (recordOutcome result.outcome x.completedAt (s1.circuits input.providerID)) := by
  have hst := classify_status result payloadOK
  rcases hcl : classify result payloadOK with ⟨status, code, message⟩
  rw [hcl] at hst
  obtain rfl : status = result.outcome.status := hst
  simp only [persist, hcl, Outcome.status_successful] at h
  rcases hbatch : (if result.outcome.usable = true then
      s.insertBatch (snapshotRows s.nextID collectionID input.providerID input.locationID result.snapshots)
    else (0, s)) with ⟨stored, s1⟩
  rw [hbatch] at h
  simp only [Option.ite_none_left_eq_some, Option.some.injEq, Prod.mk.injEq] at h
  obtain ⟨-, rfl, rfl⟩ := h
  refine ⟨stored, s1, rfl, ?_, rfl⟩
  simp only [completedRow, hcl]

/-- What the transaction records of the payload. -/
theorem persist_payload {input : CollectInput} {x : Exchange} {collectionID : ℕ} {issuedAt : ℤ}
    {result : ForecastResult} {payloadOK : Bool} {objectKey : Option PayloadKey} {s : Store}
    {coll : ForecastCollection} {s' : Store}
    (h : persist input x collectionID issuedAt result payloadOK objectKey s = some (coll, s')) :
    coll.id = collectionID ∧ coll.rawPayloadObjectKey = objectKey ∧ coll.status = result.outcome.status ∧
      s'.payloads = s.payloads ∧ s.nextID ≤ s'.nextID := by
  obtain ⟨stored, s1, hbatch, rfl, rfl⟩ := persist_inv h
  have hs1 : s1.payloads = s.payloads ∧ s.nextID ≤ s1.nextID := by
    split_ifs at hbatch
    · cases hbatch
      exact ⟨rfl, Nat.le_add_right _ _⟩
    · cases hbatch
      exact ⟨rfl, Nat.le_refl _⟩
  exact ⟨rfl, rfl, classify_status result payloadOK, hs1⟩

theorem Outcome.status_ne_deduplicated (o : Outcome) : o.status ≠ .deduplicated := by
  cases o <;> simp [Outcome.status]

/-- What a run records of the payload: the new collection has the next identifier, and what is
written has a key with this identifier; a collection with a key is one whose payload was written. -/
theorem collectResult_payload {input : CollectInput} {x : Exchange} {issuedAt : ℤ} {result : ForecastResult}
    {s s' : Store} {coll : ForecastCollection} (h : collectResult input x issuedAt result s = (coll, s')) :
    coll.id = s.nextID ∧ s.nextID < s'.nextID ∧ ∃ added, s'.payloads = s.payloads ++ added ∧
      (∀ p ∈ added, p.1.collectionID = s.nextID) ∧
      ∀ key, coll.rawPayloadObjectKey = some key →
        key.collectionID = s.nextID ∧ added = [(key, result.rawPayload)] ∧ result.rawPayload ≠ [] ∧
          coll.status ≠ .deduplicated := by
  simp only [collectResult] at h
  split_ifs at h with hdedup hwritten
  · cases h
    exact ⟨rfl, Nat.lt_succ_self _, [], (List.append_nil _).symm, by simp, by simp⟩
  · split at h
    · rename_i r hr
      subst h
      obtain ⟨hid, hkey, hst, hpay, hnext⟩ := persist_payload hr
      refine ⟨hid, hnext, _, hpay, by simp, fun key hk => ?_⟩
      rw [hkey, Option.some.injEq] at hk
      subst hk
      exact ⟨rfl, rfl, by simp_all, hst ▸ Outcome.status_ne_deduplicated _⟩
    · cases h
      exact ⟨rfl, Nat.lt_succ_self _, _, rfl, by simp, by simp⟩
  · split at h
    · rename_i r hr
      subst h
      obtain ⟨hid, hkey, hst, hpay, hnext⟩ := persist_payload hr
      exact ⟨hid, hnext, [], hpay.trans (List.append_nil _).symm, by simp, fun key hk => by simp [hkey] at hk⟩
    · cases h
      exact ⟨rfl, Nat.lt_succ_self _, [], (List.append_nil _).symm, by simp, by simp⟩

/-- Everything one run can do: it is refused and writes nothing but a circuit, or it goes on with the
adapter's result for the issuance. -/
theorem collect_cases (input : CollectInput) (x : Exchange) (s : Store) :
    (∃ e circuits, collect input x s = (.error e, { s with circuits := circuits })) ∨
      ∃ fetch circuits coll s', x.adapter = some fetch ∧ collect input x s = (.ok coll, s') ∧
        collectResult input x (issuance x.now) (fetch (issuance x.now)) { s with circuits := circuits } =
          (coll, s') := by
  rw [collect]
  split_ifs with hact
  · exact .inl ⟨_, s.circuits, rfl⟩
  cases hx : x.adapter with
  | none => exact .inl ⟨_, s.circuits, rfl⟩
  | some fetch =>
    simp only
    split_ifs
    · exact .inr ⟨fetch, _, _, _, rfl, rfl, rfl⟩
    · exact .inl ⟨_, _, rfl⟩

/-- A run that is not refused goes on with the adapter's result. -/
theorem collect_eq_ok {input : CollectInput} {x : Exchange} {s : Store} {fetch : ℤ → ForecastResult}
    (hactive : (input.providerActive && input.locationActive && input.configActive) = true)
    (hallowed : ((s.circuits input.providerID).evaluate x.now).1.allowed = true) (hx : x.adapter = some fetch) :
    ∃ circuits coll s', collect input x s = (.ok coll, s') ∧
      collectResult input x (issuance x.now) (fetch (issuance x.now)) { s with circuits := circuits } = (coll, s') := by
  simp only [collect, hactive, Bool.not_true, Bool.false_eq_true, if_false, hx, hallowed, if_true]
  exact ⟨_, _, _, rfl, rfl⟩

/-- A snapshot in the store after a run was there before, or is one that the adapter returned. -/
theorem mem_snapshots_collect {input : CollectInput} {x : Exchange} {s : Store} {r : SnapshotRow}
    (h : r ∈ (collect input x s).2.snapshots) :
    r ∈ s.snapshots ∨ r.providerID = input.providerID ∧ r.locationID = input.locationID ∧
      ∃ fetch, x.adapter = some fetch ∧ ∃ snap ∈ (fetch (issuance x.now)).snapshots, r.snapshot = snap.stored := by
  rcases collect_cases input x s with ⟨e, circuits, he⟩ | ⟨fetch, circuits, coll, s', hx, he, hr⟩
  · rw [he] at h
    exact .inl h
  · rw [he] at h
    obtain ⟨-, -, -, -, -, hcase⟩ := collectResult_cases hr
    rcases hcase with ⟨-, -, -, hs⟩ | ⟨-, -, hs⟩
    · rw [hs] at h
      exact .inl h
    · rw [hs] at h
      split_ifs at h
      · refine (mem_of_mem_insertAll h).imp_right fun hrow => ?_
        obtain ⟨snap, hmem, hp, hl, hsnap⟩ := mem_snapshotRows hrow
        exact ⟨hp, hl, fetch, hx, snap, hmem, hsnap⟩
      · exact .inl h

/-- A run keeps the stored snapshots. -/
theorem snapshots_subset_collect (input : CollectInput) (x : Exchange) (s : Store) :
    s.snapshots ⊆ (collect input x s).2.snapshots := by
  intro r hr
  rcases collect_cases input x s with ⟨e, circuits, he⟩ | ⟨fetch, circuits, coll, s', hx, he, hres⟩
  · rw [he]
    exact hr
  · rw [he]
    obtain ⟨-, -, -, -, -, hcase⟩ := collectResult_cases hres
    change r ∈ s'.snapshots
    rcases hcase with ⟨-, -, -, hs⟩ | ⟨-, -, hs⟩
    · rw [hs]
      exact hr
    · rw [hs]
      split_ifs
      · exact mem_insertAll_of_mem hr
      · exact hr

/-! ### A sample -/

/-- The response of one valid hour. -/
def oneHour (issuedAt : ℤ) : ForecastResult :=
  { ForecastResult.ofPayload [] with
    outcome := .success
    recordsReceived := 1
    snapshots := [⟨issuedAt, issuedAt + 2 * hour, 120, ⟨none, none, none, none, none, none, none, none, none⟩, none⟩] }

/-- A run of provider `1` at a location, at time zero, that gets the response. -/
def runAtZero (locationID : ℕ) (fetch : ℤ → ForecastResult) : CollectInput × Exchange :=
  (⟨1, "open-meteo", true, locationID, true, 1, true⟩, ⟨0, 0, some fetch, true, Int.le_refl 0⟩)

end ForecastIQ.Collection
