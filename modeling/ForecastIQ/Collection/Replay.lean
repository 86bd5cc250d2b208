import ForecastIQ.Collection.Collect
import ForecastIQ.Collection.OpenMeteo
import ForecastIQ.Collection.OpenWeather
import Mathlib.Data.List.Sort
import Mathlib.Logic.Relation

/-!
# Replaying a stored payload

`internal/collection/replay.go`: the payload of an earlier collection is read back, checked
against its checksum, decoded by the current adapter with the issuance of the original
collection, and stored as a new collection. The snapshots go through the same insert as those
of a first collection, so a key that is there is left as it is.

`Archive` is the store of `Collect` with the column `raw_payload_checksum`; the digest is a
parameter. Compression, partitions, metrics, events and the audit trail are left out.

Collecting and replaying change the archive in three ways, `Archive.Moves`: not at all, by
putting a corrupt payload aside, or by appending one collection. The invariants are proved for
the moves, and so hold in every reachable archive.
-/

namespace ForecastIQ.Collection

open ForecastIQ.Foundations

/-! ### Adapters -/

/-- A forecast adapter: what it makes of a body and a classified failure, and its decoder of
stored payloads (`ReplayDecoder`), where it has one. -/
structure ForecastAdapter where
  fetchForecast : List UInt8 → Option ProviderError → ℤ → ForecastResult
  decodeStored : Option (List UInt8 → ℤ → Except String ForecastResult)

/-- `DecodeStored` of the Open-Meteo adapter. -/
def OpenMeteo.decodeStored (unmarshal : List UInt8 → Except String OpenMeteo.ForecastResponse) (raw : List UInt8)
    (issuedAt : ℤ) : Except String ForecastResult :=
  .ok (OpenMeteo.decompose (unmarshal raw) issuedAt (.ofPayload raw))

/-- The Open-Meteo adapter. -/
def OpenMeteo.adapter (unmarshal : List UInt8 → Except String OpenMeteo.ForecastResponse) : ForecastAdapter :=
  ⟨OpenMeteo.fetchForecast unmarshal, some (OpenMeteo.decodeStored unmarshal)⟩

/-- `DecodeStored` of the OpenWeather adapter. -/
def OpenWeather.decodeStored (unmarshal : List UInt8 → Except String OpenWeather.ForecastResponse) (raw : List UInt8)
    (issuedAt : ℤ) : Except String ForecastResult :=
  .ok (OpenWeather.decompose (unmarshal raw) issuedAt (.ofPayload raw))

/-- The OpenWeather adapter. -/
def OpenWeather.adapter (unmarshal : List UInt8 → Except String OpenWeather.ForecastResponse) : ForecastAdapter :=
  ⟨OpenWeather.fetchForecast unmarshal, some (OpenWeather.decodeStored unmarshal)⟩

/-- The adapter keeps the body as the payload, and its decoder derives every usable result of a
fetch again from that payload. -/
def ForecastAdapter.Rederives (adapter : ForecastAdapter) : Prop :=
  ∃ decode, adapter.decodeStored = some decode ∧ ∀ body failure issuedAt,
    (adapter.fetchForecast body failure issuedAt).rawPayload = body ∧
      ((adapter.fetchForecast body failure issuedAt).outcome.usable = true →
        decode body issuedAt = .ok (adapter.fetchForecast body failure issuedAt))

/-- A failed call is never usable. -/
theorem ForecastResult.ofError_not_usable (body : List UInt8) (e : ProviderError) :
    (ForecastResult.ofError body e).outcome.usable ≠ true := by
  rcases e with ⟨code, status⟩
  cases code <;> simp [ForecastResult.ofError, ProviderError.outcome, Outcome.usable]

theorem OpenMeteo.rawPayload_decompose (resp : Except String OpenMeteo.ForecastResponse) (issuedAt : ℤ)
    (result : ForecastResult) : (OpenMeteo.decompose resp issuedAt result).rawPayload = result.rawPayload := by
  unfold OpenMeteo.decompose
  split
  · rfl
  · split
    · rfl
    · split_ifs
      · rfl
      · exact decomposeRows_rawPayload _ _

theorem OpenWeather.rawPayload_decompose (resp : Except String OpenWeather.ForecastResponse) (issuedAt : ℤ)
    (result : ForecastResult) : (OpenWeather.decompose resp issuedAt result).rawPayload = result.rawPayload := by
  unfold OpenWeather.decompose
  split
  · rfl
  · split_ifs
    · rfl
    · exact decomposeRows_rawPayload _ _

theorem OpenMeteo.adapter_rederives (unmarshal : List UInt8 → Except String OpenMeteo.ForecastResponse) :
    (OpenMeteo.adapter unmarshal).Rederives := by
  refine ⟨_, rfl, fun body failure issuedAt => ?_⟩
  cases failure with
  | none => exact ⟨OpenMeteo.rawPayload_decompose _ _ _, fun _ => rfl⟩
  | some e => exact ⟨rfl, fun h => absurd h (ForecastResult.ofError_not_usable body e)⟩

theorem OpenWeather.adapter_rederives (unmarshal : List UInt8 → Except String OpenWeather.ForecastResponse) :
    (OpenWeather.adapter unmarshal).Rederives := by
  refine ⟨_, rfl, fun body failure issuedAt => ?_⟩
  cases failure with
  | none => exact ⟨OpenWeather.rawPayload_decompose _ _ _, fun _ => rfl⟩
  | some e => exact ⟨rfl, fun h => absurd h (ForecastResult.ofError_not_usable body e)⟩

/-- Why a payload is not replayed. -/
inductive ReplayError where
  /-- `ErrNotFound`. -/
  | notFound
  /-- `ErrPayloadUnavailable`. -/
  | payloadUnavailable
  /-- The provider could not be loaded. -/
  | loadProvider
  /-- `ErrInactive`, wrapped with the slug that has no adapter. -/
  | noAdapter (slug : String)
  /-- `ErrReplayUnsupported`. -/
  | replayUnsupported
  /-- The decoder failed. -/
  | decodeStored (err : String)
  /-- The transaction failed. -/
  | persist
  deriving DecidableEq, Repr

/-- The providers by id, and the adapters by slug. -/
structure Registry where
  provider : ℕ → Option String
  adapters : String → Option ForecastAdapter

/-- The decoder of a provider. -/
def Registry.decoder (reg : Registry) (providerID : ℕ) :
    Except ReplayError (List UInt8 → ℤ → Except String ForecastResult) :=
  match reg.provider providerID with
  | none => .error .loadProvider
  | some slug =>
    match reg.adapters slug with
    | none => .error (.noAdapter slug)
    | some adapter =>
      match adapter.decodeStored with
      | none => .error .replayUnsupported
      | some decode => .ok decode

/-! ### The repositories -/

/-- `GetByID`. -/
def Store.getByID (s : Store) (id : ℕ) : Option ForecastCollection := s.collections.find? fun c => c.id = id

/-- `LatestSuccessful`: the usable collection of the provider and location with the latest `requested_at`. -/
def Store.latestSuccessful (s : Store) (providerID locationID : ℕ) : Option ForecastCollection :=
  ((s.collections.filter fun c =>
      c.providerID = providerID && c.locationID = locationID && c.status.successful).insertionSort
    fun a b => b.requestedAt ≤ a.requestedAt).head?

/-- `Read`: what was last written under the key. -/
def Store.readPayload (s : Store) (key : PayloadKey) : Option (List UInt8) :=
  (s.payloads.reverse.find? fun p => p.1 = key).map Prod.snd

/-- `Quarantine`: the payload is no longer under its key. -/
def Store.quarantine (s : Store) (key : PayloadKey) : Store :=
  { s with payloads := s.payloads.filter fun p => p.1 ≠ key }

/-- The store, with the checksum that each collection records of its payload. -/
structure Archive (δ : Type*) where
  store : Store
  checksums : ℕ → Option δ

/-- What the world does in one replay: the clock at the start and at the end, and whether a corrupt
payload could be moved. -/
structure ReplayExchange where
  now : ℤ
  completedAt : ℤ
  quarantineOK : Bool
  now_le_completedAt : now ≤ completedAt

variable {δ : Type*}

/-- The archive before anything was collected. -/
def Archive.empty : Archive δ := ⟨.empty, fun _ => none⟩

/-- The row of a replay and the archive with it: the transaction of `Replay`. -/
def Archive.reprocess (orig : ForecastCollection) (checksum : δ) (result : ForecastResult) (y : ReplayExchange)
    (a : Archive δ) : ForecastCollection × Archive δ :=
  let newID := a.store.nextID
  let s := { a.store with nextID := a.store.nextID + 1 }
  let (decodeStatus, errorCode, errorMessage) := classify result true
  let (storedCount, s) :=
    if decodeStatus.successful && !result.snapshots.isEmpty then
      s.insertBatch (snapshotRows s.nextID newID orig.providerID orig.locationID result.snapshots)
    else (0, s)
  let coll : ForecastCollection :=
    { id := newID, providerID := orig.providerID, locationID := orig.locationID
      providerConfigurationID := orig.providerConfigurationID, requestedAt := orig.requestedAt
      completedAt := some y.completedAt, status := if decodeStatus.successful then .deduplicated else decodeStatus
      providerModelRunTime := orig.providerModelRunTime, rawPayloadObjectKey := orig.rawPayloadObjectKey
      recordsReceived := result.recordsReceived, snapshotsStored := storedCount
      snapshotsDeduplicated := result.snapshots.length - storedCount, snapshotsInvalid := result.invalidCount
      errorCode := errorCode, errorMessage := errorMessage, createdAt := y.now }
  (coll, ⟨{ s with collections := s.collections ++ [coll] }, Function.update a.checksums newID (some checksum)⟩)

section
variable [DecidableEq δ] (hash : List UInt8 → δ)

/-- `Collect`, with the checksum of the new row. -/
def Archive.collect (input : CollectInput) (x : Exchange) (a : Archive δ) :
    Except CollectError ForecastCollection × Archive δ :=
  match Collection.collect input x a.store with
  | (.error e, s) => (.error e, ⟨s, a.checksums⟩)
  | (.ok coll, s) =>
    let raw := (x.adapter.map fun fetch => (fetch (issuance x.now)).rawPayload).getD []
    -- a deduplicated row has neither a key nor a checksum
    let checksum := if coll.status = .deduplicated || raw.isEmpty then none else some (hash raw)
    (.ok coll, ⟨s, Function.update a.checksums coll.id checksum⟩)

/-- `Replay`, up to the decoded payload: the original collection, its checksum and the result. -/
def Archive.decode (reg : Registry) (id : ℕ) (y : ReplayExchange) (a : Archive δ) :
    Except ReplayError (ForecastCollection × δ × ForecastResult) × Archive δ :=
  match a.store.getByID id with
  | none => (.error .notFound, a)
  | some orig =>
    match orig.rawPayloadObjectKey, a.checksums orig.id with
    | some key, some checksum =>
      match reg.decoder orig.providerID with
      | .error e => (.error e, a)
      | .ok decodeStored =>
        match a.store.readPayload key with
        | none => (.error .payloadUnavailable, a)
        | some raw =>
          if hash raw = checksum then
            match decodeStored raw orig.requestedAt with
            | .error err => (.error (.decodeStored err), a)
            | .ok result => (.ok (orig, checksum, result), a)
          else (.error .payloadUnavailable, if y.quarantineOK then { a with store := a.store.quarantine key } else a)
    | _, _ => (.error .payloadUnavailable, a)

/-- `Replay`. A row is never completed before it was requested. -/
def Archive.replay (reg : Registry) (id : ℕ) (y : ReplayExchange) (a : Archive δ) :
    Except ReplayError ForecastCollection × Archive δ :=
  match a.decode hash reg id y with
  | (.error e, a) => (.error e, a)
  | (.ok (orig, checksum, result), a) =>
    if y.completedAt < orig.requestedAt then (.error .persist, a)
    else
      let (coll, a) := a.reprocess orig checksum result y
      (.ok coll, a)

end

/-! ### What one replay does -/

theorem Archive.reprocess_snapshots (orig : ForecastCollection) (checksum : δ) (result : ForecastResult)
    (y : ReplayExchange) (a : Archive δ) :
    (a.reprocess orig checksum result y).2.store.snapshots =
      if result.outcome.usable then insertAll SnapshotRow.dedupKey a.store.snapshots
        (snapshotRows (a.store.nextID + 1) a.store.nextID orig.providerID orig.locationID result.snapshots)
      else a.store.snapshots := by
  have hst := classify_status result true
  rcases hcl : classify result true with ⟨status, code, message⟩
  rw [hcl] at hst
  obtain rfl : status = result.outcome.status := hst
  simp only [reprocess, hcl, Outcome.status_successful]
  by_cases hempty : result.snapshots = []
  · simp [hempty, snapshotRows, insertAll]
  · cases hu : result.outcome.usable <;> simp [hempty, Store.insertBatch]

theorem Archive.snapshots_subset_reprocess (orig : ForecastCollection) (checksum : δ) (result : ForecastResult)
    (y : ReplayExchange) (a : Archive δ) :
    a.store.snapshots ⊆ (a.reprocess orig checksum result y).2.store.snapshots := by
  intro r hr
  rw [reprocess_snapshots]
  split_ifs
  · exact mem_insertAll_of_mem hr
  · exact hr

theorem Archive.nodup_keys_reprocess {a : Archive δ} (h : (keys SnapshotRow.dedupKey a.store.snapshots).Nodup)
    (orig : ForecastCollection) (checksum : δ) (result : ForecastResult) (y : ReplayExchange) :
    (keys SnapshotRow.dedupKey (a.reprocess orig checksum result y).2.store.snapshots).Nodup := by
  rw [reprocess_snapshots]
  split_ifs
  · exact nodup_keys_insertAll h _
  · exact h

theorem Archive.reprocess_status (orig : ForecastCollection) (checksum : δ) (result : ForecastResult)
    (y : ReplayExchange) (a : Archive δ) :
    (a.reprocess orig checksum result y).1.status =
      if result.outcome.usable then .deduplicated else result.outcome.status := by
  have hst : (classify result true).1 = result.outcome.status := classify_status result true
  change (if (classify result true).1.successful then CollectionStatus.deduplicated else (classify result true).1) = _
  rw [hst, Outcome.status_successful]

theorem Archive.reprocess_stored (orig : ForecastCollection) (checksum : δ) (result : ForecastResult)
    (y : ReplayExchange) (a : Archive δ) :
    (a.reprocess orig checksum result y).1.snapshotsStored =
      (a.reprocess orig checksum result y).2.store.snapshots.length - a.store.snapshots.length := by
  simp only [reprocess]
  split_ifs <;> simp [Store.insertBatch]

/-- One collection is appended: with a payload written under its own identifier, or as a replay of an
earlier one, whose key and checksum it takes. -/
structure Archive.Appended (a : Archive δ) (coll : ForecastCollection) (a' : Archive δ) : Prop where
  id_eq : coll.id = a.store.nextID
  collections_eq : a'.store.collections = a.store.collections ++ [coll]
  nextID_lt : a.store.nextID < a'.store.nextID
  checksums_eq : ∀ id, id ≠ coll.id → a'.checksums id = a.checksums id
  snapshots_eq : ∃ rows, a'.store.snapshots = insertAll SnapshotRow.dedupKey a.store.snapshots rows
  payloads_eq : ∃ added, a'.store.payloads = a.store.payloads ++ added ∧
    ∀ p ∈ added, p.1.collectionID = a.store.nextID
  key_cases : ∀ key, coll.rawPayloadObjectKey = some key → key.collectionID = a.store.nextID ∨
    ∃ orig ∈ a.store.collections, orig.rawPayloadObjectKey = some key ∧ coll.providerID = orig.providerID ∧
      coll.locationID = orig.locationID ∧ coll.requestedAt = orig.requestedAt ∧
      a'.checksums coll.id = a.checksums orig.id

theorem Archive.appended_reprocess {a : Archive δ} {orig : ForecastCollection} {checksum : δ}
    (horig : orig ∈ a.store.collections) (hsum : a.checksums orig.id = some checksum) (result : ForecastResult)
    (y : ReplayExchange) :
    a.Appended (a.reprocess orig checksum result y).1 (a.reprocess orig checksum result y).2 where
  id_eq := rfl
  collections_eq := by
    simp only [reprocess]
    split_ifs <;> rfl
  nextID_lt := by
    simp only [reprocess]
    split_ifs
    · exact Nat.lt_of_lt_of_le (Nat.lt_succ_self _) (Nat.le_add_right _ _)
    · exact Nat.lt_succ_self _
  checksums_eq := fun id hid => Function.update_of_ne hid _ _
  snapshots_eq := by
    rw [reprocess_snapshots]
    split_ifs
    · exact ⟨_, rfl⟩
    · exact ⟨[], rfl⟩
  payloads_eq := by
    refine ⟨[], ?_, by simp⟩
    simp only [reprocess]
    split_ifs <;> exact (List.append_nil _).symm
  key_cases := fun key hkey =>
    .inr ⟨orig, horig, hkey, rfl, rfl, rfl, (Function.update_self _ _ _).trans hsum.symm⟩

/-- What one step can do to the archive. -/
inductive Archive.Moves (hash : List UInt8 → δ) (a : Archive δ) : Archive δ → Prop
  /-- Nothing but circuits is written. -/
  | circuits (circuits : ℕ → Catalog.ProviderCircuit) :
    Moves hash a ⟨{ a.store with circuits := circuits }, a.checksums⟩
  /-- A payload is put aside that does not have the checksum of its collection. -/
  | quarantine {orig : ForecastCollection} {key : PayloadKey} {checksum : δ} {raw : List UInt8}
      (horig : orig ∈ a.store.collections) (hkey : orig.rawPayloadObjectKey = some key)
      (hsum : a.checksums orig.id = some checksum) (hraw : a.store.readPayload key = some raw)
      (hne : hash raw ≠ checksum) : Moves hash a { a with store := a.store.quarantine key }
  /-- A collection is appended. -/
  | append {coll : ForecastCollection} {a' : Archive δ} (h : a.Appended coll a') : Moves hash a a'

/-- What a collection does: it writes no row, or it goes on with the adapter's result. -/
theorem Archive.collect_cases (hash : List UInt8 → δ) (input : CollectInput) (x : Exchange) (a : Archive δ) :
    (∃ e circuits, a.collect hash input x = (.error e, ⟨{ a.store with circuits := circuits }, a.checksums⟩)) ∨
      ∃ fetch circuits coll s', x.adapter = some fetch ∧
        collectResult input x (issuance x.now) (fetch (issuance x.now)) { a.store with circuits := circuits } =
          (coll, s') ∧
        a.collect hash input x = (.ok coll, ⟨s', Function.update a.checksums coll.id
          (if coll.status = .deduplicated || (fetch (issuance x.now)).rawPayload.isEmpty then none
            else some (hash (fetch (issuance x.now)).rawPayload))⟩) := by
  rcases Collection.collect_cases input x a.store with ⟨e, circuits, he⟩ | ⟨fetch, circuits, coll, s', hx, he, hr⟩
  · refine .inl ⟨e, circuits, ?_⟩
    simp only [collect, he]
  · refine .inr ⟨fetch, circuits, coll, s', hx, hr, ?_⟩
    simp only [collect, he, hx, Option.map_some, Option.getD_some]

theorem Archive.collect_moves (hash : List UInt8 → δ) (input : CollectInput) (x : Exchange) (a : Archive δ) :
    a.Moves hash (a.collect hash input x).2 := by
  rcases a.collect_cases hash input x with ⟨e, circuits, he⟩ | ⟨fetch, circuits, coll, s', hx, hr, he⟩
  · rw [he]
    exact .circuits circuits
  · rw [he]
    obtain ⟨hid, hnext, added, hpay, hadded, hkey⟩ := collectResult_payload hr
    obtain ⟨-, -, -, -, hcoll, hcase⟩ := collectResult_cases hr
    have hrows : ∃ rows, s'.snapshots = insertAll SnapshotRow.dedupKey a.store.snapshots rows := by
      rcases hcase with ⟨-, -, -, hs⟩ | ⟨-, -, hs⟩
      · exact ⟨[], hs⟩
      · rw [hs]
        split_ifs
        · exact ⟨_, rfl⟩
        · exact ⟨[], rfl⟩
    exact .append ⟨hid, hcoll, hnext, fun id hne => Function.update_of_ne hne _ _, hrows, ⟨added, hpay, hadded⟩,
      fun key hk => .inl (hkey key hk).1⟩

section
variable [DecidableEq δ] {hash : List UInt8 → δ}

/-- Everything that happens before the transaction of a replay: it is refused, or refused with the
payload put aside because of its checksum, or the payload is decoded. -/
theorem Archive.decode_cases (hash : List UInt8 → δ) (reg : Registry) (id : ℕ) (y : ReplayExchange) (a : Archive δ) :
    (∃ e, a.decode hash reg id y = (.error e, a)) ∨
      (∃ orig ∈ a.store.collections, ∃ key checksum raw, orig.rawPayloadObjectKey = some key ∧
        a.checksums orig.id = some checksum ∧ a.store.readPayload key = some raw ∧ hash raw ≠ checksum ∧
        a.decode hash reg id y = (.error .payloadUnavailable, { a with store := a.store.quarantine key })) ∨
      ∃ orig ∈ a.store.collections, ∃ checksum result, a.checksums orig.id = some checksum ∧
        a.decode hash reg id y = (.ok (orig, checksum, result), a) := by
  simp only [decode]
  split
  · exact .inl ⟨_, rfl⟩
  rename_i orig horig
  have hmem : orig ∈ a.store.collections := List.mem_of_find?_eq_some horig
  split
  · rename_i key checksum hkey hsum
    split
    · exact .inl ⟨_, rfl⟩
    split
    · exact .inl ⟨_, rfl⟩
    rename_i raw hraw
    split_ifs with hok hq
    · split
      · exact .inl ⟨_, rfl⟩
      · exact .inr (.inr ⟨orig, hmem, checksum, _, hsum, rfl⟩)
    · exact .inr (.inl ⟨orig, hmem, key, checksum, raw, hkey, hsum, hraw, hok, rfl⟩)
    · exact .inl ⟨_, rfl⟩
  · exact .inl ⟨_, rfl⟩

/-- A decoded payload leaves the archive as it is. -/
theorem Archive.decode_eq_ok {reg : Registry} {id : ℕ} {y : ReplayExchange} {a a' : Archive δ}
    {p : ForecastCollection × δ × ForecastResult} (h : a.decode hash reg id y = (.ok p, a')) :
    a' = a ∧ p.1 ∈ a.store.collections ∧ a.checksums p.1.id = some p.2.1 := by
  rcases a.decode_cases hash reg id y with ⟨e, he⟩ | ⟨orig, -, key, checksum, raw, -, -, -, -, he⟩ |
    ⟨orig, hmem, checksum, result, hsum, he⟩
  · cases he.symm.trans h
  · cases he.symm.trans h
  · cases he.symm.trans h
    exact ⟨rfl, hmem, hsum⟩

theorem Archive.replay_moves (reg : Registry) (id : ℕ) (y : ReplayExchange) (a : Archive δ) :
    a.Moves hash (a.replay hash reg id y).2 := by
  rw [replay]
  rcases a.decode_cases hash reg id y with ⟨e, he⟩ | ⟨orig, horig, key, checksum, raw, hkey, hsum, hraw, hne, he⟩ |
    ⟨orig, horig, checksum, result, hsum, he⟩
  · rw [he]
    exact .circuits a.store.circuits
  · rw [he]
    exact .quarantine horig hkey hsum hraw hne
  · rw [he]
    simp only
    split_ifs
    · exact .circuits a.store.circuits
    · exact .append (appended_reprocess horig hsum result y)

/-- A successful replay is a decoded payload and its transaction. -/
theorem Archive.replay_eq_ok {reg : Registry} {id : ℕ} {y : ReplayExchange} {a a' : Archive δ}
    {coll : ForecastCollection} (h : a.replay hash reg id y = (.ok coll, a')) :
    ∃ orig checksum result, a.decode hash reg id y = (.ok (orig, checksum, result), a) ∧
      a.reprocess orig checksum result y = (coll, a') := by
  rw [replay] at h
  split at h
  · cases h
  · rename_i orig checksum result a₁ hd
    obtain ⟨rfl, -, -⟩ := decode_eq_ok hd
    split_ifs at h
    · cases h
    · refine ⟨orig, checksum, result, hd, ?_⟩
      cases h
      rfl

/-! ### Which decoded rows land -/

/-- The store has a snapshot of the provider and location with the issuance, the target time and the
values of this one. -/
def Store.Holds (s : Store) (providerID locationID : ℕ) (snap : ForecastSnapshot) : Prop :=
  ∃ r ∈ s.snapshots, r.providerID = providerID ∧ r.locationID = locationID ∧ r.snapshot = snap.stored

instance (s : Store) (providerID locationID : ℕ) (snap : ForecastSnapshot) :
    Decidable (s.Holds providerID locationID snap) := inferInstanceAs (Decidable (∃ r ∈ s.snapshots, _))

theorem Store.Holds.key_mem {s : Store} {providerID locationID : ℕ} {snap : ForecastSnapshot}
    (h : s.Holds providerID locationID snap) :
    snapshotKey providerID locationID snap ∈ keys SnapshotRow.dedupKey s.snapshots := by
  obtain ⟨r, hr, hp, hl, hsnap⟩ := h
  exact List.mem_filterMap.mpr ⟨r, hr, dedupKey_of_stored hp hl hsnap⟩

/-- Under the unique index, snapshots with one key that the store holds have the same values. -/
theorem Store.Holds.stored_eq {s : Store} {providerID locationID : ℕ} {snap snap' : ForecastSnapshot}
    (hs : (keys SnapshotRow.dedupKey s.snapshots).Nodup) (h : s.Holds providerID locationID snap)
    (h' : s.Holds providerID locationID snap')
    (hk : snapshotKey providerID locationID snap' = snapshotKey providerID locationID snap) :
    snap'.stored = snap.stored := by
  obtain ⟨r, hr, hp, hl, hsnap⟩ := h
  obtain ⟨r', hr', hp', hl', hsnap'⟩ := h'
  have hkey := dedupKey_of_stored hp hl hsnap
  have hkey' := dedupKey_of_stored hp' hl' hsnap'
  rw [hk] at hkey'
  rw [← hsnap, ← hsnap', eq_of_nodup_keys hs hr' hr hkey' hkey]

/-- What a batch adds is held when its key is new and every row of the batch with the key has its values. -/
theorem holds_insertAll {s s' : Store} {firstID collectionID providerID locationID : ℕ}
    {snaps : List ForecastSnapshot} {snap : ForecastSnapshot}
    (hs' : s'.snapshots = insertAll SnapshotRow.dedupKey s.snapshots
      (snapshotRows firstID collectionID providerID locationID snaps)) (hsnap : snap ∈ snaps)
    (hnew : snapshotKey providerID locationID snap ∉ keys SnapshotRow.dedupKey s.snapshots)
    (hsame : ∀ snap' ∈ snaps, snapshotKey providerID locationID snap' = snapshotKey providerID locationID snap →
      snap'.stored = snap.stored) : s'.Holds providerID locationID snap := by
  have hkey : snapshotKey providerID locationID snap ∈ keys SnapshotRow.dedupKey s'.snapshots := by
    rw [hs', mem_keys_insertAll, keys_snapshotRows]
    exact .inr (List.mem_map_of_mem hsnap)
  obtain ⟨r, hr, hk⟩ := List.mem_filterMap.mp hkey
  rw [hs'] at hr
  rcases mem_of_mem_insertAll hr with hold | hrow
  · exact absurd (List.mem_filterMap.mpr ⟨r, hold, hk⟩) hnew
  · obtain ⟨snap', hmem, hp, hl, hst⟩ := mem_snapshotRows hrow
    have hk' : snapshotKey providerID locationID snap' = snapshotKey providerID locationID snap := by
      rw [dedupKey_of_stored hp hl hst, Option.some.injEq] at hk
      exact hk
    exact ⟨r, hs' ▸ hr, hp, hl, hst.trans (hsame snap' hmem hk')⟩

/-- **A replay stores the newly decoded values exactly where nothing is stored yet**: every decoded row
is in the store afterwards if and only if each was there with these values before, or the decoded
payload is usable, no snapshot has the row's key, and the payload gives the key no other values. A
value that the new decoder corrects for an hour that is stored never lands. -/
theorem replay_stores_decoded_iff {reg : Registry} {id : ℕ} {y : ReplayExchange} {a a' : Archive δ}
    {orig coll : ForecastCollection} {checksum : δ} {result : ForecastResult}
    (hindex : (keys SnapshotRow.dedupKey a.store.snapshots).Nodup)
    (hdecode : (a.decode hash reg id y).1 = .ok (orig, checksum, result))
    (h : a.replay hash reg id y = (.ok coll, a')) :
    (∀ snap ∈ result.snapshots, a'.store.Holds orig.providerID orig.locationID snap) ↔
      ∀ snap ∈ result.snapshots, a.store.Holds orig.providerID orig.locationID snap ∨
        result.outcome.usable = true ∧
        snapshotKey orig.providerID orig.locationID snap ∉ keys SnapshotRow.dedupKey a.store.snapshots ∧
        ∀ snap' ∈ result.snapshots, snapshotKey orig.providerID orig.locationID snap' =
          snapshotKey orig.providerID orig.locationID snap → snap'.stored = snap.stored := by
  obtain ⟨orig', checksum', result', hd, hr⟩ := Archive.replay_eq_ok h
  rw [hd] at hdecode
  cases hdecode
  have hsnaps := a.reprocess_snapshots orig checksum result y
  have hsub := a.snapshots_subset_reprocess orig checksum result y
  have hindex' := Archive.nodup_keys_reprocess hindex orig checksum result y
  rw [hr] at hsnaps hsub hindex'
  constructor
  · intro hall snap hsnap
    by_cases hkey : snapshotKey orig.providerID orig.locationID snap ∈ keys SnapshotRow.dedupKey a.store.snapshots
    · -- the row that had the key is the one that has it now
      obtain ⟨r, hmem, hk⟩ := List.mem_filterMap.mp hkey
      obtain ⟨r', hmem', hp, hl, hst⟩ := hall snap hsnap
      obtain rfl := eq_of_nodup_keys hindex' (hsub hmem) hmem' hk (dedupKey_of_stored hp hl hst)
      exact .inl ⟨r, hmem, hp, hl, hst⟩
    · refine .inr ⟨?_, hkey, fun snap' hsnap' hk => (hall snap hsnap).stored_eq hindex' (hall snap' hsnap') hk⟩
      by_contra hu
      rw [if_neg hu] at hsnaps
      exact hkey (hsnaps ▸ (hall snap hsnap).key_mem)
  · intro hall snap hsnap
    rcases hall snap hsnap with ⟨r, hmem, hrow⟩ | ⟨hu, hnew, hsame⟩
    · exact ⟨r, hsub hmem, hrow⟩
    · rw [if_pos hu] at hsnaps
      exact holds_insertAll hsnaps hsnap hnew hsame

/-- The answer for one hour, with its wind in kilometres an hour. -/
def windyResponse : OpenMeteo.ForecastResponse where
  hourly := some
    { time := ["1970-01-01T10:00"], temperature2m := [some 20], apparentTemperature := []
      precipitationProbability := [], precipitation := [], relativeHumidity2m := [], windSpeed10m := [some 36]
      windDirection10m := [], surfacePressure := [], cloudCover := [], weatherCode := [] }

/-- The adapter that takes the wind as it comes. -/
def windyAdapter : ForecastAdapter := OpenMeteo.adapter fun _ => .ok windyResponse

/-- The adapter after a fix of its decoder: the wind is converted to metres a second. -/
def fixedAdapter : ForecastAdapter :=
  { windyAdapter with
    decodeStored := some fun raw issuedAt =>
      (OpenMeteo.decodeStored (fun _ => .ok windyResponse) raw issuedAt).map fun result =>
        { result with
          snapshots := result.snapshots.map fun snap =>
            { snap with
              weather := { snap.weather with windSpeedMS := snap.weather.windSpeedMS.map (· * (5 / 18)) } } } }

/-- One provider with this adapter. -/
def registryOf (adapter : ForecastAdapter) : Registry := ⟨fun _ => some "open-meteo", fun _ => some adapter⟩

/-- A collection at ten o'clock. -/
def windyExchange : Exchange := ⟨10 * hour, 10 * hour, some (windyAdapter.fetchForecast [1] none), true, le_refl _⟩

/-- The run at ten o'clock, with the payload as its own checksum. -/
def windyCollect : Except CollectError ForecastCollection × Archive (List UInt8) :=
  Archive.empty.collect id ⟨1, "open-meteo", true, 1, true, 1, true⟩ windyExchange

/-- A replay at eleven o'clock. -/
def elevenOClock : ReplayExchange := ⟨11 * hour, 11 * hour, true, le_refl _⟩

/-- With the adapter as it was, the decoded row is in the store. -/
theorem windy_replay_stores : ∃ orig checksum result coll a',
    (windyCollect.2.decode id (registryOf windyAdapter) 0 elevenOClock).1 = .ok (orig, checksum, result) ∧
      windyCollect.2.replay id (registryOf windyAdapter) 0 elevenOClock = (.ok coll, a') ∧ result.snapshots ≠ [] ∧
      ∀ snap ∈ result.snapshots, a'.store.Holds orig.providerID orig.locationID snap := by
  have hcheck : ((windyCollect.2.decode id (registryOf windyAdapter) 0 elevenOClock).1.toOption.any fun p =>
      (windyCollect.2.replay id (registryOf windyAdapter) 0 elevenOClock).1.toOption.isSome &&
        decide (p.2.2.snapshots ≠ [] ∧ ∀ snap ∈ p.2.2.snapshots,
          windyCollect.2.store.Holds p.1.providerID p.1.locationID snap)) = true := by decide +kernel
  rcases hd : (windyCollect.2.decode id (registryOf windyAdapter) 0 elevenOClock).1 with e | ⟨orig, checksum, result⟩
  · simp [hd, Except.toOption] at hcheck
  rcases hr : windyCollect.2.replay id (registryOf windyAdapter) 0 elevenOClock with ⟨e | coll, a'⟩
  · simp [hd, hr, Except.toOption] at hcheck
  simp only [hd, hr, Except.toOption, Option.any_some, Option.isSome_some, Bool.true_and, decide_eq_true_eq] at hcheck
  exact ⟨orig, checksum, result, coll, a', rfl, rfl, hcheck.1,
    (replay_stores_decoded_iff (by decide +kernel) hd hr).mpr fun snap hsnap => .inl (hcheck.2 snap hsnap)⟩

/-- With the fixed adapter the replay succeeds and stores nothing: the wind stays as it was. -/
theorem fixed_replay_lost : ∃ orig checksum result coll a',
    (windyCollect.2.decode id (registryOf fixedAdapter) 0 elevenOClock).1 = .ok (orig, checksum, result) ∧
      orig.status = .success ∧
      windyCollect.2.replay id (registryOf fixedAdapter) 0 elevenOClock = (.ok coll, a') ∧
      coll.snapshotsStored = 0 ∧ coll.snapshotsDeduplicated = 1 ∧
      (a'.store.snapshots.map fun r => r.snapshot.weather.windSpeedMS) = [some 36] ∧
      (result.snapshots.map fun snap => snap.weather.windSpeedMS) = [some 10] ∧
      ¬ ∀ snap ∈ result.snapshots, a'.store.Holds orig.providerID orig.locationID snap := by
  have hcheck : ((windyCollect.2.decode id (registryOf fixedAdapter) 0 elevenOClock).1.toOption.any fun p =>
      ((windyCollect.2.replay id (registryOf fixedAdapter) 0 elevenOClock).1.toOption.any fun coll =>
        decide (p.1.status = .success ∧ coll.snapshotsStored = 0 ∧ coll.snapshotsDeduplicated = 1 ∧
          ((windyCollect.2.replay id (registryOf fixedAdapter) 0 elevenOClock).2.store.snapshots.map
            fun r => r.snapshot.weather.windSpeedMS) = [some 36] ∧
          (p.2.2.snapshots.map fun snap => snap.weather.windSpeedMS) = [some 10] ∧
          ¬ ∀ snap ∈ p.2.2.snapshots,
            (windyCollect.2.replay id (registryOf fixedAdapter) 0 elevenOClock).2.store.Holds p.1.providerID
              p.1.locationID snap))) = true := by decide +kernel
  rcases hd : (windyCollect.2.decode id (registryOf fixedAdapter) 0 elevenOClock).1 with e | ⟨orig, checksum, result⟩
  · simp [hd, Except.toOption] at hcheck
  rcases hr : windyCollect.2.replay id (registryOf fixedAdapter) 0 elevenOClock with ⟨e | coll, a'⟩
  · simp [hd, hr, Except.toOption] at hcheck
  simp only [hd, hr, Except.toOption, Option.any_some, decide_eq_true_eq] at hcheck
  obtain ⟨h1, h2, h3, h4, h5, h6⟩ := hcheck
  exact ⟨orig, checksum, result, coll, a', rfl, h1, rfl, h2, h3, h4, h5, h6⟩

/-! ### The archive over whole runs -/

/-- One step of the archive: a collection of any provider, or a replay with any adapters. -/
inductive Archive.Step (hash : List UInt8 → δ) (a : Archive δ) : Archive δ → Prop
  | collect (input : CollectInput) (x : Exchange) : Step hash a (a.collect hash input x).2
  | replay (reg : Registry) (id : ℕ) (y : ReplayExchange) : Step hash a (a.replay hash reg id y).2

/-- The second archive is reached from the first. -/
def Archive.Reaches (hash : List UInt8 → δ) : Archive δ → Archive δ → Prop :=
  Relation.ReflTransGen (Archive.Step hash)

theorem Archive.Step.moves {a a' : Archive δ} (h : a.Step hash a') : a.Moves hash a' := by
  cases h with
  | collect input x => exact a.collect_moves hash input x
  | replay reg id y => exact a.replay_moves reg id y

end

/-- The identifiers and the index are unique, and nothing is ahead of the next identifier. -/
structure Archive.Sound (a : Archive δ) : Prop where
  id_lt : ∀ c ∈ a.store.collections, c.id < a.store.nextID
  nodup : (a.store.collections.map ForecastCollection.id).Nodup
  key_lt : ∀ c ∈ a.store.collections, ∀ key, c.rawPayloadObjectKey = some key → key.collectionID < a.store.nextID
  index : (keys SnapshotRow.dedupKey a.store.snapshots).Nodup

theorem Archive.Sound.empty : (Archive.empty : Archive δ).Sound :=
  ⟨by simp [Archive.empty, Store.empty], by simp [Archive.empty, Store.empty], by simp [Archive.empty, Store.empty],
    by simp [Archive.empty, Store.empty, keys]⟩

theorem Archive.Sound.append {a a' : Archive δ} {coll : ForecastCollection} (h : a.Sound) (happ : a.Appended coll a') :
    a'.Sound where
  id_lt := by
    have hlt := happ.nextID_lt
    rw [happ.collections_eq]
    intro c hc
    rcases List.mem_append.mp hc with hc | hc
    · exact (h.id_lt c hc).trans hlt
    · rw [List.mem_singleton.mp hc, happ.id_eq]
      exact hlt
  nodup := by
    rw [happ.collections_eq, List.map_append, List.nodup_append]
    refine ⟨h.nodup, List.nodup_singleton _, fun id hid id' hid' he => ?_⟩
    obtain ⟨c, hc, rfl⟩ := List.mem_map.mp hid
    rw [List.map_singleton, List.mem_singleton] at hid'
    have := h.id_lt c hc
    rw [he, hid', happ.id_eq] at this
    exact Nat.lt_irrefl _ this
  key_lt := by
    have hlt := happ.nextID_lt
    rw [happ.collections_eq]
    intro c hc key hkey
    rcases List.mem_append.mp hc with hc | hc
    · exact (h.key_lt c hc key hkey).trans hlt
    · rw [List.mem_singleton.mp hc] at hkey
      rcases happ.key_cases key hkey with he | ⟨orig, horig, hk, -⟩
      · rw [he]
        exact hlt
      · exact (h.key_lt orig horig key hk).trans hlt
  index := by
    obtain ⟨rows, hrows⟩ := happ.snapshots_eq
    rw [hrows]
    exact nodup_keys_insertAll h.index rows

theorem Archive.Sound.moves {hash : List UInt8 → δ} {a a' : Archive δ} (h : a.Sound) (hm : a.Moves hash a') :
    a'.Sound := by
  cases hm with
  | circuits circuits => exact ⟨h.id_lt, h.nodup, h.key_lt, h.index⟩
  | quarantine => exact ⟨h.id_lt, h.nodup, h.key_lt, h.index⟩
  | append happ => exact h.append happ

theorem Archive.Sound.getByID {a : Archive δ} (h : a.Sound) {c : ForecastCollection} (hc : c ∈ a.store.collections) :
    a.store.getByID c.id = some c := by
  cases hf : a.store.getByID c.id with
  | none => exact absurd (List.find?_eq_none.mp hf c hc) (by simp)
  | some c' =>
    have hid : c'.id = c.id := by simpa using List.find?_some hf
    rw [List.inj_on_of_nodup_map h.nodup (List.mem_of_find?_eq_some hf) hc hid]

theorem Store.readPayload_append {s s' : Store} {key : PayloadKey} {added : List (PayloadKey × List UInt8)}
    (h : s'.payloads = s.payloads ++ added) (hne : ∀ p ∈ added, p.1 ≠ key) :
    s'.readPayload key = s.readPayload key := by
  have hnone : added.reverse.find? (fun p => decide (p.1 = key)) = none :=
    List.find?_eq_none.mpr fun p hp => by simpa using hne p (List.mem_reverse.mp hp)
  rw [readPayload, readPayload, h, List.reverse_append, List.find?_append, hnone, Option.none_or]

theorem Store.readPayload_quarantine {s : Store} {key key' : PayloadKey} (hne : key' ≠ key) :
    (s.quarantine key').readPayload key = s.readPayload key := by
  have hfun : (fun p : PayloadKey × List UInt8 => decide (decide (p.1 ≠ key') = true ∧ decide (p.1 = key) = true)) =
      fun p => decide (p.1 = key) := by
    funext p
    by_cases hp : p.1 = key
    · simp [hp, hne.symm]
    · simp [hp]
  rw [readPayload, readPayload, quarantine, ← List.filter_reverse, List.find?_filter, hfun]

/-- What the archive keeps of a collection with a stored payload: the payload and its checksum, the
rows with its key, which are the collection and its replays, and the keys of its snapshots. -/
structure Archive.Keeps (hash : List UInt8 → δ) (a : Archive δ) (c : ForecastCollection) (key : PayloadKey)
    (result : ForecastResult) : Prop where
  sound : a.Sound
  mem : c ∈ a.store.collections
  key_eq : c.rawPayloadObjectKey = some key
  rows : ∀ d ∈ a.store.collections, d.rawPayloadObjectKey = some key → d.providerID = c.providerID ∧
    d.locationID = c.locationID ∧ d.requestedAt = c.requestedAt ∧ a.checksums d.id = some (hash result.rawPayload)
  payload : a.store.readPayload key = some result.rawPayload
  stored : ∀ snap ∈ result.snapshots,
    snapshotKey c.providerID c.locationID snap ∈ keys SnapshotRow.dedupKey a.store.snapshots

theorem Archive.Keeps.append {hash : List UInt8 → δ} {a a' : Archive δ} {c coll : ForecastCollection}
    {key : PayloadKey} {result : ForecastResult} (h : a.Keeps hash c key result) (happ : a.Appended coll a') :
    a'.Keeps hash c key result where
  sound := h.sound.append happ
  mem := by
    rw [happ.collections_eq]
    exact List.mem_append_left _ h.mem
  key_eq := h.key_eq
  rows := by
    rw [happ.collections_eq]
    intro d hd hkey
    rcases List.mem_append.mp hd with hd | hd
    · have hne : d.id ≠ coll.id := by
        rw [happ.id_eq]
        exact (h.sound.id_lt d hd).ne
      rw [happ.checksums_eq d.id hne]
      exact h.rows d hd hkey
    · obtain rfl := List.mem_singleton.mp hd
      rcases happ.key_cases key hkey with he | ⟨orig, horig, hk, hp, hl, ht, hsum⟩
      · exact absurd he (h.sound.key_lt c h.mem key h.key_eq).ne
      · rw [hp, hl, ht, hsum]
        exact h.rows orig horig hk
  payload := by
    obtain ⟨added, hpay, hadded⟩ := happ.payloads_eq
    rw [Store.readPayload_append hpay, h.payload]
    intro p hp he
    have hlt := h.sound.key_lt c h.mem key h.key_eq
    rw [← he, hadded p hp] at hlt
    exact Nat.lt_irrefl _ hlt
  stored := by
    obtain ⟨rows, hrows⟩ := happ.snapshots_eq
    intro snap hsnap
    rw [hrows, mem_keys_insertAll]
    exact .inl (h.stored snap hsnap)

/-- The payload of the collection has its checksum, so it is never put aside. -/
theorem Archive.Keeps.moves {hash : List UInt8 → δ} {a a' : Archive δ} {c : ForecastCollection} {key : PayloadKey}
    {result : ForecastResult} (h : a.Keeps hash c key result) (hm : a.Moves hash a') : a'.Keeps hash c key result := by
  have hsound := h.sound.moves hm
  cases hm with
  | circuits circuits => exact ⟨hsound, h.mem, h.key_eq, h.rows, h.payload, h.stored⟩
  | @quarantine orig key' checksum raw horig hkey hsum hraw hne =>
    have hkk : key' ≠ key := by
      rintro rfl
      obtain ⟨-, -, -, hs⟩ := h.rows orig horig hkey
      rw [hs, Option.some.injEq] at hsum
      rw [h.payload, Option.some.injEq] at hraw
      exact hne (hraw ▸ hsum)
    exact ⟨hsound, h.mem, h.key_eq, h.rows, (Store.readPayload_quarantine hkk).trans h.payload, h.stored⟩
  | append happ => exact h.append happ

/-- A usable collection whose payload was written is kept. -/
theorem Archive.keeps_collect {hash : List UInt8 → δ} {input : CollectInput} {x : Exchange} {a a' : Archive δ}
    {c : ForecastCollection} {key : PayloadKey} {fetch : ℤ → ForecastResult} (h : a.Sound) (hx : x.adapter = some fetch)
    (hc : a.collect hash input x = (.ok c, a')) (hst : c.status.successful = true)
    (hkey : c.rawPayloadObjectKey = some key) :
    c.requestedAt = issuance x.now ∧ (fetch (issuance x.now)).outcome.usable = true ∧
      a'.Keeps hash c key (fetch (issuance x.now)) := by
  have hsound := h.moves (a.collect_moves hash input x)
  rcases a.collect_cases hash input x with ⟨e, circuits, he⟩ | ⟨fetch', circuits, coll, s', hx', hr, he⟩
  · cases he.symm.trans hc
  rw [hx', Option.some.injEq] at hx
  subst hx
  rw [he] at hsound
  cases he.symm.trans hc
  obtain ⟨hid, -, added, hpay, -, hwritten⟩ := collectResult_payload hr
  obtain ⟨hkid, rfl, hne, hdedup⟩ := hwritten key hkey
  obtain ⟨hp, hl, ht, -, hcoll, hcase⟩ := collectResult_cases hr
  rcases hcase with ⟨-, -, hd, -⟩ | ⟨-, hstatus, hsnaps⟩
  · exact absurd hd hdedup
  have hu : (fetch' (issuance x.now)).outcome.usable = true := by
    rw [hstatus, Outcome.status_successful] at hst
    exact hst
  refine ⟨ht, hu, hsound, ?_, hkey, ?_, ?_, ?_⟩
  · change c ∈ s'.collections
    rw [hcoll]
    exact List.mem_append_right _ (List.mem_singleton_self c)
  · intro d hd hk
    change d ∈ s'.collections at hd
    rw [hcoll] at hd
    rcases List.mem_append.mp hd with hd | hd
    · have hlt := h.key_lt d hd key hk
      rw [hkid] at hlt
      exact absurd hlt (Nat.lt_irrefl _)
    · obtain rfl := List.mem_singleton.mp hd
      refine ⟨rfl, rfl, rfl, (Function.update_self _ _ _).trans (if_neg ?_)⟩
      simp [hdedup, hne]
  · simp [Store.readPayload, hpay]
  · intro snap hsnap
    change _ ∈ keys SnapshotRow.dedupKey s'.snapshots
    rw [hsnaps, if_pos hu, mem_keys_insertAll, addedRows, keys_snapshotRows, hp, hl]
    exact .inr (List.mem_map_of_mem hsnap)

section
variable [DecidableEq δ] {hash : List UInt8 → δ}

theorem Archive.Reaches.sound {a a' : Archive δ} (h : a.Sound) (hr : Archive.Reaches hash a a') : a'.Sound := by
  induction hr with
  | refl => exact h
  | tail _ hstep ih => exact ih.moves hstep.moves

theorem Archive.Reaches.keeps {a a' : Archive δ} {c : ForecastCollection} {key : PayloadKey} {result : ForecastResult}
    (h : a.Keeps hash c key result) (hr : Archive.Reaches hash a a') : a'.Keeps hash c key result := by
  induction hr with
  | refl => exact h
  | tail _ hstep ih => exact ih.moves hstep.moves

/-! ### Replaying with the same adapter -/

theorem Store.latestSuccessful_append {s s' : Store} {coll : ForecastCollection}
    (h : s'.collections = s.collections ++ [coll]) (hst : coll.status.successful = false) (providerID locationID : ℕ) :
    s'.latestSuccessful providerID locationID = s.latestSuccessful providerID locationID := by
  simp [latestSuccessful, h, List.filter_append, hst]

theorem Archive.Keeps.decode {a : Archive δ} {c d : ForecastCollection} {key : PayloadKey} {result : ForecastResult}
    {reg : Registry} {decode : List UInt8 → ℤ → Except String ForecastResult} (h : a.Keeps hash c key result)
    (hreg : reg.decoder c.providerID = .ok decode) (hdecode : decode result.rawPayload c.requestedAt = .ok result)
    (hd : d ∈ a.store.collections) (hkey : d.rawPayloadObjectKey = some key) (y : ReplayExchange) :
    a.decode hash reg d.id y = (.ok (d, hash result.rawPayload, result), a) := by
  obtain ⟨hp, -, ht, hsum⟩ := h.rows d hd hkey
  rw [← hp] at hreg
  rw [← ht] at hdecode
  simp only [Archive.decode, h.sound.getByID hd, hkey, hsum, hreg, h.payload, if_true, hdecode]

/-- A replay of a kept collection, or of one of its replays, stores no snapshot: all their keys are there. -/
theorem Archive.Keeps.replay {a : Archive δ} {c d : ForecastCollection} {key : PayloadKey} {result : ForecastResult}
    {reg : Registry} {decode : List UInt8 → ℤ → Except String ForecastResult} (h : a.Keeps hash c key result)
    (husable : result.outcome.usable = true) (hreg : reg.decoder c.providerID = .ok decode)
    (hdecode : decode result.rawPayload c.requestedAt = .ok result) (hd : d ∈ a.store.collections)
    (hkey : d.rawPayloadObjectKey = some key) (y : ReplayExchange) :
    (y.completedAt < d.requestedAt ∧ a.replay hash reg d.id y = (.error .persist, a)) ∨
      (d.requestedAt ≤ y.completedAt ∧ ∃ coll a', a.replay hash reg d.id y = (.ok coll, a') ∧
        coll.rawPayloadObjectKey = some key ∧ coll.status = .deduplicated ∧ coll.snapshotsStored = 0 ∧
        a'.store.collections = a.store.collections ++ [coll] ∧ a'.store.snapshots = a.store.snapshots) := by
  have hdec := h.decode hreg hdecode hd hkey y
  obtain ⟨hp, hl, -, hsum⟩ := h.rows d hd hkey
  by_cases hlt : y.completedAt < d.requestedAt
  · refine .inl ⟨hlt, ?_⟩
    simp only [Archive.replay, hdec, if_pos hlt]
  · have hsame : (a.reprocess d (hash result.rawPayload) result y).2.store.snapshots = a.store.snapshots := by
      rw [reprocess_snapshots, if_pos husable]
      refine insertAll_eq_self fun r hr => ?_
      obtain ⟨snap, hsnap, hrp, hrl, hst⟩ := mem_snapshotRows hr
      exact ⟨_, dedupKey_of_stored (hrp.trans hp) (hrl.trans hl) hst, h.stored snap hsnap⟩
    refine .inr ⟨not_lt.mp hlt, (a.reprocess d (hash result.rawPayload) result y).1,
      (a.reprocess d (hash result.rawPayload) result y).2, ?_, hkey, ?_, ?_, ?_, hsame⟩
    · simp only [Archive.replay, hdec, if_neg hlt]
    · rw [reprocess_status, if_pos husable]
    · rw [reprocess_stored, hsame, Nat.sub_self]
    · exact (appended_reprocess hd hsum result y).collections_eq

/-- Replays, one after another, of the collections with a payload key. -/
inductive Archive.Replays (hash : List UInt8 → δ) (reg : Registry) (key : PayloadKey) (a : Archive δ) :
    Archive δ → Prop
  | refl : Replays hash reg key a a
  | tail {b : Archive δ} {d : ForecastCollection} (h : Replays hash reg key a b) (hd : d ∈ b.store.collections)
      (hkey : d.rawPayloadObjectKey = some key) (y : ReplayExchange) :
      Replays hash reg key a (b.replay hash reg d.id y).2

/-- What a run of replays leaves alone: the snapshots, the earlier collections and the latest successful ones. -/
theorem Archive.Replays.frame {a b : Archive δ} {c : ForecastCollection} {key : PayloadKey} {result : ForecastResult}
    {reg : Registry} {decode : List UInt8 → ℤ → Except String ForecastResult}
    (hr : Archive.Replays hash reg key a b) (h : a.Keeps hash c key result)
    (husable : result.outcome.usable = true) (hreg : reg.decoder c.providerID = .ok decode)
    (hdecode : decode result.rawPayload c.requestedAt = .ok result) :
    b.Keeps hash c key result ∧ a.store.collections <+: b.store.collections ∧
      b.store.snapshots = a.store.snapshots ∧ ∀ providerID locationID,
        b.store.latestSuccessful providerID locationID = a.store.latestSuccessful providerID locationID := by
  induction hr with
  | refl => exact ⟨h, List.prefix_refl _, rfl, fun _ _ => rfl⟩
  | @tail b d _ hd hkey y ih =>
    obtain ⟨hkeeps, hpre, hsnaps, hlatest⟩ := ih
    refine ⟨hkeeps.moves (b.replay_moves reg d.id y), ?_⟩
    rcases hkeeps.replay husable hreg hdecode hd hkey y with ⟨-, he⟩ |
      ⟨-, coll, b', he, -, hst, -, hcoll, hsame⟩
    · rw [he]
      exact ⟨hpre, hsnaps, hlatest⟩
    · rw [he]
      refine ⟨?_, hsame.trans hsnaps, fun providerID locationID => ?_⟩
      · change a.store.collections <+: b'.store.collections
        rw [hcoll]
        exact hpre.trans (List.prefix_append _ _)
      · rw [← hlatest]
        exact Store.latestSuccessful_append hcoll (by rw [hst]; rfl) providerID locationID

/-- **Replaying with the same adapter changes nothing but the list of collections.** Take a usable
collection of either adapter whose payload was stored, in any reachable archive, and any later
archive; replay the collection and its replays any number of times. The snapshots, the earlier
collections and the latest successful collection of every provider and location stay as they were;
and every further replay decodes the result of the original fetch and, unless the clock is behind
the collection, is recorded as `deduplicated` with no stored snapshot. -/
theorem replay_same_adapter {adapter : ForecastAdapter}
    (hadapter : (∃ unmarshal, adapter = OpenMeteo.adapter unmarshal) ∨
      ∃ unmarshal, adapter = OpenWeather.adapter unmarshal)
    {input : CollectInput} {x : Exchange} {body : List UInt8} {failure : Option ProviderError}
    {a₀ a₁ a b : Archive δ} {c : ForecastCollection} {key : PayloadKey} {reg : Registry} {slug : String}
    (hreach : Archive.Reaches hash .empty a₀) (hx : x.adapter = some (adapter.fetchForecast body failure))
    (hc : a₀.collect hash input x = (.ok c, a₁)) (hst : c.status.successful = true)
    (hkey : c.rawPayloadObjectKey = some key) (hlater : Archive.Reaches hash a₁ a)
    (hprovider : reg.provider c.providerID = some slug) (hslug : reg.adapters slug = some adapter)
    (hreplays : Archive.Replays hash reg key a b) :
    c ∈ b.store.collections ∧ a.store.collections <+: b.store.collections ∧
      b.store.snapshots = a.store.snapshots ∧
      (∀ providerID locationID,
        b.store.latestSuccessful providerID locationID = a.store.latestSuccessful providerID locationID) ∧
      ∀ d ∈ b.store.collections, d.rawPayloadObjectKey = some key → ∀ y : ReplayExchange,
        (b.decode hash reg d.id y).1 = .ok (d, hash body, adapter.fetchForecast body failure c.requestedAt) ∧
        (c.requestedAt ≤ y.completedAt → ∃ coll b', b.replay hash reg d.id y = (.ok coll, b') ∧
          coll.rawPayloadObjectKey = some key ∧ coll.status = .deduplicated ∧ coll.snapshotsStored = 0) := by
  have hre : adapter.Rederives := by
    rcases hadapter with ⟨unmarshal, rfl⟩ | ⟨unmarshal, rfl⟩
    · exact OpenMeteo.adapter_rederives unmarshal
    · exact OpenWeather.adapter_rederives unmarshal
  obtain ⟨decode, hdecoder, hdecode⟩ := hre
  obtain ⟨ht, husable, hkeeps⟩ := Archive.keeps_collect (hreach.sound .empty) hx hc hst hkey
  obtain ⟨hraw, hresult⟩ := hdecode body failure (issuance x.now)
  have hreg : reg.decoder c.providerID = .ok decode := by
    simp only [Registry.decoder, hprovider, hslug, hdecoder]
  rw [← ht] at husable hkeeps hraw hresult
  have hsame : decode (adapter.fetchForecast body failure c.requestedAt).rawPayload c.requestedAt =
      .ok (adapter.fetchForecast body failure c.requestedAt) := by
    rw [hraw]
    exact hresult husable
  obtain ⟨hkeeps', hpre, hsnaps, hlatest⟩ :=
    hreplays.frame (hlater.keeps hkeeps) husable hreg hsame
  refine ⟨hkeeps'.mem, hpre, hsnaps, hlatest, fun d hd hk y => ⟨?_, fun hle => ?_⟩⟩
  · rw [hkeeps'.decode hreg hsame hd hk y, hraw]
  · obtain ⟨-, -, htd, -⟩ := hkeeps'.rows d hd hk
    rcases hkeeps'.replay husable hreg hsame hd hk y with ⟨hlt, -⟩ |
      ⟨-, coll, b', he, hck, hcs, hc0, -, -⟩
    · rw [htd] at hlt
      exact absurd hle (not_le.mpr hlt)
    · exact ⟨coll, b', he, hck, hcs, hc0⟩

/-- The collection at ten o'clock is replayed with its own adapter. -/
theorem windy_replay_same : ∃ c key a₁ coll b', windyCollect = (.ok c, a₁) ∧ c.rawPayloadObjectKey = some key ∧
    a₁.replay id (registryOf windyAdapter) c.id elevenOClock = (.ok coll, b') ∧
    coll.rawPayloadObjectKey = some key ∧ coll.status = .deduplicated ∧ coll.snapshotsStored = 0 := by
  have hcheck : (windyCollect.1.toOption.any fun c => c.status.successful && c.rawPayloadObjectKey.isSome &&
      decide (c.requestedAt ≤ elevenOClock.completedAt)) = true := by decide +kernel
  rcases hc : windyCollect with ⟨e | c, a₁⟩
  · simp [hc, Except.toOption] at hcheck
  simp only [hc, Except.toOption, Option.any_some, Bool.and_eq_true, decide_eq_true_eq, Option.isSome_iff_exists]
    at hcheck
  obtain ⟨⟨hst, key, hkey⟩, hle⟩ := hcheck
  obtain ⟨hmem, -, -, -, hall⟩ := replay_same_adapter (.inl ⟨_, rfl⟩) .refl rfl hc hst hkey .refl
    (show (registryOf windyAdapter).provider c.providerID = _ from rfl) rfl .refl
  obtain ⟨coll, b', he, h⟩ := (hall c hmem hkey elevenOClock).2 hle
  exact ⟨c, key, a₁, coll, b', rfl, hkey, he, h⟩

end

end ForecastIQ.Collection
