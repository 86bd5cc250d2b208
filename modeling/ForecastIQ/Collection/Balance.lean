import ForecastIQ.Collection.Replay

/-!
# The counts of a collection

Every row of `forecast_collections` counts the records of its payload: received, stored,
deduplicated and invalid. The table checks that they add up for a usable collection only, so
a wrong count would abort the transaction of a usable response and stand in any other row.

Both adapters count a row of the payload once, as a snapshot or as an invalid row, whatever
the payload is (`fetchForecast_balanced`). The insert stores at most the snapshots it is given
(`length_insertBatch_le`), also when a payload repeats an hour, and the rest is counted as
deduplicated: the difference is never cut off at zero.
-/

namespace ForecastIQ.Collection

open ForecastIQ.Foundations

/-- The counts of the row add up to the received records. -/
def ForecastCollection.Balanced (c : ForecastCollection) : Prop :=
  c.recordsReceived = c.snapshotsStored + c.snapshotsDeduplicated + c.snapshotsInvalid

instance (c : ForecastCollection) : Decidable c.Balanced := inferInstanceAs (Decidable (_ = _))

/-- Every received record is a snapshot or invalid. -/
def ForecastResult.Balanced (r : ForecastResult) : Prop := r.recordsReceived = r.snapshots.length + r.invalidCount

/-! ### Adapters -/

theorem ForecastResult.ofPayload_balanced (raw : List UInt8) : (ForecastResult.ofPayload raw).Balanced := rfl

theorem ForecastResult.ofError_balanced (raw : List UInt8) (e : ProviderError) :
    (ForecastResult.ofError raw e).Balanced :=
  rfl

theorem ForecastResult.Balanced.drift {r : ForecastResult} (h : r.Balanced) (reason : RowReason) :
    (r.drift reason).Balanced := h

theorem decomposeRows_balanced (rows : List (Except RowReason BuiltRow)) (raw : List UInt8) :
    (decomposeRows rows (.ofPayload raw)).Balanced := by
  obtain ⟨hsnapshots, hreceived, hinvalid, -⟩ := decomposeRows_eq rows raw
  rw [ForecastResult.Balanced, hreceived, hsnapshots, ← hinvalid, Nat.add_comm]

theorem OpenMeteo.decompose_balanced (resp : Except String OpenMeteo.ForecastResponse) (issuedAt : ℤ)
    (raw : List UInt8) : (OpenMeteo.decompose resp issuedAt (.ofPayload raw)).Balanced := by
  unfold OpenMeteo.decompose
  split
  · exact (ForecastResult.ofPayload_balanced raw).drift _
  · split
    · exact (ForecastResult.ofPayload_balanced raw).drift _
    · split_ifs
      · exact (ForecastResult.ofPayload_balanced raw).drift _
      · exact decomposeRows_balanced _ raw

theorem OpenWeather.decompose_balanced (resp : Except String OpenWeather.ForecastResponse) (issuedAt : ℤ)
    (raw : List UInt8) : (OpenWeather.decompose resp issuedAt (.ofPayload raw)).Balanced := by
  unfold OpenWeather.decompose
  split
  · exact (ForecastResult.ofPayload_balanced raw).drift _
  · split_ifs
    · exact (ForecastResult.ofPayload_balanced raw).drift _
    · exact decomposeRows_balanced _ raw

/-- The two forecast adapters, for any reading of their payloads. -/
inductive ForecastAdapter.Shipped : ForecastAdapter → Prop where
  | openMeteo (unmarshal : List UInt8 → Except String OpenMeteo.ForecastResponse) :
    Shipped (OpenMeteo.adapter unmarshal)
  | openWeather (unmarshal : List UInt8 → Except String OpenWeather.ForecastResponse) :
    Shipped (OpenWeather.adapter unmarshal)

theorem ForecastAdapter.Shipped.fetchForecast_balanced {adapter : ForecastAdapter} (h : adapter.Shipped)
    (body : List UInt8) (failure : Option ProviderError) (issuedAt : ℤ) :
    (adapter.fetchForecast body failure issuedAt).Balanced := by
  cases h with
  | openMeteo unmarshal =>
    cases failure with
    | none => exact OpenMeteo.decompose_balanced (unmarshal body) issuedAt body
    | some e => exact ForecastResult.ofError_balanced body e
  | openWeather unmarshal =>
    cases failure with
    | none => exact OpenWeather.decompose_balanced (unmarshal body) issuedAt body
    | some e => exact ForecastResult.ofError_balanced body e

theorem ForecastAdapter.Shipped.decodeStored_balanced {adapter : ForecastAdapter} (h : adapter.Shipped)
    {decode : List UInt8 → ℤ → Except String ForecastResult} (hdecode : adapter.decodeStored = some decode)
    {raw : List UInt8} {issuedAt : ℤ} {result : ForecastResult} (hresult : decode raw issuedAt = .ok result) :
    result.Balanced := by
  cases h with
  | openMeteo unmarshal =>
    cases hdecode
    cases hresult
    exact OpenMeteo.decompose_balanced (unmarshal raw) issuedAt raw
  | openWeather unmarshal =>
    cases hdecode
    cases hresult
    exact OpenWeather.decompose_balanced (unmarshal raw) issuedAt raw

/-! ### Rows -/

/-- At most the given rows are stored. -/
theorem length_insertBatch_le (s : Store) (rows : List SnapshotRow) : (s.insertBatch rows).1 ≤ rows.length := by
  obtain ⟨added, heq, hsub⟩ := insertAll_eq_append SnapshotRow.dedupKey s.snapshots rows
  show (insertAll SnapshotRow.dedupKey s.snapshots rows).length - s.snapshots.length ≤ rows.length
  rw [heq, List.length_append, Nat.add_sub_cancel_left]
  exact hsub.length_le

@[simp] theorem length_snapshotRows (firstID collectionID providerID locationID : ℕ) (snaps : List ForecastSnapshot) :
    (snapshotRows firstID collectionID providerID locationID snaps).length = snaps.length := by
  simp [snapshotRows]

/-- The counts of a row that stores so many of a result's snapshots. -/
theorem ForecastResult.Balanced.row {r : ForecastResult} (h : r.Balanced) {c : ForecastCollection}
    (hreceived : c.recordsReceived = r.recordsReceived) (hstored : c.snapshotsStored ≤ r.snapshots.length)
    (hdedup : c.snapshotsDeduplicated = r.snapshots.length - c.snapshotsStored)
    (hinvalid : c.snapshotsInvalid = r.invalidCount) : c.Balanced := by
  unfold ForecastResult.Balanced at h
  unfold ForecastCollection.Balanced
  omega

theorem storeDeduplicated_balanced (input : CollectInput) (x : Exchange) (collectionID : ℕ) (issuedAt : ℤ)
    (result : ForecastResult) (s : Store) :
    (storeDeduplicated input x collectionID issuedAt result s).1.Balanced := by
  show result.recordsReceived = 0 + result.recordsReceived + 0
  omega

theorem persist_balanced {input : CollectInput} {x : Exchange} {collectionID : ℕ} {issuedAt : ℤ}
    {result : ForecastResult} {payloadOK : Bool} {objectKey : Option PayloadKey} {s s' : Store}
    {coll : ForecastCollection} (hresult : result.Balanced)
    (h : persist input x collectionID issuedAt result payloadOK objectKey s = some (coll, s')) : coll.Balanced := by
  obtain ⟨stored, s1, hbatch, rfl, -⟩ := persist_inv h
  refine hresult.row rfl ?_ rfl rfl
  show stored ≤ result.snapshots.length
  split_ifs at hbatch
  · have hle := length_insertBatch_le s
      (snapshotRows s.nextID collectionID input.providerID input.locationID result.snapshots)
    rwa [hbatch, length_snapshotRows] at hle
  · cases hbatch
    exact Nat.zero_le _

theorem collectResult_balanced {input : CollectInput} {x : Exchange} {issuedAt : ℤ} {result : ForecastResult}
    {s s' : Store} {coll : ForecastCollection} (hresult : result.Balanced)
    (h : collectResult input x issuedAt result s = (coll, s')) : coll.Balanced := by
  obtain ⟨payloads, hdedup | ⟨payloadOK, objectKey, hpersist⟩⟩ := collectResult_inv h
  · have hrow := storeDeduplicated_balanced input x s.nextID issuedAt result
      { s with nextID := s.nextID + 1, payloads := payloads }
    rwa [hdedup] at hrow
  · exact persist_balanced hresult hpersist

variable {δ : Type*}

theorem Archive.reprocess_balanced (orig : ForecastCollection) (checksum : δ) {result : ForecastResult}
    (hresult : result.Balanced) (y : ReplayExchange) (a : Archive δ) :
    (a.reprocess orig checksum result y).1.Balanced := by
  refine hresult.row rfl ?_ rfl rfl
  have hsnapshots := a.reprocess_snapshots orig checksum result y
  rw [Archive.reprocess_stored, hsnapshots]
  split_ifs
  · rw [← length_snapshotRows (a.store.nextID + 1) a.store.nextID orig.providerID orig.locationID result.snapshots]
    exact length_insertBatch_le a.store _
  · rw [Nat.sub_self]
    exact Nat.zero_le _

/-- A collection adds no row but a balanced one, when the result of its call is balanced. -/
theorem Archive.collect_balanced (hash : List UInt8 → δ) {input : CollectInput} {x : Exchange} {a : Archive δ}
    (hx : ∀ fetch, x.adapter = some fetch → (fetch (issuance x.now)).Balanced) {c : ForecastCollection}
    (hc : c ∈ (a.collect hash input x).2.store.collections) : c ∈ a.store.collections ∨ c.Balanced := by
  rcases a.collect_cases hash input x with ⟨e, circuits, he⟩ | ⟨fetch, circuits, coll, s', hfetch, hr, he⟩
  · rw [he] at hc
    exact .inl hc
  · rw [he] at hc
    obtain ⟨-, -, -, -, hcoll, -⟩ := collectResult_cases hr
    rw [show _ = s'.collections from rfl, hcoll, List.mem_append, List.mem_singleton] at hc
    refine hc.imp_right fun heq => ?_
    rw [heq]
    exact collectResult_balanced (hx fetch hfetch) hr

/-- Every adapter of the registry is one of the two. -/
def Registry.Shipped (reg : Registry) : Prop := ∀ slug adapter, reg.adapters slug = some adapter → adapter.Shipped

theorem Registry.Shipped.decoder_balanced {reg : Registry} (h : reg.Shipped) {providerID : ℕ}
    {decode : List UInt8 → ℤ → Except String ForecastResult} (hdecode : reg.decoder providerID = .ok decode)
    {raw : List UInt8} {issuedAt : ℤ} {result : ForecastResult} (hresult : decode raw issuedAt = .ok result) :
    result.Balanced := by
  unfold Registry.decoder at hdecode
  split at hdecode
  · cases hdecode
  · split at hdecode
    · cases hdecode
    · rename_i hadapter
      split at hdecode
      · cases hdecode
      · rename_i hstored
        cases hdecode
        exact (h _ _ hadapter).decodeStored_balanced hstored hresult

section
variable [DecidableEq δ] {hash : List UInt8 → δ}

theorem Archive.decode_balanced {reg : Registry} (h : reg.Shipped) {id : ℕ} {y : ReplayExchange} {a : Archive δ}
    {orig : ForecastCollection} {checksum : δ} {result : ForecastResult}
    (hdecode : (a.decode hash reg id y).1 = .ok (orig, checksum, result)) : result.Balanced := by
  unfold Archive.decode at hdecode
  split at hdecode
  · cases hdecode
  split at hdecode
  · split at hdecode
    · cases hdecode
    rename_i decode hdecoder
    split at hdecode
    · cases hdecode
    split_ifs at hdecode
    · split at hdecode
      · cases hdecode
      · rename_i hresult
        cases hdecode
        exact h.decoder_balanced hdecoder hresult
  · cases hdecode

/-- A replay adds no row but a balanced one. -/
theorem Archive.replay_balanced {reg : Registry} (h : reg.Shipped) {id : ℕ} {y : ReplayExchange} {a : Archive δ}
    {c : ForecastCollection} (hc : c ∈ (a.replay hash reg id y).2.store.collections) :
    c ∈ a.store.collections ∨ c.Balanced := by
  rw [replay] at hc
  rcases a.decode_cases hash reg id y with ⟨e, he⟩ | ⟨orig, -, key, checksum, raw, -, -, -, -, he⟩ |
    ⟨orig, horig, checksum, result, hsum, he⟩
  · rw [he] at hc
    exact .inl hc
  · rw [he] at hc
    exact .inl hc
  · rw [he] at hc
    simp only at hc
    split_ifs at hc
    · exact .inl hc
    · have hresult : result.Balanced := decode_balanced h (congrArg Prod.fst he)
      rw [(appended_reprocess horig hsum result y).collections_eq, List.mem_append, List.mem_singleton] at hc
      rcases hc with hc | rfl
      · exact .inl hc
      · exact .inr (a.reprocess_balanced orig checksum hresult y)

variable (hash) in
/-- **The counts of every row add up**: with either adapter, whatever the provider answers and whatever is stored, a
row that `Collect`, its deduplicated path or `Replay` adds is balanced. -/
theorem rows_balanced (a : Archive δ) {adapter : ForecastAdapter} (hadapter : adapter.Shipped) {reg : Registry}
    (hreg : reg.Shipped) :
    (∀ input x body failure, x.adapter = some (adapter.fetchForecast body failure) →
      ∀ c ∈ (a.collect hash input x).2.store.collections, c ∈ a.store.collections ∨ c.Balanced) ∧
    (∀ input x collectionID issuedAt result,
      (storeDeduplicated input x collectionID issuedAt result a.store).1.Balanced) ∧
    ∀ id y, ∀ c ∈ (a.replay hash reg id y).2.store.collections, c ∈ a.store.collections ∨ c.Balanced := by
  refine ⟨fun input x body failure hx c hc => ?_, fun input x collectionID issuedAt result => ?_,
    fun id y c hc => a.replay_balanced hreg hc⟩
  · refine Archive.collect_balanced hash (fun fetch hfetch => ?_) hc
    rw [hx, Option.some.injEq] at hfetch
    rw [← hfetch]
    exact hadapter.fetchForecast_balanced body failure _
  · exact storeDeduplicated_balanced input x collectionID issuedAt result a.store

/-- An answer with an hour twice, and a time that cannot be read. -/
def repeatedResponse : OpenMeteo.ForecastResponse where
  hourly := some
    { time := ["1970-01-01T10:00", "1970-01-01T10:00", "ten"], temperature2m := [some 20, some 21, some 22]
      apparentTemperature := [], precipitationProbability := [], precipitation := [], relativeHumidity2m := []
      windSpeed10m := [], windDirection10m := [], surfacePressure := [], cloudCover := [], weatherCode := [] }

/-- The adapter that gets this answer. -/
def repeatedAdapter : ForecastAdapter := OpenMeteo.adapter fun _ => .ok repeatedResponse

/-- The archive after a collection of it at ten o'clock. -/
def repeatedCollect : Archive (List UInt8) :=
  (Archive.empty.collect id ⟨1, "open-meteo", true, 1, true, 1, true⟩
    ⟨10 * hour, 10 * hour, some (repeatedAdapter.fetchForecast [1] none), true, Int.le_refl _⟩).2

/-- Three records: one is stored, one deduplicated and one invalid. -/
theorem rows_balanced_repeated : (∀ c ∈ repeatedCollect.store.collections, c.Balanced) ∧
    (repeatedCollect.store.collections.map fun c =>
      (c.status, c.recordsReceived, c.snapshotsStored, c.snapshotsDeduplicated, c.snapshotsInvalid)) =
        [(.partialData, 3, 1, 1, 1)] := by
  have hreg : (registryOf repeatedAdapter).Shipped := by
    rintro slug adapter ⟨⟩
    exact .openMeteo _
  refine ⟨fun c hc => ?_, by decide +kernel⟩
  exact ((rows_balanced id Archive.empty (.openMeteo _) hreg).1 _ _ [1] none rfl c hc).resolve_left
    List.not_mem_nil

end

end ForecastIQ.Collection
