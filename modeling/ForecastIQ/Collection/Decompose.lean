import ForecastIQ.Collection.Snapshot
import ForecastIQ.Foundations.Grouping

/-!
# What an adapter returns

`internal/collection/ports` and the part the forecast adapters share: a provider's
payload becomes a list of rows, each of which is a snapshot or a reason for which it
could not be built, and the rows become a result with its counts and outcome. Both
adapters run the same loop and the same classification (`decomposeRows`); they differ
in how a payload gives rows.

`decomposeRows_eq` says what the loop computes: the accepted snapshots in order, the
number of the others, and an outcome that depends on these two numbers only.
-/

namespace ForecastIQ.Collection

open ForecastIQ.Foundations

/-- `Outcome`: how a provider call ended. -/
inductive Outcome where
  | success
  | partialData
  | failed
  | rateLimited
  | timeout
  | authFailed
  deriving DecidableEq, Repr

/-- `ErrorCode`: the failure classes, with the code `classify` gives a partial collection. -/
inductive ErrorCode where
  | timeout
  | provider5xx
  | rateLimited
  | schemaDrift
  | networkLocal
  | dbError
  | payloadWriteFailed
  | circuitOpen
  | invalidCredentials
  | partialValidation
  deriving DecidableEq, Repr

/-- The text of a code. -/
def ErrorCode.text : ErrorCode → String
  | .timeout => "timeout"
  | .provider5xx => "provider_5xx"
  | .rateLimited => "rate_limited"
  | .schemaDrift => "schema_drift"
  | .networkLocal => "network_local"
  | .dbError => "db_error"
  | .payloadWriteFailed => "payload_write_failed"
  | .circuitOpen => "circuit_open"
  | .invalidCredentials => "invalid_credentials"
  | .partialValidation => "partial_validation"

/-- `ProviderError`: a classified transport failure; status `0` when none is known. -/
structure ProviderError where
  code : ErrorCode
  httpStatus : ℕ
  deriving DecidableEq, Repr

/-- `ProviderError.Error`. -/
def ProviderError.message (e : ProviderError) : String :=
  if 0 < e.httpStatus then "provider error: " ++ e.code.text ++ " (status " ++ toString e.httpStatus ++ ")"
  else "provider error: " ++ e.code.text

/-- `ProviderError.Outcome`. -/
def ProviderError.outcome (e : ProviderError) : Outcome :=
  match e.code with
  | .timeout => .timeout
  | .rateLimited => .rateLimited
  | .invalidCredentials => .authFailed
  | _ => .failed

/-- The reasons an adapter reports. -/
inductive RowReason where
  /-- The payload is not valid JSON. -/
  | notJSON (err : String)
  /-- The field `hourly.time` is missing or empty. -/
  | missingHourlyTime
  /-- The field `hourly` is missing or empty. -/
  | missingHourly
  /-- The timestamp of a row does not parse. -/
  | invalidTargetTime (row : ℕ) (text : String)
  /-- A row has no usable `dt`. -/
  | missingDt (row : ℕ)
  /-- A row failed `Validate`. -/
  | rejected (row : ℕ) (reasons : List String)
  deriving DecidableEq, Repr

/-- The text of a reason; `quote` is `strconv.Quote`. -/
def RowReason.text (quote : String → String) : RowReason → String
  | .notJSON err => "payload is not valid JSON: " ++ err
  | .missingHourlyTime => "required field hourly.time is missing or empty"
  | .missingHourly => "required field hourly is missing or empty"
  | .invalidTargetTime row text => "row " ++ toString row ++ ": invalid target_time " ++ quote text
  | .missingDt row => "row " ++ toString row ++ ": missing or invalid dt"
  | .rejected row reasons => "row " ++ toString row ++ ": " ++ ", ".intercalate reasons

/-- `ForecastResult`: what the adapter made of one provider call. -/
structure ForecastResult where
  rawPayload : List UInt8
  modelRunTime : Option ℤ
  /-- The valid rows only. -/
  snapshots : List ForecastSnapshot
  recordsReceived : ℕ
  invalidCount : ℕ
  invalidReasons : List RowReason
  /-- The provider condition codes without a canonical one, once for each row that had one. -/
  unmappedConditions : List ℤ
  outcome : Outcome
  errorCode : Option ErrorCode
  /-- The failure behind a result without a usable payload. -/
  err : Option ProviderError
  deriving DecidableEq, Repr

/-- The result before the payload is read. Its outcome is always written before it is returned. -/
def ForecastResult.ofPayload (rawPayload : List UInt8) : ForecastResult :=
  ⟨rawPayload, none, [], 0, 0, [], [], .failed, none, none⟩

/-- The result of a provider call that failed. Neither adapter reports a model run time. -/
def ForecastResult.ofError (rawPayload : List UInt8) (e : ProviderError) : ForecastResult :=
  { ForecastResult.ofPayload rawPayload with outcome := e.outcome, errorCode := some e.code, err := some e }

/-- A payload that is rejected as a whole. -/
def ForecastResult.drift (result : ForecastResult) (reason : RowReason) : ForecastResult :=
  { result with
    outcome := .failed
    errorCode := some .schemaDrift
    invalidReasons := result.invalidReasons ++ [reason] }

/-- A row an adapter could build: the snapshot, and its condition code when that is unmapped. -/
structure BuiltRow where
  snapshot : ForecastSnapshot
  unmapped : Option ℤ
  deriving DecidableEq, Repr

/-- The body of the loop of `decompose`, on row `i`. -/
def ForecastResult.addRow (result : ForecastResult) (row : Except RowReason BuiltRow × ℕ) : ForecastResult :=
  match row.1 with
  | .error reason =>
    { result with invalidCount := result.invalidCount + 1, invalidReasons := result.invalidReasons ++ [reason] }
  | .ok built =>
    -- the code is tallied while the row is built, before its ranges are checked
    let result := { result with unmappedConditions := result.unmappedConditions ++ built.unmapped.toList }
    if built.snapshot.validate = [] then { result with snapshots := result.snapshots ++ [built.snapshot] }
    else
      { result with
        invalidCount := result.invalidCount + 1
        invalidReasons := result.invalidReasons ++ [.rejected row.2 built.snapshot.validate] }

/-- The classification at the end of `decompose`: too many invalid rows are schema drift. -/
def ForecastResult.classified (result : ForecastResult) (n : ℕ) : ForecastResult :=
  if n = 0 then { result with outcome := .failed, errorCode := some .schemaDrift }
  else if n < result.invalidCount * 2 then { result with outcome := .failed, errorCode := some .schemaDrift }
  else if 0 < result.invalidCount then { result with outcome := .partialData }
  else { result with outcome := .success }

/-- The part of `decompose` after the payload has given its rows. -/
def decomposeRows (rows : List (Except RowReason BuiltRow)) (result : ForecastResult) : ForecastResult :=
  (rows.zipIdx.foldl ForecastResult.addRow { result with recordsReceived := rows.length }).classified rows.length

/-! ### What the loop computes -/

/-- The snapshot of a row that was built and is valid. -/
def acceptRow : Except RowReason BuiltRow → Option ForecastSnapshot
  | .error _ => none
  | .ok built => if built.snapshot.validate = [] then some built.snapshot else none

theorem ForecastResult.addRow_eq (result : ForecastResult) (row : Except RowReason BuiltRow × ℕ) :
    (result.addRow row).snapshots = result.snapshots ++ (acceptRow row.1).toList ∧
      (result.addRow row).invalidCount + (acceptRow row.1).toList.length = result.invalidCount + 1 ∧
      (result.addRow row).recordsReceived = result.recordsReceived ∧
      (result.addRow row).modelRunTime = result.modelRunTime := by
  obtain ⟨row, i⟩ := row
  cases row with
  | error reason => simp [addRow, acceptRow]
  | ok built =>
    simp only [addRow, acceptRow]
    split_ifs <;> simp

theorem foldl_addRow (rows : List (Except RowReason BuiltRow)) (k : ℕ) (result : ForecastResult) :
    ((rows.zipIdx k).foldl ForecastResult.addRow result).snapshots =
        result.snapshots ++ rows.filterMap acceptRow ∧
      ((rows.zipIdx k).foldl ForecastResult.addRow result).invalidCount + (rows.filterMap acceptRow).length =
        result.invalidCount + rows.length ∧
      ((rows.zipIdx k).foldl ForecastResult.addRow result).recordsReceived = result.recordsReceived ∧
      ((rows.zipIdx k).foldl ForecastResult.addRow result).modelRunTime = result.modelRunTime := by
  obtain ⟨h1, h2⟩ := foldl_accept (f := ForecastResult.snapshots) (g := ForecastResult.invalidCount)
    (fun r row => (r.addRow_eq row).1) (fun r row => (r.addRow_eq row).2.1) rows k result
  exact ⟨h1, h2, foldl_unchanged (fun r row => (r.addRow_eq row).2.2.1) _ _,
    foldl_unchanged (fun r row => (r.addRow_eq row).2.2.2) _ _⟩

/-- The counts and the outcome of the rows of a payload. -/
theorem decomposeRows_eq (rows : List (Except RowReason BuiltRow)) (raw : List UInt8) :
    (decomposeRows rows (.ofPayload raw)).snapshots = rows.filterMap acceptRow ∧
      (decomposeRows rows (.ofPayload raw)).recordsReceived = rows.length ∧
      (decomposeRows rows (.ofPayload raw)).invalidCount + (rows.filterMap acceptRow).length = rows.length ∧
      (decomposeRows rows (.ofPayload raw)).modelRunTime = none := by
  obtain ⟨h1, h2, h3, h4⟩ := foldl_addRow rows 0 { ForecastResult.ofPayload raw with recordsReceived := rows.length }
  have hc : ∀ (r : ForecastResult) n, (r.classified n).snapshots = r.snapshots ∧
      (r.classified n).recordsReceived = r.recordsReceived ∧ (r.classified n).invalidCount = r.invalidCount ∧
      (r.classified n).modelRunTime = r.modelRunTime := by
    intro r n
    unfold ForecastResult.classified
    split_ifs <;> exact ⟨rfl, rfl, rfl, rfl⟩
  obtain ⟨c1, c2, c3, c4⟩ := hc (rows.zipIdx.foldl ForecastResult.addRow
    { ForecastResult.ofPayload raw with recordsReceived := rows.length }) rows.length
  rw [decomposeRows, c1, c2, c3, c4, h1, h3, h4]
  refine ⟨rfl, rfl, ?_, rfl⟩
  rw [h2]
  simp [ForecastResult.ofPayload]

/-- The rows leave the payload alone. -/
theorem decomposeRows_rawPayload (rows : List (Except RowReason BuiltRow)) (result : ForecastResult) :
    (decomposeRows rows result).rawPayload = result.rawPayload := by
  have hrow : ∀ (r : ForecastResult) row, (r.addRow row).rawPayload = r.rawPayload := by
    rintro r ⟨row, i⟩
    cases row with
    | error reason => rfl
    | ok built =>
      simp only [ForecastResult.addRow]
      split_ifs <;> rfl
  rw [decomposeRows, ForecastResult.classified]
  split_ifs <;> exact foldl_unchanged hrow _ _

/-- The outcome, from the number of rows and the number of accepted ones. -/
theorem decomposeRows_outcome (rows : List (Except RowReason BuiltRow)) (raw : List UInt8) :
    (decomposeRows rows (.ofPayload raw)).outcome =
      if rows.length = 0 ∨ rows.length < ((rows.length - (rows.filterMap acceptRow).length) * 2) then .failed
      else if (rows.filterMap acceptRow).length < rows.length then .partialData else .success := by
  obtain ⟨-, h2, -, -⟩ := foldl_addRow rows 0 { ForecastResult.ofPayload raw with recordsReceived := rows.length }
  have h0 : ({ ForecastResult.ofPayload raw with recordsReceived := rows.length } : ForecastResult).invalidCount = 0 :=
    rfl
  rw [decomposeRows]
  generalize rows.zipIdx.foldl ForecastResult.addRow _ = r at h2 ⊢
  rw [h0, Nat.zero_add] at h2
  have hi : rows.length - (rows.filterMap acceptRow).length = r.invalidCount := by omega
  have hlt : (rows.filterMap acceptRow).length < rows.length ↔ 0 < r.invalidCount := by omega
  simp only [ForecastResult.classified, hi, hlt]
  by_cases h1 : rows.length = 0
  · simp [h1]
  · by_cases h3 : rows.length < r.invalidCount * 2
    · simp [h1, h3]
    · simp only [h1, h3, if_false, or_self]
      split_ifs <;> rfl

end ForecastIQ.Collection
