import ForecastIQ.Analysis.Eval
import ForecastIQ.Collection.Snapshot
import ForecastIQ.Foundations.Binary64
import ForecastIQ.Foundations.Table

/-!
# Collecting observations

`internal/collection/observe.go` on the table `observations`. A fetched hour that is new
is inserted; one that differs from the live row of its hour by more than the tolerances
is a correction: it is flagged `corrected`, the old row is pointed to it, and it is
inserted; any other is dropped. All of it is one transaction.

The partial unique index leaves at most one live row for each source, location and hour,
and inserting is `ON CONFLICT DO NOTHING` on it. The column types and `CHECK`s reject
some values; a rejected row fails the transaction.

A value is the decimal that its double prints as, which is also what a column is given. A
comparison is of the doubles (`round64`). The fetched times are compared with the stored ones
as they are, though a column drops what is below the microsecond.

`observe_ok` says everything a successful run does to the table, and
`ObservationStore.Valid` what holds of it after any number of runs.
-/

namespace ForecastIQ.Collection

open ForecastIQ.Foundations
open ForecastIQ.Analysis (ObservationType QualityFlag)

/-- One hour of a source, as its adapter returns it. -/
structure Reading where
  observationType : ObservationType
  observedAt : ℤ
  temperatureC : Option ℚ
  humidityPct : Option ℚ
  windSpeedMS : Option ℚ
  windDirectionDeg : Option ℚ
  pressureHPa : Option ℚ
  precipitationMM : Option ℚ
  condition : Option (ℤ × Condition)
  qualityFlag : QualityFlag
  deriving DecidableEq, Repr

/-- `Observation`. -/
structure Observation extends Reading where
  id : ℕ
  locationID : ℕ
  source : String
  supersededObservationID : Option ℕ
  deriving DecidableEq, Repr

/-- No correction has superseded the row. -/
def Observation.live (o : Observation) : Bool := o.supersededObservationID.isNone

/-- The index `observations_dedup`, which holds the live rows only. -/
def Observation.dedupKey (o : Observation) : Option (String × ℕ × ℤ) :=
  if o.live then some (o.source, o.locationID, o.observedAt) else none

/-- `floatDiffers`, on the doubles of the values. -/
def floatDiffers (a b : Option ℚ) (eps : ℚ) : Bool :=
  match a, b with
  | none, none => false
  | some a, some b =>
    let d := round64 (round64 a - round64 b)
    round64 eps < if d < 0 then -d else d
  | _, _ => true

/-- `DiffersFrom`, with the correction tolerances. -/
def Reading.differsFrom (o prev : Reading) : Bool :=
  floatDiffers o.temperatureC prev.temperatureC (1 / 10) ||
  floatDiffers o.precipitationMM prev.precipitationMM (5 / 100) ||
  floatDiffers o.humidityPct prev.humidityPct 1 ||
  floatDiffers o.windSpeedMS prev.windSpeedMS (1 / 10) ||
  floatDiffers o.windDirectionDeg prev.windDirectionDeg 1 ||
  floatDiffers o.pressureHPa prev.pressureHPa (5 / 10)

/-- The time and the values as the columns hold them. -/
def Reading.stored (r : Reading) : Reading :=
  { r with
    observedAt := storedTime r.observedAt
    temperatureC := r.temperatureC.map (roundScale 2)
    humidityPct := r.humidityPct.map (roundScale 2)
    windSpeedMS := r.windSpeedMS.map (roundScale 2)
    windDirectionDeg := r.windDirectionDeg.map (roundScale 1)
    pressureHPa := r.pressureHPa.map (roundScale 2)
    precipitationMM := r.precipitationMM.map (roundScale 2) }

/-- The value fits a `numeric` column with this many digits before the point. -/
def fitsDigits (digits : ℕ) (x : ℚ) : Bool := -(10 ^ digits) < x && x < 10 ^ digits

/-- The column types and `CHECK`s accept the row. -/
def Reading.accepted (r : Reading) : Bool :=
  let s := r.stored
  (s.temperatureC.all fun x => fitsDigits 3 x) &&
  (s.humidityPct.all fun x => fitsDigits 3 x && 0 ≤ x && x ≤ 100) &&
  (s.windSpeedMS.all fun x => fitsDigits 4 x && 0 ≤ x) &&
  (s.windDirectionDeg.all fun x => fitsDigits 4 x && 0 ≤ x && x ≤ 360) &&
  (s.pressureHPa.all fun x => fitsDigits 5 x) &&
  (s.precipitationMM.all fun x => fitsDigits 5 x && 0 ≤ x)

/-- The table, and the next identifier. -/
structure ObservationStore where
  rows : List Observation
  nextID : ℕ
  deriving DecidableEq, Repr

/-- The store before anything was observed. -/
def ObservationStore.empty : ObservationStore := ⟨[], 0⟩

/-- `ListCurrentByWindow`: the live rows of a source and location in a closed window, whose ends are
given as the column holds times. -/
def ObservationStore.listCurrentByWindow (s : ObservationStore) (source : String) (locationID : ℕ) (start stop : ℤ) :
    List Observation :=
  s.rows.filter fun o =>
    o.source = source ∧ o.locationID = locationID ∧ storedTime start ≤ o.observedAt ∧
      o.observedAt ≤ storedTime stop ∧ o.live = true

/-- `correction`: the row to supersede, and the row that does. -/
structure Correction where
  oldID : ℕ
  oldObservedAt : ℤ
  newID : ℕ
  deriving DecidableEq, Repr

/-- What happens to one fetched row. -/
inductive Decision where
  | insert (o : Observation)
  | correct (prev o : Observation)
  | drop

/-- The switch of `Observe`; of the existing rows of the hour, the last one counts. -/
def decision (existing : List Observation) (o : Observation) : Decision :=
  match (existing.filter fun e => e.observedAt = o.observedAt).getLast? with
  | none => .insert o
  | some prev =>
    if o.toReading.differsFrom prev.toReading then .correct prev { o with qualityFlag := .corrected } else .drop

/-- The row to insert. -/
def Decision.row? : Decision → Option Observation
  | .insert o => some o
  | .correct _ o => some o
  | .drop => none

/-- The correction to make. -/
def Decision.correction? : Decision → Option Correction
  | .correct prev o => some ⟨prev.id, prev.observedAt, o.id⟩
  | _ => none

/-- The row after a correction. -/
def Correction.mark (c : Correction) (o : Observation) : Observation :=
  if o.id = c.oldID ∧ o.observedAt = c.oldObservedAt ∧ o.live = true then
    { o with supersededObservationID := some c.newID }
  else o

/-- `Supersede`: an error when it finds no row. -/
def supersede (rows : List Observation) (c : Correction) : Option (List Observation) :=
  if rows.any fun o => o.id = c.oldID ∧ o.observedAt = c.oldObservedAt ∧ o.live = true then some (rows.map c.mark)
  else none

/-- `InsertBatch`; `none` when a column rejects a value. -/
def insertBatch (rows new : List Observation) : Option (List Observation) :=
  if new.all fun o => o.accepted then
    some (insertAll Observation.dedupKey rows (new.map fun o => { o with toReading := o.stored }))
  else none

/-- Why a run stores nothing. -/
inductive ObserveError where
  | inactive
  | fetch
  | persist
  deriving DecidableEq, Repr

/-- What the adapter returns, as rows with new identifiers. -/
def fetchedRows (first locationID : ℕ) (source : String) (readings : List Reading) : List Observation :=
  readings.zipIdx.map fun p =>
    { p.1 with id := first + p.2, locationID := locationID, source := source, supersededObservationID := none }

/-- `Observe`; the fetch is `none` when it fails or its outcome is not a success. -/
def observe (active : Bool) (source : String) (locationID : ℕ) (windowStart windowEnd : ℤ)
    (fetched : Option (List Reading)) (s : ObservationStore) : Except ObserveError (ℕ × ObservationStore) :=
  if !active then .error .inactive
  else
    match fetched with
    | none => .error .fetch
    | some readings =>
      let existing := s.listCurrentByWindow source locationID windowStart windowEnd
      let decisions := (fetchedRows s.nextID locationID source readings).map (decision existing)
      match (decisions.filterMap Decision.correction?).foldlM supersede s.rows with
      | none => .error .persist
      | some rows =>
        match insertBatch rows (decisions.filterMap Decision.row?) with
        | none => .error .persist
        | some rows' => .ok (rows'.length - rows.length, ⟨rows', s.nextID + readings.length⟩)

/-! ### What a run does -/

/-- The row is as it was, or was live and one of the corrections superseded it. -/
def Touched (newIDs : List ℕ) (o o' : Observation) : Prop :=
  o' = o ∨ o.live = true ∧ ∃ n ∈ newIDs, o' = { o with supersededObservationID := some n }

theorem Touched.mark {newIDs : List ℕ} {o o' : Observation} (h : Touched newIDs o o') {c : Correction}
    (hc : c.newID ∈ newIDs) : Touched newIDs o (c.mark o') := by
  rcases h with rfl | ⟨hlive, n, hn, rfl⟩
  · rw [Correction.mark]
    split_ifs with hm
    · exact .inr ⟨hm.2.2, c.newID, hc, rfl⟩
    · exact .inl rfl
  · -- a superseded row is not marked again
    refine .inr ⟨hlive, n, hn, ?_⟩
    rw [Correction.mark, if_neg]
    rintro ⟨-, -, hno⟩
    cases hno

/-- The corrections together change each row at most once. -/
theorem foldlM_supersede {corrections : List Correction} {rows rows' : List Observation}
    (h : corrections.foldlM supersede rows = some rows') :
    ∃ f : Observation → Observation, rows' = rows.map f ∧ ∀ o, Touched (corrections.map Correction.newID) o (f o) := by
  suffices hgen : ∀ (l : List Correction) (g : Observation → Observation),
      (∀ c ∈ l, c ∈ corrections) → (∀ o, Touched (corrections.map Correction.newID) o (g o)) →
      l.foldlM supersede (rows.map g) = some rows' →
      ∃ f : Observation → Observation, rows' = rows.map f ∧ ∀ o, Touched (corrections.map Correction.newID) o (f o) from
    hgen corrections id (fun _ hc => hc) (fun _ => .inl rfl) (by rw [List.map_id]; exact h)
  intro l
  induction l with
  | nil =>
    intro g _ hg hl
    cases hl
    exact ⟨g, rfl, hg⟩
  | cons c l ih =>
    intro g hsub hg hl
    rw [List.foldlM_cons] at hl
    obtain ⟨mid, hmid, hl⟩ := Option.bind_eq_some_iff.mp hl
    rw [supersede] at hmid
    split_ifs at hmid
    cases hmid
    rw [List.map_map] at hl
    have hc : c.newID ∈ corrections.map Correction.newID := List.mem_map.mpr ⟨c, hsub c List.mem_cons_self, rfl⟩
    exact ih (c.mark ∘ g) (fun d hd => hsub d (List.mem_cons_of_mem _ hd)) (fun o => (hg o).mark hc) hl

/-- The existing row that a fetched row of the hour is compared with. -/
def lastOfHour (existing : List Observation) (hour : ℤ) : Option Observation :=
  (existing.filter fun e => e.observedAt = hour).getLast?

theorem mem_of_lastOfHour {existing : List Observation} {hour : ℤ} {prev : Observation}
    (h : lastOfHour existing hour = some prev) : prev ∈ existing ∧ prev.observedAt = hour := by
  simpa using List.mem_filter.mp (List.mem_of_getLast? h)

/-- A decision is for a new hour, or it goes by the existing row of the hour. -/
theorem decision_cases (existing : List Observation) (o : Observation) :
    (lastOfHour existing o.observedAt = none ∧ decision existing o = .insert o) ∨
      ∃ prev, lastOfHour existing o.observedAt = some prev ∧
        ((o.differsFrom prev.toReading = true ∧
            decision existing o = .correct prev { o with qualityFlag := .corrected }) ∨
          (o.differsFrom prev.toReading = false ∧ decision existing o = .drop)) := by
  cases h : lastOfHour existing o.observedAt with
  | none =>
    refine .inl ⟨rfl, ?_⟩
    rw [lastOfHour] at h
    rw [decision, h]
  | some prev =>
    refine .inr ⟨prev, rfl, ?_⟩
    rw [lastOfHour] at h
    simp only [decision, h]
    split_ifs with hd
    · exact .inl ⟨hd, rfl⟩
    · exact .inr ⟨Bool.eq_false_iff.mpr hd, rfl⟩

/-- A decided row is the fetched one, up to its flag. -/
theorem decision_row {existing : List Observation} {o r : Observation} (h : (decision existing o).row? = some r) :
    ∃ flag, r = { o with qualityFlag := flag } := by
  rcases decision_cases existing o with ⟨-, he⟩ | ⟨prev, -, ⟨-, he⟩ | ⟨-, he⟩⟩
  · rw [he] at h
    cases h
    exact ⟨o.qualityFlag, rfl⟩
  · rw [he] at h
    cases h
    exact ⟨.corrected, rfl⟩
  · rw [he] at h
    cases h

/-- A correction is of the existing row of the hour, and the row that makes it is flagged. -/
theorem decision_correction {existing : List Observation} {o : Observation} {c : Correction}
    (h : (decision existing o).correction? = some c) :
    ∃ prev, lastOfHour existing o.observedAt = some prev ∧ c = ⟨prev.id, prev.observedAt, o.id⟩ ∧
      (decision existing o).row? = some { o with qualityFlag := .corrected } := by
  rcases decision_cases existing o with ⟨-, he⟩ | ⟨prev, hprev, ⟨-, he⟩ | ⟨-, he⟩⟩
  · rw [he] at h
    cases h
  · rw [he] at h ⊢
    cases h
    exact ⟨prev, hprev, rfl, rfl⟩
  · rw [he] at h
    cases h

/-- Where an existing row has the hour, a decided row makes a correction. -/
theorem correction_of_row {existing : List Observation} {o r prev : Observation}
    (hprev : lastOfHour existing o.observedAt = some prev) (h : (decision existing o).row? = some r) :
    (decision existing o).correction? = some ⟨prev.id, prev.observedAt, o.id⟩ := by
  rcases decision_cases existing o with ⟨hnone, -⟩ | ⟨prev', hprev', ⟨-, he⟩ | ⟨-, he⟩⟩
  · rw [hprev] at hnone
    cases hnone
  · rw [hprev] at hprev'
    cases hprev'
    rw [he]
    rfl
  · rw [he] at h
    cases h

/-- What is picked from a list keeps the order of what it came from. -/
theorem sublist_map_filterMap {α β γ : Type*} {f : α → Option β} {g : β → γ} {h : α → γ}
    (hf : ∀ a b, f a = some b → g b = h a) (l : List α) : List.Sublist ((l.filterMap f).map g) (l.map h) := by
  induction l with
  | nil => exact List.Sublist.refl _
  | cons a l ih =>
    rw [List.filterMap_cons]
    cases hb : f a with
    | none => exact ih.cons _
    | some b =>
      simp only [List.map_cons]
      rw [hf a b hb]
      exact ih.cons_cons _

/-- The decided rows have identifiers of the fetched ones, in order. -/
theorem sublist_decided (existing fetched : List Observation) :
    List.Sublist ((fetched.filterMap (Decision.row? ∘ decision existing)).map fun o => o.id)
      (fetched.map fun o => o.id) :=
  sublist_map_filterMap (fun _ _ h => by obtain ⟨flag, rfl⟩ := decision_row h; rfl) fetched

theorem map_id_fetchedRows (first locationID : ℕ) (source : String) (readings : List Reading) :
    (fetchedRows first locationID source readings).map (fun o => o.id) = List.range' first readings.length := by
  have hsnd : (fetchedRows first locationID source readings).map (fun o => o.id) =
      (readings.zipIdx.map Prod.snd).map (first + ·) := by
    rw [fetchedRows, List.map_map, List.map_map]
    rfl
  rw [hsnd, List.zipIdx_map_snd, List.map_add_range', Nat.add_zero]

theorem mem_fetchedRows {first locationID : ℕ} {source : String} {readings : List Reading} {o : Observation}
    (h : o ∈ fetchedRows first locationID source readings) :
    (first ≤ o.id ∧ o.id < first + readings.length) ∧ o.source = source ∧ o.locationID = locationID ∧
      o.supersededObservationID = none := by
  have hid : o.id ∈ (fetchedRows first locationID source readings).map fun o => o.id := List.mem_map_of_mem h
  rw [map_id_fetchedRows, List.mem_range'_1] at hid
  obtain ⟨p, -, rfl⟩ := List.mem_map.mp h
  exact ⟨hid, rfl, rfl, rfl⟩

theorem insertBatch_eq_some {rows new rows' : List Observation} :
    insertBatch rows new = some rows' ↔ (∀ o ∈ new, o.accepted = true) ∧
      rows' = insertAll Observation.dedupKey rows (new.map fun o => { o with toReading := o.stored }) := by
  rw [insertBatch, ← List.all_eq_true]
  split_ifs with hall
  · rw [Option.some.injEq, eq_comm]
    exact (and_iff_right hall).symm
  · exact ⟨(fun h => nomatch h), fun h => absurd h.1 hall⟩

/-- A run succeeds when every correction finds its row and every row to insert is accepted. -/
theorem observe_eq_ok {active : Bool} {source : String} {locationID : ℕ} {windowStart windowEnd : ℤ}
    {fetched : Option (List Reading)} {s s' : ObservationStore} {n : ℕ} :
    observe active source locationID windowStart windowEnd fetched s = .ok (n, s') ↔
      active = true ∧ ∃ readings decisions rows, fetched = some readings ∧
        decisions = (fetchedRows s.nextID locationID source readings).map
          (decision (s.listCurrentByWindow source locationID windowStart windowEnd)) ∧
        (decisions.filterMap Decision.correction?).foldlM supersede s.rows = some rows ∧
        (∀ o ∈ decisions.filterMap Decision.row?, o.accepted = true) ∧
        s' = ⟨insertAll Observation.dedupKey rows
          ((decisions.filterMap Decision.row?).map fun o => { o with toReading := o.stored }),
          s.nextID + readings.length⟩ ∧
        n = s'.rows.length - rows.length := by
  constructor
  · intro h
    simp only [observe] at h
    split_ifs at h with hactive
    split at h
    · cases h
    rename_i readings
    split at h
    · cases h
    rename_i rows hsup
    split at h
    · cases h
    rename_i rows' hins
    cases h
    obtain ⟨hacc, rfl⟩ := insertBatch_eq_some.mp hins
    exact ⟨by simpa using hactive, readings, _, rows, rfl, rfl, hsup, hacc, rfl, rfl⟩
  · rintro ⟨rfl, readings, -, rows, rfl, rfl, hsup, hacc, rfl, rfl⟩
    simp only [observe, hsup, insertBatch_eq_some.mpr ⟨hacc, rfl⟩]
    rfl

/-- A row to store comes of a fetched one. -/
theorem exists_fetched_of_mem {existing fetched : List Observation} {o : Observation}
    (h : o ∈ ((fetched.map (decision existing)).filterMap Decision.row?).map
      fun o : Observation => { o with toReading := o.stored }) :
    ∃ src ∈ fetched, ∃ r, (decision existing src).row? = some r ∧ o.id = src.id ∧
      o.supersededObservationID = src.supersededObservationID ∧ o.qualityFlag = r.qualityFlag := by
  obtain ⟨r, hr, rfl⟩ := List.mem_map.mp h
  rw [List.filterMap_map] at hr
  obtain ⟨src, hsrc, hrow⟩ := List.mem_filterMap.mp hr
  obtain ⟨flag, rfl⟩ := decision_row hrow
  exact ⟨src, hsrc, _, hrow, rfl, rfl, rfl⟩

/-- Everything a successful run does to the table: it changes rows as `Touched` says and appends
rows with new identifiers; the row that a correction points to is flagged, if it was inserted. -/
theorem observe_ok {active : Bool} {source : String} {locationID : ℕ} {windowStart windowEnd : ℤ}
    {fetched : Option (List Reading)} {s s' : ObservationStore} {n : ℕ}
    (h : observe active source locationID windowStart windowEnd fetched s = .ok (n, s')) :
    s.nextID ≤ s'.nextID ∧ ∃ (f : Observation → Observation) (newIDs : List ℕ) (new : List Observation),
      s'.rows = s.rows.map f ++ new ∧ (∀ o, Touched newIDs o (f o)) ∧
      (∀ o ∈ new, s.nextID ≤ o.id ∧ o.id < s'.nextID ∧ o.live = true) ∧ (new.map fun o => o.id).Nodup ∧
      ∀ i ∈ newIDs, s.nextID ≤ i ∧ i < s'.nextID ∧ ∀ o ∈ new, o.id = i → o.qualityFlag = .corrected := by
  obtain ⟨-, readings, -, rows, rfl, rfl, hsup, -, rfl, -⟩ := observe_eq_ok.mp h
  have hmem : ∀ o ∈ fetchedRows s.nextID locationID source readings, _ := fun o ho => mem_fetchedRows ho
  have hnodup : ((fetchedRows s.nextID locationID source readings).map fun o => o.id).Nodup := by
    rw [map_id_fetchedRows]
    exact List.nodup_range' ..
  generalize fetchedRows s.nextID locationID source readings = fetchedRow at hsup hmem hnodup ⊢
  generalize s.listCurrentByWindow source locationID windowStart windowEnd = existing at hsup ⊢
  obtain ⟨f, rfl, hf⟩ := foldlM_supersede hsup
  obtain ⟨added, hadded, hsub⟩ := insertAll_eq_append Observation.dedupKey (s.rows.map f)
    (((fetchedRow.map (decision existing)).filterMap Decision.row?).map
      fun o : Observation => { o with toReading := o.stored })
  refine ⟨Nat.le_add_right _ _, f, _, added, hadded, hf, fun o ho => ?_, (hsub.map _).nodup ?_, fun i hi => ?_⟩
  · obtain ⟨src, hsrc, -, -, hid, hnone, -⟩ := exists_fetched_of_mem (hsub.subset ho)
    obtain ⟨hrange, -, -, hsrcnone⟩ := hmem src hsrc
    rw [hid, Observation.live, hnone, hsrcnone]
    exact ⟨hrange.1, hrange.2, rfl⟩
  · rw [List.map_map, List.filterMap_map]
    exact (sublist_decided existing fetchedRow).nodup hnodup
  · obtain ⟨c, hc, rfl⟩ := List.mem_map.mp hi
    rw [List.filterMap_map] at hc
    obtain ⟨src, hsrc, hcorr⟩ := List.mem_filterMap.mp hc
    obtain ⟨prev, -, rfl, hflag⟩ := decision_correction hcorr
    refine ⟨(hmem src hsrc).1.1, (hmem src hsrc).1.2, fun o ho hoid => ?_⟩
    obtain ⟨src', hsrc', r, hrow, hid', -, hq⟩ := exists_fetched_of_mem (hsub.subset ho)
    obtain rfl := List.inj_on_of_nodup_map hnodup hsrc' hsrc (hid'.symm.trans hoid)
    rw [hrow] at hflag
    cases hflag
    exact hq

/-! ### The table after any number of runs -/

/-- Identifiers are unique, and a row that corrects another one is flagged. -/
structure ObservationStore.Valid (s : ObservationStore) : Prop where
  id_lt : ∀ o ∈ s.rows, o.id < s.nextID
  nodup : (s.rows.map fun o => o.id).Nodup
  superseded_lt : ∀ o ∈ s.rows, ∀ n, o.supersededObservationID = some n → n < s.nextID
  corrected : ∀ o ∈ s.rows, ∀ n, o.supersededObservationID = some n →
    ∀ o' ∈ s.rows, o'.id = n → o'.qualityFlag = .corrected

theorem ObservationStore.Valid.empty : ObservationStore.empty.Valid where
  id_lt := by simp [ObservationStore.empty]
  nodup := by simp [ObservationStore.empty]
  superseded_lt := by simp [ObservationStore.empty]
  corrected := by simp [ObservationStore.empty]

theorem Touched.same {newIDs : List ℕ} {o o' : Observation} (h : Touched newIDs o o') :
    o'.id = o.id ∧ o'.toReading = o.toReading := by
  rcases h with rfl | ⟨-, n, -, rfl⟩
  · exact ⟨rfl, rfl⟩
  · exact ⟨rfl, rfl⟩

section Observed

variable {active : Bool} {source : String} {locationID : ℕ} {windowStart windowEnd : ℤ}
  {fetched : Option (List Reading)} {s s' : ObservationStore} {n : ℕ}

/-- A pointer after a run is one from before, or one to a new row, which is flagged. -/
theorem ObservationStore.Valid.pointer (hv : s.Valid)
    (h : Collection.observe active source locationID windowStart windowEnd fetched s = .ok (n, s')) {o : Observation}
    (ho : o ∈ s'.rows) {m : ℕ} (hm : o.supersededObservationID = some m) :
    (∃ p ∈ s.rows, p.supersededObservationID = some m) ∨
      m < s'.nextID ∧ ∀ o' ∈ s'.rows, o'.id = m → o'.qualityFlag = .corrected := by
  obtain ⟨-, f, newIDs, new, hrows, hf, hnew, -, hids⟩ := observe_ok h
  rw [hrows] at ho ⊢
  rcases List.mem_append.mp ho with ho | ho
  · obtain ⟨p, hp, rfl⟩ := List.mem_map.mp ho
    rcases hf p with he | ⟨-, i, hi, he⟩
    · rw [he] at hm
      exact .inl ⟨p, hp, hm⟩
    · rw [he] at hm
      cases hm
      refine .inr ⟨(hids _ hi).2.1, fun o' ho' hid => ?_⟩
      rcases List.mem_append.mp ho' with ho' | ho'
      · obtain ⟨q, hq, rfl⟩ := List.mem_map.mp ho'
        have h1 := hv.id_lt q hq
        have h2 := (hids _ hi).1
        rw [(hf q).same.1] at hid
        omega
      · exact (hids _ hi).2.2 o' ho' hid
  · have hlive := (hnew o ho).2.2
    rw [Observation.live, hm] at hlive
    cases hlive

/-- A run keeps the table valid. -/
theorem ObservationStore.Valid.observe (hv : s.Valid)
    (h : Collection.observe active source locationID windowStart windowEnd fetched s = .ok (n, s')) : s'.Valid := by
  obtain ⟨hle, f, newIDs, new, hrows, hf, hnew, hnodup, -⟩ := observe_ok h
  refine ⟨fun o ho => ?_, ?_, fun o ho m hm => ?_, fun o ho m hm o' ho' hid => ?_⟩
  · rw [hrows] at ho
    rcases List.mem_append.mp ho with ho | ho
    · obtain ⟨p, hp, rfl⟩ := List.mem_map.mp ho
      rw [(hf p).same.1]
      exact Nat.lt_of_lt_of_le (hv.id_lt p hp) hle
    · exact (hnew o ho).2.1
  · have hsame : (fun o : Observation => o.id) ∘ f = fun o => o.id := funext fun o => (hf o).same.1
    rw [hrows, List.map_append, List.map_map, hsame, List.nodup_append]
    refine ⟨hv.nodup, hnodup, ?_⟩
    rintro i hi j hj rfl
    obtain ⟨p, hp, rfl⟩ := List.mem_map.mp hi
    obtain ⟨q, hq, hid⟩ := List.mem_map.mp hj
    have h1 := hv.id_lt p hp
    have h2 := (hnew q hq).1
    omega
  · rcases hv.pointer h ho hm with ⟨p, hp, hm⟩ | ⟨hlt, -⟩
    · exact Nat.lt_of_lt_of_le (hv.superseded_lt p hp m hm) hle
    · exact hlt
  · rcases hv.pointer h ho hm with ⟨p, hp, hm⟩ | ⟨-, hflag⟩
    · have hlt := hv.superseded_lt p hp m hm
      rw [hrows] at ho'
      rcases List.mem_append.mp ho' with ho' | ho'
      · obtain ⟨q, hq, rfl⟩ := List.mem_map.mp ho'
        rw [(hf q).same.2]
        exact hv.corrected p hp m hm q hq ((hf q).same.1.symm.trans hid)
      · have := (hnew o' ho').1
        omega
    · exact hflag o' ho' hid

/-- A row that is live after a run, and was there before it, was live and the same. -/
theorem live_of_observe (h : observe active source locationID windowStart windowEnd fetched s = .ok (n, s'))
    {o : Observation} (ho : o ∈ s'.rows) (hlive : o.live = true) (hid : o.id < s.nextID) : o ∈ s.rows := by
  obtain ⟨-, f, newIDs, new, hrows, hf, hnew, -⟩ := observe_ok h
  rw [hrows] at ho
  rcases List.mem_append.mp ho with ho | ho
  · obtain ⟨p, hp, rfl⟩ := List.mem_map.mp ho
    rcases hf p with he | ⟨-, i, -, he⟩
    · rw [he]
      exact hp
    · rw [he] at hlive
      cases hlive
  · have := (hnew o ho).1
    omega

/-- Every row stays, with its identifier and what was read. -/
theorem kept_of_observe (h : observe active source locationID windowStart windowEnd fetched s = .ok (n, s'))
    {o : Observation} (ho : o ∈ s.rows) : ∃ o' ∈ s'.rows, o'.id = o.id ∧ o'.toReading = o.toReading := by
  obtain ⟨-, f, newIDs, new, hrows, hf, -⟩ := observe_ok h
  refine ⟨f o, ?_, (hf o).same⟩
  rw [hrows]
  exact List.mem_append_left _ (List.mem_map.mpr ⟨o, ho, rfl⟩)

end Observed

end ForecastIQ.Collection
