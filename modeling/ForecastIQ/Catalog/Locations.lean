import ForecastIQ.Api.Cache
import ForecastIQ.Foundations.Keyset
import Mathlib.Data.Rat.Floor

/-!
# Locations and near duplicates

`LocationService.CreateLocation` refuses a location that is nearer to an active one than the
duplicate threshold, unless the caller sets `allow_near_duplicate`. `SetLocationStatus`
disables a location and enables it again, and looks at no other location.

The distance is any function, symmetric where that matters. Coordinates are exact; the
columns round them to six decimals, after the comparison. Whether a location was created
with the flag is known from the audit event of its creation only; here the row carries it.

Two active locations that are near and both without the flag clash. Rows that do not clash
are `Separated`, and the lemmas say when an insert and a change of status keep them so.
-/

namespace ForecastIQ.Catalog

open ForecastIQ.Foundations ForecastIQ.Foundations.FormEncoding

/-! ### Locations -/

/-- `Status`; `other` is any other text. -/
inductive LocationStatus where
  | active | disabled | archived
  | other (text : String)
  deriving DecidableEq

/-- `Status.Valid`. -/
def LocationStatus.valid : LocationStatus → Bool
  | other _ => false
  | _ => true

/-- `Settable`. -/
def LocationStatus.settable : LocationStatus → Bool
  | active | disabled => true
  | _ => false

/-- A row of `locations`. -/
structure Location where
  id : ℕ
  workspaceID : ℕ
  name : Bytes
  latitude : ℚ
  longitude : ℚ
  countryCode : Bytes
  timezone : Bytes
  status : LocationStatus
  /-- It was created with `allow_near_duplicate`. -/
  allowNearDuplicate : Bool
  deriving DecidableEq

/-- `Status.Active`. -/
def Location.active (l : Location) : Bool := l.status = .active

/-- Where the location is. -/
def Location.point (l : Location) : ℚ × ℚ := (l.latitude, l.longitude)

/-- `DedupThresholdDegrees`. -/
def dedupThresholdDegrees : ℚ := mkRat 5 100

/-- The guard band of the comparison. -/
def dedupTolerance : ℚ := mkRat 1 1000000000

/-- `IsNearDuplicate`. -/
def isNearDuplicate (distanceDegrees : ℚ) : Bool := distanceDegrees < dedupThresholdDegrees - dedupTolerance

/-- A coordinate in a `numeric(9,6)` column: rounded to six decimals, halves away from zero. -/
def toColumn (x : ℚ) : ℚ :=
  mkRat (if 0 ≤ x then (x * 1000000 + mkRat 1 2).floor else -(-x * 1000000 + mkRat 1 2).floor) 1000000

/-- The row that is stored for a location. -/
def Location.stored (l : Location) : Location :=
  { l with latitude := toColumn l.latitude, longitude := toColumn l.longitude }

/-- `FieldError`. -/
structure FieldError where
  field : String
  message : String
  deriving DecidableEq

/-- `isAlpha`; `strings.ToUpper` keeps what it accepts. -/
def isAlpha (s : Bytes) : Bool := s.all fun b => 0x41 ≤ b && b ≤ 0x5a

/-- The error, unless the check passes. -/
def require (check : Bool) (field message : String) : List FieldError := if check then [] else [⟨field, message⟩]

/-- `ValidateCreation`. -/
def Location.validateCreation (knownZone : Bytes → Bool) (l : Location) : List FieldError :=
  (if Api.trimSpace l.name = [] then [⟨"name", "must not be empty"⟩]
    else require (l.name.length ≤ 120) "name" "must be at most 120 characters") ++
  require (-90 ≤ l.latitude ∧ l.latitude ≤ 90) "latitude" "must be between -90 and 90" ++
  require (-180 ≤ l.longitude ∧ l.longitude ≤ 180) "longitude" "must be between -180 and 180" ++
  require (l.countryCode.length = 2 ∧ isAlpha l.countryCode) "country_code"
    "must be a two-letter uppercase ISO 3166-1 alpha-2 code" ++
  (if Api.trimSpace l.timezone = [] then [⟨"timezone", "must not be empty"⟩]
    else require (knownZone l.timezone) "timezone" "must be a valid IANA timezone identifier") ++
  require l.status.valid "status" "must be one of active|disabled|archived"

/-! ### The calls -/

/-- `CreateLocationInput`; workspace 0 is none. -/
structure CreateLocationInput where
  workspaceID : ℕ
  name : Bytes
  latitude : ℚ
  longitude : ℚ
  countryCode : Bytes
  timezone : Bytes
  allowNearDuplicate : Bool
  overrideReason : Bytes
  deriving DecidableEq

/-- `SystemWorkspaceID`. -/
def systemWorkspaceID : ℕ := 1

/-- The location that the input describes. -/
def CreateLocationInput.location (input : CreateLocationInput) (id : ℕ) : Location where
  id := id
  workspaceID := if input.workspaceID = 0 then systemWorkspaceID else input.workspaceID
  name := input.name
  latitude := input.latitude
  longitude := input.longitude
  countryCode := input.countryCode
  timezone := input.timezone
  status := .active
  allowNearDuplicate := input.allowNearDuplicate

/-- What a call fails with. -/
inductive LocationError where
  /-- `ValidationError`. -/
  | validation (fields : List FieldError)
  /-- `DuplicateLocationError`. -/
  | duplicate (existingID : ℕ) (existingName : Bytes) (distanceDegrees : ℚ)
  /-- `NameConflictError`. -/
  | nameConflict (name : Bytes)
  /-- `ErrNotFound`. -/
  | notFound
  /-- `StatusTransitionError`. -/
  | statusTransition (source target : LocationStatus)
  /-- Another error of the database. -/
  | database
  deriving DecidableEq

/-- A call of the service; a creation with the id that the location gets. -/
inductive LocationCall where
  | createLocation (input : CreateLocationInput) (id : ℕ)
  | setLocationStatus (id : ℕ) (status : LocationStatus)
  deriving DecidableEq

/-- The checks before the transaction. -/
def LocationCall.validate (knownZone : Bytes → Bool) : LocationCall → Option LocationError
  | createLocation input id =>
    let fields := (input.location id).validateCreation knownZone
    if fields ≠ [] then some (.validation fields)
    else if input.allowNearDuplicate ∧ Api.trimSpace input.overrideReason = [] then
      some (.validation [⟨"override_reason", "required when allow_near_duplicate is true"⟩])
    else none
  | setLocationStatus _ status =>
    if !status.settable then some (.validation [⟨"status", "must be one of active|disabled"⟩]) else none

/-- The row conflicts with an active one in `locations_active_name_uidx`. -/
def nameTaken (rows : List Location) (l : Location) : Bool :=
  rows.any fun r => r.active && r.id ≠ l.id && r.workspaceID = l.workspaceID && r.name = l.name

/-- `Insert`. -/
def insertLocation (rows : List Location) (l : Location) : Except LocationError (List Location) :=
  if rows.any fun r => r.id = l.id then .error .database
  else if nameTaken rows l then .error (.nameConflict l.name)
  else .ok (rows ++ [l])

/-- The rows with the status of one changed. -/
def withStatus (rows : List Location) (id : ℕ) (status : LocationStatus) : List Location :=
  rows.map fun l => if l.id = id then { l with status := status } else l

/-- `UpdateStatus`; enabling may hit the unique index of the active names. -/
def updateLocationStatus (rows : List Location) (id : ℕ) (status : LocationStatus) :
    Except LocationError (List Location) :=
  if status = .active ∧ rows.any (fun l => l.id = id && nameTaken rows l) then .error .database
  else .ok (withStatus rows id status)

/-- `ListActive`. -/
def listActive (rows : List Location) : List Location := ordered Location.id (rows.filter Location.active)

section Service

variable (knownZone : Bytes → Bool) (distance : ℚ × ℚ → ℚ × ℚ → ℚ)

/-- The two points are near duplicates. -/
def near (p q : ℚ × ℚ) : Bool := isNearDuplicate (distance p q)

/-- The comparison of a creation with the active locations. -/
def dedupCheck (l : Location) (active : List Location) : Option LocationError :=
  if l.allowNearDuplicate then none
  else
    (active.find? fun existing => near distance l.point existing.point).map fun existing =>
      .duplicate existing.id existing.name (distance l.point existing.point)

/-! ### Clashes -/

/-- Both are active, neither was created with the flag, and they are near. -/
def clash (a b : Location) : Bool :=
  a.active && b.active && !a.allowNearDuplicate && !b.allowNearDuplicate && near distance a.point b.point

/-- No two locations clash: of two active locations that are near, at least one was created
with `allow_near_duplicate`. -/
def Separated (rows : List Location) : Prop := ∀ a ∈ rows, ∀ b ∈ rows, a.id ≠ b.id → clash distance a b = false

instance (rows : List Location) : Decidable (Separated distance rows) :=
  inferInstanceAs (Decidable (∀ a ∈ rows, ∀ b ∈ rows, a.id ≠ b.id → clash distance a b = false))

variable {distance}

/-! ### What the statements do -/

theorem insertLocation_ok_iff {rows rows' : List Location} {l : Location} :
    insertLocation rows l = .ok rows' ↔
      (∀ r ∈ rows, r.id ≠ l.id) ∧ nameTaken rows l = false ∧ rows' = rows ++ [l] := by
  unfold insertLocation
  split_ifs with hid hname
  · obtain ⟨r, hr, he⟩ := List.any_eq_true.mp hid
    simp only [false_iff]
    rintro ⟨hfresh, -⟩
    exact hfresh r hr (by simpa using he)
  · simp [hname]
  · simp only [Bool.not_eq_true, List.any_eq_false, decide_eq_true_eq] at hid
    simp only [Except.ok.injEq]
    exact ⟨fun he => ⟨hid, by simpa using hname, he.symm⟩, fun he => he.2.2.symm⟩

theorem updateLocationStatus_ok {rows rows' : List Location} {id : ℕ} {status : LocationStatus}
    (h : updateLocationStatus rows id status = .ok rows') : rows' = withStatus rows id status := by
  unfold updateLocationStatus at h
  split_ifs at h
  cases h
  rfl

theorem mem_withStatus {rows : List Location} {id : ℕ} {status : LocationStatus} {x : Location} :
    x ∈ withStatus rows id status ↔
      (x ∈ rows ∧ x.id ≠ id) ∨ ∃ l ∈ rows, l.id = id ∧ x = { l with status := status } := by
  rw [withStatus, List.mem_map]
  constructor
  · rintro ⟨l, hl, rfl⟩
    split_ifs with hid
    · exact .inr ⟨l, hl, hid, rfl⟩
    · exact .inl ⟨hl, hid⟩
  · rintro (⟨hx, hid⟩ | ⟨l, hl, hid, rfl⟩)
    · exact ⟨x, hx, if_neg hid⟩
    · exact ⟨l, hl, if_pos hid⟩

theorem mem_listActive {rows : List Location} {l : Location} : l ∈ listActive rows ↔ l ∈ rows ∧ l.active = true := by
  rw [listActive, mem_ordered, List.mem_filter]

/-- A creation without the flag has passed the comparison with every location it has seen. -/
theorem not_near_of_dedupCheck {l : Location} {seen : List Location} (h : dedupCheck distance l seen = none)
    (hflag : l.allowNearDuplicate = false) {e : Location} (he : e ∈ seen) : near distance l.point e.point = false := by
  rw [dedupCheck, hflag] at h
  simp only [Bool.false_eq_true, if_false, Option.map_eq_none_iff, List.find?_eq_none] at h
  simpa using h e he

theorem clash_iff {a b : Location} :
    clash distance a b = true ↔ a.active = true ∧ b.active = true ∧ a.allowNearDuplicate = false ∧
      b.allowNearDuplicate = false ∧ near distance a.point b.point = true := by
  simp [clash, and_assoc]

theorem clash_comm (hsymm : ∀ p q, distance p q = distance q p) (a b : Location) :
    clash distance a b = clash distance b a := by
  rw [Bool.eq_iff_iff, clash_iff, clash_iff, near, near, hsymm]
  tauto

/-- A new row beside separated ones. -/
theorem separated_concat_iff (hsymm : ∀ p q, distance p q = distance q p) {rows : List Location} {l : Location}
    (h : Separated distance rows) (hid : ∀ r ∈ rows, r.id ≠ l.id) :
    Separated distance (rows ++ [l]) ↔ ∀ e ∈ rows, clash distance l e = false := by
  constructor
  · intro hall e he
    exact hall l (List.mem_append_right _ List.mem_cons_self) e (List.mem_append_left _ he) (Ne.symm (hid e he))
  · intro hnew a ha b hb hne
    rcases List.mem_append.mp ha with ha | ha <;> rcases List.mem_append.mp hb with hb | hb
    · exact h a ha b hb hne
    · cases List.mem_singleton.mp hb
      rw [clash_comm hsymm]
      exact hnew a ha
    · cases List.mem_singleton.mp ha
      exact hnew b hb
    · cases List.mem_singleton.mp ha
      cases List.mem_singleton.mp hb
      exact absurd rfl hne

/-- Disabling keeps the rows separated. -/
theorem separated_withStatus {rows : List Location} (h : Separated distance rows) {id : ℕ} {status : LocationStatus}
    (hstatus : status ≠ .active) : Separated distance (withStatus rows id status) := by
  have hout : ∀ l : Location, ({ l with status := status } : Location).active = false := by
    simp [Location.active, hstatus]
  intro a ha b hb hne
  rcases mem_withStatus.mp ha with ⟨ha, -⟩ | ⟨l, -, -, rfl⟩
  · rcases mem_withStatus.mp hb with ⟨hb, -⟩ | ⟨l, -, -, rfl⟩
    · exact h a ha b hb hne
    · simp [clash, hout]
  · simp [clash, hout]

/-- Enabling keeps the rows separated exactly when the row clashes with no other. -/
theorem separated_enabled_iff (hsymm : ∀ p q, distance p q = distance q p) {rows : List Location}
    (h : Separated distance rows) {id : ℕ} :
    Separated distance (withStatus rows id .active) ↔
      ∀ l ∈ rows, l.id = id → ∀ e ∈ rows, e.id ≠ id → clash distance { l with status := .active } e = false := by
  constructor
  · intro hall l hl hid e he hne
    refine hall _ (mem_withStatus.mpr (.inr ⟨l, hl, hid, rfl⟩)) e (mem_withStatus.mpr (.inl ⟨he, hne⟩)) ?_
    exact fun heq => hne (heq.symm.trans hid)
  · intro hnew a ha b hb hne
    rcases mem_withStatus.mp ha with ⟨ha, hida⟩ | ⟨l, hl, hida, rfl⟩ <;>
      rcases mem_withStatus.mp hb with ⟨hb, hidb⟩ | ⟨l', hl', hidb, rfl⟩
    · exact h a ha b hb hne
    · rw [clash_comm hsymm]
      exact hnew l' hl' hidb a ha hida
    · exact hnew l hl hida b hb hidb
    · exact absurd (hida.trans hidb.symm) hne

end Service

end ForecastIQ.Catalog
