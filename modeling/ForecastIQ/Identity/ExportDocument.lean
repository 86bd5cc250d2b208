import ForecastIQ.Api.Listings
import ForecastIQ.Identity.ApiKeys

/-!
# The document of an account export

`assemble` collects what an account export holds: the user, the metadata of the user's API keys and
the user's own audit events. The events come from the reader of the audit log, which is asked for
`exportAuditLimit` of them and pages as it does for everybody (`listEvents`): a limit beyond 200 is
not kept but replaced by the default of 50. So the document has the 50 newest events of the user
(`assemble_auditEvents`), and the bound it declares is met exactly by users with no more than those.

Rows come with the columns that the export shows. Texts of JSON objects are kept as they are, and
the encoding of the document itself is left out.
-/

namespace ForecastIQ.Identity

open ForecastIQ.Foundations ForecastIQ.Foundations.FormEncoding ForecastIQ.Platform ForecastIQ.Api

/-! ### Rows -/

/-- A row of `users`, with what a login and the preferences leave there. -/
structure UserRow extends User where
  defaultLocationID : Option ℕ
  preferences : String
  createdAt : ℤ
  lastLoginAt : Option ℤ
  deriving DecidableEq

/-- A row of `api_keys`, with its last use. -/
structure APIKeyRow extends APIKey where
  lastUsedAt : Option ℤ
  deriving DecidableEq

/-- `ListByUser`. -/
def listByUser (keys : List APIKeyRow) (userID : ℕ) : List APIKeyRow :=
  ordered (fun k => OrderDual.toDual k.createdAt) (keys.filter fun k => k.userID = userID)

/-! ### The document -/

/-- `exportAuditLimit`. -/
def exportAuditLimit : ℤ := 1000

/-- `exportUser`. -/
structure ExportUser where
  id : Bytes
  email : String
  role : Role
  status : UserStatus
  defaultLocationID : Option Bytes
  preferences : String
  createdAt : ℤ
  lastLoginAt : Option ℤ
  deriving DecidableEq

/-- `exportKey`; no hash. -/
structure ExportKey where
  id : Bytes
  name : Bytes
  keyPrefix : ℕ
  scopes : List String
  createdAt : ℤ
  revokedAt : Option ℤ
  lastUsedAt : Option ℤ
  deriving DecidableEq

/-- `exportEvent`. -/
structure ExportEvent where
  id : Bytes
  action : Bytes
  resourceType : Bytes
  details : String
  createdAt : ℤ
  deriving DecidableEq

/-- `exportDoc`. -/
structure ExportDoc where
  exportedAt : ℤ
  user : ExportUser
  apiKeys : List ExportKey
  auditEvents : List ExportEvent
  deriving DecidableEq

/-- `exportUserFrom`. -/
def exportUserFrom (u : UserRow) : ExportUser :=
  ⟨UUID.text u.id, u.email, u.role, u.status, u.defaultLocationID.map UUID.text, u.preferences, u.createdAt,
    u.lastLoginAt⟩

/-- A key, as exported. -/
def exportKeyFrom (k : APIKeyRow) : ExportKey :=
  ⟨UUID.text k.id, k.name, k.keyPrefix, k.scopes, k.createdAt, k.revokedAt, k.lastUsedAt⟩

/-- An event, as exported. -/
def exportEventFrom (e : RecordedEvent) : ExportEvent :=
  ⟨UUID.text e.id, e.action, e.resourceType, e.details, e.createdAt⟩

/-- `assemble`; a filter without texts is not refused. -/
def assemble (keys : List APIKeyRow) (events : List RecordedEvent) (exportedAt : ℤ) (target : UserRow) : ExportDoc :=
  let listed :=
    match listEvents events ⟨none, none, some target.id, 0, exportAuditLimit⟩ with
    | .ok page => page.1
    | .error _ => []
  ⟨exportedAt, exportUserFrom target, (listByUser keys target.id).map exportKeyFrom, listed.map exportEventFrom⟩

/-! ### The events of a document -/

/-- The events of the user. -/
def ownEvents (events : List RecordedEvent) (userID : ℕ) : List RecordedEvent :=
  events.filter fun e => e.userID = some userID

/-- The newest events first. -/
def newestEvents (events : List RecordedEvent) : List RecordedEvent := ordered (fun e => OrderDual.toDual e.id) events

theorem truncatePage_fst {α : Type*} (id : α → ℕ) (limit : ℕ) (rows : List α) :
    (truncatePage id limit (rows.take (limit + 1))).1 = rows.take limit := by
  unfold truncatePage
  split_ifs with h
  · rw [List.take_take, Nat.min_eq_left (Nat.le_succ limit)]
  · rw [List.length_take] at h
    rw [List.take_of_length_le (by omega), List.take_of_length_le (by omega)]

/-- **The document has the 50 newest events of its user.** -/
theorem assemble_auditEvents (keys : List APIKeyRow) (events : List RecordedEvent) (exportedAt : ℤ)
    (target : UserRow) :
    (assemble keys events exportedAt target).auditEvents =
      ((newestEvents (ownEvents events target.id)).take 50).map exportEventFrom := by
  have hrows : listEventRows events ⟨none, none, some target.id, 0, exportAuditLimit⟩ 50 =
      .ok ((newestEvents (ownEvents events target.id)).take (50 + 1)) := by
    simp [listEventRows, matchesEvent, newestEvents, ownEvents]
  have hpage : listEvents events ⟨none, none, some target.id, 0, exportAuditLimit⟩ =
      .ok (truncatePage RecordedEvent.id 50 ((newestEvents (ownEvents events target.id)).take (50 + 1))) := by
    change (listEventRows events _ 50 >>= fun rows => pure (truncatePage RecordedEvent.id 50 rows)) = _
    rw [hrows]
    rfl
  simp only [assemble, hpage, truncatePage_fst]

/-- An event of the table is told by its export. -/
theorem id_eq_of_exportEventFrom {events : List RecordedEvent} (h : KeyedByID RecordedEvent.id events)
    {a b : RecordedEvent} (ha : a ∈ events) (hb : b ∈ events) (he : exportEventFrom a = exportEventFrom b) :
    a.id = b.id := by
  rw [exportEventFrom, exportEventFrom, ExportEvent.mk.injEq] at he
  exact UUID.text_inj (h.lt a ha) (h.lt b hb) he.1

theorem mem_newestEvents {events : List RecordedEvent} {userID : ℕ} {e : RecordedEvent} :
    e ∈ newestEvents (ownEvents events userID) ↔ e ∈ ownEvents events userID :=
  mem_ordered

/-- What is beyond the newest `n` is not among them, as exported. -/
theorem exportEventFrom_not_mem_take {events : List RecordedEvent} (h : KeyedByID RecordedEvent.id events) (userID : ℕ)
    {n : ℕ} {e : RecordedEvent} (he : (newestEvents (ownEvents events userID))[n]? = some e) :
    exportEventFrom e ∉ ((newestEvents (ownEvents events userID)).take n).map exportEventFrom := by
  have hsorted : (newestEvents (ownEvents events userID)).Pairwise fun a b => b.id < a.id :=
    h.descending.pairwise_ordered _
  have hmem : ∀ a ∈ newestEvents (ownEvents events userID), a ∈ events := fun a ha =>
    List.mem_of_mem_filter (mem_newestEvents.mp ha)
  intro hin
  obtain ⟨a, ha, hexport⟩ := List.mem_map.mp hin
  obtain ⟨i, hi, rfl⟩ := List.mem_take_iff_getElem.mp ha
  obtain ⟨hn, rfl⟩ := List.getElem?_eq_some_iff.mp he
  have hid := id_eq_of_exportEventFrom h (hmem _ (List.getElem_mem _)) (hmem _ (List.getElem_mem _)) hexport
  have hlt := List.pairwise_iff_getElem.mp hsorted i n (by omega) hn (by omega)
  omega

/-- **An export has all the events of its user, or the newest `exportAuditLimit` if there are more,
exactly when the user has no more than 50.** -/
theorem export_complete_iff {events : List RecordedEvent} (h : KeyedByID RecordedEvent.id events)
    (keys : List APIKeyRow) (exportedAt : ℤ) (target : UserRow) :
    (((ownEvents events target.id).length ≤ exportAuditLimit →
        ∀ e ∈ ownEvents events target.id, exportEventFrom e ∈ (assemble keys events exportedAt target).auditEvents) ∧
      (exportAuditLimit < (ownEvents events target.id).length →
        ∀ e ∈ (newestEvents (ownEvents events target.id)).take exportAuditLimit.toNat,
          exportEventFrom e ∈ (assemble keys events exportedAt target).auditEvents)) ↔
      (ownEvents events target.id).length ≤ 50 := by
  rw [assemble_auditEvents]
  have hlength : (newestEvents (ownEvents events target.id)).length = (ownEvents events target.id).length :=
    (ordered_perm _).length_eq
  constructor
  · rintro ⟨hall, hnewest⟩
    by_contra hmany
    obtain ⟨e, he⟩ : ∃ e, (newestEvents (ownEvents events target.id))[50]? = some e :=
      ⟨_, List.getElem?_eq_getElem (by omega)⟩
    have hbeyond := exportEventFrom_not_mem_take h target.id he
    -- The 51st is among those that either bound asks for.
    by_cases hle : ((ownEvents events target.id).length : ℤ) ≤ exportAuditLimit
    · exact hbeyond (hall hle e (mem_newestEvents.mp (List.mem_of_getElem? he)))
    · refine hbeyond (hnewest (not_le.mp hle) e (List.mem_of_getElem? (i := 50) ?_))
      rw [List.getElem?_take, if_pos (by decide), he]
  · intro hfew
    rw [List.take_of_length_le (by omega)]
    refine ⟨fun _ e he => List.mem_map_of_mem (mem_newestEvents.mpr he), fun hmore => ?_⟩
    have hlimit : exportAuditLimit = 1000 := rfl
    omega

/-- An event of a user. -/
def loginOf (id userID : ℕ) : RecordedEvent :=
  ⟨id, some userID, ascii "user.login", ascii "user", some userID, "\x7b\x7d", "", 0⟩

/-- A user with this identifier. -/
def userRowOf (id : ℕ) : UserRow := ⟨⟨id, "sub", "u@example.org", .user, .active⟩, none, "\x7b\x7d", 0, none⟩

/-- Two events of the user and one of another. -/
theorem export_complete_two :
    exportEventFrom (loginOf 1 7) ∈
        (assemble [] [loginOf 1 7, loginOf 2 8, loginOf 3 7] 0 (userRowOf 7)).auditEvents ∧
      exportEventFrom (loginOf 3 7) ∈
        (assemble [] [loginOf 1 7, loginOf 2 8, loginOf 3 7] 0 (userRowOf 7)).auditEvents := by
  have h : KeyedByID RecordedEvent.id [loginOf 1 7, loginOf 2 8, loginOf 3 7] := ⟨by decide, by decide, by decide⟩
  have hall := ((export_complete_iff h [] 0 (userRowOf 7)).mpr (by decide)).1 (by decide)
  exact ⟨hall (loginOf 1 7) (by decide), hall (loginOf 3 7) (by decide)⟩

/-- The oldest of 51 events is not exported. -/
theorem export_incomplete :
    KeyedByID RecordedEvent.id ((List.range 51).map fun i => loginOf (i + 1) 7) ∧
      (ownEvents ((List.range 51).map fun i => loginOf (i + 1) 7) 7).length ≤ exportAuditLimit ∧
      loginOf 1 7 ∈ ownEvents ((List.range 51).map fun i => loginOf (i + 1) 7) 7 ∧
      exportEventFrom (loginOf 1 7) ∉
        (assemble [] ((List.range 51).map fun i => loginOf (i + 1) 7) 0 (userRowOf 7)).auditEvents :=
  ⟨⟨by decide +kernel, by decide +kernel, by decide +kernel⟩, by decide +kernel, by decide +kernel, by decide +kernel⟩

end ForecastIQ.Identity
