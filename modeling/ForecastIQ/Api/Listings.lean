import ForecastIQ.Catalog.Locations
import ForecastIQ.Collection.Collect
import ForecastIQ.Identity.Users
import ForecastIQ.Platform.Pages

/-!
# Listings, page by page

The listings of locations, collections and audit events (`ListLocations` of
`internal/catalog/location_service.go`, `ListCollections` of `internal/collection/reader.go`, `List`
of `internal/audit/reader.go`) with their queries, and that of users (`ListUsers` of
`internal/api/handlers/admin_users.go`). A client follows the cursors from the first page on.

The first three ask the store for one row more than a page and say by it whether there are more. The
listing of users says that there are more when the page is full. It compares the page with the
limit of the request, and the service has meanwhile replaced a limit that is not between 1 and
200: such a page is never full.

A cursor of the audit listing is read by its handler (`AuditEvents`), which is part of the step here.

The texts of a filter reach the database as the request has them. It refuses the query when the
status is none of the labels of the enumeration, and when a text is not UTF-8 or has a zero byte: then
there is no listing, where the matching rows are none. Otherwise the first three listings are complete
(`listings_complete_iff`).
-/

namespace ForecastIQ.Api

open ForecastIQ.Foundations ForecastIQ.Foundations.Paging ForecastIQ.Platform
open ForecastIQ.Catalog (Location)
open ForecastIQ.Collection (ForecastCollection CollectionStatus)
open ForecastIQ.Identity (User)

/-! ### Locations -/

/-- `ListLocationsInput`. -/
structure ListLocationsInput where
  active : Option Bool
  cursor : Bytes
  limit : ℤ

/-- The condition on the status. -/
def matchesActive (active : Option Bool) (l : Location) : Bool :=
  match active with
  | none => true
  | some true => l.active
  | some false => !l.active

/-- `List` of the repository: one row more than the limit. -/
def listLocationRows (table : List Location) (active : Option Bool) (cursor limit : ℕ) : List Location :=
  (ordered Location.id (table.filter fun l => cursor < l.id && matchesActive active l)).take (limit + 1)

/-- `ListLocations`. -/
def listLocations (table : List Location) (input : ListLocationsInput) :
    Except ListError (List Location × PageInfo) := do
  let limit := pageLimit input.limit
  let cursor ← parseCursor input.cursor
  pure (truncatePage Location.id limit (listLocationRows table input.active cursor limit))

/-! ### Collections -/

/-- The text of a status, a label of the enumeration in the database. -/
def statusText : CollectionStatus → Bytes
  | .pending => ascii "pending"
  | .success => ascii "success"
  | .partialData => ascii "partial"
  | .failed => ascii "failed"
  | .deduplicated => ascii "deduplicated"
  | .rateLimited => ascii "rate_limited"
  | .timeout => ascii "timeout"

/-- The labels of the enumeration. -/
def statusLabels : List Bytes :=
  [CollectionStatus.pending, .success, .partialData, .failed, .deduplicated, .rateLimited, .timeout].map statusText

/-- `CollectionListInput`; the status is any text. -/
structure CollectionListInput where
  providerID : Option ℕ
  locationID : Option ℕ
  status : Option Bytes
  cursor : Bytes
  limit : ℤ

/-- The conditions on provider, location and status. -/
def matchesCollection (providerID locationID : Option ℕ) (status : Option Bytes) (c : ForecastCollection) : Bool :=
  (providerID.all fun p => c.providerID = p) && (locationID.all fun l => c.locationID = l) &&
    status.all fun s => statusText c.status = s

/-- `List` of the repository: one row more than the limit. -/
def listCollectionRows (table : List ForecastCollection) (input : CollectionListInput) (cursor limit : ℕ) :
    Except ListError (List ForecastCollection) :=
  if input.status.all fun s => statusLabels.any fun label => label = s then
    .ok ((ordered ForecastCollection.id (table.filter fun c =>
      cursor < c.id && matchesCollection input.providerID input.locationID input.status c)).take (limit + 1))
  else .error .database

/-- `ListCollections`. -/
def listCollections (table : List ForecastCollection) (input : CollectionListInput) :
    Except ListError (List ForecastCollection × PageInfo) := do
  let limit := pageLimit input.limit
  let cursor ← parseCursor input.cursor
  let rows ← listCollectionRows table input cursor limit
  pure (truncatePage ForecastCollection.id limit rows)

/-! ### Audit events -/

/-- `RecordedEvent`; the details are an object, kept as its text. -/
structure RecordedEvent where
  id : ℕ
  userID : Option ℕ
  action : Bytes
  resourceType : Bytes
  resourceID : Option ℕ
  details : String
  ipAddress : String
  createdAt : ℤ
  deriving DecidableEq

/-- The row of an event. -/
def RecordedEvent.stored (e : RecordedEvent) : RecordedEvent := { e with createdAt := storedTime e.createdAt }

/-- `Filter`, without a cursor when it is `0`. -/
structure AuditFilter where
  action : Option Bytes
  resourceType : Option Bytes
  userID : Option ℕ
  cursor : ℕ
  limit : ℤ

/-- The conditions on action, resource and user; an event without a user has none of them. -/
def matchesEvent (action resourceType : Option Bytes) (userID : Option ℕ) (e : RecordedEvent) : Bool :=
  (action.all fun a => e.action = a) && (resourceType.all fun r => e.resourceType = r) &&
    userID.all fun u => e.userID = some u

/-- The second byte of a character of three or four bytes with this first one. -/
def secondByte (a b : UInt8) : Bool :=
  match a with
  | 0xE0 => 0xA0 ≤ b && b ≤ 0xBF
  | 0xED => 0x80 ≤ b && b ≤ 0x9F
  | 0xF0 => 0x90 ≤ b && b ≤ 0xBF
  | 0xF4 => 0x80 ≤ b && b ≤ 0x8F
  | _ => 0x80 ≤ b && b ≤ 0xBF

/-- A text that the database takes: UTF-8 without a zero byte. -/
def validText : Bytes → Bool
  | [] => true
  | a :: rest =>
    if a ≤ 0x7F then a ≠ 0 && validText rest
    else
      match rest with
      | [] => false
      | b :: rest =>
        if 0xC2 ≤ a && a ≤ 0xDF then 0x80 ≤ b && b ≤ 0xBF && validText rest
        else
          match rest with
          | [] => false
          | c :: rest =>
            if 0xE0 ≤ a && a ≤ 0xEF then secondByte a b && 0x80 ≤ c && c ≤ 0xBF && validText rest
            else
              match rest with
              | [] => false
              | d :: rest =>
                0xF0 ≤ a && a ≤ 0xF4 && secondByte a b && 0x80 ≤ c && c ≤ 0xBF && 0x80 ≤ d && d ≤ 0xBF &&
                  validText rest

/-- `List` of the store: newest first, one row more than the limit. -/
def listEventRows (table : List RecordedEvent) (f : AuditFilter) (limit : ℕ) : Except ListError (List RecordedEvent) :=
  if f.action.all validText && f.resourceType.all validText then
    .ok ((ordered (fun e => OrderDual.toDual e.id) (table.filter fun e =>
      (f.cursor = 0 || e.id < f.cursor) && matchesEvent f.action f.resourceType f.userID e)).take (limit + 1))
  else .error .database

/-- `List` of the reader. -/
def listEvents (table : List RecordedEvent) (f : AuditFilter) : Except ListError (List RecordedEvent × PageInfo) := do
  let limit := pageLimit f.limit
  let rows ← listEventRows table f limit
  pure (truncatePage RecordedEvent.id limit rows)

/-- `AuditEvents`: the listing with the cursor of the request. -/
def auditEvents (table : List RecordedEvent) (f : AuditFilter) (cursor : Bytes) :
    Except ListError (List RecordedEvent × PageInfo) := do
  let cursor ← parseCursor cursor
  listEvents table { f with cursor := cursor }

/-! ### Following the cursors -/

/-- The enum accepts the text of a filter when it is one of its labels. -/
theorem all_any_statusLabels {status : Option Bytes} :
    (status.all fun s => statusLabels.any fun label => label = s) = true ↔ ∀ s ∈ status, s ∈ statusLabels := by
  simp [Option.all_eq_true]

theorem listLocations_pages {table : List Location} (h : KeyedByID Location.id table) (active : Option Bool)
    (limit : ℤ) :
    Pages (followed fun cursor => listLocations table ⟨active, cursor, limit⟩) (cursorText Location.id)
      (fun rest => pageLimit limit < rest.length) (pageLimit limit)
      (ordered Location.id (table.filter (matchesActive active))) := by
  refine probed_pages h h.ascending (pageLimit_pos limit) fun cursor => ?_
  simp only [listLocations]
  cases parseCursor cursor <;> rfl

theorem listCollections_pages {table : List ForecastCollection} (h : KeyedByID ForecastCollection.id table)
    (providerID locationID : Option ℕ) {status : Option Bytes} (hstatus : ∀ s ∈ status, s ∈ statusLabels) (limit : ℤ) :
    Pages (followed fun cursor => listCollections table ⟨providerID, locationID, status, cursor, limit⟩)
      (cursorText ForecastCollection.id) (fun rest => pageLimit limit < rest.length) (pageLimit limit)
      (ordered ForecastCollection.id (table.filter (matchesCollection providerID locationID status))) := by
  have hlabel := all_any_statusLabels.mpr hstatus
  refine probed_pages h h.ascending (pageLimit_pos limit) fun cursor => ?_
  simp only [listCollections, listCollectionRows, hlabel, if_true]
  cases parseCursor cursor <;> rfl

theorem auditEvents_pages {table : List RecordedEvent} (h : KeyedByID RecordedEvent.id table)
    {action resourceType : Option Bytes} (haction : ∀ t ∈ action, validText t = true)
    (hresource : ∀ t ∈ resourceType, validText t = true) (userID : Option ℕ) (limit : ℤ) :
    Pages (followed (auditEvents table ⟨action, resourceType, userID, 0, limit⟩))
      (cursorText RecordedEvent.id) (fun rest => pageLimit limit < rest.length) (pageLimit limit)
      (ordered (fun e => OrderDual.toDual e.id) (table.filter (matchesEvent action resourceType userID))) := by
  have htexts : (action.all validText && resourceType.all validText) = true := by
    rw [Bool.and_eq_true, Option.all_eq_true, Option.all_eq_true]
    exact ⟨haction, hresource⟩
  refine probed_pages h h.descending (pageLimit_pos limit) fun cursor => ?_
  simp only [auditEvents, listEvents, listEventRows, htexts, if_true]
  cases parseCursor cursor <;> rfl

/-- A walk whose first page fails lists nothing. -/
theorem walk_of_error {α : Type*} {page : Bytes → Except ListError (List α × PageInfo)} {e : ListError}
    (h : page [] = .error e) (fuel : ℕ) : walk (followed page) fuel [] = none := by
  cases fuel with
  | zero => rfl
  | succ fuel => simp [walk, followed, h, Except.map]

/-- **Following the cursors lists every matching row once, in the order of the identifiers**, ascending
for locations and collections and descending for audit events, whatever the limit: always for
locations, for collections exactly when the status is a label of the enumeration, and for audit
events exactly when the texts are ones that the database takes. -/
theorem listings_complete_iff {locations : List Location} {collections : List ForecastCollection}
    {events : List RecordedEvent} (hl : KeyedByID Location.id locations)
    (hc : KeyedByID ForecastCollection.id collections) (he : KeyedByID RecordedEvent.id events) (active : Option Bool)
    (providerID locationID : Option ℕ) (status action resourceType : Option Bytes) (userID : Option ℕ) :
    (∃ l, l.Perm (locations.filter (matchesActive active)) ∧ l.Pairwise (fun a b => a.id < b.id) ∧
      ∀ (limit : ℤ) (fuel : ℕ), l.length < fuel →
        walk (followed fun cursor => listLocations locations ⟨active, cursor, limit⟩) fuel [] = some l) ∧
    ((∃ l, l.Perm (collections.filter (matchesCollection providerID locationID status)) ∧
      l.Pairwise (fun a b => a.id < b.id) ∧
      ∀ (limit : ℤ) (fuel : ℕ), l.length < fuel →
        walk (followed fun cursor => listCollections collections ⟨providerID, locationID, status, cursor, limit⟩)
          fuel [] = some l) ↔ ∀ s ∈ status, s ∈ statusLabels) ∧
    ((∃ l, l.Perm (events.filter (matchesEvent action resourceType userID)) ∧ l.Pairwise (fun a b => b.id < a.id) ∧
      ∀ (limit : ℤ) (fuel : ℕ), l.length < fuel →
        walk (followed (auditEvents events ⟨action, resourceType, userID, 0, limit⟩)) fuel [] = some l) ↔
      (∀ t ∈ action, validText t = true) ∧ ∀ t ∈ resourceType, validText t = true) := by
  refine ⟨⟨_, ordered_perm _, hl.ascending.pairwise_ordered _, fun limit fuel hfuel => ?_⟩, ⟨?_, fun hstatus => ?_⟩,
    ⟨?_, fun htexts => ?_⟩⟩
  · exact (listLocations_pages hl active limit).walk_eq hfuel
  · rintro ⟨l, -, -, hwalk⟩
    by_contra hstatus
    have herror : listCollections collections ⟨providerID, locationID, status, [], 0⟩ = .error .database := by
      have hlabel := Bool.eq_false_iff.mpr fun h => hstatus (all_any_statusLabels.mp h)
      simp only [listCollections, listCollectionRows, hlabel]
      rfl
    have hfirst := hwalk 0 (l.length + 1) (Nat.lt_succ_self _)
    rw [walk_of_error herror] at hfirst
    cases hfirst
  · exact ⟨_, ordered_perm _, hc.ascending.pairwise_ordered _, fun limit fuel hfuel =>
      (listCollections_pages hc providerID locationID hstatus limit).walk_eq hfuel⟩
  · rintro ⟨l, -, -, hwalk⟩
    by_contra htexts
    have herror : auditEvents events ⟨action, resourceType, userID, 0, 0⟩ [] = .error .database := by
      have hvalid : (action.all validText && resourceType.all validText) = false := by
        rw [Bool.eq_false_iff, ne_eq, Bool.and_eq_true, Option.all_eq_true, Option.all_eq_true]
        exact htexts
      simp only [auditEvents, listEvents, listEventRows, hvalid]
      rfl
    have hfirst := hwalk 0 (l.length + 1) (Nat.lt_succ_self _)
    rw [walk_of_error herror] at hfirst
    cases hfirst
  · exact ⟨_, ordered_perm _, he.descending.pairwise_ordered _, fun limit fuel hfuel =>
      (auditEvents_pages he htexts.1 htexts.2 userID limit).walk_eq hfuel⟩

/-- An event with this identifier and action. -/
def eventOf (id : ℕ) (action : String) : RecordedEvent :=
  ⟨id, none, ascii action, ascii "location", none, "\x7b\x7d", "", 0⟩

/-- A location with this identifier. -/
def locationOf (id : ℕ) : Location := ⟨id, 1, [], 0, 0, [], [], .active, false⟩

/-- Three events, not in order. -/
def threeEvents : List RecordedEvent := [eventOf 7 "a", eventOf 9 "b", eventOf 8 "a"]

/-- They are listed newest first, in two pages when the limit is two. -/
theorem listings_complete_events :
    (∃ l, l.Perm (threeEvents.filter (matchesEvent none (some (ascii "location")) none)) ∧
      l.Pairwise (fun a b => b.id < a.id) ∧
      ∀ (limit : ℤ) (fuel : ℕ), l.length < fuel →
        walk (followed (auditEvents threeEvents ⟨none, some (ascii "location"), none, 0, limit⟩)) fuel [] = some l) ∧
    walk (followed (auditEvents threeEvents ⟨none, some (ascii "location"), none, 0, 2⟩)) 4 [] =
      some [eventOf 9 "b", eventOf 8 "a", eventOf 7 "a"] := by
  have hl : KeyedByID Location.id [locationOf 2, locationOf 1] := ⟨by decide, by decide, by decide⟩
  have hc : KeyedByID ForecastCollection.id [] := ⟨by decide, by decide, by decide⟩
  have he : KeyedByID RecordedEvent.id threeEvents := ⟨by decide, by decide, by decide⟩
  refine ⟨(listings_complete_iff hl hc he none none none none none (some (ascii "location")) none).2.2.mpr ?_,
    by decide +kernel⟩
  decide +kernel

/-- A status that is no label, and an action with a zero byte, are errors of the database, not empty listings. -/
theorem listings_refused :
    listCollections [] ⟨none, none, some (ascii "bogus"), [], 50⟩ = .error .database ∧
    (∀ fuel, walk (followed fun cursor => listCollections [] ⟨none, none, some (ascii "bogus"), cursor, 50⟩)
      fuel [] = none) ∧
    auditEvents threeEvents ⟨some [0], none, none, 0, 50⟩ [] = .error .database ∧
    ∀ fuel, walk (followed (auditEvents threeEvents ⟨some [0], none, none, 0, 50⟩)) fuel [] = none := by
  have hstatus : listCollections [] ⟨none, none, some (ascii "bogus"), [], 50⟩ = .error .database := by decide +kernel
  have haction : auditEvents threeEvents ⟨some [0], none, none, 0, 50⟩ [] = .error .database := by decide +kernel
  exact ⟨hstatus, walk_of_error hstatus, haction, walk_of_error haction⟩

/-! ### Users -/

/-- `Atoi` of the numeral of an integer: an error when it does not fit 64 bits. -/
def atoi (n : ℤ) : Option ℤ := if -2 ^ 63 ≤ n ∧ n < 2 ^ 63 then some n else none

/-- The limit of a request; `none` when it has none or one that is not a numeral. -/
def limitParam (limit : Option ℤ) : ℤ := (limit.bind atoi).getD 50

/-- `List` of the repository: newest first. -/
def listUserRows (users : List User) (limit cursor : ℕ) : List User :=
  if cursor = 0 then (ordered (fun u => OrderDual.toDual u.id) users).take limit
  else (ordered (fun u => OrderDual.toDual u.id) (users.filter fun u => u.id < cursor)).take limit

/-- `List` of the service. -/
def adminListUsers (users : List User) (limit : ℤ) (cursor : ℕ) : List User :=
  listUserRows users (pageLimit limit) cursor

/-- `ListUsers`: a page, and a next cursor when it is as long as the limit that was asked for. -/
def listUsers (users : List User) (limit : Option ℤ) (cursor : Bytes) :
    Except ListError (List User × Option PageInfo) := do
  let limit := limitParam limit
  let cursor ← parseCursor cursor
  let page := adminListUsers users limit cursor
  if (page.length : ℤ) = limit ∧ 0 < limit then
    pure (page, some ⟨true, (page.getLast?.map fun u => UUID.text u.id).getD []⟩)
  else pure (page, none)

/-- A page of users as a step of a walk. -/
def followedUsers (users : List User) (limit : Option ℤ) (cursor : Bytes) :
    Except ListError (List User × Option Bytes) :=
  (listUsers users limit cursor).map fun p => (p.1, p.2.bind PageInfo.next)

/-- All users, newest first. -/
def newestFirst (users : List User) : List User := ordered (fun u => OrderDual.toDual u.id) users

theorem pairwise_newestFirst {users : List User} (h : KeyedByID User.id users) :
    (newestFirst users).Pairwise fun a b => b.id < a.id := by
  have hordered := h.descending.pairwise_ordered fun _ => true
  rw [List.filter_true] at hordered
  exact hordered

/-- The rows of the query are those beyond the cursor. -/
theorem listUserRows_eq (users : List User) (limit cursor : ℕ) :
    listUserRows users limit cursor = (rowsBeyond (fun u : User => OrderDual.toDual u.id)
      (fun c u => c = 0 || u.id < c) (fun _ => true) users cursor).take limit := by
  rw [listUserRows, rowsBeyond]
  split_ifs with h
  · simp [h]
  · simp [h]

section Users

variable {users : List User}

/-- A step at a cursor that reads as an identifier. -/
theorem followedUsers_of_parse {limit : Option ℤ} {cursor : Bytes} {c : ℕ} (h : parseCursor cursor = .ok c) :
    followedUsers users limit cursor =
      let page := listUserRows users (pageLimit (limitParam limit)) c
      .ok (page, if (page.length : ℤ) = limitParam limit ∧ 0 < limitParam limit then
        some ((page.getLast?.map fun u => UUID.text u.id).getD []) else none) := by
  simp only [followedUsers, listUsers, adminListUsers, h]
  split_ifs with hfull
  · simp [hfull, PageInfo.next, bind, Except.bind, pure, Except.pure, Except.map]
  · simp [hfull, bind, Except.bind, pure, Except.pure, Except.map]

/-- With a limit that the service keeps, the users are paged. -/
theorem followedUsers_pages (h : KeyedByID User.id users) {n : ℕ} (hn : 0 < n) {limit : Option ℤ}
    (hlimit : limitParam limit = n) (hpage : pageLimit (limitParam limit) = n) :
    Pages (followedUsers users limit) (cursorText User.id) (fun rest => n ≤ rest.length) n (newestFirst users) where
  pos := hn
  page_eq piece rest hl := by
    have hall : piece ++ rest = ordered (fun u : User => OrderDual.toDual u.id) (users.filter fun _ => true) := by
      rw [List.filter_true]
      exact hl
    have hmem : ∀ u ∈ piece, u ∈ users := fun u hu => by
      have hu' : u ∈ newestFirst users := by
        rw [← hl]
        exact List.mem_append_left _ hu
      exact mem_ordered.mp hu'
    have hrows : listUserRows users n (cursorOf 0 User.id piece) = rest.take n := by
      rw [listUserRows_eq, h.descending.rowsBeyond_eq hall]
    rw [followedUsers_of_parse (h.parseCursor_cursorText hmem), hpage]
    simp only [hrows, hlimit, decide_eq_true_eq]
    by_cases hfull : n ≤ rest.length
    · have hlen : (rest.take n).length = n := by
        rw [List.length_take, Nat.min_eq_left hfull]
      have hne : rest.take n ≠ [] := List.ne_nil_of_length_pos (by omega)
      rw [if_pos ⟨by rw [hlen], by omega⟩, if_pos hfull, cursorText_append piece hne]
    · have hlen : (rest.take n).length ≠ n := by
        rw [List.length_take]
        omega
      rw [if_neg fun hand => hlen (by exact_mod_cast hand.1), if_neg hfull]
  more_of_lt rest hlt := decide_eq_true hlt.le
  ne_nil rest hmore := List.ne_nil_of_length_pos (Nat.lt_of_lt_of_le hn (of_decide_eq_true hmore))

/-- With a limit that the service replaces, the first page is the last. -/
theorem followedUsers_last {limit : Option ℤ} (h : limitParam limit ≤ 0 ∨ 200 < limitParam limit) :
    followedUsers users limit [] = .ok ((newestFirst users).take 50, none) := by
  have hpage : pageLimit (limitParam limit) = 50 := if_pos h
  have hlen : ((newestFirst users).take 50).length ≤ 50 := List.length_take_le ..
  rw [followedUsers_of_parse (show parseCursor [] = .ok 0 from rfl), hpage]
  have hrows : listUserRows users 50 0 = (newestFirst users).take 50 := if_pos rfl
  simp only [hrows]
  rw [if_neg]
  omega

theorem limitParam_some (limit : ℤ) :
    limitParam (some limit) = if -2 ^ 63 ≤ limit ∧ limit < 2 ^ 63 then limit else 50 := by
  rw [limitParam, Option.bind_some, atoi]
  split_ifs <;> rfl

end Users

/-- **Following the cursors of the user listing lists every user once, newest first, exactly when the limit
of the request is one that the service keeps or that is not read, or when there are no more users
than the page that the service makes of any other.** -/
theorem users_listed_iff {users : List User} (h : KeyedByID User.id users) (limit : ℤ) :
    (∃ l, l.Perm users ∧ l.Pairwise (fun a b => b.id < a.id) ∧
      ∀ fuel : ℕ, l.length < fuel → walk (followedUsers users (some limit)) fuel [] = some l) ↔
      (1 ≤ limit ∧ limit ≤ 200) ∨ (limit < -2 ^ 63 ∨ 2 ^ 63 ≤ limit) ∨ users.length ≤ 50 := by
  have hperm : (newestFirst users).Perm users := ordered_perm users
  have hsorted := pairwise_newestFirst h
  by_cases hkept : limitParam (some limit) ≤ 0 ∨ 200 < limitParam (some limit)
  · have hlast : followedUsers users (some limit) [] = .ok ((newestFirst users).take 50, none) :=
      followedUsers_last hkept
    rw [limitParam_some] at hkept
    split_ifs at hkept with hfits
    · constructor
      · rintro ⟨l, hl, -, hwalk⟩
        have hfirst := hwalk (l.length + 1) (Nat.lt_succ_self _)
        rw [walk_of_last hlast, Option.some.injEq] at hfirst
        have hlen := hl.length_eq
        rw [← hfirst, List.length_take] at hlen
        omega
      · intro hsmall
        have hall : (newestFirst users).take 50 = newestFirst users :=
          List.take_of_length_le (by rw [hperm.length_eq]; omega)
        rw [hall] at hlast
        refine ⟨_, hperm, hsorted, fun fuel hfuel => ?_⟩
        obtain ⟨fuel, rfl⟩ := Nat.exists_eq_succ_of_ne_zero (Nat.ne_zero_of_lt hfuel)
        exact walk_of_last hlast fuel
    · omega
  · have hpage : pageLimit (limitParam (some limit)) = (limitParam (some limit)).toNat := if_neg hkept
    have hpages := followedUsers_pages h (n := (limitParam (some limit)).toNat) (by omega) (by omega) hpage
    refine ⟨fun _ => ?_, fun _ => ⟨_, hperm, hsorted, fun fuel hfuel => hpages.walk_eq hfuel⟩⟩
    rw [limitParam_some] at hkept
    split_ifs at hkept with hfits <;> omega

/-- A user with this identifier. -/
def userOf (id : ℕ) : User := ⟨id, "", "", .user, .active⟩

/-- Three users in pages of two. -/
theorem users_listed_two :
    (∃ l, l.Perm [userOf 1, userOf 3, userOf 2] ∧ l.Pairwise (fun a b => b.id < a.id) ∧
      ∀ fuel : ℕ, l.length < fuel → walk (followedUsers [userOf 1, userOf 3, userOf 2] (some 2)) fuel [] = some l) ∧
    walk (followedUsers [userOf 1, userOf 3, userOf 2] (some 2)) 4 [] = some [userOf 3, userOf 2, userOf 1] :=
  ⟨(users_listed_iff ⟨by decide, by decide, by decide⟩ 2).mpr (.inl (by decide)), by decide +kernel⟩

/-- The users with identifiers from 1 to 51. -/
def manyUsers : List User := (List.range 51).map fun i => userOf (i + 1)

/-- Of 51 users, a request with the limit 0 gets the newest 50 and no cursor. -/
theorem users_cut_off :
    KeyedByID User.id manyUsers ∧
      (∀ fuel : ℕ, walk (followedUsers manyUsers (some 0)) (fuel + 1) [] = some (manyUsers.reverse.take 50)) ∧
      ¬ ∃ l, l.Perm manyUsers ∧ l.Pairwise (fun a b => b.id < a.id) ∧
        ∀ fuel : ℕ, l.length < fuel → walk (followedUsers manyUsers (some 0)) fuel [] = some l := by
  have hwalk : ∀ fuel : ℕ, walk (followedUsers manyUsers (some 0)) (fuel + 1) [] = some (manyUsers.reverse.take 50) :=
    fun fuel => walk_of_last (by decide +kernel) fuel
  refine ⟨⟨by decide +kernel, by decide +kernel, by decide +kernel⟩, hwalk, ?_⟩
  rintro ⟨l, hl, -, hall⟩
  have hlen := hl.length_eq
  have hfirst := hall (l.length + 1) (Nat.lt_succ_self _)
  rw [hwalk, Option.some.injEq] at hfirst
  rw [← hfirst] at hlen
  exact absurd hlen (by decide)

end ForecastIQ.Api
