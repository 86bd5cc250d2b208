import ForecastIQ.Foundations.Paging
import ForecastIQ.Foundations.UUID

/-!
# Pages of a listing

What the listings share: the page size out of the requested limit, the reading of a cursor, and the
page out of a query that asked for a row too many. The cursor of a page is the text of the
identifier of its last row; no cursor is the nil identifier `0`, which no row has.

`probed_pages` is that such a listing pages the matching rows, for either order of the identifiers.
-/

namespace ForecastIQ.Platform

open ForecastIQ.Foundations ForecastIQ.Foundations.Paging

/-- The page size: limits that are not between 1 and 200 become 50. -/
def pageLimit (limit : ℤ) : ℕ := if limit ≤ 0 ∨ 200 < limit then 50 else limit.toNat

/-- `PageInfo`; `nextCursor` is empty without more rows. -/
structure PageInfo where
  hasMore : Bool
  nextCursor : Bytes
  deriving DecidableEq, Repr

/-- Why there is no page. -/
inductive ListError where
  /-- A field of the request was refused. -/
  | field (field message : String)
  /-- The database refused the query. -/
  | database
  deriving DecidableEq, Repr

/-- The identifier of a cursor. -/
def parseCursor (cursor : Bytes) : Except ListError ℕ :=
  if cursor = [] then .ok 0
  else
    match UUID.parse cursor with
    | none => .error (.field "cursor" "must be a valid UUID")
    | some id => .ok id

variable {α κ : Type*} [LinearOrder κ]

/-- The page out of the rows of a query for one more. -/
def truncatePage (id : α → ℕ) (limit : ℕ) (rows : List α) : List α × PageInfo :=
  if limit < rows.length then
    (rows.take limit, ⟨true, ((rows.take limit).getLast?.map fun r => UUID.text (id r)).getD []⟩)
  else (rows, ⟨false, []⟩)

/-- The cursor to go on with. -/
def PageInfo.next (p : PageInfo) : Option Bytes := if p.hasMore then some p.nextCursor else none

/-- A page as a step of a walk. -/
def followed (page : Bytes → Except ListError (List α × PageInfo)) (cursor : Bytes) :
    Except ListError (List α × Option Bytes) :=
  (page cursor).map fun p => (p.1, p.2.next)

theorem pageLimit_pos (limit : ℤ) : 0 < pageLimit limit := by
  rw [pageLimit]
  split_ifs <;> omega

/-- The identifiers of a table are distinct, not nil and of 128 bits. -/
structure KeyedByID (id : α → ℕ) (table : List α) : Prop where
  nodup : (table.map id).Nodup
  pos : ∀ r ∈ table, 0 < id r
  lt : ∀ r ∈ table, id r < 2 ^ 128

/-- The text that is the cursor behind a piece. -/
def cursorText (id : α → ℕ) (piece : List α) : Bytes := cursorOf [] (fun r => UUID.text (id r)) piece

section Cursors

variable {id : α → ℕ} {table : List α}

/-- The cursor behind a piece reads as the identifier of its last row. -/
theorem KeyedByID.parseCursor_cursorText (h : KeyedByID id table) {piece : List α} (hp : ∀ r ∈ piece, r ∈ table) :
    parseCursor (cursorText id piece) = .ok (cursorOf 0 id piece) := by
  rw [cursorText, cursorOf, cursorOf]
  cases hlast : piece.getLast? with
  | none => rfl
  | some r =>
    have hlt := h.lt r (hp r (List.mem_of_getLast? hlast))
    simp only [Option.map_some, Option.getD_some, parseCursor, UUID.text_ne_nil, if_false, UUID.parse_text hlt]

/-- Ascending, the rows beyond a cursor have larger identifiers. -/
theorem KeyedByID.ascending (h : KeyedByID id table) : Cursors id (fun c r => c < id r) 0 id table where
  nodup := h.nodup
  beyond_first r hr := decide_eq_true (h.pos r hr)
  beyond_after _ _ _ _ := rfl

/-- Descending, they have smaller ones, or there is no cursor. -/
theorem KeyedByID.descending (h : KeyedByID id table) :
    Cursors (fun r => OrderDual.toDual (id r)) (fun c r => c = 0 || id r < c) 0 id table where
  nodup := by
    have hdual := h.nodup.map OrderDual.toDual.injective
    rwa [List.map_map] at hdual
  beyond_first _ _ := rfl
  beyond_after r hr r' _ := by
    have hne : id r ≠ 0 := (h.pos r hr).ne'
    simp [hne]

omit [LinearOrder κ] in
/-- The text behind a piece is that of its last rows. -/
theorem cursorText_append (piece : List α) {rows : List α} (h : rows ≠ []) :
    cursorText id (piece ++ rows) = (rows.getLast?.map fun r => UUID.text (id r)).getD [] := by
  rw [cursorText, cursorOf, List.getLast?_append, List.getLast?_eq_some_getLast h, Option.some_or]

omit [LinearOrder κ] in
/-- The page out of what is left behind a piece. -/
theorem truncatePage_take (id : α → ℕ) {n : ℕ} (hn : 0 < n) (piece rest : List α) :
    ((truncatePage id n (rest.take (n + 1))).1, (truncatePage id n (rest.take (n + 1))).2.next) =
      (rest.take n, if n < rest.length then some (cursorText id (piece ++ rest.take n)) else none) := by
  by_cases hlong : n < rest.length
  · have hlen : n < (rest.take (n + 1)).length := by
      rw [List.length_take]
      omega
    have hne : rest.take n ≠ [] := List.ne_nil_of_length_pos (by rw [List.length_take]; omega)
    have htake : (rest.take (n + 1)).take n = rest.take n := by
      rw [List.take_take, Nat.min_eq_left (Nat.le_succ n)]
    rw [truncatePage, if_pos hlen, if_pos hlong, htake, cursorText_append piece hne]
    rfl
  · have hall : rest.take (n + 1) = rest := List.take_of_length_le (by omega)
    have hall' : rest.take n = rest := List.take_of_length_le (by omega)
    rw [hall, hall', truncatePage, if_neg hlong, if_neg hlong]
    rfl

/-- **A listing that probes for one more row pages the matching rows.** -/
theorem probed_pages {key : α → κ} {beyond : ℕ → α → Bool} {cond : α → Bool} (h : KeyedByID id table)
    (hc : Cursors key beyond 0 id table) {n : ℕ} (hn : 0 < n)
    {page : Bytes → Except ListError (List α × PageInfo)}
    (hpage : ∀ cursor, page cursor = (parseCursor cursor).map fun c =>
      truncatePage id n ((rowsBeyond key beyond cond table c).take (n + 1))) :
    Pages (followed page) (cursorText id) (fun rest => n < rest.length) n (ordered key (table.filter cond)) where
  pos := hn
  page_eq piece rest hl := by
    have hmem : ∀ r ∈ piece, r ∈ table := fun r hr => by
      have hr' : r ∈ ordered key (table.filter cond) := by
        rw [← hl]
        exact List.mem_append_left _ hr
      exact (List.mem_filter.mp (mem_ordered.mp hr')).1
    have hstep := truncatePage_take id hn piece rest
    rw [followed, hpage, h.parseCursor_cursorText hmem]
    simp only [Except.map, hc.rowsBeyond_eq hl, hstep, decide_eq_true_eq]
  more_of_lt rest hlt := decide_eq_true hlt
  ne_nil rest hmore := List.ne_nil_of_length_pos (Nat.zero_lt_of_lt (of_decide_eq_true hmore))

end Cursors

end ForecastIQ.Platform
