import ForecastIQ.Foundations.Keyset

/-!
# Walking through pages

A reader asks for a page at a cursor and gets some rows and perhaps a next cursor, and goes on until
there is none. The walk has fuel for a number of pages.

A list is paged when, at the cursor behind any piece from its start, a page is the next `n` rows
of the rest, and there is a next cursor whenever the rest goes on and only when the page is not
empty. Then the walk reads the list (`Pages.walk_eq`), however large the pages are.

A query for the rows beyond a cursor, in order, finds the rest (`Cursors.rowsBeyond_eq`), when a
row's cursor is before the rows that are ordered behind it.
-/

namespace ForecastIQ.Foundations.Paging

variable {α γ ε κ : Type*}

/-- Go on from page to page; `none` when a page fails or the fuel is too little. -/
def walk (page : γ → Except ε (List α × Option γ)) : ℕ → γ → Option (List α)
  | 0, _ => none
  | fuel + 1, c =>
    match page c with
    | .error _ => none
    | .ok (rows, none) => some rows
    | .ok (rows, some next) => (walk page fuel next).map (rows ++ ·)

/-- A walk whose first page is the last. -/
theorem walk_of_last {page : γ → Except ε (List α × Option γ)} {c : γ} {rows : List α} (h : page c = .ok (rows, none))
    (fuel : ℕ) : walk page (fuel + 1) c = some rows := by
  rw [walk, h]

/-- The list `l` in pages of `n` rows. -/
structure Pages (page : γ → Except ε (List α × Option γ)) (cursor : List α → γ) (more : List α → Bool) (n : ℕ)
    (l : List α) : Prop where
  pos : 0 < n
  page_eq : ∀ piece rest, piece ++ rest = l →
    page (cursor piece) = .ok (rest.take n, if more rest then some (cursor (piece ++ rest.take n)) else none)
  more_of_lt : ∀ rest, n < rest.length → more rest = true
  ne_nil : ∀ rest, more rest = true → rest ≠ []

section Pages

variable {page : γ → Except ε (List α × Option γ)} {cursor : List α → γ} {more : List α → Bool} {n : ℕ} {l : List α}

/-- From the cursor behind a piece, the walk reads the rest. -/
theorem Pages.walk_from (h : Pages page cursor more n l) {fuel : ℕ} {piece rest : List α} (hl : piece ++ rest = l)
    (hfuel : rest.length < fuel) : walk page fuel (cursor piece) = some rest := by
  induction fuel generalizing piece rest with
  | zero => exact absurd hfuel (Nat.not_lt_zero _)
  | succ fuel ih =>
    rw [walk, h.page_eq piece rest hl]
    cases hmore : more rest with
    | false =>
      have hshort : rest.length ≤ n := by
        by_contra hlong
        rw [h.more_of_lt rest (not_le.mp hlong)] at hmore
        cases hmore
      simp [List.take_of_length_le hshort]
    | true =>
      -- the page is not empty, so less is left
      have hpos := List.length_pos_of_ne_nil (h.ne_nil rest hmore)
      have hleft : (rest.drop n).length < fuel := by
        have hn := h.pos
        rw [List.length_drop]
        omega
      have hsplit : (piece ++ rest.take n) ++ rest.drop n = l := by
        rw [List.append_assoc, List.take_append_drop, hl]
      simp [ih hsplit hleft]

/-- **The walk reads the list**, with fuel for a page for each row and one more. -/
theorem Pages.walk_eq (h : Pages page cursor more n l) {fuel : ℕ} (hfuel : l.length < fuel) :
    walk page fuel (cursor []) = some l :=
  h.walk_from (List.nil_append l) hfuel

end Pages

/-! ### Queries by cursor -/

variable [LinearOrder κ]

/-- The rows that satisfy a condition and are beyond a cursor, in order. -/
def rowsBeyond (key : α → κ) (beyond : γ → α → Bool) (cond : α → Bool) (table : List α) (c : γ) : List α :=
  ordered key (table.filter fun r => beyond c r && cond r)

/-- The cursor behind a piece. -/
def cursorOf (first : γ) (after : α → γ) (piece : List α) : γ := (piece.getLast?.map after).getD first

/-- The cursors of a table: all rows are beyond the first one, and those behind a row are beyond the one
after it. -/
structure Cursors (key : α → κ) (beyond : γ → α → Bool) (first : γ) (after : α → γ) (table : List α) : Prop where
  nodup : (table.map key).Nodup
  beyond_first : ∀ r ∈ table, beyond first r = true
  beyond_after : ∀ r ∈ table, ∀ r' ∈ table, beyond (after r) r' = decide (key r < key r')

variable {key : α → κ} {beyond : γ → α → Bool} {first : γ} {after : α → γ} {table : List α} {cond : α → Bool}

/-- The matching rows are in strict order. -/
theorem Cursors.pairwise_ordered (h : Cursors key beyond first after table) (cond : α → Bool) :
    (ordered key (table.filter cond)).Pairwise fun a b => key a < key b :=
  pairwise_lt_ordered (h.nodup.sublist (List.filter_sublist.map key))

/-- The rows beyond the cursor behind a piece are the rest. -/
theorem Cursors.rowsBeyond_eq (h : Cursors key beyond first after table) {piece rest : List α}
    (hl : piece ++ rest = ordered key (table.filter cond)) :
    rowsBeyond key beyond cond table (cursorOf first after piece) = rest := by
  have hnodup : ((table.filter cond).map key).Nodup := h.nodup.sublist (List.filter_sublist.map key)
  have hsorted : (piece ++ rest).Pairwise fun a b => key a < key b := by
    rw [hl]
    exact h.pairwise_ordered cond
  have hmem : ∀ r ∈ piece ++ rest, r ∈ table := fun r hr => by
    rw [hl, mem_ordered] at hr
    exact (List.mem_filter.mp hr).1
  rw [rowsBeyond, ← List.filter_filter, ordered_filter hnodup, ← hl]
  refine (List.filter_congr fun r hr => ?_).trans (filter_behind hsorted)
  rw [cursorOf, behind, cursorAfter]
  cases hlast : piece.getLast? with
  | none => exact h.beyond_first r (hmem r hr)
  | some last =>
    have hin : last ∈ table := hmem last (List.mem_append_left _ (List.mem_of_getLast? hlast))
    exact h.beyond_after last hin r (hmem r hr)

end ForecastIQ.Foundations.Paging
