import Mathlib.Data.List.Sort
import Mathlib.Data.List.Nodup

/-!
# Reading rows page by page

Rows with distinct keys, read in the order of their keys. A reader keeps the key of the
last row it saw (nothing before the first page) and asks for the first rows behind it.

Restricting the rows and then ordering them is ordering them and then restricting
(`ordered_filter`), and what lies behind the last row of a piece read from the start is
the rest (`filter_behind`).
-/

namespace ForecastIQ.Foundations

variable {α κ : Type*} [LinearOrder κ]

/-- The rows in the order of their keys. -/
def ordered (key : α → κ) (rows : List α) : List α := rows.insertionSort fun a b => key a ≤ key b

/-- The row is behind the cursor. -/
def behind (key : α → κ) (cursor : Option κ) (row : α) : Bool := cursor.all fun c => c < key row

/-- Where the cursor is after a piece. -/
def cursorAfter (key : α → κ) (piece : List α) : Option κ := piece.getLast?.map key

variable {key : α → κ}

theorem ordered_perm (rows : List α) : (ordered key rows).Perm rows := List.perm_insertionSort _ rows

theorem mem_ordered {rows : List α} {a : α} : a ∈ ordered key rows ↔ a ∈ rows := List.mem_insertionSort _

theorem pairwise_ordered (rows : List α) : (ordered key rows).Pairwise fun a b => key a ≤ key b := by
  have : Std.Total fun a b : α => key a ≤ key b := ⟨fun a b => le_total (key a) (key b)⟩
  have : IsTrans α fun a b : α => key a ≤ key b := ⟨fun _ _ _ hab hbc => le_trans hab hbc⟩
  exact List.pairwise_insertionSort _ rows

theorem ordered_map {β : Type*} (f : β → α) (l : List β) :
    ordered key (l.map f) = (ordered (fun b => key (f b)) l).map f :=
  (List.map_insertionSort _ _ f l fun _ _ _ _ => Iff.rfl).symm

/-- With distinct keys the order is strict. -/
theorem pairwise_lt_ordered {rows : List α} (hn : (rows.map key).Nodup) :
    (ordered key rows).Pairwise fun a b => key a < key b := by
  have hne : (ordered key rows).Pairwise fun a b => key a ≠ key b :=
    List.pairwise_map.mp (((ordered_perm rows).map key).nodup_iff.mpr hn)
  exact (pairwise_ordered rows).imp₂ (fun _ _ hle hne => lt_of_le_of_ne hle hne) hne

/-- Ordering the rows that satisfy a condition. -/
theorem ordered_filter {rows : List α} (hn : (rows.map key).Nodup) (p : α → Bool) :
    ordered key (rows.filter p) = (ordered key rows).filter p := by
  have hperm : (ordered key (rows.filter p)).Perm ((ordered key rows).filter p) :=
    (ordered_perm _).trans ((ordered_perm rows).filter p).symm
  refine hperm.eq_of_pairwise (fun a b ha hb hab hba => ?_) (pairwise_ordered _) ((pairwise_ordered rows).filter p)
  have hb' : b ∈ rows := mem_ordered.mp (List.mem_filter.mp hb).1
  exact List.inj_on_of_nodup_map hn (List.mem_filter.mp (mem_ordered.mp ha)).1 hb' (le_antisymm hab hba)

/-- The rows of a piece are not behind it. -/
theorem behind_eq_false {piece : List α} (h : piece.Pairwise fun a b => key a < key b) {a : α} (ha : a ∈ piece) :
    behind key (cursorAfter key piece) a = false := by
  rcases List.eq_nil_or_concat' piece with rfl | ⟨init, last, rfl⟩
  · cases ha
  · have hle : key a ≤ key last := by
      rcases List.mem_append.mp ha with ha | ha
      · exact le_of_lt ((List.pairwise_append.mp h).2.2 a ha last (by simp))
      · rw [List.mem_singleton.mp ha]
    simpa [behind, cursorAfter] using hle

/-- The rows behind a piece that was read from the start are the rest. -/
theorem filter_behind {piece rest : List α} (h : (piece ++ rest).Pairwise fun a b => key a < key b) :
    (piece ++ rest).filter (behind key (cursorAfter key piece)) = rest := by
  obtain ⟨hp, -, hlt⟩ := List.pairwise_append.mp h
  rw [List.filter_append, List.filter_eq_nil_iff.mpr, List.nil_append, List.filter_eq_self]
  · intro a ha
    rcases List.eq_nil_or_concat' piece with rfl | ⟨init, last, rfl⟩
    · rfl
    · simpa [behind, cursorAfter] using hlt last (by simp) a ha
  · intro a ha
    rw [behind_eq_false hp ha]
    exact Bool.false_ne_true

end ForecastIQ.Foundations
