import Mathlib.Data.Int.ConditionallyCompleteOrder
import Mathlib.Data.Int.SuccPred

/-!
# Marks on a line of integers

A ruler has a mark for each integer, in increasing order and without end on either side, and
says for each point the last mark not after it. The windows between consecutive marks part the
line: each point lies in one window (`floor_le`, `lt_ceil`), a window is that of any of its
points (`index_of_mem`), and two windows are the same or one ends before the other starts
(`ceil_le_floor`); with the next point either nothing changes or the next window starts where
this one ends (`index_succ`).

The marks of a ruler may themselves be marked (`among`), and a ruler may be moved (`shift`). When
the windows are long enough, points a fixed short way from different marks lie in different
windows (`index_mark_add`).
-/

namespace ForecastIQ.Foundations

/-- Increasing marks, and the number of the last mark not after a point. -/
structure Ruler where
  mark : ℤ → ℤ
  index : ℤ → ℤ
  mark_lt_succ : ∀ n, mark n < mark (n + 1)
  mark_index_le : ∀ t, mark (index t) ≤ t
  lt_mark_index : ∀ t, t < mark (index t + 1)

namespace Ruler

/-- The start of the window of a point. -/
def floor (r : Ruler) (t : ℤ) : ℤ := r.mark (r.index t)

/-- The end of the window of a point. -/
def ceil (r : Ruler) (t : ℤ) : ℤ := r.mark (r.index t + 1)

variable (r : Ruler) {t u n : ℤ}

theorem floor_le (t : ℤ) : r.floor t ≤ t := r.mark_index_le t

theorem lt_ceil (t : ℤ) : t < r.ceil t := r.lt_mark_index t

theorem strictMono_mark : StrictMono r.mark := strictMono_int_of_lt_succ r.mark_lt_succ

/-- The window of a point is the only one that holds it. -/
theorem index_eq_iff : r.index t = n ↔ r.mark n ≤ t ∧ t < r.mark (n + 1) := by
  constructor
  · rintro rfl
    exact ⟨r.mark_index_le t, r.lt_mark_index t⟩
  · rintro ⟨h1, h2⟩
    have hlt := r.strictMono_mark.lt_iff_lt.mp (h1.trans_lt (r.lt_mark_index t))
    have hgt := r.strictMono_mark.lt_iff_lt.mp ((r.mark_index_le t).trans_lt h2)
    omega

theorem index_mono (h : t ≤ u) : r.index t ≤ r.index u := by
  have hlt := r.strictMono_mark.lt_iff_lt.mp (((r.mark_index_le t).trans h).trans_lt (r.lt_mark_index u))
  omega

/-- A window is that of any point inside it. -/
theorem index_of_mem (h1 : r.floor t ≤ u) (h2 : u < r.ceil t) : r.index u = r.index t := r.index_eq_iff.mpr ⟨h1, h2⟩

theorem index_floor (t : ℤ) : r.index (r.floor t) = r.index t :=
  r.index_of_mem le_rfl ((r.floor_le t).trans_lt (r.lt_ceil t))

theorem ceil_floor (t : ℤ) : r.ceil (r.floor t) = r.ceil t := by
  rw [ceil, ceil, r.index_floor]

/-- Two points are in one window when their windows start at one mark. -/
theorem floor_eq_floor_iff : r.floor t = r.floor u ↔ r.floor u ≤ t ∧ t < r.ceil u := by
  rw [floor, floor, r.strictMono_mark.injective.eq_iff, r.index_eq_iff]
  rfl

/-- Of two windows, the later starts where the earlier ends or after that. -/
theorem ceil_le_floor (h : r.index t < r.index u) : r.ceil t ≤ r.floor u := r.strictMono_mark.monotone h

theorem ceil_le_of_floor_lt (h : r.floor t < r.floor u) : r.ceil t ≤ r.floor u :=
  r.ceil_le_floor (r.strictMono_mark.lt_iff_lt.mp h)

/-- The next point is in the same window or in the next one. -/
theorem index_succ (t : ℤ) : r.index (t + 1) = r.index t ∨ r.index (t + 1) = r.index t + 1 := by
  by_cases h : t + 1 < r.ceil t
  · exact .inl (r.index_of_mem ((r.floor_le t).trans (by omega)) h)
  · -- the next point is the end of the window
    have he : t + 1 = r.mark (r.index t + 1) := le_antisymm (r.lt_ceil t) (not_lt.mp h)
    exact .inr (r.index_eq_iff.mpr ⟨he.ge, he.trans_lt (r.mark_lt_succ _)⟩)

/-- Points at one short distance from the marks are numbered as the marks are, from the mark before
when they lie before it. -/
theorem index_mark_add {gap c : ℤ} (hgap : ∀ n, r.mark n + gap ≤ r.mark (n + 1)) (h1 : -gap ≤ c) (h2 : c < gap)
    (n : ℤ) : r.index (r.mark n + c) = if 0 ≤ c then n else n - 1 := by
  rw [index_eq_iff]
  split_ifs with hc
  · have hn := hgap n
    omega
  · have hn := hgap (n - 1)
    rw [sub_add_cancel] at hn ⊢
    omega

/-- The marks of `r` among those of `s`. -/
def among (r s : Ruler) : Ruler where
  mark n := s.mark (r.mark n)
  index t := r.index (s.index t)
  mark_lt_succ n := s.strictMono_mark (r.mark_lt_succ n)
  mark_index_le t := (s.strictMono_mark.monotone (r.mark_index_le _)).trans (s.mark_index_le t)
  lt_mark_index t := (s.lt_mark_index t).trans_le (s.strictMono_mark.monotone (r.lt_mark_index _))

/-- The ruler moved back by `c`. -/
def shift (r : Ruler) (c : ℤ) : Ruler where
  mark n := r.mark n - c
  index t := r.index (t + c)
  mark_lt_succ n := by
    have h := r.mark_lt_succ n
    omega
  mark_index_le t := by
    have h := r.mark_index_le (t + c)
    omega
  lt_mark_index t := by
    have h := r.lt_mark_index (t + c)
    omega

end Ruler

end ForecastIQ.Foundations
