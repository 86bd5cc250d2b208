import ForecastIQ.Foundations.Instant
import Mathlib.Data.List.Sort

/-!
# Collection schedules

`internal/catalog/domain/configuration.go`: the cadence of a provider configuration and
the instants it schedules in a half-open window. `mem_slotTimes` says which instants
these are; they come in order, and a window that is cut in two has the instants of the two
parts, one after the other.
-/

namespace ForecastIQ.Catalog

open ForecastIQ.Foundations

/-- The interval of a schedule; `other` is any text but `hourly`. -/
inductive Interval where
  | hourly
  | other (name : String)
  deriving DecidableEq, Repr

/-- `Schedule`. -/
structure Schedule where
  interval : Interval
  minuteOffset : ℤ
  deriving DecidableEq, Repr

/-- `Valid`. -/
def Schedule.valid (s : Schedule) : Bool := s.interval = .hourly && 0 ≤ s.minuteOffset && s.minuteOffset ≤ 59

/-- `ProviderConfiguration`, of which scheduling reads three fields. -/
structure ProviderConfiguration where
  id : ℕ
  providerID : ℕ
  collectionSchedule : Schedule
  deriving DecidableEq, Repr

/-- The loop of `SlotTimes`: every hour from the cursor on, before `stop`, in at most `n` rounds. -/
def everyHour (stop : ℤ) : ℕ → ℤ → List ℤ
  | 0, _ => []
  | n + 1, cursor => if cursor < stop then cursor :: everyHour stop n (cursor + hour) else []

/-- `SlotTimes`: the scheduled instants in `[start, stop)`. The loop runs at most once for each
started hour of the window. -/
def Schedule.slotTimes (s : Schedule) (start stop : ℤ) : List ℤ :=
  if !s.valid || stop ≤ start then []
  else
    let cursor := truncateHour start + s.minuteOffset * minute
    let cursor := if cursor < start then cursor + hour else cursor
    everyHour stop ((stop - start) / hour + 1).toNat cursor

/-- `s` is one of the instants of the schedule, in any window. -/
def Schedule.IsInstant (sch : Schedule) (s : ℤ) : Prop := s % hour = sch.minuteOffset * minute

instance (sch : Schedule) (s : ℤ) : Decidable (sch.IsInstant s) := inferInstanceAs (Decidable (_ = _))

theorem Schedule.minuteOffset_of_valid {s : Schedule} (h : s.valid = true) :
    0 ≤ s.minuteOffset ∧ s.minuteOffset ≤ 59 := by
  simp only [Schedule.valid, Bool.and_eq_true, decide_eq_true_eq] at h
  exact ⟨h.1.2, h.2⟩

theorem mem_everyHour {stop : ℤ} {n : ℕ} {cursor s : ℤ} :
    s ∈ everyHour stop n cursor ↔ ∃ k : ℕ, k < n ∧ s = cursor + k * hour ∧ s < stop := by
  induction n generalizing cursor with
  | zero => simp [everyHour]
  | succ n ih =>
    simp only [everyHour]
    split_ifs with h
    · rw [List.mem_cons, ih]
      constructor
      · rintro (rfl | ⟨k, hk, rfl, hlt⟩)
        · exact ⟨0, by omega, by simp, h⟩
        · exact ⟨k + 1, by omega, by push_cast; ring, hlt⟩
      · rintro ⟨k, hk, rfl, hlt⟩
        cases k with
        | zero => exact .inl (by simp)
        | succ k => exact .inr ⟨k, by omega, by push_cast; ring, hlt⟩
    · simp only [List.not_mem_nil, false_iff, not_exists, not_and]
      rintro k - rfl
      have : (0 : ℤ) ≤ k * hour := mul_nonneg (by omega) (by decide)
      omega

theorem pairwise_everyHour (stop : ℤ) (n : ℕ) (cursor : ℤ) : (everyHour stop n cursor).Pairwise (· < ·) := by
  induction n generalizing cursor with
  | zero => exact List.Pairwise.nil
  | succ n ih =>
    simp only [everyHour]
    split_ifs
    · refine List.pairwise_cons.mpr ⟨fun s hs => ?_, ih (cursor + hour)⟩
      obtain ⟨k, -, rfl, -⟩ := mem_everyHour.mp hs
      have hpos : (0 : ℤ) < hour := by decide
      have hk : (0 : ℤ) ≤ k * hour := mul_nonneg (by omega) hpos.le
      omega
    · exact List.Pairwise.nil

/-- The first instant of the schedule from `start` on. -/
theorem Schedule.cursor_spec {off : ℤ} (h0 : 0 ≤ off) (h1 : off ≤ 59) (start : ℤ) {c : ℤ}
    (hc : c = if truncateHour start + off * minute < start then truncateHour start + off * minute + hour
      else truncateHour start + off * minute) :
    start ≤ c ∧ c < start + hour ∧ c % hour = off * minute := by
  simp only [truncateHour, hour_eq, minute_eq] at *
  split_ifs at hc <;> omega

/-- **The scheduled instants of a window** are those of a valid schedule that lie in it. -/
theorem Schedule.mem_slotTimes {sch : Schedule} {start stop s : ℤ} :
    s ∈ sch.slotTimes start stop ↔ sch.valid = true ∧ start ≤ s ∧ s < stop ∧ sch.IsInstant s := by
  unfold slotTimes
  by_cases hv : sch.valid = true
  swap
  · simp [hv]
  by_cases hw : stop ≤ start
  · simp only [hv, hw, Bool.not_true, decide_true, Bool.or_true, if_true, List.not_mem_nil, true_and, false_iff]
    omega
  have hoff := minuteOffset_of_valid hv
  simp only [hv, hw, Bool.not_true, decide_false, Bool.or_self, Bool.false_eq_true, if_false, true_and, mem_everyHour]
  generalize hc : (if truncateHour start + sch.minuteOffset * minute < start then _ else _) = c
  obtain ⟨h1, h2, h3⟩ := cursor_spec hoff.1 hoff.2 start hc.symm
  rw [IsInstant]
  constructor
  · rintro ⟨k, -, rfl, hlt⟩
    refine ⟨?_, hlt, ?_⟩
    · have : (0 : ℤ) ≤ k * hour := mul_nonneg (by omega) (by decide)
      omega
    · rw [Int.add_mul_emod_self_right, h3]
  · rintro ⟨hs, hlt, hmod⟩
    simp only [hour_eq] at *
    exact ⟨((s - c) / 3600000000000).toNat, by omega, by omega, hlt⟩

theorem Schedule.pairwise_slotTimes (sch : Schedule) (start stop : ℤ) :
    (sch.slotTimes start stop).Pairwise (· < ·) := by
  unfold slotTimes
  split_ifs
  · exact List.Pairwise.nil
  · exact pairwise_everyHour ..

/-- An instant of the schedule is a whole hour and the offset. -/
theorem Schedule.isInstant_iff {sch : Schedule} (hv : sch.valid = true) (s : ℤ) :
    sch.IsInstant s ↔ ∃ top, top % hour = 0 ∧ s = top + sch.minuteOffset * minute := by
  obtain ⟨h0, h1⟩ := minuteOffset_of_valid hv
  rw [IsInstant]
  simp only [hour_eq, minute_eq]
  constructor
  · intro h
    exact ⟨s - sch.minuteOffset * 60000000000, by omega, by omega⟩
  · rintro ⟨top, htop, rfl⟩
    omega

/-- **The instants of a valid schedule, in order, window by window.** -/
theorem Schedule.slotTimes_windows {sch : Schedule} (hv : sch.valid = true) (start stop : ℤ) :
    (sch.slotTimes start stop).Pairwise (· < ·) ∧
    (∀ s, s ∈ sch.slotTimes start stop ↔
      start ≤ s ∧ s < stop ∧ ∃ top, top % hour = 0 ∧ s = top + sch.minuteOffset * minute) ∧
    ∀ mid, start ≤ mid → mid ≤ stop →
      sch.slotTimes start stop = sch.slotTimes start mid ++ sch.slotTimes mid stop := by
  refine ⟨sch.pairwise_slotTimes start stop, fun s => ?_, fun mid h1 h2 => ?_⟩
  · rw [mem_slotTimes, ← isInstant_iff hv]
    exact and_iff_right hv
  · -- both sides are in strict order and have the same instants
    have hparts : (sch.slotTimes start mid ++ sch.slotTimes mid stop).Pairwise (· < ·) := by
      refine List.pairwise_append.mpr ⟨sch.pairwise_slotTimes _ _, sch.pairwise_slotTimes _ _, fun a ha b hb => ?_⟩
      obtain ⟨-, -, hlt, -⟩ := mem_slotTimes.mp ha
      obtain ⟨-, hle, -, -⟩ := mem_slotTimes.mp hb
      exact hlt.trans_le hle
    refine (sch.pairwise_slotTimes start stop).eq_of_mem_iff hparts fun s => ?_
    rw [List.mem_append, mem_slotTimes, mem_slotTimes, mem_slotTimes]
    constructor
    · rintro ⟨-, hs, hlt, hi⟩
      rcases lt_or_ge s mid with hmid | hmid
      · exact .inl ⟨hv, hs, hmid, hi⟩
      · exact .inr ⟨hv, hmid, hlt, hi⟩
    · rintro (⟨-, hs, hlt, hi⟩ | ⟨-, hs, hlt, hi⟩)
      · exact ⟨hv, hs, hlt.trans_le h2, hi⟩
      · exact ⟨hv, h1.trans hs, hlt, hi⟩

/-- A quarter past each hour, from half past one to half past four, cut at a quarter to three. -/
theorem Schedule.slotTimes_windows_quarter :
    (⟨.hourly, 15⟩ : Schedule).valid = true ∧
    (⟨.hourly, 15⟩ : Schedule).slotTimes (90 * minute) (270 * minute) =
      (⟨.hourly, 15⟩ : Schedule).slotTimes (90 * minute) (165 * minute) ++
        (⟨.hourly, 15⟩ : Schedule).slotTimes (165 * minute) (270 * minute) ∧
    (⟨.hourly, 15⟩ : Schedule).slotTimes (90 * minute) (270 * minute) = [135 * minute, 195 * minute, 255 * minute] :=
  ⟨by decide, (slotTimes_windows (by decide) _ _).2.2 _ (by decide) (by decide), by decide⟩

end ForecastIQ.Catalog
