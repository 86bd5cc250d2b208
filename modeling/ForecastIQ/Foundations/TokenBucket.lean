import Mathlib.Algebra.Order.Field.Basic
import Mathlib.Tactic.Linarith
import Mathlib.Tactic.Ring

/-!
# Token buckets

A bucket holds at most `burst` tokens and gains at most `rate` of them in a unit of time. A
request takes a token or is refused. `Bucket.Step` says what every such bucket does, however
it counts: a bucket may lose tokens, but what it holds after a request, with the token that
the request took, is within the burst and within what it held before and gained since.

In any window the requests granted are at most the burst and what the rate gives in the
length of the window (`Bucket.Run.grantsIn_le`). What the bucket holds is the potential: up to
a time, the grants are at most the tokens held and the tokens gained until then
(`Bucket.Run.grantsUpTo_le`), and the first request in the window finds no more than the burst.
-/

namespace ForecastIQ.Foundations

variable {K : Type*} [Field K] [LinearOrder K]

/-- What a bucket holds, and since when. -/
structure Bucket (K : Type*) where
  level : K
  last : K

/-- The token that a request takes, if it is granted. -/
def taken (granted : Bool) : K := if granted then 1 else 0

/-- A request at a time, with its answer. -/
structure Bucket.Step (burst rate : K) (b : Bucket K) (a : K × Bool) (b' : Bucket K) : Prop where
  later : b.last ≤ a.1
  last_eq : b'.last = a.1
  nonneg : 0 ≤ b'.level
  le_burst : b'.level + taken a.2 ≤ burst
  le_gain : b'.level + taken a.2 ≤ b.level + rate * (a.1 - b.last)

/-- Requests in order. -/
inductive Bucket.Run (burst rate : K) : Bucket K → List (K × Bool) → Bucket K → Prop
  | nil (b : Bucket K) : Run burst rate b [] b
  | cons {b b' b'' : Bucket K} {a : K × Bool} {answers : List (K × Bool)} :
      Bucket.Step burst rate b a b' → Run burst rate b' answers b'' → Run burst rate b (a :: answers) b''

/-- The requests granted up to a time. -/
def grantsUpTo (stop : K) (answers : List (K × Bool)) : ℕ := answers.countP fun a => a.2 && decide (a.1 ≤ stop)

/-- The requests granted in a window. -/
def grantsIn (start stop : K) (answers : List (K × Bool)) : ℕ :=
  answers.countP fun a => a.2 && decide (start ≤ a.1 ∧ a.1 ≤ stop)

omit [Field K] in
theorem grantsIn_le_grantsUpTo (start stop : K) (answers : List (K × Bool)) :
    grantsIn start stop answers ≤ grantsUpTo stop answers := by
  refine List.countP_mono_left fun a _ h => ?_
  simp only [Bool.and_eq_true, decide_eq_true_eq] at h ⊢
  exact ⟨h.1, h.2.2⟩

theorem grantsUpTo_cons {stop : K} {a : K × Bool} (h : a.1 ≤ stop) (answers : List (K × Bool)) :
    (grantsUpTo stop (a :: answers) : K) = grantsUpTo stop answers + taken a.2 := by
  cases hg : a.2 <;> simp [grantsUpTo, taken, hg, h]

omit [Field K] in
theorem grantsIn_cons_of_not {start stop : K} {a : K × Bool} (h : ¬ (start ≤ a.1 ∧ a.1 ≤ stop))
    (answers : List (K × Bool)) : grantsIn start stop (a :: answers) = grantsIn start stop answers := by
  simp [grantsIn, h]

namespace Bucket

variable {burst rate : K} {b b' : Bucket K} {answers : List (K × Bool)}

/-- A run is as good with more requests after it. -/
theorem Run.append {b'' : Bucket K} {answers' : List (K × Bool)} (h : Run burst rate b answers b')
    (h' : Run burst rate b' answers' b'') : Run burst rate b (answers ++ answers') b'' := by
  induction h with
  | nil b => exact h'
  | cons hstep _ ih => exact .cons hstep (ih h')

theorem Run.last_le (h : Run burst rate b answers b') : ∀ a ∈ answers, b.last ≤ a.1 := by
  induction h with
  | nil b => exact fun a ha => absurd ha List.not_mem_nil
  | cons hstep _ ih =>
    refine List.forall_mem_cons.mpr ⟨hstep.later, fun a ha => ?_⟩
    exact hstep.later.trans (hstep.last_eq ▸ ih a ha)

variable [IsStrictOrderedRing K]

/-- Up to a time, no more is granted than was held and gained. -/
theorem Run.grantsUpTo_le (h : Run burst rate b answers b') (hrate : 0 ≤ rate) (h0 : 0 ≤ b.level) {stop : K}
    (hstop : b.last ≤ stop) : (grantsUpTo stop answers : K) ≤ b.level + rate * (stop - b.last) := by
  induction h with
  | nil b =>
    have hgain : 0 ≤ rate * (stop - b.last) := mul_nonneg hrate (sub_nonneg.mpr hstop)
    simpa [grantsUpTo] using add_nonneg h0 hgain
  | cons hstep hrun ih =>
    rename_i b b' b'' a answers
    rcases le_or_gt a.1 stop with hle | hlt
    · have hrest := ih hstep.nonneg (hstep.last_eq ▸ hle)
      have hgain := hstep.le_gain
      rw [hstep.last_eq] at hrest
      rw [grantsUpTo_cons hle]
      calc (grantsUpTo stop answers : K) + taken a.2
          ≤ b'.level + rate * (stop - a.1) + taken a.2 := by linarith
        _ ≤ b.level + rate * (a.1 - b.last) + rate * (stop - a.1) := by linarith
        _ = b.level + rate * (stop - b.last) := by ring
    · -- the request is too late, and so are those after it
      have hnone : grantsUpTo stop (a :: answers) = 0 := by
        refine List.countP_eq_zero.mpr fun x hx hcount => ?_
        simp only [Bool.and_eq_true, decide_eq_true_eq] at hcount
        have hx' : a.1 ≤ x.1 := by
          rcases List.mem_cons.mp hx with rfl | hx
          · exact le_refl _
          · exact hstep.last_eq ▸ hrun.last_le x hx
        exact absurd (hx'.trans hcount.2) (not_le.mpr hlt)
      have hgain : 0 ≤ rate * (stop - b.last) := mul_nonneg hrate (sub_nonneg.mpr hstop)
      rw [hnone, Nat.cast_zero]
      exact add_nonneg h0 hgain

/-- **The grants of any window** are at most the burst and what the rate gives in the length of the window. -/
theorem Run.grantsIn_le (h : Run burst rate b answers b') (hrate : 0 ≤ rate) (hburst : 0 ≤ burst) {start stop : K}
    (hle : start ≤ stop) : (grantsIn start stop answers : K) ≤ burst + rate * (stop - start) := by
  induction h with
  | nil b =>
    have hgain : 0 ≤ rate * (stop - start) := mul_nonneg hrate (sub_nonneg.mpr hle)
    simpa [grantsIn] using add_nonneg hburst hgain
  | cons hstep hrun ih =>
    rename_i b b' b'' a answers
    by_cases hin : start ≤ a.1 ∧ a.1 ≤ stop
    · -- the first request in the window: the bucket is at most full, and the rest is in its potential
      have hrest := hrun.grantsUpTo_le hrate hstep.nonneg (hstep.last_eq ▸ hin.2)
      rw [hstep.last_eq] at hrest
      have hfull := hstep.le_burst
      have hlonger : rate * (stop - a.1) ≤ rate * (stop - start) :=
        mul_le_mul_of_nonneg_left (by linarith [hin.1]) hrate
      calc (grantsIn start stop (a :: answers) : K)
          ≤ grantsUpTo stop (a :: answers) := Nat.cast_le.mpr (grantsIn_le_grantsUpTo start stop _)
        _ = grantsUpTo stop answers + taken a.2 := grantsUpTo_cons hin.2 answers
        _ ≤ burst + rate * (stop - start) := by linarith
    · rw [grantsIn_cons_of_not hin]
      exact ih

end Bucket

end ForecastIQ.Foundations
