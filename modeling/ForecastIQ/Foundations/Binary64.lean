import Mathlib.Data.Int.Log
import Mathlib.Data.Rat.Floor
import Mathlib.Tactic.Linarith

/-!
# Double precision

The double that a number is rounded to, to nearest with ties to even: of the 53 bits from the
leading one on, or down to the least subnormal. There is no largest double here, so a result
is right as long as it does not overflow.

What proofs need of it is the error, which is half a unit in the last place at most
(`abs_round64_sub_le`).
-/

namespace ForecastIQ.Foundations

/-- The nearest integer, and of two of them the even one. -/
def nearestEven (x : ℚ) : ℤ :=
  let n := ⌊x⌋
  if 2 * (x - n) < 1 then n else if 1 < 2 * (x - n) then n + 1 else n + n % 2

/-- The unit in the last place. -/
def ulp (x : ℚ) : ℚ := 2 ^ max (Int.log 2 |x| - 52) (-1074)

/-- The double nearest to the number. -/
def round64 (x : ℚ) : ℚ := nearestEven (x / ulp x) * ulp x

theorem abs_nearestEven_sub_le (x : ℚ) : |(nearestEven x : ℚ) - x| ≤ 1 / 2 := by
  have hle := Int.floor_le x
  have hlt := Int.lt_floor_add_one x
  have hmod : ((⌊x⌋ % 2 : ℤ) : ℚ) = 0 ∨ ((⌊x⌋ % 2 : ℤ) : ℚ) = 1 := by
    rcases Int.emod_two_eq_zero_or_one ⌊x⌋ with h | h <;> simp [h]
  rw [nearestEven, abs_le]
  split_ifs
  · constructor <;> linarith
  · push_cast
    constructor <;> linarith
  · rw [Int.cast_add]
    rcases hmod with h | h <;> rw [h] <;> constructor <;> linarith

theorem ulp_pos (x : ℚ) : 0 < ulp x := zpow_pos two_pos _

/-- Up to `2 ^ k` the unit is that of `2 ^ k` at most. -/
theorem ulp_le {x : ℚ} {k : ℕ} (h : |x| ≤ 2 ^ k) : ulp x ≤ 2 ^ k / 2 ^ 52 := by
  have hlog : Int.log 2 |x| ≤ k := by
    rcases (abs_nonneg x).eq_or_lt with h0 | h0
    · rw [← h0, Int.log_zero_right]
      exact Int.natCast_nonneg k
    · have hpow : ((2 : ℕ) : ℚ) ^ Int.log 2 |x| ≤ ((2 : ℕ) : ℚ) ^ (k : ℤ) := by
        refine (Int.zpow_log_le_self Nat.one_lt_two h0).trans ?_
        rw [zpow_natCast]
        exact_mod_cast h
      exact (zpow_le_zpow_iff_right₀ (by norm_num)).mp hpow
  have hexp : max (Int.log 2 |x| - 52) (-1074) ≤ (k : ℤ) - 52 := by
    rw [max_le_iff]
    omega
  calc ulp x ≤ 2 ^ ((k : ℤ) - 52) := zpow_le_zpow_right₀ (by norm_num) hexp
    _ = 2 ^ k / 2 ^ 52 := by rw [zpow_sub₀ (by norm_num), zpow_natCast]; norm_cast

/-- **The error of rounding up to `2 ^ k`.** -/
theorem abs_round64_sub_le {x : ℚ} {k : ℕ} (h : |x| ≤ 2 ^ k) : |round64 x - x| ≤ 2 ^ k / 2 ^ 53 := by
  have hpos := ulp_pos x
  have hsub : round64 x - x = (nearestEven (x / ulp x) - x / ulp x) * ulp x := by
    rw [round64, sub_mul, div_mul_cancel₀ _ hpos.ne']
  calc |round64 x - x| = |(nearestEven (x / ulp x) : ℚ) - x / ulp x| * ulp x := by
        rw [hsub, abs_mul, abs_of_pos hpos]
    _ ≤ 1 / 2 * (2 ^ k / 2 ^ 52) := mul_le_mul (abs_nearestEven_sub_le _) (ulp_le h) hpos.le (by norm_num)
    _ = 2 ^ k / 2 ^ 53 := by ring

example : round64 (1 / 10) < round64 (round64 (601 / 10) - round64 60) := by decide +kernel

end ForecastIQ.Foundations
