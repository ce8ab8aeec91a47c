import Mathlib.Data.Int.Log
import Mathlib.Data.Rat.Floor

/-!
A rational number rounded to 53 significant bits, ties to even: the quotient of two
numbers of a `number` type. The exponent is unbounded, which is no matter for the
quotients of amounts and instants.
-/

namespace Bis.Number

/-- The step of the numbers around `q`. -/
def ulp (q : ℚ) : ℚ := 2 ^ (Int.log 2 q - 52)

def roundEven (q : ℚ) : ℤ :=
  if Int.fract q = 1 / 2 ∧ Even ⌊q⌋ then ⌊q⌋ else round q

def toDouble (q : ℚ) : ℚ := roundEven (q / ulp q) * ulp q

theorem ulp_pos (q : ℚ) : 0 < ulp q := zpow_pos (by norm_num) _

/-- No integer is nearer than the rounded one. -/
theorem abs_sub_roundEven_le (q : ℚ) (k : ℤ) : |q - roundEven q| ≤ |q - k| := by
  unfold roundEven
  split
  next htie =>
    have hbelow : |q - ⌊q⌋| = 1 / 2 := by
      rw [Int.self_sub_floor, htie.1]
      norm_num
    have hround : |q - round q| = 1 / 2 := by
      rw [abs_sub_round_eq_min, htie.1]
      norm_num
    rw [hbelow, ← hround]
    exact round_le q k
  next => exact round_le q k

/-- No number on the grid is nearer than the rounded one. -/
theorem abs_toDouble_sub_le (q : ℚ) (k : ℤ) : |toDouble q - q| ≤ |k * ulp q - q| := by
  have hulp := ulp_pos q
  have hscaled : ∀ j : ℤ, |j * ulp q - q| = |q / ulp q - j| * ulp q := by
    intro j
    have hcancel : q / ulp q * ulp q = q := div_mul_cancel₀ q hulp.ne'
    calc
      |j * ulp q - q| = |q - j * ulp q| := abs_sub_comm _ _
      _ = |(q / ulp q - j) * ulp q| := by rw [sub_mul, hcancel]
      _ = |q / ulp q - j| * ulp q := by rw [abs_mul, abs_of_pos hulp]
  rw [toDouble, hscaled, hscaled]
  exact mul_le_mul_of_nonneg_right (abs_sub_roundEven_le _ k) hulp.le

/-- The same for a multiple of the number. -/
theorem abs_mul_toDouble_sub_le {scale : ℚ} (hscale : 0 ≤ scale) (q : ℚ) (k : ℤ) :
    |scale * toDouble q - scale * q| ≤ |k * (scale * ulp q) - scale * q| :=
  calc
    |scale * toDouble q - scale * q| = scale * |toDouble q - q| := by
      rw [← mul_sub, abs_mul, abs_of_nonneg hscale]
    _ ≤ scale * |k * ulp q - q| := mul_le_mul_of_nonneg_left (abs_toDouble_sub_le q k) hscale
    _ = |k * (scale * ulp q) - scale * q| := by
      rw [mul_left_comm, ← mul_sub, abs_mul, abs_of_nonneg hscale]

/-- Rounding at most doubles a number. -/
theorem toDouble_le_two_mul {q : ℚ} (h : 0 ≤ q) : toDouble q ≤ 2 * q := by
  have hnear := abs_toDouble_sub_le q 0
  rw [Int.cast_zero, zero_mul, zero_sub, abs_neg, abs_of_nonneg h] at hnear
  have hupper := (abs_le.mp hnear).2
  linarith

end Bis.Number
