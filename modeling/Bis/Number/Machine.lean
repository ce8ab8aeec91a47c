import Mathlib.Tactic.Ring
import Mathlib.Tactic.NormNum

/-!
The two number formats that carry money amounts: 64-bit two's complement
integers and IEEE binary64 numbers, both seen through the integers they stand
for. Each format is the identity on a range, and every use below goes through
that fact.
-/

namespace Bis.Number

/-- The signed 64-bit value with the same residue: a cast from `u64` to `i64`,
or the result of an `i64` operation that wraps. -/
def wrapI64 (x : Int) : Int := x.bmod (2 ^ 64)

def FitsI64 (x : Int) : Prop := -2 ^ 63 ≤ x ∧ x < 2 ^ 63

instance (x : Int) : Decidable (FitsI64 x) := inferInstanceAs (Decidable (_ ∧ _))

theorem wrapI64_eq_self_iff (x : Int) : wrapI64 x = x ↔ FitsI64 x := by
  unfold wrapI64 FitsI64 Int.bmod
  norm_num
  split <;> omega

theorem wrapI64_of_fits {x : Int} (h : FitsI64 x) : wrapI64 x = x :=
  (wrapI64_eq_self_iff x).mpr h

/-- The cast of a `u64` takes the upper half to the negative numbers. -/
theorem toInt_toInt64 (w : UInt64) :
    w.toInt64.toInt = if w.toNat < 2 ^ 63 then (w.toNat : Int) else w.toNat - 2 ^ 64 := by
  have hbits : w.toInt64.toInt = w.toBitVec.toInt := rfl
  have hnat : w.toBitVec.toNat = w.toNat := rfl
  rw [hbits, BitVec.toInt_eq_toNat_cond, hnat]
  split <;> split <;> omega

theorem toInt_toInt64_le (w : UInt64) : w.toInt64.toInt ≤ w.toNat := by
  rw [toInt_toInt64]
  split <;> omega

theorem toInt_toInt64_of_nonneg {w : UInt64} (h : 0 ≤ w.toInt64.toInt) :
    w.toInt64.toInt = w.toNat := by
  have hbound := w.toNat_lt
  rw [toInt_toInt64] at h ⊢
  split at h
  · rw [if_pos (by assumption)]
  · omega

/-- The value with the same residue that a signed 64-bit integer can hold. -/
theorem wrapI64_spec (x : Int) : FitsI64 (wrapI64 x) ∧ ∃ k : Int, wrapI64 x = x + 2 ^ 64 * k := by
  unfold wrapI64 FitsI64 Int.bmod
  rw [Int.emod_def]
  norm_num
  split
  · exact ⟨by omega, -(x / 18446744073709551616), by ring⟩
  · exact ⟨by omega, -(x / 18446744073709551616) - 1, by ring⟩

/-- Round to nearest, ties to even, on a grid of step `unit`. -/
def roundToUnit (unit n : Nat) : Nat :=
  let quotient := n / unit
  let rest := n % unit
  if unit < 2 * rest ∨ (2 * rest = unit ∧ quotient % 2 = 1) then
    (quotient + 1) * unit
  else quotient * unit

/-- The binary64 number nearest to an integer. Beyond `2 ^ 53` the 53-bit
significand leaves a grid whose step is a power of two. -/
def roundToDouble (x : Int) : Int :=
  if x.natAbs ≤ 2 ^ 53 then x
  else x.sign * (roundToUnit (2 ^ (x.natAbs.log2 - 52)) x.natAbs : Nat)

theorem roundToDouble_of_small {x : Int} (h : x.natAbs ≤ 2 ^ 53) : roundToDouble x = x :=
  if_pos h

theorem le_roundToUnit (unit n : Nat) : n / unit * unit ≤ roundToUnit unit n := by
  unfold roundToUnit
  simp only
  split
  · exact Nat.mul_le_mul_right unit (Nat.le_succ _)
  · exact Nat.le_refl _

/-- Rounding does not bring a number back into the range where nothing is rounded. -/
theorem le_roundToDouble {x : Int} (h : 2 ^ 53 ≤ x) : 2 ^ 53 ≤ roundToDouble x := by
  unfold roundToDouble
  split
  · exact h
  next hlarge =>
    have hn : 2 ^ 53 ≤ x.natAbs := by omega
    have hne : x.natAbs ≠ 0 := by omega
    have hlog : 53 ≤ x.natAbs.log2 := (Nat.le_log2 hne).mpr hn
    have hsign : x.sign = 1 := Int.sign_eq_one_of_pos (by omega)
    have hpower : 2 ^ 52 * 2 ^ (x.natAbs.log2 - 52) ≤ x.natAbs := by
      rw [← Nat.pow_add, Nat.add_sub_cancel' (by omega)]
      exact Nat.log2_self_le hne
    have hquotient : 2 ^ 52 ≤ x.natAbs / 2 ^ (x.natAbs.log2 - 52) :=
      (Nat.le_div_iff_mul_le (Nat.two_pow_pos _)).mpr hpower
    have hunit : 2 ^ 1 ≤ 2 ^ (x.natAbs.log2 - 52) := Nat.pow_le_pow_right (by omega) (by omega)
    have hgrid : 2 ^ 53 ≤ roundToUnit (2 ^ (x.natAbs.log2 - 52)) x.natAbs :=
      calc
        2 ^ 53 = 2 ^ 52 * 2 ^ 1 := rfl
        _ ≤ x.natAbs / 2 ^ (x.natAbs.log2 - 52) * 2 ^ (x.natAbs.log2 - 52) :=
          Nat.mul_le_mul hquotient hunit
        _ ≤ roundToUnit (2 ^ (x.natAbs.log2 - 52)) x.natAbs := le_roundToUnit _ _
    rw [hsign, one_mul]
    exact_mod_cast hgrid

/-- `Number.isSafeInteger` on an integer value. -/
def isSafeInteger (x : Int) : Bool := x.natAbs ≤ 2 ^ 53 - 1

example : roundToDouble (2 ^ 53 + 1) = 2 ^ 53 := by decide

end Bis.Number
