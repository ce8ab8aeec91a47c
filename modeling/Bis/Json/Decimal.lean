import Bis.Json.Syntax
import Mathlib.Data.List.TakeWhile

/-!
Integers as JSON numbers: the decimal digits of an integer are a number, and it
is read back as the same integer.
-/

namespace Bis.Json

open List

theorem splitExponent_of_isDigit {digits : List Char} (h : ∀ c ∈ digits, c.isDigit = true) :
    splitExponent digits = (digits, none) := by
  have hfree : ∀ c ∈ digits, (!isExponentMark c) = true := by
    intro c hc
    have hdigit := h c hc
    simp only [isExponentMark, Bool.not_eq_true', Bool.or_eq_false_iff, beq_eq_false_iff_ne]
    constructor <;> (rintro rfl; exact absurd hdigit (by decide))
  simp only [splitExponent, dropWhile_eq_nil_iff.mpr hfree,
    takeWhile_eq_self_iff.mpr hfree]

theorem splitFraction_of_isDigit {digits : List Char} (h : ∀ c ∈ digits, c.isDigit = true) :
    splitFraction digits = (digits, none) := by
  have hfree : ∀ c ∈ digits, (c != '.') = true := by
    intro c hc
    have hdigit := h c hc
    simp only [bne_iff_ne, ne_eq]
    rintro rfl
    exact absurd hdigit (by decide)
  simp only [splitFraction, dropWhile_eq_nil_iff.mpr hfree,
    takeWhile_eq_self_iff.mpr hfree]

theorem isDigit_digits {n : Nat} : ∀ c ∈ Nat.toDigits 10 n, c.isDigit = true :=
  fun _ hc => Nat.isDigit_of_mem_toDigits (by omega) (by omega) hc

theorem digits_head_ne {n : Nat} (h : 0 < n) : (Nat.toDigits 10 n).head? ≠ some '0' := by
  induction n using Nat.strongRecOn with
  | ind n ih =>
    rw [Nat.toDigits_eq_if (by omega)]
    split
    next hlt =>
      intro hzero
      have hsmall : ∀ d : Fin 10, 0 < d.val → d.val.digitChar ≠ '0' := by decide
      exact hsmall ⟨n, hlt⟩ h (Option.some.inj hzero)
    next hge =>
      rw [head?_append_of_ne_nil _ Nat.toDigits_ne_nil]
      exact ih (n / 10) (by omega) (by omega)

theorem isInteger_digits (n : Nat) : isInteger (Nat.toDigits 10 n) = true := by
  have hall : (Nat.toDigits 10 n).all Char.isDigit = true := all_eq_true.mpr isDigit_digits
  have hne : (Nat.toDigits 10 n).isEmpty = false := by simp
  rcases Nat.eq_zero_or_pos n with rfl | hpos
  · decide
  · simp [isInteger, isDigits, hall, hne, digits_head_ne hpos]

/-- The characters of a decimal integer. -/
def decimal (n : Int) : List Char :=
  if n < 0 then '-' :: Nat.toDigits 10 n.natAbs else Nat.toDigits 10 n.natAbs

theorem splitNumber_decimal (n : Int) :
    splitNumber (decimal n) =
      { negative := decide (n < 0), whole := Nat.toDigits 10 n.natAbs
        fraction := none, exponent := none } := by
  have hdigits := isDigit_digits (n := n.natAbs)
  unfold decimal
  split
  next hneg =>
    simp [splitNumber, splitExponent_of_isDigit hdigits, splitFraction_of_isDigit hdigits, hneg]
  next hnonneg =>
    have hsign : (Nat.toDigits 10 n.natAbs).head? ≠ some '-' := by
      intro hhead
      exact absurd (hdigits '-' (mem_of_mem_head? hhead)) (by decide)
    simp [splitNumber, splitExponent_of_isDigit hdigits, splitFraction_of_isDigit hdigits,
      hnonneg, hsign]

theorem isNumber_decimal (n : Int) : isNumber (decimal n) = true := by
  have hchars : (decimal n).all isNumberChar = true := by
    have hdigits : ∀ c ∈ Nat.toDigits 10 n.natAbs, isNumberChar c = true := by
      intro c hc
      simp [isNumberChar, isDigit_digits c hc]
    rw [all_eq_true]
    unfold decimal
    split
    · exact forall_mem_cons.mpr ⟨rfl, hdigits⟩
    · exact hdigits
  simp [isNumber, hchars, splitNumber_decimal, isInteger_digits]

def Number.ofInt (n : Int) : Number := ⟨decimal n, isNumber_decimal n⟩

/-- An integer is read back as it was written. -/
theorem Number.toInt?_ofInt (n : Int) : (Number.ofInt n).toInt? = some n := by
  simp only [Number.toInt?, Number.ofInt, splitNumber_decimal, and_self, if_true,
    Nat.ofDigitChars_ten_toDigits, decide_eq_true_eq, Option.some.injEq]
  split <;> omega

theorem length_decimal_le {n : Int} (h : n.natAbs < 2 ^ 64) : (decimal n).length ≤ 21 := by
  have hdigits : (Nat.toDigits 10 n.natAbs).length ≤ 20 :=
    (Nat.length_toDigits_le_iff (by omega) (by omega)).mpr (by omega)
  unfold decimal
  split
  · rw [length_cons]
    omega
  · omega

end Bis.Json
