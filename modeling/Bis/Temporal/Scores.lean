import Mathlib.Data.List.Forall2
import Mathlib.Tactic.Linarith

/-!
Scores and the arithmetic on them. A machine rounds, but it rounds in order: a
larger argument never gives a smaller result, and adding what is not negative
never lowers a sum. Results that hold for every such arithmetic hold for
`float64` with its infinities, and for exact numbers.
-/

namespace Bis.Temporal

structure Arithmetic (S : Type*) [LinearOrder S] where
  ofRat : Rat → S
  add : S → S → S
  /-- The product with a constant of the program. -/
  scale : Rat → S → S
  /-- The quotient by a count. -/
  share : S → Nat → S
  ofRat_mono {p q : Rat} : p ≤ q → ofRat p ≤ ofRat q
  add_mono {a b c d : S} : a ≤ b → c ≤ d → add a c ≤ add b d
  le_add {a b : S} : ofRat 0 ≤ b → a ≤ add a b
  scale_mono {c : Rat} {a b : S} : 0 ≤ c → a ≤ b → scale c a ≤ scale c b
  scale_nonneg {c : Rat} {a : S} : 0 ≤ c → ofRat 0 ≤ a → ofRat 0 ≤ scale c a
  share_mono {a b : S} (n : Nat) : a ≤ b → share a n ≤ share b n

namespace Arithmetic

variable {S : Type*} [LinearOrder S] (arith : Arithmetic S)

def total (scores : List S) : S := scores.foldl arith.add (arith.ofRat 0)

/-- The mean of the scores; of none it is zero. -/
def mean (scores : List S) : S :=
  if scores.length = 0 then arith.ofRat 0 else arith.share (arith.total scores) scores.length

theorem foldl_add_mono {scores raised : List S} (h : List.Forall₂ (· ≤ ·) scores raised) {a b : S}
    (hab : a ≤ b) : scores.foldl arith.add a ≤ raised.foldl arith.add b := by
  induction h generalizing a b with
  | nil => exact hab
  | cons hscore _ ih => exact ih (arith.add_mono hab hscore)

/-- Scores that are raised one by one do not have a lower mean. -/
theorem mean_mono {scores raised : List S} (h : List.Forall₂ (· ≤ ·) scores raised) :
    arith.mean scores ≤ arith.mean raised := by
  have hlength : scores.length = raised.length := h.length_eq
  unfold mean total
  rw [hlength]
  split
  · exact le_rfl
  · exact arith.share_mono _ (arith.foldl_add_mono h le_rfl)

/-- Exact numbers. -/
def exact : Arithmetic Rat where
  ofRat := id
  add := (· + ·)
  scale := (· * ·)
  share a n := a / n
  ofRat_mono h := h
  add_mono h k := add_le_add h k
  le_add h := le_add_of_nonneg_right h
  scale_mono hc h := mul_le_mul_of_nonneg_left h hc
  scale_nonneg hc h := mul_nonneg hc h
  share_mono n h := div_le_div_of_nonneg_right h n.cast_nonneg

end Arithmetic

end Bis.Temporal
