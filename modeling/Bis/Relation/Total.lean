import Mathlib.Algebra.BigOperators.Group.List.Basic
import Mathlib.Algebra.Order.BigOperators.Group.List
import Mathlib.Algebra.Order.Group.Abs
import Mathlib.Algebra.Order.Ring.Rat
import Mathlib.Tactic.Abel

/-!
Sums of a column over the rows that satisfy a condition. A condition can be split
in two, and the sums of conditions that exclude each other add up to the sum of
their union. A database sums up a `real` column in the column's own type, which is
the sum of the amounts only as long as it loses no digits.
-/

namespace Bis.Relation

open List

variable {ρ σ M : Type*} [AddCommMonoid M] {amount : ρ → M}

/-- `sum(amount)` over the rows with `p`. -/
def total (amount : ρ → M) (p : ρ → Bool) (rows : List ρ) : M :=
  ((rows.filter p).map amount).sum

@[simp]
theorem total_nil (p : ρ → Bool) : total amount p [] = 0 := rfl

theorem total_cons (p : ρ → Bool) (row : ρ) (rows : List ρ) :
    total amount p (row :: rows) = (if p row then amount row else 0) + total amount p rows := by
  unfold total
  by_cases hp : p row = true
  · rw [filter_cons_of_pos hp, if_pos hp, map_cons, sum_cons]
  · rw [filter_cons_of_neg hp, if_neg hp, zero_add]

theorem total_congr {p q : ρ → Bool} {rows : List ρ} (h : ∀ row ∈ rows, p row = q row) :
    total amount p rows = total amount q rows := by
  rw [total, total, filter_congr h]

theorem total_filter (p q : ρ → Bool) (rows : List ρ) :
    total amount p (rows.filter q) = total amount (fun row => p row && q row) rows := by
  rw [total, total, filter_filter]

theorem total_of_none {p : ρ → Bool} {rows : List ρ} (h : ∀ row ∈ rows, p row = false) :
    total amount p rows = 0 := by
  rw [total, filter_eq_nil_iff.mpr fun row hrow => by simp [h row hrow]]
  rfl

/-- A sum is that of the rows with a second condition and that of the rows without. -/
theorem total_split (p q : ρ → Bool) (rows : List ρ) :
    total amount p rows =
      total amount (fun row => p row && q row) rows +
        total amount (fun row => p row && !q row) rows := by
  induction rows with
  | nil => simp
  | cons row rows ih =>
    simp only [total_cons, ih]
    cases p row with
    | false => simp
    | true =>
      cases q row with
      | false =>
        simp only [Bool.true_and, Bool.not_false, if_true, Bool.false_eq_true, if_false,
          zero_add]
        rw [add_left_comm]
      | true => simp [add_assoc]

/-- Of conditions that exclude each other one at most takes a row. -/
theorem sum_ite_eq {parts : List σ} {row : ρ} {takes : σ → ρ → Bool}
    (h : parts.Pairwise fun a b => ¬ (takes a row = true ∧ takes b row = true)) (x : M) :
    (parts.map fun part => if takes part row then x else 0).sum =
      if parts.any (fun part => takes part row) then x else 0 := by
  induction parts with
  | nil => simp
  | cons part parts ih =>
    obtain ⟨hpart, hparts⟩ := pairwise_cons.mp h
    rw [map_cons, sum_cons, ih hparts, any_cons]
    by_cases htakes : takes part row = true
    · have hothers : parts.any (fun part => takes part row) = false := by
        rw [any_eq_false]
        intro other hother htaken
        exact hpart other hother ⟨htakes, htaken⟩
      simp [htakes, hothers]
    · simp [htakes]

/-- The sums of the parts add up to the sum of all. -/
theorem sum_total {parts : List σ} {takes : σ → ρ → Bool} (rows : List ρ)
    (h : ∀ row, parts.Pairwise fun a b => ¬ (takes a row = true ∧ takes b row = true)) :
    (parts.map fun part => total amount (takes part) rows).sum =
      total amount (fun row => parts.any fun part => takes part row) rows := by
  induction rows with
  | nil => simp
  | cons row rows ih =>
    simp only [total_cons, sum_map_add, sum_ite_eq (h row), ih]

section Difference

variable {N : Type*} [AddCommGroup N]

theorem sum_map_difference (f g : σ → N) (parts : List σ) :
    (parts.map fun part => f part - g part).sum = (parts.map f).sum - (parts.map g).sum := by
  induction parts with
  | nil => simp
  | cons part parts ih =>
    simp only [map_cons, sum_cons, ih]
    abel

/-- Sums over two conditions are equal if those over what only one of them takes are. -/
theorem total_eq_total_iff {amount : ρ → N} (p q : ρ → Bool) (rows : List ρ) :
    total amount p rows = total amount q rows ↔
      total amount (fun row => p row && !q row) rows =
        total amount (fun row => q row && !p row) rows := by
  have hboth : total amount (fun row => p row && q row) rows =
      total amount (fun row => q row && p row) rows :=
    total_congr fun row _ => Bool.and_comm (p row) (q row)
  rw [total_split p q, total_split q p, hboth, add_right_inj]

end Difference

/-! ### Sums of a `real` column -/

/-- Whole amounts that add up to no more than `2 ^ 24`. Whatever a sum of some of them is, a
`real` of 24 significant bits, its text and a number of 53 bits hold it. -/
structure Fits (amounts : List Rat) : Prop where
  whole : ∀ amount ∈ amounts, ∃ n : Int, amount = n
  within : (amounts.map abs).sum ≤ 2 ^ 24

/-- What the database answers for the sum of a `real` column. The rows come in an order of its
own, in several parts where it likes, and are added with rounding. -/
structure RealSum where
  sum : List Rat → Rat
  exact : ∀ amounts, Fits amounts → sum amounts = amounts.sum

/-- `sum(case when … then amount else 0 end)`; a 0 leaves a sum as it is. -/
def RealSum.sumCase (sums : RealSum) (amount : ρ → Rat) (p : ρ → Bool) (rows : List ρ) : Rat :=
  sums.sum ((rows.filter p).map amount)

section Real

variable {amounts : List Rat} {amount : ρ → Rat} {rows : List ρ} {p : ρ → Bool}

theorem Fits.sublist {some : List Rat} (h : Fits amounts) (hsub : some.Sublist amounts) :
    Fits some where
  whole x hx := h.whole x (hsub.subset hx)
  within := by
    refine ((hsub.map abs).sum_le_sum ?_).trans h.within
    intro x hx
    obtain ⟨y, -, rfl⟩ := mem_map.mp hx
    exact abs_nonneg y

theorem Fits.filter (h : Fits (rows.map amount)) (p : ρ → Bool) :
    Fits ((rows.filter p).map amount) :=
  h.sublist (filter_sublist.map amount)

/-- No digits are lost in a sum of amounts that fit. -/
theorem RealSum.sumCase_eq (sums : RealSum) (h : Fits (rows.map amount)) :
    sums.sumCase amount p rows = total amount p rows :=
  sums.exact _ (h.filter p)

end Real

end Bis.Relation
