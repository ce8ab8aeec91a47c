import Mathlib.Data.List.Sort

/-!
The first rows of a table in an order, as `ORDER BY … LIMIT` selects them. A row
is passed over only for a whole batch of rows before it, so taking batches away
brings every row to its turn.
-/

namespace Bis.Relation

open List

variable {ρ : Type*} {r : ρ → ρ → Prop} [DecidableRel r] {rows : List ρ}

/-- `ORDER BY r LIMIT n`. -/
def firstBy (r : ρ → ρ → Prop) [DecidableRel r] (n : Nat) (rows : List ρ) : List ρ :=
  (rows.insertionSort r).take n

variable {n : Nat} {row : ρ}

theorem mem_firstBy (h : row ∈ firstBy r n rows) : row ∈ rows :=
  (perm_insertionSort r rows).mem_iff.mp (mem_of_mem_take h)

theorem firstBy_subperm (n : Nat) (rows : List ρ) : (firstBy r n rows).Subperm rows := by
  have htake : (firstBy r n rows).Subperm (rows.insertionSort r) :=
    (take_sublist n _).subperm
  exact htake.trans (perm_insertionSort r rows).subperm

theorem firstBy_ne_nil {n : Nat} {row : ρ} (hn : 0 < n) (hrow : row ∈ rows) :
    firstBy r n rows ≠ [] := by
  intro hempty
  have hlength := congrArg List.length hempty
  have hpos := length_pos_of_mem hrow
  rw [firstBy, length_take, length_insertionSort, length_nil] at hlength
  omega

/-- A row that is not among the first has a whole batch before it. -/
theorem before_of_passedOver [Std.Total r] [IsTrans ρ r] (hrow : row ∈ rows)
    (hnot : row ∉ firstBy r n rows) :
    (firstBy r n rows).length = n ∧ ∀ other ∈ firstBy r n rows, r other row := by
  have hsorted : (firstBy r n rows ++ (rows.insertionSort r).drop n).Pairwise r := by
    rw [firstBy, take_append_drop]
    exact pairwise_insertionSort r rows
  have hlater : row ∈ (rows.insertionSort r).drop n := by
    have hmem := (perm_insertionSort r rows).mem_iff.mpr hrow
    rw [← take_append_drop n (rows.insertionSort r)] at hmem
    exact (mem_append.mp hmem).resolve_left hnot
  have hlength := length_pos_of_mem hlater
  rw [length_drop] at hlength
  refine ⟨?_, fun other hother => (pairwise_append.mp hsorted).2.2 other hother row hlater⟩
  rw [firstBy, length_take]
  omega

/-- A row comes first if there are fewer than `n` others that may come before it. -/
theorem mem_firstBy_of_countP_lt [Std.Total r] [IsTrans ρ r] {p : ρ → Bool} (hrow : row ∈ rows)
    (hp : ∀ other ∈ rows, other ≠ row → r other row → p other = true) (h : rows.countP p < n) :
    row ∈ firstBy r n rows := by
  by_contra hnot
  obtain ⟨hlength, hbefore⟩ := before_of_passedOver hrow hnot
  have hall : (firstBy r n rows).countP p = (firstBy r n rows).length := by
    refine countP_eq_length.mpr ?_
    intro other hother
    refine hp other (mem_firstBy hother) ?_ (hbefore other hother)
    rintro rfl
    exact hnot hother
  have hsub : (firstBy r n rows).Subperm rows := firstBy_subperm n rows
  have hle := hsub.countP_le p
  omega

/-- A row is passed over if there are `n` others that come before it in any case. -/
theorem not_mem_firstBy [Std.Total r] [IsTrans ρ r] {p : ρ → Bool}
    (hp : ∀ other ∈ rows, p other = true → ¬ r row other) (h : n ≤ rows.countP p) :
    row ∉ firstBy r n rows := by
  intro hmem
  have hsplit : (firstBy r n rows ++ (rows.insertionSort r).drop n).Pairwise r := by
    rw [firstBy, take_append_drop]
    exact pairwise_insertionSort r rows
  have hperm : (firstBy r n rows ++ (rows.insertionSort r).drop n).Perm rows := by
    rw [firstBy, take_append_drop]
    exact perm_insertionSort r rows
  -- What comes after the row is none of them, and neither is the row.
  have hafter : ((rows.insertionSort r).drop n).countP p = 0 := by
    refine countP_eq_zero.mpr ?_
    intro other hother hpother
    have hrow := (pairwise_append.mp hsplit).2.2 row hmem other hother
    exact hp other (hperm.mem_iff.mp (mem_append_right _ hother)) hpother hrow
  have hself : ¬ p row = true := by
    intro hprow
    exact hp row (mem_firstBy hmem) hprow ((Std.Total.total row row).elim id id)
  have hlt : (firstBy r n rows).countP p < (firstBy r n rows).length := by
    refine lt_of_le_of_ne countP_le_length ?_
    intro heq
    exact hself (countP_eq_length.mp heq row hmem)
  have hlength : (firstBy r n rows).length ≤ n := by
    rw [firstBy, length_take]
    exact Nat.min_le_left _ _
  have hcount := hperm.countP_eq p
  rw [countP_append, hafter] at hcount
  omega

/-- Picked rows that stop satisfying `p` lower its count by their number. -/
theorem countP_without_picked {picked : List ρ} {p q : ρ → Bool} (hsub : picked.Subperm rows)
    (hpicked : ∀ row ∈ picked, p row = true ∧ q row = true) :
    picked.length + rows.countP (fun row => p row && !q row) ≤ rows.countP p := by
  have hall : picked.countP (fun row => p row && q row) = picked.length := by
    refine countP_eq_length.mpr ?_
    intro row hrow
    obtain ⟨hp, hq⟩ := hpicked row hrow
    rw [hp, hq]
    rfl
  have hle := hsub.countP_le fun row => p row && q row
  have hsplit := countP_eq_countP_filter_add rows p q
  rw [countP_filter, countP_filter] at hsplit
  omega

end Bis.Relation
