import Mathlib.Data.List.Basic

/-!
A list of rows as one queue for each condition: the first row that meets it is the next
one, and taking it leaves the rest of the queue.
-/

namespace Bis.Relation

open List

variable {ρ : Type*} {p : ρ → Bool} {rows rest : List ρ} {first : ρ}

/-- Taking the first row splits the list at it. -/
theorem eraseP_split (h : rows.filter p = first :: rest) :
    ∃ before after, rows = before ++ first :: after ∧ rows.eraseP p = before ++ after ∧
      (∀ row ∈ before, p row = false) ∧ p first = true ∧ after.filter p = rest := by
  have hmem : first ∈ rows.filter p := h ▸ mem_cons_self
  obtain ⟨hfirst, hp⟩ := mem_filter.mp hmem
  obtain ⟨row, before, after, hbefore, hrow, hrows, herase⟩ := exists_of_eraseP hfirst hp
  have hnone : before.filter p = [] := by
    rw [filter_eq_nil_iff]
    exact hbefore
  have hfilter := h
  rw [hrows, filter_append, hnone, nil_append, filter_cons_of_pos hrow] at hfilter
  obtain ⟨rfl, hrest⟩ := List.cons.inj hfilter
  refine ⟨before, after, hrows, herase, ?_, hrow, hrest⟩
  intro other hother
  simpa using hbefore other hother

theorem mem_eraseP (h : rows.filter p = first :: rest) {row : ρ} :
    row ∈ rows ↔ row = first ∨ row ∈ rows.eraseP p := by
  obtain ⟨before, after, hrows, herase, _⟩ := eraseP_split h
  rw [hrows, ← hrows, herase, hrows]
  simp only [mem_append, mem_cons]
  tauto

theorem filter_eraseP (h : rows.filter p = first :: rest) : (rows.eraseP p).filter p = rest := by
  obtain ⟨before, after, _, herase, hbefore, _, hafter⟩ := eraseP_split h
  have hnone : before.filter p = [] := by
    rw [filter_eq_nil_iff]
    intro row hrow
    simp [hbefore row hrow]
  rw [herase, filter_append, hnone, nil_append, hafter]

end Bis.Relation
