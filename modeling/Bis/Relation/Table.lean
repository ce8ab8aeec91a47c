import Mathlib.Data.List.Nodup

/-!
Tables as lists of rows, with the conditional update of SQL. An update changes
the rows that satisfy a condition and leaves every key as it is, so uniqueness
of a key survives it.
-/

namespace Bis.Relation

open List

variable {ρ κ : Type*}

/-- `UPDATE … SET f WHERE p`. -/
def updateWhere (p : ρ → Bool) (f : ρ → ρ) (rows : List ρ) : List ρ :=
  rows.map fun row => if p row then f row else row

variable {p q : ρ → Bool} {f : ρ → ρ} {rows rows' : List ρ} {row : ρ} {key : ρ → κ}

theorem mem_updateWhere :
    row ∈ updateWhere p f rows ↔
      (∃ old ∈ rows, p old ∧ row = f old) ∨ (row ∈ rows ∧ ¬ p row) := by
  unfold updateWhere
  rw [mem_map]
  constructor
  · rintro ⟨old, hold, rfl⟩
    cases hp : p old with
    | true => exact .inl ⟨old, hold, hp, by simp⟩
    | false => exact .inr ⟨by simpa [hp] using hold, by simp [hp]⟩
  · rintro (⟨old, hold, hp, rfl⟩ | ⟨hrow, hp⟩)
    · exact ⟨old, hold, by simp [hp]⟩
    · exact ⟨row, hrow, by simp [hp]⟩

/-- After an `INSERT`. -/
theorem mem_concat {new : ρ} : row ∈ rows ++ [new] ↔ row ∈ rows ∨ row = new := by
  rw [mem_append, mem_singleton]

theorem map_updateWhere (hkey : ∀ row, key (f row) = key row) (rows : List ρ) :
    (updateWhere p f rows).map key = rows.map key := by
  unfold updateWhere
  rw [map_map]
  apply map_congr_left
  intro row _
  simp only [Function.comp_apply]
  split
  · exact hkey row
  · rfl

theorem updateWhere_congr {g : ρ → ρ} (hpq : ∀ row ∈ rows, p row = q row)
    (hfg : ∀ row ∈ rows, q row → f row = g row) : updateWhere p f rows = updateWhere q g rows := by
  unfold updateWhere
  apply map_congr_left
  intro row hrow
  rw [hpq row hrow]
  split
  · next hq => exact hfg row hrow hq
  · rfl

theorem updateWhere_eq_self (hp : ∀ row ∈ rows, ¬ p row) : updateWhere p f rows = rows := by
  have hid : ∀ row ∈ rows, (if p row then f row else row) = id row :=
    fun row hrow => if_neg (hp row hrow)
  unfold updateWhere
  rw [map_congr_left hid, map_id]

theorem countP_updateWhere_le (h : ∀ row ∈ rows, p row → ¬ q (f row)) :
    (updateWhere p f rows).countP q ≤ rows.countP q := by
  unfold updateWhere
  rw [countP_map]
  apply countP_mono_left
  intro row hrow hq
  rw [Function.comp_apply] at hq
  split at hq
  next hp => exact absurd hq (h row hrow hp)
  next => exact hq

/-- Two updates of different rows are one. -/
theorem updateWhere_updateWhere (hq : ∀ row, q (f row) = q row)
    (hseparate : ∀ row ∈ rows, p row → q row = false) :
    updateWhere q f (updateWhere p f rows) = updateWhere (fun row => p row || q row) f rows := by
  unfold updateWhere
  rw [map_map]
  apply map_congr_left
  intro row hrow
  cases hp : p row with
  | true => simp [hp, hq, hseparate row hrow hp]
  | false => simp [hp]

theorem any_updateWhere (hq : ∀ row, q (f row) = q row) (rows : List ρ) :
    (updateWhere p f rows).any q = rows.any q := by
  unfold updateWhere
  rw [any_map]
  congr 1
  funext row
  simp only [Function.comp_apply]
  split
  · exact hq row
  · rfl

/-- A row that matches no condition is still there. -/
theorem map_filter_updateWhere (hkey : ∀ row, key (f row) = key row) (hq : ∀ row, q (f row) = q row)
    (rows : List ρ) : ((updateWhere p f rows).filter q).map key = (rows.filter q).map key := by
  have hqs : (q ∘ fun row => if p row then f row else row) = q := by
    funext row
    simp only [Function.comp_apply]
    split
    · exact hq row
    · rfl
  have hkeys : (key ∘ fun row => if p row then f row else row) = key := by
    funext row
    simp only [Function.comp_apply]
    split
    · exact hkey row
    · rfl
  unfold updateWhere
  rw [filter_map, map_map, hqs, hkeys]

theorem mem_updateWhere_of_not (hrow : row ∈ rows) (hp : ¬ p row) : row ∈ updateWhere p f rows :=
  mem_updateWhere.mpr (.inr ⟨hrow, hp⟩)

/-- A search by a unique key and a condition only sees the row with the key. -/
theorem find?_of_key [DecidableEq κ] (h : (rows.map key).Nodup) (hrow : row ∈ rows) (q : ρ → Bool) :
    (rows.find? fun other => key other == key row && q other) =
      if q row then some row else none := by
  cases hfind : rows.find? fun other => key other == key row && q other with
  | none =>
    have hnot := find?_eq_none.mp hfind row hrow
    have hq : q row = false := by simpa using hnot
    simp [hq]
  | some other =>
    have hboth := find?_some hfind
    simp only [Bool.and_eq_true, beq_iff_eq] at hboth
    obtain rfl := inj_on_of_nodup_map h (mem_of_find?_eq_some hfind) hrow hboth.1
    rw [if_pos hboth.2]

theorem any_of_key [DecidableEq κ] (h : (rows.map key).Nodup) (hrow : row ∈ rows) (q : ρ → Bool) :
    (rows.any fun other => key other == key row && q other) = q row := by
  rw [Bool.eq_iff_iff, any_eq_true]
  constructor
  · rintro ⟨other, hother, hboth⟩
    rw [Bool.and_eq_true, beq_iff_eq] at hboth
    obtain rfl := inj_on_of_nodup_map h hother hrow hboth.1
    exact hboth.2
  · intro hq
    exact ⟨row, hrow, by simp [hq]⟩

/-- The rows of one key are one row. -/
theorem filter_of_key [DecidableEq κ] (h : (rows.map key).Nodup) (hrow : row ∈ rows) :
    (rows.filter fun other => key other == key row) = [row] := by
  induction rows with
  | nil => cases hrow
  | cons first rest ih =>
    obtain ⟨hfresh, hrest⟩ := nodup_cons.mp h
    rcases mem_cons.mp hrow with rfl | hmem
    · have hnone : (rest.filter fun other => key other == key row) = [] := by
        rw [filter_eq_nil_iff]
        intro other hother hkey
        exact hfresh (mem_map.mpr ⟨other, hother, beq_iff_eq.mp hkey⟩)
      rw [filter_cons_of_pos (by simp), hnone]
    · have hne : key first ≠ key row := by
        intro hkey
        exact hfresh (mem_map.mpr ⟨row, hmem, hkey.symm⟩)
      rw [filter_cons_of_neg (by simp [hne])]
      exact ih hrest hmem

/-- Tables that agree on the rows with a condition share these rows. -/
theorem mem_of_filter_eq (h : rows'.filter p = rows.filter p) (hrow : row ∈ rows) (hp : p row) :
    row ∈ rows' := by
  have hmem := mem_filter.mpr ⟨hrow, hp⟩
  rw [← h] at hmem
  exact (mem_filter.mp hmem).1

/-- An insert that a clashing row turns down. -/
theorem insert_eq_some {α : Type*} {clash : ρ → Bool} {after t : α} :
    (if rows.any clash then none else some after) = some t ↔
      (∀ row ∈ rows, clash row = false) ∧ t = after := by
  cases hany : rows.any clash with
  | true =>
    obtain ⟨row, hrow, hclash⟩ := any_eq_true.mp hany
    refine iff_of_false (by simp) ?_
    rintro ⟨hfree, _⟩
    rw [hfree row hrow] at hclash
    cases hclash
  | false =>
    have hfree : ∀ row ∈ rows, clash row = false := by simpa using hany
    rw [if_neg Bool.false_ne_true, Option.some.injEq, eq_comm, and_iff_right hfree]

/-! ### Statements as revisions -/

/-- Some statements have made of each row what stands in its place. -/
def Revised (R : ρ → ρ → Prop) (rows rows' : List ρ) : Prop :=
  ∃ revise : ρ → ρ, rows' = rows.map revise ∧ ∀ row ∈ rows, R row (revise row)

section Revised

variable {R S T : ρ → ρ → Prop} {rows rows' rows'' : List ρ}

theorem revised_updateWhere {p : ρ → Bool} {f : ρ → ρ} (hp : ∀ row ∈ rows, p row → R row (f row))
    (hnot : ∀ row ∈ rows, ¬ p row → R row row) : Revised R rows (updateWhere p f rows) := by
  refine ⟨fun row => if p row then f row else row, rfl, ?_⟩
  intro row hrow
  by_cases h : p row
  · simpa only [if_pos h] using hp row hrow h
  · simpa only [if_neg h] using hnot row hrow h

theorem revised_refl (h : ∀ row ∈ rows, R row row) : Revised R rows rows :=
  ⟨id, (map_id rows).symm, h⟩

theorem Revised.trans (hcompose : ∀ a b c, R a b → S b c → T a c) (h : Revised R rows rows')
    (h' : Revised S rows' rows'') : Revised T rows rows'' := by
  obtain ⟨revise, rfl, hR⟩ := h
  obtain ⟨revise', rfl, hS⟩ := h'
  refine ⟨revise' ∘ revise, by rw [map_map], ?_⟩
  intro row hrow
  exact hcompose _ _ _ (hR row hrow) (hS _ (mem_map_of_mem hrow))

theorem Revised.map_eq {key : ρ → κ} (hkey : ∀ a b, R a b → key b = key a)
    (h : Revised R rows rows') : rows'.map key = rows.map key := by
  obtain ⟨revise, rfl, hR⟩ := h
  rw [map_map]
  apply map_congr_left
  intro row hrow
  exact hkey _ _ (hR row hrow)

theorem Revised.exists_before (h : Revised R rows rows') {row' : ρ} (hrow' : row' ∈ rows') :
    ∃ row ∈ rows, R row row' := by
  obtain ⟨revise, rfl, hR⟩ := h
  obtain ⟨row, hrow, rfl⟩ := mem_map.mp hrow'
  exact ⟨row, hrow, hR row hrow⟩

theorem Revised.exists_after (h : Revised R rows rows') {row : ρ} (hrow : row ∈ rows) :
    ∃ row' ∈ rows', R row row' := by
  obtain ⟨revise, rfl, hR⟩ := h
  exact ⟨revise row, mem_map_of_mem hrow, hR row hrow⟩

end Revised

/-! ### Replacement of one row -/

/-- One row gives way to another one with its key. -/
structure Replaced [DecidableEq κ] (key : ρ → κ) (row row' : ρ) (rows rows' : List ρ) : Prop where
  mem : row ∈ rows
  sameKey : key row' = key row
  others : rows' = updateWhere (fun other => key other == key row) (fun _ => row') rows

/-- An update whose condition selects one row replaces it. -/
theorem replaced_updateWhere [DecidableEq κ] {key : ρ → κ} {rows : List ρ}
    (hnodup : (rows.map key).Nodup) {p : ρ → Bool} {f : ρ → ρ} {row : ρ} (hrow : row ∈ rows)
    (hp : p row) (honly : ∀ other ∈ rows, p other → key other = key row)
    (hkey : key (f row) = key row) : Replaced key row (f row) rows (updateWhere p f rows) where
  mem := hrow
  sameKey := hkey
  others := by
    unfold updateWhere
    apply map_congr_left
    intro other hother
    cases hselected : p other with
    | true =>
      have hsame := honly other hother hselected
      obtain rfl := inj_on_of_nodup_map hnodup hother hrow hsame
      simp
    | false =>
      have hne : key other ≠ key row := by
        intro hsame
        obtain rfl := inj_on_of_nodup_map hnodup hother hrow hsame
        rw [hp] at hselected
        cases hselected
      simp [hne]

theorem Replaced.refl [DecidableEq κ] (hnodup : (rows.map key).Nodup) (hrow : row ∈ rows) :
    Replaced key row row rows rows where
  mem := hrow
  sameKey := rfl
  others := by
    have hsame : ∀ other ∈ rows, (if key other == key row then row else other) = id other := by
      intro other hother
      split
      next hkey => exact (inj_on_of_nodup_map hnodup hother hrow (eq_of_beq hkey)).symm
      next => rfl
    unfold updateWhere
    rw [map_congr_left hsame, map_id]

theorem Replaced.mem_iff [DecidableEq κ] {row' : ρ} (h : Replaced key row row' rows rows')
    {other : ρ} : other ∈ rows' ↔ other = row' ∨ (other ∈ rows ∧ key other ≠ key row) := by
  rw [h.others, mem_updateWhere]
  constructor
  · rintro (⟨old, _, _, rfl⟩ | ⟨hother, hne⟩)
    · exact .inl rfl
    · exact .inr ⟨hother, by simpa using hne⟩
  · rintro (rfl | ⟨hother, hne⟩)
    · exact .inl ⟨row, h.mem, by simp, rfl⟩
    · exact .inr ⟨hother, by simpa using hne⟩

/-- A condition that only the row with one key satisfies is met once. -/
theorem countP_of_key (hnodup : (rows.map key).Nodup) (hrow : row ∈ rows) (hp : p row)
    (honly : ∀ other ∈ rows, p other → key other = key row) : rows.countP p = 1 := by
  induction rows with
  | nil => cases hrow
  | cons first rest ih =>
    obtain ⟨hfirst, hrest⟩ := nodup_cons.mp hnodup
    have hseparate : ∀ other ∈ rest, key other ≠ key first := by
      intro other hother hsame
      exact hfirst (hsame ▸ mem_map_of_mem hother)
    rcases mem_cons.mp hrow with rfl | hmem
    · have hzero : rest.countP p = 0 := by
        rw [countP_eq_zero]
        intro other hother hselected
        exact hseparate other hother (honly other (mem_cons_of_mem _ hother) hselected)
      rw [countP_cons_of_pos hp, hzero]
    · have hnot : ¬ p first := by
        intro hselected
        exact hseparate row hmem (honly first mem_cons_self hselected).symm
      rw [countP_cons_of_neg hnot]
      exact ih hrest hmem fun other hother => honly other (mem_cons_of_mem _ hother)

/-- Of two conditions with the same count, where one implies the other, each implies the other. -/
theorem of_countP_eq {p q : ρ → Bool} {rows : List ρ} (himp : ∀ row, p row = true → q row = true)
    (hcount : rows.countP p = rows.countP q) {row : ρ} (hrow : row ∈ rows) (hq : q row = true) :
    p row = true := by
  rw [countP_eq_length_filter, countP_eq_length_filter] at hcount
  have hsame : rows.filter p = rows.filter q :=
    (monotone_filter_right rows himp).eq_of_length hcount
  have hmem : row ∈ rows.filter p := by
    rw [hsame]
    exact mem_filter.mpr ⟨hrow, hq⟩
  exact (mem_filter.mp hmem).2

/-- A replacement moves one row from the count of the old to that of the new. -/
theorem Replaced.countP [DecidableEq κ] {row' : ρ} (hnodup : (rows.map key).Nodup)
    (h : Replaced key row row' rows rows') (q : ρ → Bool) :
    rows'.countP q + (q row).toNat = rows.countP q + (q row').toNat := by
  rw [h.others]
  have hmem := h.mem
  clear h
  induction rows with
  | nil => cases hmem
  | cons first rest ih =>
    obtain ⟨hfirst, hrest⟩ := nodup_cons.mp hnodup
    have hcount (p : ρ → Bool) (a : ρ) (l : List ρ) :
        (a :: l).countP p = l.countP p + (p a).toNat := by
      cases hp : p a with
      | true => simp [hp]
      | false => simp [hp]
    have hcons : updateWhere (fun other => key other == key row) (fun _ => row') (first :: rest) =
        (if key first == key row then row' else first) ::
          updateWhere (fun other => key other == key row) (fun _ => row') rest := rfl
    rw [hcons, hcount, hcount]
    rcases mem_cons.mp hmem with rfl | hlater
    · have hsame : updateWhere (fun other => key other == key row) (fun _ => row') rest = rest := by
        apply updateWhere_eq_self
        intro other hother hclash
        exact hfirst (eq_of_beq hclash ▸ mem_map_of_mem hother)
      rw [hsame, if_pos (beq_self_eq_true _)]
      omega
    · have hne : key first ≠ key row :=
        fun hclash => hfirst (hclash ▸ mem_map_of_mem hlater)
      have hrestCount := ih hrest hlater
      rw [if_neg (by simpa using hne)]
      omega

/-! ### Fresh identifiers -/

theorem lt_fresh {ids : List Nat} {id : Nat} (h : id ∈ ids) : id < ids.foldr max 0 + 1 := by
  induction ids with
  | nil => cases h
  | cons first rest ih =>
    simp only [foldr_cons]
    rcases mem_cons.mp h with rfl | h
    · omega
    · have hrest := ih h
      omega

theorem fresh_not_mem (ids : List Nat) : ids.foldr max 0 + 1 ∉ ids := by
  intro h
  exact absurd (lt_fresh h) (Nat.lt_irrefl _)

/-- `List.Nodup.concat` in the form an insert has. -/
theorem nodup_append_fresh {ids : List κ} (h : ids.Nodup) {id : κ} (hid : id ∉ ids) :
    (ids ++ [id]).Nodup := by
  rw [← concat_eq_append]
  exact h.concat hid

end Bis.Relation
