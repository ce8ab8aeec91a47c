import Bis.Relation.Batch

/-!
Reading a table page by page. The rows are ordered by a key, a page ends on a
row, and the next page asks for the rows behind the key of that row. Where no
key occurs twice, the pages are the pieces of the ordered table.
-/

namespace Bis.Relation

open List

section

variable {ρ κ : Type*} [LinearOrder κ] {key : ρ → κ} {rows : List ρ}

/-- `ORDER BY key DESC`. -/
def descending (key : ρ → κ) (rows : List ρ) : List ρ :=
  rows.insertionSort fun a b => key b ≤ key a

theorem descending_perm (rows : List ρ) : (descending key rows).Perm rows :=
  perm_insertionSort _ rows

instance total_key : Std.Total fun a b : ρ => key b ≤ key a := ⟨fun a b => le_total (key b) (key a)⟩

instance isTrans_key : IsTrans ρ fun a b => key b ≤ key a := ⟨fun _ _ _ hab hbc => le_trans hbc hab⟩

/-- Without a key that occurs twice, the order has no ties. -/
theorem descending_strict (h : (rows.map key).Nodup) :
    (descending key rows).Pairwise fun a b => key b < key a := by
  have hsorted : (descending key rows).Pairwise fun a b => key b ≤ key a :=
    pairwise_insertionSort _ rows
  have hkeys : ((descending key rows).map key).Nodup :=
    (List.Perm.nodup_iff ((descending_perm rows).map key)).mpr h
  have hdistinct : (descending key rows).Pairwise fun a b => key a ≠ key b :=
    pairwise_map.mp hkeys
  refine (hsorted.and hdistinct).imp ?_
  rintro a b ⟨hle, hne⟩
  exact lt_of_le_of_ne hle (Ne.symm hne)

theorem strict_unique {front back : List ρ} (hfront : front.Pairwise fun a b => key b < key a)
    (hback : back.Pairwise fun a b => key b < key a) (hperm : front.Perm back) : front = back := by
  refine List.Perm.eq_of_pairwise ?_ hfront hback hperm
  intro a b _ _ hab hba
  exact absurd hab (lt_asymm hba)

/-- The rows that satisfy `p`, in the order of all of them. -/
theorem descending_filter (h : (rows.map key).Nodup) (p : ρ → Bool) :
    descending key (rows.filter p) = (descending key rows).filter p := by
  have hsub : ((rows.filter p).map key).Nodup := h.sublist (filter_sublist.map key)
  refine strict_unique (descending_strict hsub) ((descending_strict h).filter p) ?_
  exact (descending_perm _).trans ((descending_perm rows).filter p).symm

/-- The rows behind the key of a row are what follows that row. -/
theorem filter_behind {front rest : List ρ} {last : ρ}
    (h : (front ++ last :: rest).Pairwise fun a b => key b < key a) :
    (front ++ last :: rest).filter (fun row => decide (key row < key last)) = rest := by
  obtain ⟨_, hrest, hacross⟩ := pairwise_append.mp h
  have hbefore : front.filter (fun row => decide (key row < key last)) = [] := by
    refine filter_eq_nil_iff.mpr ?_
    intro row hrow
    have hlast := hacross row hrow last mem_cons_self
    simpa using le_of_lt hlast
  have hbehind : rest.filter (fun row => decide (key row < key last)) = rest := by
    refine filter_eq_self.mpr ?_
    intro row hrow
    exact decide_eq_true ((pairwise_cons.mp hrest).1 row hrow)
  have hself : decide (key last < key last) = false := decide_eq_false (lt_irrefl _)
  rw [filter_append, hbefore, filter_cons, hself, hbehind]
  rfl

end

/-! ### Pages -/

section

variable {ρ α γ ε : Type*} {limit : Nat} {rows : List ρ}

structure Page (α γ : Type*) where
  items : List α
  next : Option γ

/-- The pages one after the other, read number `k` first, until one has no
successor. `none` is a walk that is not over after `fuel` pages. -/
def walk (read : Nat → Option γ → Except ε (Page α γ)) :
    Nat → Nat → Option γ → Option (Except ε (List α))
  | 0, _, _ => none
  | fuel + 1, k, cursor =>
    match read k cursor with
    | .error e => some (.error e)
    | .ok page =>
      match page.next with
      | none => some (.ok page.items)
      | some next => (walk read fuel (k + 1) (some next)).map (·.map (page.items ++ ·))

/-- The last row of a page that others follow. -/
def PageEnd (limit : Nat) (rows : List ρ) (row : ρ) : Prop :=
  ∃ page, 0 < page ∧ page * limit < rows.length ∧ rows[page * limit - 1]? = some row

theorem PageEnd.lt_length {row : ρ} (h : PageEnd limit rows row) : limit < rows.length := by
  obtain ⟨page, hpage, hlength, _⟩ := h
  have hle : 1 * limit ≤ page * limit := Nat.mul_le_mul_right limit hpage
  omega

theorem pageEnd_first {row : ρ} (hmore : limit < rows.length)
    (hrow : rows[limit - 1]? = some row) : PageEnd limit rows row :=
  ⟨1, by omega, by omega, by rwa [Nat.one_mul]⟩

/-- A page ends where the first one does, or where one of the pages behind it does. -/
theorem pageEnd_iff (hlimit : 0 < limit) {row : ρ} :
    PageEnd limit rows row ↔
      limit < rows.length ∧ (rows[limit - 1]? = some row ∨ PageEnd limit (rows.drop limit) row) := by
  constructor
  · intro h
    refine ⟨h.lt_length, ?_⟩
    obtain ⟨page, hpage, hlength, hrow⟩ := h
    rcases Nat.lt_or_ge 1 page with hlater | hfirst
    · have hmul : (page - 1) * limit = page * limit - limit := by
        rw [Nat.sub_mul, Nat.one_mul]
      have hpos : 1 * limit ≤ (page - 1) * limit := Nat.mul_le_mul_right limit (by omega)
      refine Or.inr ⟨page - 1, by omega, ?_, ?_⟩
      · rw [length_drop]
        omega
      · rw [List.getElem?_drop, ← hrow]
        congr 1
        omega
    · have hone : page = 1 := by omega
      rw [hone, Nat.one_mul] at hrow
      exact Or.inl hrow
  · rintro ⟨hmore, hrow | ⟨page, hpage, hlength, hrow⟩⟩
    · exact pageEnd_first hmore hrow
    · rw [length_drop] at hlength
      have hmul : (page + 1) * limit = page * limit + limit := Nat.succ_mul page limit
      have hpos : 1 * limit ≤ page * limit := Nat.mul_le_mul_right limit hpage
      refine ⟨page + 1, by omega, by omega, ?_⟩
      rw [List.getElem?_drop] at hrow
      rw [← hrow]
      congr 1
      omega

/-- What a page ends on. -/
theorem getLast?_take (hlimit : 0 < limit) (hmore : limit < rows.length) :
    (rows.take limit).getLast? = rows[limit - 1]? := by
  rw [getLast?_eq_getElem?, length_take, Nat.min_eq_left (by omega),
    List.getElem?_take_of_lt (by omega)]

variable {read : Nat → Option γ → Except ε (Page α γ)} {At : Nat → Option γ → List ρ → Prop}

/-- A walk whose every page takes the next rows, and hands on a cursor as long
as there are more, reads all rows. -/
theorem walk_reads {entry : ρ → α} (hlimit : 0 < limit)
    (hlast : ∀ k cursor rest, At k cursor rest → rest.length ≤ limit → read k cursor = .ok ⟨rest.map
      entry, none⟩)
    (hmore : ∀ k cursor rest, At k cursor rest → limit < rest.length → ∃ next, read k cursor = .ok
      ⟨(rest.take limit).map entry, some next⟩ ∧ At (k + 1) (some next) (rest.drop limit)) {k : Nat}
    {cursor : Option γ} (hat : At k cursor rows) :
    ∃ fuel, walk read fuel k cursor = some (.ok (rows.map entry)) := by
  induction hlength : rows.length using Nat.strongRecOn generalizing rows k cursor with
  | ind length ih =>
    rcases Nat.lt_or_ge limit rows.length with hlong | hshort
    · obtain ⟨next, hread, hnext⟩ := hmore k cursor rows hat hlong
      have hdrop : (rows.drop limit).length < length := by
        rw [length_drop]
        omega
      obtain ⟨fuel, hfuel⟩ := ih _ hdrop hnext rfl
      refine ⟨fuel + 1, ?_⟩
      have hparts : (rows.take limit).map entry ++ (rows.drop limit).map entry =
          rows.map entry := by
        rw [← map_append, take_append_drop]
      simp only [walk, hread, hfuel, Option.map_some, Except.map, hparts]
    · refine ⟨1, ?_⟩
      simp only [walk, hlast k cursor rows hat hshort]

/-- What holds of the rows of every page that can be read holds of all rows of
a walk that comes to its end, and every page that others follow hands on a
cursor that can be read. -/
theorem walk_ok {Good Ends : ρ → Prop} (hlimit : 0 < limit)
    (hgood : ∀ k cursor rest page, At k cursor rest → read k cursor = .ok page → ∀ row ∈ rest.take
      limit, Good row)
    (hends : ∀ k cursor rest page, At k cursor rest → read k cursor = .ok page → limit < rest.length
      → ∃ next, page.next = some next ∧ At (k + 1) (some next) (rest.drop limit) ∧ ∀ page', read (k
      + 1) (some next) = .ok page' → ∀ row, rest[limit - 1]? = some row → Ends row) {fuel k : Nat}
    {cursor : Option γ} {items : List α} (hwalk : walk read fuel k cursor = some (.ok items))
    (hat : At k cursor rows) :
    (∀ row ∈ rows, Good row) ∧ ∀ row, PageEnd limit rows row → Ends row := by
  induction fuel generalizing k cursor rows items with
  | zero => cases hwalk
  | succ fuel ih =>
    rw [walk] at hwalk
    cases hread : read k cursor with
    | error e =>
      rw [hread] at hwalk
      cases hwalk
    | ok page =>
      rw [hread] at hwalk
      have hfirst := hgood k cursor rows page hat hread
      rcases Nat.lt_or_ge limit rows.length with hlong | hshort
      · obtain ⟨next, hnext, hat', hreadable⟩ := hends k cursor rows page hat hread hlong
        simp only [hnext, Option.map_eq_some_iff] at hwalk
        obtain ⟨result, hresult, hitems⟩ := hwalk
        cases result with
        | error e => cases hitems
        | ok items' =>
          obtain ⟨hrest, hlater⟩ := ih hresult hat'
          refine ⟨?_, ?_⟩
          · intro row hrow
            rw [← take_append_drop limit rows] at hrow
            exact (mem_append.mp hrow).elim (hfirst row) (hrest row)
          · intro row hrow
            rcases ((pageEnd_iff hlimit).mp hrow).2 with hhere | hthere
            · obtain ⟨page', hpage'⟩ : ∃ page', read (k + 1) (some next) = .ok page' := by
                cases hagain : read (k + 1) (some next) with
                | ok page' => exact ⟨page', rfl⟩
                | error e =>
                  cases fuel with
                  | zero => cases hresult
                  | succ fuel => rw [walk, hagain] at hresult; cases hresult
              exact hreadable page' hpage' row hhere
            · exact hlater row hthere
      · rw [take_of_length_le hshort] at hfirst
        refine ⟨hfirst, fun row hrow => ?_⟩
        have hlong := hrow.lt_length
        omega

end

end Bis.Relation
