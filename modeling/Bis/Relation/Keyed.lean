import Bis.Relation.Table
import Mathlib.Data.List.Perm.Basic

/-!
Maps as lists of rows with a key, in insertion order: setting a row replaces
the row with its key in place or appends it. A fold that sets one row after the other keeps, for each
key, what the last row with that key says.
-/

namespace Bis.Relation

open List

variable {ρ κ : Type*} [DecidableEq κ] {key : ρ → κ}

def lookup (key : ρ → κ) (k : κ) (rows : List ρ) : Option ρ :=
  rows.find? fun row => key row = k

def upsert (key : ρ → κ) (row : ρ) : List ρ → List ρ
  | [] => [row]
  | old :: rest => if key old = key row then row :: rest else old :: upsert key row rest

@[simp]
theorem lookup_nil (k : κ) : lookup key k [] = none := rfl

theorem lookup_cons (k : κ) (row : ρ) (rows : List ρ) :
    lookup key k (row :: rows) = if key row = k then some row else lookup key k rows := by
  unfold lookup
  by_cases hkey : key row = k <;> simp [hkey]

theorem lookup_append (k : κ) (rows rows' : List ρ) :
    lookup key k (rows ++ rows') = (lookup key k rows).or (lookup key k rows') :=
  find?_append

theorem lookup_upsert (k : κ) (row : ρ) (rows : List ρ) :
    lookup key k (upsert key row rows) = if key row = k then some row else lookup key k rows := by
  induction rows with
  | nil => simp [upsert, lookup_cons]
  | cons old rest ih =>
    unfold upsert
    by_cases hold : key old = key row
    · rw [if_pos hold, lookup_cons, lookup_cons, hold]
      by_cases hkey : key row = k <;> simp [hkey]
    · rw [if_neg hold, lookup_cons, lookup_cons, ih]
      by_cases hkey : key row = k
      · have hne : key old ≠ k := fun h => hold (h.trans hkey.symm)
        simp [hkey, hne]
      · simp [hkey]

/-- What leaves the keys as they are shows under each key. -/
theorem lookup_map {f : ρ → ρ} (hkey : ∀ row, key (f row) = key row) (k : κ) (rows : List ρ) :
    lookup key k (rows.map f) = (lookup key k rows).map f := by
  induction rows with
  | nil => rfl
  | cons row rest ih =>
    rw [map_cons, lookup_cons, lookup_cons, hkey, ih]
    split <;> rfl

/-- An update of the rows with one key shows under that key. -/
theorem lookup_updateWhere {k k' : κ} {f : ρ → ρ} (hkey : ∀ row, key (f row) = key row)
    (rows : List ρ) :
    lookup key k (updateWhere (fun row => key row == k') f rows) =
      if k = k' then (lookup key k rows).map f else lookup key k rows := by
  have hkept : ∀ row, key (if key row == k' then f row else row) = key row := by
    intro row
    split
    · exact hkey row
    · rfl
  unfold updateWhere
  rw [lookup_map hkept]
  cases hfind : lookup key k rows with
  | none => simp
  | some row =>
    have hrow : key row = k := by simpa using find?_some hfind
    by_cases hkk : k = k' <;> simp [hrow, hkk]

variable {row other : ρ}

theorem mem_upsert {rows : List ρ} (h : other ∈ upsert key row rows) :
    other = row ∨ other ∈ rows := by
  induction rows with
  | nil => exact .inl (mem_singleton.mp h)
  | cons old rest ih =>
    unfold upsert at h
    by_cases hold : key old = key row
    · rw [if_pos hold] at h
      rcases mem_cons.mp h with rfl | hrest
      · exact .inl rfl
      · exact .inr (mem_cons_of_mem _ hrest)
    · rw [if_neg hold] at h
      rcases mem_cons.mp h with rfl | hrest
      · exact .inr mem_cons_self
      · exact (ih hrest).imp id (mem_cons_of_mem _)

theorem nodup_upsert {rows : List ρ} (h : (rows.map key).Nodup) :
    ((upsert key row rows).map key).Nodup := by
  induction rows with
  | nil => simp [upsert]
  | cons old rest ih =>
    obtain ⟨hfresh, hrest⟩ := nodup_cons.mp h
    unfold upsert
    by_cases hold : key old = key row
    · rw [if_pos hold]
      exact nodup_cons.mpr ⟨hold ▸ hfresh, hrest⟩
    · rw [if_neg hold]
      refine nodup_cons.mpr ⟨?_, ih hrest⟩
      intro hmem
      obtain ⟨other, hother, hkey⟩ := mem_map.mp hmem
      rcases mem_upsert hother with rfl | hother
      · exact hold hkey.symm
      · exact hfresh (mem_map.mpr ⟨other, hother, hkey⟩)

/-- A row that replaces one with the same field leaves that field as it is. -/
theorem map_upsert_field {β : Type*} (f : ρ → β) {old : ρ} {rows : List ρ} (hold : old ∈ rows)
    (hkey : key old = key row) (hf : ∀ other ∈ rows, key other = key row → f other = f row) :
    (upsert key row rows).map f = rows.map f := by
  induction rows with
  | nil => cases hold
  | cons first rest ih =>
    unfold upsert
    by_cases hfirst : key first = key row
    · rw [if_pos hfirst, map_cons, map_cons, hf first mem_cons_self hfirst]
    · rw [if_neg hfirst, map_cons, map_cons]
      rcases mem_cons.mp hold with rfl | hmem
      · exact absurd hkey hfirst
      · rw [ih hmem fun other hother => hf other (mem_cons_of_mem _ hother)]

/-- Where there is a row to replace, no key is added. -/
theorem map_upsert {row old : ρ} {rows : List ρ} (hold : old ∈ rows) (hkey : key old = key row) :
    (upsert key row rows).map key = rows.map key :=
  map_upsert_field key hold hkey fun _ _ hsame => hsame

theorem upsert_map {f : ρ → ρ} (hkey : ∀ row, key (f row) = key row) (row : ρ) (rows : List ρ) :
    upsert key (f row) (rows.map f) = (upsert key row rows).map f := by
  induction rows with
  | nil => rfl
  | cons old rest ih =>
    rw [map_cons]
    unfold upsert
    rw [hkey, hkey, ih]
    split <;> rfl

theorem found_of_lookup {k : κ} {rows : List ρ} (h : lookup key k rows = some row) :
    row ∈ rows ∧ key row = k :=
  ⟨mem_of_find?_eq_some h, by simpa using find?_some h⟩

theorem lookup_eq_some_iff {k : κ} {rows : List ρ} (h : (rows.map key).Nodup) :
    lookup key k rows = some row ↔ row ∈ rows ∧ key row = k := by
  constructor
  · exact found_of_lookup
  · rintro ⟨hrow, hkey⟩
    induction rows with
    | nil => cases hrow
    | cons old rest ih =>
      obtain ⟨hfresh, hrest⟩ := nodup_cons.mp h
      rw [lookup_cons]
      rcases mem_cons.mp hrow with rfl | hmem
      · rw [if_pos hkey]
      · have hne : key old ≠ k := by
          intro hold
          exact hfresh (mem_map.mpr ⟨row, hmem, hkey.trans hold.symm⟩)
        rw [if_neg hne]
        exact ih hrest hmem

/-- The rows beside the one that is written stay. -/
theorem mem_upsert_iff {rows : List ρ} (h : (rows.map key).Nodup) :
    other ∈ upsert key row rows ↔ other = row ∨ (other ∈ rows ∧ key other ≠ key row) := by
  have hafter : ((upsert key row rows).map key).Nodup := nodup_upsert h
  have hself : row ∈ upsert key row rows := by
    have hfound := @lookup_upsert ρ κ _ key (key row) row rows
    rw [if_pos rfl] at hfound
    exact mem_of_find?_eq_some hfound
  constructor
  · intro hother
    rcases mem_upsert hother with rfl | hold
    · exact .inl rfl
    · by_cases hkey : key other = key row
      · exact .inl (inj_on_of_nodup_map hafter hother hself hkey)
      · exact .inr ⟨hold, hkey⟩
  · rintro (rfl | ⟨hold, hkey⟩)
    · exact hself
    · have hfound := @lookup_upsert ρ κ _ key (key other) row rows
      rw [if_neg (Ne.symm hkey), (lookup_eq_some_iff h).mpr ⟨hold, rfl⟩] at hfound
      exact mem_of_find?_eq_some hfound

/-- With unique keys the order of the rows does not matter. -/
theorem lookup_perm {k : κ} {rows rows' : List ρ} (h : (rows.map key).Nodup)
    (hperm : rows'.Perm rows) : lookup key k rows' = lookup key k rows := by
  have h' : (rows'.map key).Nodup := (hperm.map key).nodup_iff.mpr h
  apply Option.ext
  intro row
  rw [lookup_eq_some_iff h, lookup_eq_some_iff h', hperm.mem_iff]

/-- The last row with a key. -/
def lastOf (key : ρ → κ) (k : κ) : List ρ → Option ρ
  | [] => none
  | row :: rest => (lastOf key k rest).or (if key row = k then some row else none)

theorem lastOf_eq_some {k : κ} {rows : List ρ} (h : lastOf key k rows = some row) :
    row ∈ rows ∧ key row = k := by
  induction rows with
  | nil => cases h
  | cons first rest ih =>
    unfold lastOf at h
    rcases Option.or_eq_some_iff.mp h with hrest | ⟨_, hfirst⟩
    · obtain ⟨hmem, hkey⟩ := ih hrest
      exact ⟨mem_cons_of_mem _ hmem, hkey⟩
    · split at hfirst
      next hkey =>
        cases hfirst
        exact ⟨mem_cons_self, hkey⟩
      next => cases hfirst

theorem lastOf_eq_none {k : κ} {rows : List ρ} (h : lastOf key k rows = none) :
    ∀ row ∈ rows, key row ≠ k := by
  induction rows with
  | nil =>
    intro row hrow
    cases hrow
  | cons first rest ih =>
    unfold lastOf at h
    obtain ⟨hrest, hfirst⟩ := Option.or_eq_none_iff.mp h
    intro row hrow hkey
    rcases mem_cons.mp hrow with rfl | hmem
    · simp [hkey] at hfirst
    · exact ih hrest row hmem hkey

theorem lastOf_map {ι : Type*} (f : ι → ρ) (k : κ) (rows : List ι) :
    lastOf key k (rows.map f) = (lastOf (fun row => key (f row)) k rows).map f := by
  induction rows with
  | nil => rfl
  | cons row rest ih =>
    simp only [map_cons, lastOf, ih, Option.map_or]
    split <;> rfl

variable (key) in
/-- The last row with the key decides what a fold leaves under the key. -/
theorem foldl_lastOf {β γ : Type*} {k : κ} (view : β → γ) (f : β → ρ → β) (value : ρ → γ)
    (hstep : ∀ b row, view (f b row) = if key row = k then value row else view b)
    (rows : List ρ) (b : β) :
    view (rows.foldl f b) = (lastOf key k rows).elim (view b) value := by
  induction rows generalizing b with
  | nil => rfl
  | cons row rest ih =>
    rw [foldl_cons, ih, hstep, lastOf]
    cases lastOf key k rest with
    | some last => rfl
    | none =>
      by_cases hkey : key row = k <;> simp [hkey]

theorem nodup_foldl_upsert {rows kept : List ρ} (h : (kept.map key).Nodup) :
    ((rows.foldl (fun kept row => upsert key row kept) kept).map key).Nodup := by
  induction rows generalizing kept with
  | nil => exact h
  | cons row rest ih => exact ih (nodup_upsert h)

/-- Rows that are kept by their keys: the last one of each. -/
theorem mem_foldl_upsert {rows : List ρ} :
    row ∈ rows.foldl (fun kept row => upsert key row kept) [] ↔
      lastOf key (key row) rows = some row := by
  have hlookup := foldl_lastOf key (lookup key (key row)) (fun kept row => upsert key row kept)
    some (fun kept other => lookup_upsert (key row) other kept) rows []
  have hlast : (lastOf key (key row) rows).elim none some = lastOf key (key row) rows := by
    cases lastOf key (key row) rows <;> rfl
  rw [lookup_nil, hlast] at hlookup
  have hempty : (([] : List ρ).map key).Nodup := nodup_nil
  rw [← hlookup, lookup_eq_some_iff (nodup_foldl_upsert hempty)]
  exact (and_iff_left rfl).symm

end Bis.Relation
