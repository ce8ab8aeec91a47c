import Mathlib.Data.List.Perm.Basic

/-!
Two lists that match as multisets: one of them can be reordered so that the
entries are related one by one. If related entries have the same key, the lists
match exactly if their entries under each key do.
-/

namespace Bis.Relation

variable {α β κ : Type*} {r : α → β → Prop}

/-- The entries can be paired off. -/
def Matched (r : α → β → Prop) (left : List α) (right : List β) : Prop :=
  ∃ paired : List β, paired.Perm right ∧ List.Forall₂ r left paired

variable {right : List β} {left : List α}

theorem matched_nil_iff : Matched r [] right ↔ right = [] := by
  constructor
  · rintro ⟨paired, hperm, hpaired⟩
    cases hpaired
    exact List.nil_perm.mp hperm
  · rintro rfl
    exact ⟨[], List.Perm.refl [], .nil⟩

theorem Matched.of_perm {right' : List β} (hperm : right.Perm right') (h : Matched r left right) :
    Matched r left right' := by
  obtain ⟨paired, hpaired, hall⟩ := h
  exact ⟨paired, hpaired.trans hperm, hall⟩

theorem matched_cons_of {a : α} {b : β} (hab : r a b) (h : Matched r left right) :
    Matched r (a :: left) (b :: right) := by
  obtain ⟨paired, hpaired, hall⟩ := h
  exact ⟨b :: paired, hpaired.cons b, .cons hab hall⟩

/-- The first entry has a partner, and the others match what is left of the right. -/
theorem Matched.cons_inv {a : α} (h : Matched r (a :: left) right) :
    ∃ b rest, r a b ∧ right.Perm (b :: rest) ∧ Matched r left rest := by
  obtain ⟨paired, hperm, hall⟩ := h
  cases hall with
  | cons hab hrest => exact ⟨_, _, hab, hperm.symm, _, List.Perm.refl _, hrest⟩

section Keys

variable [DecidableEq κ] {leftKey : α → κ} {rightKey : β → κ}

/-- The entries under a key. -/
def under (key : α → κ) (k : κ) (entries : List α) : List α :=
  entries.filter fun a => decide (key a = k)

@[simp]
theorem mem_under {key : α → κ} {k : κ} {entries : List α} {a : α} :
    a ∈ under key k entries ↔ a ∈ entries ∧ key a = k := by
  simp [under]

theorem under_cons_self (key : α → κ) (a : α) (entries : List α) :
    under key (key a) (a :: entries) = a :: under key (key a) entries :=
  List.filter_cons_of_pos (decide_eq_true rfl)

theorem under_cons_of_ne {key : α → κ} {k : κ} {a : α} (h : key a ≠ k) (entries : List α) :
    under key k (a :: entries) = under key k entries :=
  List.filter_cons_of_neg (by simpa using h)

variable (hkeys : ∀ a b, r a b → leftKey a = rightKey b)

include hkeys

theorem forall₂_under {left : List α} {paired : List β} (h : List.Forall₂ r left paired) (k : κ) :
    List.Forall₂ r (under leftKey k left) (under rightKey k paired) := by
  induction h with
  | nil => exact .nil
  | @cons a b left paired hab _ ih =>
    have hkey : leftKey a = rightKey b := hkeys a b hab
    by_cases hk : leftKey a = k
    · subst hk
      rw [under_cons_self, hkey, under_cons_self, ← hkey]
      exact .cons hab ih
    · rw [under_cons_of_ne hk, under_cons_of_ne (hkey ▸ hk)]
      exact ih

/-- Lists match if their entries under each key do. -/
theorem matched_iff_under {left : List α} {right : List β} :
    Matched r left right ↔
      ∀ k, Matched r (under leftKey k left) (under rightKey k right) := by
  constructor
  · rintro ⟨paired, hperm, hall⟩ k
    exact ⟨under rightKey k paired, hperm.filter _, forall₂_under hkeys hall k⟩
  intro h
  induction left generalizing right with
  | nil =>
    apply matched_nil_iff.mpr
    apply List.eq_nil_iff_forall_not_mem.mpr
    intro b hb
    have hempty := matched_nil_iff.mp (h (rightKey b))
    exact List.not_mem_nil (hempty ▸ mem_under.mpr ⟨hb, rfl⟩)
  | cons a left ih =>
    have hhead := h (leftKey a)
    rw [under_cons_self] at hhead
    obtain ⟨b, rest, hab, hperm, hrest⟩ := hhead.cons_inv
    have hkey : leftKey a = rightKey b := hkeys a b hab
    have hmem : b ∈ right := (mem_under.mp (hperm.mem_iff.mpr List.mem_cons_self)).1
    obtain ⟨before, after, rfl⟩ := List.append_of_mem hmem
    have hmove : (before ++ b :: after).Perm (b :: (before ++ after)) := List.perm_middle
    have hothers : Matched r left (before ++ after) := by
      apply ih
      intro k
      have hfiltered : (under rightKey k (before ++ b :: after)).Perm
          (under rightKey k (b :: (before ++ after))) := hmove.filter _
      by_cases hk : leftKey a = k
      · subst hk
        rw [hkey, under_cons_self, ← hkey] at hfiltered
        exact hrest.of_perm (hperm.symm.trans hfiltered).cons_inv
      · have hmatched := (h k).of_perm hfiltered
        rwa [under_cons_of_ne hk, under_cons_of_ne (hkey ▸ hk)] at hmatched
    exact (matched_cons_of hab hothers).of_perm hmove.symm

end Keys

end Bis.Relation
