import Bis.Transition.Run
import Mathlib.Data.List.Forall2

/-!
Lists compared place by place: through a conversion that can fail, by a relation that
only relates an element to itself, and after two filters.
-/

namespace Bis.Relation

open Bis.Transition List

/-- Converting the first list and comparing is comparing through the conversion. -/
theorem exists_mapM_ok_iff {α β γ ε : Type*} {f : α → Except ε β} {S : β → γ → Prop}
    (left : List α) (right : List γ) :
    (∃ rows, left.mapM f = .ok rows ∧ List.Forall₂ S rows right) ↔
      List.Forall₂ (fun a c => ∃ row, f a = .ok row ∧ S row c) left right := by
  induction left generalizing right with
  | nil =>
    constructor
    · rintro ⟨rows, hrows, hsame⟩
      rw [mapM_nil] at hrows
      cases hrows
      rw [List.forall₂_nil_left_iff] at hsame ⊢
      exact hsame
    · intro h
      exact ⟨[], rfl, by rwa [List.forall₂_nil_left_iff] at h ⊢⟩
  | cons a rest ih =>
    rw [mapM_cons]
    constructor
    · rintro ⟨rows, hrows, hsame⟩
      obtain ⟨row, hrow, hrows⟩ := except_bind_ok hrows
      obtain ⟨others, hothers, hrows⟩ := except_bind_ok hrows
      cases hrows
      obtain ⟨c, more, hc, hmore, rfl⟩ := List.forall₂_cons_left_iff.mp hsame
      exact .cons ⟨row, hrow, hc⟩ ((ih more).mp ⟨others, hothers, hmore⟩)
    · intro h
      obtain ⟨c, more, ⟨row, hrow, hc⟩, hmore, rfl⟩ := List.forall₂_cons_left_iff.mp h
      obtain ⟨others, hothers, hsame⟩ := (ih more).mpr hmore
      refine ⟨row :: others, ?_, .cons hc hsame⟩
      rw [hrow, hothers]
      rfl

theorem forall₂_iff_of_diagonal {α : Type*} {R : α → α → Prop} {left right : List α}
    (h : ∀ a ∈ left, ∀ b ∈ right, R a b → a = b) :
    List.Forall₂ R left right ↔ left = right ∧ ∀ a ∈ left, R a a := by
  constructor
  · intro hrelated
    have hequal : left = right := by
      induction hrelated with
      | nil => rfl
      | cons hab _ ih =>
        obtain rfl := h _ mem_cons_self _ mem_cons_self hab
        rw [ih fun a ha b hb => h a (mem_cons_of_mem _ ha) b (mem_cons_of_mem _ hb)]
    subst hequal
    exact ⟨rfl, List.forall₂_same.mp hrelated⟩
  · rintro ⟨rfl, hsame⟩
    exact List.forall₂_same.mpr hsame

theorem filter_eq_filter_take_iff {α : Type*} {p q : α → Bool} (himp : ∀ a, p a → q a) (n : Nat)
    (list : List α) :
    list.filter p = (list.take n).filter q ↔
      (∀ a ∈ list.take n, q a → p a) ∧ ∀ a ∈ list.drop n, ¬ p a := by
  have hsplit : list.filter p = (list.take n).filter p ++ (list.drop n).filter p := by
    rw [← filter_append, take_append_drop]
  constructor
  · intro hequal
    have hshown : ∀ a ∈ list.take n, q a → p a := by
      intro a ha hq
      have hmem : a ∈ list.filter p := by
        rw [hequal]
        exact mem_filter.mpr ⟨ha, hq⟩
      exact (mem_filter.mp hmem).2
    have hkept : (list.take n).filter q = (list.take n).filter p := by
      apply filter_congr
      intro a ha
      rw [Bool.eq_iff_iff]
      exact ⟨hshown a ha, himp a⟩
    rw [hsplit, hkept, append_right_eq_self] at hequal
    exact ⟨hshown, filter_eq_nil_iff.mp hequal⟩
  · rintro ⟨hshown, hnone⟩
    rw [hsplit, filter_eq_nil_iff.mpr hnone, append_nil]
    apply filter_congr
    intro a ha
    rw [Bool.eq_iff_iff]
    exact ⟨himp a, hshown a ha⟩

end Bis.Relation
