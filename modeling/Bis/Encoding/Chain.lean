import Mathlib.Data.List.Chain

/-!
Records that carry a digest of themselves and the digest of the record before
them. The last digest of such a chain settles the contents of all its records
as far as one digest settles the content of one record.
-/

namespace Bis.Encoding

open List

variable {ρ δ κ : Type*} {stored link : ρ → δ} {content : ρ → κ} {R : ρ → ρ → Prop}

/-- Every record names the digest of the one before it. -/
def Linked (stored link : ρ → δ) (records : List ρ) : Prop :=
  records.IsChain fun previous record => link record = stored previous

variable {records records' : List ρ}

/-- The argument from the last record backwards, the newest one first. -/
theorem contents_eq_of_head_eq
    (hread : ∀ a ∈ records, ∀ b ∈ records', R a b → stored a = stored b → content a = content b)
    (hlink : ∀ a b, content a = content b → link a = link b)
    (hlinked : records.IsChain fun record previous => link record = stored previous)
    (hlinked' : records'.IsChain fun record previous => link record = stored previous)
    (hshape : List.Forall₂ R records records')
    (hhead : records.head?.map stored = records'.head?.map stored) :
    records.map content = records'.map content := by
  induction hshape with
  | nil => rfl
  | @cons a b rest rest' hab hrest ih =>
    have hcontent : content a = content b :=
      hread a mem_cons_self b mem_cons_self hab (Option.some.inj hhead)
    have hprevious : rest.head?.map stored = rest'.head?.map stored := by
      cases hrest with
      | nil => rfl
      | cons _ _ =>
        rw [isChain_cons_cons] at hlinked hlinked'
        have hsame := hlink a b hcontent
        rw [hlinked.1, hlinked'.1] at hsame
        exact congrArg some hsame
    have htail := ih
      (fun x hx y hy => hread x (mem_cons_of_mem _ hx) y (mem_cons_of_mem _ hy))
      hlinked.tail hlinked'.tail hprevious
    rw [map_cons, map_cons, hcontent, htail]

/-- Two chains of one shape that end in one digest have one content, where equal
digests of records of one shape mean equal contents. -/
theorem contents_eq_of_getLast_eq
    (hread : ∀ a ∈ records, ∀ b ∈ records', R a b → stored a = stored b → content a = content b)
    (hlink : ∀ a b, content a = content b → link a = link b) (hlinked : Linked stored link records)
    (hlinked' : Linked stored link records') (hshape : List.Forall₂ R records records')
    (hlast : records.getLast?.map stored = records'.getLast?.map stored) :
    records.map content = records'.map content := by
  have hreversed : records.reverse.map content = records'.reverse.map content :=
    contents_eq_of_head_eq
      (fun a ha b hb => hread a (mem_reverse.mp ha) b (mem_reverse.mp hb)) hlink
      (isChain_reverse.mpr hlinked) (isChain_reverse.mpr hlinked')
      (rel_reverse hshape) (by simpa [head?_reverse] using hlast)
  simpa [map_reverse] using hreversed

end Bis.Encoding
