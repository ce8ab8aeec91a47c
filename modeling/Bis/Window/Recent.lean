import Mathlib.Data.List.Basic
import Mathlib.Order.Lattice

/-!
Sliding windows over a log of stamped entries. A window is kept by dropping
its stale prefix and appending at its end; what it is meant to be is the
recent part of the whole log. The two agree as long as entries arrive in the
order of their stamps and the cutoff only moves forward.
-/

namespace Bis.Window

open List

variable {α β : Type*} [LinearOrder β] (stamp : α → β)

/-- Entries stand in the order of their stamps. -/
def Ordered (entries : List α) : Prop :=
  entries.Pairwise fun x y => stamp x ≤ stamp y

/-- The entries a query with this cutoff is about. -/
def recent (cutoff : β) (entries : List α) : List α :=
  entries.filter fun x => decide (cutoff ≤ stamp x)

/-- What the loop that pops stale entries off the front leaves. -/
def evict (cutoff : β) (entries : List α) : List α :=
  entries.dropWhile fun x => decide (stamp x < cutoff)

theorem recent_append (cutoff : β) (first second : List α) :
    recent stamp cutoff (first ++ second) =
      recent stamp cutoff first ++ recent stamp cutoff second :=
  filter_append first second

variable {stamp} {cutoff : β} {entries : List α}

theorem recent_of_all (h : ∀ x ∈ entries, cutoff ≤ stamp x) :
    recent stamp cutoff entries = entries := by
  apply filter_eq_self.mpr
  intro x hx
  exact decide_eq_true (h x hx)

variable {earlier limit : β}

theorem recent_recent (h : earlier ≤ cutoff) (entries : List α) :
    recent stamp cutoff (recent stamp earlier entries) = recent stamp cutoff entries := by
  unfold recent
  rw [filter_filter]
  apply filter_congr
  intro x _
  rw [← Bool.decide_and, decide_eq_decide]
  exact ⟨fun hx => hx.1, fun hx => ⟨hx, h.trans hx⟩⟩

/-- On an ordered log the stale entries are a prefix, so popping it leaves
exactly the recent entries. -/
theorem evict_eq_recent (h : Ordered stamp entries) :
    evict stamp cutoff entries = recent stamp cutoff entries := by
  induction entries with
  | nil => rfl
  | cons x rest ih =>
    obtain ⟨hfirst, hrest⟩ := pairwise_cons.mp h
    rcases lt_or_ge (stamp x) cutoff with hx | hx
    · have hpop : evict stamp cutoff (x :: rest) = evict stamp cutoff rest := by
        simp [evict, hx]
      have hstale : recent stamp cutoff (x :: rest) = recent stamp cutoff rest := by
        simp [recent, hx]
      rw [hpop, hstale]
      exact ih hrest
    · have hkeep : evict stamp cutoff (x :: rest) = x :: rest := by
        simp [evict, hx]
      rw [hkeep, recent_of_all]
      intro y hy
      rcases mem_cons.mp hy with rfl | hy
      · exact hx
      · exact hx.trans (hfirst y hy)

theorem evict_cons_of_lt {x : α} (h : stamp x < cutoff) (entries : List α) :
    evict stamp cutoff (x :: entries) = evict stamp cutoff entries := by
  simp [evict, h]

theorem evict_cons_of_le {x : α} (h : cutoff ≤ stamp x) (entries : List α) :
    evict stamp cutoff (x :: entries) = x :: entries := by
  simp [evict, h]

/-- What is left begins with a fresh entry. -/
theorem le_of_mem_head?_evict {x : α} (h : x ∈ (evict stamp cutoff entries).head?) :
    cutoff ≤ stamp x := by
  have hkept := head?_dropWhile_not (fun x => decide (stamp x < cutoff)) entries
  rw [show (entries.dropWhile fun x => decide (stamp x < cutoff)).head? = some x from h] at hkept
  simpa using hkept

/-- What was popped off earlier would be popped off now, in any order of the stamps. -/
theorem evict_evict (h : earlier ≤ cutoff) (entries : List α) :
    evict stamp cutoff (evict stamp earlier entries) = evict stamp cutoff entries := by
  induction entries with
  | nil => rfl
  | cons x rest ih =>
    rcases lt_or_ge (stamp x) earlier with hx | hx
    · rw [evict_cons_of_lt hx, evict_cons_of_lt (hx.trans_le h)]
      exact ih
    · rw [evict_cons_of_le hx]

/-- No stale entry stands behind a fresh one. -/
def StaleFirst (stamp : α → β) (limit : β) (entries : List α) : Prop :=
  entries.Pairwise fun x y => stamp y < limit → stamp x < limit

theorem recent_eq_self_iff :
    recent stamp limit entries = entries ↔ ∀ x ∈ entries, limit ≤ stamp x := by
  simp [recent, filter_eq_self]

/-- Popping up to `cutoff` leaves what is not older than `limit` exactly if the
stale entries come first and the first fresh one is not popped. -/
theorem evict_eq_recent_iff (h : limit ≤ cutoff) :
    evict stamp cutoff entries = recent stamp limit entries ↔
      StaleFirst stamp limit entries ∧
        ∀ x ∈ (evict stamp limit entries).head?, cutoff ≤ stamp x := by
  induction entries with
  | nil => simp [evict, recent, StaleFirst]
  | cons x rest ih =>
    rcases lt_or_ge (stamp x) limit with hstale | hfresh
    · have hrecent : recent stamp limit (x :: rest) = recent stamp limit rest := by
        simp [recent, hstale]
      have hfirst : StaleFirst stamp limit (x :: rest) ↔ StaleFirst stamp limit rest := by
        simp [StaleFirst, hstale]
      rw [evict_cons_of_lt (hstale.trans_le h), evict_cons_of_lt hstale, hrecent, hfirst]
      exact ih
    have hrecent : recent stamp limit (x :: rest) = x :: recent stamp limit rest := by
      simp [recent, hfresh]
    rw [evict_cons_of_le hfresh, hrecent]
    rcases lt_or_ge (stamp x) cutoff with hpopped | hkept
    · rw [evict_cons_of_lt hpopped]
      constructor
      · intro heq
        have hhead : (evict stamp cutoff rest).head? = some x := by rw [heq, head?_cons]
        exact absurd hpopped (not_lt.mpr (le_of_mem_head?_evict hhead))
      · rintro ⟨_, hhead⟩
        exact absurd hpopped (not_lt.mpr (hhead x rfl))
    · rw [evict_cons_of_le hkept, List.cons.injEq, eq_comm (a := rest), recent_eq_self_iff]
      constructor
      · rintro ⟨_, hall⟩
        refine ⟨pairwise_cons.mpr ⟨?_, ?_⟩, ?_⟩
        · intro y hy hlt
          exact absurd hlt (not_lt.mpr (hall y hy))
        · apply pairwise_of_forall_mem_list
          intro y _ z hz hlt
          exact absurd hlt (not_lt.mpr (hall z hz))
        · intro y hy
          cases hy
          exact hkept
      · rintro ⟨hfirst, _⟩
        refine ⟨rfl, ?_⟩
        intro y hy
        by_contra hlt
        have hstale := (pairwise_cons.mp hfirst).1 y hy (not_le.mp hlt)
        exact absurd hstale (not_lt.mpr hfresh)

/-- `entries` answers every query from `horizon` on as the whole `log` does,
and holds nothing later than `latest`. -/
structure Represents (stamp : α → β) (horizon latest : β) (entries log : List α) : Prop where
  ordered : Ordered stamp entries
  bounded : ∀ x ∈ entries, stamp x ≤ latest
  agrees : ∀ cutoff, horizon ≤ cutoff → recent stamp cutoff entries = recent stamp cutoff log

namespace Represents

variable {horizon latest : β} {entries log : List α}

theorem empty (stamp : α → β) (horizon latest : β) : Represents stamp horizon latest [] [] where
  ordered := List.Pairwise.nil
  bounded := by
    intro x hx
    cases hx
  agrees _ _ := rfl

theorem advance {horizon' latest' : β} (h : Represents stamp horizon latest entries log)
    (hhorizon : horizon ≤ horizon') (hlatest : latest ≤ latest') :
    Represents stamp horizon' latest' entries log where
  ordered := h.ordered
  bounded x hx := (h.bounded x hx).trans hlatest
  agrees cutoff hcutoff := h.agrees cutoff (hhorizon.trans hcutoff)

theorem evict_eq (h : Represents stamp horizon latest entries log) {cutoff : β}
    (hcutoff : horizon ≤ cutoff) : evict stamp cutoff entries = recent stamp cutoff log := by
  rw [evict_eq_recent h.ordered]
  exact h.agrees cutoff hcutoff

theorem evict (h : Represents stamp horizon latest entries log) {cutoff : β}
    (hcutoff : cutoff ≤ horizon) :
    Represents stamp horizon latest (evict stamp cutoff entries) log where
  ordered := h.ordered.sublist (dropWhile_sublist _)
  bounded x hx := h.bounded x ((dropWhile_sublist _).subset hx)
  agrees later hlater := by
    rw [evict_eq_recent h.ordered, recent_recent (hcutoff.trans hlater)]
    exact h.agrees later hlater

theorem push (h : Represents stamp horizon latest entries log) {x : α} (hx : stamp x = latest) :
    Represents stamp horizon latest (entries ++ [x]) (log ++ [x]) where
  ordered := by
    refine pairwise_append.mpr ⟨h.ordered, pairwise_singleton _ _, ?_⟩
    intro y hy z hz
    obtain rfl : z = x := mem_singleton.mp hz
    rw [hx]
    exact h.bounded y hy
  bounded y hy := by
    rcases mem_append.mp hy with hy | hy
    · exact h.bounded y hy
    · obtain rfl : y = x := mem_singleton.mp hy
      exact le_of_eq hx
  agrees cutoff hcutoff := by
    rw [recent_append, recent_append, h.agrees cutoff hcutoff]

end Represents

end Bis.Window
