import Mathlib.Data.List.Count

/-!
A quota on a sliding window: no half-open interval of the width holds more times than the
limit. One more time keeps it exactly if each interval around that time has a place left.
Where the times come in order, the interval that ends there decides.
-/

namespace Bis.Window

/-- How many times lie in the interval of the width from `start` on. -/
def within (width start : Nat) (times : List Nat) : Nat :=
  times.countP fun time => decide (start ≤ time ∧ time < start + width)

def Quota (width limit : Nat) (times : List Nat) : Prop :=
  ∀ start, within width start times ≤ limit

/-- How many times are less than the width before `now`. -/
def trailing (width now : Nat) (times : List Nat) : Nat :=
  times.countP fun time => decide (now < time + width)

/-- What is counted splits by a second test. -/
theorem countP_split {α : Type*} (p q : α → Bool) (entries : List α) :
    entries.countP (fun a => p a && q a) + entries.countP (fun a => p a && !q a) =
      entries.countP p := by
  induction entries with
  | nil => rfl
  | cons a rest ih =>
    rw [List.countP_cons, List.countP_cons, List.countP_cons, ← ih]
    cases hp : p a <;> cases hq : q a <;> simp <;> omega

variable {width limit start now : Nat} {times : List Nat}

/-- Two times of one calendar interval lie less than the width apart. -/
theorem lt_add_of_div_eq (hwidth : 0 < width) {time : Nat} (h : time / width = now / width) :
    now < time + width := by
  have hstart := Nat.div_mul_le_self time width
  have hend : now < now / width * width + width := Nat.lt_div_mul_add hwidth
  rw [h] at hstart
  omega

theorem quota_nil : Quota width limit [] := fun _ => Nat.zero_le _

theorem within_concat :
    within width start (times ++ [now]) =
      within width start times + if start ≤ now ∧ now < start + width then 1 else 0 := by
  simp [within, List.countP_append, List.countP_singleton]

theorem quota_concat_iff :
    Quota width limit (times ++ [now]) ↔ Quota width limit times ∧
      ∀ start, start ≤ now → now < start + width → within width start times < limit := by
  constructor
  · intro h
    constructor
    · intro start
      have hstart := h start
      rw [within_concat] at hstart
      omega
    · intro start hle hlt
      have hstart := h start
      rw [within_concat, if_pos ⟨hle, hlt⟩] at hstart
      exact hstart
  · rintro ⟨hquota, hroom⟩ start
    rw [within_concat]
    split
    · next hinside => exact hroom start hinside.1 hinside.2
    · exact hquota start

/-- An interval that ends after `now` has nothing but what trails it. -/
theorem within_le_trailing (hlt : now < start + width) :
    within width start times ≤ trailing width now times := by
  apply List.countP_mono_left
  intro time _ htime
  simp only [decide_eq_true_eq] at htime ⊢
  omega

theorem trailing_eq_within (hwidth : 0 < width) (htimes : ∀ time ∈ times, time ≤ now) :
    ∃ start, start ≤ now ∧ now < start + width ∧
      trailing width now times = within width start times := by
  refine ⟨now + 1 - width, by omega, by omega, ?_⟩
  apply List.countP_congr
  intro time htime
  have hle := htimes time htime
  simp only [decide_eq_true_eq]
  omega

theorem quota_concat_iff_of_le (hwidth : 0 < width) (htimes : ∀ time ∈ times, time ≤ now) :
    Quota width limit (times ++ [now]) ↔
      Quota width limit times ∧ trailing width now times < limit := by
  rw [quota_concat_iff]
  refine and_congr_right fun _ => ?_
  constructor
  · intro hroom
    obtain ⟨start, hle, hlt, heq⟩ := trailing_eq_within hwidth htimes
    rw [heq]
    exact hroom start hle hlt
  · intro hlimit start _ hlt
    exact Nat.lt_of_le_of_lt (within_le_trailing hlt) hlimit

end Bis.Window
