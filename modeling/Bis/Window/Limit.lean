import Bis.Window.Recent
import Mathlib.Data.List.Induction

/-!
What a limit on a sliding window is meant to do: a request is admitted if fewer than
`limit` were admitted since `width` before it. The verdicts depend on the times of the
requests alone, and no interval of that width has more than `limit` admitted.
-/

namespace Bis.Window

open List

structure Verdict where
  time : Nat
  admitted : Bool
  deriving DecidableEq

def admittedAt (log : List Verdict) : List Nat :=
  (log.filter Verdict.admitted).map Verdict.time

def admits (width limit : Nat) (log : List Verdict) (now : Nat) : Bool :=
  decide ((recent id (now - width) (admittedAt log)).length < limit)

/-- The verdicts on requests at these times. -/
def verdicts (width limit : Nat) (times : List Nat) : List Verdict :=
  times.foldl (fun log now => log ++ [⟨now, admits width limit log now⟩]) []

variable {width limit : Nat}

theorem verdicts_concat (times : List Nat) (now : Nat) :
    verdicts width limit (times ++ [now]) = verdicts width limit times ++
      [⟨now, admits width limit (verdicts width limit times) now⟩] := by
  unfold verdicts
  rw [foldl_append]
  rfl

theorem admittedAt_append (log log' : List Verdict) :
    admittedAt (log ++ log') = admittedAt log ++ admittedAt log' := by
  unfold admittedAt
  rw [filter_append, map_append]

/-- No interval of the width has more than `limit` admitted. -/
theorem admitted_within (times : List Nat) (start : Nat) :
    ((admittedAt (verdicts width limit times)).filter
      fun time => decide (start ≤ time ∧ time ≤ start + width)).length ≤ limit := by
  induction times using List.reverseRecOn with
  | nil => exact Nat.zero_le _
  | append_singleton times now ih =>
    rw [verdicts_concat, admittedAt_append, filter_append, length_append]
    generalize verdicts width limit times = log at ih ⊢
    by_cases hnow : admits width limit log now = true ∧ start ≤ now ∧ now ≤ start + width
    · obtain ⟨hadmits, hstart, hend⟩ := hnow
      have hlt : (recent id (now - width) (admittedAt log)).length < limit :=
        of_decide_eq_true hadmits
      -- What the interval has before `now` is recent at `now`.
      have hsub : ((admittedAt log).filter
          fun time => decide (start ≤ time ∧ time ≤ start + width)).length ≤
            (recent id (now - width) (admittedAt log)).length := by
        apply List.Sublist.length_le
        apply monotone_filter_right
        intro time htime
        simp only [decide_eq_true_eq, id_eq] at htime ⊢
        omega
      have hone : ((admittedAt [⟨now, admits width limit log now⟩]).filter
          fun time => decide (start ≤ time ∧ time ≤ start + width)).length ≤ 1 := by
        refine (length_filter_le _ _).trans ?_
        unfold admittedAt
        rw [length_map]
        exact length_filter_le _ _
      omega
    · have hnone : (admittedAt [⟨now, admits width limit log now⟩]).filter
          (fun time => decide (start ≤ time ∧ time ≤ start + width)) = [] := by
        rw [filter_eq_nil_iff]
        intro time htime hinside
        obtain ⟨verdict, hverdict, rfl⟩ := mem_map.mp htime
        obtain ⟨hmem, hadmitted⟩ := mem_filter.mp hverdict
        obtain rfl := mem_singleton.mp hmem
        exact hnow ⟨hadmitted, of_decide_eq_true hinside⟩
      rw [hnone]
      exact ih

end Bis.Window
