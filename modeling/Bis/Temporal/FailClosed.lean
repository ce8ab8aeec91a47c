import Mathlib.Data.List.Basic

/-!
What a screening pipeline owes its readers. Its screenings end in a finding
each, its outcomes are ranked, and rank zero is the outcome that lets a subject
pass. It is fail-closed if it passes a subject only on findings that are all
there and clear, and it is monotone if no worse signal gives a better outcome.
-/

namespace Bis.Temporal

inductive Finding where
  | undecided
  | clear
  | adverse
deriving DecidableEq

/-- One way for a pipeline to screen: `Worse run run'` says that `run'` differs
from `run` by signals turned adverse and scores raised. -/
structure Pipeline (R : Type*) where
  findings : R → List Finding
  /-- The tier was computed and is neither high nor critical. -/
  TierAllows : R → Prop
  rank : R → Nat
  Worse : R → R → Prop

variable {R α : Type*}

def Pipeline.FailClosed (pipeline : Pipeline R) (run : R) : Prop :=
  pipeline.rank run = 0 →
    (∀ finding ∈ pipeline.findings run, finding = .clear) ∧ pipeline.TierAllows run

def Pipeline.NeverImproves (pipeline : Pipeline R) (run : R) : Prop :=
  ∀ run', pipeline.Worse run run' → pipeline.rank run ≤ pipeline.rank run'

def Pipeline.Sound (pipeline : Pipeline R) (run : R) : Prop :=
  pipeline.FailClosed run ∧ pipeline.NeverImproves run

/-- A screening that is as it was, or that has turned adverse. -/
def Worsened (finding : α → Finding) (a b : α) : Prop :=
  a = b ∨ finding a ≠ .adverse ∧ finding b = .adverse

theorem Worsened.eq_of_adverse {finding : α → Finding} {a b : α} (h : Worsened finding a b)
    (ha : finding a = .adverse) : a = b := by
  rcases h with heq | ⟨hnot, -⟩
  · exact heq
  · exact absurd ha hnot

end Bis.Temporal
