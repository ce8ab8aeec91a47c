import Mathlib.Logic.Basic

/-!
Machines that answer every input, watched by somebody who sees some of the
inputs and the answers to these. Two runs that bring him the same inputs show
him the same answers when some relation between their states survives the
inputs he does not see and decides the answers to those he does.
-/

namespace Bis.Transition

open List

variable {σ α β γ : Type*}

/-- A step of a machine that takes every input and answers it. -/
abbrev Answering (σ α β : Type*) := σ → α → σ × β

/-- The state after a list of inputs. -/
def stateAfter (step : Answering σ α β) (s : σ) (inputs : List α) : σ :=
  inputs.foldl (fun t a => (step t a).1) s

/-- The answers to the inputs that are in `view`, in their order. -/
def answers (step : Answering σ α β) (view : α → Option γ) : σ → List α → List β
  | _, [] => []
  | s, a :: rest =>
    if (view a).isSome then (step s a).2 :: answers step view (step s a).1 rest
    else answers step view (step s a).1 rest

variable {step : Answering σ α β} {view : α → Option γ} {C : α → Prop}

@[simp]
theorem stateAfter_nil (s : σ) : stateAfter step s [] = s := rfl

@[simp]
theorem stateAfter_cons (s : σ) (a : α) (rest : List α) :
    stateAfter step s (a :: rest) = stateAfter step (step s a).1 rest := rfl

theorem stateAfter_append (s : σ) (first second : List α) :
    stateAfter step s (first ++ second) = stateAfter step (stateAfter step s first) second :=
  foldl_append

theorem answers_of_hidden {a : α} (s : σ) (rest : List α) (ha : view a = none) :
    answers step view s (a :: rest) = answers step view (step s a).1 rest := by
  simp [answers, ha]

theorem answers_of_visible {a : α} {g : γ} (s : σ) (rest : List α) (ha : view a = some g) :
    answers step view s (a :: rest) = (step s a).2 :: answers step view (step s a).1 rest := by
  simp [answers, ha]

theorem answers_append (s : σ) (first second : List α) :
    answers step view s (first ++ second) =
      answers step view s first ++ answers step view (stateAfter step s first) second := by
  induction first generalizing s with
  | nil => rfl
  | cons a rest ih =>
    rw [cons_append, stateAfter_cons]
    cases ha : view a with
    | none =>
      rw [answers_of_hidden _ _ ha, answers_of_hidden _ _ ha]
      exact ih _
    | some g =>
      rw [answers_of_visible _ _ ha, answers_of_visible _ _ ha, ih, cons_append]

theorem answers_eq_nil {inputs : List α} (s : σ) (h : ∀ a ∈ inputs, view a = none) :
    answers step view s inputs = [] := by
  induction inputs generalizing s with
  | nil => rfl
  | cons a rest ih =>
    rw [answers_of_hidden _ _ (h a mem_cons_self)]
    exact ih _ fun b hb => h b (mem_cons_of_mem _ hb)

/-- Unseen inputs, however many, leave a state that still agrees. -/
theorem agree_stateAfter {agree : σ → σ → Prop} {inputs : List α} {s t : σ}
    (hhidden : ∀ s t a, C a → view a = none → agree s t → agree (step s a).1 t)
    (hC : ∀ a ∈ inputs, C a) (h : ∀ a ∈ inputs, view a = none) (hagree : agree s t) :
    agree (stateAfter step s inputs) t := by
  induction inputs generalizing s with
  | nil => exact hagree
  | cons a rest ih =>
    have hnext := hhidden s t a (hC a mem_cons_self) (h a mem_cons_self) hagree
    exact ih (fun b hb => hC b (mem_cons_of_mem _ hb))
      (fun b hb => h b (mem_cons_of_mem _ hb)) hnext

/-- The unwinding rule. `C` is what is known of every input. -/
theorem answers_eq_of_unwinding (agree : σ → σ → Prop) {s t : σ} {first second : List α}
    (hsymm : ∀ s t, agree s t → agree t s)
    (hhidden : ∀ s t a, C a → view a = none → agree s t → agree (step s a).1 t)
    (hvisible : ∀ s t a b g, C a → C b → view a = some g → view b = some g → agree s t →
      (step s a).2 = (step t b).2 ∧ agree (step s a).1 (step t b).1)
    (hfirst : ∀ a ∈ first, C a) (hsecond : ∀ b ∈ second, C b)
    (hview : first.filterMap view = second.filterMap view) (hagree : agree s t) :
    answers step view s first = answers step view t second := by
  induction first generalizing s t second with
  | nil =>
    have hnone : ∀ b ∈ second, view b = none := filterMap_eq_nil_iff.mp hview.symm
    rw [answers_eq_nil t hnone]
    rfl
  | cons a rest ih =>
    have hrest : ∀ b ∈ rest, C b := fun b hb => hfirst b (mem_cons_of_mem _ hb)
    have hCa : C a := hfirst a mem_cons_self
    cases ha : view a with
    | none =>
      rw [answers_of_hidden _ _ ha]
      rw [filterMap_cons_none ha] at hview
      exact ih hrest hsecond hview (hhidden s t a hCa ha hagree)
    | some g =>
      -- The second run reaches the same input after inputs nobody sees.
      rw [filterMap_cons_some ha] at hview
      obtain ⟨skipped, b, later, rfl, hskipped, hb, hlater⟩ :=
        filterMap_eq_cons_iff.mp hview.symm
      have hskip : agree (stateAfter step t skipped) s := by
        apply agree_stateAfter hhidden _ hskipped (hsymm _ _ hagree)
        exact fun c hc => hsecond c (mem_append_left _ hc)
      have hCb : C b := hsecond b (mem_append_right _ mem_cons_self)
      obtain ⟨hanswer, hnext⟩ := hvisible _ _ a b g hCa hCb ha hb (hsymm _ _ hskip)
      rw [answers_append, answers_eq_nil t hskipped, nil_append,
        answers_of_visible _ _ ha, answers_of_visible _ _ hb, hanswer]
      congr 1
      apply ih hrest _ hlater.symm hnext
      intro c hc
      apply hsecond
      exact mem_append_right _ (mem_cons_of_mem _ hc)

end Bis.Transition
