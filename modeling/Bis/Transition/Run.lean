import Mathlib.Logic.Basic

/-!
Finite runs of a partial labelled step. A label carries every choice the
system makes (who moves, what the outside world answers), so a step is an
executable partial function and a run is a list of labels. A label that is
not enabled ends the run.

`Always` speaks about every state a run visits and `Meets` about every step it
takes. The rules below derive statements about runs from statements about one
step.
-/

namespace Bis.Transition

variable {σ α : Type*}

/-- A partial step; `none` means that the label is not enabled. -/
abbrev Step (σ α : Type*) := σ → α → Option σ

def run (step : Step σ α) : σ → List α → Option σ
  | s, [] => some s
  | s, a :: rest => (step s a).bind fun t => run step t rest

/-- Every visited state satisfies `P`, the first one included. -/
def Always (step : Step σ α) (P : σ → Prop) : σ → List α → Prop
  | s, [] => P s
  | s, a :: rest => P s ∧ ∀ t, step s a = some t → Always step P t rest

/-- Every step taken satisfies `C` in the state it is taken from. -/
def Meets (step : Step σ α) (C : σ → α → Prop) : σ → List α → Prop
  | _, [] => True
  | s, a :: rest => ∀ t, step s a = some t → C s a ∧ Meets step C t rest

instance decidableMeets (step : Step σ α) (C : σ → α → Prop) [∀ s a, Decidable (C s a)] :
    (s : σ) → (labels : List α) → Decidable (Meets step C s labels)
  | _, [] => isTrue trivial
  | s, a :: rest =>
    match h : step s a with
    | none => isTrue (by intro t ht; rw [h] at ht; cases ht)
    | some t =>
      let _ := decidableMeets step C t rest
      decidable_of_iff (C s a ∧ Meets step C t rest) (by simp [Meets, h])

/-- A step that checks its input first goes on with what the checks return. -/
theorem except_bind_ok {ε β γ : Type*} {checks : Except ε β} {rest : β → Except ε γ} {result : γ}
    (h : checks.bind rest = .ok result) : ∃ b, checks = .ok b ∧ rest b = .ok result := by
  cases checks with
  | error e => cases h
  | ok b => exact ⟨b, rfl, h⟩

variable {step : Step σ α} {P I : σ → Prop} {C D : σ → α → Prop}

@[simp]
theorem run_nil (s : σ) : run step s [] = some s := rfl

theorem run_cons_iff (s : σ) (a : α) (rest : List α) (finish : σ) :
    run step s (a :: rest) = some finish ↔
      ∃ t, step s a = some t ∧ run step t rest = some finish := by
  simp [run, Option.bind_eq_some_iff]

theorem run_append_iff (s : σ) (first second : List α) (finish : σ) :
    run step s (first ++ second) = some finish ↔
      ∃ t, run step s first = some t ∧ run step t second = some finish := by
  induction first generalizing s with
  | nil => simp
  | cons a rest ih =>
    simp only [List.cons_append, run_cons_iff, ih]
    constructor
    · rintro ⟨t, hstep, u, hrest, hsecond⟩
      exact ⟨u, ⟨t, hstep, hrest⟩, hsecond⟩
    · rintro ⟨u, ⟨t, hstep, hrest⟩, hsecond⟩
      exact ⟨t, hstep, u, hrest, hsecond⟩

variable {s : σ} {labels : List α}

theorem Always.start (h : Always step P s labels) : P s := by
  cases labels with
  | nil => exact h
  | cons a rest => exact h.1

theorem Always.finish {s finish : σ} {labels : List α} (h : Always step P s labels)
    (hrun : run step s labels = some finish) : P finish := by
  induction labels generalizing s with
  | nil =>
    obtain rfl : s = finish := Option.some.inj hrun
    exact h
  | cons a rest ih =>
    obtain ⟨t, hstep, hrest⟩ := (run_cons_iff s a rest finish).mp hrun
    exact ih (h.2 t hstep) hrest

theorem Meets.mono (himp : ∀ s a, C s a → D s a) (h : Meets step C s labels) :
    Meets step D s labels := by
  induction labels generalizing s with
  | nil => trivial
  | cons a rest ih =>
    intro t hstep
    exact ⟨himp s a (h t hstep).1, ih (h t hstep).2⟩

theorem Meets.and (h : Meets step C s labels) (h' : Meets step D s labels) :
    Meets step (fun s a => C s a ∧ D s a) s labels := by
  induction labels generalizing s with
  | nil => trivial
  | cons a rest ih =>
    intro t hstep
    exact ⟨⟨(h t hstep).1, (h' t hstep).1⟩, ih (h t hstep).2 (h' t hstep).2⟩

theorem Meets.of_forall (h : ∀ a ∈ labels, ∀ s, C s a) : Meets step C s labels := by
  induction labels generalizing s with
  | nil => trivial
  | cons a rest ih =>
    intro t _
    exact ⟨h a List.mem_cons_self s, ih fun b hb => h b (List.mem_cons_of_mem _ hb)⟩

theorem Meets.cons {s t : σ} {a : α} {rest : List α} (hstep : step s a = some t) (hC : C s a)
    (h : Meets step C t rest) : Meets step C s (a :: rest) := by
  intro t' hstep'
  obtain rfl := Option.some.inj (hstep.symm.trans hstep')
  exact ⟨hC, h⟩

theorem Meets.append {t : σ} {first second : List α} (h : Meets step C s (first ++ second))
    (hrun : run step s first = some t) : Meets step C t second := by
  induction first generalizing s with
  | nil =>
    obtain rfl : s = t := Option.some.inj hrun
    exact h
  | cons a rest ih =>
    obtain ⟨u, hstep, hrest⟩ := (run_cons_iff s a rest t).mp hrun
    exact ih (h u hstep).2 hrest

/-- The invariant rule for runs whose steps all meet a condition. -/
theorem always_of_meets (hstep : ∀ s a t, I s → C s a → step s a = some t → I t) (hstart : I s)
    (h : Meets step C s labels) : Always step I s labels := by
  induction labels generalizing s with
  | nil => exact hstart
  | cons a rest ih =>
    refine ⟨hstart, ?_⟩
    intro t ht
    obtain ⟨hcond, hrest⟩ := h t ht
    exact ih (hstep s a t hstart hcond ht) hrest

/-- The invariant rule for all runs. -/
theorem always_of_step (labels : List α) (hstep : ∀ s a t, I s → step s a = some t → I t)
    (hstart : I s) : Always step I s labels := by
  induction labels generalizing s with
  | nil => exact hstart
  | cons a rest ih => exact ⟨hstart, fun t ht => ih (hstep s a t hstart ht)⟩

/-- A step condition that follows from the invariant and another one. -/
theorem meets_of_invariant (hstep : ∀ s a t, I s → C s a → step s a = some t → I t)
    (himp : ∀ s a, I s → C s a → D s a) (hstart : I s) (h : Meets step C s labels) :
    Meets step D s labels := by
  induction labels generalizing s with
  | nil => trivial
  | cons a rest ih =>
    intro t ht
    obtain ⟨hcond, hrest⟩ := h t ht
    exact ⟨himp s a hstart hcond, ih (hstep s a t hstart hcond ht) hrest⟩

theorem run_invariant {finish : σ} (hstep : ∀ s a t, I s → step s a = some t → I t) (hstart : I s)
    (hrun : run step s labels = some finish) : I finish :=
  (always_of_step labels hstep hstart).finish hrun

theorem Always.mono (himp : ∀ s, I s → P s) (h : Always step I s labels) :
    Always step P s labels := by
  induction labels generalizing s with
  | nil => exact himp s h
  | cons a rest ih => exact ⟨himp s h.1, fun t ht => ih (h.2 t ht)⟩

/-- Where a step keeps `P` exactly when it meets `C`, the runs that keep `P`
throughout are exactly the runs whose steps all meet `C`. `I` is an invariant
of every step and may be used to show this. -/
theorem always_iff_meets (labels : List α) (hinv : ∀ s a t, I s → step s a = some t → I t)
    (hexact : ∀ s a t, I s → P s → step s a = some t → (P t ↔ C s a)) (hI : I s) (hP : P s) :
    Always step P s labels ↔ Meets step C s labels := by
  induction labels generalizing s with
  | nil => exact ⟨fun _ => trivial, fun _ => hP⟩
  | cons a rest ih =>
    constructor
    · rintro ⟨_, hnext⟩ t ht
      have hPt : P t := (hnext t ht).start
      exact ⟨(hexact s a t hI hP ht).mp hPt, (ih (hinv s a t hI ht) hPt).mp (hnext t ht)⟩
    · intro h
      refine ⟨hP, ?_⟩
      intro t ht
      have hPt : P t := (hexact s a t hI hP ht).mpr (h t ht).1
      exact (ih (hinv s a t hI ht) hPt).mpr (h t ht).2

/-- The same for a condition `D` on the steps together with `P`. -/
theorem meets_and_always_iff_meets (labels : List α) (hinv : ∀ s a t, I s → step s a = some t → I t)
    (hexact : ∀ s a t, I s → P s → step s a = some t → ((D s a ∧ P t) ↔ C s a)) (hI : I s)
    (hP : P s) : (Meets step D s labels ∧ Always step P s labels) ↔ Meets step C s labels := by
  induction labels generalizing s with
  | nil => exact ⟨fun _ => trivial, fun _ => ⟨trivial, hP⟩⟩
  | cons a rest ih =>
    constructor
    · rintro ⟨hD, _, hnext⟩ t ht
      obtain ⟨hDs, hDrest⟩ := hD t ht
      have hPt : P t := (hnext t ht).start
      refine ⟨(hexact s a t hI hP ht).mp ⟨hDs, hPt⟩, ?_⟩
      exact (ih (hinv s a t hI ht) hPt).mp ⟨hDrest, hnext t ht⟩
    · intro h
      refine ⟨?_, hP, ?_⟩
      · intro t ht
        obtain ⟨hDs, hPt⟩ := (hexact s a t hI hP ht).mpr (h t ht).1
        exact ⟨hDs, ((ih (hinv s a t hI ht) hPt).mpr (h t ht).2).1⟩
      · intro t ht
        have hPt : P t := ((hexact s a t hI hP ht).mpr (h t ht).1).2
        exact ((ih (hinv s a t hI ht) hPt).mpr (h t ht).2).2

/-- Two step conditions that agree at every step that meets `H` agree along
every run that meets it throughout. -/
theorem meets_iff_meets {H : σ → α → Prop} (hinv : ∀ s a t, I s → H s a → step s a = some t → I t)
    (hexact : ∀ s a t, I s → H s a → step s a = some t → (C s a ↔ D s a)) (hI : I s)
    (hH : Meets step H s labels) : Meets step C s labels ↔ Meets step D s labels := by
  induction labels generalizing s with
  | nil => exact Iff.rfl
  | cons a rest ih =>
    constructor
    · intro h t ht
      obtain ⟨hHs, hHrest⟩ := hH t ht
      have hrest := ih (hinv s a t hI hHs ht) hHrest
      exact ⟨(hexact s a t hI hHs ht).mp (h t ht).1, hrest.mp (h t ht).2⟩
    · intro h t ht
      obtain ⟨hHs, hHrest⟩ := hH t ht
      have hrest := ih (hinv s a t hI hHs ht) hHrest
      exact ⟨(hexact s a t hI hHs ht).mpr (h t ht).1, hrest.mpr (h t ht).2⟩

/-! ### Runs without end -/

/-- A run that goes on for ever. -/
structure Endless (step : Step σ α) (start : σ) where
  state : Nat → σ
  label : Nat → α
  starts : state 0 = start
  steps : ∀ n, step (state n) (label n) = some (state (n + 1))

section Endless

variable {start : σ} (r : Endless step start)

theorem Endless.invariant (hstep : ∀ s a t, I s → C s a → step s a = some t → I t)
    (hstart : I start) (hmeets : ∀ n, C (r.state n) (r.label n)) (n : Nat) : I (r.state n) := by
  induction n with
  | zero =>
    rw [r.starts]
    exact hstart
  | succ n ih => exact hstep _ _ _ ih (hmeets n) (r.steps n)

/-- What is at a distance from the goal waits for a turn. Where no step takes it further away,
its turn brings it nearer, and its turn always comes, it gets there. -/
theorem Endless.reaches {κ δ : Type*} {lt : δ → δ → Prop} (hwf : WellFounded lt)
    {At : σ → κ → δ → Prop} {Gives : κ → α → Prop} {Goal : σ → Prop}
    (hstep : ∀ n turn d, At (r.state n) turn d → Goal (r.state (n + 1)) ∨
      (∃ turn' d', lt d' d ∧ At (r.state (n + 1)) turn' d') ∨
        (At (r.state (n + 1)) turn d ∧ ¬ Gives turn (r.label n)))
    (hfair : ∀ n turn d, At (r.state n) turn d → ∃ m, n ≤ m ∧ Gives turn (r.label m))
    {n : Nat} {turn : κ} {d : δ} (hat : At (r.state n) turn d) : ∃ m, Goal (r.state m) := by
  induction d using hwf.induction generalizing n turn with
  | _ d ih =>
    have hwait : ∀ m, n ≤ m → (∃ k, Goal (r.state k)) ∨ At (r.state m) turn d := by
      intro m hle
      induction hle with
      | refl => exact .inr hat
      | @step m _ ih' =>
        rcases ih' with hgoal | hat'
        · exact .inl hgoal
        · rcases hstep m turn d hat' with hgoal | ⟨turn', d', hlt, hnext⟩ | ⟨hnext, _⟩
          · exact .inl ⟨m + 1, hgoal⟩
          · exact .inl (ih d' hlt hnext)
          · exact .inr hnext
    obtain ⟨m, hle, hgives⟩ := hfair n turn d hat
    rcases hwait m hle with hgoal | hat'
    · exact hgoal
    · rcases hstep m turn d hat' with hgoal | ⟨turn', d', hlt, hnext⟩ | ⟨_, hnot⟩
      · exact ⟨m + 1, hgoal⟩
      · exact ih d' hlt hnext
      · exact absurd hgives hnot

end Endless

end Bis.Transition
