import Bis.Disputes.Deadlines

/-!
Whether elapsed deadlines get escalated. A run takes the earliest 200 of them, those that
have been escalated before among them, and these stay the earliest as long as their cases
are open. So a deadline is reached if fewer than 200 others may come before it, and one that
is not escalated may be passed over for ever if there are more. A run that takes a deadline
whose alert cannot be stored escalates none, as often as it is repeated.
-/

namespace Bis.Disputes

open Bis.Relation Bis.Transition List

variable {plans : Bool} {iso : Nat → String} {s t : DeadlineSystem}

/-! ### Elapsed deadlines -/

variable {now time : Nat} {due a b : DueCase} {cases : CaseTable} {locked : List Nat}
  {work : DeadlineDesk × WorkerResult}

theorem elapsed_eq_some_iff {c : DatedCase} {kind : DeadlineKind} :
    c.elapsed now kind = some due ↔
      c.dueAt kind = some due.dueAt ∧ due.dueAt ≤ now ∧
        due = ⟨c.id, c.caseRef, c.tenantId, kind, due.dueAt⟩ := by
  unfold DatedCase.elapsed
  constructor
  · intro h
    obtain ⟨dueAt, hdue, hsome⟩ := Option.bind_eq_some_iff.mp h
    split at hsome
    next hle =>
      cases hsome
      exact ⟨hdue, hle, rfl⟩
    · cases hsome
  · rintro ⟨hdue, hle, heq⟩
    rw [hdue, Option.bind_some, if_pos hle]
    exact congrArg some heq.symm

theorem mem_dueCases_iff :
    due ∈ cases.dueCases now locked ↔ ∃ c ∈ cases.val, c.id ∉ locked ∧ c.status.terminal = false ∧
      ∃ kind, c.elapsed now kind = some due := by
  unfold CaseTable.dueCases DatedCase.dueCases
  constructor
  · intro h
    obtain ⟨c, hc, hdue⟩ := mem_flatMap.mp h
    obtain ⟨hmem, hfree⟩ := mem_filter.mp hc
    split at hdue
    · cases hdue
    next hopen =>
      obtain ⟨kind, -, hkind⟩ := mem_filterMap.mp hdue
      exact ⟨c, hmem, of_decide_eq_true hfree, by simpa using hopen, kind, hkind⟩
  · rintro ⟨c, hmem, hfree, hopen, kind, hkind⟩
    refine mem_flatMap.mpr ⟨c, mem_filter.mpr ⟨hmem, decide_eq_true hfree⟩, ?_⟩
    rw [hopen, if_neg Bool.false_ne_true]
    refine mem_filterMap.mpr ⟨kind, ?_, hkind⟩
    cases kind <;> simp [DeadlineKind.all]

/-- A deadline is known by its escalation. -/
theorem eq_of_escalation (ha : a ∈ cases.dueCases now locked) (hb : b ∈ cases.dueCases now locked)
    (h : a.escalation = b.escalation) : a = b := by
  obtain ⟨c, hc, -, -, kind, hkind⟩ := mem_dueCases_iff.mp ha
  obtain ⟨d, hd, -, -, kind', hkind'⟩ := mem_dueCases_iff.mp hb
  obtain ⟨-, -, heq⟩ := elapsed_eq_some_iff.mp hkind
  obtain ⟨-, -, heq'⟩ := elapsed_eq_some_iff.mp hkind'
  rw [heq, heq'] at h ⊢
  simp only [DueCase.escalation, DeadlineEscalation.mk.injEq] at h
  obtain ⟨hid, hsame, hdue⟩ := h
  have hcase : c = d := inj_on_of_nodup_map cases.property hc hd hid
  rw [hcase, hsame, hdue]

theorem dueAt_le_of_mem (h : due ∈ cases.dueCases now locked) : due.dueAt ≤ now := by
  obtain ⟨c, -, -, -, kind, hkind⟩ := mem_dueCases_iff.mp h
  exact (elapsed_eq_some_iff.mp hkind).2.1

theorem elapsed_filter (h : time ≤ now) (c : DatedCase) (kind : DeadlineKind) :
    (c.elapsed now kind).filter (fun due => decide (due.dueAt ≤ time)) = c.elapsed time kind := by
  unfold DatedCase.elapsed
  cases c.dueAt kind with
  | none => rfl
  | some dueAt =>
    by_cases hle : dueAt ≤ time
    · simp [hle, hle.trans h]
    · by_cases hnow : dueAt ≤ now
      · simp [hle, hnow, not_le.mp hle]
      · simp [hle, hnow]

/-- What has elapsed by `time` is what is due by then of what has elapsed later. -/
theorem dueCases_filter (h : time ≤ now) (cases : CaseTable) :
    (cases.dueCases now []).filter (fun due => decide (due.dueAt ≤ time)) =
      cases.dueCases time [] := by
  unfold CaseTable.dueCases
  rw [filter_flatMap]
  congr 1
  funext c
  unfold DatedCase.dueCases
  split
  · rfl
  · rw [filter_filterMap]
    congr 1
    funext kind
    exact elapsed_filter h c kind

theorem mem_later (h : time ≤ now) (hdue : due ∈ cases.dueCases time []) :
    due ∈ cases.dueCases now [] := by
  rw [← dueCases_filter h] at hdue
  exact mem_of_mem_filter hdue

/-- What elapses later does not count among what is due by `time`. -/
theorem countP_later (h : time ≤ now) {p : DueCase → Bool}
    (hp : ∀ due, p due = true → due.dueAt ≤ time) :
    (cases.dueCases now []).countP p = (cases.dueCases time []).countP p := by
  rw [← dueCases_filter h, countP_filter]
  apply countP_congr
  intro due _
  constructor
  · intro hdue
    simp [hdue, hp due hdue]
  · intro hdue
    exact (Bool.and_eq_true_iff.mp hdue).1

/-! ### A run of the worker -/

/-- The alert for a deadline can be stored. -/
def DueCase.Storable (plans : Bool) (iso : Nat → String) (due : DueCase) : Prop :=
  (due.alert iso).storable plans = true

variable {work' : DeadlineDesk × WorkerResult}

/-- A candidate is skipped, or escalated with an alert that can be stored. -/
theorem escalateDue_eq_some (h : escalateDue plans iso work due = some work') :
    (due.escalation ∈ work.1.escalations ∧ work'.1.escalations = work.1.escalations) ∨
      due.escalation ∉ work.1.escalations ∧ due.Storable plans iso ∧
        work'.1.escalations = work.1.escalations ++ [due.escalation] := by
  unfold escalateDue at h
  simp only at h
  split at h
  next hold =>
    cases h
    exact .inl ⟨hold, rfl⟩
  next hnew =>
    obtain ⟨⟨desk, alerts⟩, hadded, rfl⟩ := Option.map_eq_some_iff.mp h
    unfold DeadlineDesk.addAlert at hadded
    split at hadded
    · cases hadded
    next hstorable =>
      refine .inr ⟨hnew, not_not.mp hstorable, ?_⟩
      split at hadded <;> cases hadded <;> unfold DeadlineDesk.addNotice <;> split <;> rfl

theorem escalateDue_succeeds
    (h : due.escalation ∈ work.1.escalations ∨ due.Storable plans iso) :
    ∃ work', escalateDue plans iso work due = some work' := by
  unfold escalateDue
  simp only
  split
  · exact ⟨_, rfl⟩
  next hnew =>
    have hstorable : (due.alert iso).storable plans = true := h.resolve_left hnew
    unfold DeadlineDesk.addAlert
    rw [if_neg (not_not.mpr hstorable)]
    split <;> exact ⟨_, rfl⟩

theorem nodup_escalateDue (h : work.1.escalations.Nodup)
    (hstep : escalateDue plans iso work due = some work') : work'.1.escalations.Nodup := by
  rcases escalateDue_eq_some hstep with ⟨-, heq⟩ | ⟨hnew, -, heq⟩
  · exact heq ▸ h
  · rw [heq, ← concat_eq_append]
    exact h.concat hnew

variable {e : DeadlineEscalation} {labels : List DeadlineLabel} {batch : List DueCase}

theorem mem_escalateDue (hstep : escalateDue plans iso work due = some work') :
    e ∈ work'.1.escalations ↔ e ∈ work.1.escalations ∨ e = due.escalation := by
  rcases escalateDue_eq_some hstep with ⟨hold, heq⟩ | ⟨-, -, heq⟩
  · rw [heq]
    constructor
    · exact .inl
    · rintro (h | rfl)
      · exact h
      · exact hold
  · rw [heq, mem_append, mem_singleton]

theorem foldlM_escalateDue_cons :
    (due :: batch).foldlM (escalateDue plans iso) work = some work' ↔
      ∃ next, escalateDue plans iso work due = some next ∧
        batch.foldlM (escalateDue plans iso) next = some work' := by
  rw [foldlM_cons]
  exact Option.bind_eq_some_iff

theorem nodup_foldlM_escalateDue (h : work.1.escalations.Nodup)
    (hrun : batch.foldlM (escalateDue plans iso) work = some work') :
    work'.1.escalations.Nodup := by
  induction batch generalizing work with
  | nil =>
    cases hrun
    exact h
  | cons due batch ih =>
    obtain ⟨next, hstep, hrest⟩ := foldlM_escalateDue_cons.mp hrun
    exact ih (nodup_escalateDue h hstep) hrest

theorem mem_foldlM_escalateDue (hrun : batch.foldlM (escalateDue plans iso) work = some work') :
    e ∈ work'.1.escalations ↔ e ∈ work.1.escalations ∨ ∃ due ∈ batch, e = due.escalation := by
  induction batch generalizing work with
  | nil =>
    cases hrun
    simp
  | cons due batch ih =>
    obtain ⟨next, hstep, hrest⟩ := foldlM_escalateDue_cons.mp hrun
    rw [ih hrest, mem_escalateDue hstep]
    simp [or_assoc]

/-- A run goes through if each of its deadlines is escalated already or can be. -/
theorem foldlM_escalateDue_succeeds
    (h : ∀ due ∈ batch, due.escalation ∈ work.1.escalations ∨ due.Storable plans iso) :
    ∃ work', batch.foldlM (escalateDue plans iso) work = some work' := by
  induction batch generalizing work with
  | nil => exact ⟨work, rfl⟩
  | cons due batch ih =>
    obtain ⟨next, hstep⟩ := escalateDue_succeeds (h due mem_cons_self)
    have hnext : ∀ other ∈ batch, other.escalation ∈ next.1.escalations ∨
        other.Storable plans iso := fun other hother =>
      (h other (mem_cons_of_mem due hother)).imp_left fun hold =>
        (mem_escalateDue hstep).mpr (.inl hold)
    obtain ⟨work', hrest⟩ := ih hnext
    exact ⟨work', foldlM_escalateDue_cons.mpr ⟨next, hstep, hrest⟩⟩

/-- A run that goes through stores an alert for what was not escalated before. -/
theorem storable_of_foldlM (hrun : batch.foldlM (escalateDue plans iso) work = some work')
    (hdue : due ∈ batch) : due.escalation ∈ work.1.escalations ∨
      ∃ other ∈ batch, other.escalation = due.escalation ∧ other.Storable plans iso := by
  induction batch generalizing work with
  | nil => cases hdue
  | cons first batch ih =>
    obtain ⟨next, hstep, hrest⟩ := foldlM_escalateDue_cons.mp hrun
    have hfirst : first.escalation ∈ work.1.escalations ∨ first.Storable plans iso := by
      rcases escalateDue_eq_some hstep with ⟨hold, -⟩ | ⟨-, hstorable, -⟩
      · exact .inl hold
      · exact .inr hstorable
    have hof : first.escalation = due.escalation → due.escalation ∈ work.1.escalations ∨
        ∃ other ∈ first :: batch, other.escalation = due.escalation ∧
          other.Storable plans iso := by
      intro hsame
      rcases hfirst with hold | hstorable
      · exact .inl (hsame ▸ hold)
      · exact .inr ⟨first, mem_cons_self, hsame, hstorable⟩
    rcases mem_cons.mp hdue with rfl | hlater
    · exact hof rfl
    · rcases ih hrest hlater with hnow | ⟨other, hother, hsame, hstorable⟩
      · rcases (mem_escalateDue hstep).mp hnow with hold | hsame
        · exact .inl hold
        · exact hof hsame.symm
      · exact .inr ⟨other, mem_cons_of_mem first hother, hsame, hstorable⟩

namespace DeadlineSystem

def Escalated (s : DeadlineSystem) (due : DueCase) : Prop :=
  due.escalation ∈ s.desk.escalations

/-- A run leaves the desk as it is, or escalates each of its candidates. -/
theorem work_cases (plans : Bool) (iso : Nat → String) (s : DeadlineSystem) (now : Nat)
    (locked : List Nat) (tie : DueCase → Nat) :
    s.work plans iso now locked tie = s ∨
      ∃ work, runDeadlineWorker plans iso (candidates s.cases now locked tie) s.desk = some work ∧
        s.work plans iso now locked tie = { s with desk := work.1 } := by
  unfold work
  cases hrun : runDeadlineWorker plans iso (candidates s.cases now locked tie) s.desk with
  | none => exact .inl rfl
  | some work => exact .inr ⟨work, rfl, rfl⟩

theorem cases_work (now : Nat) (locked : List Nat) (tie : DueCase → Nat) :
    (s.work plans iso now locked tie).cases = s.cases := by
  rcases work_cases plans iso s now locked tie with hsame | ⟨work, -, hwork⟩
  · rw [hsame]
  · rw [hwork]

theorem escalated_work {now : Nat} {locked : List Nat} {tie : DueCase → Nat} {due : DueCase}
    (h : (s.work plans iso now locked tie).Escalated due) :
    s.Escalated due ∨ ∃ other ∈ candidates s.cases now locked tie,
      due.escalation = other.escalation := by
  rcases work_cases plans iso s now locked tie with hsame | ⟨work, hrun, hwork⟩
  · exact .inl (hsame ▸ h)
  · rw [hwork] at h
    exact (mem_foldlM_escalateDue hrun).mp h

theorem escalated_work_of {now : Nat} {locked : List Nat} {tie : DueCase → Nat} {due : DueCase}
    (h : s.Escalated due) : (s.work plans iso now locked tie).Escalated due := by
  rcases work_cases plans iso s now locked tie with hsame | ⟨work, hrun, hwork⟩
  · rwa [hsame]
  · rw [hwork]
    exact (mem_foldlM_escalateDue hrun).mpr (.inl h)

/-- Every deadline is escalated once at most. -/
def EscalatedOnce (s : DeadlineSystem) : Prop :=
  ∀ due : DueCase, s.desk.escalations.count due.escalation ≤ 1

/-- How many others may come before a deadline. -/
def before (s : DeadlineSystem) (time : Nat) (due : DueCase) : Nat :=
  (s.elapsed time).countP fun other => decide (other ≠ due ∧ other.rank ≤ due.rank)

/-- Every deadline that has elapsed is escalated. -/
def AllEscalated (s : DeadlineSystem) (time : Nat) : Prop :=
  ∀ due ∈ s.elapsed time, s.Escalated due

/-- No run after `time` takes a deadline without escalation whose alert cannot be stored. -/
def Unblocked (plans : Bool) (iso : Nat → String) (s : DeadlineSystem) (time : Nat) : Prop :=
  ∀ now tie, time ≤ now → ∀ due ∈ candidates s.cases now [] tie,
    s.Escalated due ∨ due.Storable plans iso

/-- Every deadline that has elapsed is escalated, or within reach of a run. -/
def InReach (s : DeadlineSystem) (time : Nat) : Prop :=
  ∀ due ∈ s.elapsed time, s.Escalated due ∨ s.before time due < maxEscalationsPerRun

end DeadlineSystem

namespace DeadlineLabel

def isWorker : DeadlineLabel → Bool
  | worker .. => true
  | _ => false

/-- A run after `time` that is carried through and finds no case locked. -/
def isFull (time : Nat) : DeadlineLabel → Bool
  | worker now locked _ committed => committed && locked.isEmpty && decide (time ≤ now)
  | _ => false

end DeadlineLabel

/-- After so many full runs, with any others between them, what had elapsed is escalated. -/
def DeadlineSystem.Progress (plans : Bool) (iso : Nat → String) (s : DeadlineSystem)
    (time : Nat) : Prop :=
  ∃ n, ∀ labels t, (∀ a ∈ labels, a.isWorker = true) →
    n ≤ labels.countP (DeadlineLabel.isFull time) →
      run (DeadlineSystem.step plans iso) s labels = some t → t.AllEscalated time

/-! ### Once at most -/

theorem nodup_step {a : DeadlineLabel} (h : s.desk.escalations.Nodup)
    (hstep : DeadlineSystem.step plans iso s a = some t) : t.desk.escalations.Nodup := by
  cases a with
  | edit cases | attend =>
    cases hstep
    exact h
  | worker now locked tie committed =>
    cases hstep
    cases committed with
    | false => exact h
    | true =>
      rw [if_pos rfl]
      rcases DeadlineSystem.work_cases plans iso s now locked tie with hsame | ⟨work, hrun, hwork⟩
      · rwa [hsame]
      · rw [hwork]
        exact nodup_foldlM_escalateDue h hrun

theorem escalatedOnce_of_run
    (hrun : run (DeadlineSystem.step plans iso) (.start cases) labels = some s) : s.EscalatedOnce := by
  have hnodup : s.desk.escalations.Nodup :=
    run_invariant (I := fun s => s.desk.escalations.Nodup)
      (fun _ _ _ h hstep => nodup_step h hstep) nodup_nil hrun
  exact fun due => nodup_iff_count_le_one.mp hnodup due.escalation

/-! ### Within reach -/

theorem place_le_place {tie : DueCase → Nat} (h : a.place tie ≤ b.place tie) : a.rank ≤ b.rank := by
  rcases Prod.Lex.le_iff.mp h with hlt | ⟨heq, -⟩
  · exact hlt.le
  · exact heq.le

theorem dueAt_le_of_rank (h : a.rank ≤ b.rank) : a.dueAt ≤ b.dueAt := by
  rcases Prod.Lex.le_iff.mp h with hlt | ⟨heq, -⟩
  · exact hlt.le
  · exact heq.le

/-- A run of the worker leaves the cases alone, and no escalation is lost. -/
theorem kept_of_worker {a : DeadlineLabel} (ha : a.isWorker = true)
    (hstep : DeadlineSystem.step plans iso s a = some t) :
    t.cases = s.cases ∧ ∀ due, s.Escalated due → t.Escalated due := by
  cases a with
  | edit cases | attend => cases ha
  | worker now locked tie committed =>
    cases hstep
    cases committed with
    | false => exact ⟨rfl, fun _ h => h⟩
    | true =>
      exact ⟨DeadlineSystem.cases_work now locked tie, fun _ => DeadlineSystem.escalated_work_of⟩

/-- A full run escalates what is within its reach. -/
theorem escalated_of_full (h : time ≤ now) (tie : DueCase → Nat)
    (hclear : s.Unblocked plans iso time) (hreach : s.InReach time)
    (hdue : due ∈ s.elapsed time) : (s.work plans iso now [] tie).Escalated due := by
  rcases hreach due hdue with hold | hbefore
  · exact DeadlineSystem.escalated_work_of hold
  · have hgoes : ∃ work, runDeadlineWorker plans iso (candidates s.cases now [] tie) s.desk =
        some work := foldlM_escalateDue_succeeds (hclear now tie h)
    obtain ⟨work, hrun⟩ := hgoes
    have hwork : s.work plans iso now [] tie = { s with desk := work.1 } := by
      unfold DeadlineSystem.work
      rw [hrun]
    rw [hwork]
    refine (mem_foldlM_escalateDue hrun).mpr (.inr ⟨due, ?_, rfl⟩)
    have hcount : (s.cases.dueCases now []).countP
        (fun other => decide (other ≠ due ∧ other.rank ≤ due.rank)) < maxEscalationsPerRun := by
      rw [countP_later h]
      · exact hbefore
      · intro other hother
        have hrank := (of_decide_eq_true hother).2
        exact (dueAt_le_of_rank hrank).trans (dueAt_le_of_mem hdue)
    refine mem_firstBy_of_countP_lt (mem_later h hdue) ?_ hcount
    intro other _ hne hplace
    exact decide_eq_true ⟨hne, place_le_place hplace⟩

theorem kept_of_workers (hworkers : ∀ a ∈ labels, a.isWorker = true)
    (hrun : run (DeadlineSystem.step plans iso) s labels = some t) :
    t.cases = s.cases ∧ ∀ due, s.Escalated due → t.Escalated due := by
  induction labels generalizing s with
  | nil =>
    cases hrun
    exact ⟨rfl, fun _ h => h⟩
  | cons a rest ih =>
    obtain ⟨u, hstep, hrest⟩ := (run_cons_iff _ _ _ _).mp hrun
    obtain ⟨hfirst, hkept⟩ := kept_of_worker (hworkers a mem_cons_self) hstep
    obtain ⟨hcases, hescalated⟩ := ih (fun b hb => hworkers b (mem_cons_of_mem a hb)) hrest
    exact ⟨hcases.trans hfirst, fun due h => hescalated due (hkept due h)⟩

theorem inReach_kept (hcases : t.cases = s.cases)
    (hescalated : ∀ due, s.Escalated due → t.Escalated due) (h : s.InReach time) :
    t.InReach time := by
  intro due hdue
  unfold DeadlineSystem.before DeadlineSystem.elapsed at *
  rw [hcases] at hdue ⊢
  exact (h due hdue).imp (hescalated due) id

theorem unblocked_kept (hcases : t.cases = s.cases)
    (hescalated : ∀ due, s.Escalated due → t.Escalated due) (h : s.Unblocked plans iso time) :
    t.Unblocked plans iso time := by
  intro now tie hnow due hdue
  rw [hcases] at hdue
  exact (h now tie hnow due hdue).imp_left (hescalated due)

theorem progress_of_allEscalated (h : s.AllEscalated time) : s.Progress plans iso time := by
  refine ⟨0, ?_⟩
  intro labels t hworkers _ hrun due hdue
  obtain ⟨hcases, hescalated⟩ := kept_of_workers hworkers hrun
  unfold DeadlineSystem.elapsed at hdue
  rw [hcases] at hdue
  exact hescalated due (h due hdue)

theorem progress_of_inReach (hclear : s.Unblocked plans iso time) (hreach : s.InReach time) :
    s.Progress plans iso time := by
  -- The first full run reaches everything.
  refine ⟨1, ?_⟩
  intro labels t hworkers hfull hrun due hdue
  obtain ⟨a, ha, hafull⟩ := countP_pos_iff.mp hfull
  obtain ⟨first, rest, rfl⟩ := append_of_mem ha
  obtain ⟨u, hfirst, hmore⟩ := (run_append_iff _ _ _ _).mp hrun
  obtain ⟨v, hstep, hrest⟩ := (run_cons_iff _ _ _ _).mp hmore
  obtain ⟨hcases, hescalated⟩ := kept_of_workers
    (fun b hb => hworkers b (mem_append_left _ hb)) hfirst
  obtain ⟨hcases', hescalated'⟩ := kept_of_workers
    (fun b hb => hworkers b (mem_append_right _ (mem_cons_of_mem a hb))) hrest
  have hu : u.InReach time := inReach_kept hcases hescalated hreach
  have hclear' : u.Unblocked plans iso time := unblocked_kept hcases hescalated hclear
  cases a with
  | edit cases | attend => cases hafull
  | worker now locked tie committed =>
    simp only [DeadlineLabel.isFull, Bool.and_eq_true, List.isEmpty_iff, decide_eq_true_eq]
      at hafull
    obtain ⟨⟨hcommitted, hlocked⟩, hnow⟩ := hafull
    subst hcommitted hlocked
    have hsame := (kept_of_worker rfl hstep).1
    cases hstep
    refine hescalated' due (escalated_of_full hnow tie hclear' hu ?_)
    unfold DeadlineSystem.elapsed at hdue ⊢
    rw [hcases', hsame] at hdue
    exact hdue

/-! ### Out of reach -/

/-- A run that takes this deadline last of those that are equal to it. -/
def lastOfAll (time : Nat) (due : DueCase) : DeadlineLabel :=
  .worker time [] (fun other => if other = due then 1 else 0) true

theorem passedOver (hdue : due ∈ s.elapsed time) (hnot : ¬ s.Escalated due)
    (hfar : maxEscalationsPerRun ≤ s.before time due) :
    ¬ (s.work plans iso time [] fun other => if other = due then 1 else 0).Escalated due := by
  intro h
  rcases DeadlineSystem.escalated_work h with hold | ⟨other, hother, heq⟩
  · exact hnot hold
  · have hsame : due = other := eq_of_escalation hdue (mem_firstBy hother) heq
    rw [← hsame] at hother
    refine not_mem_firstBy ?_ hfar hother
    intro before _ hbefore
    obtain ⟨hne, hrank⟩ := of_decide_eq_true hbefore
    rw [not_le]
    refine Prod.Lex.lt_iff.mpr ?_
    rcases hrank.lt_or_eq with hlt | heq
    · exact .inl hlt
    · refine .inr ⟨heq, ?_⟩
      simp [DueCase.place, hne]

/-- It is passed over as often as the worker runs. -/
theorem starved (hdue : due ∈ s.elapsed time) (hnot : ¬ s.Escalated due)
    (hfar : maxEscalationsPerRun ≤ s.before time due) (n : Nat) :
    ∃ t, run (DeadlineSystem.step plans iso) s (List.replicate n (lastOfAll time due)) = some t ∧
      t.cases = s.cases ∧ ¬ t.Escalated due := by
  induction n generalizing s with
  | zero => exact ⟨s, rfl, rfl, hnot⟩
  | succ n ih =>
    have hstep : DeadlineSystem.step plans iso s (lastOfAll time due) =
        some (s.work plans iso time [] fun other => if other = due then 1 else 0) := rfl
    have hcases := (kept_of_worker rfl hstep).1
    obtain ⟨t, hrun, hkept, hstill⟩ := ih (s := s.work plans iso time [] _)
      (by rwa [DeadlineSystem.elapsed, hcases]) (passedOver hdue hnot hfar)
      (by rwa [DeadlineSystem.before, DeadlineSystem.elapsed, hcases])
    exact ⟨t, (run_cons_iff _ _ _ _).mpr ⟨_, hstep, hrun⟩, hkept.trans hcases, hstill⟩

/-- A run that takes a deadline whose alert cannot be stored is rolled back. -/
theorem blocked (hdue : due ∈ candidates s.cases now [] tie) (hnot : ¬ s.Escalated due)
    (hstorable : ¬ due.Storable plans iso) (n : Nat) :
    run (DeadlineSystem.step plans iso) s (List.replicate n (.worker now [] tie true)) =
      some s := by
  have hsame : s.work plans iso now [] tie = s := by
    rcases DeadlineSystem.work_cases plans iso s now [] tie with hsame | ⟨work, hrun, -⟩
    · exact hsame
    · rcases storable_of_foldlM hrun hdue with hold | ⟨other, hother, heq, hother'⟩
      · exact absurd hold hnot
      · have hequal := eq_of_escalation (mem_firstBy hother) (mem_firstBy hdue) heq
        exact absurd (hequal ▸ hother') hstorable
  induction n with
  | zero => rfl
  | succ n ih => exact (run_cons_iff _ _ _ _).mpr ⟨s, congrArg some hsame, ih⟩

theorem inReach_of_progress (h : s.Progress plans iso time) : s.InReach time := by
  intro due hdue
  by_contra hnot
  rw [not_or, not_lt] at hnot
  obtain ⟨hnot, hfar⟩ := hnot
  obtain ⟨n, hprogress⟩ := h
  have hstarved : ∃ t, run (DeadlineSystem.step plans iso) s
      (List.replicate n (lastOfAll time due)) = some t ∧ t.cases = s.cases ∧
        ¬ t.Escalated due := starved hdue hnot hfar n
  obtain ⟨t, hrun, hcases, hstill⟩ := hstarved
  refine hstill (hprogress _ t ?_ ?_ hrun due ?_)
  · intro a ha
    rw [eq_of_mem_replicate ha]
    rfl
  · have hfull : DeadlineLabel.isFull time (lastOfAll time due) = true := by
      simp [DeadlineLabel.isFull, lastOfAll]
    rw [countP_replicate, if_pos hfull]
  · unfold DeadlineSystem.elapsed at hdue ⊢
    rw [hcases]
    exact hdue

theorem unblocked_of_progress (h : s.Progress plans iso time) (hopen : ¬ s.AllEscalated time) :
    s.Unblocked plans iso time := by
  intro now tie hnow due hdue
  by_contra hnot
  rw [not_or] at hnot
  obtain ⟨n, hprogress⟩ := h
  refine hopen (hprogress _ s ?_ ?_ (blocked hdue hnot.1 hnot.2 n))
  · intro a ha
    rw [eq_of_mem_replicate ha]
    rfl
  · have hfull : DeadlineLabel.isFull time (.worker now [] tie true) = true := by
      simp [DeadlineLabel.isFull, hnow]
    rw [countP_replicate, if_pos hfull]

/-! ### The law -/

/-- In every state that is reached, each deadline is escalated once at most, and the later
runs escalate all that have elapsed exactly if they are escalated already, or each of them is
within reach and no run is blocked by an alert that cannot be stored. -/
theorem deadlines_escalated_iff (plans : Bool) (iso : Nat → String) (time : Nat)
    {cases : CaseTable} {labels : List DeadlineLabel}
    (hrun : run (DeadlineSystem.step plans iso) (.start cases) labels = some s) :
    (s.EscalatedOnce ∧ s.Progress plans iso time) ↔
      s.AllEscalated time ∨ (s.Unblocked plans iso time ∧ s.InReach time) := by
  constructor
  · rintro ⟨-, hprogress⟩
    by_cases hopen : s.AllEscalated time
    · exact .inl hopen
    · exact .inr ⟨unblocked_of_progress hprogress hopen, inReach_of_progress hprogress⟩
  · rintro (hdone | ⟨hclear, hreach⟩)
    · exact ⟨escalatedOnce_of_run hrun, progress_of_allEscalated hdone⟩
    · exact ⟨escalatedOnce_of_run hrun, progress_of_inReach hclear hreach⟩

/-- An open case with one deadline. -/
def datedCase (id : Nat) : DatedCase where
  id
  caseRef := "BIS-DSP-" ++ toString id
  tenantId := 1
  status := .accepted
  sourceNoticeDueAt := some 0
  reinvestigationDueAt := none
  extensionDueAt := none
  resultNoticeDueAt := none
  methodDescriptionDueAt := none

def datedCases (n : Nat) : CaseTable :=
  ⟨(List.range n).map datedCase, by
    rw [map_map]
    exact (map_id _).symm ▸ nodup_range⟩

theorem elapsed_datedCases (n time : Nat) :
    (DeadlineSystem.start (datedCases n)).elapsed time = (List.range n).map fun id =>
      ⟨id, "BIS-DSP-" ++ toString id, 1, .sourceNoticeDue, 0⟩ := by
  have hcase : ∀ id, (datedCase id).dueCases time =
      [⟨id, "BIS-DSP-" ++ toString id, 1, .sourceNoticeDue, 0⟩] := fun id => rfl
  unfold DeadlineSystem.elapsed CaseTable.dueCases DeadlineSystem.start datedCases
  simp only [not_mem_nil, not_false_eq_true, decide_true, filter_true,
    flatMap_map, hcase]
  exact map_eq_flatMap.symm

/-- The database plans the statement of an alert here. -/
theorem three_deadlines_escalated :
    (DeadlineSystem.start (datedCases 3)).EscalatedOnce ∧
      (DeadlineSystem.start (datedCases 3)).Progress true (fun _ => "1970-01-01T00:00:00.000Z")
        10 := by
  refine (@deadlines_escalated_iff _ true _ 10 (datedCases 3) [] rfl).mpr (.inr ⟨?_, ?_⟩)
  · intro now tie _ due hdue
    have helapsed : due ∈ (DeadlineSystem.start (datedCases 3)).elapsed now := mem_firstBy hdue
    rw [elapsed_datedCases] at helapsed
    obtain ⟨id, hid, rfl⟩ := mem_map.mp helapsed
    refine .inr ?_
    have hall : ∀ id < 3, (DueCase.mk id ("BIS-DSP-" ++ toString id) 1 .sourceNoticeDue 0).Storable
        true fun _ => "1970-01-01T00:00:00.000Z" := by
      unfold DueCase.Storable
      decide
    exact hall id (mem_range.mp hid)
  · intro due _
    refine .inr ((countP_le_length).trans_lt ?_)
    rw [elapsed_datedCases, length_map, length_range]
    decide

/-- Of 201 deadlines that elapse at once, one may be passed over for ever. -/
theorem crowded_deadlines_starve : ¬ ∀ (plans : Bool) (iso : Nat → String) (cases : CaseTable)
    (labels : List DeadlineLabel) (s : DeadlineSystem) (time : Nat),
    run (DeadlineSystem.step plans iso) (.start cases) labels = some s →
      s.EscalatedOnce ∧ s.Progress plans iso time := by
  intro hall
  have hreach := inReach_of_progress (hall true (fun _ => "1970-01-01T00:00:00.000Z")
    (datedCases 201) [] _ 0 rfl).2
  have hdue := hreach ⟨200, "BIS-DSP-" ++ toString 200, 1, .sourceNoticeDue, 0⟩ (by
    rw [elapsed_datedCases]
    exact mem_map_of_mem (mem_range.mpr (by decide)))
  rcases hdue with hold | hbefore
  · cases hold
  · unfold DeadlineSystem.before at hbefore
    rw [elapsed_datedCases, range_succ, map_append, countP_append] at hbefore
    rw [countP_eq_length.mpr] at hbefore
    · simp [maxEscalationsPerRun] at hbefore
    · intro other hother
      obtain ⟨id, hid, rfl⟩ := mem_map.mp hother
      have hlt := mem_range.mp hid
      refine decide_eq_true ⟨?_, ?_⟩
      · intro heq
        cases heq
        exact absurd hlt (by decide)
      · exact Prod.Lex.le_iff.mpr (.inr ⟨rfl, hlt.le⟩)

end Bis.Disputes
