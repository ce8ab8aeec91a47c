import Bis.Disputes.Steps

/-!
Whether resolved and withdrawn cases stay so and have no task under way. A
response to a task is recorded without a look at the case, and a withdrawal
commits on what it has read before: both have a condition of their own.
-/

namespace Bis.Disputes

open Bis.Relation Bis.Transition Option

variable {sha256 : String → String} {db db' : Tables} {s t : Desk}

/-- A case that is resolved or withdrawn has its status after the step. -/
def KeepsTerminal (sha256 : String → String) (s : Desk) (a : DeskStep) : Prop :=
  ∀ t, deskStep sha256 s a = some t → ∀ caseRef status, s.db.status? caseRef = some status →
    status.terminal → t.db.status? caseRef = some status

def Tables.NoActiveTask (db : Tables) : Prop :=
  ∀ caseRef status, db.status? caseRef = some status → status.terminal →
    db.activeTasks caseRef = []

/-- A response is not recorded on a terminal case, and a withdrawal neither
commits on a case that has been resolved nor leaves one of its tasks active. -/
def ClosesCleanly (s : Desk) : DeskStep → Prop
  | .mutate _ (.recordSourceResponse caseRef _ _) =>
    ∀ status, s.db.status? caseRef = some status → status.terminal = false
  | .withdrawCommit session =>
    ∀ w, s.withdrawal? session = some w → ∀ status, s.db.status? w.caseRef = some status →
      status ≠ .resolved ∧ ∀ task ∈ s.db.activeTasks w.caseRef, w.holds task.taskRef
  | _ => True

/-! ### Tasks -/

theorem Tables.NoActiveTask.of_cases (h : db.NoActiveTask)
    (hcases : db'.cases = db.cases) (htasks : ∀ task ∈ db'.tasks, task.status.active →
      ∃ old ∈ db.tasks, old.caseRef = task.caseRef ∧ old.status.active) : db'.NoActiveTask := by
  intro caseRef status hstatus hterminal
  rw [Tables.status?_congr hcases] at hstatus
  have hnone := h caseRef status hstatus hterminal
  refine List.eq_nil_iff_forall_not_mem.mpr ?_
  intro task htask
  obtain ⟨hmem, hcase, hactive⟩ := Tables.mem_activeTasks.mp htask
  obtain ⟨old, hold, hsame, holdActive⟩ := htasks task hmem hactive
  have holdTask := Tables.mem_activeTasks.mpr ⟨hold, hsame.trans hcase, holdActive⟩
  rw [hnone] at holdTask
  cases holdTask

theorem active_of_setTaskStatus {p : SourceTask → Bool} {status : TaskStatus}
    (hstatus : status.active = false) {task : SourceTask}
    (htask : task ∈ (db.setTaskStatus p status).tasks) (hactive : task.status.active) :
    task ∈ db.tasks ∧ ¬ p task := by
  rcases mem_updateWhere.mp htask with ⟨old, _, _, rfl⟩ | hkept
  · rw [hstatus] at hactive
    cases hactive
  · exact hkept

/-! ### What mutations keep -/

def Kept (db db' : Tables) : Prop :=
  ∀ caseRef status, db.status? caseRef = some status → status.terminal →
    db'.status? caseRef = some status

theorem kept_of_cases (h : db'.cases = db.cases) : Kept db db' := by
  intro caseRef status hstatus _
  rw [Tables.status?_congr h]
  exact hstatus

theorem kept_setCaseStatus {caseRef : String} {status : DisputeStatus}
    (hcases : db'.cases = db.cases)
    (h : ∀ old, db.status? caseRef = some old → old.terminal → old = status) :
    Kept db (db'.setCaseStatus caseRef status) := by
  intro other old hold hterminal
  rw [Tables.status?_setCaseStatus, Tables.status?_congr hcases, hold]
  split
  next hother =>
    subst hother
    rw [h old hold hterminal]
    rfl
  · rfl

theorem noActiveTask_setCaseStatus {caseRef : String} {status : DisputeStatus}
    (hothers : ∀ other old, other ≠ caseRef → db.status? other = some old → old.terminal →
      db.activeTasks other = [])
    (hown : status.terminal → db.activeTasks caseRef = []) :
    (db.setCaseStatus caseRef status).NoActiveTask := by
  intro other old hold hterminal
  change db.activeTasks other = []
  rw [Tables.status?_setCaseStatus] at hold
  split at hold
  next hother =>
    subst hother
    obtain ⟨_, _, rfl⟩ := map_eq_some_iff.mp hold
    exact hown hterminal
  · next hother => exact hothers other old hother hold hterminal

theorem kept_of_mutates {m : Mutation} (hP : db.NoActiveTask) (hm : Mutates db m db')
    (hclean : ∀ caseRef tenantId taskRef, m = .recordSourceResponse caseRef tenantId taskRef →
      ∀ status, db.status? caseRef = some status → status.terminal = false) :
    Kept db db' ∧ db'.NoActiveTask := by
  have hothers : ∀ caseRef other old, other ≠ caseRef → db.status? other = some old →
      old.terminal → db.activeTasks other = [] :=
    fun _ other old _ hold hterminal => hP other old hold hterminal
  cases hm with
  | @opened caseRef tenantId userId candidateId itemRefs items hfresh =>
    have happend := @Tables.status?_append db
      { caseRef, tenantId, requesterUserId := userId, candidateId, status := .received }
      hfresh items
    constructor
    · intro other old hold _
      rw [happend, if_neg]
      · exact hold
      · rintro rfl
        rw [hfresh] at hold
        cases hold
    · intro other old hold hterminal
      rw [happend] at hold
      split at hold
      · cases hold
        cases hterminal
      · exact hP other old hold hterminal
  | accepted hstatus =>
    refine ⟨kept_setCaseStatus rfl ?_, noActiveTask_setCaseStatus (hothers _) nofun⟩
    intro old hold hterminal
    obtain rfl := some.inj (hstatus.symm.trans hold)
    cases hterminal
  | assigned | dispositioned | escalated | settled => exact ⟨kept_of_cases rfl, hP⟩
  | @requested input _ _ _ status stored hstatus hclosed hrequested =>
    have hlive : ∀ old, db.status? input.caseRef = some old → old.terminal = false := by
      intro old hold
      obtain rfl := some.inj (hstatus.symm.trans hold)
      cases status <;> first | rfl | cases hclosed
    refine ⟨kept_setCaseStatus hrequested.cases ?_, noActiveTask_setCaseStatus ?_ nofun⟩
    · intro old hold hterminal
      rw [hlive old hold] at hterminal
      cases hterminal
    · intro other old hother hold hterminal
      rw [Tables.status?_congr hrequested.cases] at hold
      refine List.eq_nil_iff_forall_not_mem.mpr ?_
      intro task htask
      obtain ⟨hmem, hcase, hactive⟩ := Tables.mem_activeTasks.mp htask
      have hold' : task ∈ db.tasks := by
        rcases hrequested.tasks with hsame | ⟨added, haddedCase, hadded⟩
        · exact hsame ▸ hmem
        · rw [hadded] at hmem
          rcases mem_concat.mp hmem with hmem | rfl
          · exact hmem
          · exact absurd (hcase.symm.trans haddedCase) hother
      have hactiveTask := Tables.mem_activeTasks.mpr ⟨hold', hcase, hactive⟩
      rw [hP other old hold hterminal] at hactiveTask
      cases hactiveTask
  | @responded caseRef taskRef tenantId status hstatus =>
    have hlive := hclean caseRef tenantId taskRef rfl
    have hset : (db.setTaskStatus (fun t => t.taskRef == taskRef) .responded).NoActiveTask := by
      refine hP.of_cases rfl ?_
      intro task htask hactive
      exact ⟨task, (active_of_setTaskStatus rfl htask hactive).1, rfl, hactive⟩
    refine ⟨kept_setCaseStatus rfl ?_, noActiveTask_setCaseStatus ?_ nofun⟩
    · intro old hold hterminal
      rw [hlive old hold] at hterminal
      cases hterminal
    · exact fun other old _ hold hterminal => hset other old hold hterminal
  | completed hstatus hterminal hnone =>
    refine ⟨kept_setCaseStatus rfl ?_, noActiveTask_setCaseStatus (hothers _) fun _ => hnone⟩
    intro old hold hold'
    obtain rfl := some.inj (hstatus.symm.trans hold)
    rw [hterminal] at hold'
    cases hold'

/-! ### Steps -/

theorem clean_of_step {a : DeskStep} (hkeyed : s.db.Keyed) (hP : s.db.NoActiveTask)
    (hclean : ClosesCleanly s a) (hstep : deskStep sha256 s a = some t) :
    KeepsTerminal sha256 s a ∧ t.db.NoActiveTask := by
  suffices hkept : Kept s.db t.db ∧ t.db.NoActiveTask by
    refine ⟨?_, hkept.2⟩
    intro t' ht'
    obtain rfl := some.inj (hstep.symm.trans ht')
    exact hkept.1
  cases deskTakes_of_step hkeyed hstep with
  | mutated _ hm =>
    refine kept_of_mutates hP hm ?_
    rintro caseRef tenantId taskRef rfl
    exact hclean
  | @withdrew session w taskRefs hw hrefs =>
    have hown := hclean w hw
    have hset : ∀ task ∈ (s.db.setTaskStatus (fun t => taskRefs.contains t.taskRef)
        .cancelled).tasks, task.status.active →
          task ∈ s.db.tasks ∧ ¬ taskRefs.contains task.taskRef :=
      fun task htask hactive => active_of_setTaskStatus rfl htask hactive
    have hnone : (s.db.setTaskStatus (fun t => taskRefs.contains t.taskRef)
        .cancelled).NoActiveTask :=
      hP.of_cases rfl fun task htask hactive => ⟨task, (hset task htask hactive).1, rfl, hactive⟩
    refine ⟨kept_setCaseStatus rfl ?_, ?_⟩
    · intro old hold hterminal
      have hne := (hown old hold).1
      cases old <;> first | rfl | exact absurd rfl hne | cases hterminal
    · intro other status hstatus hterminal
      rcases eq_or_ne other w.caseRef with rfl | hother
      · refine List.eq_nil_iff_forall_not_mem.mpr ?_
        intro task htask
        obtain ⟨hmem, hcase, hactive⟩ := Tables.mem_activeTasks.mp htask
        obtain ⟨hold, hnot⟩ := hset task hmem hactive
        have hstatus' := hstatus
        simp only [Tables.withdraw] at hstatus'
        rw [Tables.status?_setCaseStatus, if_pos rfl] at hstatus'
        obtain ⟨old, holdStatus, -⟩ := map_eq_some_iff.mp hstatus'
        have hheld := (hown old holdStatus).2 task
          (Tables.mem_activeTasks.mpr ⟨hold, hcase, hactive⟩)
        rw [Withdrawal.holds, hrefs] at hheld
        exact hnot hheld
      · refine hnone other status ?_ hterminal
        simp only [Tables.withdraw] at hstatus
        rw [Tables.status?_setCaseStatus, if_neg hother] at hstatus
        exact hstatus
  | @restored worker now answer work event rest retryable cycle =>
    have hcases : (s.db.restoreOrFail event now retryable).cases = s.db.cases := by
      unfold Tables.restoreOrFail
      split
      · rfl
      · rfl
    refine ⟨kept_of_cases hcases, hP.of_cases hcases ?_⟩
    intro task htask hactive
    refine ⟨task, ?_, rfl, hactive⟩
    simp only [Desk.setCycle, Tables.restoreOrFail] at htask
    split at htask
    · exact (active_of_setTaskStatus rfl htask hactive).1
    · exact htask
  | checked | selected | rolledBack | leased | decrypted | authorized | dispatched | notRestored
    | crashed => exact ⟨kept_of_cases rfl, hP⟩

/-- The two conditions are needed. -/
theorem closesCleanly_of_kept {a : DeskStep} (hkeyed : s.db.Keyed)
    (hkeeps : KeepsTerminal sha256 s a) (hP : t.db.NoActiveTask)
    (hstep : deskStep sha256 s a = some t) : ClosesCleanly s a := by
  have hkept := hkeeps t hstep
  cases deskTakes_of_step hkeyed hstep with
  | mutated _ hm =>
    cases hm with
    | @responded caseRef taskRef tenantId status hstatus =>
      intro old hold
      refine Bool.eq_false_iff.mpr ?_
      intro hterminal
      have hafter := hkept caseRef old hold hterminal
      rw [Tables.status?_setCaseStatus, if_pos rfl] at hafter
      obtain ⟨_, _, rfl⟩ := map_eq_some_iff.mp hafter
      cases hterminal
    | opened | accepted | assigned | requested | dispositioned | completed | escalated
      | settled => trivial
  | @withdrew session w taskRefs hw hrefs =>
    intro w' hw' status hstatus
    obtain rfl := some.inj (hw.symm.trans hw')
    have hafter : (s.db.withdraw w.caseRef taskRefs).status? w.caseRef = some .withdrawn := by
      simp only [Tables.withdraw]
      rw [Tables.status?_setCaseStatus, if_pos rfl]
      exact congrArg (Option.map fun _ => DisputeStatus.withdrawn) hstatus
    constructor
    · rintro rfl
      have hsame := hkept w.caseRef .resolved hstatus rfl
      rw [hafter] at hsame
      cases hsame
    · intro task htask
      obtain ⟨hmem, hcase, hactive⟩ := Tables.mem_activeTasks.mp htask
      have hnone := hP w.caseRef .withdrawn hafter rfl
      rw [Withdrawal.holds, hrefs]
      by_contra hnot
      have hkeptTask : task ∈ (s.db.withdraw w.caseRef taskRefs).activeTasks w.caseRef :=
        Tables.mem_activeTasks.mpr ⟨mem_updateWhere_of_not hmem hnot, hcase, hactive⟩
      rw [hnone] at hkeptTask
      cases hkeptTask
  | checked | selected | rolledBack | leased | decrypted | authorized | dispatched | restored
    | notRestored | crashed => trivial

/-- The statuses resolved and withdrawn are never left and such cases have no
active task, in exactly the runs that close and answer cleanly. -/
theorem terminal_cases_settled_iff (sha256 : String → String) (labels : List DeskStep) :
    (Meets (deskStep sha256) (KeepsTerminal sha256) .empty labels ∧
        Always (deskStep sha256) (fun s => s.db.NoActiveTask) .empty labels) ↔
      Meets (deskStep sha256) ClosesCleanly .empty labels := by
  have hkeyed : Desk.empty.db.Keyed := List.nodup_nil
  have hempty : Desk.empty.db.NoActiveTask := by
    intro caseRef status hstatus
    cases hstatus
  refine meets_and_always_iff_meets labels (I := fun s => s.db.Keyed)
    (fun s a t h hstep => keyed_of_step h hstep) ?_ hkeyed hempty
  intro s a t hkeyed hP hstep
  exact ⟨fun h => closesCleanly_of_kept hkeyed h.1 h.2 hstep,
    fun h => clean_of_step hkeyed hP h hstep⟩

/-! ### A task created under a withdrawal -/

def raceRequest : Tables.SourceTaskInput :=
  { caseRef := "BIS-DR-1", disputeItemRef := "BIS-DI-1", providerAuthorizationRef := "AUTH-1"
    authorized := true, manifest := "[]" }

/-- The task is created after the withdrawal has cancelled the tasks it found. -/
def raceRun : List DeskStep :=
  [.mutate 0 (.openCase "BIS-DR-1" 7 1 9 ["BIS-DI-1"]), .withdrawCheck 0 "BIS-DR-1" 1 7,
    .withdrawTasks 0, .mutate 0 (.createSourceTask raceRequest (some 7) "BIS-DST-1" 1),
    .withdrawCommit 0]

/-- The provider's answer, which nobody waits for any more. -/
def lateAnswer : DeskStep := .mutate 0 (.recordSourceResponse "BIS-DR-1" (some 7) "BIS-DST-1")

/-- The withdrawn case has an active task, and its answer reopens the case. -/
theorem withdrawn_case_reopens :
    ¬ Always (deskStep id) (fun s => s.db.NoActiveTask) .empty raceRun ∧
      ¬ Meets (deskStep id) (KeepsTerminal id) .empty (raceRun ++ [lateAnswer]) := by
  have hrun : (run (deskStep id) .empty raceRun).map (fun s =>
      (s.db.status? "BIS-DR-1", (s.db.activeTasks "BIS-DR-1").length,
        (deskStep id s lateAnswer).map fun t => t.db.status? "BIS-DR-1")) =
      some (some .withdrawn, 1, some (some .investigating)) := by decide
  obtain ⟨s, hs, hresult⟩ := map_eq_some_iff.mp hrun
  obtain ⟨hstatus, hresult⟩ := Prod.mk.inj hresult
  obtain ⟨hactive, hanswer⟩ := Prod.mk.inj hresult
  constructor
  · intro h
    have hnone := h.finish hs "BIS-DR-1" .withdrawn hstatus rfl
    rw [hnone] at hactive
    cases hactive
  · intro h
    obtain ⟨t, ht, hafter⟩ := map_eq_some_iff.mp hanswer
    have hkeeps := ((h.append hs) t ht).1 t ht "BIS-DR-1" .withdrawn hstatus rfl
    rw [hkeeps] at hafter
    cases hafter

end Bis.Disputes
