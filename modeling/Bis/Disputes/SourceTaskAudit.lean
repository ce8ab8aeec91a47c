import Bis.Disputes.Steps

/-!
The references of source tasks that `createSourceTask` gives out. A request that comes again
runs into the task of the first: the reference it returns is the stored one, and its two
events carry the reference that was generated for it. The case is set to `source_pending`
whatever has become of the task in the meantime.
-/

namespace Bis.Disputes

open Bis.Relation Bis.Transition List

/-- The events of `createSourceTask`, with the references in their details. -/
inductive SourceTaskEvent where
  | sourceTaskCreated (taskRef disputeItemRef providerAuthorizationRef : String)
  | providerOutboxEnqueued (outboxId : Nat) (taskRef providerAuthorizationRef : String)

def SourceTaskEvent.taskRef : SourceTaskEvent → String
  | sourceTaskCreated taskRef _ _ => taskRef
  | providerOutboxEnqueued _ taskRef _ => taskRef

/-- The desk, with what its calls of `createSourceTask` have returned and appended. -/
structure AuditedDesk where
  desk : Desk
  returned : List String
  events : List SourceTaskEvent

def AuditedDesk.empty : AuditedDesk := ⟨.empty, [], []⟩

variable (sha256 : String → String)

/-- The task that a request runs into. -/
def Tables.requestedBefore (db : Tables) (input : Tables.SourceTaskInput) : Option SourceTask :=
  db.existingTask input.providerAuthorizationRef (input.idempotencyKey sha256)

/-- `RETURNING task_ref`. -/
def Tables.returnedTaskRef (db : Tables) (input : Tables.SourceTaskInput) (taskRef : String) :
    String :=
  ((db.requestedBefore sha256 input).map SourceTask.taskRef).getD taskRef

def AuditedDesk.record (s : AuditedDesk) (desk : Desk) : DeskStep → AuditedDesk
  | .mutate _ (.createSourceTask input _ taskRef outboxId) =>
    { desk
      returned := s.returned ++ [s.desk.db.returnedTaskRef sha256 input taskRef]
      events := s.events ++
        [.sourceTaskCreated taskRef input.disputeItemRef input.providerAuthorizationRef,
          .providerOutboxEnqueued outboxId taskRef input.providerAuthorizationRef] }
  | _ => { s with desk }

@[simp]
theorem AuditedDesk.record_desk (s : AuditedDesk) (desk : Desk) (a : DeskStep) :
    (s.record sha256 desk a).desk = desk := by
  unfold AuditedDesk.record
  split
  · rfl
  · rfl

def auditedStep : Step AuditedDesk DeskStep
  | s, a => (deskStep sha256 s.desk a).map fun desk => s.record sha256 desk a

def Tables.taskRefs (db : Tables) : List String := db.tasks.map SourceTask.taskRef

/-- Every reference that was returned or logged names a stored task. -/
structure AuditedDesk.Named (s : AuditedDesk) : Prop where
  returned : ∀ ref ∈ s.returned, ref ∈ s.desk.db.taskRefs
  events : ∀ event ∈ s.events, event.taskRef ∈ s.desk.db.taskRefs

/-- A case that the step moves to `source_pending` has an active task. -/
def MovesWithTask (s : AuditedDesk) (a : DeskStep) : Prop :=
  ∀ t, auditedStep sha256 s a = some t → ∀ caseRef,
    s.desk.db.status? caseRef ≠ some .sourcePending →
    t.desk.db.status? caseRef = some .sourcePending → t.desk.db.activeTasks caseRef ≠ []

/-- The request is a first one; or the generated reference happens to be that of a stored
task, and the case is `source_pending` already or has an active task. -/
def RequestsOnce (s : AuditedDesk) : DeskStep → Prop
  | .mutate _ (.createSourceTask input _ taskRef _) =>
    s.desk.db.requestedBefore sha256 input = none ∨
      (taskRef ∈ s.desk.db.taskRefs ∧
        (s.desk.db.status? input.caseRef = some .sourcePending ∨
          s.desk.db.activeTasks input.caseRef ≠ []))
  | _ => True

variable {sha256} {db db' : Tables}

/-! ### The tasks of the tables -/

@[simp]
theorem taskRefs_setTaskStatus (p : SourceTask → Bool) (status : TaskStatus) :
    (db.setTaskStatus p status).taskRefs = db.taskRefs :=
  map_updateWhere (f := fun t : SourceTask => { t with status }) (fun _ => rfl) db.tasks

variable {input : Tables.SourceTaskInput} {tenantId : Option Int} {outboxId now : Nat}
  {caseRef : String} {status : DisputeStatus} {a : DeskStep} {s : AuditedDesk} {desk : Desk}

theorem taskRef_mem_of_requestedBefore {task : SourceTask}
    (h : db.requestedBefore sha256 input = some task) : task.taskRef ∈ db.taskRefs :=
  mem_map_of_mem (mem_of_find?_eq_some h)

/-- What `createSourceTask` does to the tasks: nothing where the request has been made
before, and otherwise it adds the task of the request. -/
inductive TaskOf (sha256 : String → String) (db : Tables) (input : Tables.SourceTaskInput)
    (taskRef : String) (db' : Tables) : Prop where
  | stored {task : SourceTask} : db.requestedBefore sha256 input = some task →
      db'.tasks = db.tasks → TaskOf sha256 db input taskRef db'
  | added {task : SourceTask} : db.requestedBefore sha256 input = none →
      task.taskRef = taskRef → task.caseRef = input.caseRef → task.status = .pending →
      db'.tasks = db.tasks ++ [task] → TaskOf sha256 db input taskRef db'

theorem tasks_of_insertOutbox {row : ProviderOutboxRow} (h : db.insertOutbox row = .ok db') :
    db'.tasks = db.tasks := by
  unfold Tables.insertOutbox at h
  split at h
  · cases h
    rfl
  · split at h
    · cases h
    · cases h
      rfl

theorem taskOf_createSourceTask {taskRef : String} (hkeyed : db.Keyed)
    (h : db.createSourceTask sha256 input tenantId taskRef outboxId now = .ok db') :
    TaskOf sha256 db input taskRef db' := by
  obtain ⟨row, hrow, h⟩ := except_bind_ok h
  obtain ⟨hcase, -⟩ := Tables.assertInternalCase_ok hkeyed hrow
  split at h
  · cases h
  · split at h
    · cases h
    · split at h
      · cases h
      · obtain ⟨⟨stored, task⟩, htask, h⟩ := except_bind_ok h
        obtain ⟨queued, hqueued, h⟩ := except_bind_ok h
        cases h
        have htasks : queued.tasks = stored.tasks := tasks_of_insertOutbox hqueued
        unfold Tables.insertTask at htask
        split at htask
        next existing hexisting =>
          obtain ⟨rfl, -⟩ := Prod.mk.inj (Except.ok.inj htask)
          exact .stored hexisting htasks
        next hnone =>
          split at htask
          · cases htask
          · obtain ⟨rfl, -⟩ := Prod.mk.inj (Except.ok.inj htask)
            exact .added hnone rfl hcase rfl htasks

/-! ### Steps that are no request -/

theorem activeTasks_congr (h : db'.tasks = db.tasks) (caseRef : String) :
    db'.activeTasks caseRef = db.activeTasks caseRef := by
  unfold Tables.activeTasks
  rw [h]

theorem sourcePending_of_setCaseStatus {other : String} (hstatus : status ≠ .sourcePending)
    (h : (db.setCaseStatus caseRef status).status? other = some .sourcePending) :
    db.status? other = some .sourcePending := by
  rw [Tables.status?_setCaseStatus] at h
  split at h
  · obtain ⟨_, _, rfl⟩ := Option.map_eq_some_iff.mp h
    exact absurd rfl hstatus
  · exact h

theorem taskRefs_restoreOrFail (event : LeasedOutboxEvent) (now : Nat) (retryable : Bool) :
    (db.restoreOrFail event now retryable).taskRefs = db.taskRefs := by
  unfold Tables.restoreOrFail
  split
  · exact taskRefs_setTaskStatus _ _
  · rfl

theorem status?_restoreOrFail (event : LeasedOutboxEvent) (now : Nat) (retryable : Bool)
    (caseRef : String) :
    (db.restoreOrFail event now retryable).status? caseRef = db.status? caseRef := by
  refine Tables.status?_congr ?_ caseRef
  unfold Tables.restoreOrFail
  split
  · rfl
  · rfl

/-- A step other than a request keeps the references and moves no case to
`source_pending`. -/
structure Undemanding (db db' : Tables) : Prop where
  taskRefs : db'.taskRefs = db.taskRefs
  status : ∀ caseRef, db'.status? caseRef = some .sourcePending →
    db.status? caseRef = some .sourcePending

theorem Undemanding.of_eq (htasks : db'.tasks = db.tasks) (hcases : db'.cases = db.cases) :
    Undemanding db db' := by
  refine ⟨congrArg (List.map SourceTask.taskRef) htasks, ?_⟩
  intro caseRef h
  rw [Tables.status?_congr hcases] at h
  exact h

theorem undemanding_setCaseStatus (hstatus : status ≠ .sourcePending) :
    Undemanding db (db.setCaseStatus caseRef status) :=
  ⟨rfl, fun _ => sourcePending_of_setCaseStatus hstatus⟩

theorem undemanding_setStatuses {p : SourceTask → Bool} {task : TaskStatus}
    (hstatus : status ≠ .sourcePending) :
    Undemanding db ((db.setTaskStatus p task).setCaseStatus caseRef status) :=
  ⟨taskRefs_setTaskStatus p task, fun _ => sourcePending_of_setCaseStatus hstatus⟩

theorem undemanding_of_mutates {m : Mutation} (h : Mutates db m db')
    (hother : ∀ input tenantId taskRef outboxId,
      m ≠ .createSourceTask input tenantId taskRef outboxId) : Undemanding db db' := by
  cases h with
  | @opened caseRef tenantId userId candidateId itemRefs items hfresh =>
    refine ⟨rfl, ?_⟩
    intro other hafter
    rw [Tables.status?_append db hfresh] at hafter
    split at hafter
    · cases hafter
    · exact hafter
  | accepted | completed => exact undemanding_setCaseStatus nofun
  | assigned | dispositioned | escalated | settled => exact .of_eq rfl rfl
  | requested => exact absurd rfl (hother _ _ _ _)
  | responded => exact undemanding_setStatuses nofun

theorem undemanding_of_step {s t : Desk} (h : DeskTakes s a t)
    (hother : ∀ now input tenantId taskRef outboxId, a ≠ .mutate now (.createSourceTask input
      tenantId taskRef outboxId)) : Undemanding s.db t.db := by
  cases h with
  | @mutated now m db' _ hm =>
    refine undemanding_of_mutates hm ?_
    rintro input tenantId taskRef outboxId rfl
    exact hother now input tenantId taskRef outboxId rfl
  | withdrew => exact undemanding_setStatuses nofun
  | @restored worker now answer work event rest retryable cycle =>
    refine ⟨taskRefs_restoreOrFail event now retryable, ?_⟩
    intro caseRef hafter
    exact (status?_restoreOrFail event now retryable caseRef).symm.trans hafter
  | checked | selected | rolledBack | leased | decrypted | authorized | dispatched | notRestored
    | crashed => exact .of_eq rfl rfl

/-! ### Requests -/

theorem activeTasks_added {task : SourceTask} (hcase : task.caseRef = caseRef)
    (hstatus : task.status = .pending) (htasks : db'.tasks = db.tasks ++ [task]) :
    db'.activeTasks caseRef ≠ [] := by
  refine ne_nil_of_mem (Tables.mem_activeTasks.mpr ⟨?_, hcase, ?_⟩)
  · rw [htasks]
    exact mem_append_right _ (mem_singleton_self task)
  · rw [hstatus]
    rfl

/-- After a request its case is `source_pending`, and no other case has come to be so. -/
theorem status_of_request {taskRef : String}
    (h : Mutates db (.createSourceTask input tenantId taskRef outboxId) db') (caseRef : String) :
    db'.status? caseRef = if caseRef = input.caseRef then some .sourcePending
      else db.status? caseRef := by
  cases h with
  | @requested _ _ _ _ status stored hstatus hclosed hrequested =>
    rw [Tables.status?_setCaseStatus, Tables.status?_congr hrequested.cases]
    split
    next hsame =>
      rw [hsame, hstatus]
      rfl
    · rfl

theorem named_record_iff {taskRef : String} (hs : s.Named)
    (hkept : s.desk.db.taskRefs ⊆ desk.db.taskRefs) :
    (s.record sha256 desk (.mutate now (.createSourceTask input tenantId taskRef outboxId))).Named ↔
      s.desk.db.returnedTaskRef sha256 input taskRef ∈ desk.db.taskRefs ∧
        taskRef ∈ desk.db.taskRefs := by
  constructor
  · intro h
    refine ⟨h.returned _ (mem_append_right _ (mem_singleton_self _)), ?_⟩
    exact h.events (.sourceTaskCreated _ _ _) (mem_append_right _ mem_cons_self)
  · rintro ⟨hreturned, hlogged⟩
    constructor
    · intro ref href
      rcases mem_concat.mp href with hold | rfl
      · exact hkept (hs.returned ref hold)
      · exact hreturned
    · intro event hevent
      rcases mem_append.mp hevent with hold | hnew
      · exact hkept (hs.events event hold)
      · rcases mem_pair.mp hnew with rfl | rfl
        · exact hlogged
        · exact hlogged

theorem lawful_request_iff {taskRef : String} (hs : s.Named)
    (htask : TaskOf sha256 s.desk.db input taskRef desk.db)
    (hstatus : ∀ caseRef, desk.db.status? caseRef = if caseRef = input.caseRef then some
      .sourcePending else s.desk.db.status? caseRef) :
    ((∀ caseRef, s.desk.db.status? caseRef ≠ some .sourcePending →
        desk.db.status? caseRef = some .sourcePending → desk.db.activeTasks caseRef ≠ []) ∧
      (s.record sha256 desk
        (.mutate now (.createSourceTask input tenantId taskRef outboxId))).Named) ↔
      RequestsOnce sha256 s (.mutate now (.createSourceTask input tenantId taskRef outboxId)) := by
  have hmoves : (∀ caseRef, s.desk.db.status? caseRef ≠ some .sourcePending →
      desk.db.status? caseRef = some .sourcePending → desk.db.activeTasks caseRef ≠ []) ↔
      (s.desk.db.status? input.caseRef = some .sourcePending ∨
        desk.db.activeTasks input.caseRef ≠ []) := by
    constructor
    · intro h
      by_cases hbefore : s.desk.db.status? input.caseRef = some .sourcePending
      · exact .inl hbefore
      · exact .inr (h input.caseRef hbefore (by rw [hstatus, if_pos rfl]))
    · intro h caseRef hbefore hafter
      rw [hstatus] at hafter
      split at hafter
      next hsame =>
        subst hsame
        exact h.resolve_left hbefore
      · exact absurd hafter hbefore
  rw [hmoves]
  cases htask with
  | @stored task hbefore htasks =>
    have hrefs : desk.db.taskRefs = s.desk.db.taskRefs :=
      congrArg (List.map SourceTask.taskRef) htasks
    have hreturned : s.desk.db.returnedTaskRef sha256 input taskRef ∈ s.desk.db.taskRefs := by
      rw [Tables.returnedTaskRef, hbefore]
      exact taskRef_mem_of_requestedBefore hbefore
    rw [named_record_iff hs (by rw [hrefs]; exact List.Subset.refl _), activeTasks_congr htasks,
      hrefs]
    constructor
    · rintro ⟨hmoved, -, hlogged⟩
      exact .inr ⟨hlogged, hmoved⟩
    · rintro (hnone | ⟨hlogged, hmoved⟩)
      · rw [hbefore] at hnone
        cases hnone
      · exact ⟨hmoved, hreturned, hlogged⟩
  | @added task hnone href hcase hpending htasks =>
    have hrefs : desk.db.taskRefs = s.desk.db.taskRefs ++ [taskRef] := by
      rw [← href, Tables.taskRefs, htasks, map_append]
      rfl
    have hnew : taskRef ∈ desk.db.taskRefs := by
      rw [hrefs]
      exact mem_append_right _ (mem_singleton_self _)
    have hreturned : s.desk.db.returnedTaskRef sha256 input taskRef = taskRef := by
      rw [Tables.returnedTaskRef, hnone]
      rfl
    rw [named_record_iff hs (by rw [hrefs]; exact subset_append_left _ _), hreturned]
    exact iff_of_true ⟨.inr (activeTasks_added hcase hpending htasks), hnew, hnew⟩ (.inl hnone)

theorem lawful_other (hs : s.Named) (h : Undemanding s.desk.db desk.db)
    (hrecord : s.record sha256 desk a = { s with desk }) :
    (∀ caseRef, s.desk.db.status? caseRef ≠ some .sourcePending →
        desk.db.status? caseRef = some .sourcePending → desk.db.activeTasks caseRef ≠ []) ∧
      (s.record sha256 desk a).Named := by
  constructor
  · intro caseRef hbefore hafter
    exact absurd (h.status caseRef hafter) hbefore
  · rw [hrecord]
    constructor
    · exact fun ref href => h.taskRefs ▸ hs.returned ref href
    · exact fun event hevent => h.taskRefs ▸ hs.events event hevent

theorem lawful_step_iff {t : AuditedDesk} (hkeyed : s.desk.db.Keyed) (hs : s.Named)
    (hstep : auditedStep sha256 s a = some t) :
    (MovesWithTask sha256 s a ∧ t.Named) ↔ RequestsOnce sha256 s a := by
  have hmoves : MovesWithTask sha256 s a ↔ ∀ caseRef,
      s.desk.db.status? caseRef ≠ some .sourcePending →
      t.desk.db.status? caseRef = some .sourcePending → t.desk.db.activeTasks caseRef ≠ [] := by
    constructor
    · exact fun h => h t hstep
    · intro h t' ht'
      obtain rfl := Option.some.inj (hstep.symm.trans ht')
      exact h
  obtain ⟨desk, hdesk, rfl⟩ := Option.map_eq_some_iff.mp hstep
  have htakes := deskTakes_of_step hkeyed hdesk
  rw [hmoves, AuditedDesk.record_desk]
  by_cases hrequest : ∃ now input tenantId taskRef outboxId,
      a = .mutate now (.createSourceTask input tenantId taskRef outboxId)
  · obtain ⟨now, input, tenantId, taskRef, outboxId, rfl⟩ := hrequest
    simp only [deskStep] at hdesk
    split at hdesk
    · cases hdesk
    · obtain ⟨db', hok, rfl⟩ := toOption_map_eq_some hdesk
      exact lawful_request_iff hs (taskOf_createSourceTask hkeyed hok)
        (status_of_request (mutates_of_ok hkeyed hok))
  · have hother : ∀ now input tenantId taskRef outboxId,
        a ≠ .mutate now (.createSourceTask input tenantId taskRef outboxId) := by
      rintro now input tenantId taskRef outboxId rfl
      exact hrequest ⟨now, input, tenantId, taskRef, outboxId, rfl⟩
    have hrecord : s.record sha256 desk a = { s with desk } := by
      unfold AuditedDesk.record
      split
      · exact absurd rfl (hother _ _ _ _ _)
      · rfl
    have hmeets : RequestsOnce sha256 s a := by
      unfold RequestsOnce
      split
      · exact absurd rfl (hother _ _ _ _ _)
      · trivial
    exact iff_of_true (lawful_other hs (undemanding_of_step htakes hother) hrecord) hmeets

/-! ### Runs -/

/-- The references given out name stored tasks and cases move to `source_pending` with an
active task, exactly in the runs whose requests are first ones or find the task as they
would have left it. -/
theorem source_tasks_named_iff (sha256 : String → String) (labels : List DeskStep) :
    (Meets (auditedStep sha256) (MovesWithTask sha256) .empty labels ∧
        Always (auditedStep sha256) AuditedDesk.Named .empty labels) ↔
      Meets (auditedStep sha256) (RequestsOnce sha256) .empty labels := by
  have hkeyed : AuditedDesk.empty.desk.db.Keyed := nodup_nil
  have hnamed : AuditedDesk.empty.Named := ⟨nofun, nofun⟩
  refine meets_and_always_iff_meets labels (I := fun s => s.desk.db.Keyed) ?_ ?_ hkeyed hnamed
  · intro s a t hs hstep
    obtain ⟨desk, hdesk, rfl⟩ := Option.map_eq_some_iff.mp hstep
    rw [AuditedDesk.record_desk]
    exact keyed_of_step hs hdesk
  · intro s a t hs hnamed hstep
    exact lawful_step_iff hs hnamed hstep

def reinvestigation : Tables.SourceTaskInput :=
  { caseRef := "BIS-DR-1", disputeItemRef := "BIS-DI-1", providerAuthorizationRef := "AUTH-1"
    authorized := true, manifest := "[]" }

/-- The request is made again after the source has answered the first. -/
def repeatedRequest : List DeskStep :=
  [.mutate 0 (.openCase "BIS-DR-1" 7 1 9 ["BIS-DI-1"]),
    .mutate 1 (.createSourceTask reinvestigation (some 7) "BIS-DST-1" 1),
    .mutate 2 (.recordSourceResponse "BIS-DR-1" (some 7) "BIS-DST-1"),
    .mutate 3 (.createSourceTask reinvestigation (some 7) "BIS-DST-2" 2)]

/-- Its events name a task that is not stored, and the case waits for a source that has no
active task. -/
theorem repeatedRequest_unnamed : ¬ ∀ (sha256 : String → String) (labels : List DeskStep),
    Meets (auditedStep sha256) (MovesWithTask sha256) .empty labels ∧
      Always (auditedStep sha256) AuditedDesk.Named .empty labels := by
  intro hall
  have hrun : (run (auditedStep id) .empty repeatedRequest).map
      (fun s => (s.events.map SourceTaskEvent.taskRef, s.desk.db.taskRefs)) =
      some (["BIS-DST-1", "BIS-DST-1", "BIS-DST-2", "BIS-DST-2"], ["BIS-DST-1"]) := by decide
  obtain ⟨s, hs, hresult⟩ := Option.map_eq_some_iff.mp hrun
  obtain ⟨hevents, hrefs⟩ := Prod.mk.inj hresult
  have hlogged : "BIS-DST-2" ∈ s.events.map SourceTaskEvent.taskRef := by
    rw [hevents]
    decide
  obtain ⟨event, hevent, href⟩ := mem_map.mp hlogged
  have hstored := ((hall id repeatedRequest).2.finish hs).events event hevent
  rw [href, hrefs] at hstored
  revert hstored
  decide

end Bis.Disputes
