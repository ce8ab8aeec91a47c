import Bis.Disputes.ProviderOutbox
import Bis.Relation.Keyed

/-!
What each mutation and each step of the desk does to the tables.
-/

namespace Bis.Disputes

open Bis.Relation Bis.Transition

variable {sha256 : String → String} {db db' : Tables} {s t : Desk}

/-! ### The status of a case -/

def Tables.status? (db : Tables) (caseRef : String) : Option DisputeStatus :=
  (lookup DisputeCase.caseRef caseRef db.cases).map DisputeCase.status

/-- The references of the cases are a key. -/
def Tables.Keyed (db : Tables) : Prop := (db.cases.map DisputeCase.caseRef).Nodup

namespace Tables

theorem status?_congr (h : db'.cases = db.cases) (caseRef : String) :
    db'.status? caseRef = db.status? caseRef := by
  unfold status?
  rw [h]

theorem status?_setCaseStatus (db : Tables) (caseRef other : String) (status : DisputeStatus) :
    (db.setCaseStatus caseRef status).status? other =
      if other = caseRef then (db.status? other).map fun _ => status else db.status? other := by
  unfold status? setCaseStatus
  rw [lookup_updateWhere (f := fun c : DisputeCase => { c with status }) fun _ => rfl]
  split
  · simp [Option.map_map, Function.comp_def]
  · rfl

theorem status?_of_mem (h : db.Keyed) {row : DisputeCase} (hrow : row ∈ db.cases) :
    db.status? row.caseRef = some row.status := by
  rw [status?, (lookup_eq_some_iff h).mpr ⟨hrow, rfl⟩]
  rfl

theorem status?_append (db : Tables) {row : DisputeCase}
    (hfresh : db.status? row.caseRef = none) (items : List DisputeItem) (other : String) :
    ({ db with cases := db.cases ++ [row], items } : Tables).status? other =
      if other = row.caseRef then some row.status else db.status? other := by
  unfold status? at hfresh ⊢
  rw [Option.map_eq_none_iff] at hfresh
  rw [lookup_append, lookup_cons, lookup_nil]
  by_cases hother : other = row.caseRef
  · subst hother
    simp [hfresh]
  · have hne : row.caseRef ≠ other := fun h => hother h.symm
    simp [hother, hne]

variable {caseRef : String}

theorem status?_eq_none (h : db.cases.any (fun c => c.caseRef == caseRef) = false) :
    db.status? caseRef = none := by
  unfold status?
  rw [Option.map_eq_none_iff]
  refine List.find?_eq_none.mpr ?_
  intro row hrow
  have hne := List.any_eq_false.mp h row hrow
  simpa using hne

theorem assertInternalCase_ok {tenantId : Option Int} {row : DisputeCase} (hkeyed : db.Keyed)
    (h : db.assertInternalCase caseRef tenantId = .ok row) :
    row.caseRef = caseRef ∧ db.status? caseRef = some row.status := by
  unfold assertInternalCase at h
  split at h
  · cases h
  next found hfind =>
    cases h
    have hboth := List.find?_some hfind
    simp only [Bool.and_eq_true, beq_iff_eq] at hboth
    refine ⟨hboth.1, ?_⟩
    rw [← hboth.1]
    exact status?_of_mem hkeyed (List.mem_of_find?_eq_some hfind)

theorem mem_activeTasks {task : SourceTask} :
    task ∈ db.activeTasks caseRef ↔
      task ∈ db.tasks ∧ task.caseRef = caseRef ∧ task.status.active = true := by
  simp [activeTasks, List.mem_filter]

end Tables

/-! ### Mutations -/

/-- What an accepted request for a source task adds. -/
structure Requested (caseRef : String) (db db' : Tables) : Prop where
  cases : db'.cases = db.cases
  items : db'.items = db.items
  tasks : db'.tasks = db.tasks ∨
    ∃ task : SourceTask, task.caseRef = caseRef ∧ db'.tasks = db.tasks ++ [task]
  outbox : db'.outbox = db.outbox ∨
    ∃ row : ProviderOutboxRow, row.caseRef = caseRef ∧ row.state = .pending ∧
      row.attemptCount = 0 ∧ row.id ∉ db.outbox.map ProviderOutboxRow.id ∧
      db'.outbox = db.outbox ++ [row]

inductive Mutates (db : Tables) : Mutation → Tables → Prop where
  | opened {caseRef : String} {tenantId : Int} {userId candidateId : Nat}
      {itemRefs : List String} {items : List DisputeItem} :
      db.status? caseRef = none →
      Mutates db (.openCase caseRef tenantId userId candidateId itemRefs)
        { db with
          cases := db.cases ++ [{ caseRef, tenantId, requesterUserId := userId, candidateId,
                                  status := .received }]
          items }
  | accepted {caseRef : String} {tenantId : Option Int} :
      db.status? caseRef = some .received →
      Mutates db (.assign caseRef tenantId) (db.setCaseStatus caseRef .accepted)
  | assigned {caseRef : String} {tenantId : Option Int} : Mutates db (.assign caseRef tenantId) db
  | requested {input : Tables.SourceTaskInput} {tenantId : Option Int} {taskRef : String}
      {outboxId : Nat} {status : DisputeStatus} {db' : Tables} :
      db.status? input.caseRef = some status → status.closed = false →
      Requested input.caseRef db db' →
      Mutates db (.createSourceTask input tenantId taskRef outboxId)
        (db'.setCaseStatus input.caseRef .sourcePending)
  | responded {caseRef taskRef : String} {tenantId : Option Int} {status : DisputeStatus} :
      db.status? caseRef = some status →
      Mutates db (.recordSourceResponse caseRef tenantId taskRef)
        ((db.setTaskStatus (fun t => t.taskRef == taskRef) .responded).setCaseStatus caseRef
          .investigating)
  | dispositioned {caseRef itemRef : String} {tenantId : Option Int} {disposition : Disposition}
      {items : List DisputeItem} :
      Mutates db (.dispositionItem caseRef tenantId itemRef disposition) { db with items }
  | completed {caseRef : String} {tenantId : Option Int} {status : DisputeStatus} :
      db.status? caseRef = some status → status.terminal = false → db.activeTasks caseRef = [] →
      Mutates db (.complete caseRef tenantId) (db.setCaseStatus caseRef .resolved)
  | escalated {id : Nat} {caseRef : String} {escalations : List Escalation} :
      Mutates db (.escalate id caseRef) { db with escalations }
  | settled {id : Nat} {caseRef : String} {tenantId : Option Int}
      {escalations : List Escalation} :
      Mutates db (.resolveDeadlineEscalation caseRef tenantId id) { db with escalations }

theorem requested_of_insert {task : SourceTask} {row : ProviderOutboxRow}
    {stored queued : Tables} {inserted : SourceTask} (hcase : row.caseRef = task.caseRef)
    (hstate : row.state = .pending) (hattempts : row.attemptCount = 0)
    (htask : db.insertTask task = .ok (stored, inserted))
    (hrow : stored.insertOutbox row = .ok queued) : Requested task.caseRef db queued := by
  have hstored : stored.cases = db.cases ∧ stored.items = db.items ∧
      stored.outbox = db.outbox ∧ (stored.tasks = db.tasks ∨
        ∃ task' : SourceTask, task'.caseRef = task.caseRef ∧
          stored.tasks = db.tasks ++ [task']) := by
    unfold Tables.insertTask at htask
    split at htask
    · obtain ⟨rfl, _⟩ := Prod.mk.inj (Except.ok.inj htask)
      exact ⟨rfl, rfl, rfl, .inl rfl⟩
    · split at htask
      · cases htask
      · obtain ⟨rfl, _⟩ := Prod.mk.inj (Except.ok.inj htask)
        exact ⟨rfl, rfl, rfl, .inr ⟨task, rfl, rfl⟩⟩
  obtain ⟨hcases, hitems, houtbox, htasks⟩ := hstored
  unfold Tables.insertOutbox at hrow
  split at hrow
  · cases hrow
    exact ⟨hcases, hitems, htasks, .inl houtbox⟩
  · split at hrow
    · cases hrow
    next hfree =>
      cases hrow
      refine ⟨hcases, hitems, htasks, .inr ⟨row, hcase, hstate, hattempts, ?_, ?_⟩⟩
      · intro hmem
        obtain ⟨other, hother, hid⟩ := List.mem_map.mp hmem
        refine hfree (List.any_eq_true.mpr ⟨other, houtbox ▸ hother, ?_⟩)
        simp [hid]
      · rw [← houtbox]

theorem mutates_of_ok {now : Nat} {m : Mutation} (hkeyed : db.Keyed)
    (h : db.mutate sha256 now m = .ok db') : Mutates db m db' := by
  cases m with
  | openCase caseRef tenantId userId candidateId itemRefs =>
    change db.openCase caseRef tenantId userId candidateId itemRefs = .ok db' at h
    unfold Tables.openCase at h
    split at h
    · cases h
    next hfresh =>
      split at h
      · cases h
      · split at h
        · cases h
        · cases h
          exact .opened (Tables.status?_eq_none (Bool.eq_false_iff.mpr hfresh))
  | assign caseRef tenantId =>
    obtain ⟨row, hrow, h⟩ := except_bind_ok h
    obtain ⟨-, hstatus⟩ := Tables.assertInternalCase_ok hkeyed hrow
    split at h
    · cases h
    · split at h
      next hreceived =>
        cases h
        exact .accepted (hreceived ▸ hstatus)
      · cases h
        exact .assigned
  | createSourceTask input tenantId taskRef outboxId =>
    obtain ⟨row, hrow, h⟩ := except_bind_ok h
    obtain ⟨hcase, hstatus⟩ := Tables.assertInternalCase_ok hkeyed hrow
    split at h
    · cases h
    next hopen =>
      split at h
      · cases h
      · split at h
        · cases h
        · obtain ⟨⟨stored, task⟩, htask, h⟩ := except_bind_ok h
          obtain ⟨queued, hqueued, h⟩ := except_bind_ok h
          cases h
          have hrequested := requested_of_insert rfl rfl rfl htask hqueued
          rw [hcase] at hrequested ⊢
          exact .requested hstatus (Bool.eq_false_iff.mpr hopen) hrequested
  | recordSourceResponse caseRef tenantId taskRef =>
    obtain ⟨row, hrow, h⟩ := except_bind_ok h
    obtain ⟨hcase, hstatus⟩ := Tables.assertInternalCase_ok hkeyed hrow
    split at h
    · cases h
    next task hfind =>
      split at h
      · cases h
      · cases h
        have htask := List.find?_some hfind
        simp only [Bool.and_eq_true, beq_iff_eq] at htask
        rw [hcase, htask.1]
        exact .responded hstatus
  | dispositionItem caseRef tenantId itemRef disposition =>
    obtain ⟨row, -, h⟩ := except_bind_ok h
    split at h
    · cases h
    · split at h
      · cases h
      · split at h
        · cases h
        · split at h
          · cases h
          · cases h
            exact .dispositioned
  | complete caseRef tenantId =>
    obtain ⟨row, hrow, h⟩ := except_bind_ok h
    obtain ⟨hcase, hstatus⟩ := Tables.assertInternalCase_ok hkeyed hrow
    split at h
    · cases h
    next hterminal =>
      split at h
      · cases h
      next hsettled =>
        split at h
        · cases h
        · cases h
          rw [hcase] at hsettled ⊢
          refine .completed hstatus (Bool.eq_false_iff.mpr hterminal) ?_
          simp only [Bool.or_eq_true, decide_eq_true_eq, not_or, not_not] at hsettled
          exact hsettled.2
  | escalate id caseRef =>
    change db.escalate id caseRef = .ok db' at h
    unfold Tables.escalate at h
    split at h
    · cases h
      exact .escalated
    · cases h
      exact @Mutates.escalated db id caseRef db.escalations
  | resolveDeadlineEscalation caseRef tenantId id =>
    obtain ⟨row, -, h⟩ := except_bind_ok h
    cases h
    exact .settled

/-! ### Steps -/

inductive DeskTakes (s : Desk) : DeskStep → Desk → Prop where
  | mutated {now : Nat} {m : Mutation} {db' : Tables} :
      s.clock ≤ now → Mutates s.db m db' →
      DeskTakes s (.mutate now m) { s with db := db', clock := now }
  | checked {session : Nat} {caseRef : String} {userId : Nat} {tenantId : Int}
      {withdrawals : List Withdrawal} :
      DeskTakes s (.withdrawCheck session caseRef userId tenantId) { s with withdrawals }
  | selected {session : Nat} {withdrawals : List Withdrawal} :
      DeskTakes s (.withdrawTasks session) { s with withdrawals }
  | withdrew {session : Nat} {w : Withdrawal} {taskRefs : List String} :
      s.withdrawal? session = some w → w.taskRefs = some taskRefs →
      DeskTakes s (.withdrawCommit session)
        { s.withoutWithdrawal session with db := s.db.withdraw w.caseRef taskRefs }
  | rolledBack {session : Nat} :
      DeskTakes s (.withdrawRollback session) (s.withoutWithdrawal session)
  | leased {worker now : Nat} {locked : Nat → Bool} :
      s.clock ≤ now → DeskTakes s (.lease worker now locked) (s.lease worker now locked)
  | decrypted {worker : Nat} {opening : Opening} {event : LeasedOutboxEvent}
      {rest : List LeasedOutboxEvent} :
      s.cycles worker = .working .opening event rest →
      DeskTakes s (.decrypt worker opening)
        (s.setCycle worker (.working opening.work event rest))
  | authorized {worker : Nat} {authorization : Authorization} {event : LeasedOutboxEvent}
      {rest : List LeasedOutboxEvent} :
      s.cycles worker = .working .authorizing event rest →
      DeskTakes s (.authorize worker authorization)
        (s.setCycle worker (.working authorization.work event rest))
  | dispatched {worker : Nat} {adapter : AdapterAnswer} {event : LeasedOutboxEvent}
      {rest : List LeasedOutboxEvent} :
      s.cycles worker = .working .dispatching event rest →
      DeskTakes s (.dispatch worker adapter)
        ({ s with dispatched := (worker, event.id) :: s.dispatched }.setCycle worker
          (adapter.cycle event rest))
  | restored {worker now : Nat} {answer : Answer} {work : Work} {event : LeasedOutboxEvent}
      {rest : List LeasedOutboxEvent} {retryable : Bool} {cycle : Cycle} :
      s.clock ≤ now → answer ≠ .refused → s.cycles worker = .working work event rest →
      work.restoring = some retryable →
      cycle = .next rest ∨ cycle = work.afterError event rest →
      DeskTakes s (.restore worker now answer)
        ({ s with db := s.db.restoreOrFail event now retryable, clock := now }.setCycle worker
          cycle)
  | notRestored {worker now : Nat} {answer : Answer} {work : Work} {event : LeasedOutboxEvent}
      {rest : List LeasedOutboxEvent} {retryable : Bool} :
      answer = .refused → s.cycles worker = .working work event rest →
      work.restoring = some retryable →
      DeskTakes s (.restore worker now answer)
        (s.setCycle worker (work.afterError event rest))
  | crashed {worker : Nat} : DeskTakes s (.crash worker) (s.setCycle worker .idle)

theorem deskTakes_of_restore {worker now : Nat} {answer : Answer} (hclock : s.clock ≤ now)
    (h : s.restore worker now answer = some t) : DeskTakes s (.restore worker now answer) t := by
  unfold Desk.restore at h
  split at h
  · cases h
  next work event rest hcycle =>
    split at h
    · cases h
    next retryable hrestoring =>
      split at h
      · cases h
      · cases answer with
        | done =>
          cases h
          exact .restored hclock nofun hcycle hrestoring (.inl rfl)
        | refused =>
          cases h
          exact .notRestored rfl hcycle hrestoring
        | unanswered =>
          cases h
          exact .restored hclock nofun hcycle hrestoring (.inr rfl)

theorem toOption_map_eq_some {ε α β : Type*} {result : Except ε α} {f : α → β} {b : β}
    (h : result.toOption.map f = some b) : ∃ a, result = .ok a ∧ f a = b := by
  cases result with
  | error e => cases h
  | ok a => exact ⟨a, rfl, Option.some.inj h⟩

theorem deskTakes_of_step {a : DeskStep} (hkeyed : s.db.Keyed)
    (h : deskStep sha256 s a = some t) : DeskTakes s a t := by
  cases a with
  | mutate now m =>
    simp only [deskStep] at h
    split at h
    · cases h
    next hfree =>
      obtain ⟨db', hok, rfl⟩ := toOption_map_eq_some h
      simp only [Bool.or_eq_true, decide_eq_true_eq, not_or] at hfree
      exact .mutated (Nat.le_of_not_lt hfree.1) (mutates_of_ok hkeyed hok)
  | withdrawCheck session caseRef userId tenantId =>
    simp only [deskStep] at h
    split at h
    · cases h
    · obtain ⟨row, -, rfl⟩ := toOption_map_eq_some h
      exact .checked
  | withdrawTasks session =>
    simp only [deskStep, Desk.withdrawTasks] at h
    split at h
    · split at h
      · cases h
      · cases h
        exact .selected
    · cases h
  | withdrawCommit session =>
    simp only [deskStep, Desk.withdrawCommit] at h
    split at h
    next hw =>
      cases h
      exact .withdrew hw rfl
    · cases h
  | withdrawRollback session =>
    cases h
    exact .rolledBack
  | lease worker now locked =>
    simp only [deskStep] at h
    split at h
    · cases h
    next hclock =>
      split at h
      · cases h
        exact .leased (Nat.le_of_not_lt hclock)
      · cases h
  | decrypt worker opening =>
    simp only [deskStep] at h
    split at h
    next hcycle =>
      cases h
      exact .decrypted hcycle
    · cases h
  | authorize worker authorization =>
    simp only [deskStep] at h
    split at h
    next hcycle =>
      cases h
      exact .authorized hcycle
    · cases h
  | dispatch worker adapter =>
    simp only [deskStep] at h
    split at h
    next hcycle =>
      cases h
      exact .dispatched hcycle
    · cases h
  | restore worker now answer =>
    simp only [deskStep] at h
    split at h
    · cases h
    · next hclock => exact deskTakes_of_restore (Nat.le_of_not_lt hclock) h
  | crash worker =>
    cases h
    exact .crashed

/-! ### Keys -/

theorem keyed_setCaseStatus (h : db.Keyed) (caseRef : String) (status : DisputeStatus) :
    (db.setCaseStatus caseRef status).Keyed := by
  have hkeys : (db.setCaseStatus caseRef status).cases.map DisputeCase.caseRef =
      db.cases.map DisputeCase.caseRef :=
    map_updateWhere (f := fun c : DisputeCase => { c with status }) (fun _ => rfl) db.cases
  rw [Tables.Keyed, hkeys]
  exact h

theorem keyed_of_mutates {m : Mutation} (h : db.Keyed) (hm : Mutates db m db') : db'.Keyed := by
  cases hm with
  | opened hfresh =>
    unfold Tables.Keyed
    rw [List.map_append]
    refine nodup_append_fresh h ?_
    intro hmem
    obtain ⟨row, hrow, hcase⟩ := List.mem_map.mp hmem
    have hstatus := Tables.status?_of_mem h hrow
    rw [hcase, hfresh] at hstatus
    cases hstatus
  | accepted | responded | completed => exact keyed_setCaseStatus h _ _
  | assigned | dispositioned | escalated | settled => exact h
  | requested _ _ hrequested =>
    refine keyed_setCaseStatus ?_ _ _
    unfold Tables.Keyed
    rw [hrequested.cases]
    exact h

theorem keyed_of_step {a : DeskStep} (h : s.db.Keyed) (hstep : deskStep sha256 s a = some t) :
    t.db.Keyed := by
  cases deskTakes_of_step h hstep with
  | mutated _ hm => exact keyed_of_mutates h hm
  | withdrew => exact keyed_setCaseStatus h _ _
  | restored =>
    unfold Tables.Keyed
    simp only [Desk.setCycle, Tables.restoreOrFail]
    split
    · exact h
    · exact h
  | checked | selected | rolledBack | leased | decrypted | authorized | dispatched | notRestored
    | crashed => exact h

end Bis.Disputes
