import Bis.Disputes.Cases
import Bis.Relation.Batch
import Bis.Transition.Run
import Mathlib.Algebra.Group.Nat.Defs

/-!
The whole of the dispute desk: the mutations, withdrawals in flight, and the
workers that send the requests of the outbox to the providers. A transaction
reads what others have committed. A withdrawal that is in flight holds the rows
of the tasks it has cancelled, and whoever needs one of them has to wait.

A worker leases events in one transaction and then works on them one after the
other. The contract adapter is not installed yet and refuses every request; what
an installed one answers is a choice of the step. `leased` and `dispatched` keep,
as history, which worker has taken and which has sent which event.
-/

namespace Bis.Disputes

open Bis.Relation Bis.Transition

/-! ### Mutations as inputs -/

inductive Mutation where
  | openCase (caseRef : String) (tenantId : Int) (userId candidateId : Nat)
      (itemRefs : List String)
  | assign (caseRef : String) (tenantId : Option Int)
  | createSourceTask (input : Tables.SourceTaskInput) (tenantId : Option Int) (taskRef : String)
      (outboxId : Nat)
  | recordSourceResponse (caseRef : String) (tenantId : Option Int) (taskRef : String)
  | dispositionItem (caseRef : String) (tenantId : Option Int) (itemRef : String)
      (disposition : Disposition)
  | complete (caseRef : String) (tenantId : Option Int)
  | escalate (id : Nat) (caseRef : String)
  | resolveDeadlineEscalation (caseRef : String) (tenantId : Option Int) (id : Nat)

variable (sha256 : String → String)

def Tables.mutate (db : Tables) (now : Nat) : Mutation → Except String Tables
  | .openCase caseRef tenantId userId candidateId itemRefs =>
    db.openCase caseRef tenantId userId candidateId itemRefs
  | .assign caseRef tenantId => db.assign caseRef tenantId
  | .createSourceTask input tenantId taskRef outboxId =>
    db.createSourceTask sha256 input tenantId taskRef outboxId now
  | .recordSourceResponse caseRef tenantId taskRef =>
    db.recordSourceResponse caseRef tenantId taskRef
  | .dispositionItem caseRef tenantId itemRef disposition =>
    db.dispositionItem caseRef tenantId itemRef disposition
  | .complete caseRef tenantId => db.complete caseRef tenantId
  | .escalate id caseRef => db.escalate id caseRef
  | .resolveDeadlineEscalation caseRef tenantId id =>
    db.resolveDeadlineEscalation caseRef tenantId id

/-- The rows of tasks that a mutation locks. -/
def Mutation.locks (db : Tables) : Mutation → List String
  | .createSourceTask input _ _ _ =>
    ((db.existingTask input.providerAuthorizationRef (input.idempotencyKey sha256)).map
      SourceTask.taskRef).toList
  | .recordSourceResponse _ _ taskRef => [taskRef]
  | _ => []

/-! ### State -/

/-- A withdrawal between its first statement and its commit; `taskRefs` are the
rows its second statement has cancelled. -/
structure Withdrawal where
  session : Nat
  caseRef : String
  taskRefs : Option (List String)

def Withdrawal.holds (w : Withdrawal) (taskRef : String) : Bool :=
  w.taskRefs.any fun taskRefs => taskRefs.contains taskRef

structure LeasedOutboxEvent where
  id : Nat
  (caseRef taskRef : String)
  attemptCount : Nat
  deriving DecidableEq

def ProviderOutboxRow.toEvent (row : ProviderOutboxRow) : LeasedOutboxEvent :=
  { id := row.id, caseRef := row.caseRef, taskRef := row.taskRef
    attemptCount := row.attemptCount }

/-- Where the work on an event stands. `refusing` and `failing` are both before
`restoreOrFail`: inside the `try` and in the `catch`. -/
inductive Work where
  | opening
  | authorizing
  | dispatching
  | refusing
  | failing (retryable : Bool)
  deriving DecidableEq

inductive Cycle where
  | idle
  | working (work : Work) (event : LeasedOutboxEvent) (rest : List LeasedOutboxEvent)
  deriving DecidableEq

def Cycle.next : List LeasedOutboxEvent → Cycle
  | [] => .idle
  | event :: rest => .working .opening event rest

/-- The events a cycle has in hand. -/
def Cycle.events : Cycle → List LeasedOutboxEvent
  | .idle => []
  | .working _ event rest => event :: rest

structure Desk where
  db : Tables
  clock : Nat
  withdrawals : List Withdrawal
  cycles : Nat → Cycle
  (leased dispatched : List (Nat × Nat))

namespace Desk

def empty : Desk :=
  { db := .empty, clock := 0, withdrawals := [], cycles := fun _ => .idle, leased := []
    dispatched := [] }

def taskLocked (s : Desk) (taskRef : String) : Bool := s.withdrawals.any fun w => w.holds taskRef

def withdrawal? (s : Desk) (session : Nat) : Option Withdrawal :=
  s.withdrawals.find? fun w => w.session == session

def setCycle (s : Desk) (worker : Nat) (cycle : Cycle) : Desk :=
  { s with cycles := Function.update s.cycles worker cycle }

end Desk

/-! ### The worker's transactions -/

def dispatchBatchSize : Nat := 25
def maxDispatchAttempts : Nat := 12
def leaseMicroseconds : Nat := 5 * 60 * 1000000

def ProviderOutboxRow.expired (now : Nat) (row : ProviderOutboxRow) : Bool :=
  row.state == .leased && row.leasedAt.any fun since => decide (since + leaseMicroseconds < now)

/-- The order in which events are taken. -/
def ProviderOutboxRow.before (a b : ProviderOutboxRow) : Prop :=
  a.availableAt < b.availableAt ∨ (a.availableAt = b.availableAt ∧ a.createdAt ≤ b.createdAt)

instance : DecidableRel ProviderOutboxRow.before := fun _ _ => inferInstanceAs (Decidable (_ ∨ _))

/-- The first statement of `leaseEvents`. -/
def Tables.releaseExpired (db : Tables) (now : Nat) : Tables :=
  { db with
    outbox := updateWhere (ProviderOutboxRow.expired now)
      (fun row => { row with state := .pending, leasedAt := none, availableAt := now })
      db.outbox }

/-- The rows the second statement selects; rows locked by others are skipped. -/
def Tables.batch (db : Tables) (now : Nat) (locked : Nat → Bool) : List ProviderOutboxRow :=
  firstBy ProviderOutboxRow.before dispatchBatchSize <| db.outbox.filter fun row =>
    decide (row.state = .pending ∧ row.availableAt ≤ now) && !locked row.id

def Tables.markLeased (db : Tables) (now : Nat) (ids : List Nat) : Tables :=
  { db with
    outbox := updateWhere (fun row => ids.contains row.id && row.state == .pending)
      (fun row => { row with state := .leased, leasedAt := some now }) db.outbox }

/-- `leaseEvents`: the batch goes to the worker. -/
def Desk.lease (s : Desk) (worker now : Nat) (locked : Nat → Bool) : Desk :=
  let released := s.db.releaseExpired now
  let batch := released.batch now locked
  let ids := batch.map ProviderOutboxRow.id
  { s with
    db := released.markLeased now ids
    clock := now
    leased := ids.map (Prod.mk worker) ++ s.leased }.setCycle worker (.next (batch.map ProviderOutboxRow.toEvent))

/-- The backoff in microseconds. -/
def boundedBackoff (attempt : Nat) : Nat := min 300 (2 ^ min attempt 8) * 1000000

def LeasedOutboxEvent.nextAttempt (event : LeasedOutboxEvent) : Nat := event.attemptCount + 1

def LeasedOutboxEvent.deadLetter (event : LeasedOutboxEvent) (retryable : Bool) : Bool :=
  !retryable || decide (maxDispatchAttempts ≤ event.nextAttempt)

def failedRow (event : LeasedOutboxEvent) (now : Nat) (retryable : Bool)
    (row : ProviderOutboxRow) : ProviderOutboxRow :=
  if event.deadLetter retryable then
    { row with state := .deadLetter, attemptCount := event.nextAttempt }
  else
    { row with
      state := .pending
      attemptCount := event.nextAttempt
      availableAt := now + boundedBackoff event.nextAttempt }

def Tables.restoreOrFail (db : Tables) (event : LeasedOutboxEvent) (now : Nat)
    (retryable : Bool) : Tables :=
  let failed : Tables :=
    { db with
      outbox := updateWhere (fun row => row.id == event.id && row.state == .leased)
        (failedRow event now retryable) db.outbox }
  if event.deadLetter retryable then
    failed.setTaskStatus (fun t => t.taskRef == event.taskRef && t.status.active) .failed
  else failed

/-- The active tasks that `restoreOrFail` changes. -/
def Tables.failing (db : Tables) (event : LeasedOutboxEvent) (retryable : Bool) :
    List SourceTask :=
  if event.deadLetter retryable then
    db.tasks.filter fun t => t.taskRef == event.taskRef && t.status.active
  else []

/-! ### Steps -/

/-- Decryption and the check of the digest. -/
inductive Opening where
  | opened | digestInvalid | failed

inductive Authorization where
  | permitted | outOfScope | failed

/-- What comes of handing a request to the adapter. -/
inductive AdapterAnswer where
  | notInstalled | failed | accepted

/-- What a worker hears of a transaction. -/
inductive Answer where
  | done | refused | unanswered

inductive DeskStep where
  | mutate (now : Nat) (m : Mutation)
  | withdrawCheck (session : Nat) (caseRef : String) (userId : Nat) (tenantId : Int)
  | withdrawTasks (session : Nat)
  | withdrawCommit (session : Nat)
  | withdrawRollback (session : Nat)
  | lease (worker now : Nat) (locked : Nat → Bool)
  | decrypt (worker : Nat) (opening : Opening)
  | authorize (worker : Nat) (authorization : Authorization)
  | dispatch (worker : Nat) (adapter : AdapterAnswer)
  | restore (worker now : Nat) (answer : Answer)
  | crash (worker : Nat)

def Opening.work : Opening → Work
  | .opened => .authorizing
  | .digestInvalid => .failing false
  | .failed => .failing true

def Authorization.work : Authorization → Work
  | .permitted => .dispatching
  | .outOfScope => .refusing
  | .failed => .failing true

/-- Where the loop goes on after the adapter. -/
def AdapterAnswer.cycle (event : LeasedOutboxEvent) (rest : List LeasedOutboxEvent) :
    AdapterAnswer → Cycle
  | .notInstalled => .working (.failing false) event rest
  | .failed => .working (.failing true) event rest
  | .accepted => .next rest

/-- Whether the work is at `restoreOrFail`, and as what. -/
def Work.restoring : Work → Option Bool
  | .refusing => some false
  | .failing retryable => some retryable
  | _ => none

/-- An error inside the `try` is caught, one in the `catch` ends the cycle. -/
def Work.afterError (event : LeasedOutboxEvent) (rest : List LeasedOutboxEvent) : Work → Cycle
  | .refusing => .working (.failing true) event rest
  | _ => .idle

namespace Desk

def withdrawTasks (s : Desk) (session : Nat) : Option Desk :=
  match s.withdrawal? session with
  | some ⟨_, caseRef, none⟩ =>
    let taskRefs := (s.db.activeTasks caseRef).map SourceTask.taskRef
    if taskRefs.any s.taskLocked then none
    else
      some { s with
        withdrawals := updateWhere (fun w => w.session == session)
          (fun w => { w with taskRefs := some taskRefs }) s.withdrawals }
  | _ => none

def withoutWithdrawal (s : Desk) (session : Nat) : Desk :=
  { s with withdrawals := s.withdrawals.filter fun w => w.session != session }

def withdrawCommit (s : Desk) (session : Nat) : Option Desk :=
  match s.withdrawal? session with
  | some ⟨_, caseRef, some taskRefs⟩ =>
    some { s.withoutWithdrawal session with db := s.db.withdraw caseRef taskRefs }
  | _ => none

def restore (s : Desk) (worker now : Nat) (answer : Answer) : Option Desk :=
  match s.cycles worker with
  | .idle => none
  | .working work event rest =>
    match work.restoring with
    | none => none
    | some retryable =>
      if (s.db.failing event retryable).any fun t => s.taskLocked t.taskRef then none
      else
        let restored := { s with db := s.db.restoreOrFail event now retryable, clock := now }
        match answer with
        | .done => some (restored.setCycle worker (.next rest))
        | .refused => some (s.setCycle worker (work.afterError event rest))
        | .unanswered => some (restored.setCycle worker (work.afterError event rest))

end Desk

/-- A call that is refused changes nothing and is no step. -/
def deskStep : Step Desk DeskStep
  | s, .mutate now m =>
    if now < s.clock || (m.locks sha256 s.db).any s.taskLocked then none
    else (s.db.mutate sha256 now m).toOption.map fun db => { s with db, clock := now }
  | s, .withdrawCheck session caseRef userId tenantId =>
    if (s.withdrawal? session).isSome then none
    else
      (s.db.withdrawCheck caseRef userId tenantId).toOption.map fun row =>
        { s with
          withdrawals := { session, caseRef := row.caseRef, taskRefs := none } ::
            s.withdrawals }
  | s, .withdrawTasks session => s.withdrawTasks session
  | s, .withdrawCommit session => s.withdrawCommit session
  | s, .withdrawRollback session => some (s.withoutWithdrawal session)
  | s, .lease worker now locked =>
    if now < s.clock then none
    else
      match s.cycles worker with
      | .idle => some (s.lease worker now locked)
      | .working _ _ _ => none
  | s, .decrypt worker opening =>
    match s.cycles worker with
    | .working .opening event rest =>
      some (s.setCycle worker (.working opening.work event rest))
    | _ => none
  | s, .authorize worker authorization =>
    match s.cycles worker with
    | .working .authorizing event rest =>
      some (s.setCycle worker (.working authorization.work event rest))
    | _ => none
  | s, .dispatch worker adapter =>
    match s.cycles worker with
    | .working .dispatching event rest =>
      some ({ s with dispatched := (worker, event.id) :: s.dispatched }.setCycle worker
        (adapter.cycle event rest))
    | _ => none
  | s, .restore worker now answer => if now < s.clock then none else s.restore worker now answer
  | s, .crash worker => some (s.setCycle worker .idle)

end Bis.Disputes
