import Bis.Adverse.Cases
import Bis.Relation.Batch
import Bis.Transition.Run
import Mathlib.Algebra.Group.Nat.Defs

/-!
The whole of the adverse-action workflow: its mutations, and the workers that
deliver the notices of the outbox.

Transactions that look for open disputes look for them in other tables, so these
are two steps: the checks, and the writes with the commit. In between they hold
the case they work on, and the opening of a dispute has only found the cases that
it is going to pause. Every other transaction is one step; it waits for a case
that is held. Reads are of what others have committed.

No delivery adapter is installed in this repository and the built-in one refuses
every notice; what an installed one answers is a choice of the step.
-/

namespace Bis.Adverse

open Bis.Relation Bis.Transition

/-! ### Transactions in flight -/

/-- What a transaction has checked and found, and when it has started. -/
inductive Work where
  | initiating (input : Tables.InitiateInput) (startedAt : Nat)
  | resuming (row : AdverseCase) (startedAt : Nat)
  | queueing (caseRef : String) (channel : Channel) (startedAt : Nat)
  /-- A dispute is being opened on a snapshot of the candidate's. -/
  | pausing (tenantId : Int) (candidateId reportSnapshotId : Nat) (found : List String)
      (startedAt : Nat)

/-- The case that is locked until the commit. -/
def Work.held : Work → Option String
  | .resuming row _ => some row.caseRef
  | .queueing caseRef _ _ => some caseRef
  | .initiating _ _ | .pausing _ _ _ _ _ => none

/-- The report snapshot that is locked until the commit. -/
def Work.snapshot : Work → Option Nat
  | .initiating input _ => some input.reportSnapshotId
  | .pausing _ _ reportSnapshotId _ _ => some reportSnapshotId
  | .resuming _ _ | .queueing _ _ _ => none

/-! ### The worker -/

structure LeasedNotice where
  id : Nat
  caseRef : String
  caseStatus : CaseStatus
  deliveryId : Nat
  noticeType : NoticeType
  deliveryStatus : DeliveryStatus
  attemptCount : Nat
  deriving DecidableEq

/-- Where the work on a notice stands. -/
inductive Phase where
  | checking
  | canceling
  | sending
  | delivering
  | failing (retryable : Bool)
  deriving DecidableEq

inductive Cycle where
  | idle
  | working (phase : Phase) (event : LeasedNotice) (rest : List LeasedNotice)
  deriving DecidableEq

def Cycle.next : List LeasedNotice → Cycle
  | [] => .idle
  | event :: rest => .working .checking event rest

def dispatchBatchSize : Nat := 25
def maxDispatchAttempts : Nat := 12
def leaseMicroseconds : Nat := 5 * 60 * 1000000

def NoticeOutboxRow.expired (now : Nat) (row : NoticeOutboxRow) : Bool :=
  row.state == .leased && row.leasedAt.any fun since => decide (since + leaseMicroseconds < now)

def NoticeOutboxRow.before (a b : NoticeOutboxRow) : Prop :=
  a.availableAt < b.availableAt ∨ (a.availableAt = b.availableAt ∧ a.createdAt ≤ b.createdAt)

instance : DecidableRel NoticeOutboxRow.before := fun _ _ => inferInstanceAs (Decidable (_ ∨ _))

def boundedBackoff (attempt : Nat) : Nat := min 300 (2 ^ min attempt 8) * 1000000

/-- Delivery and case allow the notice to be sent. -/
def dispatchable (event : LeasedNotice) : Bool :=
  event.deliveryStatus == .queued &&
    !([.canceled, .pausedForDispute, .undeliverable, .manualDelivery, .completed].contains
      event.caseStatus)

def terminalFailure (event : LeasedNotice) (retryable : Bool) : Bool :=
  !retryable || decide (maxDispatchAttempts ≤ event.attemptCount + 1)

namespace Tables

def releaseExpired (db : Tables) (now : Nat) : Tables :=
  { db with
    outbox := updateWhere (NoticeOutboxRow.expired now)
      (fun row => { row with state := .pending, leasedAt := none, availableAt := now })
      db.outbox }

/-- The columns that the worker's query joins. -/
def leasedNotice (db : Tables) (row : NoticeOutboxRow) : Option LeasedNotice :=
  match lookup AdverseCase.caseRef row.caseRef db.cases,
      lookup Delivery.id row.deliveryId db.deliveries with
  | some c, some d =>
    some { id := row.id, caseRef := row.caseRef, caseStatus := c.status
           deliveryId := row.deliveryId, noticeType := d.noticeType
           deliveryStatus := d.status, attemptCount := row.attemptCount }
  | _, _ => none

def batch (db : Tables) (now : Nat) (locked : Nat → Bool) : List NoticeOutboxRow :=
  firstBy NoticeOutboxRow.before dispatchBatchSize <| db.outbox.filter fun row =>
    decide (row.state = .pending ∧ row.availableAt ≤ now) && !locked row.id

def markLeased (db : Tables) (now : Nat) (ids : List Nat) : Tables :=
  { db with
    outbox := updateWhere (fun row => ids.contains row.id && row.state == .pending)
      (fun row => { row with state := .leased, leasedAt := some now }) db.outbox }

def cancelLeased (db : Tables) (event : LeasedNotice) : Tables :=
  (db.setOutbox (fun o => o.id == event.id && o.state == .leased) .cancelled).setDeliveries
    (fun d => d.id == event.deliveryId && d.status == .queued) .canceled

def failedRow (event : LeasedNotice) (now : Nat) (retryable : Bool) (row : NoticeOutboxRow) :
    NoticeOutboxRow :=
  if terminalFailure event retryable then
    { row with state := .deadLetter, attemptCount := event.attemptCount + 1 }
  else
    { row with
      state := .pending
      attemptCount := event.attemptCount + 1
      availableAt := now + boundedBackoff (event.attemptCount + 1) }

def restoreOrDeadLetter (db : Tables) (event : LeasedNotice) (now : Nat) (retryable : Bool) :
    Except String Tables :=
  let failed : Tables :=
    { db with
      outbox := updateWhere (fun row => row.id == event.id && row.state == .leased)
        (failedRow event now retryable) db.outbox }
  if terminalFailure event retryable then do
    let moved ← (failed.setDeliveries (fun d => d.id == event.deliveryId &&
        (d.status == .queued || d.status == .sent)) .manualRequired).updateCases
      (fun row => row.caseRef == event.caseRef && !row.status.terminal)
      (.withStatus .manualDelivery)
    .ok (moved.appendEvent event.caseRef .manualDeliveryRequired now)
  else .ok failed

/-- The statuses in which `markDelivered` finds the case changed. -/
def stateChanged (status : CaseStatus) : Bool :=
  [.canceled, .pausedForDispute, .undeliverable, .manualDelivery].contains status

def markDelivered (db : Tables) (event : LeasedNotice) (now : Nat) : Except String Tables :=
  match lookup AdverseCase.caseRef event.caseRef db.cases,
      db.deliveries.find? fun d => d.id == event.deliveryId && d.caseRef == event.caseRef with
  | some c, some d =>
    if d.status ≠ .queued ∨ stateChanged c.status then
      .ok (db.setOutbox (fun o => o.id == event.id && o.state == .leased) .cancelled)
    else
      ((db.setOutbox (fun o => o.id == event.id && o.state == .leased)
        .delivered).setDeliveries (fun d => d.id == event.deliveryId) .delivered).advance
          event.caseRef event.noticeType now
  | _, _ => .ok (db.setOutbox (fun o => o.id == event.id && o.state == .leased) .cancelled)

end Tables

/-! ### State -/

structure Office where
  db : Tables
  clock : Nat
  sessions : List (Nat × Work)
  cycles : Nat → Cycle

namespace Office

def empty : Office := { db := .empty, clock := 0, sessions := [], cycles := fun _ => .idle }

def session? (s : Office) (session : Nat) : Option Work :=
  (s.sessions.find? fun entry => entry.1 == session).map Prod.snd

def caseHeld (s : Office) (caseRef : String) : Bool :=
  s.sessions.any fun entry => entry.2.held == some caseRef

def snapshotHeld (s : Office) (reportSnapshotId : Nat) : Bool :=
  s.sessions.any fun entry => entry.2.snapshot == some reportSnapshotId

def withoutSession (s : Office) (session : Nat) : Office :=
  { s with sessions := s.sessions.filter fun entry => entry.1 != session }

def setCycle (s : Office) (worker : Nat) (cycle : Cycle) : Office :=
  { s with cycles := Function.update s.cycles worker cycle }

def lease (s : Office) (worker now : Nat) (locked : Nat → Bool) : Office :=
  let released := s.db.releaseExpired now
  let batch := released.batch now locked
  { s with
    db := released.markLeased now (batch.map NoticeOutboxRow.id)
    clock := now }.setCycle worker (.next (batch.filterMap released.leasedNotice))

end Office

/-! ### Steps -/

/-- Mutations that are one step, with the case each of them locks. -/
inductive Mutation where
  | recordDelivery (caseRef : String) (tenantId : Int) (deliveryId : Nat)
      (status : Tables.RecordedStatus)
  | resolveManualDelivery (caseRef : String) (tenantId : Int) (deliveryId : Nat)
      (channel : Channel) (ids : Tables.NoticeIds)
  | pauseForDispute (caseRef : String) (tenantId : Int) (disputed : Bool)
  | cancel (caseRef : String) (tenantId : Int)

def Tables.mutate (db : Tables) (now : Nat) : Mutation → Except String Tables
  | .recordDelivery caseRef tenantId deliveryId status =>
    db.recordDelivery caseRef tenantId deliveryId status now
  | .resolveManualDelivery caseRef tenantId deliveryId channel ids =>
    db.resolveManualDelivery caseRef tenantId deliveryId channel ids now
  | .pauseForDispute caseRef tenantId disputed => db.pauseForDispute caseRef tenantId disputed now
  | .cancel caseRef tenantId => db.cancel caseRef tenantId now

/-- The cases a mutation locks; a dispute hold locks all it can pause. -/
def Mutation.locks (db : Tables) : Mutation → List String
  | .recordDelivery caseRef _ _ _ | .resolveManualDelivery caseRef _ _ _ _
    | .cancel caseRef _ => [caseRef]
  | .pauseForDispute caseRef _ _ =>
    caseRef :: (db.cases.filter fun row => row.status.active).map AdverseCase.caseRef

/-- The part of a transaction that ends with its commit; `NOW()` is its start. -/
def Tables.commit (db : Tables) (work : Work) (ids : Tables.NoticeIds) : Except String Tables :=
  match work with
  | .initiating input startedAt => db.initiatePreAdverse input ids startedAt
  | .resuming row startedAt => db.resume row ids startedAt
  | .queueing caseRef channel startedAt => db.queueFinalAdverse caseRef channel ids startedAt
  | .pausing tenantId candidateId _ found startedAt =>
    db.pauseAdverseActions tenantId candidateId found startedAt

/-- The cases a commit locks: those it has found, if it pauses cases. -/
def Work.locks : Work → List String
  | .pausing _ _ _ found _ => found
  | .initiating _ _ | .resuming _ _ | .queueing _ _ _ => []

/-- Key, decryption, digest and adapter. -/
inductive Dispatch where
  | accepted | notInstalled | digestInvalid | failed

def Dispatch.phase : Dispatch → Phase
  | .accepted => .delivering
  | .notInstalled | .digestInvalid => .failing false
  | .failed => .failing true

/-- Whether the database does what a worker asks of it. -/
inductive Answer where
  | done | refused

inductive OfficeStep where
  | mutate (now : Nat) (m : Mutation)
  | initiateCheck (session now : Nat) (input : Tables.InitiateInput)
      (sourceFound disputed templateFound : Bool)
  | resumeCheck (session now : Nat) (caseRef : String) (tenantId : Int) (disputed : Bool)
  | queueFinalCheck (session now : Nat) (caseRef : String) (tenantId : Int) (channel : Channel)
      (disputed templateFound : Bool)
  | findPausable (session now : Nat) (tenantId : Int) (candidateId reportSnapshotId : Nat)
  | commit (session now : Nat) (ids : Tables.NoticeIds)
  | rollback (session : Nat)
  | lease (worker now : Nat) (locked : Nat → Bool)
  | check (worker : Nat)
  | dispatch (worker : Nat) (dispatch : Dispatch)
  | settle (worker now : Nat) (answer : Answer)
  | crash (worker : Nat)

/-- What the worker asks of the database in a phase. -/
def Phase.statement (db : Tables) (event : LeasedNotice) (now : Nat) :
    Phase → Option (Except String Tables)
  | .canceling => some (.ok (db.cancelLeased event))
  | .delivering => some (db.markDelivered event now)
  | .failing retryable => some (db.restoreOrDeadLetter event now retryable)
  | .checking | .sending => none

/-- Whether that includes the case itself. -/
def Phase.locksCase (event : LeasedNotice) : Phase → Bool
  | .delivering => true
  | .failing retryable => terminalFailure event retryable
  | .checking | .canceling | .sending => false

/-- An error inside the `try` is caught, one in the `catch` ends the cycle. -/
def Phase.afterError (event : LeasedNotice) (rest : List LeasedNotice) : Phase → Cycle
  | .canceling | .delivering => .working (.failing true) event rest
  | _ => .idle

namespace Office

def begin (s : Office) (session : Nat) (work : Work) : Option Office :=
  if (s.session? session).isSome then none
  else some { s with sessions := (session, work) :: s.sessions }

def commit (s : Office) (session now : Nat) (ids : Tables.NoticeIds) : Option Office :=
  match s.session? session with
  | none => none
  | some work =>
    if now < s.clock || work.locks.any s.caseHeld then none
    else
      (s.db.commit work ids).toOption.map fun db =>
        { s.withoutSession session with db, clock := now }

def settle (s : Office) (worker now : Nat) (answer : Answer) : Option Office :=
  match s.cycles worker with
  | .idle => none
  | .working phase event rest =>
    match phase.statement s.db event now with
    | none => none
    | some result =>
      if phase.locksCase event && s.caseHeld event.caseRef then none
      else
        match answer, result with
        | .done, .ok db =>
          some ({ s with db, clock := now }.setCycle worker (.next rest))
        | _, _ => some (s.setCycle worker (phase.afterError event rest))

end Office

/-- A call that is refused changes nothing and is no step. -/
def officeStep : Step Office OfficeStep
  | s, .mutate now m =>
    if now < s.clock || (m.locks s.db).any s.caseHeld then none
    else (s.db.mutate now m).toOption.map fun db => { s with db, clock := now }
  | s, .initiateCheck session now input sourceFound disputed templateFound =>
    if now < s.clock || s.snapshotHeld input.reportSnapshotId then none
    else
      (Tables.initiateCheck input sourceFound disputed templateFound).toOption.bind fun _ =>
        ({ s with clock := now } : Office).begin session (.initiating input now)
  | s, .resumeCheck session now caseRef tenantId disputed =>
    if now < s.clock || s.caseHeld caseRef then none
    else
      (s.db.resumeCheck caseRef tenantId disputed).toOption.bind fun row =>
        ({ s with clock := now } : Office).begin session (.resuming row now)
  | s, .queueFinalCheck session now caseRef tenantId channel disputed templateFound =>
    if now < s.clock || s.caseHeld caseRef then none
    else
      (s.db.queueFinalCheck caseRef tenantId disputed templateFound now).toOption.bind
        fun row => ({ s with clock := now } : Office).begin session
          (.queueing row.caseRef channel now)
  | s, .findPausable session now tenantId candidateId reportSnapshotId =>
    if now < s.clock || s.snapshotHeld reportSnapshotId then none
    else
      ({ s with clock := now } : Office).begin session
        (.pausing tenantId candidateId reportSnapshotId
          ((s.db.cases.filter (Tables.pausable tenantId candidateId)).map AdverseCase.caseRef)
          now)
  | s, .commit session now ids => s.commit session now ids
  | s, .rollback session => some (s.withoutSession session)
  | s, .lease worker now locked =>
    if now < s.clock then none
    else
      match s.cycles worker with
      | .idle => some (s.lease worker now locked)
      | .working _ _ _ => none
  | s, .check worker =>
    match s.cycles worker with
    | .working .checking event rest =>
      some (s.setCycle worker
        (.working (if dispatchable event then .sending else .canceling) event rest))
    | _ => none
  | s, .dispatch worker dispatch =>
    match s.cycles worker with
    | .working .sending event rest =>
      some (s.setCycle worker (.working dispatch.phase event rest))
    | _ => none
  | s, .settle worker now answer => if now < s.clock then none else s.settle worker now answer
  | s, .crash worker => some (s.setCycle worker .idle)

end Bis.Adverse
