import Bis.Monitoring.Snapshot
import Bis.Relation.Batch
import Bis.Transition.Run

/-!
The monitoring scheduler: any number of turns of `processDueMonitoringEnrollments`
beside the procedures that enroll, pause, resume, cancel and acknowledge. A turn
holds its enrollment locked from the claim to the end of its transaction, over the
calls to the providers, and executes its statements one by one. What a transaction
has written becomes visible with its commit.

An error of a statement is thrown and rolls the transaction back. The audit log
swallows its own; the transaction is aborted all the same, so the next statement is
an error, and a commit rolls back. What a screening finds is a choice of the
providers. The events after the commit are left out.
-/

namespace Bis.Monitoring

open Bis.Relation Bis.Transition

inductive EnrollmentStatus where
  | active | paused | cancelled
  deriving DecidableEq

structure Enrollment where
  (id tenantId : Nat)
  (investigationRef subjectName : String)
  frequency : MonitoringFrequency
  status : EnrollmentStatus
  lastRunAt : Option Nat
  nextRunAt : Nat
  baselineSnapshot : MonitoringSnapshot

def Enrollment.live (row : Enrollment) : Bool := row.status != .cancelled

inductive RunResult where
  | noChange | changeDetected | error
  deriving DecidableEq

structure MonitoringRun where
  enrollmentId : Nat
  result : RunResult
  snapshot : Option MonitoringSnapshot
  error : Option String
  deriving DecidableEq

structure MonitoringAlert extends PendingAlert where
  (id tenantId enrollmentId : Nat)
  acknowledgedBy : Option Nat

/-! ### Transactions -/

inductive Statement where
  | insertRun (run : MonitoringRun)
  | insertAlert (alert : PendingAlert)
  | writeAuditLog
  /-- `WHERE status = 'active'`; without a snapshot the baseline stays. -/
  | updateEnrollment (baseline : Option MonitoringSnapshot) (nextRun : Nat)
  deriving DecidableEq

/-- The statements after a screening. -/
def screenedStatements (enrollment : Enrollment) (snapshot : MonitoringSnapshot) (now : Nat) :
    List Statement :=
  let delta := diffSnapshots (some enrollment.baselineSnapshot) snapshot
  let run : MonitoringRun :=
    { enrollmentId := enrollment.id
      result := if delta.changed then .changeDetected else .noChange
      snapshot := some snapshot, error := none }
  .insertRun run ::
    (if delta.changed then delta.alerts.map .insertAlert ++ [.writeAuditLog] else []) ++
      [.updateEnrollment (some snapshot) (nextRunAt enrollment.frequency now)]

/-- `recordErrorRun`. -/
def errorStatements (enrollment : Enrollment) (message : String) (now : Nat) : List Statement :=
  [.insertRun
    { enrollmentId := enrollment.id, result := .error, snapshot := none
      error := some (String.ofList (message.toList.take 1024)) },
   .updateEnrollment none (nextRunAt enrollment.frequency now), .writeAuditLog]

/-- The update of an enrollment that a transaction has made. -/
structure EnrollmentUpdate where
  baseline : Option MonitoringSnapshot
  (lastRunAt nextRunAt : Nat)

def EnrollmentUpdate.apply (update : EnrollmentUpdate) (row : Enrollment) : Enrollment :=
  { row with
    baselineSnapshot := update.baseline.getD row.baselineSnapshot
    lastRunAt := some update.lastRunAt
    nextRunAt := update.nextRunAt }

/-- What a transaction has written. -/
structure Tx where
  startedAt : Nat
  runs : List MonitoringRun
  alerts : List MonitoringAlert
  update : Option EnrollmentUpdate
  aborted : Bool

def begin (now : Nat) : Tx where
  startedAt := now
  runs := []
  alerts := []
  update := none
  aborted := false

/-- One statement; `none` is an error that is thrown. `stored` is the row as the
statement finds it, and `id` the one that a new alert gets. -/
def Tx.execute (tx : Tx) (enrollment : Enrollment) (stored : Option Enrollment) (fails : Bool)
    (id : Nat) (statement : Statement) : Option Tx :=
  if tx.aborted || fails then
    if statement = .writeAuditLog then some { tx with aborted := true } else none
  else
    match statement with
    | .insertRun run => some { tx with runs := tx.runs ++ [run] }
    | .insertAlert alert =>
      some { tx with alerts := tx.alerts ++
        [{ alert with
          id, tenantId := enrollment.tenantId, enrollmentId := enrollment.id
          acknowledgedBy := none }] }
    | .writeAuditLog => some tx
    | .updateEnrollment baseline nextRun =>
      if stored.any fun row => row.status == .active then
        some { tx with update := some { baseline, lastRunAt := tx.startedAt, nextRunAt := nextRun } }
      else some tx

/-! ### Turns of the scheduler -/

inductive Stage where
  /-- In the call to the providers. -/
  | screening (enrollment : Enrollment) (tx : Tx)
  | writing (enrollment : Enrollment) (tx : Tx) (rest : List Statement)
  /-- Rolled back, before `recordErrorRun`. -/
  | failed (enrollment : Enrollment) (message : String)
  | recording (enrollment : Enrollment) (tx : Tx) (rest : List Statement)
  | done

structure Process where
  id : Nat
  stage : Stage

/-- The turn holds the row of this enrollment. -/
def Stage.locks (id : Nat) : Stage → Bool
  | .screening enrollment _ | .writing enrollment _ _ => enrollment.id == id
  | .recording enrollment tx _ => enrollment.id == id && tx.update.isSome
  | .failed _ _ | .done => false

structure System where
  enrollments : List Enrollment
  runs : List MonitoringRun
  alerts : List MonitoringAlert
  processes : List Process
  /-- Every baseline that was stored, with its enrollment. -/
  baselines : List (Nat × MonitoringSnapshot)

def System.empty : System := ⟨[], [], [], [], []⟩

namespace System

def locked (s : System) (id : Nat) : Bool := s.processes.any fun p => p.stage.locks id

def otherLocks (s : System) (process id : Nat) : Bool :=
  s.processes.any fun p => p.id != process && p.stage.locks id

/-- The enrollment that a claim selects; locked rows are skipped. -/
def due (s : System) (now : Nat) : Option Enrollment :=
  (firstBy (fun a b : Enrollment => a.nextRunAt < b.nextRunAt ∨
      (a.nextRunAt = b.nextRunAt ∧ a.id ≤ b.id)) 1 <|
    s.enrollments.filter fun row =>
      row.status == .active && decide (row.nextRunAt ≤ now) && !s.locked row.id).head?

def commit (s : System) (enrollment : Enrollment) (tx : Tx) : System :=
  if tx.aborted then s
  else
    { s with
      runs := s.runs ++ tx.runs
      alerts := s.alerts ++ tx.alerts
      enrollments := match tx.update with
        | none => s.enrollments
        | some update =>
          updateWhere (fun row => row.id == enrollment.id) update.apply s.enrollments
      baselines := s.baselines ++
        ((tx.update.bind EnrollmentUpdate.baseline).map fun b => (enrollment.id, b)).toList }

end System

inductive Action where
  /-- `runSubjectScreening` comes back, or throws. -/
  | screened (now : Nat) (snapshot : MonitoringSnapshot)
  | screeningFails (message : String)
  | record (now : Nat)
  | execute (fails : Bool) (id : Nat)
  | commit
  /-- The process or its connection is lost, and the transaction with it. -/
  | crash

inductive Label where
  | enroll (row : Enrollment)
  | pause (id tenantId : Nat)
  | resume (id tenantId now : Nat)
  | cancel (id tenantId : Nat)
  | acknowledgeAlert (id tenantId user : Nat)
  | claim (process now : Nat)
  | act (process : Nat) (action : Action)

namespace System

/-- A turn goes on; what it does to the tables is `after`. -/
def goOn (s after : System) (process : Nat) (stage : Stage) : System :=
  { after with processes := upsert Process.id ⟨process, stage⟩ s.processes }

/-- A statement that updates the row waits until no other transaction holds it. -/
def execute (s : System) (process : Nat) (enrollment : Enrollment) (tx : Tx) (fails : Bool)
    (id : Nat) (statement : Statement) : Option (Option Tx) :=
  match statement with
  | .updateEnrollment _ _ =>
    if s.otherLocks process enrollment.id then none
    else some (tx.execute enrollment (lookup Enrollment.id enrollment.id s.enrollments) fails id
      statement)
  | _ => some (tx.execute enrollment none fails id statement)

def act (s : System) (process : Nat) (action : Action) : Option System := do
  let p ← lookup Process.id process s.processes
  match p.stage, action with
  | .screening enrollment tx, .screened now snapshot =>
    some (s.goOn s process (.writing enrollment tx (screenedStatements enrollment snapshot now)))
  | .screening enrollment _, .screeningFails message =>
    some (s.goOn s process (.failed enrollment message))
  | .failed enrollment message, .record now =>
    some (s.goOn s process (.recording enrollment (begin now) (errorStatements enrollment message now)))
  | .writing enrollment tx (statement :: rest), .execute fails id => do
    let result ← s.execute process enrollment tx fails id statement
    some (s.goOn s process (result.elim .done fun tx => .writing enrollment tx rest))
  | .recording enrollment tx (statement :: rest), .execute fails id => do
    let result ← s.execute process enrollment tx fails id statement
    some (s.goOn s process (result.elim .done fun tx => .recording enrollment tx rest))
  | .writing enrollment tx [], .commit => some (s.goOn (s.commit enrollment tx) process .done)
  | .recording enrollment tx [], .commit => some (s.goOn (s.commit enrollment tx) process .done)
  | _, .crash => some (s.goOn s process .done)
  | _, _ => none

/-- The procedures wait for a row that a turn holds. -/
def setStatus (s : System) (id tenantId : Nat) (before : EnrollmentStatus → Bool)
    (f : Enrollment → Enrollment) : Option System :=
  if s.locked id then none
  else
    match s.enrollments.find? fun row => row.id == id && (row.tenantId == tenantId && before row.status) with
    | none => none
    | some _ => some { s with enrollments := updateWhere (fun row => row.id == id) f s.enrollments }

def step : Step System Label
  | s, .enroll row =>
    let clash := s.enrollments.any fun other => other.id == row.id ||
      (other.live && other.tenantId == row.tenantId &&
        other.investigationRef == row.investigationRef && other.subjectName == row.subjectName)
    if clash || row.status != .active then none
    else some { s with
      enrollments := s.enrollments ++ [row]
      baselines := s.baselines ++ [(row.id, row.baselineSnapshot)] }
  | s, .pause id tenantId =>
    s.setStatus id tenantId (· == .active) fun row => { row with status := .paused }
  | s, .resume id tenantId now =>
    s.setStatus id tenantId (· == .paused) fun row =>
      { row with status := .active, nextRunAt := nextRunAt row.frequency now }
  | s, .cancel id tenantId =>
    s.setStatus id tenantId (· != .cancelled) fun row => { row with status := .cancelled }
  | s, .acknowledgeAlert id tenantId user =>
    some { s with
      alerts := updateWhere
        (fun a => a.id == id && a.tenantId == tenantId && a.acknowledgedBy.isNone)
        (fun a => { a with acknowledgedBy := some user }) s.alerts }
  | s, .claim process now =>
    if s.processes.any fun p => p.id == process then none
    else (s.due now).map fun row =>
      { s with processes := s.processes ++ [⟨process, .screening row (begin now)⟩] }
  | s, .act process action => s.act process action

end System

end Bis.Monitoring
