import Bis.Disputes.Cases
import Bis.Relation.Batch
import Bis.Transition.Run
import Mathlib.Data.Prod.Lex
import Mathlib.Order.Nat

/-!
The deadlines of dispute cases, and the worker that escalates those that have elapsed. A
run of it is one transaction: it takes the first candidates in the order of their
deadlines, passing over the cases that others have locked, and inserts an escalation for
each that has none, with an alert. A run that fails or crashes leaves nothing, and it fails
at an alert that the table cannot hold.

Whether the database plans the statement of an alert at all is the parameter `plans`. The
statement assigns its `$4` to a `varchar` and compares it as a `text`.

Candidates with the same deadline and case come in any order. Left out are the audit
event, the reference and digest of a notice and the number of an escalation.
-/

namespace Bis.Disputes

open Bis.Relation Bis.Transition

def maxEscalationsPerRun : Nat := 200

inductive DeadlineKind where
  | sourceNoticeDue
  | reinvestigationDue
  | resultNoticeDue
  | methodDescriptionDue
  deriving DecidableEq

namespace DeadlineKind

def all : List DeadlineKind :=
  [sourceNoticeDue, reinvestigationDue, resultNoticeDue, methodDescriptionDue]

def label : DeadlineKind → String
  | sourceNoticeDue => "source-notice"
  | reinvestigationDue => "reinvestigation"
  | resultNoticeDue => "result-notice"
  | methodDescriptionDue => "method-description"

end DeadlineKind

/-- A case with its deadlines. Instants are microseconds of the database's clock. -/
structure DatedCase where
  id : Nat
  caseRef : String
  tenantId : Nat
  status : DisputeStatus
  (sourceNoticeDueAt reinvestigationDueAt extensionDueAt resultNoticeDueAt : Option Nat)
  methodDescriptionDueAt : Option Nat

/-- An extension takes the place of the deadline of the reinvestigation. -/
def DatedCase.dueAt (c : DatedCase) : DeadlineKind → Option Nat
  | .sourceNoticeDue => c.sourceNoticeDueAt
  | .reinvestigationDue => c.extensionDueAt.or c.reinvestigationDueAt
  | .resultNoticeDue => c.resultNoticeDueAt
  | .methodDescriptionDue => c.methodDescriptionDueAt

structure DueCase where
  caseId : Nat
  caseRef : String
  tenantId : Nat
  escalationType : DeadlineKind
  dueAt : Nat
  deriving DecidableEq

/-- The deadline of a case that has elapsed. -/
def DatedCase.elapsed (c : DatedCase) (now : Nat) (kind : DeadlineKind) : Option DueCase :=
  (c.dueAt kind).bind fun dueAt =>
    if dueAt ≤ now then some ⟨c.id, c.caseRef, c.tenantId, kind, dueAt⟩ else none

/-- A terminal case has none. -/
def DatedCase.dueCases (c : DatedCase) (now : Nat) : List DueCase :=
  if c.status.terminal then [] else DeadlineKind.all.filterMap (c.elapsed now)

/-- The cases, each with an id of its own. -/
abbrev CaseTable := { cases : List DatedCase // (cases.map DatedCase.id).Nodup }

def CaseTable.dueCases (cases : CaseTable) (now : Nat) (locked : List Nat) : List DueCase :=
  (cases.val.filter fun c => decide (c.id ∉ locked)).flatMap fun c => c.dueCases now

/-- What the order of the candidates goes by. -/
def DueCase.rank (due : DueCase) : Nat ×ₗ Nat := toLex (due.dueAt, due.caseId)

/-- `ORDER BY due.due_at, c.id`, with what decides between equals. -/
def DueCase.place (tie : DueCase → Nat) (due : DueCase) : (Nat ×ₗ Nat) ×ₗ Nat :=
  toLex (due.rank, tie due)

def candidates (cases : CaseTable) (now : Nat) (locked : List Nat) (tie : DueCase → Nat) :
    List DueCase :=
  firstBy (fun a b => a.place tie ≤ b.place tie) maxEscalationsPerRun (cases.dueCases now locked)

/-! ### What the worker writes -/

structure DeadlineEscalation where
  caseId : Nat
  escalationType : DeadlineKind
  dueAt : Nat
  deriving DecidableEq

/-- An alert of the worker's. -/
structure Alert where
  tenantId : Nat
  (title body subjectRef : String)
  resolved : Bool

inductive DeliveryStatus where
  | queued | sent | delivered | failed | cancelled

def DeliveryStatus.isLive : DeliveryStatus → Bool
  | queued | sent | delivered => true
  | failed | cancelled => false

/-- A notice from the template of the worker. -/
structure EscalationNotice where
  caseId : Nat
  status : DeliveryStatus

structure WorkerResult where
  (scanned escalationsCreated alertsCreated noticesQueued skippedDuplicate : Nat)

structure DeadlineDesk where
  escalations : List DeadlineEscalation
  alerts : List Alert
  notices : List EscalationNotice

def DueCase.escalation (due : DueCase) : DeadlineEscalation :=
  ⟨due.caseId, due.escalationType, due.dueAt⟩

/-- The alert for a deadline; `iso` writes an instant. -/
def DueCase.alert (iso : Nat → String) (due : DueCase) : Alert where
  tenantId := due.tenantId
  title := "Consumer dispute " ++ due.escalationType.label ++ " deadline elapsed"
  body := "Case " ++ due.caseRef ++
    " requires immediate assigned-caseworker and supervisor review."
  subjectRef := due.caseRef ++ ":" ++ due.escalationType.label ++ ":" ++ iso due.dueAt
  resolved := false

/-- `alerts."subjectRef"` takes 64 characters. -/
def Alert.storable (plans : Bool) (alert : Alert) : Bool :=
  plans && decide (alert.subjectRef.length ≤ 64)

/-- The insert of an alert; `none` is an error. -/
def DeadlineDesk.addAlert (plans : Bool) (desk : DeadlineDesk) (alert : Alert) :
    Option (DeadlineDesk × Nat) :=
  if ¬ alert.storable plans then none
  else if desk.alerts.any fun old => old.subjectRef == alert.subjectRef && !old.resolved then
    some (desk, 0)
  else some ({ desk with alerts := desk.alerts ++ [alert] }, 1)

def DeadlineDesk.addNotice (desk : DeadlineDesk) (caseId : Nat) : DeadlineDesk × Nat :=
  if desk.notices.any fun old => old.caseId == caseId && old.status.isLive then (desk, 0)
  else ({ desk with notices := desk.notices ++ [⟨caseId, .queued⟩] }, 1)

section Worker

variable (plans : Bool) (iso : Nat → String)

/-- One candidate of a run. -/
def escalateDue (work : DeadlineDesk × WorkerResult) (due : DueCase) :
    Option (DeadlineDesk × WorkerResult) :=
  let (desk, result) := work
  if due.escalation ∈ desk.escalations then
    some (desk, { result with skippedDuplicate := result.skippedDuplicate + 1 })
  else
    let desk := { desk with escalations := desk.escalations ++ [due.escalation] }
    (desk.addAlert plans (due.alert iso)).map fun (desk, alerts) =>
      let (desk, notices) := desk.addNotice due.caseId
      (desk,
        { result with
          escalationsCreated := result.escalationsCreated + 1
          alertsCreated := result.alertsCreated + alerts
          noticesQueued := result.noticesQueued + notices })

/-- A run up to its `COMMIT`; `none` is an error, which rolls it back. -/
def runDeadlineWorker (batch : List DueCase) (desk : DeadlineDesk) :
    Option (DeadlineDesk × WorkerResult) :=
  batch.foldlM (escalateDue plans iso) (desk, ⟨batch.length, 0, 0, 0, 0⟩)

end Worker

/-! ### Runs -/

structure DeadlineSystem where
  cases : CaseTable
  desk : DeadlineDesk

def DeadlineSystem.start (cases : CaseTable) : DeadlineSystem := ⟨cases, ⟨[], [], []⟩⟩

inductive DeadlineLabel where
  /-- The router changes cases. -/
  | edit (cases : CaseTable)
  /-- Others see to alerts and notices. -/
  | attend (alerts : List Alert) (notices : List EscalationNotice)
  | worker (now : Nat) (locked : List Nat) (tie : DueCase → Nat) (committed : Bool)

namespace DeadlineSystem

def work (plans : Bool) (iso : Nat → String) (s : DeadlineSystem) (now : Nat)
    (locked : List Nat) (tie : DueCase → Nat) : DeadlineSystem :=
  match runDeadlineWorker plans iso (candidates s.cases now locked tie) s.desk with
  | none => s
  | some (desk, _) => { s with desk }

def step (plans : Bool) (iso : Nat → String) : Step DeadlineSystem DeadlineLabel
  | s, .edit cases => some { s with cases }
  | s, .attend alerts notices => some { s with desk := { s.desk with alerts, notices } }
  | s, .worker now locked tie committed =>
    some (if committed then s.work plans iso now locked tie else s)

/-- The deadlines of open cases that have elapsed by then. -/
def elapsed (s : DeadlineSystem) (time : Nat) : List DueCase := s.cases.dueCases time []

end DeadlineSystem

end Bis.Disputes
