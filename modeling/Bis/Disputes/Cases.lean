import Bis.Relation.Table

/-!
Consumer dispute cases with their items, source tasks and deadline escalations,
and the mutations of the router on them. A reference and the serial number of its
row are one key here, and a dispute carries the candidate of its subject binding.

A mutation locks its case row first and so is one step, and `Except` carries the
message with which it is refused. Only `withdraw` reads the case without a lock:
its statements are steps of their own. What a mutation reads from elsewhere (the
subject binding, the provider authorization, the manifest of the verified
evidence) comes with its input. Left out are evidence, notices, audit events,
payloads and the due dates.
-/

namespace Bis.Disputes

open Bis.Relation

inductive DisputeStatus where
  | identityPending | received | accepted | sourcePending | investigating | awaitingConsumer
  | frivolous | resolved | withdrawn | escalated
  deriving DecidableEq

namespace DisputeStatus

/-- What `complete`, `withdraw` and `assign` call terminal. -/
def terminal : DisputeStatus → Bool
  | .resolved | .withdrawn => true
  | _ => false

/-- No dispute of the candidate's in the sense of the adverse-action workflow. -/
def closed : DisputeStatus → Bool
  | .resolved | .withdrawn | .frivolous => true
  | _ => false

end DisputeStatus

structure DisputeCase where
  caseRef : String
  tenantId : Int
  (requesterUserId candidateId : Nat)
  status : DisputeStatus

inductive Disposition where
  | pending | verified | corrected | deleted | partiallyResolved | unverifiable | notInScope
  deriving DecidableEq

structure DisputeItem where
  (itemRef caseRef : String)
  disposition : Disposition

inductive TaskStatus where
  | pending | dispatched | acknowledged | responded | failed | cancelled
  deriving DecidableEq

def TaskStatus.active : TaskStatus → Bool
  | .pending | .dispatched | .acknowledged => true
  | _ => false

/-- What `recordSourceResponse` calls terminal. -/
def TaskStatus.terminal : TaskStatus → Bool
  | .responded | .cancelled => true
  | _ => false

structure SourceTask where
  (taskRef caseRef itemRef authorizationRef idempotencyKey : String)
  status : TaskStatus
  deriving DecidableEq

/-- A deadline escalation that is not resolved yet. -/
structure Escalation where
  id : Nat
  caseRef : String

inductive OutboxState where
  | pending | leased | delivered | deadLetter | cancelled
  deriving DecidableEq

/-- A request to a provider. Instants are microseconds of the database's clock. -/
structure ProviderOutboxRow where
  id : Nat
  (caseRef taskRef idempotencyKey : String)
  state : OutboxState
  (attemptCount availableAt : Nat)
  leasedAt : Option Nat
  createdAt : Nat

structure Tables where
  cases : List DisputeCase
  items : List DisputeItem
  tasks : List SourceTask
  escalations : List Escalation
  outbox : List ProviderOutboxRow

namespace Tables

def empty : Tables :=
  { cases := [], items := [], tasks := [], escalations := [], outbox := [] }

/-! ### Statements -/

def setCaseStatus (db : Tables) (caseRef : String) (status : DisputeStatus) : Tables :=
  { db with
    cases := updateWhere (fun c => c.caseRef == caseRef) (fun c => { c with status }) db.cases }

def setTaskStatus (db : Tables) (p : SourceTask → Bool) (status : TaskStatus) : Tables :=
  { db with tasks := updateWhere p (fun t => { t with status }) db.tasks }

def activeTasks (db : Tables) (caseRef : String) : List SourceTask :=
  db.tasks.filter fun t => t.caseRef == caseRef && t.status.active

def assertConsumerCaseOwner (db : Tables) (caseRef : String) (userId : Nat) (tenantId : Int) :
    Except String DisputeCase :=
  match db.cases.find? fun c =>
      c.caseRef == caseRef && (c.requesterUserId == userId && c.tenantId == tenantId) with
  | none => .error "Consumer dispute case not found."
  | some row => .ok row

/-- An administrator comes without a tenant. -/
def assertInternalCase (db : Tables) (caseRef : String) (tenantId : Option Int) :
    Except String DisputeCase :=
  match db.cases.find? fun c =>
      c.caseRef == caseRef && tenantId.all fun tenantId => c.tenantId == tenantId with
  | none => .error "Consumer dispute case not found."
  | some row => .ok row

/-! ### Mutations -/

/-- `open` after the checks of its input: a case and its items. The adverse
actions it pauses are not of these tables. -/
def openCase (db : Tables) (caseRef : String) (tenantId : Int) (userId candidateId : Nat)
    (itemRefs : List String) : Except String Tables :=
  if db.cases.any fun c => c.caseRef == caseRef then .error "consumer_dispute_cases_case_ref_key"
  else if itemRefs = [] ∨ 20 < itemRefs.length then .error "BAD_REQUEST"
  else if !itemRefs.Nodup || db.items.any fun i => itemRefs.contains i.itemRef then
    .error "consumer_dispute_items_item_ref_key"
  else
    .ok { db with
      cases := db.cases ++ [{ caseRef, tenantId, requesterUserId := userId, candidateId,
                              status := .received }]
      items := db.items ++ itemRefs.map fun itemRef => { itemRef, caseRef, disposition := .pending } }

def assign (db : Tables) (caseRef : String) (tenantId : Option Int) : Except String Tables := do
  let row ← db.assertInternalCase caseRef tenantId
  if row.status.terminal then .error "A terminal case cannot be assigned."
  else if row.status = .received then .ok (db.setCaseStatus caseRef .accepted)
  else .ok db

structure SourceTaskInput where
  (caseRef disputeItemRef providerAuthorizationRef : String)
  /-- Whether the authorization is active and in scope. -/
  authorized : Bool
  /-- The verified evidence of the case, as JSON. -/
  manifest : String

def SourceTaskInput.idempotencyKey (sha256 : String → String) (input : SourceTaskInput) : String :=
  sha256 (input.caseRef ++ "|" ++ input.disputeItemRef ++ "|" ++ input.providerAuthorizationRef ++
    "|" ++ input.manifest)

/-- The task that an insert runs into. -/
def existingTask (db : Tables) (authorizationRef idempotencyKey : String) : Option SourceTask :=
  db.tasks.find? fun t =>
    t.authorizationRef == authorizationRef && t.idempotencyKey == idempotencyKey

/-- The task of the request, and the tables with it. -/
def insertTask (db : Tables) (task : SourceTask) : Except String (Tables × SourceTask) :=
  match db.existingTask task.authorizationRef task.idempotencyKey with
  | some existing => .ok (db, existing)
  | none =>
    if db.tasks.any fun t => t.taskRef == task.taskRef then
      .error "consumer_dispute_source_tasks_task_ref_key"
    else .ok ({ db with tasks := db.tasks ++ [task] }, task)

def insertOutbox (db : Tables) (row : ProviderOutboxRow) : Except String Tables :=
  if db.outbox.any fun o => o.idempotencyKey == row.idempotencyKey then .ok db
  else if db.outbox.any fun o => o.id == row.id || o.taskRef == row.taskRef then
    .error "consumer_dispute_provider_outbox_task_event"
  else .ok { db with outbox := db.outbox ++ [row] }

def createSourceTask (sha256 : String → String) (db : Tables) (input : SourceTaskInput)
    (tenantId : Option Int) (taskRef : String) (outboxId now : Nat) : Except String Tables := do
  let row ← db.assertInternalCase input.caseRef tenantId
  if row.status.closed then .error "Source tasks cannot be created for this case state."
  else if !db.items.any fun i =>
      i.itemRef == input.disputeItemRef && i.caseRef == row.caseRef then
    .error "Dispute item not found in this case."
  else if !input.authorized then
    .error ("Provider authorization is missing, inactive, expired, or out of scope; " ++
      "no source request was sent.")
  else
    let idempotencyKey := input.idempotencyKey sha256
    let (stored, task) ← db.insertTask
      { taskRef, caseRef := row.caseRef, itemRef := input.disputeItemRef
        authorizationRef := input.providerAuthorizationRef, idempotencyKey, status := .pending }
    let queued ← stored.insertOutbox
      { id := outboxId, caseRef := row.caseRef, taskRef := task.taskRef, idempotencyKey
        state := .pending, attemptCount := 0, availableAt := now, leasedAt := none
        createdAt := now }
    .ok (queued.setCaseStatus row.caseRef .sourcePending)

def recordSourceResponse (db : Tables) (caseRef : String) (tenantId : Option Int)
    (taskRef : String) : Except String Tables := do
  let row ← db.assertInternalCase caseRef tenantId
  match db.tasks.find? fun t => t.taskRef == taskRef && t.caseRef == row.caseRef with
  | none => .error "Source task not found in this case."
  | some task =>
    if task.status.terminal then .error "Source task is already terminal."
    else
      .ok ((db.setTaskStatus (fun t => t.taskRef == task.taskRef) .responded).setCaseStatus
        row.caseRef .investigating)

def dispositionItem (db : Tables) (caseRef : String) (tenantId : Option Int) (itemRef : String)
    (disposition : Disposition) : Except String Tables := do
  let row ← db.assertInternalCase caseRef tenantId
  if row.status.closed then .error "Items cannot be dispositioned in this case state."
  else
    match db.items.find? fun i => i.itemRef == itemRef && i.caseRef == row.caseRef with
    | none => .error "Dispute item not found in this case."
    | some item =>
      if item.disposition ≠ .pending then .error "Dispute item has already been dispositioned."
      else if disposition = .pending then .error "BAD_REQUEST"
      else
        .ok { db with
          items := updateWhere (fun i => i.itemRef == item.itemRef)
            (fun i => { i with disposition }) db.items }

/-- Resolves a case; the database's own guard looks for open escalations. -/
def complete (db : Tables) (caseRef : String) (tenantId : Option Int) : Except String Tables := do
  let row ← db.assertInternalCase caseRef tenantId
  if row.status.terminal then .error "This consumer dispute is already terminal."
  else if (db.items.any fun i => i.caseRef == row.caseRef && i.disposition == .pending) ||
      db.activeTasks row.caseRef ≠ [] then
    .error "Every disputed item and source task must be resolved before case completion."
  else if db.escalations.any fun e => e.caseRef == row.caseRef then
    .error "consumer dispute cannot be resolved while a deadline escalation remains open"
  else .ok (db.setCaseStatus row.caseRef .resolved)

/-- What the deadline worker does to a case that is due. -/
def escalate (db : Tables) (id : Nat) (caseRef : String) : Except String Tables :=
  if db.cases.any fun c => c.caseRef == caseRef && !c.status.terminal then
    .ok { db with escalations := db.escalations ++ [{ id, caseRef }] }
  else .ok db

def resolveDeadlineEscalation (db : Tables) (caseRef : String) (tenantId : Option Int)
    (id : Nat) : Except String Tables := do
  let row ← db.assertInternalCase caseRef tenantId
  .ok { db with
    escalations := db.escalations.filter fun e => !(e.id == id && e.caseRef == row.caseRef) }

/-! ### The statements of `withdraw` -/

/-- The first statement and the checks on what it read. -/
def withdrawCheck (db : Tables) (caseRef : String) (userId : Nat) (tenantId : Int) :
    Except String DisputeCase := do
  let row ← db.assertConsumerCaseOwner caseRef userId tenantId
  if row.status.terminal then .error "This consumer dispute is already terminal."
  else if row.status = .escalated then
    .error "An escalated dispute cannot be withdrawn through self-service."
  else .ok row

/-- What the transaction leaves when it commits: the tasks its second statement
selected and the case of its third. -/
def withdraw (db : Tables) (caseRef : String) (taskRefs : List String) : Tables :=
  (db.setTaskStatus (fun t => taskRefs.contains t.taskRef) .cancelled).setCaseStatus caseRef
    .withdrawn

end Tables

end Bis.Disputes
