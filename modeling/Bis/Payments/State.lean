import Bis.Relation.Table
import Bis.Transition.Run
import Mathlib.Algebra.Group.Nat.Defs
import Mathlib.Data.List.Sort
import Mathlib.Data.Rat.Defs

/-!
The payment subsystem: the `transactions`, `payment_intent_outbox` and
`payment_reconciliation_cases` tables with the operations that change them. A
payment's state is spread over the three tables; the outbox dispatcher claims
rows, starts workflows and records the outcome in separate statements, so it is
a process with a phase, and a run interleaves any number of dispatchers with
the other operations.

`startPaymentTransferWorkflow` of this snapshot rejects every start. The model
leaves its answer open, and counts the calls in `dispatches`, which nothing
reads. Instants are milliseconds. An amount is the number that its `real` column
holds. Left out: the rounding of one with more than 24 bits as it is stored,
row-level security (every statement here runs in its own tenant), the evidence
references and the event log of a case, and the workflow identifiers.
-/

namespace Bis.Payments

open Bis.Relation Bis.Transition

inductive TransactionStatus where
  | pending | completed | failed | reversed | flagged | blocked | underReview
  deriving DecidableEq

structure Transaction where
  id : Nat
  tenantId : Option Int
  txRef : String
  idempotencyKey : Option String
  status : TransactionStatus
  amount : Rat
  (currency originatorName : String)
  originatorAccount : Option String
  beneficiaryName : String
  (beneficiaryAccount beneficiaryBank : Option String)
  deriving DecidableEq

def Transaction.withStatus (tx : Transaction) (status : TransactionStatus) : Transaction :=
  { tx with status }

inductive OutboxStatus where
  | queued | leased | workflowStarted | deadLetter
  deriving DecidableEq

structure OutboxRow where
  (id transactionId : Nat)
  tenantId : Int
  rail : String
  status : OutboxStatus
  (attempts nextAttemptAt : Nat)
  leasedAt : Option Nat
  lastErrorCode : Option String
  deriving DecidableEq

inductive CaseStatus where
  | open | underReview | approvedRetry | confirmedSettled | confirmedNotSettled
  | compensationRequired | cancelled
  deriving DecidableEq

/-- A row of `payment_reconciliation_cases`; its identifier is computed from
the transaction's. -/
structure ReconciliationCase where
  (transactionId outboxId : Nat)
  tenantId : Int
  status : CaseStatus
  lastErrorCode : String
  (claimedBy resolvedBy : Option Nat)
  deriving DecidableEq

structure Database where
  transactions : List Transaction
  outbox : List OutboxRow
  cases : List ReconciliationCase

/-- The row a dispatcher's claim returns, with the columns of its transaction. -/
structure PaymentOutboxRow where
  (id transactionId : Nat)
  tenantId : Int
  rail : String
  attempts : Nat
  transaction : Option Transaction

def leaseTimeoutMs : Nat := 300 * 1000
def maxAttempts : Nat := 10
def maxBatchSize : Nat := 25

namespace Database

def transaction? (db : Database) (id : Nat) : Option Transaction :=
  db.transactions.find? fun tx => tx.id == id

def freshTransactionId (db : Database) : Nat :=
  (db.transactions.map Transaction.id).foldr max 0 + 1

def freshOutboxId (db : Database) : Nat := (db.outbox.map OutboxRow.id).foldr max 0 + 1

def updateTransactions (db : Database) (p : Transaction → Bool) (f : Transaction → Transaction) :
    Database :=
  { db with transactions := updateWhere p f db.transactions }

def updateOutbox (db : Database) (p : OutboxRow → Bool) (f : OutboxRow → OutboxRow) : Database :=
  { db with outbox := updateWhere p f db.outbox }

def updateCases (db : Database) (p : ReconciliationCase → Bool)
    (f : ReconciliationCase → ReconciliationCase) : Database :=
  { db with cases := updateWhere p f db.cases }

/-- The trigger `create_payment_reconciliation_case_on_under_review`, for a
transaction that has just become `under_review`. -/
def openCase (db : Database) (tx : Transaction) : Database :=
  match db.outbox.find? fun row => row.transactionId == tx.id && some row.tenantId == tx.tenantId with
  | none => db
  | some row =>
    if db.cases.any fun c => c.transactionId == tx.id then db
    else
      { db with
        cases := db.cases ++
          [{ transactionId := tx.id
             outboxId := row.id
             tenantId := row.tenantId
             status := .open
             lastErrorCode := row.lastErrorCode.getD "UNDER_REVIEW"
             claimedBy := none
             resolvedBy := none }] }

/-- `UPDATE transactions SET status = 'under_review' WHERE p`, with the trigger
fired for each row whose status changes to it. -/
def setUnderReview (db : Database) (p : Transaction → Bool) : Database :=
  (db.transactions.filter fun tx => p tx && tx.status != .underReview).foldl openCase
    (db.updateTransactions p fun tx => tx.withStatus .underReview)

end Database

/-- What `initiateTransfer` receives after parsing: the amount is in kobo, and
the velocity service and the generated reference are outside answers. -/
structure TransferInput where
  tenantId : Option Int
  (originatorAccountId beneficiaryAccountId beneficiaryBankCode beneficiaryName : String)
  amountKobo : Nat
  reference : Option String
  (generatedRef rail : String)
  velocityBlocked : Bool

def allDigits (text : String) : Bool := text.toList.all Char.isDigit

/-- The input schema of `initiateTransfer`. -/
def TransferInput.accepted (input : TransferInput) : Bool :=
  input.originatorAccountId != "" &&
    (allDigits input.beneficiaryAccountId && input.beneficiaryAccountId.length == 10) &&
    (allDigits input.beneficiaryBankCode && 3 ≤ input.beneficiaryBankCode.length &&
      input.beneficiaryBankCode.length ≤ 6) &&
    (1 ≤ input.beneficiaryName.length && input.beneficiaryName.length ≤ 128) &&
    (1 ≤ input.amountKobo && input.amountKobo ≤ 100000000 * 100) &&
    input.reference.all fun reference => reference.length ≤ 64

/-- The insert of the payment claim and its workflow-start instruction; `none`
where a unique reference is taken. -/
def Database.insertIntent (db : Database) (input : TransferInput) (tenantId : Int) (now : Nat) :
    Option Database :=
  let txRef := input.reference.getD input.generatedRef
  if db.transactions.any fun tx => tx.txRef == txRef || tx.idempotencyKey == some txRef then none
  else
    let id := db.freshTransactionId
    some
      { db with
        transactions := db.transactions ++
          [{ id
             tenantId := some tenantId
             txRef
             idempotencyKey := some txRef
             status := .pending
             amount := input.amountKobo
             currency := "NGN"
             originatorName := input.originatorAccountId
             originatorAccount := some input.originatorAccountId
             beneficiaryName := input.beneficiaryName
             beneficiaryAccount := some input.beneficiaryAccountId
             beneficiaryBank := some input.beneficiaryBankCode }]
        outbox := db.outbox ++
          [{ id := db.freshOutboxId
             transactionId := id
             tenantId
             rail := input.rail
             status := .queued
             attempts := 0
             nextAttemptAt := now
             leasedAt := none
             lastErrorCode := none }] }

/-- `initiateTransfer`. A reference that exists, and every rejected request,
leave the tables as they are. -/
def Database.initiateTransfer (db : Database) (input : TransferInput) (now : Nat) : Database :=
  match input.tenantId with
  | none => db
  | some tenantId =>
    if !input.accepted || tenantId ≤ 0 ||
        input.originatorAccountId == input.beneficiaryAccountId || input.velocityBlocked then db
    else (db.insertIntent input tenantId now).getD db

/-- `freezeAccount`; the statement has no tenant condition. -/
def freezes (accountId : String) (tx : Transaction) : Bool :=
  (tx.status == .pending || tx.status == .underReview) &&
    (tx.originatorAccount == some accountId || tx.beneficiaryAccount == some accountId)

def Database.freezeAccount (db : Database) (accountId : String) : Database :=
  db.updateTransactions (freezes accountId) fun tx => tx.withStatus .blocked

/-! ### The dispatcher's statements -/

/-- The requeue of leases older than five minutes. -/
def Database.expireLeases (db : Database) (now : Nat) : Database :=
  db.updateOutbox
    (fun row => row.status == .leased && row.leasedAt.any fun at_ => decide (at_ + leaseTimeoutMs < now))
    fun row => { row with status := .queued, leasedAt := none }

def claimOrder (a b : OutboxRow) : Prop :=
  a.nextAttemptAt < b.nextAttemptAt ∨ (a.nextAttemptAt = b.nextAttemptAt ∧ a.id ≤ b.id)

instance : DecidableRel claimOrder := fun _ _ => inferInstanceAs (Decidable (_ ∨ _))

/-- The rows a claim selects; `locked` are the rows other transactions hold. -/
def Database.candidates (db : Database) (now limit : Nat) (locked : List Nat) : List OutboxRow :=
  ((db.outbox.filter fun row => row.status == .queued && decide (row.nextAttemptAt ≤ now) &&
    !locked.contains row.id).insertionSort claimOrder).take (max 1 (min limit maxBatchSize))

def Database.claimedRow (db : Database) (row : OutboxRow) : PaymentOutboxRow :=
  { id := row.id
    transactionId := row.transactionId
    tenantId := row.tenantId
    rail := row.rail
    attempts := row.attempts
    transaction := db.transaction? row.transactionId }

def Database.claim (db : Database) (now limit : Nat) (locked : List Nat) :
    Database × List PaymentOutboxRow :=
  let rows := db.candidates now limit locked
  (db.updateOutbox (fun row => rows.any fun claimed => claimed.id == row.id)
      fun row => { row with status := .leased, leasedAt := some now },
    rows.map db.claimedRow)

/-- `isDispatchable`. -/
def PaymentOutboxRow.isDispatchable (item : PaymentOutboxRow) : Bool :=
  item.transaction.any fun tx =>
    tx.txRef != "" && (tx.originatorAccount.getD "" != "") &&
      (tx.beneficiaryAccount.getD "" != "") && tx.beneficiaryName != "" &&
      (tx.beneficiaryBank.getD "" != "") && decide (0 < tx.amount) && tx.currency == "NGN"

def holdsLease (item : PaymentOutboxRow) (row : OutboxRow) : Bool :=
  row.id == item.id && row.status == .leased

def Database.recordStarted (db : Database) (item : PaymentOutboxRow) : Database :=
  db.updateOutbox (holdsLease item) fun row =>
    { row with
      status := .workflowStarted
      attempts := item.attempts + 1
      leasedAt := none
      lastErrorCode := none }

/-- The base delay of `retryAt`. -/
def retryBaseMs (attempt : Nat) : Nat := min (1000 * 2 ^ (attempt - 1)) 300000

def Database.requeue (db : Database) (item : PaymentOutboxRow) (retryAt : Nat) : Database :=
  db.updateOutbox (holdsLease item) fun row =>
    { row with
      status := .queued
      attempts := item.attempts + 1
      leasedAt := none
      nextAttemptAt := retryAt
      lastErrorCode := some "TEMPORAL_WORKFLOW_START_FAILED" }

def Database.deadLetter (db : Database) (item : PaymentOutboxRow) (errorCode : String) :
    Database :=
  db.updateOutbox (holdsLease item) fun row =>
    { row with
      status := .deadLetter
      attempts := item.attempts + 1
      leasedAt := none
      lastErrorCode := some errorCode }

def PaymentOutboxRow.pendingTransaction (item : PaymentOutboxRow) (tx : Transaction) : Bool :=
  tx.id == item.transactionId && tx.tenantId == some item.tenantId && tx.status == .pending

/-- `escalateForReconciliation`; `none` where it throws and rolls back. -/
def Database.escalate (db : Database) (item : PaymentOutboxRow) (errorCode : String) :
    Option Database :=
  if db.outbox.any (holdsLease item) && db.transactions.any item.pendingTransaction then
    some ((db.deadLetter item errorCode).setUnderReview item.pendingTransaction)
  else none

/-! ### The reconciliation desk -/

def Database.claimCase (db : Database) (transactionId : Nat) (tenantId : Int) (actorId : Nat) :
    Database :=
  db.updateCases
    (fun c => c.transactionId == transactionId && c.tenantId == tenantId && c.status == .open &&
      c.claimedBy.isNone)
    fun c => { c with status := .underReview, claimedBy := some actorId }

inductive Resolution where
  | confirmedSettled | confirmedNotSettled | approvedRetry | compensationRequired

def Resolution.caseStatus : Resolution → CaseStatus
  | .confirmedSettled => .confirmedSettled
  | .confirmedNotSettled => .confirmedNotSettled
  | .approvedRetry => .approvedRetry
  | .compensationRequired => .compensationRequired

/-- `lockClaimedCase`: the case, its transaction and its outbox row. -/
def Database.lockClaimedCase (db : Database) (transactionId : Nat) (tenantId : Int)
    (actorId : Nat) : Option ReconciliationCase :=
  match db.cases.find? fun c => c.transactionId == transactionId && c.tenantId == tenantId with
  | none => none
  | some c =>
    if c.status == .underReview && c.claimedBy.isSome && c.claimedBy != some actorId &&
        (db.transactions.any fun tx => tx.id == c.transactionId &&
          tx.tenantId == some c.tenantId && tx.status == .underReview) &&
        (db.outbox.any fun row => row.id == c.outboxId && row.transactionId == c.transactionId &&
          row.tenantId == c.tenantId && row.status == .deadLetter) then some c
    else none

def Database.closeCase (db : Database) (c : ReconciliationCase) (tenantId : Int) (actorId : Nat)
    (resolution : Resolution) : Database :=
  db.updateCases
    (fun other => other.transactionId == c.transactionId && other.tenantId == tenantId &&
      other.status == .underReview && other.claimedBy.any fun by_ => by_ != actorId)
    fun other => { other with status := resolution.caseStatus, resolvedBy := some actorId }

def ReconciliationCase.reviewed (c : ReconciliationCase) (tenantId : Int) (tx : Transaction) :
    Bool :=
  tx.id == c.transactionId && tx.tenantId == some tenantId && tx.status == .underReview

def Database.moveReviewed (db : Database) (c : ReconciliationCase) (tenantId : Int)
    (status : TransactionStatus) : Database :=
  db.updateTransactions (c.reviewed tenantId) fun tx => tx.withStatus status

def Database.queueApproved (db : Database) (c : ReconciliationCase) (tenantId : Int)
    (now : Nat) : Database :=
  db.updateOutbox
    (fun row => row.id == c.outboxId && row.tenantId == tenantId &&
      row.transactionId == c.transactionId && row.status == .deadLetter)
    fun row =>
      { row with
        status := .queued
        attempts := 0
        leasedAt := none
        nextAttemptAt := now
        lastErrorCode := some "HUMAN_APPROVED_DETERMINISTIC_RETRY" }

/-- `resolveCase`; a rejected resolution leaves the tables as they are. -/
def Database.resolveCase (db : Database) (transactionId : Nat) (tenantId : Int) (actorId : Nat)
    (resolution : Resolution) (now : Nat) : Database :=
  match db.lockClaimedCase transactionId tenantId actorId with
  | none => db
  | some c =>
    let closed := db.closeCase c tenantId actorId resolution
    match resolution with
    | .confirmedSettled => closed.moveReviewed c tenantId .completed
    | .confirmedNotSettled => closed.moveReviewed c tenantId .failed
    | .approvedRetry => (closed.queueApproved c tenantId now).moveReviewed c tenantId .pending
    | .compensationRequired => closed

/-! ### Dispatchers and runs -/

/-- A claimed row in a dispatcher's hands, with its transaction's status at
the moment of the claim. -/
structure Lease where
  item : PaymentOutboxRow
  statusAtClaim : Option TransactionStatus

inductive Dispatcher where
  | idle
  | claiming
  | handling (leases : List Lease)
  | started (lease : Lease) (rest : List Lease)
  | failed (lease : Lease) (rest : List Lease)

/-- The claimed rows a dispatcher still works on. -/
def Dispatcher.held : Dispatcher → List Lease
  | .idle | .claiming => []
  | .handling leases => leases
  | .started lease rest | .failed lease rest => lease :: rest

/-- The rows it may still start a workflow for. -/
def Dispatcher.toHandle : Dispatcher → List Lease
  | .idle | .claiming => []
  | .handling leases => leases
  | .started _ rest | .failed _ rest => rest

/-- One call of `startPaymentTransferWorkflow`. -/
structure Dispatch where
  transactionId : Nat
  (statusAtClaim statusAtDispatch : Option TransactionStatus)
  deriving DecidableEq

structure System where
  db : Database
  dispatchers : Nat → Dispatcher
  clock : Nat
  dispatches : List Dispatch

/-- A system without outbox rows or cases over the given transactions. -/
def System.initial (transactions : List Transaction) : System :=
  { db := { transactions, outbox := [], cases := [] }
    dispatchers := fun _ => .idle
    clock := 0
    dispatches := [] }

def System.setDispatcher (s : System) (worker : Nat) (phase : Dispatcher) : System :=
  { s with dispatchers := Function.update s.dispatchers worker phase }

def System.withDb (s : System) (db : Database) : System := { s with db }

inductive Action where
  | initiateTransfer (input : TransferInput)
  | expireLeases (worker : Nat)
  | claim (worker limit : Nat) (locked : List Nat)
  /-- The next claimed item: an undispatchable one is escalated, for any other
  the workflow is started; `started` is the answer. -/
  | dispatch (worker : Nat) (started : Bool)
  /-- The update after a start; `stored` is whether it went through. -/
  | recordStarted (worker : Nat) (stored : Bool)
  | handleFailure (worker jitter : Nat)
  | finishCycle (worker : Nat)
  | crash (worker : Nat)
  | freezeAccount (accountId : String)
  | claimCase (transactionId : Nat) (tenantId : Int) (actorId : Nat)
  | resolveCase (transactionId : Nat) (tenantId : Int) (actorId : Nat) (resolution : Resolution)
  | tick (ms : Nat)

/-- Escalation of a claimed item; where it throws, the cycle is over. -/
def System.escalateNext (s : System) (worker : Nat) (item : PaymentOutboxRow)
    (errorCode : String) (rest : List Lease) : System :=
  match s.db.escalate item errorCode with
  | some db => (s.withDb db).setDispatcher worker (.handling rest)
  | none => s.setDispatcher worker .idle

def paymentStep : Step System Action
  | s, .initiateTransfer input => some (s.withDb (s.db.initiateTransfer input s.clock))
  | s, .expireLeases worker =>
    match s.dispatchers worker with
    | .idle => some ((s.withDb (s.db.expireLeases s.clock)).setDispatcher worker .claiming)
    | _ => none
  | s, .claim worker limit locked =>
    match s.dispatchers worker with
    | .claiming =>
      let result := s.db.claim s.clock limit locked
      some ((s.withDb result.1).setDispatcher worker (.handling (result.2.map fun item =>
        ⟨item, item.transaction.map Transaction.status⟩)))
    | _ => none
  | s, .dispatch worker started =>
    match s.dispatchers worker with
    | .handling (lease :: rest) =>
      if lease.item.isDispatchable then
        let called :=
          { s with
            dispatches :=
              ⟨lease.item.transactionId, lease.statusAtClaim,
                (s.db.transaction? lease.item.transactionId).map Transaction.status⟩ ::
                s.dispatches }
        some (called.setDispatcher worker
          (if started then .started lease rest else .failed lease rest))
      else
        some (s.escalateNext worker lease.item "INVALID_DURABLE_PAYMENT_INTENT" rest)
    | _ => none
  | s, .recordStarted worker stored =>
    match s.dispatchers worker with
    | .started lease rest =>
      if stored then
        some ((s.withDb (s.db.recordStarted lease.item)).setDispatcher worker (.handling rest))
      else some (s.setDispatcher worker (.failed lease rest))
    | _ => none
  | s, .handleFailure worker jitter =>
    match s.dispatchers worker with
    | .failed lease rest =>
      let attempt := lease.item.attempts + 1
      if maxAttempts ≤ attempt then
        some (s.escalateNext worker lease.item "TEMPORAL_WORKFLOW_START_FAILED" rest)
      else if jitter < max 1 (retryBaseMs attempt / 10) then
        some ((s.withDb (s.db.requeue lease.item
          (s.clock + retryBaseMs attempt + jitter))).setDispatcher worker (.handling rest))
      else none
    | _ => none
  | s, .finishCycle worker =>
    match s.dispatchers worker with
    | .handling [] => some (s.setDispatcher worker .idle)
    | _ => none
  | s, .crash worker => some (s.setDispatcher worker .idle)
  | s, .freezeAccount accountId => some (s.withDb (s.db.freezeAccount accountId))
  | s, .claimCase transactionId tenantId actorId =>
    some (s.withDb (s.db.claimCase transactionId tenantId actorId))
  | s, .resolveCase transactionId tenantId actorId resolution =>
    some (s.withDb (s.db.resolveCase transactionId tenantId actorId resolution s.clock))
  | s, .tick ms => some { s with clock := s.clock + ms }

/-- The steps of the payment subsystem, each with the phase its dispatcher was
in. -/
inductive SystemTakes (s : System) : Action → System → Prop
  | initiateTransfer (input : TransferInput) :
      SystemTakes s (.initiateTransfer input) (s.withDb (s.db.initiateTransfer input s.clock))
  | expireLeases {worker : Nat} (hphase : s.dispatchers worker = .idle) :
      SystemTakes s (.expireLeases worker)
        ((s.withDb (s.db.expireLeases s.clock)).setDispatcher worker .claiming)
  | claim {worker : Nat} (hphase : s.dispatchers worker = .claiming) (limit : Nat)
      (locked : List Nat) :
      SystemTakes s (.claim worker limit locked)
        ((s.withDb (s.db.claim s.clock limit locked).1).setDispatcher worker
          (.handling ((s.db.claim s.clock limit locked).2.map fun item =>
            ⟨item, item.transaction.map Transaction.status⟩)))
  | dispatched {worker : Nat} {lease : Lease} {rest : List Lease}
      (hphase : s.dispatchers worker = .handling (lease :: rest))
      (hdispatchable : lease.item.isDispatchable) (started : Bool) :
      SystemTakes s (.dispatch worker started)
        (({ s with
            dispatches :=
              ⟨lease.item.transactionId, lease.statusAtClaim,
                (s.db.transaction? lease.item.transactionId).map Transaction.status⟩ ::
                s.dispatches } : System).setDispatcher worker
          (if started then .started lease rest else .failed lease rest))
  | rejected {worker : Nat} {lease : Lease} {rest : List Lease}
      (hphase : s.dispatchers worker = .handling (lease :: rest))
      (hinvalid : ¬ lease.item.isDispatchable) (started : Bool) :
      SystemTakes s (.dispatch worker started)
        (s.escalateNext worker lease.item "INVALID_DURABLE_PAYMENT_INTENT" rest)
  | stored {worker : Nat} {lease : Lease} {rest : List Lease}
      (hphase : s.dispatchers worker = .started lease rest) :
      SystemTakes s (.recordStarted worker true)
        ((s.withDb (s.db.recordStarted lease.item)).setDispatcher worker (.handling rest))
  | notStored {worker : Nat} {lease : Lease} {rest : List Lease}
      (hphase : s.dispatchers worker = .started lease rest) :
      SystemTakes s (.recordStarted worker false) (s.setDispatcher worker (.failed lease rest))
  | exhausted {worker : Nat} {lease : Lease} {rest : List Lease}
      (hphase : s.dispatchers worker = .failed lease rest)
      (hlast : maxAttempts ≤ lease.item.attempts + 1) (jitter : Nat) :
      SystemTakes s (.handleFailure worker jitter)
        (s.escalateNext worker lease.item "TEMPORAL_WORKFLOW_START_FAILED" rest)
  | requeued {worker : Nat} {lease : Lease} {rest : List Lease}
      (hphase : s.dispatchers worker = .failed lease rest)
      (hlast : ¬ maxAttempts ≤ lease.item.attempts + 1) (jitter : Nat) :
      SystemTakes s (.handleFailure worker jitter)
        ((s.withDb (s.db.requeue lease.item
          (s.clock + retryBaseMs (lease.item.attempts + 1) + jitter))).setDispatcher worker
            (.handling rest))
  | finishCycle {worker : Nat} (hphase : s.dispatchers worker = .handling []) :
      SystemTakes s (.finishCycle worker) (s.setDispatcher worker .idle)
  | crash (worker : Nat) : SystemTakes s (.crash worker) (s.setDispatcher worker .idle)
  | freezeAccount (accountId : String) :
      SystemTakes s (.freezeAccount accountId) (s.withDb (s.db.freezeAccount accountId))
  | claimCase (transactionId : Nat) (tenantId : Int) (actorId : Nat) :
      SystemTakes s (.claimCase transactionId tenantId actorId)
        (s.withDb (s.db.claimCase transactionId tenantId actorId))
  | resolveCase (transactionId : Nat) (tenantId : Int) (actorId : Nat) (resolution : Resolution) :
      SystemTakes s (.resolveCase transactionId tenantId actorId resolution)
        (s.withDb (s.db.resolveCase transactionId tenantId actorId resolution s.clock))
  | tick (ms : Nat) : SystemTakes s (.tick ms) { s with clock := s.clock + ms }

theorem systemTakes_of_step {s t : System} {action : Action} (h : paymentStep s action = some t) :
    SystemTakes s action t := by
  cases action with
  | initiateTransfer input =>
    cases h
    exact .initiateTransfer input
  | expireLeases worker =>
    simp only [paymentStep] at h
    split at h
    next hphase =>
      cases h
      exact .expireLeases hphase
    next => cases h
  | claim worker limit locked =>
    simp only [paymentStep] at h
    split at h
    next hphase =>
      cases h
      exact .claim hphase limit locked
    next => cases h
  | dispatch worker started =>
    simp only [paymentStep] at h
    split at h
    next lease rest hphase =>
      split at h
      next hdispatchable =>
        cases h
        exact .dispatched hphase hdispatchable started
      next hinvalid =>
        cases h
        exact .rejected hphase hinvalid started
    next => cases h
  | recordStarted worker stored =>
    simp only [paymentStep] at h
    split at h
    next lease rest hphase =>
      cases stored with
      | true =>
        cases h
        exact .stored hphase
      | false =>
        cases h
        exact .notStored hphase
    next => cases h
  | handleFailure worker jitter =>
    simp only [paymentStep] at h
    split at h
    next lease rest hphase =>
      split at h
      next hlast =>
        cases h
        exact .exhausted hphase hlast jitter
      next hlast =>
        split at h
        next =>
          cases h
          exact .requeued hphase hlast jitter
        next => cases h
    next => cases h
  | finishCycle worker =>
    simp only [paymentStep] at h
    split at h
    next hphase =>
      cases h
      exact .finishCycle hphase
    next => cases h
  | crash worker =>
    cases h
    exact .crash worker
  | freezeAccount accountId =>
    cases h
    exact .freezeAccount accountId
  | claimCase transactionId tenantId actorId =>
    cases h
    exact .claimCase transactionId tenantId actorId
  | resolveCase transactionId tenantId actorId resolution =>
    cases h
    exact .resolveCase transactionId tenantId actorId resolution
  | tick ms =>
    cases h
    exact .tick ms

end Bis.Payments
