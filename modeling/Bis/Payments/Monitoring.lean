import Bis.Payments.Reversal

/-!
The transaction register with the operations that monitoring, administration
and the payment subsystem have on it: creation, status updates, flags, clears
and reversals. `update` and `reverseTransfer` read a row and write it in a later
statement, so a call that has passed its check is kept until it writes.

The scores of `quickScore` and `scoreTransaction` and the gateway's answer for a
stablecoin transfer are inputs here. `beforeFlag`, `moved` and `clears` record
what happened and are read by no operation.
-/

namespace Bis.Payments

open Bis.Relation Bis.Transition

/-- The row of an insert, without the values the database and the operation
choose. -/
structure NewTransaction where
  tenantId : Option Int
  txRef : String
  idempotencyKey : Option String
  amount : Rat
  (currency originatorName : String)
  originatorAccount : Option String
  beneficiaryName : String
  (beneficiaryAccount beneficiaryBank : Option String)

def NewTransaction.row (input : NewTransaction) (id : Nat) (status : TransactionStatus) :
    Transaction :=
  { id
    tenantId := input.tenantId
    txRef := input.txRef
    idempotencyKey := input.idempotencyKey
    status
    amount := input.amount
    currency := input.currency
    originatorName := input.originatorName
    originatorAccount := input.originatorAccount
    beneficiaryName := input.beneficiaryName
    beneficiaryAccount := input.beneficiaryAccount
    beneficiaryBank := input.beneficiaryBank }

/-- The input checks of the two creation procedures; they differ in the
shortest name they take. -/
def NewTransaction.accepted (input : NewTransaction) (minName : Nat) : Bool :=
  decide (0 < input.amount) && input.currency.length == 3 &&
    decide (minName ≤ input.originatorName.length) &&
    decide (minName ≤ input.beneficiaryName.length) &&
    input.idempotencyKey.all fun key => 8 ≤ key.length && key.length ≤ 256

/-- `none` where a unique reference is taken. -/
def Database.insertTransaction (db : Database) (input : NewTransaction)
    (status : TransactionStatus) : Option Database :=
  if db.transactions.any fun tx => tx.txRef == input.txRef ||
      (input.idempotencyKey.isSome && tx.idempotencyKey == input.idempotencyKey) then none
  else
    some
      { db with
        transactions := db.transactions ++ [input.row db.freshTransactionId status] }

/-- `UPDATE transactions SET status WHERE p`, with the trigger on `under_review`. -/
def Database.setStatus (db : Database) (p : Transaction → Bool) (status : TransactionStatus) :
    Database :=
  if status = .underReview then db.setUnderReview p
  else db.updateTransactions p fun tx => tx.withStatus status

def owned (id : Nat) (tenantId : Option Int) (tx : Transaction) : Bool :=
  tx.id == id && inTenant tenantId tx

/-- The rows `clear` updates. -/
def clearable (id : Nat) (tenantId : Int) (tx : Transaction) : Bool :=
  owned id (some tenantId) tx && tx.status == .flagged

/-- The statuses `update` takes. -/
def updatable (status : TransactionStatus) : Bool :=
  status == .pending || status == .failed || status == .flagged || status == .blocked ||
    status == .underReview

abbrev UpdateStatus := { status : TransactionStatus // updatable status }

/-- A call of `update` that has passed its checks. -/
structure UpdateCall where
  id : Nat
  tenantId : Option Int
  status : Option UpdateStatus
  deriving DecidableEq

/-- Settled transactions are not updated. -/
def UpdateCall.accepted (call : UpdateCall) (db : Database) : Bool :=
  (db.transactions.find? (owned call.id call.tenantId)).any fun tx =>
    tx.status != .completed && tx.status != .reversed

/-- A call of `reverseTransfer` that has read its transfer. -/
structure ReversalCall where
  tx : Transaction
  txRef : String
  tenantId : Option Int
  deriving DecidableEq

/-- A clear, with the status before the flag and the status after the clear. -/
structure Clear where
  transactionId : Nat
  (before after : Option TransactionStatus)
  deriving DecidableEq

structure Register where
  payments : System
  updates : List UpdateCall
  reversals : List ReversalCall
  /-- The status a transaction had when it was last flagged. -/
  beforeFlag : Nat → Option TransactionStatus
  /-- The transactions whose money was moved. -/
  moved : List Nat
  clears : List Clear

namespace Register

def initial : Register :=
  { payments := .initial []
    updates := []
    reversals := []
    beforeFlag := fun _ => none
    moved := []
    clears := [] }

def db (s : Register) : Database := s.payments.db

def rows (s : Register) : List Transaction := s.db.transactions

def withDb (s : Register) (db : Database) : Register :=
  { s with payments := s.payments.withDb db }

/-- A transaction that is flagged already keeps its record. -/
def noteFlag (s : Register) (p : Transaction → Bool) (id : Nat) : Option TransactionStatus :=
  match s.rows.find? fun tx => tx.id == id && p tx && tx.status != .flagged with
  | some tx => some tx.status
  | none => s.beforeFlag id

def setStatus (s : Register) (p : Transaction → Bool) (status : TransactionStatus) : Register :=
  { s.withDb (s.db.setStatus p status) with
    beforeFlag := if status = .flagged then s.noteFlag p else s.beforeFlag }

/-- An insert; `settled` is whether the row stands for money that was moved. -/
def insert (s : Register) (input : NewTransaction) (status : TransactionStatus) (settled : Bool) :
    Register :=
  match s.db.insertTransaction input status with
  | none => s
  | some db =>
    { s.withDb db with
      moved := if settled then s.db.freshTransactionId :: s.moved else s.moved }

/-- `transactions.create`. -/
def createTransaction (s : Register) (input : NewTransaction) (score : Nat) : Register :=
  if input.accepted 1 then s.insert input (if 100 ≤ score then .blocked else .pending) false else s

/-- `aml.transactions.create` records a transaction that has taken place; a
high score holds it for review. -/
def recordTransaction (s : Register) (input : NewTransaction) (score : Nat) : Register :=
  if input.accepted 2 && input.tenantId.isSome && input.idempotencyKey.isNone then
    s.insert input (if 70 ≤ score then .flagged else .completed) true
  else s

/-- The record of a stablecoin transfer. -/
def storeStablecoin (s : Register) (input : NewTransaction) (confirmed : Bool) : Register :=
  s.insert input (if confirmed then .completed else .pending) confirmed

def readUpdate (s : Register) (call : UpdateCall) : Register :=
  if call.accepted s.db then { s with updates := call :: s.updates } else s

def writeUpdate (s : Register) (call : UpdateCall) : Register :=
  let written :=
    call.status.elim s fun status => s.setStatus (owned call.id call.tenantId) status.val
  { written with updates := s.updates.erase call }

/-- `aml.transactions.clear`. -/
def clear (s : Register) (id : Nat) (tenantId : Int) : Register :=
  let cleared := s.setStatus (clearable id tenantId) .completed
  if s.rows.any (clearable id tenantId) then
    { cleared with
      clears :=
        ⟨id, s.beforeFlag id, (cleared.db.transaction? id).map Transaction.status⟩ :: s.clears }
  else s

def readReversal (s : Register) (txRef : String) (tenantId : Option Int) : Register :=
  match s.db.readReversible txRef tenantId with
  | none => s
  | some tx => { s with reversals := ⟨tx, txRef, tenantId⟩ :: s.reversals }

def writeReversal (s : Register) (call : ReversalCall) : Register :=
  let rest := s.reversals.erase call
  match s.db.reverse call.tx call.txRef call.tenantId s.payments.clock with
  | none => { s with reversals := rest }
  | some db =>
    { s.withDb db with
      reversals := rest
      moved := s.db.freshTransactionId :: s.moved }

end Register

inductive RegisterAction where
  | payment (action : Action)
  | createTransaction (input : NewTransaction) (score : Nat)
  | recordTransaction (input : NewTransaction) (score : Nat)
  | storeStablecoin (input : NewTransaction) (confirmed : Bool)
  | readUpdate (call : UpdateCall)
  | writeUpdate (call : UpdateCall)
  /-- `transactions.flag`, which asks for a review. -/
  | flagForReview (id : Nat) (tenantId : Option Int)
  /-- `aml.transactions.flag`. -/
  | flag (id : Nat) (tenantId : Int)
  | clear (id : Nat) (tenantId : Int)
  | readReversal (txRef : String) (tenantId : Option Int)
  | writeReversal (call : ReversalCall)

/-- The transactions whose payment an action has settled. -/
def Action.settles (db : Database) : Action → List Nat
  | .resolveCase transactionId _ _ .confirmedSettled =>
    (db.transactions.filter fun tx => tx.id == transactionId && tx.status == .completed).map
      Transaction.id
  | _ => []

def registerStep : Step Register RegisterAction
  | s, .payment action =>
    (paymentStep s.payments action).map fun payments =>
      { s with
        payments
        moved := action.settles payments.db ++ s.moved }
  | s, .createTransaction input score => some (s.createTransaction input score)
  | s, .recordTransaction input score => some (s.recordTransaction input score)
  | s, .storeStablecoin input confirmed => some (s.storeStablecoin input confirmed)
  | s, .readUpdate call => some (s.readUpdate call)
  | s, .writeUpdate call => if call ∈ s.updates then some (s.writeUpdate call) else none
  | s, .flagForReview id tenantId => some (s.setStatus (owned id tenantId) .underReview)
  | s, .flag id tenantId => some (s.setStatus (owned id (some tenantId)) .flagged)
  | s, .clear id tenantId => some (s.clear id tenantId)
  | s, .readReversal txRef tenantId => some (s.readReversal txRef tenantId)
  | s, .writeReversal call => if call ∈ s.reversals then some (s.writeReversal call) else none

/-- The steps of the register; a call that is turned down leaves it alone. -/
inductive RegisterTakes (s : Register) : RegisterAction → Register → Prop
  | payment {action : Action} {payments : System}
      (hstep : paymentStep s.payments action = some payments) :
      RegisterTakes s (.payment action)
        { s with
          payments
          moved := action.settles payments.db ++ s.moved }
  | created (input : NewTransaction) (score : Nat) :
      RegisterTakes s (.createTransaction input score)
        (s.insert input (if 100 ≤ score then .blocked else .pending) false)
  | notCreated (input : NewTransaction) (score : Nat) :
      RegisterTakes s (.createTransaction input score) s
  | recorded (input : NewTransaction) (score : Nat) :
      RegisterTakes s (.recordTransaction input score)
        (s.insert input (if 70 ≤ score then .flagged else .completed) true)
  | notRecorded (input : NewTransaction) (score : Nat) :
      RegisterTakes s (.recordTransaction input score) s
  | storeStablecoin (input : NewTransaction) (confirmed : Bool) :
      RegisterTakes s (.storeStablecoin input confirmed)
        (s.insert input (if confirmed then .completed else .pending) confirmed)
  | readUpdate (call : UpdateCall) (updates : List UpdateCall) :
      RegisterTakes s (.readUpdate call) { s with updates }
  | emptyUpdate {call : UpdateCall} (hstatus : call.status = none) (updates : List UpdateCall) :
      RegisterTakes s (.writeUpdate call) { s with updates }
  | updated {call : UpdateCall} {status : UpdateStatus} (hstatus : call.status = some status)
      (updates : List UpdateCall) :
      RegisterTakes s (.writeUpdate call)
        { s.setStatus (owned call.id call.tenantId) status.val with updates }
  | flagForReview (id : Nat) (tenantId : Option Int) :
      RegisterTakes s (.flagForReview id tenantId) (s.setStatus (owned id tenantId) .underReview)
  | flag (id : Nat) (tenantId : Int) :
      RegisterTakes s (.flag id tenantId) (s.setStatus (owned id (some tenantId)) .flagged)
  | cleared {id : Nat} {tenantId : Int} (hany : s.rows.any (clearable id tenantId))
      (clears : List Clear) :
      RegisterTakes s (.clear id tenantId)
        { s.setStatus (clearable id tenantId) .completed with clears }
  | notCleared (id : Nat) (tenantId : Int) : RegisterTakes s (.clear id tenantId) s
  | readReversal (txRef : String) (tenantId : Option Int) (reversals : List ReversalCall) :
      RegisterTakes s (.readReversal txRef tenantId) { s with reversals }
  | notReversed (call : ReversalCall) (reversals : List ReversalCall) :
      RegisterTakes s (.writeReversal call) { s with reversals }
  | reversed {call : ReversalCall} {db : Database}
      (hreverse : s.db.reverse call.tx call.txRef call.tenantId s.payments.clock = some db)
      (reversals : List ReversalCall) :
      RegisterTakes s (.writeReversal call)
        { s.withDb db with
          reversals
          moved := s.db.freshTransactionId :: s.moved }

theorem registerTakes_of_step {s t : Register} {action : RegisterAction}
    (h : registerStep s action = some t) : RegisterTakes s action t := by
  cases action with
  | payment action =>
    obtain ⟨payments, hstep, rfl⟩ := Option.map_eq_some_iff.mp h
    exact .payment hstep
  | createTransaction input score =>
    cases h
    unfold Register.createTransaction
    split
    next => exact .created input score
    next => exact .notCreated input score
  | recordTransaction input score =>
    cases h
    unfold Register.recordTransaction
    split
    next => exact .recorded input score
    next => exact .notRecorded input score
  | storeStablecoin input confirmed =>
    cases h
    exact .storeStablecoin input confirmed
  | readUpdate call =>
    cases h
    unfold Register.readUpdate
    split
    next => exact .readUpdate call _
    next => exact .readUpdate call s.updates
  | writeUpdate call =>
    simp only [registerStep] at h
    split at h
    next =>
      cases h
      cases hstatus : call.status with
      | none =>
        simp only [Register.writeUpdate, hstatus, Option.elim_none]
        exact .emptyUpdate hstatus _
      | some status =>
        simp only [Register.writeUpdate, hstatus, Option.elim_some]
        exact .updated hstatus _
    next => cases h
  | flagForReview id tenantId =>
    cases h
    exact .flagForReview id tenantId
  | flag id tenantId =>
    cases h
    exact .flag id tenantId
  | clear id tenantId =>
    cases h
    unfold Register.clear
    dsimp only
    split
    next hany => exact .cleared hany _
    next => exact .notCleared id tenantId
  | readReversal txRef tenantId =>
    cases h
    unfold Register.readReversal
    split
    next => exact .readReversal txRef tenantId s.reversals
    next => exact .readReversal txRef tenantId _
  | writeReversal call =>
    simp only [registerStep] at h
    split at h
    next =>
      cases h
      unfold Register.writeReversal
      dsimp only
      split
      next => exact .notReversed call _
      next db hreverse => exact .reversed hreverse _
    next => cases h

end Bis.Payments
