import Bis.TigerBeetle.Debit

/-!
The claim row of `recordDebit`. A call claims the transfer id, makes sure of the
ledger accounts, reads the balance, posts the transfer and marks the claim, each a
step of its own, and any of them can fail or be the last before a crash. Any number
of calls are under way. The circuit breaker may send a posting again under the same
id, which the ledger ignores.
-/

namespace Bis.TigerBeetle.DebitClaim

open Bis.Transition

/-- A row of `tigerbeetle_transfers` under its transfer id. -/
structure ClaimRow where
  tenantId : Option Int
  reconciled : Bool

/-- What a call that has made the claim does next. -/
inductive Stage where
  | ensureLedgerAccounts
  | readBalance
  | createTransfer
  | release (error : LedgerError)

inductive Reply where
  | recorded (idempotent : Bool)
  | pendingReconciliation
  | conflict (message : String)
  | refused (error : LedgerError)
  /-- The process has died. -/
  | lost

inductive Phase where
  | idle
  | recovering (transferId : String)
  | holding (input : RecordDebitInput) (transfer : Transfer) (stage : Stage)
  | marking (transferId : String)
  | finished (reply : Reply)

/-- The transfer a call holds the claim of. -/
def Phase.held : Phase → Option String
  | .holding _ transfer _ => some transfer.id
  | _ => none

structure State where
  claims : String → Option ClaimRow
  posts : List String
  calls : Nat → Phase

inductive Label where
  | request (call : Nat) (input : RecordDebitInput)
  | recover (call : Nat)
  | ensureLedgerAccounts (call : Nat)
  | readBalance (call : Nat) (account : TbAccount)
  | release (call : Nat)
  | createTransfer (call : Nat)
  | markReconciled (call : Nat)
  /-- A remote call or a statement fails, or the process dies. -/
  | fail (call : Nat) (reply : Reply)

namespace State

def start : State := ⟨fun _ => none, [], fun _ => .idle⟩

def setCall (s : State) (call : Nat) (phase : Phase) : State :=
  { s with calls := Function.update s.calls call phase }

def setClaim (s : State) (transferId : String) (row : Option ClaimRow) : State :=
  { s with claims := Function.update s.claims transferId row }

/-- `onConflictDoNothing`. -/
def claim (s : State) (call : Nat) (input : RecordDebitInput) (transfer : Transfer) : State :=
  match s.claims transfer.id with
  | some _ => s.setCall call (.recovering transfer.id)
  | none =>
    (s.setClaim transfer.id (some ⟨input.contextTenantId, false⟩)).setCall call
      (.holding input transfer .ensureLedgerAccounts)

/-- What a call that found a claim answers. -/
def recovered (s : State) (transferId : String) : Reply :=
  match s.claims transferId with
  | none => .conflict "Ledger debit claim could not be recovered"
  | some row => if row.reconciled then .recorded true else .pendingReconciliation

/-- The stage after the balance was read. -/
def checked (s : State) (call : Nat) (input : RecordDebitInput) (transfer : Transfer)
    (account : TbAccount) : State :=
  match assertSufficientLedgerBalance input.tenantId transfer.amount account with
  | .ok _ => s.setCall call (.holding input transfer .createTransfer)
  | .error error =>
    match error with
    | .insufficientFunds _ _ _ => s.setCall call (.holding input transfer (.release error))
    | _ => s.setCall call (.finished (.refused error))

/-- The claim is deleted where its tenant equals that of the context, which is never
so for a null. -/
def deleteClaim (s : State) (transferId : String) (contextTenantId : Option Int) : State :=
  match s.claims transferId, contextTenantId with
  | some row, some tenantId =>
    if row.tenantId = some tenantId then s.setClaim transferId none else s
  | _, _ => s

/-- The update of the claim, and the answer to the number of rows it has changed. -/
def marked (s : State) (call : Nat) (transferId : String) : State :=
  match s.claims transferId with
  | some row =>
    (s.setClaim transferId (some { row with reconciled := true })).setCall call
      (.finished (.recorded false))
  | none =>
    s.setCall call (.finished (.refused (.serviceUnavailable
      "Ledger debit was accepted but reconciliation state requires operator recovery")))

end State

open State

variable (sha256 : List UInt8 → List UInt8)

/-- The checks on the input, and the transfer it stands for. -/
def prepared (input : RecordDebitInput) : Except LedgerError Transfer :=
  (DebitRoute.recordDebit input).prepare sha256

def recordDebit : Step State Label
  | s, .request call input =>
    match s.calls call, prepared sha256 input with
    | .idle, .ok transfer => some (s.claim call input transfer)
    | .idle, .error error => some (s.setCall call (.finished (.refused error)))
    | _, _ => none
  | s, .recover call =>
    match s.calls call with
    | .recovering transferId => some (s.setCall call (.finished (s.recovered transferId)))
    | _ => none
  | s, .ensureLedgerAccounts call =>
    match s.calls call with
    | .holding input transfer .ensureLedgerAccounts =>
      some (s.setCall call (.holding input transfer .readBalance))
    | _ => none
  | s, .readBalance call account =>
    match s.calls call with
    | .holding input transfer .readBalance => some (s.checked call input transfer account)
    | _ => none
  | s, .release call =>
    match s.calls call with
    | .holding input transfer (.release error) =>
      some ((s.deleteClaim transfer.id input.contextTenantId).setCall call
        (.finished (.refused error)))
    | _ => none
  | s, .createTransfer call =>
    match s.calls call with
    | .holding _ transfer .createTransfer =>
      some ({ s with posts := transfer.id :: s.posts }.setCall call (.marking transfer.id))
    | _ => none
  | s, .markReconciled call =>
    match s.calls call with
    | .marking transferId => some (s.marked call transferId)
    | _ => none
  | s, .fail call reply =>
    match s.calls call with
    | .idle => none
    | .finished _ => none
    | _ => some (s.setCall call (.finished reply))

/-! ### What is promised -/

/-- The account of the test, with money for every tier. -/
def fundedAccount : TbAccount := { creditsPosted := 10000000 }

/-- A call that nothing goes wrong in, up to the posting. -/
def retry (call : Nat) (input : RecordDebitInput) : List Label :=
  [.request call input, .ensureLedgerAccounts call, .readBalance call fundedAccount,
    .createTransfer call]

/-- Where no transfer was posted and no call still holds the claim, a retry charges the
investigation. -/
def Chargeable (s : State) : Prop :=
  ∀ input transfer, prepared sha256 input = .ok transfer → transfer.id ∉ s.posts →
    (∀ call, (s.calls call).held ≠ some transfer.id) → ∀ call, s.calls call = .idle →
      ∃ t, run (recordDebit sha256) s (retry call input) = some t ∧ transfer.id ∈ t.posts

/-- No transfer is lost to a claim, and none is posted twice. -/
def Lawful (s : State) : Prop := Chargeable sha256 s ∧ s.posts.Nodup

/-- A call that made the claim goes on to the posting, or is refused for want of money
under the context of a tenant. -/
def Released (s : State) : Label → Prop
  | .readBalance _ account => ∃ available, getTenantAvailableBalanceKobo account = .ok available
  | .release call => ∀ input transfer stage, s.calls call = .holding input transfer stage →
      input.contextTenantId ≠ none
  | .fail call _ => (s.calls call).held = none
  | _ => True

end Bis.TigerBeetle.DebitClaim
