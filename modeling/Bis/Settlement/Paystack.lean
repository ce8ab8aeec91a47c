import Bis.TigerBeetle.Debit

/-!
Settlement of a Paystack payment. `settlePaystackPayment` checks the payment
intent in one transaction, asks the provider, posts the ledger credit and then
writes the intent and the top-up row in two more statements. A call is a process
with a phase; a run interleaves any number of calls for one provider reference
with the creation of its intent, other ledger traffic and the clock. A process
may crash between any two of its statements.

`Call.later` marks the calls that read the intent after the credit was posted;
it and the last three fields of the state are read by no operation. Instants are
milliseconds. Left out: the intent's identifier, purpose and customer, and the
access code.
-/

namespace Bis.Settlement

open Bis.Number Bis.TigerBeetle Bis.Transition

inductive IntentStatus where
  | initializing | pending | verified | credited | failed | cancelled
  deriving DecidableEq

/-- The row of `billing_payment_intents` with the reference. -/
structure PaymentIntent where
  tenantId : Int
  amountKobo : Nat
  currency : String
  status : IntentStatus
  expiresAt : Nat
  deriving DecidableEq

def PaymentIntent.settleable (intent : PaymentIntent) : Bool :=
  intent.status == .pending || intent.status == .verified

/-- The ledger account of the tenant the intent names. -/
def PaymentIntent.account (intent : PaymentIntent) : String :=
  tenantAccountId (toString intent.tenantId)

/-- The row of `billing_topups` with the reference. -/
structure BillingTopup where
  tenantId : String
  amountKobo : Nat
  (channel tbTransferId : String)

inductive ErrorCode where
  | notFound | preconditionFailed | serviceUnavailable | internalError
  deriving DecidableEq

inductive SettlementError where
  | intentNotFound | intentNotEligible | intentExpired | storedAmountInvalid
  | providerNotConfigured | providerUnreachable | providerBusy | providerRejected
  | providerNotJson | providerNotConfirmed | transactionNotConfirmed | transactionInvalid
  | transactionMismatch
  | ledgerNotConfigured | ledgerUnreachable | ledgerRejected
  | reconciliationRequired
  | topupAmountOutOfRange (amountKobo : Nat) | topupChannelTooLong
  deriving DecidableEq

/-- The code of the error; a plain error, as one of the database, has none of its own. -/
def SettlementError.code : SettlementError → ErrorCode
  | .intentNotFound => .notFound
  | .storedAmountInvalid | .topupAmountOutOfRange _ | .topupChannelTooLong => .internalError
  | .providerNotConfigured | .providerUnreachable | .providerBusy | .ledgerNotConfigured
  | .ledgerUnreachable | .ledgerRejected | .reconciliationRequired => .serviceUnavailable
  | .intentNotEligible | .intentExpired | .providerRejected | .providerNotJson
  | .providerNotConfirmed | .transactionNotConfirmed | .transactionInvalid
  | .transactionMismatch => .preconditionFailed

/-- The errors that turn the intent down, or its settlement. -/
def SettlementError.rejectsIntent : SettlementError → Bool
  | .intentNotFound | .intentNotEligible | .intentExpired | .storedAmountInvalid
  | .reconciliationRequired | .topupAmountOutOfRange _ | .topupChannelTooLong => true
  | _ => false

structure PaystackTransaction where
  status : String
  amount : Int
  (currency channel : Option String)
  reference : String

/-- What a verification request comes to. -/
inductive ProviderAnswer where
  | failed (error : SettlementError) (h : ¬ error.rejectsIntent)
  | transaction (transaction : PaystackTransaction)

/-- `verifiedPaystackTransaction` and the comparison with the intent that
follows it. -/
def verify (reference : String) (intent : PaymentIntent) :
    ProviderAnswer → Except SettlementError PaystackTransaction
  | .failed error _ => .error error
  | .transaction transaction =>
    if transaction.status ≠ "success" ∨ transaction.reference ≠ reference then
      .error .transactionNotConfirmed
    else if ¬ isSafeInteger transaction.amount ∨ transaction.amount ≤ 0 ∨
        transaction.currency ≠ some "NGN" then .error .transactionInvalid
    else if transaction.amount ≠ intent.amountKobo ∨
        transaction.currency ≠ some intent.currency then .error .transactionMismatch
    else .ok transaction

def topupTransferId (sha256 : List UInt8 → List UInt8) (reference : String) : String :=
  hexDigest32 sha256 ("bis:paystack-topup:v2:" ++ reference)

/-- `asAmount`. -/
def asAmount (value : Nat) : Except SettlementError Nat :=
  if isSafeInteger value ∧ 0 < value then .ok value else .error .storedAmountInvalid

/-- The columns of `billing_topups` take a 32-bit amount and a channel of 64
characters, spaces at its end apart. -/
def topupRefusal (amountKobo : Nat) (channel : String) : Option SettlementError :=
  if 2147483647 < amountKobo then some (.topupAmountOutOfRange amountKobo)
  else if (channel.toList.drop 64).all (· == ' ') then none
  else some .topupChannelTooLong

/-- What `settlePaystackPayment` returns. -/
structure Settled where
  transferId : String
  idempotent : Bool
  tenantId : Int
  amountKobo : Nat
  deriving DecidableEq

/-- The check of the intent; `none` lets the settlement go on. -/
def checkIntent (transferId : String) (now : Nat) :
    Option PaymentIntent → Except SettlementError (Option Settled)
  | none => .error .intentNotFound
  | some intent =>
    if intent.status = .credited then
      (asAmount intent.amountKobo).map fun amountKobo =>
        some { transferId, idempotent := true, tenantId := intent.tenantId, amountKobo }
    else if ¬ intent.settleable then .error .intentNotEligible
    else if intent.expiresAt < now then .error .intentExpired
    else .ok none

inductive Phase where
  | ready
  | verifying (intent : PaymentIntent)
  | ensuring (intent : PaymentIntent) (channel : String)
  | posting (intent : PaymentIntent) (channel : String)
  | completing (intent : PaymentIntent) (channel : String)
  | recording (intent : PaymentIntent) (channel : String)
  | over

structure Call where
  phase : Phase
  later : Bool

/-- How a call ended, with the intent and whether the top-up row was stored at
its end. -/
structure Ended where
  later : Bool
  result : Except SettlementError Settled
  intent : Option PaymentIntent
  recorded : Bool
  deriving DecidableEq

structure Payment where
  (reference transferId : String)
  intent : Option PaymentIntent
  topup : Option BillingTopup
  ledger : Ledger
  calls : Nat → Call
  clock : Nat
  /-- How often a posting of this reference was a new transfer. -/
  creditings : Nat
  /-- By how much these postings raised the posted credits of the intent's tenant. -/
  creditedKobo : Nat
  ended : List Ended

def intentTtlMs : Nat := 30 * 60 * 1000
def topupMinimumKobo : Nat := 10000

namespace Payment

def initial (sha256 : List UInt8 → List UInt8) (reference : String) : Payment :=
  { reference
    transferId := topupTransferId sha256 reference
    intent := none
    topup := none
    ledger := { account := fun _ => {}, posted := [] }
    calls := fun _ => ⟨.ready, false⟩
    clock := 0
    creditings := 0
    creditedKobo := 0
    ended := [] }

def posted (s : Payment) : Bool := s.ledger.posted.contains s.transferId

def recorded (s : Payment) : Bool := s.topup.any fun row => row.tbTransferId == s.transferId

def setCall (s : Payment) (id : Nat) (call : Call) : Payment :=
  { s with calls := Function.update s.calls id call }

def setPhase (s : Payment) (id : Nat) (phase : Phase) : Payment :=
  s.setCall id { s.calls id with phase }

def finish (s : Payment) (id : Nat) (later : Bool) (result : Except SettlementError Settled) :
    Payment :=
  { s.setCall id ⟨.over, later⟩ with ended := ⟨later, result, s.intent, s.recorded⟩ :: s.ended }

/-- `startPaystackTopup` up to the insert of the intent. -/
def start (s : Payment) (tenantId : Int) (amountKobo : Nat) : Payment :=
  if 0 < tenantId ∧ isSafeInteger amountKobo ∧ topupMinimumKobo ≤ amountKobo ∧ s.intent = none then
    { s with
      intent := some
        { tenantId
          amountKobo
          currency := "NGN"
          status := .initializing
          expiresAt := s.clock + intentTtlMs } }
  else s

/-- The update after the provider's answer to the initialization. -/
def initialized (s : Payment) (accepted : Bool) : Payment :=
  { s with
    intent := s.intent.map fun intent =>
      if intent.status = .initializing then
        { intent with status := if accepted then .pending else .failed }
      else intent }

def check (s : Payment) (id : Nat) : Payment :=
  match checkIntent s.transferId s.clock s.intent, s.intent with
  | .error error, _ => s.finish id s.posted (.error error)
  | .ok (some settled), _ => s.finish id s.posted (.ok settled)
  | .ok none, some intent => s.setCall id ⟨.verifying intent, s.posted⟩
  | .ok none, none => s

def transfer (s : Payment) (intent : PaymentIntent) : Transfer :=
  { id := s.transferId
    debitAccountId := accountRevenue
    creditAccountId := intent.account
    amount := intent.amountKobo }

/-- The ledger applies the transfer of a call. -/
def post (s : Payment) (intent : PaymentIntent) : Payment :=
  let ledger := s.ledger.post (s.transfer intent)
  let gained (row : PaymentIntent) : Nat :=
    (ledger.account row.account).creditsPosted - (s.ledger.account row.account).creditsPosted
  { s with
    ledger
    creditings := s.creditings + if s.posted then 0 else 1
    creditedKobo := s.creditedKobo + s.intent.elim 0 gained }

/-- The update of the intent; a second one finds no row to update. -/
def complete (s : Payment) (id : Nat) (intent : PaymentIntent) (channel : String) : Payment :=
  if s.intent.any PaymentIntent.settleable then
    { s.setPhase id (.recording intent channel) with
      intent := s.intent.map fun row => { row with status := .credited } }
  else s.finish id (s.calls id).later (.error .reconciliationRequired)

/-- The insert of the top-up row, which keeps a row that is there, and the
return. A row the table cannot hold is an error, whether one is there or not. -/
def record (s : Payment) (id : Nat) (intent : PaymentIntent) (channel : String) : Payment :=
  match topupRefusal intent.amountKobo channel with
  | some error => s.finish id (s.calls id).later (.error error)
  | none =>
    let row : BillingTopup := s.topup.getD
      { tenantId := toString intent.tenantId
        amountKobo := intent.amountKobo
        channel := String.ofList (channel.toList.take 64)
        tbTransferId := s.transferId }
    let stored := { s with topup := some { row with tbTransferId := s.transferId } }
    stored.finish id (s.calls id).later (.ok
      { transferId := s.transferId
        idempotent := false
        tenantId := intent.tenantId
        amountKobo := intent.amountKobo })

end Payment

/-- What a request to the ledger comes to. -/
inductive LedgerAnswer where
  | accepted | notConfigured | unreachable | rejected
  deriving DecidableEq

def LedgerAnswer.failure : LedgerAnswer → Option SettlementError
  | .accepted => none
  | .notConfigured => some .ledgerNotConfigured
  | .unreachable => some .ledgerUnreachable
  | .rejected => some .ledgerRejected

inductive SettlementAction where
  | start (tenantId : Int) (amountKobo : Nat)
  | initialized (accepted : Bool)
  | check (call : Nat)
  | verify (call : Nat) (answer : ProviderAnswer)
  | ensureAccounts (call : Nat) (answer : LedgerAnswer)
  /-- A posting that is not answered may have been applied. -/
  | post (call : Nat) (answer : LedgerAnswer) (applied : Bool)
  | complete (call : Nat)
  | record (call : Nat)
  | crash (call : Nat)
  | otherTransfer (transfer : Transfer)
  | tick (ms : Nat)

def settlementStep : Step Payment SettlementAction
  | s, .start tenantId amountKobo => some (s.start tenantId amountKobo)
  | s, .initialized accepted => some (s.initialized accepted)
  | s, .check id =>
    match (s.calls id).phase with
    | .ready => some (s.check id)
    | _ => none
  | s, .verify id answer =>
    match (s.calls id).phase with
    | .verifying intent =>
      match verify s.reference intent answer with
      | .error error => some (s.finish id (s.calls id).later (.error error))
      | .ok transaction =>
        some (s.setPhase id (.ensuring intent (transaction.channel.getD "paystack")))
    | _ => none
  | s, .ensureAccounts id answer =>
    match (s.calls id).phase with
    | .ensuring intent channel =>
      match answer.failure with
      | none => some (s.setPhase id (.posting intent channel))
      | some error => some (s.finish id (s.calls id).later (.error error))
    | _ => none
  | s, .post id answer applied =>
    match (s.calls id).phase with
    | .posting intent channel =>
      match answer.failure with
      | none => some ((s.post intent).setPhase id (.completing intent channel))
      | some error =>
        let sent := if applied && answer != .notConfigured then s.post intent else s
        some (sent.finish id (s.calls id).later (.error error))
    | _ => none
  | s, .complete id =>
    match (s.calls id).phase with
    | .completing intent channel => some (s.complete id intent channel)
    | _ => none
  | s, .record id =>
    match (s.calls id).phase with
    | .recording intent channel => some (s.record id intent channel)
    | _ => none
  | s, .crash id => some (s.setPhase id .over)
  | s, .otherTransfer transfer =>
    if transfer.id = s.transferId then none
    else some { s with ledger := s.ledger.post transfer }
  | s, .tick ms => some { s with clock := s.clock + ms }

/-- The steps of a payment, each with the phase its call was in. -/
inductive PaymentTakes (s : Payment) : SettlementAction → Payment → Prop
  | start (tenantId : Int) (amountKobo : Nat) :
      PaymentTakes s (.start tenantId amountKobo) (s.start tenantId amountKobo)
  | initialized (accepted : Bool) : PaymentTakes s (.initialized accepted) (s.initialized accepted)
  | check {id : Nat} (hphase : (s.calls id).phase = .ready) :
      PaymentTakes s (.check id) (s.check id)
  | verified {id : Nat} {intent : PaymentIntent} (hphase : (s.calls id).phase = .verifying intent)
      (answer : ProviderAnswer) (channel : String) :
      PaymentTakes s (.verify id answer) (s.setPhase id (.ensuring intent channel))
  | refused {id : Nat} {intent : PaymentIntent} {answer : ProviderAnswer} {error : SettlementError}
      (hphase : (s.calls id).phase = .verifying intent)
      (herror : verify s.reference intent answer = .error error) :
      PaymentTakes s (.verify id answer) (s.finish id (s.calls id).later (.error error))
  | ensured {id : Nat} {intent : PaymentIntent} {channel : String}
      (hphase : (s.calls id).phase = .ensuring intent channel) (answer : LedgerAnswer) :
      PaymentTakes s (.ensureAccounts id answer) (s.setPhase id (.posting intent channel))
  | notEnsured {id : Nat} {intent : PaymentIntent} {channel : String} {answer : LedgerAnswer}
      {error : SettlementError} (hphase : (s.calls id).phase = .ensuring intent channel)
      (herror : answer.failure = some error) :
      PaymentTakes s (.ensureAccounts id answer) (s.finish id (s.calls id).later (.error error))
  | posted {id : Nat} {intent : PaymentIntent} {channel : String}
      (hphase : (s.calls id).phase = .posting intent channel) (answer : LedgerAnswer)
      (applied : Bool) :
      PaymentTakes s (.post id answer applied)
        ((s.post intent).setPhase id (.completing intent channel))
  | unanswered {id : Nat} {intent : PaymentIntent} {channel : String} {answer : LedgerAnswer}
      {error : SettlementError} {sent : Payment}
      (hphase : (s.calls id).phase = .posting intent channel)
      (herror : answer.failure = some error) (hsent : sent = s.post intent ∨ sent = s)
      (applied : Bool) :
      PaymentTakes s (.post id answer applied) (sent.finish id (s.calls id).later (.error error))
  | complete {id : Nat} {intent : PaymentIntent} {channel : String}
      (hphase : (s.calls id).phase = .completing intent channel) :
      PaymentTakes s (.complete id) (s.complete id intent channel)
  | record {id : Nat} {intent : PaymentIntent} {channel : String}
      (hphase : (s.calls id).phase = .recording intent channel) :
      PaymentTakes s (.record id) (s.record id intent channel)
  | crash (id : Nat) : PaymentTakes s (.crash id) (s.setPhase id .over)
  | otherTransfer {transfer : Transfer} (hother : transfer.id ≠ s.transferId) :
      PaymentTakes s (.otherTransfer transfer) { s with ledger := s.ledger.post transfer }
  | tick (ms : Nat) : PaymentTakes s (.tick ms) { s with clock := s.clock + ms }

theorem paymentTakes_of_step {s t : Payment} {action : SettlementAction}
    (h : settlementStep s action = some t) : PaymentTakes s action t := by
  cases action with
  | start tenantId amountKobo =>
    cases h
    exact .start tenantId amountKobo
  | initialized accepted =>
    cases h
    exact .initialized accepted
  | check id =>
    simp only [settlementStep] at h
    split at h
    next hphase =>
      cases h
      exact .check hphase
    next => cases h
  | verify id answer =>
    simp only [settlementStep] at h
    split at h
    next intent hphase =>
      split at h
      next error herror =>
        cases h
        exact .refused hphase herror
      next =>
        cases h
        exact .verified hphase answer _
    next => cases h
  | ensureAccounts id answer =>
    simp only [settlementStep] at h
    split at h
    next intent channel hphase =>
      split at h
      next =>
        cases h
        exact .ensured hphase answer
      next error herror =>
        cases h
        exact .notEnsured hphase herror
    next => cases h
  | post id answer applied =>
    simp only [settlementStep] at h
    split at h
    next intent channel hphase =>
      split at h
      next =>
        cases h
        exact .posted hphase answer applied
      next error herror =>
        cases h
        exact .unanswered hphase herror (ite_eq_or_eq _ _ _) applied
    next => cases h
  | complete id =>
    simp only [settlementStep] at h
    split at h
    next intent channel hphase =>
      cases h
      exact .complete hphase
    next => cases h
  | record id =>
    simp only [settlementStep] at h
    split at h
    next intent channel hphase =>
      cases h
      exact .record hphase
    next => cases h
  | crash id =>
    cases h
    exact .crash id
  | otherTransfer transfer =>
    simp only [settlementStep] at h
    split at h
    next => cases h
    next hother =>
      cases h
      exact .otherTransfer hother
  | tick ms =>
    cases h
    exact .tick ms

end Bis.Settlement
