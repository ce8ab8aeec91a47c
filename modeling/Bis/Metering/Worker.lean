import Bis.TigerBeetle.Debit
import Mathlib.Data.List.Sort

/-!
Billing of an intelligence assessment, seen from one billing event: its row, its
reconciliation case, the tenant's prepaid entitlements, the ledger, and any
number of workers that process the event. A worker claims the event, tries a
prepaid unit, then the ledger debit, and writes the outcome; each is a separate
statement, and a worker may die or lose a database statement between any two of
them. Due cycles requeue leases that have gone stale, and the reconciliation desk
resolves cases.

What other events and tenants do is environment: it changes entitlements, posts
other transfers and lets time pass. What the account creation and the balance
check before a debit throw is an input. `units`, `debits` and `settledEver` are
read by no operation. Instants are milliseconds. Left out: the lease owner, which
nothing checks, the rows that only record a consumed unit, and the rationale and
evidence of a resolution.
-/

namespace Bis.Metering

open Bis.Number Bis.TigerBeetle Bis.Transition

inductive EventStatus where
  | pending | leased | settled | retryableFailure | paymentRequired | awaitingReconciliation
  | deadLetter | cancelled
  deriving DecidableEq

def EventStatus.terminal (status : EventStatus) : Bool :=
  status == .settled || status == .paymentRequired || status == .deadLetter || status == .cancelled

/-- The row of `intelligence_assessment_billing_events`. -/
structure BillingEvent where
  tenantId : Int
  (requestedBy amountKobo : Nat)
  status : EventStatus
  reservationId : Option Nat
  transferId : Option String
  (attemptCount availableAt : Nat)
  leasedAt : Option Nat
  lastErrorCode : Option String

inductive CaseStatus where
  | open | underReview | approvedRetry | confirmedSettled | confirmedNotSettled | cancelled
  deriving DecidableEq

/-- The row of `intelligence_assessment_billing_reconciliations` of the event. -/
structure Reconciliation where
  tenantId : Int
  transferId : String
  status : CaseStatus
  lastErrorCode : String
  requestedBy : Nat
  reviewedBy : Option Nat

def Reconciliation.isOpen (row : Reconciliation) : Bool :=
  row.status == .open || row.status == .underReview

/-- A row of `billing_entitlements`. -/
structure Entitlement where
  id : Nat
  tenantId : Int
  active : Bool
  (periodStart periodEnd totalUnits consumedUnits reservedUnits : Nat)

def maxAttempts : Nat := 10
def leaseTimeoutMs : Nat := 300 * 1000
def retryDelayMs : Nat := 5 * 60 * 1000

/-- The `WHERE` clause of the entitlement query. -/
def Entitlement.available (tenantId : Int) (now : Nat) (entitlement : Entitlement) : Bool :=
  entitlement.tenantId == tenantId && entitlement.active && decide (entitlement.periodStart ≤ now) &&
    decide (now < entitlement.periodEnd) &&
    decide (entitlement.consumedUnits + entitlement.reservedUnits < entitlement.totalUnits)

def endsFirst (a b : Entitlement) : Prop := a.periodEnd ≤ b.periodEnd

instance : DecidableRel endsFirst := fun _ _ => inferInstanceAs (Decidable (_ ≤ _))

/-- Whether a text contains another one. -/
def containsText (pattern text : String) : Bool :=
  text.toList.tails.any fun tail => pattern.toList.isPrefixOf tail

/-- The test `/unavailable|timeout|connection|reconciliation/i` on an error's
message. -/
def retryable (message : String) : Bool :=
  ["unavailable", "timeout", "connection", "reconciliation"].any fun word =>
    containsText word (message.map Char.toLower)

/-- A worker in the middle of `processIntelligenceAssessmentBillingEvent`, with
the row its claim returned. -/
inductive MeterWorker where
  | idle
  | reserving (event : BillingEvent)
  | charging (event : BillingEvent)
  | authorizing (event : BillingEvent)
  | posting (event : BillingEvent)
  | settling (event : BillingEvent)
  | failing (event : BillingEvent) (message : String)

def MeterWorker.busy : MeterWorker → Bool
  | .idle => false
  | _ => true

structure Billing where
  transferId : String
  event : BillingEvent
  reconciliation : Option Reconciliation
  entitlements : List Entitlement
  ledger : Ledger
  workers : Nat → MeterWorker
  clock : Nat
  /-- The prepaid units the event has consumed. -/
  units : Nat
  /-- How often a posting for the event was a new transfer. -/
  debits : Nat
  settledEver : Bool

/-- The answer of the reconciliation desk's caller: the reviewer and its tenant. -/
structure Reviewer where
  id : Nat
  tenantId : Option Int

inductive Resolution where
  /-- `evidence` is whether the ledger evidence was given. -/
  | confirmSettled (evidence : Bool)
  | confirmNotSettled
  | approveDeterministicRetry
  deriving DecidableEq

def Resolution.caseStatus : Resolution → CaseStatus
  | .confirmSettled _ => .confirmedSettled
  | .confirmNotSettled => .confirmedNotSettled
  | .approveDeterministicRetry => .approvedRetry

namespace Billing

/-- A new event of a tenant, as `enqueueUnmeteredIntelligenceAssessments`
inserts it. -/
def initial (sha256 : List UInt8 → List UInt8) (billingEventId : String) (tenantId : Int)
    (requestedBy amountKobo : Nat) (entitlements : List Entitlement) : Billing :=
  { transferId := intelligenceAssessmentTransferId sha256 billingEventId
    event :=
      { tenantId
        requestedBy
        amountKobo
        status := .pending
        reservationId := none
        transferId := none
        attemptCount := 0
        availableAt := 0
        leasedAt := none
        lastErrorCode := none }
    reconciliation := none
    entitlements
    ledger := { account := fun _ => {}, posted := [] }
    workers := fun _ => .idle
    clock := 0
    units := 0
    debits := 0
    settledEver := false }

def posted (s : Billing) : Bool := s.ledger.posted.contains s.transferId

def setWorker (s : Billing) (worker : Nat) (state : MeterWorker) : Billing :=
  { s with workers := Function.update s.workers worker state }

/-- An update of the event's row; it notes when the row becomes `settled`. -/
def setEvent (s : Billing) (event : BillingEvent) : Billing :=
  { s with
    event
    settledEver := s.settledEver || event.status == .settled }

def claimable (event : BillingEvent) : Bool :=
  (event.status == .pending || event.status == .retryableFailure) &&
    decide (event.attemptCount < maxAttempts)

/-- The claim; an event that is not claimable ends the call. -/
def claim (s : Billing) (worker : Nat) : Billing :=
  if claimable s.event then
    let event :=
      { s.event with
        status := .leased
        leasedAt := some s.clock
        attemptCount := s.event.attemptCount + 1 }
    (s.setEvent event).setWorker worker (.reserving event)
  else s

/-- The entitlement the reservation takes its unit from; `locked` are the rows
other transactions hold. -/
def entitlement? (s : Billing) (tenantId : Int) (locked : List Nat) : Option Entitlement :=
  ((s.entitlements.filter fun entitlement =>
    entitlement.available tenantId s.clock && !locked.contains entitlement.id).insertionSort
      endsFirst).head?

/-- `reserveAndConsumeEntitledUnit`. A reservation that is there already counts
as a success. -/
def reserve (s : Billing) (worker : Nat) (event : BillingEvent) (locked : List Nat)
    (reservationId : Nat) : Billing :=
  if s.event.reservationId.isSome then s.setWorker worker .idle
  else
    match s.entitlement? event.tenantId locked with
    | none => s.setWorker worker (.charging event)
    | some entitlement =>
      let consumed := s.entitlements.map fun row =>
        if row.id = entitlement.id then { row with consumedUnits := row.consumedUnits + 1 } else row
      let settled :=
        ({ s with entitlements := consumed, units := s.units + 1 } : Billing).setEvent
          { s.event with
            reservationId := some reservationId
            status := .settled }
      settled.setWorker worker .idle

/-- `amount` and the decision whether there is something to charge. -/
def charge (s : Billing) (worker : Nat) (event : BillingEvent) : Billing :=
  if ¬ isSafeInteger event.amountKobo then
    s.setWorker worker (.failing event "Invalid assessment meter amount")
  else if event.amountKobo = 0 then
    (s.setEvent
      { s.event with
        status := .paymentRequired
        lastErrorCode := some "no_entitlement" }).setWorker worker .idle
  else s.setWorker worker (.authorizing event)

/-- The checks before the debit. -/
def authorize (s : Billing) (worker : Nat) (event : BillingEvent) (error : Option String) :
    Billing :=
  if event.tenantId ≤ 0 then
    s.setWorker worker
      (.failing event "A valid tenant and positive NGN assessment charge are required")
  else
    match error with
    | some message => s.setWorker worker (.failing event message)
    | none => s.setWorker worker (.posting event)

def transfer (s : Billing) (event : BillingEvent) : Transfer :=
  { id := s.transferId
    debitAccountId := tenantAccountId (toString event.tenantId)
    creditAccountId := accountRevenue
    amount := event.amountKobo }

/-- The ledger applies the debit of a worker. -/
def post (s : Billing) (event : BillingEvent) : Billing :=
  { s with
    ledger := s.ledger.post (s.transfer event)
    debits := s.debits + if s.posted then 0 else 1 }

/-- The update after the debit. -/
def settle (s : Billing) (worker : Nat) (event : BillingEvent) : Billing :=
  if s.event.status = .leased then
    (s.setEvent
      { s.event with
        status := .settled
        transferId := some s.transferId
        lastErrorCode := none }).setWorker worker .idle
  else
    s.setWorker worker (.failing event
      "TigerBeetle transfer completed but assessment billing state requires reconciliation")

def errorCode (message : String) : String :=
  if retryable message then "ledger_unavailable" else "payment_or_integrity_failure"

/-- The transaction at the last attempt: the event waits for reconciliation if it
is still leased, and a case is opened unless the event has one. -/
def escalate (s : Billing) (event : BillingEvent) (code : String) : Billing :=
  let waiting :=
    if s.event.status = .leased then
      { s.event with
        status := .awaitingReconciliation
        transferId := some (s.event.transferId.getD s.transferId)
        lastErrorCode := some code }
    else s.event
  { s.setEvent waiting with
    reconciliation := some (s.reconciliation.getD
      { tenantId := event.tenantId
        transferId := s.transferId
        status := .open
        lastErrorCode := code
        requestedBy := event.requestedBy
        reviewedBy := none }) }

/-- The status write of the failure handler, which has no condition on the
status that is there. -/
def fail (s : Billing) (message : String) : Billing :=
  s.setEvent
    { s.event with
      status := if retryable message then .retryableFailure else .paymentRequired
      availableAt := if retryable message then s.clock + retryDelayMs else s.event.availableAt
      lastErrorCode := some (errorCode message) }

/-- The failure handler. -/
def handleFailure (s : Billing) (worker : Nat) (event : BillingEvent) (message : String) :
    Billing :=
  if retryable message && decide (maxAttempts ≤ event.attemptCount) then
    (s.escalate event (errorCode message)).setWorker worker .idle
  else (s.fail message).setWorker worker .idle

/-- The answer to a statement that went through is lost, and the worker sees an
error. -/
def lose (s : Billing) (worker : Nat) (event : BillingEvent) : Option String → Billing
  | none => s
  | some message => s.setWorker worker (.failing event message)

def stale (s : Billing) : Bool :=
  s.event.status == .leased && s.event.leasedAt.any fun at_ => decide (at_ + leaseTimeoutMs < s.clock)

/-- The requeue of stale leases at the start of a due cycle. -/
def recoverStale (s : Billing) : Billing :=
  if s.stale then
    s.setEvent
      { s.event with
        status := .retryableFailure
        leasedAt := none
        availableAt := s.clock }
  else s

/-! ### The reconciliation desk -/

def setCase (s : Billing) (row : Reconciliation) : Billing := { s with reconciliation := some row }

/-- `claim` of the desk; a conflict leaves the case as it is. -/
def claimCase (s : Billing) (reviewer : Reviewer) : Billing :=
  match s.reconciliation with
  | none => s
  | some row =>
    if row.tenantId = s.event.tenantId ∧ row.status = .open ∧ row.requestedBy ≠ reviewer.id ∧
        reviewer.tenantId.all (· == row.tenantId) then
      s.setCase
        { row with
          status := .underReview
          reviewedBy := some reviewer.id }
    else s

def resolvable (row : Reconciliation) (reviewer : Reviewer) : Bool :=
  row.isOpen && row.requestedBy != reviewer.id && reviewer.tenantId.all (· == row.tenantId)

/-- What a resolution does to an event that waits for it. -/
def resolved (s : Billing) : Resolution → BillingEvent
  | .confirmSettled _ =>
    { s.event with
      status := .settled
      lastErrorCode := none }
  | .confirmNotSettled => s.event
  | .approveDeterministicRetry =>
    { s.event with
      status := .retryableFailure
      attemptCount := 0
      availableAt := s.clock
      leasedAt := none
      lastErrorCode := some "human_approved_deterministic_retry" }

/-- The resolutions `confirmSettled`, `confirmNotSettled` and
`approveDeterministicRetry`; a conflict leaves everything as it is. -/
def resolve (s : Billing) (reviewer : Reviewer) (resolution : Resolution) : Billing :=
  match s.reconciliation with
  | none => s
  | some row =>
    if resolution = .confirmSettled false then s
    else if resolvable row reviewer then
      let event := if s.event.status = .awaitingReconciliation then s.resolved resolution else s.event
      (s.setEvent event).setCase
        { row with
          status := resolution.caseStatus
          reviewedBy := some reviewer.id }
    else s

end Billing

inductive MeterAction where
  | claim (worker : Nat)
  | reserve (worker : Nat) (locked : List Nat) (reservationId : Nat) (lost : Option String)
  | charge (worker : Nat) (lost : Option String)
  | authorize (worker : Nat) (error : Option String)
  /-- `error` is what a posting throws that is not confirmed; it may have been
  applied all the same. -/
  | post (worker : Nat) (error : Option String) (applied : Bool)
  | settle (worker : Nat) (lost : Option String)
  /-- A database statement of the worker fails and is not applied. -/
  | databaseError (worker : Nat) (message : String)
  | handleFailure (worker : Nat)
  | crash (worker : Nat)
  | recoverStale
  | claimCase (reviewer : Reviewer)
  | resolve (reviewer : Reviewer) (resolution : Resolution)
  | entitlementsChanged (entitlements : List Entitlement)
  | otherTransfer (transfer : Transfer)
  | tick (ms : Nat)

def meterStep : Step Billing MeterAction
  | s, .claim worker =>
    match s.workers worker with
    | .idle => some (s.claim worker)
    | _ => none
  | s, .reserve worker locked reservationId lost =>
    match s.workers worker with
    | .reserving event =>
      some ((s.reserve worker event locked reservationId).lose worker event lost)
    | _ => none
  | s, .charge worker lost =>
    match s.workers worker with
    | .charging event => some ((s.charge worker event).lose worker event lost)
    | _ => none
  | s, .authorize worker error =>
    match s.workers worker with
    | .authorizing event => some (s.authorize worker event error)
    | _ => none
  | s, .post worker error applied =>
    match s.workers worker with
    | .posting event =>
      match error with
      | none => some ((s.post event).setWorker worker (.settling event))
      | some message =>
        some ((if applied then s.post event else s).setWorker worker (.failing event message))
    | _ => none
  | s, .settle worker lost =>
    match s.workers worker with
    | .settling event => some ((s.settle worker event).lose worker event lost)
    | _ => none
  | s, .databaseError worker message =>
    match s.workers worker with
    | .reserving event | .charging event | .settling event =>
      some (s.setWorker worker (.failing event message))
    | _ => none
  | s, .handleFailure worker =>
    match s.workers worker with
    | .failing event message => some (s.handleFailure worker event message)
    | _ => none
  | s, .crash worker => some (s.setWorker worker .idle)
  | s, .recoverStale => some s.recoverStale
  | s, .claimCase reviewer => some (s.claimCase reviewer)
  | s, .resolve reviewer resolution => some (s.resolve reviewer resolution)
  | s, .entitlementsChanged entitlements => some { s with entitlements }
  | s, .otherTransfer transfer =>
    if transfer.id = s.transferId then none
    else some { s with ledger := s.ledger.post transfer }
  | s, .tick ms => some { s with clock := s.clock + ms }

/-- What a step can be, with the worker it needs. -/
inductive Takes (s : Billing) : MeterAction → Billing → Prop
  | claim {worker : Nat} (hworker : s.workers worker = .idle) :
      Takes s (.claim worker) (s.claim worker)
  | reserve {worker : Nat} {event : BillingEvent} (hworker : s.workers worker = .reserving event)
      (locked : List Nat) (reservationId : Nat) (lost : Option String) :
      Takes s (.reserve worker locked reservationId lost)
        ((s.reserve worker event locked reservationId).lose worker event lost)
  | charge {worker : Nat} {event : BillingEvent} (hworker : s.workers worker = .charging event)
      (lost : Option String) :
      Takes s (.charge worker lost) ((s.charge worker event).lose worker event lost)
  | authorize {worker : Nat} {event : BillingEvent}
      (hworker : s.workers worker = .authorizing event) (error : Option String) :
      Takes s (.authorize worker error) (s.authorize worker event error)
  | post {worker : Nat} {event : BillingEvent} (hworker : s.workers worker = .posting event)
      (applied : Bool) :
      Takes s (.post worker none applied) ((s.post event).setWorker worker (.settling event))
  | postFailed {worker : Nat} {event : BillingEvent} (hworker : s.workers worker = .posting event)
      (message : String) (applied : Bool) :
      Takes s (.post worker (some message) applied)
        ((if applied then s.post event else s).setWorker worker (.failing event message))
  | settle {worker : Nat} {event : BillingEvent} (hworker : s.workers worker = .settling event)
      (lost : Option String) :
      Takes s (.settle worker lost) ((s.settle worker event).lose worker event lost)
  | databaseError {worker : Nat} (hbusy : (s.workers worker).busy) (event : BillingEvent)
      (message : String) :
      Takes s (.databaseError worker message) (s.setWorker worker (.failing event message))
  | handleFailure {worker : Nat} {event : BillingEvent} {message : String}
      (hworker : s.workers worker = .failing event message) :
      Takes s (.handleFailure worker) (s.handleFailure worker event message)
  | crash (worker : Nat) : Takes s (.crash worker) (s.setWorker worker .idle)
  | recoverStale : Takes s .recoverStale s.recoverStale
  | claimCase (reviewer : Reviewer) : Takes s (.claimCase reviewer) (s.claimCase reviewer)
  | resolve (reviewer : Reviewer) (resolution : Resolution) :
      Takes s (.resolve reviewer resolution) (s.resolve reviewer resolution)
  | entitlementsChanged (entitlements : List Entitlement) :
      Takes s (.entitlementsChanged entitlements) { s with entitlements }
  | otherTransfer {transfer : Transfer} (hother : transfer.id ≠ s.transferId) :
      Takes s (.otherTransfer transfer) { s with ledger := s.ledger.post transfer }
  | tick (ms : Nat) : Takes s (.tick ms) { s with clock := s.clock + ms }

theorem takes_of_step {s t : Billing} {action : MeterAction} (h : meterStep s action = some t) :
    Takes s action t := by
  cases action with
  | claim worker =>
    simp only [meterStep] at h
    split at h
    next hworker =>
      cases h
      exact .claim hworker
    next => cases h
  | reserve worker locked reservationId lost =>
    simp only [meterStep] at h
    split at h
    next event hworker =>
      cases h
      exact .reserve hworker locked reservationId lost
    next => cases h
  | charge worker lost =>
    simp only [meterStep] at h
    split at h
    next event hworker =>
      cases h
      exact .charge hworker lost
    next => cases h
  | authorize worker error =>
    simp only [meterStep] at h
    split at h
    next event hworker =>
      cases h
      exact .authorize hworker error
    next => cases h
  | post worker error applied =>
    simp only [meterStep] at h
    split at h
    next event hworker =>
      cases error with
      | none =>
        cases h
        exact .post hworker applied
      | some message =>
        cases h
        exact .postFailed hworker message applied
    next => cases h
  | settle worker lost =>
    simp only [meterStep] at h
    split at h
    next event hworker =>
      cases h
      exact .settle hworker lost
    next => cases h
  | databaseError worker message =>
    simp only [meterStep] at h
    split at h
    next event hworker =>
      cases h
      exact .databaseError (by rw [hworker]; rfl) event message
    next event hworker =>
      cases h
      exact .databaseError (by rw [hworker]; rfl) event message
    next event hworker =>
      cases h
      exact .databaseError (by rw [hworker]; rfl) event message
    next => cases h
  | handleFailure worker =>
    simp only [meterStep] at h
    split at h
    next event message hworker =>
      cases h
      exact .handleFailure hworker
    next => cases h
  | crash worker =>
    cases h
    exact .crash worker
  | recoverStale =>
    cases h
    exact .recoverStale
  | claimCase reviewer =>
    cases h
    exact .claimCase reviewer
  | resolve reviewer resolution =>
    cases h
    exact .resolve reviewer resolution
  | entitlementsChanged entitlements =>
    cases h
    exact .entitlementsChanged entitlements
  | otherTransfer transfer =>
    simp only [meterStep] at h
    split at h
    next => cases h
    next hother =>
      cases h
      exact .otherTransfer hother
  | tick ms =>
    cases h
    exact .tick ms

end Bis.Metering
