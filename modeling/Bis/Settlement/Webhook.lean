import Bis.Relation.Table
import Bis.Settlement.Paystack
import Mathlib.Data.List.Sort

/-!
The durable store of Paystack webhook events. An event is recorded once for its
payload, claimed for an attempt in one transaction, settled, and given its final
status in another statement. A worker goes through the events it has selected
one by one; it may die between any two statements, and an error ends its cycle.

The database plans a statement before it runs it and refuses one whose parameters
have no certain type. Two statements of the store are of that kind: the one that
minimises a new event's payload, with which the insert before it is rolled back,
and the one that writes a failure.

What the settlement of an event comes to is an input. `processedEver` is read by
no operation. Left out: the stored payload and the times of the last error and
of the processing.
-/

namespace Bis.Settlement

open Bis.Relation Bis.Transition

inductive WebhookStatus where
  | received | processing | processed | retryableFailure | terminalFailure
  deriving DecidableEq

/-- A row of `payment_webhook_events`. -/
structure WebhookEvent where
  id : Nat
  eventType : String
  providerReference : Option String
  payloadSha256 : String
  receivedAt : Nat
  status : WebhookStatus
  attemptCount : Nat
  nextAttemptAt : Option Nat
  lastErrorCode : Option String

def maxWebhookAttempts : Nat := 10
def retryDelayMs : Nat := 5 * 60 * 1000

/-- Settled for good, one way or the other. -/
def WebhookStatus.terminal (status : WebhookStatus) : Bool :=
  status == .processed || status == .terminalFailure

/-- The `WHERE` clause of `processDuePaystackWebhooks`. -/
def WebhookEvent.due (now : Nat) (event : WebhookEvent) : Bool :=
  (event.status == .received || event.status == .retryableFailure) &&
    event.nextAttemptAt.all fun at_ => decide (at_ ≤ now)

/-- Only these events have a payment to settle. -/
def WebhookEvent.settles (eventType : String) (reference : Option String) : Bool :=
  eventType == "charge.success" && reference.any fun text => text != ""

def ErrorCode.text : ErrorCode → String
  | .notFound => "NOT_FOUND"
  | .preconditionFailed => "PRECONDITION_FAILED"
  | .serviceUnavailable => "SERVICE_UNAVAILABLE"
  | .internalError => "internal_error"

/-- The types that the places a parameter stands in can say. -/
inductive SqlType where
  | uuid | varchar | text
  deriving DecidableEq

/-- Whether a statement can be planned. Each parameter is given by the places it
stands in: the first one says the type and the others say the same. `none` is the
place of an argument that may have any type. -/
def planned (parameters : List (List (Option SqlType))) : Bool :=
  parameters.all fun places =>
    match places with
    | some type :: others => others.all (· == some type)
    | _ => false

/-- `SET payload = jsonb_build_object('event', $2, 'reference', $3) WHERE id = $1`. -/
def minimisePayload : List (List (Option SqlType)) := [[some .uuid], [none], [none]]

/-- `SET status = $2, next_attempt_at = CASE WHEN $2 = 'retryable_failure' …,
last_error_code = $3 WHERE id = $1`; the comparison is one of texts. -/
def storeFailure : List (List (Option SqlType)) :=
  [[some .uuid], [some .varchar, some .text], [some .varchar]]

/-- The length of a string in UTF-16 code units. -/
def utf16Length (text : String) : Nat :=
  (text.toList.map fun c => if c.toNat < 0x10000 then 1 else 2).sum

/-- A worker, with the events it has still to go through. -/
inductive WebhookWorker where
  | idle
  | looping (ids : List Nat)
  | settling (id : Nat) (eventType : String) (reference : Option String) (rest : List Nat)
  | settled (id : Nat) (rest : List Nat)
  | failed (id : Nat) (code : ErrorCode) (rest : List Nat)

/-- The event a worker has claimed and not yet given a final status. -/
def WebhookWorker.held : WebhookWorker → Option Nat
  | .idle | .looping _ => none
  | .settling id _ _ _ | .settled id _ | .failed id _ _ => some id

structure WebhookStore where
  events : List WebhookEvent
  workers : Nat → WebhookWorker
  clock : Nat
  /-- The events that have been `processed` at some time. -/
  processedEver : List Nat

namespace WebhookStore

/-- A table of events with no worker at work on it. -/
def holding (events : List WebhookEvent) : WebhookStore :=
  { events
    workers := fun _ => .idle
    clock := 0
    processedEver := (events.filter fun event => event.status == .processed).map WebhookEvent.id }

def initial : WebhookStore := holding []

def setWorker (s : WebhookStore) (worker : Nat) (state : WebhookWorker) : WebhookStore :=
  { s with workers := Function.update s.workers worker state }

/-- `UPDATE payment_webhook_events SET f WHERE id`. -/
def update (s : WebhookStore) (id : Nat) (f : WebhookEvent → WebhookEvent) : WebhookStore :=
  { s with events := updateWhere (fun event => event.id == id) f s.events }

def freshId (s : WebhookStore) : Nat := (s.events.map WebhookEvent.id).foldr max 0 + 1

/-- `recordPaystackWebhook`; a payload that is stored already is a duplicate. The
insert and the statement that minimises the payload are one transaction. -/
def record (s : WebhookStore) (payloadSha256 : String) (eventType reference : Option String) :
    WebhookStore :=
  match eventType.filter fun text => text != "" && utf16Length text ≤ 80 with
  | none => s
  | some eventType =>
    if s.events.any fun event => event.payloadSha256 == payloadSha256 then s
    else if planned minimisePayload then
      { s with
        events := s.events ++
          [{ id := s.freshId
             eventType
             providerReference := reference.filter fun text => utf16Length text ≤ 160
             payloadSha256
             receivedAt := s.clock
             status := .received
             attemptCount := 0
             nextAttemptAt := none
             lastErrorCode := none }] }
    else s

def receivedOrder (a b : WebhookEvent) : Prop := a.receivedAt ≤ b.receivedAt

instance : DecidableRel receivedOrder := fun _ _ => inferInstanceAs (Decidable (_ ≤ _))

/-- The events a cycle selects; `locked` are the rows other transactions hold. -/
def selectDue (s : WebhookStore) (limit : Nat) (locked : List Nat) : List Nat :=
  (((s.events.filter fun event => event.due s.clock && !locked.contains event.id).insertionSort
    receivedOrder).take (max 1 (min limit 100))).map WebhookEvent.id

/-- The claim of an event, the first transaction of
`processPaystackWebhookEvent`; a missing event is an error and ends the cycle. -/
def claim (s : WebhookStore) (worker id : Nat) (rest : List Nat) : WebhookStore :=
  match s.events.find? fun event => event.id == id with
  | none => s.setWorker worker .idle
  | some event =>
    if event.status = .processed then s.setWorker worker (.looping rest)
    else if maxWebhookAttempts ≤ event.attemptCount then
      (s.update id fun row =>
        { row with
          status := .terminalFailure
          lastErrorCode := some "max_attempts" }).setWorker worker (.looping rest)
    else
      (s.update id fun row =>
        { row with
          status := .processing
          attemptCount := row.attemptCount + 1 }).setWorker worker
        (.settling id event.eventType event.providerReference rest)

def markProcessed (s : WebhookStore) (id : Nat) : WebhookStore :=
  { s.update id fun row => { row with status := .processed, lastErrorCode := none } with
    processedEver := id :: s.processedEver }

/-- The write of a failed attempt; `none` is an error of the statement itself. -/
def markFailed (s : WebhookStore) (id : Nat) (code : ErrorCode) : Option WebhookStore :=
  if planned storeFailure then
    some (s.update id fun row =>
      { row with
        status := if code = .serviceUnavailable then .retryableFailure else .terminalFailure
        nextAttemptAt := if code = .serviceUnavailable then some (s.clock + retryDelayMs) else none
        lastErrorCode := some code.text })
  else none

theorem record_eq (s : WebhookStore) (payloadSha256 : String) (eventType reference : Option String) :
    s.record payloadSha256 eventType reference = s := by
  have hrefused : planned minimisePayload = false := rfl
  unfold record
  rw [hrefused]
  split
  · rfl
  · simp

end WebhookStore

inductive WebhookAction where
  | record (payloadSha256 : String) (eventType reference : Option String)
  | selectDue (worker limit : Nat) (locked : List Nat)
  /-- A call of `processPaystackWebhookEvent` outside a cycle. -/
  | process (worker id : Nat)
  | claim (worker : Nat)
  /-- `error` is what the settlement of the payment throws. -/
  | settle (worker : Nat) (error : Option SettlementError)
  | markProcessed (worker : Nat) (stored : Bool)
  | markFailed (worker : Nat)
  | finish (worker : Nat)
  | crash (worker : Nat)
  | tick (ms : Nat)

def webhookStep : Step WebhookStore WebhookAction
  | s, .record payloadSha256 eventType reference => some (s.record payloadSha256 eventType reference)
  | s, .selectDue worker limit locked =>
    match s.workers worker with
    | .idle => some (s.setWorker worker (.looping (s.selectDue limit locked)))
    | _ => none
  | s, .process worker id =>
    match s.workers worker with
    | .idle => some (s.setWorker worker (.looping [id]))
    | _ => none
  | s, .claim worker =>
    match s.workers worker with
    | .looping (id :: rest) => some (s.claim worker id rest)
    | _ => none
  | s, .settle worker error =>
    match s.workers worker with
    | .settling id eventType reference rest =>
      match error with
      | none => some (s.setWorker worker (.settled id rest))
      | some error =>
        if WebhookEvent.settles eventType reference then
          some (s.setWorker worker (.failed id error.code rest))
        else none
    | _ => none
  | s, .markProcessed worker stored =>
    match s.workers worker with
    | .settled id rest =>
      if stored then some ((s.markProcessed id).setWorker worker (.looping rest))
      else some (s.setWorker worker (.failed id .internalError rest))
    | _ => none
  | s, .markFailed worker =>
    match s.workers worker with
    | .failed id code rest =>
      match s.markFailed id code with
      | none => some (s.setWorker worker .idle)
      | some t =>
        some (t.setWorker worker (if code = .serviceUnavailable then .idle else .looping rest))
    | _ => none
  | s, .finish worker =>
    match s.workers worker with
    | .looping [] => some (s.setWorker worker .idle)
    | _ => none
  | s, .crash worker => some (s.setWorker worker .idle)
  | s, .tick ms => some { s with clock := s.clock + ms }

/-- The steps of the store, each with what its worker was doing. No delivery is
stored, and a failed settlement leaves its event as it is. -/
inductive WebhookTakes (s : WebhookStore) : WebhookAction → WebhookStore → Prop
  | record (payloadSha256 : String) (eventType reference : Option String) :
      WebhookTakes s (.record payloadSha256 eventType reference) s
  | selectDue {worker : Nat} (hworker : s.workers worker = .idle) (limit : Nat)
      (locked : List Nat) :
      WebhookTakes s (.selectDue worker limit locked)
        (s.setWorker worker (.looping (s.selectDue limit locked)))
  | process {worker : Nat} (hworker : s.workers worker = .idle) (id : Nat) :
      WebhookTakes s (.process worker id) (s.setWorker worker (.looping [id]))
  | claim {worker id : Nat} {rest : List Nat} (hworker : s.workers worker = .looping (id :: rest)) :
      WebhookTakes s (.claim worker) (s.claim worker id rest)
  | settled {worker id : Nat} {eventType : String} {reference : Option String} {rest : List Nat}
      (hworker : s.workers worker = .settling id eventType reference rest) :
      WebhookTakes s (.settle worker none) (s.setWorker worker (.settled id rest))
  | failed {worker id : Nat} {eventType : String} {reference : Option String} {rest : List Nat}
      (hworker : s.workers worker = .settling id eventType reference rest)
      (error : SettlementError) :
      WebhookTakes s (.settle worker (some error))
        (s.setWorker worker (.failed id error.code rest))
  | stored {worker id : Nat} {rest : List Nat} (hworker : s.workers worker = .settled id rest) :
      WebhookTakes s (.markProcessed worker true)
        ((s.markProcessed id).setWorker worker (.looping rest))
  | notStored {worker id : Nat} {rest : List Nat} (hworker : s.workers worker = .settled id rest) :
      WebhookTakes s (.markProcessed worker false)
        (s.setWorker worker (.failed id .internalError rest))
  | markFailed {worker id : Nat} {code : ErrorCode} {rest : List Nat}
      (hworker : s.workers worker = .failed id code rest) :
      WebhookTakes s (.markFailed worker) (s.setWorker worker .idle)
  | finish {worker : Nat} (hworker : s.workers worker = .looping []) :
      WebhookTakes s (.finish worker) (s.setWorker worker .idle)
  | crash (worker : Nat) : WebhookTakes s (.crash worker) (s.setWorker worker .idle)
  | tick (ms : Nat) : WebhookTakes s (.tick ms) { s with clock := s.clock + ms }

theorem webhookTakes_of_step {s t : WebhookStore} {action : WebhookAction}
    (h : webhookStep s action = some t) : WebhookTakes s action t := by
  cases action with
  | record payloadSha256 eventType reference =>
    simp only [webhookStep, WebhookStore.record_eq, Option.some.injEq] at h
    exact h ▸ .record payloadSha256 eventType reference
  | selectDue worker limit locked =>
    simp only [webhookStep] at h
    split at h
    next hworker =>
      cases h
      exact .selectDue hworker limit locked
    next => cases h
  | process worker id =>
    simp only [webhookStep] at h
    split at h
    next hworker =>
      cases h
      exact .process hworker id
    next => cases h
  | claim worker =>
    simp only [webhookStep] at h
    split at h
    next hworker =>
      cases h
      exact .claim hworker
    next => cases h
  | settle worker error =>
    simp only [webhookStep] at h
    split at h
    next hworker =>
      cases error with
      | none =>
        cases h
        exact .settled hworker
      | some error =>
        simp only at h
        split at h
        · cases h
          exact .failed hworker error
        · cases h
    next => cases h
  | markProcessed worker stored =>
    simp only [webhookStep] at h
    split at h
    next hworker =>
      cases stored with
      | true =>
        cases h
        exact .stored hworker
      | false =>
        cases h
        exact .notStored hworker
    next => cases h
  | markFailed worker =>
    simp only [webhookStep] at h
    split at h
    next hworker =>
      cases h
      exact .markFailed hworker
    next => cases h
  | finish worker =>
    simp only [webhookStep] at h
    split at h
    next hworker =>
      cases h
      exact .finish hworker
    next => cases h
  | crash worker =>
    cases h
    exact .crash worker
  | tick ms =>
    cases h
    exact .tick ms

end Bis.Settlement
