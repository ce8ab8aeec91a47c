import Bis.Relation.Table
import Bis.Transition.Run
import Mathlib.Algebra.Group.Nat.Defs

/-!
The retry queue of failed payment webhooks. Each run of `processRetryQueue` is a worker
that recovers expired leases, selects twenty due rows, and leases, credits and settles
them one after another; any number of workers take their steps in any order, and a
worker can stop at any of them. A row carries, beside its columns, what has been done
to it; no statement reads that.
-/

namespace Bis.WebhookRetry

open Bis.Relation Bis.Transition

def maxAttempts : Nat := 7
def baseDelayMs : Nat := 1000
def maxDelayMs : Nat := 60000
def leaseTimeoutMs : Nat := 5 * 60000

/-- `calculateBackoff`, with the draw of `randomInt`. -/
def calculateBackoff (attempt draw : Nat) : Nat :=
  let delay := min (baseDelayMs * 2 ^ attempt) maxDelayMs
  delay + draw % (delay / 10 + 1)

inductive Status where
  | pending
  | processing
  | completed
  | deadLetter
  deriving DecidableEq

/-- The columns of `webhook_retry_queue` that the worker reads or writes. -/
structure RetryItem where
  id : Nat
  reference : String
  (attempts nextRetryAt : Nat)
  status : Status
  leasedAt : Option Nat
  lastError : Option String
  deriving DecidableEq

/-- How often a row was leased, how often the credit was called for it, and the
outcomes written to it, the newest first, each with the lease it was written under. -/
structure History where
  leases : Nat := 0
  invocations : Nat := 0
  outcomes : List (Nat × Status) := []

structure Row where
  item : RetryItem
  history : History

/-- What `creditTenantAccount` comes to. -/
inductive Result where
  | recorded
  | notRecorded
  | threw (message : String)

inductive Phase where
  | idle
  | recovered
  | working (items : List RetryItem)
  | leased (item : RetryItem) (lease : Nat) (rest : List RetryItem)
  | calling (item : RetryItem) (lease : Nat) (rest : List RetryItem)

structure State where
  now : Nat
  rows : List Row
  workers : Nat → Phase

inductive Label where
  | advance (ms : Nat)
  | enqueueFailedWebhook (id : Nat) (reference error : String) (clock draw : Nat)
  | recover (worker : Nat)
  | select (worker : Nat) (items : List RetryItem)
  | lease (worker : Nat)
  | creditTenantAccount (worker : Nat)
  | settle (worker : Nat) (result : Result) (clock draw : Nat)
  | finish (worker : Nat)
  | crash (worker : Nat)

namespace State

def start : State := ⟨0, [], fun _ => .idle⟩

def setWorker (s : State) (worker : Nat) (phase : Phase) : State :=
  { s with workers := Function.update s.workers worker phase }

end State

/-! ### The statements -/

def due (now : Nat) (row : Row) : Bool :=
  row.item.status = .pending && decide (row.item.nextRetryAt ≤ now)

def expired (now : Nat) (row : Row) : Bool :=
  row.item.status = .processing &&
    row.item.leasedAt.any fun leasedAt => decide (leasedAt + leaseTimeoutMs < now)

def Row.recover (row : Row) : Row :=
  { row with item := { row.item with status := .pending, leasedAt := none } }

/-- `ORDER BY "nextRetryAt" ASC LIMIT 20`, which leaves the order of equal times open. -/
structure Selects (now : Nat) (rows : List Row) (items : List RetryItem) : Prop where
  nodup : items.Nodup
  listed : ∀ item ∈ items, item ∈ (rows.filter (due now)).map Row.item
  length : items.length = min 20 (rows.filter (due now)).length
  ordered : items.Pairwise fun first second => first.nextRetryAt ≤ second.nextRetryAt
  earliest : ∀ row ∈ rows.filter (due now), row.item ∉ items →
    ∀ item ∈ items, item.nextRetryAt ≤ row.item.nextRetryAt

instance (now : Nat) (rows : List Row) (items : List RetryItem) :
    Decidable (Selects now rows items) :=
  decidable_of_iff
    (items.Nodup ∧ (∀ item ∈ items, item ∈ (rows.filter (due now)).map Row.item) ∧
      items.length = min 20 (rows.filter (due now)).length ∧
      (items.Pairwise fun first second => first.nextRetryAt ≤ second.nextRetryAt) ∧
      ∀ row ∈ rows.filter (due now), row.item ∉ items →
        ∀ item ∈ items, item.nextRetryAt ≤ row.item.nextRetryAt)
    ⟨fun ⟨hnodup, hlisted, hlength, hordered, hearliest⟩ =>
        ⟨hnodup, hlisted, hlength, hordered, hearliest⟩,
      fun h => ⟨h.nodup, h.listed, h.length, h.ordered, h.earliest⟩⟩

/-- The condition of the lease. -/
def leasable (now : Nat) (item : RetryItem) (row : Row) : Bool :=
  row.item.id == item.id && due now row

def Row.lease (now : Nat) (row : Row) : Row :=
  { item := { row.item with status := .processing, leasedAt := some now }
    history := { row.history with leases := row.history.leases + 1 } }

def Row.invoke (row : Row) : Row :=
  { row with history := { row.history with invocations := row.history.invocations + 1 } }

/-- The columns after a failed attempt. -/
def RetryItem.failed (attempts nextRetry : Nat) (ultimate error : String) (item : RetryItem) :
    RetryItem :=
  if maxAttempts ≤ attempts then
    { item with
      status := .deadLetter, attempts, lastError := some ultimate, leasedAt := none }
  else
    { item with
      status := .pending, attempts, nextRetryAt := nextRetry, lastError := some error,
      leasedAt := none }

/-- The columns after an attempt, under the number of attempts the worker counts. -/
def RetryItem.settle (attempts : Nat) (result : Result) (nextRetry : Nat) (item : RetryItem) :
    RetryItem :=
  match result with
  | .recorded => { item with status := .completed, attempts, leasedAt := none }
  | .notRecorded => item.failed attempts nextRetry "Max attempts exceeded" "TB unavailable"
  | .threw message => item.failed attempts nextRetry message message

def Row.settle (attempts lease : Nat) (result : Result) (nextRetry : Nat) (row : Row) : Row :=
  { item := row.item.settle attempts result nextRetry
    history := { row.history with
      outcomes := (lease, (row.item.settle attempts result nextRetry).status) ::
        row.history.outcomes } }

/-- `WHERE "reference" = …`. -/
def ofReference (item : RetryItem) (row : Row) : Bool := row.item.reference == item.reference

/-! ### The worker -/

open State

def processRetryQueue : Step State Label
  | s, .advance ms => some { s with now := s.now + ms }
  | s, .enqueueFailedWebhook id reference error clock draw =>
    if s.rows.any fun row => row.item.id == id then none
    else if s.rows.any fun row => row.item.reference == reference then some s
    else
      some { s with
        rows := s.rows ++
          [{ item :=
              { id, reference, attempts := 0, nextRetryAt := clock + calculateBackoff 0 draw,
                status := .pending, leasedAt := none, lastError := some error }
             history := {} }] }
  | s, .recover worker =>
    match s.workers worker with
    | .idle =>
      some ({ s with rows := updateWhere (expired s.now) Row.recover s.rows }.setWorker worker
        .recovered)
    | _ => none
  | s, .select worker items =>
    match s.workers worker with
    | .recovered =>
      if Selects s.now s.rows items then some (s.setWorker worker (.working items)) else none
    | _ => none
  | s, .lease worker =>
    match s.workers worker with
    | .working (item :: rest) =>
      match s.rows.find? (leasable s.now item) with
      | none => some (s.setWorker worker (.working rest))
      | some row =>
        some ({ s with rows := updateWhere (leasable s.now item) (Row.lease s.now) s.rows
          }.setWorker worker (.leased item (row.history.leases + 1) rest))
    | _ => none
  | s, .creditTenantAccount worker =>
    match s.workers worker with
    | .leased item lease rest =>
      some ({ s with rows := updateWhere (ofReference item) Row.invoke s.rows }.setWorker worker
        (.calling item lease rest))
    | _ => none
  | s, .settle worker result clock draw =>
    match s.workers worker with
    | .calling item lease rest =>
      let attempts := item.attempts + 1
      let nextRetry := clock + calculateBackoff attempts draw
      some ({ s with
        rows := updateWhere (ofReference item) (Row.settle attempts lease result nextRetry)
          s.rows }.setWorker worker (.working rest))
    | _ => none
  | s, .finish worker =>
    match s.workers worker with
    | .working [] => some (s.setWorker worker .idle)
    | _ => none
  | s, .crash worker => some (s.setWorker worker .idle)

/-! ### What is promised -/

def Status.Final (status : Status) : Prop := status = .completed ∨ status = .deadLetter

/-- A final status stays, the credit is called at most seven times, and no outcome
follows that of a later lease. -/
structure Row.Lawful (row : Row) : Prop where
  final : ∀ lease status, (lease, status) ∈ row.history.outcomes → status.Final →
    row.item.status = status
  invocations : row.history.invocations ≤ maxAttempts
  owners : row.history.outcomes.Pairwise fun newer older => older.1 ≤ newer.1

def Lawful (s : State) : Prop := ∀ row ∈ s.rows, row.Lawful

/-- No lease is taken from a row whose credit was called and not settled, none is given
to a worker that knows an older count of attempts, and the credit is called only under
the lease of the row. -/
def Orderly (s : State) : Label → Prop
  | .recover _ => ∀ row ∈ s.rows, expired s.now row →
      row.history.invocations = row.item.attempts
  | .lease worker => ∀ item rest, s.workers worker = .working (item :: rest) →
      ∀ row ∈ s.rows, leasable s.now item row → row.item.attempts = item.attempts
  | .creditTenantAccount worker => ∀ item lease rest, s.workers worker = .leased item lease rest →
      ∀ row ∈ s.rows, ofReference item row →
        row.item.status = .processing ∧ row.history.leases = lease
  | _ => True

end Bis.WebhookRetry
