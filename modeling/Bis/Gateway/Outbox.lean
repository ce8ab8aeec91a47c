import Bis.Json.RoundTrip
import Bis.Json.Escape
import Bis.Json.Struct
import Bis.Relation.Batch
import Bis.Relation.Table
import Bis.Transition.Run

/-!
The transactional outbox of the gateway. Events are inserted into a table of the
database, and the dispatch cycle of each gateway process leases pending rows in
one transaction and then publishes them one after the other. A cycle ends early
if one of its statements fails, and with its process.

The keyring, SHA-256 and the text of a floating-point number are arguments. The
row of an event keeps, as history, the event and the UUID drawn for it. Instants
are microseconds of the database's clock. Rows written without encryption by an
earlier release, the metrics and the text of the last error are left out; so is
a cycle without a Kafka producer, which reads nothing.
-/

namespace Bis.Gateway

open Bis.Json Bis.Relation Bis.Transition Option

/-! ### Event keys -/

/-- `unicode.IsSpace`. -/
def isSpaceRune (c : Char) : Bool :=
  let code := c.toNat
  (9 ≤ code && code ≤ 13) || (0x2000 ≤ code && code ≤ 0x200a) ||
    code ∈ [0x20, 0x85, 0xa0, 0x1680, 0x2028, 0x2029, 0x202f, 0x205f, 0x3000]

theorem isSpaceRune_eq_false {c : Char} (hlow : 33 ≤ c.toNat) (hhigh : c.toNat ≤ 126) :
    isSpaceRune c = false := by
  rw [← Bool.not_eq_true]
  intro h
  simp only [isSpaceRune, Bool.or_eq_true, Bool.and_eq_true, decide_eq_true_eq, List.mem_cons,
    List.not_mem_nil, or_false] at h
  rcases h with h | h
  · omega
  · omega

def trimSpace (text : String) : String :=
  String.ofList ((text.toList.dropWhile isSpaceRune).reverse.dropWhile isSpaceRune).reverse

section

variable (formatFloat : Number → String)

def entryBefore (a b : String × String) : Prop := a.1 ≤ b.1

instance : DecidableRel entryBefore := fun a b => inferInstanceAs (Decidable (a.1 ≤ b.1))

/-- The entries of a map: of those with one key the last, in the order of the keys. -/
def mapEntries : List (String × String) → List (String × String)
  | [] => []
  | entry :: rest =>
    if entry.1 ∈ rest.map Prod.fst then mapEntries rest
    else (mapEntries rest).orderedInsert entryBefore entry

mutual

/-- `fmt.Sprint` of a decoded value. -/
def sprint : Value → String
  | .null => "<nil>"
  | .bool true => "true"
  | .bool false => "false"
  | .number n => formatFloat n
  | .string text => text
  | .array items => "[" ++ " ".intercalate (sprintItems items) ++ "]"
  | .object members =>
    "map[" ++ " ".intercalate ((mapEntries (sprintMembers members)).map fun entry =>
      entry.1 ++ ":" ++ entry.2) ++ "]"

def sprintItems : List Value → List String
  | [] => []
  | item :: items => sprint item :: sprintItems items

def sprintMembers : List (String × Value) → List (String × String)
  | [] => []
  | (key, item) :: members => (key, sprint item) :: sprintMembers members

end

mutual

/-- Every number is one of a `float64`; otherwise the text is not decoded. -/
def inRange : Value → Bool
  | .number n => (goFloat64 0 (.number n)).isSome
  | .array items => inRangeItems items
  | .object members => inRangeMembers members
  | _ => true

def inRangeItems : List Value → Bool
  | [] => true
  | item :: items => inRange item && inRangeItems items

def inRangeMembers : List (String × Value) → Bool
  | [] => true
  | (_, item) :: members => inRange item && inRangeMembers members

end

def referenceFields : List String :=
  ["event_id", "eventId", "reference", "request_id", "requestId", "transfer_id", "transferId"]

/-- The domain reference of an event: the first of the fields that is not blank. -/
def reference : Value → Option String
  | .object members =>
    if inRangeMembers members then
      referenceFields.findSome? fun field =>
        ((members.reverse.find? fun m => m.1 == field).map fun m =>
          trimSpace (sprint formatFloat m.2)).filter (· ≠ "")
    else none
  | _ => none

/-- What tells an event from others of its topic: its reference, or else the UUID
drawn for it. -/
def identity (uuid : String) (payload : Value) : String :=
  (reference formatFloat payload).getD uuid

/-- What `json.Marshal` writes. -/
def encode (payload : Value) : List Char := render goTable.escape payload

def stableEventKey (uuid topic : String) (encoded : List Char) : String :=
  match read (some '\ufffd') encoded with
  | some decoded => topic ++ ":" ++ identity formatFloat uuid decoded
  | none => topic ++ ":" ++ uuid

theorem stableEventKey_encode (uuid topic : String) (payload : Value) :
    stableEventKey formatFloat uuid topic (encode payload) =
      topic ++ ":" ++ identity formatFloat uuid payload := by
  rw [stableEventKey, encode, read_render]

end

/-! ### The table -/

inductive RowState where
  | pending
  | dispatching
  | delivered
  | deadLetter
  deriving DecidableEq

structure Row (Sealed : Type*) where
  (id topic : String)
  payload : Sealed
  (payloadSha256 idempotencyKey : String)
  state : RowState
  (attemptCount availableAt createdAt : Nat)
  event : Value
  uuid : String

variable {Sealed : Type*}

/-- The order of the dispatcher. -/
def Row.before (a b : Row Sealed) : Prop :=
  a.availableAt < b.availableAt ∨
    (a.availableAt = b.availableAt ∧ a.createdAt ≤ b.createdAt)

instance : DecidableRel (@Row.before Sealed) :=
  fun _ _ => inferInstanceAs (Decidable (_ ∨ _))

/-- Of the columns of a row those that a cycle works with. -/
structure OutboxEvent (Sealed : Type*) where
  (id topic : String)
  payload : Sealed
  payloadSha256 : String
  attemptCount : Nat
  idempotencyKey : String

def Row.toEvent (row : Row Sealed) : OutboxEvent Sealed :=
  { id := row.id, topic := row.topic, payload := row.payload, payloadSha256 := row.payloadSha256
    attemptCount := row.attemptCount, idempotencyKey := row.idempotencyKey }

/-- The services the outbox rests on; `wall` is the clock of the process and
`nonce` the randomness of one encryption. -/
structure Services (Sealed : Type*) where
  encrypt : (wall nonce : Nat) → (topic idempotencyKey : String) → List Char → Option Sealed
  decrypt : (wall : Nat) → (topic idempotencyKey : String) → Sealed → Option (List Char)
  needsRotation : (wall : Nat) → Sealed → Bool
  sha256 : List Char → String
  formatFloat : Number → String

/-! ### The dispatch cycle -/

def outboxBatchSize : Nat := 50
def outboxMaxAttempts : Nat := 12

/-- Where the work on an event stands; the statement that comes next, if the
database is next. -/
inductive Work (Sealed : Type*) where
  | opening
  | failing
  | rotating (payload : Sealed)
  | publishing
  | confirming

inductive Cycle (Sealed : Type*) where
  | idle
  | working (work : Work Sealed) (event : OutboxEvent Sealed) (rest : List (OutboxEvent Sealed))

namespace Cycle

/-- The loop goes on with its next event. -/
def next : List (OutboxEvent Sealed) → Cycle Sealed
  | [] => .idle
  | event :: rest => .working .opening event rest

/-- The rows that the cycle has leased and not yet settled. -/
def leased : Cycle Sealed → List String
  | .idle => []
  | .working _ event rest => event.id :: rest.map OutboxEvent.id

end Cycle

structure Outbox (Sealed : Type*) where
  rows : List (Row Sealed)
  clock : Nat
  cycles : Nat → Cycle Sealed
  /-- What was leased by a cycle that ended before it had settled it. -/
  cutShort : List String

namespace Outbox

def empty : Outbox Sealed := { rows := [], clock := 0, cycles := fun _ => .idle, cutShort := [] }

def setCycle (s : Outbox Sealed) (process : Nat) (cycle : Cycle Sealed) : Outbox Sealed :=
  { s with cycles := Function.update s.cycles process cycle }

/-- The cycle of a process ends with what it still has leased. -/
def cut (s : Outbox Sealed) (process : Nat) : Outbox Sealed :=
  { s.setCycle process .idle with cutShort := (s.cycles process).leased ++ s.cutShort }

/-- The rows a dispatcher may take. Rows that another transaction has locked are
skipped. -/
def ready (s : Outbox Sealed) (now : Nat) (locked : String → Bool) : List (Row Sealed) :=
  s.rows.filter fun row =>
    decide (row.state = .pending ∧ row.availableAt ≤ now) && !locked row.id

/-- The rows the dispatcher's query selects. -/
def batch (s : Outbox Sealed) (now : Nat) (locked : String → Bool) : List (Row Sealed) :=
  firstBy Row.before outboxBatchSize (s.ready now locked)

/-- The lease transaction: the batch is marked and handed to the process. -/
def lease (s : Outbox Sealed) (process now : Nat) (locked : String → Bool) : Outbox Sealed :=
  let batch := s.batch now locked
  let rows := updateWhere (fun row => decide (row.id ∈ batch.map Row.id))
    (fun row => { row with state := .dispatching }) s.rows
  { s with rows, clock := now }.setCycle process (.next (batch.map Row.toEvent))

end Outbox

/-- The backoff in microseconds. -/
def backoff (nextAttempt : Nat) : Nat := 2 ^ min nextAttempt 8 * 1000000

def markFailed (event : OutboxEvent Sealed) (now : Nat) (row : Row Sealed) : Row Sealed :=
  let nextAttempt := event.attemptCount + 1
  if outboxMaxAttempts ≤ nextAttempt then
    { row with state := .deadLetter, attemptCount := nextAttempt }
  else
    { row with
      state := .pending
      attemptCount := nextAttempt
      availableAt := now + backoff nextAttempt }

/-- The statement that is next in the work on an event; opening a payload and
publishing it are no statements. -/
def Work.statement (event : OutboxEvent Sealed) (now : Nat) :
    Work Sealed → Option (Row Sealed → Row Sealed)
  | .failing => some (markFailed event now)
  | .rotating payload => some fun row =>
    if row.state = .dispatching then { row with payload } else row
  | .confirming => some fun row =>
    if row.state = .dispatching then { row with state := .delivered } else row
  | .opening | .publishing => none

/-- Where the loop is after the statement. -/
def Work.after (event : OutboxEvent Sealed) (rest : List (OutboxEvent Sealed)) :
    Work Sealed → Cycle Sealed
  | .rotating _ => .working .publishing event rest
  | _ => .next rest

/-- What a process hears of a statement. -/
inductive Answer where
  | done
  | refused
  | unanswered

/-! ### Steps -/

inductive OutboxStep where
  | enqueue (now wall nonce : Nat) (rowId uuid topic : String) (payload : Value)
  | lease (process now : Nat) (locked : String → Bool)
  | decrypt (process wall nonce : Nat)
  | publish (process : Nat) (failed : Bool)
  | statement (process now : Nat) (answer : Answer)
  | cut (process : Nat)

/-- How an event that is enqueued fares. -/
inductive Enqueued (Sealed : Type*) where
  | failed
  | suppressed
  | stored (row : Row Sealed)

variable (services : Services Sealed)

def enqueue (s : Outbox Sealed) (now wall nonce : Nat) (rowId uuid topic : String)
    (payload : Value) : Enqueued Sealed :=
  if trimSpace topic = "" then .failed
  else
    let encoded := encode payload
    let idempotencyKey := stableEventKey services.formatFloat uuid topic encoded
    match services.encrypt wall nonce topic idempotencyKey encoded with
    | none => .failed
    | some ciphertext =>
      if s.rows.any fun row =>
          row.topic == topic && row.idempotencyKey == idempotencyKey then .suppressed
      else if s.rows.any fun row => row.id == rowId then .failed
      else
        .stored
          { id := rowId, topic, payload := ciphertext
            payloadSha256 := services.sha256 encoded, idempotencyKey, state := .pending
            attemptCount := 0, availableAt := now, createdAt := now, event := payload, uuid }

/-- Decryption, the check of the digest and the rotation of an old key. -/
def openEvent (wall nonce : Nat) (event : OutboxEvent Sealed) : Work Sealed :=
  match services.decrypt wall event.topic event.idempotencyKey event.payload with
  | none => .failing
  | some plaintext =>
    if services.sha256 plaintext ≠ event.payloadSha256 then .failing
    else if services.needsRotation wall event.payload then
      match services.encrypt wall nonce event.topic event.idempotencyKey plaintext with
      | none => .failing
      | some payload => .rotating payload
    else .publishing

def statementStep (s : Outbox Sealed) (process now : Nat) (answer : Answer) :
    Option (Outbox Sealed) :=
  match s.cycles process with
  | .idle => none
  | .working work event rest =>
    (work.statement event now).map fun change =>
      let rows := updateWhere (fun row => row.id == event.id) change s.rows
      match answer with
      | .done => { s with rows, clock := now }.setCycle process (work.after event rest)
      | .refused => s.cut process
      | .unanswered => { s with rows, clock := now }.cut process

/-- The database's clock does not go back. A crash and an error of the database
are both a cut. -/
def outboxStep : Step (Outbox Sealed) OutboxStep
  | s, .enqueue now wall nonce rowId uuid topic payload =>
    if now < s.clock then none
    else
      match enqueue services s now wall nonce rowId uuid topic payload with
      | .stored row => some { s with rows := s.rows ++ [row], clock := now }
      | .failed | .suppressed => some s
  | s, .lease process now locked =>
    if now < s.clock then none
    else
      match s.cycles process with
      | .idle => some (s.lease process now locked)
      | .working _ _ _ => none
  | s, .decrypt process wall nonce =>
    match s.cycles process with
    | .working .opening event rest =>
      some (s.setCycle process (.working (openEvent services wall nonce event) event rest))
    | _ => none
  | s, .publish process failed =>
    match s.cycles process with
    | .working .publishing event rest =>
      some (s.setCycle process
        (.working (if failed then .failing else .confirming) event rest))
    | _ => none
  | s, .statement process now answer =>
    if now < s.clock then none else statementStep s process now answer
  | s, .cut process => some (s.cut process)

/-- What the steps come down to. -/
inductive OutboxTakes (s : Outbox Sealed) : OutboxStep → Outbox Sealed → Prop where
  | stored {now wall nonce : Nat} {rowId uuid topic : String} {payload : Value}
      {row : Row Sealed} :
      s.clock ≤ now →
      enqueue services s now wall nonce rowId uuid topic payload = .stored row →
      OutboxTakes s (.enqueue now wall nonce rowId uuid topic payload)
        { s with rows := s.rows ++ [row], clock := now }
  | notStored {now wall nonce : Nat} {rowId uuid topic : String} {payload : Value} :
      OutboxTakes s (.enqueue now wall nonce rowId uuid topic payload) s
  | lease {process now : Nat} {locked : String → Bool} :
      s.clock ≤ now → s.cycles process = .idle →
      OutboxTakes s (.lease process now locked) (s.lease process now locked)
  | moved {a : OutboxStep} {process : Nat} {work work' : Work Sealed} {event : OutboxEvent Sealed}
      {rest : List (OutboxEvent Sealed)} :
      (∀ process now locked, a ≠ .lease process now locked) →
      s.cycles process = .working work event rest →
      OutboxTakes s a (s.setCycle process (.working work' event rest))
  | done {process now : Nat} {work : Work Sealed} {event : OutboxEvent Sealed}
      {rest : List (OutboxEvent Sealed)} {change : Row Sealed → Row Sealed} :
      s.clock ≤ now → s.cycles process = .working work event rest →
      work.statement event now = some change →
      OutboxTakes s (.statement process now .done)
        ({ s with
          rows := updateWhere (fun row => row.id == event.id) change s.rows
          clock := now }.setCycle process (work.after event rest))
  | unanswered {process now : Nat} {work : Work Sealed} {event : OutboxEvent Sealed}
      {rest : List (OutboxEvent Sealed)} {change : Row Sealed → Row Sealed} :
      s.clock ≤ now → s.cycles process = .working work event rest →
      work.statement event now = some change →
      OutboxTakes s (.statement process now .unanswered)
        ({ s with
          rows := updateWhere (fun row => row.id == event.id) change s.rows
          clock := now }.cut process)
  | cut {a : OutboxStep} {process : Nat} :
      (∀ process now locked, a ≠ .lease process now locked) →
      OutboxTakes s a (s.cut process)

theorem outboxTakes_of_statementStep {s t : Outbox Sealed} {process now : Nat} {answer : Answer}
    (hclock : s.clock ≤ now) (h : statementStep s process now answer = some t) :
    OutboxTakes services s (.statement process now answer) t := by
  unfold statementStep at h
  split at h
  next => cases h
  next work event rest hcycle =>
    obtain ⟨change, hchange, ht⟩ := map_eq_some_iff.mp h
    cases answer with
    | done => exact ht ▸ .done hclock hcycle hchange
    | refused => exact ht ▸ .cut nofun
    | unanswered => exact ht ▸ .unanswered hclock hcycle hchange

theorem outboxTakes_of_step {s t : Outbox Sealed} {a : OutboxStep}
    (h : outboxStep services s a = some t) : OutboxTakes services s a t := by
  cases a with
  | enqueue now wall nonce rowId uuid topic payload =>
    simp only [outboxStep] at h
    split at h
    next => cases h
    next hclock =>
      split at h
      next hstored => exact some.inj h ▸ .stored (Nat.le_of_not_lt hclock) hstored
      next => exact some.inj h ▸ .notStored
      next => exact some.inj h ▸ .notStored
  | lease process now locked =>
    simp only [outboxStep] at h
    split at h
    next => cases h
    next hclock =>
      split at h
      next hcycle => exact some.inj h ▸ .lease (Nat.le_of_not_lt hclock) hcycle
      next => cases h
  | decrypt | publish =>
    simp only [outboxStep] at h
    split at h
    next hcycle => exact some.inj h ▸ .moved nofun hcycle
    next => cases h
  | statement process now answer =>
    simp only [outboxStep] at h
    split at h
    next => cases h
    next hclock => exact outboxTakes_of_statementStep services (Nat.le_of_not_lt hclock) h
  | cut process => exact some.inj h ▸ .cut nofun

end Bis.Gateway
