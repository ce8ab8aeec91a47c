import Bis.Lex.Pin
import Bis.Lex.Request
import Mathlib.Data.List.Sort

/-!
The intake service of the law-enforcement submissions. A handler checks the PIN and the
rate limit, tries to reach BIS at once where its channel does, and stores the submission;
a worker goes over the stored ones that wait. Every call to BIS and every statement is a
step of its own. BIS may have received what the service takes for an error. The service
may crash at any step; the database keeps what it has.

A call and a row carry the number of their submission. It is not in the database.
-/

namespace Bis.Lex

open Bis.Relation Bis.Transition

def syncBatch : Nat := 50
def maxSyncAttempts : Nat := 5

inductive Status where
  | queued
  | retry
  | failed
  | synced
  deriving DecidableEq

/-- A row of `submissions`. -/
structure Row where
  (id submission : Nat)
  localRef : String
  content : Content
  status : Status
  bisRef : Option String
  syncAttempts : Nat
  lastError : Option String
  createdAt : Nat
  syncedAt : Option Nat

structure QueuedSubmission where
  (id submission : Nat)
  (localRef submitterId agencyCode payload : String)
  status : Status
  syncAttempts : Nat
  lastError : String
  createdAt : Nat

def Row.queuedSubmission (row : Row) : QueuedSubmission where
  id := row.id
  submission := row.submission
  localRef := row.localRef
  submitterId := row.content.submitterId
  agencyCode := row.content.agencyCode
  payload := row.content.payload
  status := row.status
  syncAttempts := row.syncAttempts
  lastError := row.lastError.getD ""
  createdAt := row.createdAt

def Row.inQueue (row : Row) : Bool := row.status == .queued || row.status == .retry

/-- The row that `Enqueue` inserts. -/
def Row.fresh (id submission : Nat) (localRef : String) (content : Content) (now : Nat) : Row where
  id
  submission
  localRef
  content
  status := .queued
  bisRef := none
  syncAttempts := 0
  lastError := none
  createdAt := now / second
  syncedAt := none

def getQueued (rows : List Row) (limit : Nat) : List QueuedSubmission :=
  (((rows.filter Row.inQueue).insertionSort fun a b => a.createdAt ≤ b.createdAt).take limit).map
    Row.queuedSubmission

def markSynced (rows : List Row) (id : Nat) (bisRef : String) (now : Nat) : List Row :=
  updateWhere (fun row => row.id == id)
    (fun row =>
      { row with status := .synced, bisRef := some bisRef, syncedAt := some (now / second) })
    rows

def markFailed (rows : List Row) (id : Nat) (errMsg : String) (attempts : Nat) : List Row :=
  updateWhere (fun row => row.id == id)
    (fun row =>
      { row with
        status := if maxSyncAttempts ≤ attempts then .failed else .retry
        lastError := some errMsg
        syncAttempts := attempts })
    rows

/-! ### The rate limit -/

/-- Whether the window can be opened and read, and whether its count can be written. -/
structure LimitCarried where
  read : Bool := true
  write : Bool := true

structure RateLimit where
  count : Nat
  (allowed failed : Bool)

def checkRateLimit (count maxPerDay : Nat) (db : LimitCarried) : RateLimit :=
  if db.read then
    if maxPerDay ≤ count then ⟨count, false, false⟩
    else if db.write then ⟨count + 1, true, false⟩
    else ⟨count, true, true⟩
  else ⟨count, false, true⟩

/-! ### Handlers and the worker -/

inductive Stage where
  | verified
  /-- BIS has not been tried. -/
  | admitted (localRef : String)
  | reached (localRef : String)
  | queueing (localRef : String)
  | delivered (localRef bisRef : String)

structure Call where
  submission : Nat
  channel : Channel
  content : Content
  stage : Stage

inductive Answer where
  | ok (bisRef : String)
  /-- BIS has not received the submission. -/
  | refused (errMsg : String)
  /-- BIS has received it all the same. -/
  | lost (errMsg : String)

def Answer.result : Answer → Except String String
  | ok bisRef => .ok bisRef
  | refused errMsg | lost errMsg => .error errMsg

/-- The background worker, in a pass over what it has read. -/
inductive Worker where
  | idle
  | pass (subs : List QueuedSubmission)
  | noting (sub : QueuedSubmission) (result : Except String String) (subs : List QueuedSubmission)

/-- What the worker knows to be received and has not stored. -/
def Worker.hand : Worker → List Nat
  | noting sub (.ok _) _ => [sub.submission]
  | _ => []

structure System where
  pins : PinSystem
  /-- The counts of each submitter by day. -/
  rateLimits : String → Nat → Nat
  rows : List Row
  (nextId nextSubmission : Nat)
  calls : List Call
  worker : Worker
  /-- What BIS has received, each time. -/
  received : List Nat
  /-- The times after which the service goes on as if BIS had not. -/
  unrecorded : List Nat
  /-- What a handler has handed over itself. -/
  (handedOver accepted : List Nat)

def System.empty : System :=
  ⟨.empty, fun _ _ => 0, [], 0, 0, [], .idle, [], [], [], []⟩

inductive Label where
  | pin (label : PinLabel)
  | submit (input : Input) (now : Nat) (db : Carried)
  | limit (submission now refAt : Nat) (db : LimitCarried)
  | ping (submission : Nat) (reachable : Bool)
  | send (submission : Nat) (answer : Answer)
  | enqueue (submission now : Nat) (done : Bool)
  /-- The worker finds BIS reachable and reads the queue. -/
  | tick
  | sync (answer : Answer)
  | note (now : Nat) (done : Bool)
  | crash

namespace System

def finish (s : System) (submission : Nat) : List Call :=
  s.calls.filter fun call => call.submission != submission

def goOn (s : System) (call : Call) (stage : Stage) : System :=
  { s with calls := upsert Call.submission { call with stage } s.calls }

/-- BIS has received the submission, and the service does not know. -/
def receiveUnrecorded (s : System) (submission : Nat) : System :=
  { s with
    received := s.received ++ [submission]
    unrecorded := s.unrecorded ++ [submission] }

def limit (lib : Library) (s : System) (call : Call) (now refAt : Nat) (db : LimitCarried) :
    System :=
  let day := now / (24 * hour)
  let limit := checkRateLimit (s.rateLimits call.content.submitterId day) call.channel.maxPerDay db
  let s :=
    { s with
      rateLimits := Function.update s.rateLimits call.content.submitterId
        (Function.update (s.rateLimits call.content.submitterId) day limit.count) }
  if limit.allowed && !(call.channel.mindsError && limit.failed) then
    let localRef := call.channel.refStart ++ lib.toUpper call.content.agencyCode ++ "-" ++
      toString (refAt / 1000000)
    s.goOn call (if call.channel.triesAtOnce then .admitted localRef else .queueing localRef)
  else { s with calls := s.finish call.submission }

def send (s : System) (call : Call) (localRef : String) : Answer → System
  | .ok bisRef =>
    { s with
      received := s.received ++ [call.submission]
      handedOver := s.handedOver ++ [call.submission] }.goOn call (.delivered localRef bisRef)
  | .refused _ => s.goOn call (.queueing localRef)
  | .lost _ => (s.receiveUnrecorded call.submission).goOn call (.queueing localRef)

/-- `Enqueue`; it fails where the local reference is there already. -/
def insert (s : System) (call : Call) (localRef : String) (now : Nat) (done : Bool) :
    Option System :=
  if !done || s.rows.any fun row => row.localRef == localRef then none
  else some
    { s with
      rows := s.rows ++ [.fresh s.nextId call.submission localRef call.content now]
      nextId := s.nextId + 1 }

/-- A handler that has handed over does not look at the error. -/
def enqueue (s : System) (call : Call) (now : Nat) (done : Bool) : Option System :=
  let ended := { s with calls := s.finish call.submission }
  let accepted := { ended with accepted := s.accepted ++ [call.submission] }
  match call.stage with
  | .queueing localRef => some ((accepted.insert call localRef now done).getD ended)
  | .delivered localRef _ => some ((accepted.insert call localRef now done).getD accepted)
  | _ => none

def sync (s : System) (sub : QueuedSubmission) (rest : List QueuedSubmission) (answer : Answer) :
    System :=
  let s :=
    match answer with
    | .ok _ => { s with received := s.received ++ [sub.submission] }
    | .refused _ => s
    | .lost _ => s.receiveUnrecorded sub.submission
  { s with worker := .noting sub answer.result rest }

def note (s : System) (sub : QueuedSubmission) (now : Nat) (done : Bool) :
    Except String String → System
  | .ok bisRef =>
    if done then { s with rows := markSynced s.rows sub.id bisRef now }
    else { s with unrecorded := s.unrecorded ++ [sub.submission] }
  | .error errMsg =>
    if done then { s with rows := markFailed s.rows sub.id errMsg (sub.syncAttempts + 1) } else s

def step (lib : Library) : Step System Label
  | s, .pin label => (PinSystem.step s.pins label).map fun pins => { s with pins }
  | s, .submit input now db =>
    if input.isComplete then
      let content := input.content lib
      let v := s.pins.verification content.submitterId content.pinHash now db
      some
        { s with
          pins := s.pins.verify content.submitterId content.pinHash now db
          nextSubmission := s.nextSubmission + 1
          calls :=
            if v.result.valid then
              s.calls ++ [⟨s.nextSubmission, input.channel, content, .verified⟩]
            else s.calls }
    else none
  | s, .limit submission now refAt db =>
    match lookup Call.submission submission s.calls with
    | some ⟨_, channel, content, .verified⟩ =>
      some (s.limit lib ⟨submission, channel, content, .verified⟩ now refAt db)
    | _ => none
  | s, .ping submission reachable =>
    match lookup Call.submission submission s.calls with
    | some ⟨_, channel, content, .admitted localRef⟩ =>
      some (s.goOn ⟨submission, channel, content, .admitted localRef⟩
        (if reachable then .reached localRef else .queueing localRef))
    | _ => none
  | s, .send submission answer =>
    match lookup Call.submission submission s.calls with
    | some ⟨_, channel, content, .reached localRef⟩ =>
      some (s.send ⟨submission, channel, content, .reached localRef⟩ localRef answer)
    | _ => none
  | s, .enqueue submission now done =>
    (lookup Call.submission submission s.calls).bind fun call => s.enqueue call now done
  | s, .tick =>
    match s.worker with
    | .idle => some { s with worker := .pass (getQueued s.rows syncBatch) }
    | .pass [] => some { s with worker := .pass (getQueued s.rows syncBatch) }
    | _ => none
  | s, .sync answer =>
    match s.worker with
    | .pass (sub :: rest) => some (s.sync sub rest answer)
    | _ => none
  | s, .note now done =>
    match s.worker with
    | .noting sub result rest => some { s.note sub now done result with worker := .pass rest }
    | _ => none
  | s, .crash =>
    some { s with calls := [], worker := .idle, unrecorded := s.unrecorded ++ s.worker.hand }

end System

end Bis.Lex
