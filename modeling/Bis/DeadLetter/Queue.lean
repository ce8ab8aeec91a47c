import Bis.Relation.Queue
import Bis.Relation.Keyed
import Bis.Transition.Run

/-!
The dead-letter queue of the gateway. An event is published at its topic, or else kept
in the dead-letter topic of Kafka, or else in a Redis list, each attempt a step of its
own that may fail, and may have been stored all the same. A pass of the replay takes up
to a hundred messages from the list of each known topic and publishes them again; what
it has taken is in its memory only. Any number of events are published meanwhile, and
the gateway may crash at any step; Kafka and Redis keep what they have.

A message carries the event that it is about. It is not in the envelope.
-/

namespace Bis.DeadLetter

open Bis.Relation Bis.Transition

def dlqTopicPrefix : String := "bis.dlq."
def dlqMaxRetries : Nat := 3
def passSize : Nat := 100

/-- The topics that a pass of the replay looks at. -/
def replayTopics : List String :=
  ["bis.gateway.nin_lookup", "bis.gateway.bvn_lookup", "bis.gateway.cac_lookup",
   "bis.gateway.sanctions_check", "bis.gateway.pep_check", "bis.gateway.credit_check",
   "bis.payment.nip", "bis.payment.mojaloop", "bis.stablecoin.transfer"]

structure DlqMessage where
  event : Nat
  (topic payload : String)
  (attempts firstFail : Nat)
  deriving DecidableEq

/-- What Kafka has. -/
structure Record where
  event : Nat
  (topic payload : String)
  deriving DecidableEq

/-! ### Calls and passes -/

inductive CallStage where
  | first
  | second
  | dlqTopic
  | redis (attempts : Nat)

/-- A call of `publishEventWithDLQ`. -/
structure Call where
  event : Nat
  (topic payload : String)
  stage : CallStage

def Call.message (call : Call) (attempts now : Nat) : DlqMessage where
  event := call.event
  topic := call.topic
  payload := call.payload
  attempts
  firstFail := now

inductive Hand where
  | taken (message : DlqMessage)
  /-- The attempt to publish it has failed. -/
  | failed (message : DlqMessage)
  deriving DecidableEq

def Hand.message : Hand → DlqMessage
  | .taken message | .failed message => message

/-- A pass of `replayRedisDLQ`, at the first of its topics. -/
structure Pass where
  topics : List String
  taken : Nat
  hand : Option Hand
  /-- The events that it has tried to publish. -/
  attempted : List Nat
  deriving DecidableEq

def Pass.start : Pass := ⟨replayTopics, 0, none, []⟩

def Pass.nextTopic (pass : Pass) : Pass :=
  { pass with topics := pass.topics.tail, taken := 0, hand := none }

/-- The pass is done with a message. -/
def Pass.settle (pass : Pass) : Pass :=
  if pass.taken < passSize then { pass with hand := none } else pass.nextTopic

structure System where
  /-- Whether there is a producer, and a client of Redis. -/
  (kafka redis : Bool)
  nextEvent : Nat
  calls : List Call
  pass : Option Pass
  log : List Record
  /-- The lists of Redis, the next message of a topic first. -/
  queued : List DlqMessage
  accepted : List Nat

def System.empty (kafka redis : Bool) : System := ⟨kafka, redis, 0, [], none, [], [], []⟩

inductive Outcome where
  | ok
  | error (stored : Bool)
  deriving DecidableEq

def Outcome.stored : Outcome → Bool
  | .ok => true
  | .error stored => stored

inductive Label where
  | publish (topic payload : String)
  | attempt (event now : Nat) (outcome : Outcome)
  | startPass
  /-- An `error` that is `stored` has taken the message from the list. -/
  | pop (outcome : Outcome)
  | replay (outcome : Outcome)
  | putBack (outcome : Outcome)
  | endPass
  /-- The gateway is started again with these clients. -/
  | crash (kafka redis : Bool)

namespace System

def queue (s : System) (topic : String) : List DlqMessage :=
  s.queued.filter fun message => message.topic == topic

def rpop (s : System) (topic : String) : List DlqMessage :=
  s.queued.eraseP fun message => message.topic == topic

def record (s : System) (outcome : Outcome) (record : Record) : List Record :=
  if outcome.stored then s.log ++ [record] else s.log

def lpush (s : System) (outcome : Outcome) (message : DlqMessage) : List DlqMessage :=
  if outcome.stored then s.queued ++ [message] else s.queued

/-- A call comes back; without an error its event is accepted. -/
def returned (s : System) (event : Nat) (outcome : Outcome) : System :=
  { s with
    calls := s.calls.filter fun call => call.event != event
    accepted := if outcome = .ok then s.accepted ++ [event] else s.accepted }

/-- An attempt of a call to publish; where it fails the call goes on at `next`. -/
def produce (s : System) (call : Call) (topic : String) (outcome : Outcome) (next : CallStage) :
    System :=
  let s := { s with log := s.record outcome ⟨call.event, topic, call.payload⟩ }
  if outcome = .ok then s.returned call.event .ok
  else { s with calls := upsert Call.event { call with stage := next } s.calls }

def attempt (s : System) (call : Call) (now : Nat) (outcome : Outcome) : System :=
  match call.stage with
  | .first => s.produce call call.topic outcome .second
  | .second => s.produce call call.topic outcome .dlqTopic
  | .dlqTopic => s.produce call (dlqTopicPrefix ++ call.topic) outcome (.redis 1)
  | .redis attempts =>
    if s.redis then
      { s with queued := s.lpush outcome (call.message attempts now) }.returned call.event outcome
    else s.returned call.event (.error false)

def pop (s : System) (pass : Pass) (topic : String) (outcome : Outcome) : System :=
  match outcome, s.queue topic with
  | .ok, [] => { s with pass := some pass.nextTopic }
  | .ok, message :: _ =>
    { s with
      queued := s.rpop topic
      pass := some { pass with taken := pass.taken + 1, hand := some (.taken message) } }
  | .error removed, _ =>
    { s with
      queued := if removed then s.rpop topic else s.queued
      pass := some pass.nextTopic }

def replay (s : System) (pass : Pass) (message : DlqMessage) (outcome : Outcome) : System :=
  let pass := { pass with attempted := pass.attempted ++ [message.event] }
  { s with
    log := s.record outcome ⟨message.event, message.topic, message.payload⟩
    pass := some
      (if outcome = .ok then pass.settle else { pass with hand := some (.failed message) }) }

/-- After the last attempt the message is dropped. -/
def putBack (s : System) (pass : Pass) (message : DlqMessage) (outcome : Outcome) : System :=
  let message := { message with attempts := message.attempts + 1 }
  { s with
    queued := if message.attempts < dlqMaxRetries then s.lpush outcome message else s.queued
    pass := some pass.settle }

def step : Step System Label
  | s, .publish topic payload =>
    some { s with
      nextEvent := s.nextEvent + 1
      calls := s.calls ++
        [⟨s.nextEvent, topic, payload, if s.kafka then .first else .redis 0⟩] }
  | s, .attempt event now outcome =>
    (lookup Call.event event s.calls).map fun call => s.attempt call now outcome
  | s, .startPass =>
    if s.redis && s.kafka && s.pass.isNone then some { s with pass := some .start } else none
  | s, .pop outcome =>
    match s.pass with
    | some ⟨topic :: rest, taken, none, attempted⟩ =>
      some (s.pop ⟨topic :: rest, taken, none, attempted⟩ topic outcome)
    | _ => none
  | s, .replay outcome =>
    match s.pass with
    | some ⟨topics, taken, some (.taken message), attempted⟩ =>
      some (s.replay ⟨topics, taken, some (.taken message), attempted⟩ message outcome)
    | _ => none
  | s, .putBack outcome =>
    match s.pass with
    | some ⟨topics, taken, some (.failed message), attempted⟩ =>
      some (s.putBack ⟨topics, taken, some (.failed message), attempted⟩ message outcome)
    | _ => none
  | s, .endPass =>
    match s.pass with
    | some ⟨[], _, none, _⟩ => some { s with pass := none }
    | _ => none
  | s, .crash kafka redis => some { s with kafka, redis, calls := [], pass := none }

end System

end Bis.DeadLetter
