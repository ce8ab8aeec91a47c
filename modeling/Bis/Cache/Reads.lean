import Bis.Cache.Serialized
import Bis.Relation.Keyed

/-!
Reads through the cache, mutations of the data behind it and invalidations, for one key.
Each command to Redis is a step of its own, so calls may meet at any of them. A command may
fail, and one that is taken for failed may have been carried out.

The data is known by the number of its mutations: `data n` is what the query computes after
`n` of them. What is in the cache, and what a read answers, carries the number that it was
computed at; it is not in Redis.
-/

namespace Bis.Cache

open Bis.Relation Bis.Transition

structure Entry where
  text : String
  version : Nat

inductive Stage where
  | looking
  /-- The value is stored afterwards, unless Redis was not there at the start. -/
  | computing (stores : Bool)
  | storing (value : JsValue) (version : Nat)

/-- A call of `withCache`. -/
structure Read where
  id : Nat
  /-- The mutations before the last invalidation that had ended when the read began. -/
  floor : Nat
  stage : Stage

/-- A call of `invalidateCache` for a pattern that names the key. -/
structure Invalidation where
  id : Nat
  /-- The mutations before it began. -/
  version : Nat
  /-- It is about to look for the keys of the pattern, else to delete the key. -/
  listing : Bool

structure Answer where
  (floor version : Nat)
  value : JsValue

structure System where
  version : Nat
  entry : Option Entry
  reads : List Read
  invalidations : List Invalidation
  /-- The mutations before the last invalidation that has ended. -/
  floor : Nat
  answers : List Answer

def System.empty : System := ⟨0, none, [], [], 0, []⟩

inductive Label where
  | mutate
  /-- The time to live is over, or Redis drops the key. -/
  | expire
  | withCache (id : Nat) (available : Bool)
  | get (id : Nat) (fails : Bool)
  | compute (id : Nat) (throws : Bool)
  | set (id : Nat) (done : Bool)
  | invalidateCache (id : Nat) (available glob : Bool)
  | keys (id : Nat) (fails : Bool)
  | del (id : Nat) (done : Bool)

namespace System

def setRead (s : System) (read : Read) (stage : Stage) : System :=
  { s with reads := upsert Read.id { read with stage } s.reads }

def endRead (s : System) (id : Nat) : System :=
  { s with reads := s.reads.filter fun read => read.id != id }

def answer (s : System) (read : Read) (version : Nat) (value : JsValue) : System :=
  { s.endRead read.id with answers := s.answers ++ [⟨read.floor, version, value⟩] }

def endInvalidation (s : System) (call : Invalidation) : System :=
  { s with
    invalidations := s.invalidations.filter fun other => other.id != call.id
    floor := max s.floor call.version }

/-- What `get` brings: a hit, unless the text is empty or cannot be parsed. -/
def hit (s : System) : Option (Nat × JsValue) :=
  s.entry.bind fun entry =>
    if entry.text = "" then none else (JsValue.parse entry.text).map fun v => (entry.version, v)

def get (s : System) (read : Read) (fails : Bool) : System :=
  match if fails then none else s.hit with
  | some (version, value) => s.answer read version value
  | none => s.setRead read (.computing true)

def compute (data : Nat → JsValue) (s : System) (read : Read) (stores throws : Bool) : System :=
  if throws then s.endRead read.id
  else if stores then s.setRead read (.storing (data s.version) s.version)
  else s.answer read s.version (data s.version)

def set (s : System) (read : Read) (value : JsValue) (version : Nat) (done : Bool) : System :=
  let s := if done then { s with entry := some ⟨value.stored, version⟩ } else s
  s.answer read version value

def step (data : Nat → JsValue) : Step System Label
  | s, .mutate => some { s with version := s.version + 1 }
  | s, .expire => some { s with entry := none }
  | s, .withCache id available =>
    if s.reads.any fun read => read.id == id then none
    else some
      { s with
        reads := s.reads ++ [⟨id, s.floor, if available then .looking else .computing false⟩] }
  | s, .get id fails =>
    match lookup Read.id id s.reads with
    | some ⟨_, floor, .looking⟩ => some (s.get ⟨id, floor, .looking⟩ fails)
    | _ => none
  | s, .compute id throws =>
    match lookup Read.id id s.reads with
    | some ⟨_, floor, .computing stores⟩ =>
      some (s.compute data ⟨id, floor, .computing stores⟩ stores throws)
    | _ => none
  | s, .set id done =>
    match lookup Read.id id s.reads with
    | some ⟨_, floor, .storing value version⟩ =>
      some (s.set ⟨id, floor, .storing value version⟩ value version done)
    | _ => none
  | s, .invalidateCache id available glob =>
    if s.invalidations.any fun call => call.id == id then none
    else if available then
      some { s with invalidations := s.invalidations ++ [⟨id, s.version, glob⟩] }
    else some (s.endInvalidation ⟨id, s.version, glob⟩)
  | s, .keys id fails =>
    match lookup Invalidation.id id s.invalidations with
    | some ⟨_, version, true⟩ =>
      if fails || s.entry.isNone then some (s.endInvalidation ⟨id, version, true⟩)
      else some
        { s with
          invalidations := upsert Invalidation.id ⟨id, version, false⟩ s.invalidations }
    | _ => none
  | s, .del id done =>
    match lookup Invalidation.id id s.invalidations with
    | some ⟨_, version, false⟩ =>
      some ({ s with entry := if done then none else s.entry }.endInvalidation
        ⟨id, version, false⟩)
    | _ => none

end System

/-- A read answers with nothing older than the last mutation that an invalidation before it
followed, and with what the query computes. -/
def Answer.Sound (data : Nat → JsValue) (answer : Answer) : Prop :=
  answer.floor ≤ answer.version ∧ answer.value = data answer.version

def System.Sound (data : Nat → JsValue) (s : System) : Prop :=
  ∀ answer ∈ s.answers, answer.Sound data

end Bis.Cache
