import Bis.Relation.Keyed
import Bis.Transition.Run

/-!
The sliding window of the gateway's API tokens. Each request that carries the token reads the
clock and sends four commands to Redis, which carries them out one at a time, between those of
other requests: it drops what is older than the window, adds the reading, counts the set and
lets the key expire. The request is admitted if the count is within the limit of the token, and
also if Redis fails.

Times are milliseconds of one clock. After an error the commands may be carried out still.
-/

namespace Bis.Apitoken

open Bis.Relation Bis.Transition

/-! ### Sorted sets -/

structure Element where
  member : String
  score : Nat

/-- Each member has one score. -/
structure SortedSet where
  elements : List Element
  members : (elements.map Element.member).Nodup

namespace SortedSet

def empty : SortedSet := ⟨[], List.nodup_nil⟩

/-- The range from `-inf` to `max` goes. -/
def zremRangeByScore (set : SortedSet) (max : Int) : SortedSet where
  elements := set.elements.filter fun e => decide (max < e.score)
  members := set.members.sublist (List.filter_sublist.map Element.member)

def zadd (set : SortedSet) (element : Element) : SortedSet where
  elements := upsert Element.member element set.elements
  members := nodup_upsert set.members

def zcard (set : SortedSet) : Nat := set.elements.length

end SortedSet

/-- What Redis has under a key; a set without elements is not kept. -/
structure Key where
  set : SortedSet
  expiresAt : Option Nat

namespace Key

def empty : Key := ⟨.empty, none⟩

def expired (key : Key) (clock : Nat) : Bool := key.expiresAt.any fun time => decide (time ≤ clock)

/-- What a command finds at that time. -/
def found (key : Key) (clock : Nat) : Key := if key.expired clock then empty else key

def withSet (key : Key) (set : SortedSet) : Key :=
  if set.elements = [] then empty else { key with set }

def expire (key : Key) (time : Nat) : Key :=
  if key.set.elements = [] then empty else { key with expiresAt := some time }

end Key

/-! ### Requests -/

def window : Nat := 60000
def keyTTL : Nat := 120000

/-- The command of the pipeline that comes next. -/
inductive Stage where
  | trimming
  | adding
  | counting
  | expiring (count : Nat)
  | executed (count : Nat)
  deriving DecidableEq

structure Request where
  (id now : Nat)
  stage : Stage
  /-- The handler waits for the pipeline. -/
  waiting : Bool

def Request.element (r : Request) : Element := ⟨toString r.now, r.now⟩

/-- `readings` and `granted` keep the clock readings of all requests and of those that were
counted within the limit. -/
structure System where
  clock : Nat
  key : Key
  requests : List Request
  (admitted readings granted : List Nat)

inductive Label where
  | elapse (milliseconds : Nat)
  | arrive (id : Nat)
  | command (id : Nat)
  | answer (id : Nat)
  | fail (id : Nat)

namespace System

def empty : System := ⟨0, .empty, [], [], [], []⟩

def goOn (s : System) (r : Request) (key : Key) (stage : Stage) : System :=
  { s with key, requests := upsert Request.id { r with stage } s.requests }

/-- Redis carries out the next command of the request. -/
def execute (limit : Nat) (s : System) (r : Request) : Option System :=
  let key := s.key.found s.clock
  match r.stage with
  | .trimming =>
    some (s.goOn r (key.withSet (key.set.zremRangeByScore (r.now - window))) .adding)
  | .adding => some (s.goOn r (key.withSet (key.set.zadd r.element)) .counting)
  | .counting =>
    let count := key.set.zcard
    let granted := if count ≤ limit then s.granted ++ [r.now] else s.granted
    some ({ s with granted }.goOn r key (.expiring count))
  | .expiring count => some (s.goOn r (key.expire (s.clock + keyTTL)) (.executed count))
  | .executed _ => none

/-- `Exec` comes back with the results. -/
def answer (limit : Nat) (s : System) (r : Request) : Option System :=
  match r.stage, r.waiting with
  | .executed count, true =>
    some { s with
      admitted := if count ≤ limit then s.admitted ++ [r.now] else s.admitted
      requests := s.requests.filter fun other => other.id != r.id }
  | _, _ => none

/-- `Exec` comes back with an error: the request is allowed. -/
def fail (s : System) (r : Request) : Option System :=
  if r.waiting then
    some { s with
      admitted := s.admitted ++ [r.now]
      requests := upsert Request.id { r with waiting := false } s.requests }
  else none

/-- The token's requests under its limit. -/
def step (limit : Nat) : Step System Label
  | s, .elapse milliseconds => some { s with clock := s.clock + milliseconds }
  | s, .arrive id =>
    if s.requests.any fun r => r.id == id then none
    else
      some { s with
        requests := s.requests ++ [⟨id, s.clock, .trimming, true⟩]
        readings := s.readings ++ [s.clock] }
  | s, .command id => (lookup Request.id id s.requests).bind (s.execute limit)
  | s, .answer id => (lookup Request.id id s.requests).bind (s.answer limit)
  | s, .fail id => (lookup Request.id id s.requests).bind s.fail

end System

end Bis.Apitoken
