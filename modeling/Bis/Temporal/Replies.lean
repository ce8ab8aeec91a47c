import Bis.Temporal.Execution
import Bis.Json.Struct

/-!
The activities of the workflows are HTTP requests. An attempt of one may run out
of its time, may get no reply, or gets a status and a body. The gateway's
helpers turn a status from 400 on into an error and decode the body into a map;
the compliance worker's helpers hand the body on.
-/

namespace Bis.Temporal

open Json

/-- One attempt. The body is the JSON value that the decoder finds in it. -/
inductive Attempt where
  | timedOut
  | unreachable
  | answered (status : Nat) (body : Option Value)

inductive Failure where
  | timedOut
  | unreachable
  | status (code : Nat)
  | undecodable

abbrev Members := List (String × Value)

mutual

/-- Every number of the value is one that a `float64` can take. -/
def decodable : Value → Bool
  | .number n => (goFloat64 0 (.number n)).isSome
  | .array items => decodableItems items
  | .object members => decodableMembers members
  | _ => true

def decodableItems : List Value → Bool
  | [] => true
  | item :: items => decodable item && decodableItems items

def decodableMembers : List (String × Value) → Bool
  | [] => true
  | member :: members => decodable member.2 && decodableMembers members

end

/-- A value decoded into a `map[string]interface{}`. -/
def goMap : Value → Option Members
  | .null => some []
  | .object members => if decodableMembers members then some members else none
  | _ => none

/-- The entry of a map; an absent one is nil, as `null` is. A key that is repeated
has its last value. -/
def entry (key : String) (members : Members) : Value :=
  ((members.reverse.find? fun m => m.1 == key).map Prod.snd).getD .null

def asString : Value → Option String
  | .string text => some text
  | _ => none

def asBool : Value → Option Bool
  | .bool b => some b
  | _ => none

def asFloat : Value → Option Rat
  | .number n => goFloat64 0 (.number n)
  | _ => none

def asInt : Value → Option Int
  | .number n => goInt64 0 (.number n)
  | _ => none

/-- `gatewayGet`, and `riskPost` for a body that can be marshalled. -/
def gatewayGet : Attempt → Except Failure Members
  | .timedOut => .error .timedOut
  | .unreachable => .error .unreachable
  | .answered status body =>
    if 400 ≤ status then .error (.status status)
    else
      match body.bind goMap with
      | some members => .ok members
      | none => .error .undecodable

/-- `getJSON` and `postJSON` of the compliance worker, which leave the decoding
to their callers. -/
def getJSON : Attempt → Except Failure (Option Value)
  | .timedOut => .error .timedOut
  | .unreachable => .error .unreachable
  | .answered status body => if 400 ≤ status then .error (.status status) else .ok body

/-- A field of a struct with one field, as `json.Unmarshal` leaves it when its
error is ignored: a member of another type is passed over. -/
def fieldOf {α : Type*} (tag : String) (read : Value → Option α) : Option Value → Option α
  | some (.object members) =>
    ((members.filter fun m => (tagFor [tag] m.1).isSome).filterMap fun m => read m.2).getLast?
  | _ => none

end Bis.Temporal
