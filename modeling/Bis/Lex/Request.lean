import Bis.Json.Escape
import Bis.Json.RoundTrip
import Bis.Relation.Keyed

/-!
What officers send to the intake service over its three channels, and what it keeps of a
request in its own database: the hash of the PIN, and the request as it goes to BIS.
-/

namespace Bis.Lex

open Bis.Json Bis.Relation

/-- What the service takes from outside: the hexadecimal MAC under the pepper, and the
upper case of a text. -/
structure Library where
  (mac toUpper : String → String)

def pinHash (lib : Library) (subject pin : String) : String :=
  "hmac-sha256:" ++ lib.mac (subject ++ "\x00" ++ pin)

inductive Channel where
  | submit
  | sms
  | gateway

namespace Channel

def refStart : Channel → String
  | submit => "LEX-LOCAL-"
  | sms | gateway => "LEX-SMS-"

def maxPerDay : Channel → Nat
  | submit | sms => 5
  | gateway => 10

/-- The handler tries to reach BIS itself. -/
def triesAtOnce : Channel → Bool
  | submit | gateway => true
  | sms => false

/-- The handler looks at the error of the rate limit. -/
def mindsError : Channel → Bool
  | submit | gateway => true
  | sms => false

end Channel

/-- A decoded JSON object, its keys in the order in which they are encoded. -/
structure Body where
  members : List (String × Value)
  sorted : members.Pairwise fun a b => a.1 < b.1

/-- The text under a key, empty if there is none. -/
def Body.text (body : Body) (key : String) : String :=
  match lookup Prod.fst key body.members with
  | some (_, .string text) => text
  | _ => ""

/-- The form of `handleSMS`. -/
structure Form where
  (submitterId agencyCode pin incidentType state narrative : String)

structure ParsedSMS where
  (agencyCode pin incidentType stateFull narrative senderPhone channel rawText : String)

/-- A request; the types of a parsed message are in lower case already. -/
inductive Input where
  | submit (body : Body)
  | sms (form : Form)
  | gateway (parsed : ParsedSMS) (externalId submittedAt : String)

namespace Input

def channel : Input → Channel
  | submit _ => .submit
  | sms _ => .sms
  | gateway _ _ _ => .gateway

def submitterId : Input → String
  | submit body => body.text "submitterId"
  | sms form => form.submitterId
  | gateway parsed _ _ => parsed.agencyCode ++ ":" ++ parsed.senderPhone

def agencyCode : Input → String
  | submit body => body.text "agencyCode"
  | sms form => form.agencyCode
  | gateway parsed _ _ => parsed.agencyCode

def pin : Input → String
  | submit body => body.text "pin"
  | sms form => form.pin
  | gateway parsed _ _ => parsed.pin

def members : Input → List (String × Value)
  | submit body => body.members
  | sms form =>
    [("agencyCode", .string form.agencyCode), ("channel", .string "sms"),
     ("incidentState", .string form.state), ("incidentType", .string form.incidentType),
     ("narrative", .string form.narrative), ("pin", .string form.pin),
     ("submitterId", .string form.submitterId)]
  | gateway parsed externalId submittedAt =>
    [("agencyCode", .string parsed.agencyCode), ("channel", .string parsed.channel),
     ("externalId", .string externalId), ("incidentState", .string parsed.stateFull),
     ("incidentType", .string parsed.incidentType), ("narrative", .string parsed.narrative),
     ("pin", .string parsed.pin), ("rawSMS", .string parsed.rawText),
     ("senderPhone", .string parsed.senderPhone), ("submittedAt", .string submittedAt),
     ("submitterId", .string (parsed.agencyCode ++ ":" ++ parsed.senderPhone))]

def payload (input : Input) : String :=
  String.ofList (render goTable.escape (.object input.members))

/-- The fields without which a request is refused. -/
def isComplete : Input → Bool
  | submit body =>
    body.text "submitterId" != "" && body.text "agencyCode" != "" && body.text "pin" != ""
  | sms form =>
    form.submitterId != "" && form.agencyCode != "" && form.pin != "" && form.narrative != ""
  | gateway parsed _ _ => parsed.senderPhone != ""

end Input

/-- What is stored of a request. -/
structure Content where
  (submitterId agencyCode pinHash payload : String)

def Input.content (lib : Library) (input : Input) : Content where
  submitterId := input.submitterId
  agencyCode := input.agencyCode
  pinHash := Lex.pinHash lib input.submitterId input.pin
  payload := input.payload

end Bis.Lex
