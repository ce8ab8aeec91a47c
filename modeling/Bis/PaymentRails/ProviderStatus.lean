import Bis.Json.Struct
import Bis.Monitoring.Screening

/-!
What becomes of a payment provider's reply: the status that the gateway's handlers answer
with, and the one that the BIS client of the same rail gives. A handler or a call that
fails gives none.

The two send a NIP transfer to different endpoints, and each reads the response code under
the name that its own endpoint gives it.
-/

namespace Bis.PaymentRails

open Bis.Json Bis.Monitoring

inductive PaymentStatus where
  | pending
  | completed
  | failed
  deriving DecidableEq

/-- A reply after redirects. The body is what it reads as, if it is JSON; the gateway has
all of it only where it fits into its limit. -/
inductive Reply where
  | unreachable
  | answered (status : Nat) (fits : Bool) (body : Option Value)

/-- `s, _ := m[name].(string)` -/
def goMember (name : String) (members : List (String × Value)) : String :=
  (string? (get name (.object members))).getD ""

/-! ### The gateway -/

structure HandlerError where
  status : Nat
  code : String

structure MojaloopTransferResponse where
  (txRef externalRef : String)
  status : PaymentStatus
  mode : String

structure MojaloopStatusResponse where
  (txRef externalRef : String)
  status : PaymentStatus
  (completedAt failureReason : String)

/-- `callExternalJSONWithKey` and the decoding of what it returns. -/
def callProvider (code parseCode : String) : Reply → Except HandlerError (List (String × Value))
  | .unreachable => .error ⟨502, code⟩
  | .answered status fits body =>
    if 400 ≤ status then .error ⟨502, code⟩
    else
      match (if fits then body else none).bind goMap with
      | some members => .ok members
      | none => .error ⟨502, parseCode⟩

/-- The string that a handler reads, or the reference that it was asked for. -/
def memberOr (name txRef : String) (members : List (String × Value)) : String :=
  if goMember name members == "" then txRef else goMember name members

def handleMojaloopTransfer (txRef : String) (reply : Reply) :
    Except HandlerError MojaloopTransferResponse := do
  let mlResp ← callProvider "MOJALOOP_ERROR" "MOJALOOP_PARSE_ERROR" reply
  pure
    { txRef
      externalRef := memberOr "transferId" txRef mlResp
      status := if goMember "transferState" mlResp == "COMMITTED" then .completed else .pending
      mode := "mojaloop" }

def handleMojaloopStatus (txRef : String) (reply : Reply) :
    Except HandlerError MojaloopStatusResponse := do
  let mlResp ← callProvider "MOJALOOP_STATUS_ERROR" "MOJALOOP_PARSE_ERROR" reply
  let state := goMember "transferState" mlResp
  pure
    { txRef
      externalRef := txRef
      status :=
        if state == "COMMITTED" then .completed
        else if state == "ABORTED" || state == "REJECTED" then .failed
        else .pending
      completedAt := goMember "completedTimestamp" mlResp
      failureReason := goMember "errorInformation" mlResp }

def handleNIPTransfer (txRef : String) (reply : Reply) :
    Except HandlerError MojaloopTransferResponse := do
  let nipResp ← callProvider "NIP_ERROR" "NIP_PARSE_ERROR" reply
  pure
    { txRef
      externalRef := memberOr "sessionId" txRef nipResp
      status := if goMember "responseCode" nipResp == "00" then .completed else .pending
      mode := "nip" }

/-! ### The client -/

inductive ClientError where
  | unreachable
  | httpFailure (status : Nat)
  /-- The body is no JSON, or `null`, of which no member can be read. -/
  | unreadable

structure TransferResult where
  txRef : String
  externalRef : Option Value
  status : PaymentStatus
  mode : String
  message : Option Value

structure TransferStatusResult where
  txRef : String
  externalRef : Option Value
  status : PaymentStatus
  (completedAt failureReason : Option Value)

def isOk (status : Nat) : Bool := 200 ≤ status && status < 300

/-- `resp.json()`, with a member read of it. -/
def readable : Option Value → Except ClientError Value
  | none | some .null => .error .unreadable
  | some result => .ok result

def fetchTransfer : Reply → Except ClientError Value
  | .unreachable => .error .unreachable
  | .answered status _ body => if isOk status then readable body else .error (.httpFailure status)

/-- A poll takes an HTTP failure for a transfer that is not through yet. -/
def fetchStatus : Reply → Except ClientError (Option Value)
  | .unreachable => .error .unreachable
  | .answered status _ body => if isOk status then (readable body).map some else .ok none

def isText (text : String) (value : Option Value) : Bool := string? value == some text

def mojaloopInitiate (txRef : String) (reply : Reply) : Except ClientError TransferResult := do
  let result ← fetchTransfer reply
  pure
    { txRef
      externalRef := get "transferId" result
      status := if isText "COMMITTED" (get "transferState" result) then .completed else .pending
      mode := "mojaloop"
      message := none }

def nipInitiate (txRef : String) (reply : Reply) : Except ClientError TransferResult := do
  let result ← fetchTransfer reply
  pure
    { txRef
      externalRef := get "SessionID" result
      status := if isText "00" (get "ResponseCode" result) then .completed else .failed
      mode := "nip"
      message := get "ResponseMessage" result }

def TransferStatusResult.notThrough (txRef : String) : TransferStatusResult :=
  ⟨txRef, some (.string txRef), .pending, none, none⟩

def mojaloopStatus (txRef : String) (reply : Reply) : Except ClientError TransferStatusResult := do
  match ← fetchStatus reply with
  | none => pure (.notThrough txRef)
  | some result =>
    pure
      { txRef
        externalRef := get "transferId" result
        status := if isText "COMMITTED" (get "transferState" result) then .completed else .pending
        completedAt := get "completedTimestamp" result
        failureReason := none }

end Bis.PaymentRails
