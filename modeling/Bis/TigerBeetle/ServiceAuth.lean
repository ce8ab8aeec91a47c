import Bis.Relation.Table
import Bis.TigerBeetle.Text
import Mathlib.Data.List.Infix

/-!
The door of the ledger service. `service_auth` checks the headers of a request,
recomputes the signature over its canonical form, reserves its nonce in a
PostgreSQL table and hands it to a handler. A call is a process of these three
steps; a run interleaves any number of calls with changes of the credentials,
the passage of time and the removal of nonce rows that have expired.

The service reads its own clock when it checks a timestamp, and every reading is
an input; the nonce table goes by the clock of the database, in milliseconds.
SHA-256 and HMAC-SHA-256 are parameters. `purged` and `dispatched` are read by no
operation. The arithmetic is that of a release build, which wraps.
-/

namespace Bis.TigerBeetle

open Bis.Number Bis.Relation Bis.Transition

structure LedgerHttpRequest where
  method : String
  /-- `uri().path()`. -/
  path : String
  headers : String → Option (List UInt8)
  body : List UInt8

inductive AuthError where
  | bodyTooLarge | notConfigured | invalidKeyId | invalidNonce | invalidIdentity | expired
  | invalidSignature | invalidPath | replayed | replayUnavailable

/-- `BIS_LEDGER_KEY` and `BIS_LEDGER_KEY_ID`. -/
structure LedgerCredentials where
  (key keyId : String)

def maxSignedLedgerBodyBytes : Nat := 256 * 1024
def maxLedgerClockSkewSeconds : Int := 120

/-! ### Headers -/

/-- `HeaderValue::to_str`: only visible ASCII and tabs make a text. -/
def headerText (value : List UInt8) : Option (List Char) :=
  if value.all fun b => b == 9 || (decide (32 ≤ b) && decide (b < 127)) then
    some (value.map Char.ofUInt8)
  else none

def trim (text : List Char) : List Char :=
  ((text.dropWhile Char.isWhitespace).reverse.dropWhile Char.isWhitespace).reverse

/-- `required_header`; a header text is ASCII, so its length in bytes is its
number of characters. -/
def requiredHeader (headers : String → Option (List UInt8)) (name : String) (maxLength : Nat) :
    Option String := do
  let value ← headers name
  let text ← headerText value
  let trimmed := trim text
  if trimmed.isEmpty ∨ maxLength < trimmed.length then none else some (String.ofList trimmed)

/-- `str::parse` for a signed integer type with these bounds. -/
def parseInteger (lowest highest : Int) (text : String) : Option Int :=
  let (negative, digits) := match text.toList with
    | '-' :: rest => (true, rest)
    | '+' :: rest => (false, rest)
    | rest => (false, rest)
  if digits.isEmpty ∨ ¬ digits.all Char.isDigit then none
  else
    let magnitude : Int := Nat.ofDigitChars 10 digits 0
    let value := if negative then -magnitude else magnitude
    if lowest ≤ value ∧ value ≤ highest then some value else none

def positiveI32Header (headers : String → Option (List UInt8)) (name : String) : Option Int :=
  ((requiredHeader headers name 10).bind (parseInteger (-2 ^ 31) (2 ^ 31 - 1))).filter
    fun value => 0 < value

def i64Header (headers : String → Option (List UInt8)) (name : String) : Option Int :=
  (requiredHeader headers name 20).bind (parseInteger (-2 ^ 63) (2 ^ 63 - 1))

def hexValue (c : Char) : Option Nat :=
  if '0' ≤ c ∧ c ≤ '9' then some (c.toNat - '0'.toNat)
  else if 'a' ≤ c ∧ c ≤ 'f' then some (c.toNat - 'a'.toNat + 10)
  else if 'A' ≤ c ∧ c ≤ 'F' then some (c.toNat - 'A'.toNat + 10)
  else none

/-- `hex::decode`. -/
def hexDecode : List Char → Option (List UInt8)
  | [] => some []
  | [_] => none
  | high :: low :: rest => do
    let h ← hexValue high
    let l ← hexValue low
    let bytes ← hexDecode rest
    pure (UInt8.ofNat (16 * h + l) :: bytes)

/-! ### Time -/

/-- `duration_since(UNIX_EPOCH)`, with `as i64`; a clock before the epoch reads 0. -/
def nowSeconds (clock : Int) : Int := if clock < 0 then 0 else wrapI64 clock

/-- `i64::abs`. -/
def absI64 (x : Int) : Int := wrapI64 x.natAbs

def timestampIsCurrent (clock timestamp : Int) : Bool :=
  absI64 (wrapI64 (nowSeconds clock - timestamp)) ≤ maxLedgerClockSkewSeconds

/-! ### The canonical request -/

def canonicalPath (path : String) : String :=
  if path.toList.head? ≠ some '/' ∨ ['/', '/'] <:+: path.toList ∨ ['.', '.'] <:+: path.toList ∨
      '%' ∈ path.toList then "/invalid"
  else path

/-- What a checked request is dispatched with. -/
structure CheckedRequest where
  (method canonicalPath keyId : String)
  (tenantId actorId timestamp : Int)
  nonce : String
  bodyHash : List UInt8
  deriving DecidableEq

def CheckedRequest.canonicalText (request : CheckedRequest) : String :=
  "BIS-LEDGER-HMAC-V2\n" ++ request.method ++ "\n" ++ request.canonicalPath ++ "\n" ++
    request.keyId ++ "\n" ++ toString request.tenantId ++ "\n" ++ toString request.actorId ++ "\n" ++
    toString request.timestamp ++ "\n" ++ request.nonce ++ "\n" ++ hexEncode request.bodyHash

/-- `canonical_request`. -/
def canonicalRequest (request : CheckedRequest) : List UInt8 := utf8 request.canonicalText

/-- `constant_time_key_match`. -/
def constantTimeKeyMatch (provided expected : String) : Bool :=
  (utf8 provided).length == (utf8 expected).length &&
    ((utf8 provided).zip (utf8 expected)).foldl
      (fun difference pair => difference ||| (pair.1 ^^^ pair.2)) 0 == 0

section Parameters

variable (sha256 : List UInt8 → List UInt8) (hmac : List UInt8 → List UInt8 → List UInt8)

def orElse {α : Type} (error : AuthError) : Option α → Except AuthError α
  | none => .error error
  | some value => .ok value

def ensure (condition : Bool) (error : AuthError) : Except AuthError Unit :=
  if condition then .ok () else .error error

/-- `service_auth` up to the reservation of the nonce. -/
def authenticate (credentials : LedgerCredentials) (clock : Int) (request : LedgerHttpRequest) :
    Except AuthError CheckedRequest := do
  ensure (request.body.length ≤ maxSignedLedgerBodyBytes) .bodyTooLarge
  ensure (!credentials.key.isEmpty && !credentials.keyId.isEmpty) .notConfigured
  let keyId ← orElse .invalidKeyId ((requiredHeader request.headers "x-bis-key-id" 96).filter
    fun value => constantTimeKeyMatch value credentials.keyId)
  let nonce ← orElse .invalidNonce ((requiredHeader request.headers "x-bis-nonce" 128).filter
    fun value => 22 ≤ value.utf8ByteSize)
  let tenantId ← orElse .invalidIdentity (positiveI32Header request.headers "x-bis-tenant-id")
  let actorId ← orElse .invalidIdentity (positiveI32Header request.headers "x-bis-actor-id")
  let timestamp ← orElse .expired ((i64Header request.headers "x-bis-timestamp").filter
    (timestampIsCurrent clock))
  let signature ← orElse .invalidSignature
    ((((request.headers "x-bis-signature").bind headerText).bind hexDecode).filter
      fun value => value.length = 32)
  let path := canonicalPath request.path
  ensure (path != "/invalid") .invalidPath
  let checked : CheckedRequest :=
    { method := request.method
      canonicalPath := path
      keyId
      tenantId
      actorId
      timestamp
      nonce
      bodyHash := sha256 request.body }
  ensure (hmac (utf8 credentials.key) (canonicalRequest checked) == signature) .invalidSignature
  pure checked

end Parameters

/-! ### The nonce table -/

/-- A row of `ledger_request_nonces`. -/
structure NonceRow where
  keyId : String
  nonceHash : List UInt8
  (tenantId actorId : Int)
  (method canonicalPath : String)
  bodySha256 : List UInt8
  (receivedAt expiresAt : Nat)

/-- The primary key. -/
def NonceRow.key (row : NonceRow) : String × List UInt8 := (row.keyId, row.nonceHash)

def nonceRetentionMs : Nat := 15 * 60 * 1000

/-- The row a request reserves. -/
def nonceRow (sha256 : List UInt8 → List UInt8) (request : CheckedRequest) (now : Nat) : NonceRow :=
  { keyId := request.keyId
    nonceHash := sha256 (utf8 request.nonce)
    tenantId := request.tenantId
    actorId := request.actorId
    method := request.method
    canonicalPath := request.canonicalPath
    bodySha256 := request.bodyHash
    receivedAt := now
    expiresAt := now + nonceRetentionMs }

/-- The `CHECK` constraints of the table. -/
def NonceRow.admissible (row : NonceRow) : Bool :=
  decide (0 < row.tenantId) && decide (0 < row.actorId) &&
    (row.method == "POST" || row.method == "GET")

/-- The insert; `none` is a violated constraint and `some none` a conflict on the
primary key. -/
def reserve (rows : List NonceRow) (row : NonceRow) : Option (Option (List NonceRow)) :=
  if ¬ row.admissible then none
  else if rows.any fun other => other.key == row.key then some none
  else some (some (rows ++ [row]))

/-- A call is `over` when it is answered, handed to its handler or dead. -/
inductive AuthPhase where
  | idle
  | reserving (request : CheckedRequest) (clock : Int)
  | dispatching (request : CheckedRequest) (clock : Int) (reservedAt : Nat)
  | over (error : Option AuthError)

/-- A request that reached its handler, with the service's clock at its check and
the database's at its reservation. -/
structure Dispatched where
  request : CheckedRequest
  clock : Int
  reservedAt : Nat

structure LedgerDoor where
  credentials : LedgerCredentials
  nonces : List NonceRow
  calls : Nat → AuthPhase
  databaseClock : Nat
  /-- The rows that have been removed. -/
  purged : List NonceRow
  dispatched : List Dispatched

namespace LedgerDoor

def initial : LedgerDoor :=
  { credentials := ⟨"", ""⟩
    nonces := []
    calls := fun _ => .idle
    databaseClock := 0
    purged := []
    dispatched := [] }

def setCall (s : LedgerDoor) (call : Nat) (phase : AuthPhase) : LedgerDoor :=
  { s with calls := Function.update s.calls call phase }

/-- The removal of the row with a key, where its time is over. -/
def purge (s : LedgerDoor) (key : String × List UInt8) : LedgerDoor :=
  let expired (row : NonceRow) : Bool := row.key == key && decide (row.expiresAt ≤ s.databaseClock)
  { s with
    nonces := s.nonces.filter fun row => !expired row
    purged := s.nonces.filter expired ++ s.purged }

end LedgerDoor

inductive DoorAction where
  | configure (credentials : LedgerCredentials)
  | authenticate (call : Nat) (request : LedgerHttpRequest) (clock : Int)
  | reserve (call : Nat)
  /-- The database does not answer; the row may have been inserted. -/
  | reserveUnavailable (call : Nat) (inserted : Bool)
  | dispatch (call : Nat)
  | crash (call : Nat)
  | purge (key : String × List UInt8)
  | tick (ms : Nat)

section Steps

variable (sha256 : List UInt8 → List UInt8) (hmac : List UInt8 → List UInt8 → List UInt8)

def doorStep : Step LedgerDoor DoorAction
  | s, .configure credentials => some { s with credentials }
  | s, .authenticate call request clock =>
    match s.calls call with
    | .idle =>
      match authenticate sha256 hmac s.credentials clock request with
      | .error error => some (s.setCall call (.over (some error)))
      | .ok checked => some (s.setCall call (.reserving checked clock))
    | _ => none
  | s, .reserve call =>
    match s.calls call with
    | .reserving checked clock =>
      match reserve s.nonces (nonceRow sha256 checked s.databaseClock) with
      | none => some (s.setCall call (.over (some .replayUnavailable)))
      | some none => some (s.setCall call (.over (some .replayed)))
      | some (some nonces) =>
        some ({ s with nonces }.setCall call (.dispatching checked clock s.databaseClock))
    | _ => none
  | s, .reserveUnavailable call inserted =>
    match s.calls call with
    | .reserving checked _ =>
      let rows := reserve s.nonces (nonceRow sha256 checked s.databaseClock)
      let nonces := if inserted then (rows.bind id).getD s.nonces else s.nonces
      some ({ s with nonces }.setCall call (.over (some .replayUnavailable)))
    | _ => none
  | s, .dispatch call =>
    match s.calls call with
    | .dispatching checked clock reservedAt =>
      some ({ s with dispatched := ⟨checked, clock, reservedAt⟩ :: s.dispatched }.setCall call
        (.over none))
    | _ => none
  | s, .crash call => some (s.setCall call (.over none))
  | s, .purge key => some (s.purge key)
  | s, .tick ms => some { s with databaseClock := s.databaseClock + ms }

end Steps

end Bis.TigerBeetle
