import Bis.Relation.Keyed
import Bis.Transition.Run

/-!
Stablecoin transfers. A request looks for a row under its reference, asks the gateway
to move the funds, and stores a row, each a step of its own. The gateway asks the
settlement bridge, whether or not the request still waits for it. Any number of
requests are under way, and each may be given up or lost at any step. Other procedures
write rows of the same table.
-/

namespace Bis.Transfers

open Bis.Relation Bis.Transition

/-! ### The table -/

/-- The values of the enumeration `transaction_type`. -/
def transactionTypes : List String :=
  ["wire_transfer", "cash_deposit", "cash_withdrawal", "cheque", "rtgs", "nip", "swift_mt103",
   "swift_mt202", "sepa_credit", "sepa_debit", "internal_transfer", "trade_settlement",
   "fx_conversion", "card_payment", "mobile_money"]

structure Transaction where
  txRef : String
  tenantId : Option Nat
  (type status amount currency originatorAccount originatorName beneficiaryAccount : String)
  (beneficiaryName narration : String)
  tigerBeetleId : Option String
  deriving DecidableEq

/-- What the types of the columns let in. -/
def Transaction.fits (row : Transaction) : Bool :=
  transactionTypes.contains row.type && decide (row.txRef.length ≤ 64) &&
    decide (row.currency.length ≤ 3) && decide (row.originatorAccount.length ≤ 64) &&
    decide (row.originatorName.length ≤ 255) && decide (row.beneficiaryAccount.length ≤ 64) &&
    decide (row.beneficiaryName.length ≤ 255) &&
    row.tigerBeetleId.all fun id => decide (id.length ≤ 32)

/-- `INSERT ... ON CONFLICT DO NOTHING`; `none` is an error. -/
def insert (row : Transaction) (rows : List Transaction) : Option (List Transaction) :=
  if row.fits then
    some (if rows.any fun other => other.txRef == row.txRef then rows else rows ++ [row])
  else none

/-! ### A transfer -/

structure TransferInput where
  (txRef fromAddress toAddress amountUnits currency network : String)
  narration : Option String

/-- What the schema of the procedure lets in. -/
def TransferInput.valid (input : TransferInput) : Bool :=
  decide (1 ≤ input.txRef.length ∧ input.txRef.length ≤ 64) &&
    decide (10 ≤ input.fromAddress.length ∧ input.fromAddress.length ≤ 100) &&
    decide (10 ≤ input.toAddress.length ∧ input.toAddress.length ≤ 100) &&
    (input.amountUnits != "" && input.amountUnits.toList.all fun c => decide ('0' ≤ c ∧ c ≤ '9')) &&
    ["USDC", "cUSD", "eNaira"].contains input.currency &&
    ["ethereum", "celo", "polygon", "nigeria"].contains input.network &&
    input.narration.all fun text => decide (text.length ≤ 256)

structure TransferResult where
  (txRef txHash status network currency : String)
  gasUsed : Option String
  deriving DecidableEq

/-- What the bridge answers, an error apart. -/
structure BridgeResponse where
  (txHash status gasUsed : Option String)

def blank (text : String) : Bool := text.toList.all Char.isWhitespace

/-- What the gateway refuses before it asks the bridge. -/
def gatewayAccepts (bridge : Bool) (input : TransferInput) : Bool :=
  bridge && input.txRef != "" && input.fromAddress != "" && input.toAddress != "" &&
    input.amountUnits != ""

/-- `handleStablecoinTransfer` once the bridge has answered. -/
def gatewayReply (input : TransferInput) (response : Option BridgeResponse) :
    Option TransferResult := do
  let response ← response
  let txHash := response.txHash.getD ""
  let status := response.status.getD ""
  if blank txHash || blank status then none
  else if ["pending", "submitted", "confirmed"].contains status.toLower then
    some
      { txRef := input.txRef, txHash, status
        network := if input.network = "" then "ethereum" else input.network
        currency := if input.currency = "" then "USDC" else input.currency
        gasUsed := response.gasUsed.bind fun gas => if gas = "" then none else some gas }
  else none

/-- The row that a transfer is to leave. -/
def transferRow (user : Nat) (input : TransferInput) (result : TransferResult) : Transaction where
  txRef := result.txRef
  tenantId := none
  type := "stablecoin"
  status := if result.status = "confirmed" then "completed" else "pending"
  amount := input.amountUnits
  currency := input.currency
  originatorAccount := input.fromAddress
  originatorName := "user:" ++ toString user
  beneficiaryAccount := input.toAddress
  beneficiaryName := input.toAddress
  narration := input.narration.getD ("Stablecoin transfer on " ++ input.network)
  tigerBeetleId := some result.txHash

/-- The reply that is made of a row. -/
def existingReply (input : TransferInput) (row : Transaction) : TransferResult where
  txRef := row.txRef
  txHash := row.tigerBeetleId.getD ""
  status := row.status
  network := input.network
  currency := input.currency
  gasUsed := none

/-! ### Requests -/

inductive Stage where
  | checking
  /-- There was no row. -/
  | asking
  | waiting
  | answered (result : TransferResult)
  | replied (result : TransferResult)
  /-- The reply is made of a stored row. -/
  | repeated (row : Transaction) (reply : TransferResult)
  | failed
  deriving DecidableEq

structure Request where
  id : Nat
  tenantId : Option Nat
  user : Nat
  input : TransferInput
  stage : Stage

/-- A transfer that the gateway was asked for. -/
structure Ask where
  request : Nat
  input : TransferInput
  /-- The gateway has asked the bridge. -/
  bridged : Bool

def Ask.txRef (ask : Ask) : String := ask.input.txRef

structure System where
  /-- Whether the gateway has a bridge. -/
  bridge : Bool
  rows : List Transaction
  requests : List Request
  asks : List Ask

def System.empty (bridge : Bool) : System := ⟨bridge, [], [], []⟩

inductive Action where
  | check
  | ask
  | answer (response : Option BridgeResponse)
  | store
  /-- A time-out, an error, or a crash. -/
  | giveUp

inductive Label where
  | transfer (request : Nat) (tenantId : Option Nat) (user : Nat) (input : TransferInput)
  | act (request : Nat) (action : Action)
  /-- The gateway handles what a request has asked for. -/
  | handle (request : Nat)
  /-- Another procedure stores a row. -/
  | recorded (row : Transaction)

namespace System

def goOn (s : System) (request : Request) (stage : Stage) : System :=
  { s with requests := upsert Request.id { request with stage } s.requests }

def act (s : System) (id : Nat) (action : Action) : Option System := do
  let request ← lookup Request.id id s.requests
  match request.stage, action with
  | .checking, .check =>
    match s.rows.find? fun row => row.txRef == request.input.txRef with
    | some row => some (s.goOn request (.repeated row (existingReply request.input row)))
    | none => some (s.goOn request .asking)
  | .asking, .ask =>
    some { s.goOn request .waiting with asks := s.asks ++ [⟨request.id, request.input, false⟩] }
  | .waiting, .answer response =>
    if s.asks.any fun ask => ask.request == request.id && ask.bridged then
      match gatewayReply request.input response with
      | some result => some (s.goOn request (.answered result))
      | none => some (s.goOn request .failed)
    else none
  | .answered result, .store =>
    match insert (transferRow request.user request.input result) s.rows with
    | some rows => some { s.goOn request (.replied result) with rows }
    | none => some (s.goOn request .failed)
  | _, .giveUp => some (s.goOn request .failed)
  | _, _ => none

def step : Step System Label
  | s, .transfer id tenantId user input =>
    if !input.valid || s.requests.any fun request => request.id == id then none
    else some { s with requests := s.requests ++ [⟨id, tenantId, user, input, .checking⟩] }
  | s, .act id action => s.act id action
  | s, .handle id =>
    if s.asks.any fun ask =>
        ask.request == id && (!ask.bridged && gatewayAccepts s.bridge ask.input) then
      some { s with
        asks := updateWhere (fun ask => ask.request == id) (fun ask => { ask with bridged := true })
          s.asks }
    else none
  | s, .recorded row =>
    if !row.fits || s.rows.any fun other => other.txRef == row.txRef then none
    else some { s with rows := s.rows ++ [row] }

end System

end Bis.Transfers
