import Bis.TigerBeetle.Account
import Bis.Transition.Run

/-!
The paths that take money from a tenant account: `execute_debit` of the ledger
service, and `recordDebit` and `debitTenantForIntelligenceAssessment` of the
billing code. Each is a balance read and, when the balance suffices, a
posting; the two are separate remote calls. A debit call is therefore a small
process, and a run interleaves the steps of any number of them.

The SHA-256 implementations both services import are the parameter `sha256`.
-/

namespace Bis.TigerBeetle

open Bis.Transition Bis.Number

def accountRevenue : String := "1"
def accountFloat : String := "2"
def tenantPrefix : String := "10000"

def utf8 (text : String) : List UInt8 := text.toUTF8.data.toList

/-- `u64::to_be_bytes`. -/
def toBeBytes (n : Nat) : List UInt8 :=
  (List.range 8).map fun i => UInt8.ofNat (n / 256 ^ (7 - i) % 256)

def hexDigit (n : Nat) : Char := "0123456789abcdef".toList.getD n '0'

def hexEncode (bytes : List UInt8) : String :=
  String.ofList (bytes.flatMap fun b => [hexDigit (b.toNat / 16), hexDigit (b.toNat % 16)])

/-- The bytes `deterministic_transfer_id` hashes: a domain tag, and every
component behind its length. -/
def transferPreimage (operation : String) (tenantId : Int) (currency businessRef : String)
    (code : Nat) : List UInt8 :=
  utf8 "bis-tigerbeetle-transfer-v1\x00" ++
    [operation, toString tenantId, currency, businessRef, toString code].flatMap fun component =>
      toBeBytes (utf8 component).length ++ utf8 component

section Identifiers

variable (sha256 : List UInt8 → List UInt8)

/-- `deterministic_transfer_id`: the first 16 bytes of the digest, in hex. -/
def deterministicTransferId (operation : String) (tenantId : Int)
    (currency businessRef : String) (code : Nat) : String :=
  hexEncode ((sha256 (transferPreimage operation tenantId currency businessRef code)).take 16)

/-- `createHash("sha256").update(text).digest("hex").slice(0, 32)`. -/
def hexDigest32 (text : String) : String :=
  String.ofList ((hexEncode (sha256 (utf8 text))).toList.take 32)

def intelligenceAssessmentTransferId (billingEventId : String) : String :=
  hexDigest32 sha256 ("bis:intelligence-assessment:v1:" ++ billingEventId)

def deterministicDebitTransferId (tenantId investigationId tier : String)
    (amountKobo : Int) : String :=
  hexDigest32 sha256 ("bis:investigation-debit:v2:" ++ tenantId ++ ":" ++ investigationId ++
    ":" ++ tier ++ ":" ++ toString amountKobo)

end Identifiers

/-- `DebitRequest`; the amount and the tier are `u64`. -/
structure DebitRequest where
  tenantId : Int
  amountKobo : UInt64
  currency : String
  tier : UInt64
  investigationRef : String

inductive Tier where
  | basic | standard | premium

def Tier.name : Tier → String
  | .basic => "basic"
  | .standard => "standard"
  | .premium => "premium"

/-- `TIER_AMOUNTS`. -/
def tierAmounts : Tier → Int
  | .basic => 50000
  | .standard => 150000
  | .premium => 500000

structure RecordDebitInput where
  contextTenantId : Option Int
  (tenantId investigationId : String)
  tier : Tier := .basic
  amountKobo : Option Int := none

structure AssessmentDebitInput where
  tenantId : Int
  billingEventId : String
  amountKobo : Int

inductive DebitRoute where
  | executeDebit (request : DebitRequest)
  | recordDebit (input : RecordDebitInput)
  | debitTenantForIntelligenceAssessment (input : AssessmentDebitInput)

/-- A debit whose request was accepted and whose balance check is still to be
made: the tenant account and the transfer that is going to be posted. -/
structure Debit where
  route : DebitRoute
  transfer : Transfer

def tenantAccountId (tenantId : String) : String := tenantPrefix ++ tenantId

/-- `validate_account_id`. -/
def validateAccountId (accountId : String) : Except LedgerError Unit :=
  if accountId.isEmpty ∨ accountId.utf8ByteSize > 39 ∨ !accountId.toList.all Char.isDigit then
    .error .invalidAccountId
  else .ok ()

/-- The regular expression `^[1-9]\d*$`. -/
def isCanonicalTenant (tenantId : String) : Bool :=
  match tenantId.toList with
  | [] => false
  | first :: rest => first.isDigit && first != '0' && rest.all Char.isDigit

def assertBillingTenantAccess (contextTenantId : Option Int) (requestedTenantId : String) :
    Except LedgerError Unit :=
  if !isCanonicalTenant requestedTenantId then
    .error (.badRequest "A canonical tenant identifier is required")
  else if contextTenantId.any fun tenant => toString tenant != requestedTenantId then
    .error (.forbidden "Cross-tenant billing access is denied")
  else .ok ()

/-- The request checks each route makes before it looks at the ledger, and the
transfer it is going to post. -/
def DebitRoute.prepare (sha256 : List UInt8 → List UInt8) :
    DebitRoute → Except LedgerError Transfer
  | .executeDebit request => do
    let account := tenantAccountId (toString request.tenantId)
    validateAccountId account
    pure
      { id := deterministicTransferId sha256 "debit" request.tenantId request.currency
          request.investigationRef request.tier.toNat
        debitAccountId := account
        creditAccountId := accountRevenue
        amount := request.amountKobo.toNat }
  | .recordDebit input => do
    assertBillingTenantAccess input.contextTenantId input.tenantId
    let amount := input.amountKobo.getD (tierAmounts input.tier)
    if amount ≠ tierAmounts input.tier then
      throw (.forbidden "Investigation tier pricing is server controlled")
    pure
      { id := deterministicDebitTransferId sha256 input.tenantId input.investigationId
          input.tier.name amount
        debitAccountId := tenantAccountId input.tenantId
        creditAccountId := accountRevenue
        amount := amount.toNat }
  | .debitTenantForIntelligenceAssessment input => do
    if input.tenantId ≤ 0 ∨ !isSafeInteger input.amountKobo ∨ input.amountKobo ≤ 0 then
      throw (.badRequest "A valid tenant and positive NGN assessment charge are required")
    pure
      { id := intelligenceAssessmentTransferId sha256 input.billingEventId
        debitAccountId := tenantAccountId (toString input.tenantId)
        creditAccountId := accountRevenue
        amount := input.amountKobo.toNat }

/-- `assertSufficientLedgerBalance`. -/
def assertSufficientLedgerBalance (tenantId : String) (amountKobo : Int) (account : TbAccount) :
    Except LedgerError Int := do
  let available ← getTenantAvailableBalanceKobo account
  if available < amountKobo then throw (.insufficientFunds tenantId amountKobo available)
  pure available

/-- The balance check of a debit on the account it has just read. The ledger
service decodes every field into a `u64` and compares the amount as an `i64`. -/
def Debit.check (debit : Debit) (account : TbAccount) : Except LedgerError Int :=
  match debit.route with
  | .executeDebit request =>
    let available := account.availableBalance
    if !account.fitsU64 then .error .httpError
    else if available < wrapI64 request.amountKobo.toNat then
      .error (.insufficientBalance debit.transfer.debitAccountId (max available 0).toNat
        request.amountKobo.toNat)
    else .ok available
  | .recordDebit input =>
    assertSufficientLedgerBalance input.tenantId debit.transfer.amount account
  | .debitTenantForIntelligenceAssessment input =>
    assertSufficientLedgerBalance (toString input.tenantId) debit.transfer.amount account

inductive Phase where
  | idle
  | reading (debit : Debit)
  | posting (debit : Debit) (account : TbAccount)
  | recording (debit : Debit)
  | finished (reply : Except LedgerError String)

/-- A row of `tigerbeetle_transfers`: the durable claim `recordDebit` makes. -/
structure Claim where
  transferId : String
  tenantId : Option Int
  reconciled : Bool

structure Service where
  ledger : Ledger
  claims : List Claim
  calls : Nat → Phase

inductive Action where
  | submit (call : Nat) (route : DebitRoute)
  | readAccount (call : Nat)
  | postTransfer (call : Nat)
  | markReconciled (call : Nat)
  /-- A remote call fails or the process dies; what was posted stays posted. -/
  | fail (call : Nat) (error : LedgerError)

def Service.setCall (s : Service) (call : Nat) (phase : Phase) : Service :=
  { s with calls := Function.update s.calls call phase }

/-- The claim row of a debit, where its route makes one. -/
def Debit.claim (debit : Debit) : Option Claim :=
  match debit.route with
  | .recordDebit input => some ⟨debit.transfer.id, input.contextTenantId, false⟩
  | _ => none

/-- `onConflictDoNothing`: a replay finds the claim and answers from it. -/
def Service.submitCall (s : Service) (call : Nat) (debit : Debit) : Service :=
  match debit.claim with
  | none => s.setCall call (.reading debit)
  | some claim =>
    if s.claims.any fun c => c.transferId == claim.transferId then
      s.setCall call (.finished (.ok debit.transfer.id))
    else { s with claims := claim :: s.claims }.setCall call (.reading debit)

/-- A rejected `recordDebit` releases its claim when the funds were missing;
the `tenantId` comparison is never true for a null tenant context. -/
def Service.releaseClaim (s : Service) (debit : Debit) (error : LedgerError) : Service :=
  match debit.route, error with
  | .recordDebit input, .insufficientFunds _ _ _ =>
    { s with claims := s.claims.filter fun c =>
        !(c.transferId == debit.transfer.id && input.contextTenantId.isSome &&
          c.tenantId == input.contextTenantId) }
  | _, _ => s

def Service.reconcile (s : Service) (debit : Debit) : Service :=
  { s with claims := s.claims.map fun c =>
      if c.transferId = debit.transfer.id then { c with reconciled := true } else c }

def debitStep (sha256 : List UInt8 → List UInt8) : Step Service Action
  | s, .submit call route =>
    match s.calls call, route.prepare sha256 with
    | .idle, .ok transfer => some (s.submitCall call ⟨route, transfer⟩)
    | .idle, .error error => some (s.setCall call (.finished (.error error)))
    | _, _ => none
  | s, .readAccount call =>
    match s.calls call with
    | .reading debit =>
      let account := s.ledger.account debit.transfer.debitAccountId
      match debit.check account with
      | .ok _ => some (s.setCall call (.posting debit account))
      | .error error =>
        some ((s.releaseClaim debit error).setCall call (.finished (.error error)))
    | _ => none
  | s, .postTransfer call =>
    match s.calls call with
    | .posting debit _ =>
      some ({ s with ledger := s.ledger.post debit.transfer }.setCall call (.recording debit))
    | _ => none
  | s, .markReconciled call =>
    match s.calls call with
    | .recording debit =>
      some ((s.reconcile debit).setCall call (.finished (.ok debit.transfer.id)))
    | _ => none
  | s, .fail call error => some (s.setCall call (.finished (.error error)))

end Bis.TigerBeetle
