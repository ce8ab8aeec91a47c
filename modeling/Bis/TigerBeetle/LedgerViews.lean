import Bis.Calendar.Iso
import Bis.Number.Binary64
import Bis.TigerBeetle.Debit

/-!
The two views of a tenant's transfers: `getLedger` for the billing page and
`exportLedger` for a file. Each asks the ledger for the transfers of the account, the
first with a limit, and filters and converts them in its own way. `toISOString` throws
on an instant that a `Date` cannot hold.
-/

namespace Bis.TigerBeetle.LedgerViews

open Bis.Calendar Bis.Number

/-- A transfer in the reply of the ledger. -/
structure LedgerTransfer where
  id : String
  timestamp : Option Nat
  (amount code : Nat)
  userData128 : Option String := none
  userData64 : Option Nat := none

/-- A natural number as JSON numbers and their products hold it. -/
def number (n : Nat) : Nat := (roundToDouble n).toNat

/-- `new Date(value)`. -/
def newDate (value : ℚ) : Option Nat :=
  if value ≤ maxTime then some ⌊value⌋₊ else none

/-- The number that `x.toFixed(2)` writes: the nearest hundredth, the upper of two, and
from 10^21 on the number itself. -/
def toFixed2 (x : ℚ) : ℚ :=
  if x < 10 ^ 21 then ⌊100 * x + 1 / 2⌋ / 100 else x

inductive EntryType where
  | credit
  | debit
  deriving DecidableEq

inductive TypeFilter where
  | all
  | debit
  | credit
  deriving DecidableEq

/-- `transfer.code === 2 ? "credit" : "debit"`. -/
def LedgerTransfer.entryType (transfer : LedgerTransfer) : EntryType :=
  if transfer.code = 2 then .credit else .debit

inductive ViewError where
  | access (error : LedgerError)
  /-- "Invalid time value". -/
  | rangeError

/-! ### The export -/

structure ExportLedgerInput where
  tenantId : String
  fromTimestamp : Option Int := none
  toTimestamp : Option Int := none
  type : TypeFilter := .all

/-- A row of the file; the amount is the number its text stands for. -/
structure ExportRow where
  (id timestamp : String)
  type : EntryType
  amountNgn : ℚ
  (reference tier : String)

def tierNames : Nat → Option String
  | 1 => some "basic"
  | 2 => some "standard"
  | 3 => some "premium"
  | _ => none

/-- `(transfer.timestamp ?? 0) * 1000`. -/
def LedgerTransfer.exportTime (transfer : LedgerTransfer) : Nat :=
  number (number (transfer.timestamp.getD 0) * 1000)

/-- A bound that is absent or zero is none. -/
def unbounded (bound : Option Int) : Bool := bound = none || bound = some 0

def exported (input : ExportLedgerInput) (transfer : LedgerTransfer) : Bool :=
  if input.type = .debit ∧ transfer.code ≠ 1 then false
  else if input.type = .credit ∧ transfer.code ≠ 2 then false
  else
    (unbounded input.fromTimestamp || decide (input.fromTimestamp.getD 0 ≤ transfer.exportTime)) &&
      (unbounded input.toTimestamp || decide (transfer.exportTime ≤ input.toTimestamp.getD 0))

def exportRow (transfer : LedgerTransfer) : Except ViewError ExportRow :=
  match (newDate transfer.exportTime).bind toISOString with
  | none => .error .rangeError
  | some timestamp => .ok
      { id := transfer.id
        timestamp
        type := transfer.entryType
        amountNgn := toFixed2 (toDouble (number transfer.amount / 100))
        reference := transfer.userData128.getD ""
        tier := (tierNames (transfer.userData64.getD 0)).getD "" }

/-! ### The page -/

structure GetLedgerInput where
  tenantId : String
  limit : Nat := 100
  type : TypeFilter := .all

structure LedgerEntry where
  id : String
  type : EntryType
  amountKobo : Nat
  description : String
  investigationRef : Option String
  timestamp : Option Nat

def ledgerEntry (transfer : LedgerTransfer) : LedgerEntry :=
  { id := transfer.id
    type := transfer.entryType
    amountKobo := number transfer.amount
    description :=
      if transfer.code = 2 then "Verified payment credit" else "Investigation debit"
    investigationRef := if transfer.code = 1 then transfer.userData128 else none
    timestamp := newDate (toDouble (number (transfer.timestamp.getD 0) / 1000000)) }

def shown (type : TypeFilter) (entry : LedgerEntry) : Bool :=
  match type with
  | .all => true
  | .debit => entry.type = .debit
  | .credit => entry.type = .credit

section Endpoint

-- The reply for an account, under a limit or without.
variable (transfersOf : String → Option Nat → Option (List LedgerTransfer))

def exportLedger (contextTenantId : Option Int) (input : ExportLedgerInput) :
    Except ViewError (List ExportRow) :=
  match assertBillingTenantAccess contextTenantId input.tenantId with
  | .error error => .error (.access error)
  | .ok _ =>
    (((transfersOf (tenantAccountId input.tenantId) none).getD []).filter
      (exported input)).mapM exportRow

def getLedger (contextTenantId : Option Int) (input : GetLedgerInput) :
    Except ViewError (List LedgerEntry) :=
  match assertBillingTenantAccess contextTenantId input.tenantId with
  | .error error => .error (.access error)
  | .ok _ =>
    .ok ((((transfersOf (tenantAccountId input.tenantId) (some input.limit)).getD []).map
      ledgerEntry).filter (shown input.type))

end Endpoint

/-! ### What agreement is -/

/-- A row and an entry about one transfer. -/
structure SameTransfer (row : ExportRow) (entry : LedgerEntry) : Prop where
  id : row.id = entry.id
  type : row.type = entry.type
  amount : row.amountNgn * 100 = entry.amountKobo
  instant : entry.timestamp.bind toISOString = some row.timestamp

/-- The views list the same transfers in the same way. -/
def Agree (rows : Except ViewError (List ExportRow))
    (entries : Except ViewError (List LedgerEntry)) : Prop :=
  match rows, entries with
  | .ok rows, .ok entries => List.Forall₂ SameTransfer rows entries
  | _, _ => False

/-- The amount is within half a kobo of a multiple of a hundred steps of the numbers
around it in naira. -/
def KoboKept (amount : Nat) : Prop :=
  ∃ k : ℤ, (amount : ℚ) - 1 / 2 ≤ k * (100 * ulp (amount / 100)) ∧
    k * (100 * ulp (amount / 100)) < amount + 1 / 2

/-- The codes a type stands for in the export. -/
def TypeFilter.Exports : TypeFilter → Nat → Prop
  | .all, _ => True
  | .debit, code => code = 1
  | .credit, code => code = 2

/-- The codes a type stands for on the page. -/
def TypeFilter.Shows : TypeFilter → Nat → Prop
  | .all, _ => True
  | .debit, code => code ≠ 2
  | .credit, code => code = 2

end Bis.TigerBeetle.LedgerViews
