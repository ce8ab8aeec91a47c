import Bis.PaymentRails.Listing
import Bis.Relation.Matching
import Bis.Relation.Total
import Mathlib.Algebra.Order.Ring.Rat
import Mathlib.Algebra.Order.Group.Abs
import Mathlib.Data.List.Dedup
import Mathlib.Data.List.Induction

/-!
The balances of the accounts that transfers name. The transfers are summed up by
account, name and currency, once by sender and once by receiver; a page of either is
merged into a map by account. The two sums over all statuses are selected and not used, and
left out.
-/

namespace Bis.PaymentRails

open Bis.Relation

/-- Which account of a transfer a query is about. -/
inductive Side where
  | debits
  | credits

def Side.account : Side → Transaction → Option String
  | .debits, row => row.originatorAccount
  | .credits, row => row.beneficiaryAccount

def Side.name : Side → Transaction → String
  | .debits, row => row.originatorName
  | .credits, row => row.beneficiaryName

structure GroupKey where
  (accountId accountName currency : String)
  deriving DecidableEq

/-- The group of a row; no row without an account is in one. -/
def Side.key (side : Side) (row : Transaction) : Option GroupKey :=
  (side.account row).map fun account => ⟨account, side.name row, row.currency⟩

/-- The sums a balance has of each side. -/
inductive Counted where
  | pending
  | posted

def Counted.takes : Counted → Transaction → Bool
  | .pending, row => row.status ∈ [.pending, .underReview, .flagged]
  | .posted, row => row.status = .completed

structure GroupSums where
  key : GroupKey
  (pending posted : Rat)

/-- `z.array(z.string()).max(50).optional()` and `z.number().min(1).max(100)`. -/
structure BalancesInput where
  accountIds : Option (List String)
  limit : Nat
  atLeast : 1 ≤ limit
  atMost : limit ≤ 100

/-- The filter by accounts; an empty list is none. -/
def BalancesInput.asks (input : BalancesInput) (account : String) : Bool :=
  input.accountIds.all fun ids => ids.isEmpty || account ∈ ids

/-- The order in which the groups of a query come, which the query leaves open. -/
structure GroupOrder where
  order : Side → List GroupKey → List GroupKey
  perm : ∀ side keys, (order side keys).Perm keys

/-- The tables and the caller. -/
structure Call where
  groupOrder : GroupOrder
  sums : RealSum
  rows : List Transaction
  tenantId : Option Nat
  input : BalancesInput

namespace Call

def tenantRows (call : Call) : List Transaction :=
  call.rows.filter (tenantCondition call.tenantId)

/-- The rows of the `WHERE` clause of a side. -/
def sideRows (call : Call) (side : Side) : List Transaction :=
  call.tenantRows.filter fun row => (side.account row).any call.input.asks

/-- The groups of a side that are on its page. -/
def pageKeys (call : Call) (side : Side) : List GroupKey :=
  (call.groupOrder.order side ((call.sideRows side).filterMap side.key).dedup).take
    call.input.limit

def groupTotal (call : Call) (side : Side) (counted : Counted) (key : GroupKey) : Rat :=
  call.sums.sumCase Transaction.amount counted.takes
    ((call.sideRows side).filter fun row => side.key row == some key)

def groups (call : Call) (side : Side) : List GroupSums :=
  (call.pageKeys side).map fun key =>
    { key, pending := call.groupTotal side .pending key
      posted := call.groupTotal side .posted key }

end Call

structure AccountBalance where
  (accountId accountName : String)
  (debitsPending debitsPosted creditsPending creditsPosted netBalance : Rat)
  currency : String

def findBalance (account : String) (balances : List AccountBalance) : Option AccountBalance :=
  balances.find? fun b => b.accountId == account

/-- `balanceMap.set`: a key that is there keeps its place. -/
def setBalance (b : AccountBalance) : List AccountBalance → List AccountBalance
  | [] => [b]
  | first :: rest =>
    if first.accountId = b.accountId then b :: rest else first :: setBalance b rest

def ofDebit (d : GroupSums) : AccountBalance :=
  { accountId := d.key.accountId, accountName := d.key.accountName
    debitsPending := d.pending, debitsPosted := d.posted, creditsPending := 0, creditsPosted := 0
    netBalance := -d.posted, currency := d.key.currency }

def ofCredit (c : GroupSums) : AccountBalance :=
  { accountId := c.key.accountId, accountName := c.key.accountName
    debitsPending := 0, debitsPosted := 0, creditsPending := c.pending, creditsPosted := c.posted
    netBalance := c.posted, currency := c.key.currency }

def withCredit (existing : AccountBalance) (c : GroupSums) : AccountBalance :=
  { existing with
    creditsPending := c.pending, creditsPosted := c.posted
    netBalance := c.posted - existing.debitsPosted }

def addDebit (balances : List AccountBalance) (d : GroupSums) : List AccountBalance :=
  if d.key.accountId = "" then balances else setBalance (ofDebit d) balances

def addCredit (balances : List AccountBalance) (c : GroupSums) : List AccountBalance :=
  if c.key.accountId = "" then balances
  else
    match findBalance c.key.accountId balances with
    | some existing => setBalance (withCredit existing c) balances
    | none => setBalance (ofCredit c) balances

namespace Call

/-- The map of the balances in the order of its entries. -/
def balanceMap (call : Call) : List AccountBalance :=
  (call.groups .credits).foldl addCredit ((call.groups .debits).foldl addDebit [])

structure Balances where
  balances : List AccountBalance
  totalAccounts : Nat

def getAccountBalances (call : Call) : Balances :=
  { balances := call.balanceMap.mergeSort fun a b => decide (|b.netBalance| ≤ |a.netBalance|)
    totalAccounts := call.balanceMap.length }

/-! ### What the balances are for -/

/-- The rows that count for an account in a currency. -/
def inBook (side : Side) (counted : Counted) (account currency : String) (row : Transaction) :
    Bool :=
  side.account row == some account && row.currency == currency && counted.takes row

def bookTotal (call : Call) (side : Side) (counted : Counted) (account currency : String) : Rat :=
  total Transaction.amount (inBook side counted account currency) call.tenantRows

/-- A balance is that of its account in its currency. -/
structure Right (call : Call) (b : AccountBalance) : Prop where
  debitsPending : b.debitsPending = call.bookTotal .debits .pending b.accountId b.currency
  debitsPosted : b.debitsPosted = call.bookTotal .debits .posted b.accountId b.currency
  creditsPending : b.creditsPending = call.bookTotal .credits .pending b.accountId b.currency
  creditsPosted : b.creditsPosted = call.bookTotal .credits .posted b.accountId b.currency
  netBalance : b.netBalance = call.bookTotal .credits .posted b.accountId b.currency -
    call.bookTotal .debits .posted b.accountId b.currency

/-- No sum of the tenant's amounts loses digits. -/
def Exact (call : Call) : Prop := Fits (call.tenantRows.map Transaction.amount)

/-- Every balance is right, and those of all accounts cancel out. -/
def Balanced (call : Call) : Prop :=
  (∀ b ∈ call.getAccountBalances.balances, call.Right b) ∧
    ((∀ account, call.input.asks account) →
      (call.getAccountBalances.balances.map AccountBalance.netBalance).sum = 0)

end Call

end Bis.PaymentRails
