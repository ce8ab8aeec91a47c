import Bis.Relation.Keyset
import Mathlib.Data.Rat.Defs

/-!
The transfers of a tenant, and the list of them that is asked for page by page.
A page hands out a cursor, and the query that gets one does not look at it.
Amounts are exact here; the column is a `real`. Instants are microseconds.
-/

namespace Bis.PaymentRails

open Bis.Relation

inductive TransactionStatus where
  | pending
  | completed
  | failed
  | reversed
  | flagged
  | blocked
  | underReview
  deriving DecidableEq

structure Transaction where
  id : Nat
  tenantId : Option Nat
  txRef : String
  (idempotencyKey tigerBeetleId : Option String)
  status : TransactionStatus
  amount : Rat
  (currency originatorName : String)
  originatorAccount : Option String
  beneficiaryName : String
  beneficiaryAccount : Option String
  amlScore : Option Rat
  (createdAt updatedAt : Int)
  deriving DecidableEq

inductive TransferStatus where
  | pending
  | posted
  | voided
  | failed
  | reversed

def mapStatus : TransactionStatus → TransferStatus
  | .completed => .posted
  | .failed => .failed
  | .reversed => .reversed
  | .blocked => .voided
  | .pending => .pending
  | .underReview => .pending
  | .flagged => .pending

/-- The statuses of the table behind a status that is asked for. -/
def statusMap : TransferStatus → List TransactionStatus
  | .pending => [.pending, .underReview, .flagged]
  | .posted => [.completed]
  | .voided => [.blocked]
  | .failed => [.failed]
  | .reversed => [.reversed]

structure TransferSummary where
  id : Nat
  txRef : String
  status : TransferStatus
  amount : Rat
  (currency originatorName beneficiaryName : String)
  (idempotencyKey tigerBeetleId : Option String)
  (createdAt updatedAt : Int)

def summary (row : Transaction) : TransferSummary :=
  { id := row.id, txRef := row.txRef, status := mapStatus row.status, amount := row.amount
    currency := row.currency, originatorName := row.originatorName
    beneficiaryName := row.beneficiaryName, idempotencyKey := row.idempotencyKey
    tigerBeetleId := row.tigerBeetleId, createdAt := row.createdAt, updatedAt := row.updatedAt }

/-- No condition for the caller without a tenant. -/
def tenantCondition (tenantId : Option Nat) (row : Transaction) : Bool :=
  tenantId.all fun tenant => row.tenantId == some tenant

/-- `z.number().min(1).max(200)`. -/
structure PageLimit where
  value : Nat
  atLeast : 1 ≤ value
  atMost : value ≤ 200

/-- No status stands for "all". -/
structure ListInput where
  status : Option TransferStatus
  limit : PageLimit
  cursor : Option String

/-- `ORDER BY createdAt DESC`. Rows of one instant may come in another order with
every query. -/
structure Sorting where
  order : Nat → List Transaction → List Transaction
  perm : ∀ query rows, (order query rows).Perm rows
  descending : ∀ query rows,
    (order query rows).Pairwise fun earlier later => later.createdAt ≤ earlier.createdAt

/-- The rows of the `WHERE` clause. -/
def matching (rows : List Transaction) (tenantId : Option Nat) (status : Option TransferStatus) :
    List Transaction :=
  rows.filter fun row =>
    status.all (fun asked => row.status ∈ statusMap asked) && tenantCondition tenantId row

structure ListResult where
  items : List TransferSummary
  hasMore : Bool
  nextCursor : Option String

/-- The `query`-th query. -/
def listTransfers (sorting : Sorting) (rows : List Transaction) (tenantId : Option Nat)
    (query : Nat) (input : ListInput) : ListResult :=
  let rows := (sorting.order query (matching rows tenantId input.status)).take
    (input.limit.value + 1)
  let hasMore := decide (input.limit.value < rows.length)
  let items := (rows.take input.limit.value).map summary
  { items, hasMore
    nextCursor := if hasMore then items.getLast?.map TransferSummary.txRef else none }

/-- The walk from page to page, each asked for with the cursor of the one before. -/
def readPage (sorting : Sorting) (rows : List Transaction) (tenantId : Option Nat)
    (status : Option TransferStatus) (limit : PageLimit) (query : Nat) (cursor : Option String) :
    Except Unit (Page TransferSummary String) :=
  let result := listTransfers sorting rows tenantId query { status, limit, cursor }
  .ok ⟨result.items, result.nextCursor⟩

/-- The walk ends, and has listed every matching transfer once. -/
def ListsEachOnce (sorting : Sorting) (rows : List Transaction) (tenantId : Option Nat)
    (status : Option TransferStatus) (limit : PageLimit) : Prop :=
  ∃ fuel items, walk (readPage sorting rows tenantId status limit) fuel 0 none =
    some (.ok items) ∧ items.Perm ((matching rows tenantId status).map summary)

variable {sorting : Sorting} {rows : List Transaction} {tenantId : Option Nat}
  {status : Option TransferStatus} {limit : PageLimit}

theorem readPage_of_le {query : Nat} {cursor : Option String}
    (h : (matching rows tenantId status).length ≤ limit.value) :
    readPage sorting rows tenantId status limit query cursor =
      .ok ⟨(sorting.order query (matching rows tenantId status)).map summary, none⟩ := by
  have hlength := (sorting.perm query (matching rows tenantId status)).length_eq
  have hall : (sorting.order query (matching rows tenantId status)).take (limit.value + 1) =
      sorting.order query (matching rows tenantId status) := List.take_of_length_le (by omega)
  have hfirst : (sorting.order query (matching rows tenantId status)).take limit.value =
      sorting.order query (matching rows tenantId status) := List.take_of_length_le (by omega)
  have hmore : decide (limit.value <
      (sorting.order query (matching rows tenantId status)).length) = false := by
    rw [decide_eq_false_iff_not]
    omega
  simp only [readPage, listTransfers, hall, hfirst, hmore, Bool.false_eq_true, if_false]

/-- A page with more behind it hands out a cursor, whatever it was asked with. -/
theorem readPage_of_lt {query : Nat} {cursor : Option String}
    (h : limit.value < (matching rows tenantId status).length) :
    ∃ items next, readPage sorting rows tenantId status limit query cursor =
      .ok ⟨items, some next⟩ := by
  have hlength := (sorting.perm query (matching rows tenantId status)).length_eq
  have hpositive := limit.atLeast
  have hmore : decide (limit.value < ((sorting.order query (matching rows tenantId status)).take
      (limit.value + 1)).length) = true := by
    rw [decide_eq_true_eq, List.length_take]
    omega
  unfold readPage listTransfers
  simp only [hmore, if_true]
  generalize hitems : (((sorting.order query (matching rows tenantId status)).take
    (limit.value + 1)).take limit.value).map summary = items
  have hsome : items ≠ [] := by
    rw [← hitems, ne_eq, ← List.length_eq_zero_iff]
    simp only [List.length_map, List.length_take]
    omega
  rw [List.getLast?_eq_some_getLast hsome]
  exact ⟨_, _, rfl⟩

/-- With more rows than a page the walk never ends. -/
theorem walk_of_lt (h : limit.value < (matching rows tenantId status).length) (fuel query : Nat)
    (cursor : Option String) :
    walk (readPage sorting rows tenantId status limit) fuel query cursor = none := by
  induction fuel generalizing query cursor with
  | zero => rfl
  | succ fuel ih =>
    obtain ⟨items, next, hread⟩ : ∃ items next,
        readPage sorting rows tenantId status limit query cursor = .ok ⟨items, some next⟩ :=
      readPage_of_lt h
    simp only [walk, hread, ih, Option.map_none]

/-- The walk is complete exactly if all that matches is on the first page. -/
theorem listsEachOnce_iff (sorting : Sorting) (rows : List Transaction) (tenantId : Option Nat)
    (status : Option TransferStatus) (limit : PageLimit) :
    ListsEachOnce sorting rows tenantId status limit ↔
      (matching rows tenantId status).length ≤ limit.value := by
  constructor
  · rintro ⟨fuel, items, hwalk, _⟩
    by_contra hmore
    rw [walk_of_lt (by omega)] at hwalk
    cases hwalk
  · intro hfits
    refine ⟨1, (sorting.order 0 (matching rows tenantId status)).map summary, ?_, ?_⟩
    · simp only [walk, readPage_of_le hfits]
    · exact (sorting.perm 0 _).map summary

/-- Two transfers of one tenant. -/
def transferAt (id : Nat) (txRef : String) (createdAt : Int) : Transaction :=
  { id, tenantId := some 1, txRef, idempotencyKey := none, tigerBeetleId := none
    status := .completed, amount := 50000, currency := "NGN", originatorName := "Ada"
    originatorAccount := some "0011223344", beneficiaryName := "Bola"
    beneficiaryAccount := some "5566778899", amlScore := none, createdAt, updatedAt := createdAt }

def twoTransfers : List Transaction :=
  [transferAt 1 "PAY-1" 1781611200000000, transferAt 2 "PAY-2" 1781611260000000]

/-- The order by creation, ties as the table has them. -/
def newestFirst : Sorting where
  order _ rows := descending Transaction.createdAt rows
  perm _ rows := descending_perm rows
  descending _ rows := List.pairwise_insertionSort _ rows

theorem second_transfer_not_listed :
    ¬ ListsEachOnce newestFirst twoTransfers (some 1) none ⟨1, by decide, by decide⟩ := by
  rintro ⟨fuel, items, hwalk, _⟩
  rw [walk_of_lt (by decide)] at hwalk
  cases hwalk

end Bis.PaymentRails
