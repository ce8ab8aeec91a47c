import Bis.PaymentRails.Listing
import Mathlib.Data.List.Range
import Mathlib.Data.Rat.Floor

/-!
The reconciliation report of a day. A day is the number of days since the epoch,
in UTC; it is asked for by its date, or is the day before the clock. The report
takes the transactions from the first millisecond of the day to before the last one.
-/

namespace Bis.PaymentRails

open List

/-- One call of the report; the clock is in milliseconds. -/
structure ReportCall where
  date : Option Int
  now : Int

def ReportCall.targetDate (call : ReportCall) : Int :=
  call.date.getD ((call.now - 86400000) / 86400000)

/-- `T00:00:00.000Z` of the day, in milliseconds. -/
def dayStart (day : Int) : Int := day * 86400000

/-- `T23:59:59.999Z` of the day. -/
def dayEnd (day : Int) : Int := day * 86400000 + 86399999

/-- `ORDER BY createdAt`, the rows of one instant in any order. -/
structure OldestFirst where
  order : List Transaction → List Transaction
  perm : ∀ rows, (order rows).Perm rows
  ascending : ∀ rows,
    (order rows).Pairwise fun earlier later => earlier.createdAt ≤ later.createdAt

/-- The rows of the day in the order of their creation. -/
def dayTxns (oldestFirst : OldestFirst) (rows : List Transaction) (day : Int) :
    List Transaction :=
  oldestFirst.order (rows.filter fun row =>
    decide (dayStart day * 1000 ≤ row.createdAt ∧ row.createdAt < dayEnd day * 1000))

/-! ### In which reports a transaction is -/

/-- The report of the call is made of the transaction among others. -/
def counts (oldestFirst : OldestFirst) (rows : List Transaction) (txn : Transaction)
    (call : ReportCall) : Bool :=
  decide (txn ∈ dayTxns oldestFirst rows call.targetDate)

/-- The calls ask for the days from `first` on, one after the other. -/
def CoversDays (first : Int) (days : Nat) (calls : List ReportCall) : Prop :=
  calls.map ReportCall.targetDate = (List.range days).map fun day : Nat => first + (day : Int)

instance (first : Int) (days : Nat) (calls : List ReportCall) :
    Decidable (CoversDays first days calls) :=
  inferInstanceAs (Decidable (_ = _))

/-- The microsecond is before the last millisecond of its day. -/
def BeforeLastMilli (instant : Int) : Prop := instant % 86400000000 < 86399999000

theorem inDay_iff (day instant : Int) :
    dayStart day * 1000 ≤ instant ∧ instant < dayEnd day * 1000 ↔
      day = instant / 86400000000 ∧ BeforeLastMilli instant := by
  unfold dayStart dayEnd BeforeLastMilli
  omega

theorem counts_iff {oldestFirst : OldestFirst} {rows : List Transaction} {txn : Transaction}
    (htxn : txn ∈ rows) (call : ReportCall) :
    counts oldestFirst rows txn call ↔
      call.targetDate = txn.createdAt / 86400000000 ∧ BeforeLastMilli txn.createdAt := by
  rw [counts, decide_eq_true_eq, dayTxns, (oldestFirst.perm _).mem_iff, mem_filter,
    decide_eq_true_eq, inDay_iff]
  exact and_iff_right htxn

theorem count_days (first : Int) (days : Nat) {day : Int} (hfirst : first ≤ day)
    (hlast : day < first + days) :
    ((List.range days).map fun day : Nat => first + (day : Int)).count day = 1 := by
  have hinj : Function.Injective fun day : Nat => first + (day : Int) := by
    intro a b hab
    simpa using hab
  apply count_eq_one_of_mem
  · exact nodup_range.map hinj
  · apply mem_map.mpr
    exact ⟨(day - first).toNat, mem_range.mpr (by omega), by omega⟩

/-- A transaction of the days is in one report exactly if it was not created in the
last millisecond of its day. -/
theorem counted_once_iff (oldestFirst : OldestFirst) (rows : List Transaction)
    (calls : List ReportCall) (first : Int) (days : Nat) (hcalls : CoversDays first days calls)
    (txn : Transaction) (htxn : txn ∈ rows) (hfirst : first * 86400000000 ≤ txn.createdAt)
    (hlast : txn.createdAt < (first + days) * 86400000000) :
    calls.countP (counts oldestFirst rows txn) = 1 ↔ BeforeLastMilli txn.createdAt := by
  by_cases hbefore : BeforeLastMilli txn.createdAt
  · have hcount : calls.countP (counts oldestFirst rows txn) =
        (calls.map ReportCall.targetDate).count (txn.createdAt / 86400000000) := by
      rw [List.count, countP_map]
      apply countP_congr
      intro call _
      simp only [counts_iff htxn, hbefore, and_true, Function.comp_apply, beq_iff_eq]
    rw [hcount, hcalls, count_days first days (by omega) (by omega)]
    exact iff_of_true rfl hbefore
  · have hnone : calls.countP (counts oldestFirst rows txn) = 0 := by
      rw [countP_eq_zero]
      intro call _
      rw [counts_iff htxn]
      exact fun h => hbefore h.2
    rw [hnone]
    exact iff_of_false (by decide) hbefore

/-- The table in the order of creation. -/
def byCreation : OldestFirst where
  order rows := rows.insertionSort fun a b => a.createdAt ≤ b.createdAt
  perm rows := perm_insertionSort _ rows
  ascending rows := by
    have : Std.Total fun a b : Transaction => a.createdAt ≤ b.createdAt :=
      ⟨fun a b => le_total a.createdAt b.createdAt⟩
    have : IsTrans Transaction fun a b => a.createdAt ≤ b.createdAt :=
      ⟨fun _ _ _ hab hbc => le_trans hab hbc⟩
    exact pairwise_insertionSort _ rows

/-- Three reports, of 15 to 17 June 2026; the last one is asked for without a date. -/
def threeReports : List ReportCall :=
  [⟨some 20619, 0⟩, ⟨some 20620, 0⟩, ⟨none, 1781740800000⟩]

/-- Created at noon of 16 June. -/
def atNoon : Transaction := transferAt 1 "PAY-1" 1781611200000000

theorem atNoon_counted_once_iff :
    threeReports.countP (counts byCreation [atNoon] atNoon) = 1 ↔
      BeforeLastMilli atNoon.createdAt :=
  counted_once_iff byCreation [atNoon] threeReports 20619 3 (by decide) atNoon
    mem_cons_self (by decide) (by decide)

/-- Created half a millisecond before midnight. -/
def beforeMidnight : Transaction := transferAt 2 "PAY-2" 1781654399999500

theorem beforeMidnight_in_no_report :
    CoversDays 20619 3 threeReports ∧
      threeReports.countP (counts byCreation [beforeMidnight] beforeMidnight) = 0 := by
  decide

end Bis.PaymentRails
