import Bis.Number.Machine
import Mathlib.Tactic.Linarith

/-!
The prepaid ledger as both services see it. Accounts and transfers live in
TigerBeetle; the ledger service (Rust) and the settlement code (TypeScript)
read an account, compute its available balance in their own number format and
post transfers with flags 0, which the ledger accepts without looking at the
balance and applies once per transfer id.
-/

namespace Bis.TigerBeetle

open Bis.Number

/-- The amounts of `TbAccount`, in kobo. -/
structure TbAccount where
  debitsPending : Nat := 0
  debitsPosted : Nat := 0
  creditsPending : Nat := 0
  creditsPosted : Nat := 0

/-- `credits_posted - debits_posted - debits_pending` over the integers. -/
def TbAccount.available (account : TbAccount) : Int :=
  account.creditsPosted - account.debitsPosted - account.debitsPending

/-- Whether the reply decodes into the `u64` fields of the ledger service. -/
def TbAccount.fitsU64 (account : TbAccount) : Bool :=
  [account.debitsPending, account.debitsPosted, account.creditsPending,
    account.creditsPosted].all (· < 2 ^ 64)

/-- `TbAccount::available_balance`: the fields are cast to `i64` and the
subtractions wrap. -/
def TbAccount.availableBalance (account : TbAccount) : Int :=
  wrapI64 (wrapI64 (wrapI64 account.creditsPosted - wrapI64 account.debitsPosted) -
    wrapI64 account.debitsPending)

inductive LedgerError where
  | accountNotFound (accountId : String)
  | invalidAccountId
  | proxyError (message : String)
  | httpError
  | insufficientBalance (accountId : String) (available required : Nat)
  | badRequest (message : String)
  | forbidden (message : String)
  | serviceUnavailable (message : String)
  | insufficientFunds (tenantId : String) (requestedKobo availableKobo : Int)
  deriving DecidableEq

/-- The three JSON numbers of an account reply as binary64 numbers, subtracted
in that format. -/
def TbAccount.availableNumber (account : TbAccount) : Int :=
  roundToDouble
    (roundToDouble (roundToDouble account.creditsPosted - roundToDouble account.debitsPosted) -
      roundToDouble account.debitsPending)

def getTenantAvailableBalanceKobo (account : TbAccount) : Except LedgerError Int :=
  if isSafeInteger account.availableNumber ∧ 0 ≤ account.availableNumber then
    .ok account.availableNumber
  else .error (.serviceUnavailable
    "TigerBeetle returned an invalid available balance; the debit was not attempted")

/-- A posted transfer (`CreateTransferRequest` with flags 0). -/
structure Transfer where
  (id debitAccountId creditAccountId : String)
  amount : Nat

structure Ledger where
  account : String → TbAccount
  posted : List String

/-- The ledger applies a transfer it has not seen and ignores one it has. -/
def Ledger.post (ledger : Ledger) (transfer : Transfer) : Ledger :=
  if transfer.id ∈ ledger.posted then ledger
  else
    { account := fun id =>
        { ledger.account id with
          debitsPosted := (ledger.account id).debitsPosted +
            if id = transfer.debitAccountId then transfer.amount else 0
          creditsPosted := (ledger.account id).creditsPosted +
            if id = transfer.creditAccountId then transfer.amount else 0 }
      posted := transfer.id :: ledger.posted }

theorem post_of_posted (ledger : Ledger) (transfer : Transfer)
    (h : transfer.id ∈ ledger.posted) : ledger.post transfer = ledger := if_pos h

theorem mem_posted_post (ledger : Ledger) (transfer : Transfer) (id : String) :
    id ∈ (ledger.post transfer).posted ↔ id = transfer.id ∨ id ∈ ledger.posted := by
  unfold Ledger.post
  split
  · rename_i h
    constructor
    · exact Or.inr
    · rintro (rfl | hid)
      · exact h
      · exact hid
  · simp

/-- Posting twice is posting once: the transfer id is the idempotency key. -/
theorem post_post (ledger : Ledger) (first second : Transfer) (h : first.id = second.id) :
    (ledger.post first).post second = ledger.post first := by
  apply post_of_posted
  rw [mem_posted_post]
  exact Or.inl h.symm

@[simp]
theorem debitsPending_post (ledger : Ledger) (transfer : Transfer) (id : String) :
    ((ledger.post transfer).account id).debitsPending = (ledger.account id).debitsPending := by
  unfold Ledger.post
  split <;> rfl

theorem creditsPosted_le_post (ledger : Ledger) (transfer : Transfer) (id : String) :
    (ledger.account id).creditsPosted ≤ ((ledger.post transfer).account id).creditsPosted := by
  unfold Ledger.post
  split
  · exact Nat.le_refl _
  · exact Nat.le_add_right _ _

/-- What a first posting does to the available balance of every account. -/
theorem available_post (ledger : Ledger) (transfer : Transfer) (id : String)
    (h : transfer.id ∉ ledger.posted) :
    ((ledger.post transfer).account id).available =
      (ledger.account id).available -
        (if id = transfer.debitAccountId then (transfer.amount : Int) else 0) +
        (if id = transfer.creditAccountId then (transfer.amount : Int) else 0) := by
  simp only [Ledger.post, if_neg h, TbAccount.available]
  split_ifs <;> push_cast <;> ring

/-- An account a transfer does not debit loses nothing by it. -/
theorem available_le_post (ledger : Ledger) (transfer : Transfer) (id : String)
    (h : id ≠ transfer.debitAccountId) :
    (ledger.account id).available ≤ ((ledger.post transfer).account id).available := by
  by_cases hposted : transfer.id ∈ ledger.posted
  · rw [post_of_posted ledger transfer hposted]
  · rw [available_post ledger transfer id hposted, if_neg h]
    split_ifs <;> omega

/-- Inside its range the signed arithmetic of the ledger service is exact. -/
theorem availableBalance_eq (account : TbAccount) (hcredits : account.creditsPosted < 2 ^ 63)
    (hsolvent : 0 ≤ account.available) : account.availableBalance = account.available := by
  unfold TbAccount.available at hsolvent ⊢
  unfold TbAccount.availableBalance
  rw [wrapI64_of_fits (x := (account.creditsPosted : Int)) (by unfold FitsI64; omega),
    wrapI64_of_fits (x := (account.debitsPosted : Int)) (by unfold FitsI64; omega),
    wrapI64_of_fits (x := (account.debitsPending : Int)) (by unfold FitsI64; omega),
    wrapI64_of_fits (x := (account.creditsPosted : Int) - account.debitsPosted)
      (by unfold FitsI64; omega),
    wrapI64_of_fits (by unfold FitsI64; omega)]

/-- Up to `2 ^ 53` kobo of credit the binary64 arithmetic is exact. -/
theorem availableNumber_eq (account : TbAccount) (hcredits : account.creditsPosted ≤ 2 ^ 53)
    (hsolvent : 0 ≤ account.available) : account.availableNumber = account.available := by
  unfold TbAccount.available at hsolvent ⊢
  unfold TbAccount.availableNumber
  rw [roundToDouble_of_small (x := (account.creditsPosted : Int)) (by omega),
    roundToDouble_of_small (x := (account.debitsPosted : Int)) (by omega),
    roundToDouble_of_small (x := (account.debitsPending : Int)) (by omega),
    roundToDouble_of_small (x := (account.creditsPosted : Int) - account.debitsPosted) (by omega),
    roundToDouble_of_small (by omega)]

end Bis.TigerBeetle
