import Bis.Payments.State
import Bis.Relation.Keyed
import Bis.Relation.Total
import Mathlib.Data.List.Dedup
import Mathlib.Data.List.Perm.Subperm
import Mathlib.Tactic.Ring

/-!
The account balances derived from the `transactions` table. Debits and credits
are grouped by account, name and currency in two queries, each cut off at a
limit, and the groups are merged by account. The queries have no order: which
groups a query returns, and in which order, is the database's choice, given
here as a page of group keys. Where an account has several groups on one side,
the last one returned replaces the others.
-/

namespace Bis.Payments

open Bis.Relation

/-- `tenantCondition`: no condition for a caller without a tenant. -/
def inTenant (tenantId : Option Int) (tx : Transaction) : Bool :=
  match tenantId with
  | none => true
  | some id => tx.tenantId == some id

inductive Side where
  | debit | credit

structure GroupKey where
  (accountId accountName currency : String)
  deriving DecidableEq

def Side.groupKey : Side → Transaction → Option GroupKey
  | .debit, tx =>
    tx.originatorAccount.map fun account => ⟨account, tx.originatorName, tx.currency⟩
  | .credit, tx =>
    tx.beneficiaryAccount.map fun account => ⟨account, tx.beneficiaryName, tx.currency⟩

/-- The input of `getAccountBalances` with the caller's tenant. -/
structure BalancesInput where
  tenantId : Option Int
  accountIds : Option (List String)
  limit : Nat

def BalancesInput.wants (input : BalancesInput) (account : String) : Bool :=
  match input.accountIds with
  | none | some [] => true
  | some ids => ids.contains account

/-- The `WHERE` clause of one side's query. -/
def BalancesInput.selects (input : BalancesInput) (side : Side) (tx : Transaction) : Bool :=
  (side.groupKey tx).any (fun key => input.wants key.accountId) && inTenant input.tenantId tx

structure GroupTotals where
  key : GroupKey
  (pending posted : Rat)

def TransactionStatus.countsPending (status : TransactionStatus) : Bool :=
  status == .pending || status == .underReview || status == .flagged

def Transaction.isPosted (tx : Transaction) : Bool := tx.status == .completed

def BalancesInput.groupRows (input : BalancesInput) (side : Side) (rows : List Transaction)
    (key : GroupKey) : List Transaction :=
  rows.filter fun tx => input.selects side tx && side.groupKey tx == some key

def BalancesInput.posted (input : BalancesInput) (sums : RealSum) (side : Side)
    (rows : List Transaction) (key : GroupKey) : Rat :=
  sums.sumCase Transaction.amount Transaction.isPosted (input.groupRows side rows key)

def BalancesInput.groupTotals (input : BalancesInput) (sums : RealSum) (side : Side)
    (rows : List Transaction) (key : GroupKey) : GroupTotals :=
  { key
    pending := sums.sumCase Transaction.amount (fun tx => tx.status.countsPending)
      (input.groupRows side rows key)
    posted := input.posted sums side rows key }

def BalancesInput.groups (input : BalancesInput) (side : Side) (rows : List Transaction) :
    List GroupKey :=
  ((rows.filter (input.selects side)).filterMap side.groupKey).dedup

/-- The keys of the groups a query may return. -/
structure IsPage (input : BalancesInput) (side : Side) (rows : List Transaction)
    (page : List GroupKey) : Prop where
  nodup : page.Nodup
  groups : page ⊆ input.groups side rows
  size : page.length = min input.limit (input.groups side rows).length

structure AccountBalance where
  (accountId accountName : String)
  (debitsPending debitsPosted creditsPending creditsPosted netBalance : Rat)
  currency : String

structure AccountBalances where
  balances : List AccountBalance
  totalAccounts : Nat

def applyDebit (balances : List AccountBalance) (d : GroupTotals) : List AccountBalance :=
  if d.key.accountId = "" then balances
  else
    upsert AccountBalance.accountId
      { accountId := d.key.accountId
        accountName := d.key.accountName
        debitsPending := d.pending
        debitsPosted := d.posted
        creditsPending := 0
        creditsPosted := 0
        netBalance := -d.posted
        currency := d.key.currency } balances

def applyCredit (balances : List AccountBalance) (c : GroupTotals) : List AccountBalance :=
  if c.key.accountId = "" then balances
  else
    match lookup AccountBalance.accountId c.key.accountId balances with
    | some existing =>
      upsert AccountBalance.accountId
        { existing with
          creditsPending := c.pending
          creditsPosted := c.posted
          netBalance := c.posted - existing.debitsPosted } balances
    | none =>
      upsert AccountBalance.accountId
        { accountId := c.key.accountId
          accountName := c.key.accountName
          debitsPending := 0
          debitsPosted := 0
          creditsPending := c.pending
          creditsPosted := c.posted
          netBalance := c.posted
          currency := c.key.currency } balances

def mergedBalances (debits credits : List GroupTotals) : List AccountBalance :=
  credits.foldl applyCredit (debits.foldl applyDebit [])

/-- Larger net balances first. -/
def balanceOrder (a b : AccountBalance) : Prop := |b.netBalance| ≤ |a.netBalance|

instance : DecidableRel balanceOrder := fun _ _ => inferInstanceAs (Decidable (_ ≤ _))

/-- `getAccountBalances`, with the page each of the two queries returns. -/
def getAccountBalances (sums : RealSum) (input : BalancesInput) (rows : List Transaction)
    (page : Side → List GroupKey) : AccountBalances :=
  let debits := (page .debit).map (input.groupTotals sums .debit rows)
  let credits := (page .credit).map (input.groupTotals sums .credit rows)
  let balances := mergedBalances debits credits
  { balances := balances.insertionSort balanceOrder
    totalAccounts := balances.length }

/-- The net balance shown for an account; none is shown as nothing. -/
def AccountBalances.netBalance (answer : AccountBalances) (account : String) : Rat :=
  (lookup AccountBalance.accountId account answer.balances).elim 0 AccountBalance.netBalance

/-! ### The net balance an account is shown with -/

/-- The posted amount that a page leaves for an account on one side. -/
def BalancesInput.shown (input : BalancesInput) (sums : RealSum) (side : Side)
    (rows : List Transaction) (page : List GroupKey) (account : String) : Rat :=
  if account = "" then 0
  else (lastOf GroupKey.accountId account page).elim 0 (input.posted sums side rows)

/-- Each account has one balance, and it is named by a non-empty identifier. -/
structure Merged (balances : List AccountBalance) : Prop where
  keys : (balances.map AccountBalance.accountId).Nodup
  named : ∀ b ∈ balances, b.accountId ≠ ""
  net : ∀ b ∈ balances, b.netBalance = b.creditsPosted - b.debitsPosted

def debitsOf (account : String) (balances : List AccountBalance) : Rat :=
  (lookup AccountBalance.accountId account balances).elim 0 AccountBalance.debitsPosted

def creditsOf (account : String) (balances : List AccountBalance) : Rat :=
  (lookup AccountBalance.accountId account balances).elim 0 AccountBalance.creditsPosted

section Merge

variable {balances : List AccountBalance} {account : String}

theorem Merged.upsert (h : Merged balances) {b : AccountBalance} (hnamed : b.accountId ≠ "")
    (hnet : b.netBalance = b.creditsPosted - b.debitsPosted) :
    Merged (upsert AccountBalance.accountId b balances) where
  keys := nodup_upsert h.keys
  named other hother := by
    rcases mem_upsert hother with rfl | hold
    · exact hnamed
    · exact h.named other hold
  net other hother := by
    rcases mem_upsert hother with rfl | hold
    · exact hnet
    · exact h.net other hold

theorem merged_applyDebit (h : Merged balances) (d : GroupTotals) :
    Merged (applyDebit balances d) := by
  unfold applyDebit
  split
  next => exact h
  next hnamed => exact h.upsert hnamed (by simp)

theorem merged_applyCredit (h : Merged balances) (c : GroupTotals) :
    Merged (applyCredit balances c) := by
  unfold applyCredit
  split
  next => exact h
  next hnamed =>
    split
    next existing hfind =>
      have hexisting := (lookup_eq_some_iff h.keys).mp hfind
      exact h.upsert (h.named existing hexisting.1) rfl
    next => exact h.upsert hnamed (by simp)

theorem merged_mergedBalances (debits credits : List GroupTotals) :
    Merged (mergedBalances debits credits) := by
  have hdebits : Merged (debits.foldl applyDebit []) := by
    refine List.foldlRecOn debits applyDebit ?_ (fun b hb d _ => merged_applyDebit hb d)
    exact ⟨List.nodup_nil, by simp, by simp⟩
  exact List.foldlRecOn credits applyCredit hdebits fun b hb c _ => merged_applyCredit hb c

theorem debitsOf_applyDebit (haccount : account ≠ "") (balances : List AccountBalance)
    (d : GroupTotals) :
    debitsOf account (applyDebit balances d) =
      if d.key.accountId = account then d.posted else debitsOf account balances := by
  unfold applyDebit debitsOf
  split
  next hempty => rw [if_neg fun h => haccount (h.symm.trans hempty)]
  next =>
    rw [lookup_upsert]
    split <;> rfl

theorem creditsOf_applyDebit (haccount : account ≠ "") (balances : List AccountBalance)
    (d : GroupTotals) :
    creditsOf account (applyDebit balances d) =
      if d.key.accountId = account then 0 else creditsOf account balances := by
  unfold applyDebit creditsOf
  split
  next hempty => rw [if_neg fun h => haccount (h.symm.trans hempty)]
  next =>
    rw [lookup_upsert]
    split <;> rfl

theorem creditsOf_applyCredit (haccount : account ≠ "") (balances : List AccountBalance)
    (c : GroupTotals) :
    creditsOf account (applyCredit balances c) =
      if c.key.accountId = account then c.posted else creditsOf account balances := by
  unfold applyCredit creditsOf
  split
  next hempty => rw [if_neg fun h => haccount (h.symm.trans hempty)]
  next =>
    split
    next existing hfind =>
      have hkey : existing.accountId = c.key.accountId := by
        simpa using List.find?_some hfind
      rw [lookup_upsert]
      simp only [hkey]
      split <;> rfl
    next =>
      rw [lookup_upsert]
      split <;> rfl

theorem debitsOf_applyCredit (balances : List AccountBalance) (c : GroupTotals) :
    debitsOf account (applyCredit balances c) = debitsOf account balances := by
  unfold applyCredit debitsOf
  split
  next => rfl
  next =>
    split
    next existing hfind =>
      have hkey : existing.accountId = c.key.accountId := by
        simpa using List.find?_some hfind
      rw [lookup_upsert]
      simp only [hkey]
      split
      next hsame => rw [← hsame, hfind]; rfl
      next => rfl
    next hfind =>
      rw [lookup_upsert]
      split
      next hsame => rw [← hsame, hfind]; rfl
      next => rfl

theorem net_of_merged (h : Merged balances) (account : String) :
    (lookup AccountBalance.accountId account balances).elim 0 AccountBalance.netBalance =
      creditsOf account balances - debitsOf account balances := by
  unfold creditsOf debitsOf
  cases hfind : lookup AccountBalance.accountId account balances with
  | none => simp
  | some b => exact h.net b ((lookup_eq_some_iff h.keys).mp hfind).1

theorem debitsOf_mergedBalances (haccount : account ≠ "") (debits credits : List GroupTotals) :
    debitsOf account (mergedBalances debits credits) =
      (lastOf (fun d : GroupTotals => d.key.accountId) account debits).elim 0
        GroupTotals.posted := by
  have hcredits : debitsOf account (mergedBalances debits credits) =
      debitsOf account (debits.foldl applyDebit []) := by
    unfold mergedBalances
    generalize debits.foldl applyDebit [] = start
    induction credits generalizing start with
    | nil => rfl
    | cons c rest ih =>
      rw [List.foldl_cons, ih]
      exact debitsOf_applyCredit start c
  rw [hcredits]
  exact foldl_lastOf (fun d : GroupTotals => d.key.accountId) (debitsOf account) applyDebit
    GroupTotals.posted (debitsOf_applyDebit haccount) debits []

theorem creditsOf_mergedBalances (haccount : account ≠ "") (debits credits : List GroupTotals) :
    creditsOf account (mergedBalances debits credits) =
      (lastOf (fun c : GroupTotals => c.key.accountId) account credits).elim 0
        GroupTotals.posted := by
  have hdebits : creditsOf account (debits.foldl applyDebit []) = 0 := by
    rw [foldl_lastOf (fun d : GroupTotals => d.key.accountId) (creditsOf account) applyDebit
      (fun _ => 0) (creditsOf_applyDebit haccount)]
    cases lastOf (fun d : GroupTotals => d.key.accountId) account debits <;> rfl
  have hcredits := foldl_lastOf (fun c : GroupTotals => c.key.accountId) (creditsOf account)
    applyCredit GroupTotals.posted (creditsOf_applyCredit haccount) credits
    (debits.foldl applyDebit [])
  rw [hdebits] at hcredits
  exact hcredits

theorem lookup_empty (h : Merged balances) :
    lookup AccountBalance.accountId "" balances = none := by
  cases hfind : lookup AccountBalance.accountId "" balances with
  | none => rfl
  | some b =>
    obtain ⟨hb, hkey⟩ := (lookup_eq_some_iff h.keys).mp hfind
    exact absurd hkey (h.named b hb)

end Merge

variable (sums : RealSum) (input : BalancesInput) (rows : List Transaction)

theorem shown_eq (side : Side) (page : List GroupKey) {account : String}
    (haccount : account ≠ "") :
    (lastOf (fun totals : GroupTotals => totals.key.accountId) account
        (page.map (input.groupTotals sums side rows))).elim 0 GroupTotals.posted =
      input.shown sums side rows page account := by
  unfold BalancesInput.shown
  rw [if_neg haccount, lastOf_map]
  cases hlast : lastOf GroupKey.accountId account page <;>
    simp [BalancesInput.groupTotals, hlast]

/-- What the merge leaves of the two pages. -/
theorem netBalance_getAccountBalances (page : Side → List GroupKey) (account : String) :
    (getAccountBalances sums input rows page).netBalance account =
      input.shown sums .credit rows (page .credit) account -
        input.shown sums .debit rows (page .debit) account := by
  let debits := (page .debit).map (input.groupTotals sums .debit rows)
  let credits := (page .credit).map (input.groupTotals sums .credit rows)
  have hmerged : Merged (mergedBalances debits credits) := merged_mergedBalances debits credits
  have hnet : (getAccountBalances sums input rows page).netBalance account =
      (lookup AccountBalance.accountId account (mergedBalances debits credits)).elim 0
        AccountBalance.netBalance :=
    congrArg (fun b => Option.elim b 0 AccountBalance.netBalance)
      (lookup_perm hmerged.keys (List.perm_insertionSort _ _))
  rw [hnet]
  by_cases haccount : account = ""
  · subst haccount
    rw [lookup_empty hmerged]
    simp [BalancesInput.shown]
  · rw [net_of_merged hmerged, creditsOf_mergedBalances haccount,
      debitsOf_mergedBalances haccount, shown_eq sums input rows .credit _ haccount,
      shown_eq sums input rows .debit _ haccount]

/-! ### Answers that show every account's whole line -/

/-- The limit cuts no group off, and no account has two groups on one side. -/
structure Legible (input : BalancesInput) (rows : List Transaction) : Prop where
  whole : ∀ side, (input.groups side rows).length ≤ input.limit
  single : ∀ side, ∀ key ∈ input.groups side rows, ∀ key' ∈ input.groups side rows,
    key.accountId = key'.accountId → key = key'

def BalancesInput.accountRows (input : BalancesInput) (side : Side) (rows : List Transaction)
    (account : String) : List Transaction :=
  rows.filter fun tx =>
    input.selects side tx && (side.groupKey tx).any fun key => key.accountId == account

/-- The posted amounts without loss of digits. -/
def postedTotal (rows : List Transaction) : Rat :=
  total Transaction.amount Transaction.isPosted rows

/-- What an account has posted on one side, over all its groups. -/
def BalancesInput.accountPosted (input : BalancesInput) (side : Side) (rows : List Transaction)
    (account : String) : Rat :=
  postedTotal (input.accountRows side rows account)

section Legible

variable {sums} {input} {side : Side} {rows} {page : List GroupKey}

theorem posted_eq (h : Fits (rows.map Transaction.amount)) (key : GroupKey) :
    input.posted sums side rows key = postedTotal (input.groupRows side rows key) :=
  sums.sumCase_eq (h.filter _)

theorem mem_groups {key : GroupKey} :
    key ∈ input.groups side rows ↔
      ∃ tx ∈ rows, input.selects side tx ∧ side.groupKey tx = some key := by
  simp [BalancesInput.groups, List.mem_dedup, List.mem_filterMap, and_assoc]

theorem IsPage.mem_iff (h : IsPage input side rows page) (hlegible : Legible input rows)
    (key : GroupKey) : key ∈ page ↔ key ∈ input.groups side rows := by
  have hlength : (input.groups side rows).length ≤ page.length := by
    rw [h.size, Nat.min_eq_right (hlegible.whole side)]
  exact ((h.nodup.subperm h.groups).perm_of_length_le hlength).mem_iff

theorem shown_of_legible (hfits : Fits (rows.map Transaction.amount))
    (hlegible : Legible input rows) (h : IsPage input side rows page)
    {account : String} (haccount : account ≠ "") :
    input.shown sums side rows page account = input.accountPosted side rows account := by
  unfold BalancesInput.shown BalancesInput.accountPosted
  rw [if_neg haccount]
  cases hlast : lastOf GroupKey.accountId account page with
  | none =>
    have hnone : input.accountRows side rows account = [] := by
      refine List.filter_eq_nil_iff.mpr ?_
      intro tx htx hmatch
      obtain ⟨hselects, haccountKey⟩ := Bool.and_eq_true_iff.mp hmatch
      obtain ⟨key, hkey, hid⟩ := (Option.any_eq_true _ _).mp haccountKey
      have hmem := (h.mem_iff hlegible key).mpr (mem_groups.mpr ⟨tx, htx, hselects, hkey⟩)
      exact lastOf_eq_none hlast key hmem (eq_of_beq hid)
    rw [hnone]
    rfl
  | some key =>
    obtain ⟨hmem, hid⟩ := lastOf_eq_some hlast
    have hgroup := (h.mem_iff hlegible key).mp hmem
    have hrows : input.groupRows side rows key = input.accountRows side rows account := by
      refine List.filter_congr ?_
      intro tx htx
      rw [Bool.eq_iff_iff, Bool.and_eq_true, Bool.and_eq_true, Option.any_eq_true, beq_iff_eq]
      refine and_congr_right fun hselects => ?_
      constructor
      · intro hkey
        exact ⟨key, hkey, beq_iff_eq.mpr hid⟩
      · rintro ⟨other, hother, hsame⟩
        have hmem' := mem_groups.mpr ⟨tx, htx, hselects, hother⟩
        have hid' : other.accountId = key.accountId := (eq_of_beq hsame).trans hid.symm
        rw [hother, hlegible.single side other hmem' key hgroup hid']
    exact (posted_eq hfits key).trans (congrArg postedTotal hrows)

end Legible

end Bis.Payments
