import Bis.Payments.Balances
import Mathlib.Tactic.Linarith

/-!
Reversal of a completed transfer. `reverseTransfer` changes the status of the
transfer's row to `reversed`, which takes the row out of the posted balances,
and inserts a completed row the other way, which moves the amount back a second
time.
-/

namespace Bis.Payments

open Bis.Relation List Option

/-- The `WHERE` clause of both statements. -/
def reverses (txRef : String) (tenantId : Option Int) (tx : Transaction) : Bool :=
  tx.txRef == txRef && inTenant tenantId tx

/-- What `reverseTransfer` reads: only completed transfers can be reversed. -/
def Database.readReversible (db : Database) (txRef : String) (tenantId : Option Int) :
    Option Transaction :=
  match db.transactions.find? (reverses txRef tenantId) with
  | none => none
  | some tx => if tx.status == .completed then some tx else none

def reversalRef (txRef : String) (now : Nat) : String :=
  "REV-" ++ txRef ++ "-" ++ toString now

/-- The compensating row. -/
def Transaction.reversal (tx : Transaction) (txRef : String) (id now : Nat) : Transaction :=
  { id
    tenantId := tx.tenantId
    txRef := reversalRef txRef now
    idempotencyKey := some ("reversal-" ++ txRef)
    status := .completed
    amount := tx.amount
    currency := tx.currency
    originatorName := tx.beneficiaryName
    originatorAccount := tx.beneficiaryAccount
    beneficiaryName := tx.originatorName
    beneficiaryAccount := tx.originatorAccount
    beneficiaryBank := none }

/-- The transaction of `reverseTransfer`: the update of the original row and
the insert. It rolls back where the references are taken or too long. -/
def Database.reverse (db : Database) (tx : Transaction) (txRef : String) (tenantId : Option Int)
    (now : Nat) : Option Database :=
  let compensation := tx.reversal txRef db.freshTransactionId now
  if 64 < compensation.txRef.length || db.transactions.any fun row =>
      row.txRef == compensation.txRef || row.idempotencyKey == compensation.idempotencyKey then none
  else
    let marked := db.updateTransactions (reverses txRef tenantId) fun row => row.withStatus .reversed
    some { marked with transactions := marked.transactions ++ [compensation] }

def Database.reverseTransfer (db : Database) (txRef : String) (tenantId : Option Int)
    (now : Nat) : Option Database :=
  if txRef == "" then none
  else (db.readReversible txRef tenantId).bind fun tx => db.reverse tx txRef tenantId now

/-- The rows as they would be if the transfer had never been made. -/
def without (tx : Transaction) (rows : List Transaction) : List Transaction :=
  rows.filter fun row => row != tx

theorem eq_of_txRef {rows : List Transaction} (hrefs : (rows.map Transaction.txRef).Nodup)
    {a b : Transaction} (ha : a ∈ rows) (hb : b ∈ rows) (href : a.txRef = b.txRef) : a = b :=
  inj_on_of_nodup_map hrefs ha hb href

theorem reverseTransfer_spec {db db' : Database} {tenantId : Option Int} {now : Nat}
    {original : Transaction} (hrefs : (db.transactions.map Transaction.txRef).Nodup)
    (horiginal : original ∈ db.transactions)
    (hreverse : db.reverseTransfer original.txRef tenantId now = some db') :
    inTenant tenantId original ∧ original.status = .completed ∧
      db'.transactions =
        updateWhere (reverses original.txRef tenantId) (fun row => row.withStatus .reversed)
            db.transactions ++
          [original.reversal original.txRef db.freshTransactionId now] := by
  unfold Database.reverseTransfer at hreverse
  split at hreverse
  next => cases hreverse
  next =>
    obtain ⟨tx, hread, hwrite⟩ := bind_eq_some_iff.mp hreverse
    unfold Database.readReversible at hread
    split at hread
    next => cases hread
    next found hfind =>
      split at hread
      next hcompleted =>
        cases hread
        have hmatch := find?_some hfind
        obtain ⟨href, htenant⟩ := Bool.and_eq_true_iff.mp hmatch
        obtain rfl := eq_of_txRef hrefs (mem_of_find?_eq_some hfind) horiginal
          (eq_of_beq href)
        refine ⟨htenant, eq_of_beq hcompleted, ?_⟩
        unfold Database.reverse at hwrite
        dsimp only at hwrite
        split at hwrite
        next => cases hwrite
        next =>
          cases hwrite
          rfl
      next => cases hread

/-! ### Posted amounts after the reversal -/

theorem postedTotal_append (first second : List Transaction) :
    postedTotal (first ++ second) = postedTotal first + postedTotal second := by
  unfold postedTotal total
  rw [filter_append, map_append, sum_append]

theorem postedTotal_filter_cons (chosen : Transaction → Bool) (row : Transaction)
    (rest : List Transaction) :
    postedTotal ((row :: rest).filter chosen) =
      (if row.isPosted && chosen row then row.amount else 0) + postedTotal (rest.filter chosen) := by
  unfold postedTotal
  rw [total_filter, total_cons, ← total_filter]

/-- Rows that become `reversed` are posted no more. -/
theorem postedTotal_reversed (chosen p : Transaction → Bool) (rows : List Transaction) :
    postedTotal ((updateWhere p (fun row => row.withStatus .reversed) rows).filter chosen) =
      postedTotal ((rows.filter fun row => !p row).filter chosen) := by
  induction rows with
  | nil => rfl
  | cons row rest ih =>
    have hupdate : updateWhere p (fun row => row.withStatus .reversed) (row :: rest) =
        (if p row then row.withStatus .reversed else row) ::
          updateWhere p (fun row => row.withStatus .reversed) rest := rfl
    rw [hupdate, postedTotal_filter_cons, ih]
    cases hp : p row with
    | true => simp [hp, Transaction.withStatus, Transaction.isPosted]
    | false => simp [hp, postedTotal_filter_cons]

def Side.flip : Side → Side
  | .debit => .credit
  | .credit => .debit

section Reversed

variable {db db' : Database} {tenantId : Option Int} {now : Nat} {original : Transaction}
  {input : BalancesInput} {side : Side} {page : List GroupKey}

theorem groupKey_reversal (side : Side) (tx : Transaction) (txRef : String) (id now : Nat) :
    side.groupKey (tx.reversal txRef id now) = side.flip.groupKey tx := by
  cases side <;> rfl

/-- The group of the reversal's row is the one shown for the account. -/
def BalancesInput.showsReversal (input : BalancesInput) (side : Side) (original : Transaction)
    (page : List GroupKey) (account : String) : Bool :=
  inTenant input.tenantId original &&
    (lastOf GroupKey.accountId account page).any fun key =>
      side.flip.groupKey original == some key

theorem selects_reversal {key : GroupKey} (hkey : side.flip.groupKey original = some key)
    (hwants : input.wants key.accountId) (txRef : String) (id now : Nat) :
    input.selects side (original.reversal txRef id now) = inTenant input.tenantId original := by
  unfold BalancesInput.selects
  rw [groupKey_reversal, hkey, any_some, hwants, Bool.true_and]
  rfl

variable (hrefs : (db.transactions.map Transaction.txRef).Nodup)
  (horiginal : original ∈ db.transactions)
  (hreverse : db.reverseTransfer original.txRef tenantId now = some db')

include hrefs horiginal hreverse

/-- A sum over the rows after a reversal: the original is gone from it, the
compensation is in it where it is selected. -/
theorem postedTotal_reverseTransfer (chosen : Transaction → Bool) :
    postedTotal (db'.transactions.filter chosen) =
      postedTotal ((without original db.transactions).filter chosen) +
        if chosen (original.reversal original.txRef db.freshTransactionId now) then original.amount
        else 0 := by
  obtain ⟨htenant, _, hrows⟩ := reverseTransfer_spec hrefs horiginal hreverse
  have hothers : (db.transactions.filter fun row => !reverses original.txRef tenantId row) =
      without original db.transactions := by
    refine filter_congr ?_
    intro row hrow
    by_cases hsame : row = original
    · subst hsame
      simp [reverses, htenant]
    · have href : row.txRef ≠ original.txRef := fun h =>
        hsame (eq_of_txRef hrefs hrow horiginal h)
      have hkept : reverses original.txRef tenantId row = false := by
        unfold reverses
        rw [beq_false_of_ne href, Bool.false_and]
      rw [hkept, bne_iff_ne.mpr hsame]
      rfl
  rw [hrows, filter_append, postedTotal_append, postedTotal_reversed, hothers]
  rw [postedTotal_filter_cons]
  congr 1
  cases chosen (original.reversal original.txRef db.freshTransactionId now) with
  | true | false => exact add_zero _

/-- The transfers without the reversed one fit if those with its reversal do. -/
theorem fits_without (h : Fits (db'.transactions.map Transaction.amount)) :
    Fits ((without original db.transactions).map Transaction.amount) := by
  obtain ⟨_, _, hrows⟩ := reverseTransfer_spec hrefs horiginal hreverse
  have hamounts : db.transactions.map Transaction.amount =
      (updateWhere (reverses original.txRef tenantId) (fun row => row.withStatus .reversed)
        db.transactions).map Transaction.amount :=
    (map_updateWhere (f := fun row : Transaction => row.withStatus .reversed) (fun _ => rfl) _).symm
  refine h.sublist ((filter_sublist.map Transaction.amount).trans ?_)
  rw [hamounts, hrows, map_append]
  exact sublist_append_left _ _

theorem shown_reverseTransfer (sums : RealSum)
    (hfits : Fits (db'.transactions.map Transaction.amount))
    (hpage : IsPage input side db'.transactions page) {account : String} (haccount : account ≠ "") :
    input.shown sums side db'.transactions page account =
      input.shown sums side (without original db.transactions) page account +
        if input.showsReversal side original page account then original.amount else 0 := by
  unfold BalancesInput.shown BalancesInput.showsReversal
  rw [if_neg haccount, if_neg haccount]
  cases hlast : lastOf GroupKey.accountId account page with
  | none => simp
  | some key =>
    obtain ⟨tx, _, hselects, htx⟩ := mem_groups.mp (hpage.groups (lastOf_eq_some hlast).1)
    have hwants : input.wants key.accountId := by
      have hboth := hselects
      unfold BalancesInput.selects at hboth
      rw [htx, any_some] at hboth
      exact (Bool.and_eq_true_iff.mp hboth).1
    have hsum := postedTotal_reverseTransfer hrefs horiginal hreverse fun tx =>
      input.selects side tx && side.groupKey tx == some key
    rw [elim_some, elim_some, posted_eq hfits,
      posted_eq (fits_without hrefs horiginal hreverse hfits)]
    refine hsum.trans ?_
    rw [groupKey_reversal]
    by_cases hkey : side.flip.groupKey original = some key
    · rw [selects_reversal hkey hwants]
      simp only [hkey]
      rfl
    · have hother : (side.flip.groupKey original == some key) = false := by simpa using hkey
      simp [BalancesInput.groupRows, hother]

theorem groups_without_subset :
    input.groups side (without original db.transactions) ⊆ input.groups side db'.transactions := by
  obtain ⟨_, _, hrows⟩ := reverseTransfer_spec hrefs horiginal hreverse
  intro key hkey
  obtain ⟨tx, htx, hselects, hgroup⟩ := mem_groups.mp hkey
  obtain ⟨hmem, hne⟩ := mem_filter.mp htx
  refine mem_groups.mpr ⟨tx, ?_, hselects, hgroup⟩
  rw [hrows]
  refine mem_append_left _ (mem_updateWhere_of_not hmem ?_)
  intro hreverses
  have href : tx.txRef = original.txRef := eq_of_beq (Bool.and_eq_true_iff.mp hreverses).1
  exact bne_iff_ne.mp hne (eq_of_txRef hrefs hmem horiginal href)

theorem Legible.without (h : Legible input db'.transactions) :
    Legible input (without original db.transactions) where
  whole side := by
    have hsubset : input.groups side (Payments.without original db.transactions) ⊆
        input.groups side db'.transactions := groups_without_subset hrefs horiginal hreverse
    exact ((nodup_dedup _).subperm hsubset).length_le.trans (h.whole side)
  single side key hkey key' hkey' :=
    h.single side key (groups_without_subset hrefs horiginal hreverse hkey) key'
      (groups_without_subset hrefs horiginal hreverse hkey')

theorem accountPosted_reverseTransfer (htenant : inTenant input.tenantId original)
    (hall : input.accountIds = none) (account : String) :
    input.accountPosted side db'.transactions account =
      input.accountPosted side (without original db.transactions) account +
        if (side.flip.groupKey original).any fun key => key.accountId == account then
          original.amount
        else 0 := by
  have hsum := postedTotal_reverseTransfer hrefs horiginal hreverse fun tx =>
    input.selects side tx && (side.groupKey tx).any fun key => key.accountId == account
  refine hsum.trans ?_
  rw [groupKey_reversal]
  cases hkey : side.flip.groupKey original with
  | none =>
    rw [Option.any_none, Bool.and_false]
    rfl
  | some key =>
    have hwants : input.wants key.accountId := by
      unfold BalancesInput.wants
      rw [hall]
    rw [selects_reversal hkey hwants, htenant, Bool.true_and]
    rfl

end Reversed

/-! ### What a reversal cancels -/

def Transaction.sender (tx : Transaction) : String := tx.originatorAccount.getD ""

def Transaction.receiver (tx : Transaction) : String := tx.beneficiaryAccount.getD ""

/-- Every account is shown with one net balance for both sets of rows. -/
def SameNetBalances (sums : RealSum) (input : BalancesInput) (rows rows' : List Transaction)
    (page page' : Side → List GroupKey) : Prop :=
  ∀ account, (getAccountBalances sums input rows page).netBalance account =
    (getAccountBalances sums input rows' page').netBalance account

def BalancesInput.netShown (input : BalancesInput) (sums : RealSum) (rows : List Transaction)
    (page : Side → List GroupKey) (account : String) : Rat :=
  input.shown sums .credit rows (page .credit) account - input.shown sums .debit rows (page .debit) account

/-- What the reversal's row adds to the net balance shown for an account. -/
def BalancesInput.reversalShare (input : BalancesInput) (original : Transaction)
    (page : Side → List GroupKey) (account : String) : Rat :=
  (if input.showsReversal .credit original (page .credit) account then original.amount else 0) -
    (if input.showsReversal .debit original (page .debit) account then original.amount else 0)

section Cancels

variable {db db' : Database} {tenantId : Option Int} {now : Nat} {original : Transaction}
  {input : BalancesInput} {after before : Side → List GroupKey} (sums : RealSum)

theorem sameNetBalances_iff_netShown (hrefs : (db.transactions.map Transaction.txRef).Nodup)
    (horiginal : original ∈ db.transactions)
    (hreverse : db.reverseTransfer original.txRef tenantId now = some db')
    (hfits : Fits (db'.transactions.map Transaction.amount))
    (hafter : ∀ side, IsPage input side db'.transactions (after side)) :
    SameNetBalances sums input db'.transactions (without original db.transactions) after before ↔
      ∀ account, account ≠ "" →
        input.netShown sums (without original db.transactions) after account +
            input.reversalShare original after account =
          input.netShown sums (without original db.transactions) before account := by
  have hshown : ∀ account, account ≠ "" →
      (getAccountBalances sums input db'.transactions after).netBalance account =
        input.netShown sums (without original db.transactions) after account +
          input.reversalShare original after account := by
    intro account haccount
    rw [netBalance_getAccountBalances,
      shown_reverseTransfer hrefs horiginal hreverse sums hfits (hafter .credit) haccount,
      shown_reverseTransfer hrefs horiginal hreverse sums hfits (hafter .debit) haccount]
    unfold BalancesInput.netShown BalancesInput.reversalShare
    ring
  constructor
  · intro hsame account haccount
    rw [← hshown account haccount, hsame account, netBalance_getAccountBalances]
    rfl
  · intro hshare account
    by_cases haccount : account = ""
    · subst haccount
      rw [netBalance_getAccountBalances, netBalance_getAccountBalances]
      simp [BalancesInput.shown]
    · rw [hshown account haccount, hshare account haccount, netBalance_getAccountBalances]
      rfl

theorem any_groupKey (holder : Option String) (name currency : String) {account : String}
    (haccount : account ≠ "") :
    ((holder.map fun id => GroupKey.mk id name currency).any fun key => key.accountId == account) =
      (holder.getD "" == account) := by
  cases holder with
  | none => exact (beq_false_of_ne haccount.symm).symm
  | some id => rfl

/-- Where every account's whole line is shown, the sender is shown with the
amount once too often and the receiver once too little. -/
theorem netBalance_reverseTransfer (hrefs : (db.transactions.map Transaction.txRef).Nodup)
    (horiginal : original ∈ db.transactions)
    (hreverse : db.reverseTransfer original.txRef tenantId now = some db')
    (hfits : Fits (db'.transactions.map Transaction.amount))
    (hafter : ∀ side, IsPage input side db'.transactions (after side))
    (hbefore : ∀ side, IsPage input side (without original db.transactions) (before side))
    (hlegible : Legible input db'.transactions) (htenant : inTenant input.tenantId original)
    (hall : input.accountIds = none) {account : String} (haccount : account ≠ "") :
    (getAccountBalances sums input db'.transactions after).netBalance account =
      (getAccountBalances sums input (without original db.transactions) before).netBalance account +
        ((if original.sender == account then original.amount else 0) -
          (if original.receiver == account then original.amount else 0)) := by
  have hwithout := hlegible.without hrefs horiginal hreverse
  have hfits' := fits_without hrefs horiginal hreverse hfits
  rw [netBalance_getAccountBalances, netBalance_getAccountBalances,
    shown_of_legible hfits hlegible (hafter .credit) haccount,
    shown_of_legible hfits hlegible (hafter .debit) haccount,
    shown_of_legible hfits' hwithout (hbefore .credit) haccount,
    shown_of_legible hfits' hwithout (hbefore .debit) haccount,
    accountPosted_reverseTransfer hrefs horiginal hreverse htenant hall,
    accountPosted_reverseTransfer hrefs horiginal hreverse htenant hall]
  have hsender : (Side.credit.flip.groupKey original).any (fun key => key.accountId == account) =
      (original.sender == account) := any_groupKey _ _ _ haccount
  have hreceiver : (Side.debit.flip.groupKey original).any (fun key => key.accountId == account) =
      (original.receiver == account) := any_groupKey _ _ _ haccount
  rw [hsender, hreceiver]
  ring

/-- The reversal cancels the transfer in the balances, which are read without loss of
digits, exactly when nothing is moved, or moved within one account. The first part
has no condition on the answers: groups that the limit hides, and groups that
replace others of the same account, count as they are shown. -/
theorem reversal_cancels_iff (hrefs : (db.transactions.map Transaction.txRef).Nodup)
    (horiginal : original ∈ db.transactions)
    (hreverse : db.reverseTransfer original.txRef tenantId now = some db')
    (hfits : Fits (db'.transactions.map Transaction.amount))
    (hafter : ∀ side, IsPage input side db'.transactions (after side))
    (hbefore : ∀ side, IsPage input side (without original db.transactions) (before side)) :
    (SameNetBalances sums input db'.transactions (without original db.transactions) after before ↔
      ∀ account, account ≠ "" →
        input.netShown sums (without original db.transactions) after account +
            input.reversalShare original after account =
          input.netShown sums (without original db.transactions) before account) ∧
    (Legible input db'.transactions → inTenant input.tenantId original →
      input.accountIds = none →
      (SameNetBalances sums input db'.transactions (without original db.transactions) after before ↔
        original.amount = 0 ∨ original.sender = original.receiver)) := by
  refine ⟨sameNetBalances_iff_netShown sums hrefs horiginal hreverse hfits hafter, ?_⟩
  intro hlegible htenant hall
  have hnet := fun account (haccount : account ≠ "") => netBalance_reverseTransfer sums hrefs
    horiginal hreverse hfits hafter hbefore hlegible htenant hall haccount
  constructor
  · intro hsame
    by_cases hparties : original.sender = original.receiver
    · exact .inr hparties
    · left
      by_cases hsender : original.sender = ""
      · have hreceiver : original.receiver ≠ "" := fun h => hparties (hsender.trans h.symm)
        have hshare := hnet original.receiver hreceiver
        rw [hsame original.receiver] at hshare
        simp [hparties] at hshare
        linarith
      · have hshare := hnet original.sender hsender
        rw [hsame original.sender] at hshare
        have hother : original.receiver ≠ original.sender := fun h => hparties h.symm
        simp [hother] at hshare
        linarith
  · intro hnothing account
    by_cases haccount : account = ""
    · subst haccount
      rw [netBalance_getAccountBalances, netBalance_getAccountBalances]
      simp [BalancesInput.shown]
    · rw [hnet account haccount]
      rcases hnothing with hzero | hparties
      · simp [hzero]
      · simp [hparties]

end Cancels

def completedTransfer : Transaction :=
  { id := 1
    tenantId := some 7
    txRef := "PAY-1"
    idempotencyKey := some "PAY-1"
    status := .completed
    amount := 50000
    currency := "NGN"
    originatorName := "ACC-1"
    originatorAccount := some "ACC-1"
    beneficiaryName := "Ada"
    beneficiaryAccount := some "0123456789"
    beneficiaryBank := some "058" }

def balancesOfTenant : BalancesInput := { tenantId := some 7, accountIds := none, limit := 20 }

theorem isPage_groups {input : BalancesInput} {rows : List Transaction}
    (h : ∀ side, (input.groups side rows).length ≤ input.limit) (side : Side) :
    IsPage input side rows (input.groups side rows) :=
  ⟨nodup_dedup _, List.Subset.refl _, (Nat.min_eq_right (h side)).symm⟩

/-- After the reversal of a transfer of 50000 its sender has 50000. -/
theorem reversed_transfer_pays_sender :
    ¬ ∀ (sums : RealSum) (db db' : Database) (tenantId : Option Int) (now : Nat)
      (original : Transaction) (input : BalancesInput) (after before : Side → List GroupKey),
      (db.transactions.map Transaction.txRef).Nodup → original ∈ db.transactions →
      original.status = .completed →
      db.reverseTransfer original.txRef tenantId now = some db' →
      (∀ side, IsPage input side db'.transactions (after side)) →
      (∀ side, IsPage input side (without original db.transactions) (before side)) →
      SameNetBalances sums input db'.transactions (without original db.transactions) after before := by
  intro h
  let db : Database := { transactions := [completedTransfer], outbox := [], cases := [] }
  let rows : List Transaction :=
    [completedTransfer.withStatus .reversed, completedTransfer.reversal "PAY-1" 2 0]
  have hreverse : (db.reverseTransfer "PAY-1" (some 7) 0).map Database.transactions = some rows := by
    decide
  obtain ⟨db', hdb', hrows⟩ := map_eq_some_iff.mp hreverse
  have hafter : ∀ side, (balancesOfTenant.groups side db'.transactions).length ≤ 20 := by
    rw [hrows]
    intro side
    cases side <;> decide
  have hbefore : ∀ side,
      (balancesOfTenant.groups side (without completedTransfer db.transactions)).length ≤ 20 := by
    intro side
    cases side <;> decide
  have hsame := h ⟨List.sum, fun _ _ => rfl⟩ db db' (some 7) 0 completedTransfer balancesOfTenant
    _ _ (by decide) (by decide) rfl hdb' (isPage_groups hafter) (isPage_groups hbefore) "ACC-1"
  rw [hrows] at hsame
  revert hsame
  decide +kernel

/-- A transfer within one account. -/
def internalTransfer : Transaction :=
  { completedTransfer with
    beneficiaryName := "ACC-1"
    beneficiaryAccount := some "ACC-1" }

theorem internal_transfer_cancelled :
    ∃ db' : Database,
      (Database.mk [internalTransfer] [] []).reverseTransfer "PAY-1" (some 7) 0 = some db' ∧
      SameNetBalances ⟨List.sum, fun _ _ => rfl⟩ balancesOfTenant db'.transactions []
        (fun _ => [⟨"ACC-1", "ACC-1", "NGN"⟩]) fun _ => [] := by
  let db : Database := { transactions := [internalTransfer], outbox := [], cases := [] }
  let rows : List Transaction :=
    [internalTransfer.withStatus .reversed, internalTransfer.reversal "PAY-1" 2 0]
  have hreverse : (db.reverseTransfer "PAY-1" (some 7) 0).map Database.transactions = some rows := by
    decide
  obtain ⟨db', hdb', hrows⟩ := map_eq_some_iff.mp hreverse
  have hgroups : ∀ side, balancesOfTenant.groups side db'.transactions =
      [⟨"ACC-1", "ACC-1", "NGN"⟩] := by
    rw [hrows]
    intro side
    cases side <;> decide
  refine ⟨db', hdb', ?_⟩
  have hrefs : (db.transactions.map Transaction.txRef).Nodup := nodup_singleton _
  have hwhole : ∀ side,
      (balancesOfTenant.groups side db'.transactions).length ≤ balancesOfTenant.limit := by
    intro side
    rw [hgroups side]
    decide
  refine ((reversal_cancels_iff _ hrefs mem_cons_self hdb' ?_ ?_ ?_).2 ?_ ?_ ?_).mpr ?_
  · rw [hrows]
    refine ⟨?_, by decide +kernel⟩
    intro amount hamount
    rcases mem_pair.mp hamount with rfl | rfl <;> exact ⟨50000, rfl⟩
  · intro side
    rw [← hgroups side]
    exact isPage_groups hwhole side
  · intro side
    cases side <;> exact ⟨nodup_nil, nil_subset _, by decide⟩
  · exact ⟨hwhole, by simp [hgroups]⟩
  · rfl
  · rfl
  · exact .inr rfl

end Bis.Payments
