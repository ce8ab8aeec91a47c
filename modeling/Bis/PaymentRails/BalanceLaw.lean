import Bis.PaymentRails.Balances

/-!
When the balances are right. The map keeps, for every account, the last group of
each side that is on the page, under the currency of the last group that sends or
else of the first one that receives.
-/

namespace Bis.PaymentRails

open Bis.Relation List

/-! ### The map -/

theorem findBalance_setBalance (b : AccountBalance) (balances : List AccountBalance)
    (account : String) :
    findBalance account (setBalance b balances) =
      if b.accountId = account then some b else findBalance account balances := by
  induction balances with
  | nil =>
    by_cases hb : b.accountId = account
    · simp [findBalance, setBalance, hb]
    · simp [findBalance, setBalance, hb]
  | cons first rest ih =>
    rw [setBalance]
    by_cases hsame : first.accountId = b.accountId
    · rw [if_pos hsame]
      by_cases hb : b.accountId = account
      · simp [findBalance, hb]
      · simp [findBalance, hsame, hb]
    · rw [if_neg hsame]
      by_cases hfirst : first.accountId = account
      · subst hfirst
        rw [if_neg (Ne.symm hsame)]
        simp [findBalance]
      · have hrest : ∀ others, findBalance account (first :: others) =
            findBalance account others := by
          intro others
          simp [findBalance, hfirst]
        rw [hrest, hrest, ih]

variable {b : AccountBalance} {balances : List AccountBalance} {account : String}

theorem mem_setBalance_accounts (h : account ∈ (setBalance b balances).map
    AccountBalance.accountId) :
    account = b.accountId ∨ account ∈ balances.map AccountBalance.accountId := by
  induction balances with
  | nil => exact .inl (mem_singleton.mp h)
  | cons first rest ih =>
    rw [setBalance] at h
    split at h
    · rw [map_cons] at h
      rcases mem_cons.mp h with hb | hrest
      · exact .inl hb
      · exact .inr (mem_cons_of_mem _ hrest)
    · rw [map_cons] at h
      rcases mem_cons.mp h with hfirst | hrest
      · exact .inr (hfirst ▸ mem_cons_self)
      · rcases ih hrest with hb | hrest
        · exact .inl hb
        · exact .inr (mem_cons_of_mem _ hrest)

/-- An account has one entry. -/
def Distinct (balances : List AccountBalance) : Prop :=
  (balances.map AccountBalance.accountId).Nodup

theorem Distinct.setBalance (h : Distinct balances) (b : AccountBalance) :
    Distinct (setBalance b balances) := by
  induction balances with
  | nil => exact pairwise_singleton _ _
  | cons first rest ih =>
    obtain ⟨hfirst, hrest⟩ := nodup_cons.mp h
    rw [PaymentRails.setBalance]
    split
    next hsame => exact nodup_cons.mpr ⟨hsame ▸ hfirst, hrest⟩
    next hother =>
      refine nodup_cons.mpr ⟨?_, ih hrest⟩
      intro hmem
      rcases mem_setBalance_accounts hmem with hb | hmem
      · exact hother hb
      · exact hfirst hmem

theorem Distinct.findBalance_of_mem (h : Distinct balances) (hb : b ∈ balances) :
    findBalance b.accountId balances = some b := by
  induction balances with
  | nil => cases hb
  | cons first rest ih =>
    obtain ⟨hfirst, hrest⟩ := nodup_cons.mp h
    rcases mem_cons.mp hb with rfl | hmem
    · simp [findBalance]
    · have hne : first.accountId ≠ b.accountId := by
        intro heq
        exact hfirst (heq ▸ mem_map_of_mem hmem)
      rw [← ih hrest hmem]
      simp [findBalance, hne]

theorem mem_of_findBalance (h : findBalance account balances = some b) :
    b ∈ balances ∧ b.accountId = account :=
  ⟨mem_of_find?_eq_some h, by simpa using find?_some h⟩

/-! ### The merge -/

theorem distinct_addDebits (debits : List GroupSums) (h : Distinct balances) :
    Distinct (debits.foldl addDebit balances) := by
  induction debits generalizing balances with
  | nil => exact h
  | cons d debits ih =>
    apply ih
    unfold addDebit
    split
    · exact h
    · exact h.setBalance _

theorem distinct_addCredits (credits : List GroupSums) (h : Distinct balances) :
    Distinct (credits.foldl addCredit balances) := by
  induction credits generalizing balances with
  | nil => exact h
  | cons c credits ih =>
    apply ih
    unfold addCredit
    split
    · exact h
    · split
      · exact h.setBalance _
      · exact h.setBalance _

/-- The groups of an account. -/
def groupsOf (account : String) (groups : List GroupSums) : List GroupSums :=
  under (fun g => g.key.accountId) account groups

theorem groupsOf_append_self (groups : List GroupSums) (g : GroupSums) :
    groupsOf g.key.accountId (groups ++ [g]) = groupsOf g.key.accountId groups ++ [g] := by
  simp [groupsOf, under]

theorem groupsOf_append_of_ne (groups : List GroupSums) {g : GroupSums}
    (h : g.key.accountId ≠ account) :
    groupsOf account (groups ++ [g]) = groupsOf account groups := by
  simp [groupsOf, under, h]

theorem findBalance_addDebits (debits : List GroupSums) (h : account ≠ "") :
    findBalance account (debits.foldl addDebit []) =
      (groupsOf account debits).getLast?.map ofDebit := by
  induction debits using List.reverseRecOn with
  | nil => rfl
  | append_singleton debits d ih =>
    rw [foldl_append, foldl_cons, foldl_nil, addDebit]
    by_cases hd : d.key.accountId = account
    · subst hd
      rw [if_neg h, findBalance_setBalance, groupsOf_append_self]
      simp [ofDebit]
    · rw [groupsOf_append_of_ne _ hd]
      split
      · exact ih
      · rw [findBalance_setBalance, if_neg (by simpa [ofDebit] using hd)]
        exact ih

theorem withCredit_withCredit (b : AccountBalance) (c c' : GroupSums) :
    withCredit (withCredit b c) c' = withCredit b c' := rfl

theorem withCredit_ofCredit (c : GroupSums) : withCredit (ofCredit c) c = ofCredit c := by
  simp [withCredit, ofCredit]

/-- What the credits of an account are written over: what the debits have set, or the
first of the credits. -/
def creditBase (credits : List GroupSums) (start : List AccountBalance) (account : String) :
    Option AccountBalance :=
  (findBalance account start).or ((groupsOf account credits).head?.map ofCredit)

theorem creditBase_append {credits : List GroupSums} {start : List AccountBalance} (c : GroupSums)
    (h : creditBase credits start account = some b) :
    creditBase (credits ++ [c]) start account = some b := by
  unfold creditBase at h ⊢
  cases hstart : findBalance account start with
  | some found =>
    rw [hstart] at h
    exact h
  | none =>
    rw [hstart, Option.none_or] at h
    obtain ⟨first, hfirst, hb⟩ := Option.map_eq_some_iff.mp h
    have hhead : (groupsOf account (credits ++ [c])).head? = some first := by
      have happend : groupsOf account (credits ++ [c]) =
          groupsOf account credits ++ groupsOf account [c] := filter_append ..
      rw [happend, head?_append, hfirst, Option.some_or]
    rw [hhead, Option.none_or, Option.map_some, hb]

/-- The credits of the last group are what the balance has. -/
theorem findBalance_addCredits (credits : List GroupSums) (start : List AccountBalance)
    (h : account ≠ "") :
    findBalance account (credits.foldl addCredit start) =
      (creditBase credits start account).map fun b =>
        (groupsOf account credits).getLast?.elim b (withCredit b) := by
  induction credits using List.reverseRecOn with
  | nil => simp [creditBase, groupsOf, under]
  | append_singleton credits c ih =>
    rw [foldl_append, foldl_cons, foldl_nil, addCredit]
    by_cases hc : c.key.accountId = account
    · subst hc
      rw [if_neg h, groupsOf_append_self, getLast?_append, getLast?_singleton,
        Option.some_or]
      simp only [Option.elim_some]
      split
      next existing hexisting =>
        have haccount : (withCredit existing c).accountId = c.key.accountId :=
          (mem_of_findBalance hexisting).2
        rw [findBalance_setBalance, if_pos haccount]
        rw [ih] at hexisting
        obtain ⟨b, hb, hlast⟩ := Option.map_eq_some_iff.mp hexisting
        rw [creditBase_append c hb, Option.map_some, ← hlast]
        cases (groupsOf c.key.accountId credits).getLast? with
        | none => rfl
        | some last => rw [Option.elim_some, withCredit_withCredit]
      next hnone =>
        rw [ih, Option.map_eq_none_iff, creditBase, Option.or_eq_none_iff,
          Option.map_eq_none_iff] at hnone
        have haccount : (ofCredit c).accountId = c.key.accountId := rfl
        rw [findBalance_setBalance, if_pos haccount, creditBase, hnone.1, groupsOf_append_self,
          head?_append, hnone.2]
        simp [withCredit_ofCredit]
    · have hothers : ∀ b : AccountBalance, b.accountId = c.key.accountId →
          findBalance account (setBalance b (credits.foldl addCredit start)) =
            findBalance account (credits.foldl addCredit start) := by
        intro b hb
        rw [findBalance_setBalance, if_neg (hb ▸ hc)]
      rw [creditBase, groupsOf_append_of_ne _ hc, ← creditBase, ← ih]
      split
      · rfl
      · split
        next existing hexisting => exact hothers _ (mem_of_findBalance hexisting).2
        next hnone => exact hothers _ rfl

/-! ### What the page shows -/

namespace Call

variable {call : Call}

/-- The last group of an account on the page of a side. -/
def kept (call : Call) (side : Side) (account : String) : Option GroupKey :=
  (under GroupKey.accountId account (call.pageKeys side)).getLast?

/-- The currency an account is shown in. -/
def shownCurrency (call : Call) (account : String) : Option String :=
  if account = "" then none
  else ((call.kept .debits account).or
    (under GroupKey.accountId account (call.pageKeys .credits)).head?).map GroupKey.currency

def groupSums (call : Call) (side : Side) (key : GroupKey) : GroupSums :=
  { key, pending := call.groupTotal side .pending key, posted := call.groupTotal side .posted key }

def keptTotal (call : Call) (side : Side) (counted : Counted) (account : String) : Rat :=
  (call.kept side account).elim 0 (call.groupTotal side counted)

theorem groupsOf_groups (side : Side) (account : String) :
    groupsOf account (call.groups side) =
      (under GroupKey.accountId account (call.pageKeys side)).map (call.groupSums side) := by
  unfold groupsOf under groups
  rw [filter_map]
  rfl

theorem distinct_balanceMap (call : Call) : Distinct call.balanceMap :=
  distinct_addCredits _ (distinct_addDebits _ List.Pairwise.nil)

theorem findBalance_empty (call : Call) : findBalance "" call.balanceMap = none := by
  have hset : ∀ (b : AccountBalance) balances, b.accountId ≠ "" →
      findBalance "" balances = none → findBalance "" (setBalance b balances) = none := by
    intro b balances hb hnone
    rw [findBalance_setBalance, if_neg hb, hnone]
  have hdebits : ∀ (debits : List GroupSums) balances, findBalance "" balances = none →
      findBalance "" (debits.foldl addDebit balances) = none := by
    intro debits
    induction debits with
    | nil => exact fun _ hnone => hnone
    | cons d debits ih =>
      intro balances hnone
      apply ih
      unfold addDebit
      split
      · exact hnone
      · exact hset _ _ (by assumption) hnone
  have hcredits : ∀ (credits : List GroupSums) balances, findBalance "" balances = none →
      findBalance "" (credits.foldl addCredit balances) = none := by
    intro credits
    induction credits with
    | nil => exact fun _ hnone => hnone
    | cons c credits ih =>
      intro balances hnone
      apply ih
      unfold addCredit
      split
      · exact hnone
      · split
        next existing hexisting =>
          apply hset _ _ _ hnone
          rw [show (withCredit existing c).accountId = existing.accountId from rfl,
            (mem_of_findBalance hexisting).2]
          assumption
        next => exact hset _ _ (by assumption) hnone
  exact hcredits _ _ (hdebits _ _ rfl)

/-- The entry of an account holds the sums of the groups it kept. -/
theorem findBalance_balanceMap {account : String} (h : account ≠ "") :
    findBalance account call.balanceMap = none ∧ call.shownCurrency account = none ∨
      ∃ b, findBalance account call.balanceMap = some b ∧
        call.shownCurrency account = some b.currency ∧
        b.debitsPending = call.keptTotal .debits .pending account ∧
        b.debitsPosted = call.keptTotal .debits .posted account ∧
        b.creditsPending = call.keptTotal .credits .pending account ∧
        b.creditsPosted = call.keptTotal .credits .posted account ∧
        b.netBalance = b.creditsPosted - b.debitsPosted := by
  rw [balanceMap, findBalance_addCredits _ _ h, creditBase, findBalance_addDebits _ h,
    groupsOf_groups, groupsOf_groups, shownCurrency, if_neg h]
  simp only [keptTotal, kept, getLast?_map, head?_map, Option.map_map]
  cases (under GroupKey.accountId account (call.pageKeys .debits)).getLast? with
  | none =>
    generalize under GroupKey.accountId account (call.pageKeys .credits) = credits
    cases credits with
    | nil => simp
    | cons first rest =>
      right
      cases hlast : (first :: rest).getLast? with
      | none => simp at hlast
      | some last => simp [ofCredit, withCredit, groupSums]
  | some d =>
    right
    cases (under GroupKey.accountId account (call.pageKeys .credits)).getLast? with
    | none => simp [ofDebit, groupSums]
    | some c => simp [ofDebit, withCredit, groupSums]

/-! ### When the balances are right -/

/-- The rows a balance is made of. -/
def keptTakes (call : Call) (side : Side) (counted : Counted) (account : String)
    (row : Transaction) : Bool :=
  side.account row == some account && side.key row == call.kept side account && counted.takes row

/-- What the kept group has from outside of the book adds up to what the book has
outside of the kept group. -/
def Undisturbed (call : Call) (side : Side) (counted : Counted) (account currency : String) : Prop :=
  total Transaction.amount (fun row => call.keptTakes side counted account row &&
      !inBook side counted account currency row) call.tenantRows =
    total Transaction.amount (fun row => inBook side counted account currency row &&
      !call.keptTakes side counted account row) call.tenantRows

/-- A posted row whose account on this side is shown in the currency of the row. -/
def shown (call : Call) (side : Side) (row : Transaction) : Bool :=
  Counted.posted.takes row &&
    (side.account row).any fun account => call.shownCurrency account == some row.currency

/-- What only the sender's balance has adds up to what only the receiver's has. -/
def OneSidedCancel (call : Call) : Prop :=
  total Transaction.amount (fun row => call.shown .credits row && !call.shown .debits row)
      call.tenantRows =
    total Transaction.amount (fun row => call.shown .debits row && !call.shown .credits row)
      call.tenantRows

variable {side : Side} {key : GroupKey}

theorem account_of_key {row : Transaction} (h : side.key row = some key) :
    side.account row = some key.accountId := by
  obtain ⟨account, haccount, rfl⟩ := Option.map_eq_some_iff.mp h
  exact haccount

theorem kept_spec {account : String} (h : call.kept side account = some key) :
    key ∈ call.pageKeys side ∧ key.accountId = account :=
  mem_under.mp (mem_of_getLast? h)

/-- The groups of a page are of accounts that were asked for. -/
theorem asks_of_mem_pageKeys (h : key ∈ call.pageKeys side) :
    call.input.asks key.accountId = true := by
  have hkey := (call.groupOrder.perm side _).mem_iff.mp (mem_of_mem_take h)
  obtain ⟨row, hrow, hrowKey⟩ := mem_filterMap.mp (mem_dedup.mp hkey)
  have hasked := (mem_filter.mp hrow).2
  rw [account_of_key hrowKey] at hasked
  exact hasked

theorem keptTotal_eq (h : call.Exact) (side : Side) (counted : Counted) (account : String) :
    call.keptTotal side counted account =
      total Transaction.amount (call.keptTakes side counted account) call.tenantRows := by
  unfold keptTotal
  cases hkept : call.kept side account with
  | none =>
    rw [Option.elim_none]
    symm
    apply total_of_none
    intro row _
    unfold keptTakes Side.key
    rw [hkept]
    cases side.account row <;> simp
  | some key =>
    obtain ⟨hpage, hkey⟩ := kept_spec hkept
    rw [Option.elim_some, groupTotal, sideRows, call.sums.sumCase_eq ((h.filter _).filter _),
      total_filter, total_filter]
    apply total_congr
    intro row _
    unfold keptTakes
    rw [hkept]
    by_cases hrow : side.key row = some key
    · have haccount := account_of_key hrow
      have hasked := asks_of_mem_pageKeys hpage
      rw [hkey] at haccount hasked
      simp [hrow, haccount, hasked]
    · have hother : (side.key row == some key) = false := beq_eq_false_iff_ne.mpr hrow
      simp [hother]

theorem keptTotal_eq_bookTotal_iff (h : call.Exact) (side : Side) (counted : Counted)
    (account currency : String) :
    call.keptTotal side counted account = call.bookTotal side counted account currency ↔
      call.Undisturbed side counted account currency := by
  rw [keptTotal_eq h, bookTotal, total_eq_total_iff]
  rfl

theorem account_ne_empty {b : AccountBalance} (h : b ∈ call.balanceMap) : b.accountId ≠ "" := by
  intro hempty
  have hfound := (distinct_balanceMap call).findBalance_of_mem h
  rw [hempty, findBalance_empty] at hfound
  cases hfound

theorem shownCurrency_eq_some_iff {account currency : String} :
    call.shownCurrency account = some currency ↔
      ∃ b ∈ call.balanceMap, b.accountId = account ∧ b.currency = currency := by
  constructor
  · intro h
    have hne : account ≠ "" := by
      rintro rfl
      cases h
    have hentry := @findBalance_balanceMap call account hne
    rcases hentry with ⟨_, hnone⟩ | ⟨b, hb, hshown, _⟩
    · cases hnone.symm.trans h
    · obtain ⟨hmem, haccount⟩ := mem_of_findBalance hb
      exact ⟨b, hmem, haccount, Option.some.inj (hshown.symm.trans h)⟩
  · rintro ⟨b, hmem, rfl, rfl⟩
    have hfound := (distinct_balanceMap call).findBalance_of_mem hmem
    rcases findBalance_balanceMap (account_ne_empty hmem) with ⟨hnone, _⟩ | ⟨b', hb', hshown, _⟩
    · cases hnone.symm.trans hfound
    · obtain rfl := Option.some.inj (hb'.symm.trans hfound)
      exact hshown

theorem right_iff (hexact : call.Exact) {b : AccountBalance} (h : b ∈ call.balanceMap) :
    call.Right b ↔ ∀ side counted, call.Undisturbed side counted b.accountId b.currency := by
  have hfound := (distinct_balanceMap call).findBalance_of_mem h
  rcases findBalance_balanceMap (account_ne_empty h) with ⟨hnone, _⟩ | ⟨b', hb', _, hsums⟩
  · cases hnone.symm.trans hfound
  obtain rfl := Option.some.inj (hb'.symm.trans hfound)
  obtain ⟨hdp, hdo, hcp, hco, hnet⟩ := hsums
  simp only [← keptTotal_eq_bookTotal_iff hexact]
  constructor
  · intro hright side counted
    cases side <;> cases counted
    · exact hdp.symm.trans hright.debitsPending
    · exact hdo.symm.trans hright.debitsPosted
    · exact hcp.symm.trans hright.creditsPending
    · exact hco.symm.trans hright.creditsPosted
  · intro hkept
    refine ⟨hdp.trans (hkept _ _), hdo.trans (hkept _ _), hcp.trans (hkept _ _),
      hco.trans (hkept _ _), ?_⟩
    rw [hnet, hdo, hco, hkept, hkept]

theorem any_inBook (side : Side) (row : Transaction) :
    call.balanceMap.any (fun b => inBook side .posted b.accountId b.currency row) =
      call.shown side row := by
  rw [Bool.eq_iff_iff, any_eq_true, shown, Bool.and_eq_true, Option.any_eq_true]
  simp only [inBook, Bool.and_eq_true, beq_iff_eq, shownCurrency_eq_some_iff]
  constructor
  · rintro ⟨b, hmem, ⟨haccount, hcurrency⟩, hposted⟩
    exact ⟨hposted, b.accountId, haccount, b, hmem, rfl, hcurrency.symm⟩
  · rintro ⟨hposted, account, haccount, b, hmem, rfl, hcurrency⟩
    exact ⟨b, hmem, ⟨haccount, hcurrency.symm⟩, hposted⟩

theorem sum_bookTotal (side : Side) :
    (call.balanceMap.map fun b => call.bookTotal side .posted b.accountId b.currency).sum =
      total Transaction.amount (call.shown side) call.tenantRows := by
  have hapart : ∀ row, call.balanceMap.Pairwise fun a b =>
      ¬ (inBook side .posted a.accountId a.currency row = true ∧
        inBook side .posted b.accountId b.currency row = true) := by
    intro row
    apply (pairwise_map.mp (distinct_balanceMap call)).imp
    rintro a b hne ⟨ha, hb⟩
    simp only [inBook, Bool.and_eq_true, beq_iff_eq] at ha hb
    exact hne (Option.some.inj (ha.1.1.symm.trans hb.1.1))
  have hsum : (call.balanceMap.map fun b => total Transaction.amount
      (inBook side .posted b.accountId b.currency) call.tenantRows).sum = _ :=
    sum_total call.tenantRows hapart
  simp only [bookTotal]
  rw [hsum]
  exact total_congr fun row _ => any_inBook side row

theorem balances_perm (call : Call) : call.getAccountBalances.balances.Perm call.balanceMap :=
  mergeSort_perm _ _

theorem rights_iff (hexact : call.Exact) :
    (∀ b ∈ call.getAccountBalances.balances, call.Right b) ↔
      ∀ account currency, call.shownCurrency account = some currency →
        ∀ side counted, call.Undisturbed side counted account currency := by
  constructor
  · intro h account currency hshown
    obtain ⟨b, hmem, rfl, rfl⟩ := shownCurrency_eq_some_iff.mp hshown
    exact (right_iff hexact hmem).mp (h b ((balances_perm call).mem_iff.mpr hmem))
  · intro h b hmem
    have hin := (balances_perm call).mem_iff.mp hmem
    exact (right_iff hexact hin).mpr (h _ _ (shownCurrency_eq_some_iff.mpr ⟨b, hin, rfl, rfl⟩))

/-- Right balances add up to what is shown as received less what is shown as sent. -/
theorem sum_netBalance (h : ∀ b ∈ call.getAccountBalances.balances, call.Right b) :
    (call.getAccountBalances.balances.map AccountBalance.netBalance).sum =
      total Transaction.amount (call.shown .credits) call.tenantRows -
        total Transaction.amount (call.shown .debits) call.tenantRows := by
  have hnet : call.balanceMap.map AccountBalance.netBalance = call.balanceMap.map fun b =>
      call.bookTotal .credits .posted b.accountId b.currency -
        call.bookTotal .debits .posted b.accountId b.currency := by
    apply map_congr_left
    intro b hmem
    exact (h b ((balances_perm call).mem_iff.mpr hmem)).netBalance
  rw [((balances_perm call).map AccountBalance.netBalance).sum_eq, hnet, sum_map_difference,
    sum_bookTotal, sum_bookTotal]

/-- Where the sums lose no digits, the balances are right exactly if what the map keeps of
an account and what its book has apart from each other add up to the same, and so do the
transfers that only one side shows. -/
theorem balanced_iff (call : Call) (hexact : call.Exact) :
    call.Balanced ↔
      (∀ account currency, call.shownCurrency account = some currency →
        ∀ side counted, call.Undisturbed side counted account currency) ∧
      ((∀ account, call.input.asks account) → call.OneSidedCancel) := by
  unfold Balanced
  rw [← rights_iff hexact]
  apply and_congr_right
  intro hright
  rw [sum_netBalance hright, sub_eq_zero, total_eq_total_iff]
  rfl

/-- Two transfers of one account, which goes by two names. -/
def twoNames : List Transaction :=
  [{ transferAt 1 "PAY-1" 1781611200000000 with amount := 100 },
    { transferAt 2 "PAY-2" 1781611260000000 with amount := 50, originatorName := "Ada Obi" }]

def twoNamesCall : Call :=
  { groupOrder := ⟨fun _ keys => keys, fun _ keys => List.Perm.refl keys⟩
    sums := ⟨List.sum, fun _ _ => rfl⟩
    rows := twoNames, tenantId := some 1
    input := { accountIds := none, limit := 20, atLeast := by decide, atMost := by decide } }

theorem twoNames_balanced_iff :
    twoNamesCall.Balanced ↔
      (∀ account currency, twoNamesCall.shownCurrency account = some currency →
        ∀ side counted, twoNamesCall.Undisturbed side counted account currency) ∧
      ((∀ account, twoNamesCall.input.asks account) → twoNamesCall.OneSidedCancel) := by
  apply balanced_iff
  constructor
  · intro x hx
    rcases mem_pair.mp hx with rfl | rfl
    · exact ⟨100, rfl⟩
    · exact ⟨50, rfl⟩
  · decide +kernel

/-- The sender is shown with 50 sent, of 150. -/
theorem twoNames_not_balanced : ¬ twoNamesCall.Balanced := by
  rintro ⟨_, hcancel⟩
  have hsum := hcancel fun _ => rfl
  rw [((balances_perm twoNamesCall).map AccountBalance.netBalance).sum_eq] at hsum
  revert hsum
  decide +kernel

end Call

end Bis.PaymentRails
