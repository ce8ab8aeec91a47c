import Bis.Payments.Dispatch
import Bis.Payments.Monitoring

/-!
The keys of the three payment tables. Every operation but the desk's is a
sequence of writes that leave keys and tenants alone and add cases only by the
trigger; a claim and a resolution change the case of one transaction.
-/

namespace Bis.Payments

open Bis.Relation Bis.Transition List

/-- The officers of a case are where its status says they are. -/
structure ReconciliationCase.Shaped (c : ReconciliationCase) : Prop where
  unclaimed : c.status = .open → c.claimedBy = none ∧ c.resolvedBy = none
  claimed : c.status = .underReview → c.claimedBy ≠ none ∧ c.resolvedBy = none
  /-- The four-eyes check of the table. -/
  resolved : c.status ≠ .open → c.status ≠ .underReview →
    ∃ claimer resolver, c.claimedBy = some claimer ∧ c.resolvedBy = some resolver ∧
      resolver ≠ claimer

/-- Keys are unique, references point to rows, and tenants agree. -/
structure Linked (db : Database) : Prop where
  transactionIds : (db.transactions.map Transaction.id).Nodup
  outboxIds : (db.outbox.map OutboxRow.id).Nodup
  outboxTransactions : (db.outbox.map OutboxRow.transactionId).Nodup
  caseTransactions : (db.cases.map ReconciliationCase.transactionId).Nodup
  outbox : ∀ row ∈ db.outbox,
    ∃ tx ∈ db.transactions, tx.id = row.transactionId ∧ tx.tenantId = some row.tenantId
  cases : ∀ c ∈ db.cases, ∃ row ∈ db.outbox,
    row.id = c.outboxId ∧ row.transactionId = c.transactionId ∧ row.tenantId = c.tenantId
  shaped : ∀ c ∈ db.cases, c.Shaped

def SameTransaction (tx tx' : Transaction) : Prop := tx'.id = tx.id ∧ tx'.tenantId = tx.tenantId

def SameRow (row row' : OutboxRow) : Prop :=
  row'.id = row.id ∧ row'.transactionId = row.transactionId ∧ row'.tenantId = row.tenantId

def SameCase (c c' : ReconciliationCase) : Prop :=
  c'.transactionId = c.transactionId ∧ c'.outboxId = c.outboxId ∧ c'.tenantId = c.tenantId

/-- The writes of the operations that are not the desk's. -/
inductive Write : Database → Database → Prop
  | transactions (db : Database) (p : Transaction → Bool) (f : Transaction → Transaction)
      (hf : ∀ tx, SameTransaction tx (f tx)) : Write db (db.updateTransactions p f)
  | outbox (db : Database) (p : OutboxRow → Bool) (f : OutboxRow → OutboxRow)
      (hf : ∀ row, SameRow row (f row)) : Write db (db.updateOutbox p f)
  | openCase (db : Database) (tx : Transaction) : Write db (db.openCase tx)
  | insertTransaction (db : Database) (tx : Transaction) (hid : tx.id = db.freshTransactionId) :
      Write db { db with transactions := db.transactions ++ [tx] }
  | insertIntent (db : Database) (tx : Transaction) (row : OutboxRow)
      (hid : tx.id = db.freshTransactionId) (hrow : row.id = db.freshOutboxId)
      (htx : row.transactionId = tx.id) (htenant : tx.tenantId = some row.tenantId) :
      Write db
        { db with
          transactions := db.transactions ++ [tx]
          outbox := db.outbox ++ [row] }

abbrev Writes : Database → Database → Prop := Relation.ReflTransGen Write

/-- Cases that a write has added. -/
def Opened (c : ReconciliationCase) : Prop :=
  c.status = .open ∧ c.claimedBy = none ∧ c.resolvedBy = none

section Writes

variable {db db' : Database}

/-! ### What a write keeps -/

theorem ids_updateWhere (p : Transaction → Bool) (status : TransactionStatus)
    (rows : List Transaction) :
    (updateWhere p (fun tx => tx.withStatus status) rows).map Transaction.id =
      rows.map Transaction.id :=
  map_updateWhere (f := fun tx => tx.withStatus status) (fun _ => rfl) rows

theorem nodup_ids_append {rows : List Transaction} {row : Transaction}
    (h : (rows.map Transaction.id).Nodup)
    (hid : row.id = (rows.map Transaction.id).foldr max 0 + 1) :
    ((rows ++ [row]).map Transaction.id).Nodup := by
  rw [map_append]
  apply nodup_append_fresh h
  rw [hid]
  exact fresh_not_mem _

theorem Linked.updateTransactions (h : Linked db) (p : Transaction → Bool)
    {f : Transaction → Transaction} (hf : ∀ tx, SameTransaction tx (f tx)) :
    Linked (db.updateTransactions p f) where
  transactionIds := by
    simp only [Database.updateTransactions]
    rw [map_updateWhere fun tx => (hf tx).1]
    exact h.transactionIds
  outboxIds := h.outboxIds
  outboxTransactions := h.outboxTransactions
  caseTransactions := h.caseTransactions
  outbox row hrow := by
    obtain ⟨tx, htx, hid, htenant⟩ := h.outbox row hrow
    cases hp : p tx with
    | true =>
      exact ⟨f tx, mem_updateWhere.mpr (.inl ⟨tx, htx, hp, rfl⟩), (hf tx).1.trans hid,
        (hf tx).2.trans htenant⟩
    | false => exact ⟨tx, mem_updateWhere_of_not htx (by simp [hp]), hid, htenant⟩
  cases := h.cases
  shaped := h.shaped

variable {f : OutboxRow → OutboxRow} {tx : Transaction}

theorem Linked.updateOutbox (h : Linked db) (p : OutboxRow → Bool) (hf : ∀ row, SameRow row (f
    row)) : Linked (db.updateOutbox p f) where
  transactionIds := h.transactionIds
  outboxIds := by
    simp only [Database.updateOutbox]
    rw [map_updateWhere fun row => (hf row).1]
    exact h.outboxIds
  outboxTransactions := by
    simp only [Database.updateOutbox]
    rw [map_updateWhere fun row => (hf row).2.1]
    exact h.outboxTransactions
  caseTransactions := h.caseTransactions
  outbox row hrow := by
    rcases mem_updateWhere.mp hrow with ⟨old, hold, _, rfl⟩ | ⟨hold, _⟩
    · obtain ⟨_, htx, htenant⟩ := hf old
      rw [htx, htenant]
      exact h.outbox old hold
    · exact h.outbox row hold
  cases c hc := by
    obtain ⟨row, hrow, hid, htx, htenant⟩ := h.cases c hc
    obtain ⟨hid', htx', htenant'⟩ := hf row
    cases hp : p row with
    | true =>
      exact ⟨f row, mem_updateWhere.mpr (.inl ⟨row, hrow, hp, rfl⟩), hid'.trans hid,
        htx'.trans htx, htenant'.trans htenant⟩
    | false => exact ⟨row, mem_updateWhere_of_not hrow (by simp [hp]), hid, htx, htenant⟩
  shaped := h.shaped

theorem Linked.updateCases (h : Linked db) (p : ReconciliationCase → Bool)
    {f : ReconciliationCase → ReconciliationCase} (hf : ∀ c, SameCase c (f c))
    (hshaped : ∀ c ∈ db.cases, p c → (f c).Shaped) : Linked (db.updateCases p f) where
  transactionIds := h.transactionIds
  outboxIds := h.outboxIds
  outboxTransactions := h.outboxTransactions
  caseTransactions := by
    simp only [Database.updateCases]
    rw [map_updateWhere fun c => (hf c).1]
    exact h.caseTransactions
  outbox := h.outbox
  cases c hc := by
    rcases mem_updateWhere.mp hc with ⟨old, hold, _, rfl⟩ | ⟨hold, _⟩
    · obtain ⟨htx, hid, htenant⟩ := hf old
      rw [htx, hid, htenant]
      exact h.cases old hold
    · exact h.cases c hold
  shaped c hc := by
    rcases mem_updateWhere.mp hc with ⟨old, hold, hp, rfl⟩ | ⟨hold, _⟩
    · exact hshaped old hold hp
    · exact h.shaped c hold

/-- The trigger opens at most one case, for a transaction that has none. -/
theorem openCase_spec (db : Database) (tx : Transaction) :
    db.openCase tx = db ∨
      ∃ row ∈ db.outbox, row.transactionId = tx.id ∧ some row.tenantId = tx.tenantId ∧
        ∃ c, db.openCase tx = { db with cases := db.cases ++ [c] } ∧ Opened c ∧
          c.transactionId = tx.id ∧ c.outboxId = row.id ∧ c.tenantId = row.tenantId ∧
          ∀ other ∈ db.cases, other.transactionId ≠ tx.id := by
  unfold Database.openCase
  split
  next => exact .inl rfl
  next row hfind =>
    split
    next => exact .inl rfl
    next hnone =>
      right
      have hrow := find?_some hfind
      simp only [Bool.and_eq_true, beq_iff_eq] at hrow
      refine ⟨row, mem_of_find?_eq_some hfind, hrow.1, hrow.2, _, rfl, ⟨rfl, rfl, rfl⟩, rfl,
        rfl, rfl, ?_⟩
      intro other hother hclash
      exact hnone (any_eq_true.mpr ⟨other, hother, beq_iff_eq.mpr hclash⟩)

theorem Opened.shaped {c : ReconciliationCase} (h : Opened c) : c.Shaped where
  unclaimed _ := ⟨h.2.1, h.2.2⟩
  claimed hstatus := by
    rw [h.1] at hstatus
    cases hstatus
  resolved hopen _ := (hopen h.1).elim

theorem Linked.openCase (h : Linked db) (tx : Transaction) : Linked (db.openCase tx) := by
  rcases openCase_spec db tx with hsame | ⟨row, hrow, htx, _, c, hcase, hopened, hid, hout, htenant, hnew⟩
  · rwa [hsame]
  · rw [hcase]
    refine ⟨h.transactionIds, h.outboxIds, h.outboxTransactions, ?_, h.outbox, ?_, ?_⟩
    · simp only [map_append, map_cons, map_nil]
      apply nodup_append_fresh h.caseTransactions
      intro hmem
      obtain ⟨other, hother, hclash⟩ := mem_map.mp hmem
      exact hnew other hother (hclash.trans hid)
    · intro other hother
      rcases mem_concat.mp hother with hold | rfl
      · exact h.cases other hold
      · exact ⟨row, hrow, hout.symm, htx.trans hid.symm, htenant.symm⟩
    · intro other hother
      rcases mem_concat.mp hother with hold | rfl
      · exact h.shaped other hold
      · exact hopened.shaped

theorem Linked.insertTransaction (h : Linked db) (hid : tx.id = db.freshTransactionId) :
    Linked { db with transactions := db.transactions ++ [tx] } where
  transactionIds := nodup_ids_append h.transactionIds hid
  outboxIds := h.outboxIds
  outboxTransactions := h.outboxTransactions
  caseTransactions := h.caseTransactions
  outbox row hrow := by
    obtain ⟨old, hold, hkey⟩ := h.outbox row hrow
    exact ⟨old, mem_append_left _ hold, hkey⟩
  cases := h.cases
  shaped := h.shaped

theorem Linked.insertIntent (h : Linked db) {row : OutboxRow} (hid : tx.id = db.freshTransactionId)
    (hrow : row.id = db.freshOutboxId) (htx : row.transactionId = tx.id)
    (htenant : tx.tenantId = some row.tenantId) :
    Linked
      { db with
        transactions := db.transactions ++ [tx]
        outbox := db.outbox ++ [row] } where
  transactionIds := nodup_ids_append h.transactionIds hid
  outboxIds := by
    rw [map_append]
    apply nodup_append_fresh h.outboxIds
    rw [hrow]
    exact fresh_not_mem _
  outboxTransactions := by
    rw [map_append]
    apply nodup_append_fresh h.outboxTransactions
    rw [htx, hid]
    intro hmem
    obtain ⟨other, hother, hclash⟩ := mem_map.mp hmem
    obtain ⟨old, hold, hkey, _⟩ := h.outbox other hother
    exact fresh_not_mem (db.transactions.map Transaction.id)
      (mem_map.mpr ⟨old, hold, hkey.trans hclash⟩)
  caseTransactions := h.caseTransactions
  outbox other hother := by
    rcases mem_concat.mp hother with hold | rfl
    · obtain ⟨old, hold, hkey⟩ := h.outbox other hold
      exact ⟨old, mem_append_left _ hold, hkey⟩
    · exact ⟨tx, mem_concat_self, htx.symm, htenant⟩
  cases c hc := by
    obtain ⟨old, hold, hkey⟩ := h.cases c hc
    exact ⟨old, mem_append_left _ hold, hkey⟩
  shaped := h.shaped

theorem Linked.write (h : Linked db) (hwrite : Write db db') : Linked db' := by
  cases hwrite with
  | transactions p f hf => exact h.updateTransactions p hf
  | outbox p f hf => exact h.updateOutbox p hf
  | openCase tx => exact h.openCase tx
  | insertTransaction tx hid => exact h.insertTransaction hid
  | insertIntent tx row hid hrow htx htenant => exact h.insertIntent hid hrow htx htenant

theorem Linked.writes (h : Linked db) (hwrites : Writes db db') : Linked db' := by
  induction hwrites with
  | refl => exact h
  | tail _ hwrite ih => exact ih.write hwrite

theorem rows_of_write (hwrite : Write db db') :
    ∀ row ∈ db.outbox, ∃ row' ∈ db'.outbox, SameRow row row' := by
  intro row hrow
  cases hwrite with
  | transactions | insertTransaction => exact ⟨row, hrow, rfl, rfl, rfl⟩
  | outbox p f hf =>
    cases hp : p row with
    | true => exact ⟨f row, mem_updateWhere.mpr (.inl ⟨row, hrow, hp, rfl⟩), hf row⟩
    | false => exact ⟨row, mem_updateWhere_of_not hrow (by simp [hp]), rfl, rfl, rfl⟩
  | openCase tx =>
    refine ⟨row, ?_, rfl, rfl, rfl⟩
    rw [(transactions_openCase db tx).2]
    exact hrow
  | insertIntent tx other hid hother htx htenant =>
    exact ⟨row, mem_append_left _ hrow, rfl, rfl, rfl⟩

theorem rows_of_writes (hwrites : Writes db db') :
    ∀ row ∈ db.outbox, ∃ row' ∈ db'.outbox, SameRow row row' := by
  induction hwrites with
  | refl => exact fun row hrow => ⟨row, hrow, rfl, rfl, rfl⟩
  | tail _ hwrite ih =>
    intro row hrow
    obtain ⟨middle, hmiddle, hid, htx, htenant⟩ := ih row hrow
    obtain ⟨row', hrow', hid', htx', htenant'⟩ := rows_of_write hwrite middle hmiddle
    exact ⟨row', hrow', hid'.trans hid, htx'.trans htx, htenant'.trans htenant⟩

/-- Cases are only added, and only open ones. -/
theorem cases_of_writes (hwrites : Writes db db') :
    ∃ new, db'.cases = db.cases ++ new ∧ ∀ c ∈ new, Opened c := by
  induction hwrites with
  | refl => exact ⟨[], (append_nil _).symm, fun c hc => by cases hc⟩
  | @tail middle _ _ hwrite ih =>
    obtain ⟨new, hcases, hopened⟩ := ih
    cases hwrite with
    | transactions | outbox | insertTransaction | insertIntent => exact ⟨new, hcases, hopened⟩
    | openCase tx =>
      rcases openCase_spec middle tx with hsame | ⟨_, _, _, _, c, hcase, hopen, _⟩
      · rw [hsame]
        exact ⟨new, hcases, hopened⟩
      · refine ⟨new ++ [c], ?_, ?_⟩
        · rw [hcase]
          simp only [hcases, append_assoc]
        · intro other hother
          rcases mem_concat.mp hother with hold | rfl
          · exact hopened other hold
          · exact hopen

/-! ### The operations as writes -/

theorem sameTransaction_withStatus (status : TransactionStatus) (tx : Transaction) :
    SameTransaction tx (tx.withStatus status) := ⟨rfl, rfl⟩

theorem writes_withStatus (db : Database) (p : Transaction → Bool) (status : TransactionStatus) :
    Writes db (db.updateTransactions p fun tx => tx.withStatus status) :=
  .single (.transactions db p _ (sameTransaction_withStatus status))

theorem writes_updateOutbox (db : Database) (p : OutboxRow → Bool) (hf : ∀ row, SameRow row (f
    row)) : Writes db (db.updateOutbox p f) :=
  .single (.outbox db p f hf)

theorem writes_foldl_openCase (txs : List Transaction) (db : Database) :
    Writes db (txs.foldl Database.openCase db) := by
  induction txs generalizing db with
  | nil => exact .refl
  | cons tx rest ih => exact .head (.openCase db tx) (ih (db.openCase tx))

theorem writes_setUnderReview (db : Database) (p : Transaction → Bool) :
    Writes db (db.setUnderReview p) :=
  (writes_withStatus db p .underReview).trans (writes_foldl_openCase _ _)

theorem writes_setStatus (db : Database) (p : Transaction → Bool) (status : TransactionStatus) :
    Writes db (db.setStatus p status) := by
  unfold Database.setStatus
  split
  next => exact writes_setUnderReview db p
  next => exact writes_withStatus db p status

theorem writes_initiateTransfer (db : Database) (input : TransferInput) (now : Nat) :
    Writes db (db.initiateTransfer input now) := by
  unfold Database.initiateTransfer
  split
  next => exact .refl
  next tenantId _ =>
    split
    next => exact .refl
    next =>
      unfold Database.insertIntent
      dsimp only
      split
      next => exact .refl
      next => exact .single (.insertIntent db _ _ rfl rfl rfl rfl)

theorem writes_escalate {item : PaymentOutboxRow} {errorCode : String}
    (h : db.escalate item errorCode = some db') : Writes db db' := by
  unfold Database.escalate at h
  split at h
  · cases h
    have hdead : Writes db (db.deadLetter item errorCode) :=
      writes_updateOutbox db _ fun row => ⟨rfl, rfl, rfl⟩
    exact hdead.trans (writes_setUnderReview _ _)
  · cases h

theorem writes_escalateNext (s : System) (worker : Nat) (item : PaymentOutboxRow)
    (errorCode : String) (rest : List Lease) :
    Writes s.db (s.escalateNext worker item errorCode rest).db := by
  unfold System.escalateNext
  cases hescalate : s.db.escalate item errorCode with
  | none => exact .refl
  | some db => exact writes_escalate hescalate

theorem writes_insertTransaction {input : NewTransaction} {status : TransactionStatus}
    (h : db.insertTransaction input status = some db') : Writes db db' := by
  unfold Database.insertTransaction at h
  split at h
  · cases h
  · cases h
    exact .single (.insertTransaction db _ rfl)

theorem freshTransactionId_withStatus (db : Database) (p : Transaction → Bool)
    (status : TransactionStatus) :
    (db.updateTransactions p fun tx => tx.withStatus status).freshTransactionId =
      db.freshTransactionId := by
  unfold Database.freshTransactionId Database.updateTransactions
  rw [ids_updateWhere]

theorem writes_reverse {txRef : String} {tenantId : Option Int} {now : Nat}
    (h : db.reverse tx txRef tenantId now = some db') : Writes db db' := by
  unfold Database.reverse at h
  dsimp only at h
  split at h
  · cases h
  · cases h
    refine (writes_withStatus db (reverses txRef tenantId) .reversed).trans (.single ?_)
    apply Write.insertTransaction
    rw [freshTransactionId_withStatus]
    rfl

end Writes

/-! ### The desk -/

section Desk

variable {db : Database} {transactionId : Nat} {tenantId : Int} {actorId : Nat}
  {c : ReconciliationCase}

/-- A case that an officer may resolve. -/
structure Lockable (db : Database) (tenantId : Int) (actorId : Nat) (c : ReconciliationCase) :
    Prop where
  mem : c ∈ db.cases
  tenant : c.tenantId = tenantId
  status : c.status = .underReview
  claimed : ∃ claimer, c.claimedBy = some claimer ∧ claimer ≠ actorId
  transaction : ∃ tx ∈ db.transactions,
    tx.id = c.transactionId ∧ tx.tenantId = some c.tenantId ∧ tx.status = .underReview
  outbox : ∃ row ∈ db.outbox, row.id = c.outboxId ∧ row.transactionId = c.transactionId ∧
    row.tenantId = c.tenantId ∧ row.status = .deadLetter

theorem lockClaimedCase_iff (h : Linked db) :
    db.lockClaimedCase transactionId tenantId actorId = some c ↔
      c.transactionId = transactionId ∧ Lockable db tenantId actorId c := by
  constructor
  · intro hlock
    unfold Database.lockClaimedCase at hlock
    split at hlock
    next => cases hlock
    next found hfound =>
      split at hlock
      next hguard =>
        cases hlock
        have hkey := find?_some hfound
        simp only [Bool.and_eq_true, beq_iff_eq] at hkey
        simp only [Bool.and_eq_true, any_eq_true, beq_iff_eq, bne_iff_ne] at hguard
        obtain ⟨⟨⟨⟨hstatus, hsome⟩, hother⟩, tx, htx, ⟨hid, htenant⟩, htxStatus⟩, row, hrow,
          ⟨⟨hrowId, hrowTx⟩, hrowTenant⟩, hrowStatus⟩ := hguard
        obtain ⟨claimer, hclaimer⟩ := Option.isSome_iff_exists.mp hsome
        refine ⟨hkey.1, mem_of_find?_eq_some hfound, hkey.2, hstatus, ⟨claimer, hclaimer, ?_⟩,
          ⟨tx, htx, hid, htenant, htxStatus⟩, ⟨row, hrow, hrowId, hrowTx, hrowTenant, hrowStatus⟩⟩
        rintro rfl
        exact hother hclaimer
      next => cases hlock
  · rintro ⟨hid, hlockable⟩
    obtain ⟨claimer, hclaimer, hother⟩ := hlockable.claimed
    obtain ⟨tx, htx, htxId, htxTenant, htxStatus⟩ := hlockable.transaction
    obtain ⟨row, hrow, hrowId, hrowTx, hrowTenant, hrowStatus⟩ := hlockable.outbox
    have hfind := find?_of_key h.caseTransactions hlockable.mem fun c => c.tenantId == tenantId
    rw [if_pos (by simp [hlockable.tenant]), hid] at hfind
    have htransaction : (db.transactions.any fun tx => tx.id == c.transactionId &&
        tx.tenantId == some c.tenantId && tx.status == .underReview) = true :=
      any_eq_true.mpr ⟨tx, htx, by simp [htxId, htxTenant, htxStatus]⟩
    have houtbox : (db.outbox.any fun row => row.id == c.outboxId &&
        row.transactionId == c.transactionId && row.tenantId == c.tenantId &&
          row.status == .deadLetter) = true :=
      any_eq_true.mpr ⟨row, hrow, by simp [hrowId, hrowTx, hrowTenant, hrowStatus]⟩
    unfold Database.lockClaimedCase
    rw [hfind]
    simp only
    rw [if_pos]
    simp [hlockable.status, hclaimer, hother, htransaction, houtbox]

theorem linked_claimCase (h : Linked db) (transactionId : Nat) (tenantId : Int) (actorId : Nat) :
    Linked (db.claimCase transactionId tenantId actorId) := by
  apply h.updateCases
  · exact fun c => ⟨rfl, rfl, rfl⟩
  · intro c hc hp
    have hopen : c.status = .open := by
      simp only [Bool.and_eq_true, beq_iff_eq] at hp
      exact hp.1.2
    constructor
    · intro hstatus
      cases hstatus
    · intro _
      exact ⟨Option.some_ne_none _, ((h.shaped c hc).unclaimed hopen).2⟩
    · intro _ hreview
      exact (hreview rfl).elim

theorem caseStatus_closed (resolution : Resolution) :
    resolution.caseStatus ≠ .open ∧ resolution.caseStatus ≠ .underReview := by
  cases resolution with
  | confirmedSettled | confirmedNotSettled | approvedRetry | compensationRequired =>
    exact ⟨CaseStatus.noConfusion, CaseStatus.noConfusion⟩

theorem linked_closeCase (h : Linked db) (c : ReconciliationCase) (tenantId : Int) (actorId : Nat)
    (resolution : Resolution) : Linked (db.closeCase c tenantId actorId resolution) := by
  obtain ⟨hopen, hreview⟩ := caseStatus_closed resolution
  apply h.updateCases
  · exact fun other => ⟨rfl, rfl, rfl⟩
  · intro other _ hp
    simp only [Bool.and_eq_true, beq_iff_eq, Option.any_eq_true, bne_iff_ne] at hp
    obtain ⟨_, claimer, hclaimer, hother⟩ := hp
    exact ⟨fun hstatus => (hopen hstatus).elim, fun hstatus => (hreview hstatus).elim,
      fun _ _ => ⟨claimer, actorId, hclaimer, rfl, hother.symm⟩⟩

/-- After the case is closed a resolution only writes. -/
theorem writes_of_resolution (db : Database) (c : ReconciliationCase) (tenantId : Int)
    (resolution : Resolution) (now : Nat) :
    Writes db
      (match resolution with
      | .confirmedSettled => db.moveReviewed c tenantId .completed
      | .confirmedNotSettled => db.moveReviewed c tenantId .failed
      | .approvedRetry => (db.queueApproved c tenantId now).moveReviewed c tenantId .pending
      | .compensationRequired => db) := by
  cases resolution with
  | confirmedSettled => exact writes_withStatus db (c.reviewed tenantId) .completed
  | confirmedNotSettled => exact writes_withStatus db (c.reviewed tenantId) .failed
  | approvedRetry =>
    have hqueued : Writes db (db.queueApproved c tenantId now) :=
      writes_updateOutbox db _ fun row => ⟨rfl, rfl, rfl⟩
    exact hqueued.trans (writes_withStatus _ (c.reviewed tenantId) .pending)
  | compensationRequired => exact .refl

theorem linked_resolveCase (h : Linked db) (transactionId : Nat) (tenantId : Int) (actorId : Nat)
    (resolution : Resolution) (now : Nat) :
    Linked (db.resolveCase transactionId tenantId actorId resolution now) := by
  unfold Database.resolveCase
  split
  next => exact h
  next c _ =>
    have hclosed := linked_closeCase h c tenantId actorId resolution
    have hwrites := writes_of_resolution (db.closeCase c tenantId actorId resolution) c tenantId
      resolution now
    cases resolution with
    | confirmedSettled | confirmedNotSettled | approvedRetry | compensationRequired =>
      exact hclosed.writes hwrites

end Desk

/-! ### The register -/

/-- The two requests of the reconciliation desk. -/
def RegisterAction.ofDesk : RegisterAction → Bool
  | .payment (.claimCase _ _ _) | .payment (.resolveCase _ _ _ _) => true
  | _ => false

section Register

theorem writes_of_paymentStep {s t : System} {action : Action}
    (hdesk : (RegisterAction.payment action).ofDesk = false) (h : paymentStep s action = some t) :
    Writes s.db t.db := by
  cases systemTakes_of_step h with
  | initiateTransfer input => exact writes_initiateTransfer s.db input s.clock
  | expireLeases | claim | stored | requeued =>
    exact writes_updateOutbox s.db _ fun row => ⟨rfl, rfl, rfl⟩
  | dispatched | notStored | finishCycle | crash | tick => exact .refl
  | rejected | exhausted => exact writes_escalateNext s _ _ _ _
  | freezeAccount accountId => exact writes_withStatus s.db (freezes accountId) .blocked
  | claimCase | resolveCase => cases hdesk

variable {s t : Register} {action : RegisterAction}

theorem writes_insert (s : Register) (input : NewTransaction) (status : TransactionStatus)
    (settled : Bool) : Writes s.db (s.insert input status settled).db := by
  unfold Register.insert
  cases hinsert : s.db.insertTransaction input status with
  | none => exact .refl
  | some db => exact writes_insertTransaction hinsert

theorem writes_of_registerStep (hdesk : action.ofDesk = false)
    (h : registerStep s action = some t) : Writes s.db t.db := by
  cases registerTakes_of_step h with
  | payment hstep => exact writes_of_paymentStep hdesk hstep
  | created input score => exact writes_insert s input _ false
  | notCreated | notRecorded | readUpdate | emptyUpdate | notCleared | readReversal
  | notReversed => exact .refl
  | recorded input score => exact writes_insert s input _ true
  | storeStablecoin input confirmed => exact writes_insert s input _ confirmed
  | updated hstatus updates => exact writes_setStatus s.db _ _
  | flagForReview id tenantId => exact writes_setStatus s.db (owned id tenantId) .underReview
  | flag id tenantId => exact writes_setStatus s.db (owned id (some tenantId)) .flagged
  | cleared hany clears => exact writes_setStatus s.db _ .completed
  | reversed hreverse reversals => exact writes_reverse hreverse

theorem linked_registerStep (hlinked : Linked s.db) (h : registerStep s action = some t) :
    Linked t.db := by
  by_cases hdesk : action.ofDesk = false
  · exact hlinked.writes (writes_of_registerStep hdesk h)
  · cases action with
    | payment action =>
      obtain ⟨payments, hpayments, rfl⟩ := Option.map_eq_some_iff.mp h
      cases action with
      | claimCase transactionId tenantId actorId =>
        cases hpayments
        exact linked_claimCase hlinked transactionId tenantId actorId
      | resolveCase transactionId tenantId actorId resolution =>
        cases hpayments
        exact linked_resolveCase hlinked transactionId tenantId actorId resolution _
      | _ => exact (hdesk rfl).elim
    | _ => exact (hdesk rfl).elim

theorem linked_initial : Linked Register.initial.db where
  transactionIds := nodup_nil
  outboxIds := nodup_nil
  outboxTransactions := nodup_nil
  caseTransactions := nodup_nil
  outbox row hrow := by
    cases hrow
  cases c hc := by
    cases hc
  shaped c hc := by
    cases hc

end Register

end Bis.Payments
