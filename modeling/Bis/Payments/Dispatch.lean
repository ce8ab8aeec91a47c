import Bis.Payments.State

/-!
Which transactions reach the workflow starter. An active outbox row belongs to
a pending transaction, and every operation but one keeps the two tables in
step: `freezeAccount` blocks transactions and does not look at the outbox.
-/

namespace Bis.Payments

open Bis.Relation Bis.Transition Function List

/-- The row will be, or is being, dispatched. -/
def OutboxRow.active (row : OutboxRow) : Prop := row.status = .queued ∨ row.status = .leased

/-- Keys are unique and every active outbox row has a pending transaction. -/
structure Sound (db : Database) : Prop where
  transactionIds : (db.transactions.map Transaction.id).Nodup
  outboxIds : (db.outbox.map OutboxRow.id).Nodup
  outboxTransactions : (db.outbox.map OutboxRow.transactionId).Nodup
  foreignKey : ∀ row ∈ db.outbox, row.transactionId ∈ db.transactions.map Transaction.id
  active : ∀ row ∈ db.outbox, row.active →
    ∃ tx ∈ db.transactions, tx.id = row.transactionId ∧ tx.status = .pending

/-- A claimed item still names its outbox row and transaction. -/
def Matches (db : Database) (item : PaymentOutboxRow) : Prop :=
  ∃ row ∈ db.outbox, row.id = item.id ∧ row.transactionId = item.transactionId

def NotBlocked (db : Database) (item : PaymentOutboxRow) : Prop :=
  ∀ tx ∈ db.transactions, tx.id = item.transactionId → tx.status ≠ .blocked

/-- Outbox rows stay, and no transaction becomes blocked. -/
structure Follows (db db' : Database) : Prop where
  rows : ∀ row ∈ db.outbox, ∃ row' ∈ db'.outbox,
    row'.id = row.id ∧ row'.transactionId = row.transactionId
  blocked : ∀ tx' ∈ db'.transactions, tx'.status = .blocked →
    ∃ tx ∈ db.transactions, tx.id = tx'.id ∧ tx.status = .blocked

section Tables

variable {db db' : Database}

theorem Follows.refl (db : Database) : Follows db db where
  rows row hrow := ⟨row, hrow, rfl, rfl⟩
  blocked tx htx hblocked := ⟨tx, htx, rfl, hblocked⟩

theorem Follows.trans {db'' : Database} (h : Follows db db') (h' : Follows db' db'') :
    Follows db db'' where
  rows row hrow := by
    obtain ⟨row', hrow', hid, htx⟩ := h.rows row hrow
    obtain ⟨row'', hrow'', hid', htx'⟩ := h'.rows row' hrow'
    exact ⟨row'', hrow'', hid'.trans hid, htx'.trans htx⟩
  blocked tx htx hblocked := by
    obtain ⟨tx', htx', hid, hblocked'⟩ := h'.blocked tx htx hblocked
    obtain ⟨tx'', htx'', hid', hblocked''⟩ := h.blocked tx' htx' hblocked'
    exact ⟨tx'', htx'', hid'.trans hid, hblocked''⟩

variable {item : PaymentOutboxRow} {row : OutboxRow}

theorem Matches.follows (h : Matches db item) (hf : Follows db db') : Matches db' item := by
  obtain ⟨row, hrow, hid, htx⟩ := h
  obtain ⟨row', hrow', hid', htx'⟩ := hf.rows row hrow
  exact ⟨row', hrow', hid'.trans hid, htx'.trans htx⟩

theorem NotBlocked.follows (h : NotBlocked db item) (hf : Follows db db') :
    NotBlocked db' item := by
  intro tx' htx' hid hblocked
  obtain ⟨tx, htx, hsame, hblocked'⟩ := hf.blocked tx' htx' hblocked
  exact h tx htx (hsame.trans hid) hblocked'

/-! ### Updates of the outbox and of the transactions -/

variable {p : OutboxRow → Bool} {f : OutboxRow → OutboxRow} {now limit : Nat}

theorem follows_updateOutbox (hid : ∀ row, (f row).id = row.id)
    (htx : ∀ row, (f row).transactionId = row.transactionId) :
    Follows db (db.updateOutbox p f) where
  rows row hrow := by
    cases hp : p row with
    | true => exact ⟨f row, mem_updateWhere.mpr (.inl ⟨row, hrow, hp, rfl⟩), hid row, htx row⟩
    | false => exact ⟨row, mem_updateWhere_of_not hrow (by simp [hp]), rfl, rfl⟩
  blocked tx htx hblocked := ⟨tx, htx, rfl, hblocked⟩

theorem Sound.updateOutbox (h : Sound db) (hid : ∀ row, (f row).id = row.id)
    (htx : ∀ row, (f row).transactionId = row.transactionId)
    (hactive : ∀ row ∈ db.outbox, p row → (f row).active → ∃ tx ∈ db.transactions, tx.id =
      row.transactionId ∧ tx.status = .pending) :
    Sound (db.updateOutbox p f) where
  transactionIds := h.transactionIds
  outboxIds := by
    simp only [Database.updateOutbox]
    rw [map_updateWhere hid]
    exact h.outboxIds
  outboxTransactions := by
    simp only [Database.updateOutbox]
    rw [map_updateWhere htx]
    exact h.outboxTransactions
  foreignKey row hrow := by
    rcases mem_updateWhere.mp hrow with ⟨old, hold, _, rfl⟩ | ⟨hold, _⟩
    · rw [htx]
      exact h.foreignKey old hold
    · exact h.foreignKey row hold
  active row hrow hact := by
    rcases mem_updateWhere.mp hrow with ⟨old, hold, hp, rfl⟩ | ⟨hold, _⟩
    · rw [htx]
      exact hactive old hold hp hact
    · exact h.active row hold hact

theorem follows_updateTransactions {p : Transaction → Bool} {f : Transaction → Transaction}
    (hblocked : ∀ tx, (f tx).status ≠ .blocked) : Follows db (db.updateTransactions p f) where
  rows row hrow := ⟨row, hrow, rfl, rfl⟩
  blocked tx htx hstatus := by
    rcases mem_updateWhere.mp htx with ⟨old, _, _, rfl⟩ | ⟨hold, _⟩
    · exact absurd hstatus (hblocked old)
    · exact ⟨tx, hold, rfl, hstatus⟩

/-- Transactions may leave `pending` only where no active outbox row needs it. -/
theorem Sound.updateTransactions (h : Sound db) {p : Transaction → Bool}
    {f : Transaction → Transaction} (hid : ∀ tx, (f tx).id = tx.id)
    (hpending : ∀ tx ∈ db.transactions, p tx → tx.status = .pending →
      (f tx).status = .pending ∨ ∀ row ∈ db.outbox, row.transactionId = tx.id → ¬ row.active) :
    Sound (db.updateTransactions p f) where
  transactionIds := by
    simp only [Database.updateTransactions]
    rw [map_updateWhere hid]
    exact h.transactionIds
  outboxIds := h.outboxIds
  outboxTransactions := h.outboxTransactions
  foreignKey row hrow := by
    simp only [Database.updateTransactions]
    rw [map_updateWhere hid]
    exact h.foreignKey row hrow
  active row hrow hact := by
    obtain ⟨tx, htx, hkey, hstatus⟩ := h.active row hrow hact
    cases hp : p tx with
    | false => exact ⟨tx, mem_updateWhere_of_not htx (by simp [hp]), hkey, hstatus⟩
    | true =>
      rcases hpending tx htx hp hstatus with hkept | hnone
      · exact ⟨f tx, mem_updateWhere.mpr (.inl ⟨tx, htx, hp, rfl⟩), (hid tx).trans hkey, hkept⟩
      · exact absurd hact (hnone row hrow hkey.symm)

/-! ### The reconciliation trigger touches the cases only -/

theorem transactions_openCase (db : Database) (tx : Transaction) :
    (db.openCase tx).transactions = db.transactions ∧ (db.openCase tx).outbox = db.outbox := by
  unfold Database.openCase
  split
  · exact ⟨rfl, rfl⟩
  · split
    · exact ⟨rfl, rfl⟩
    · exact ⟨rfl, rfl⟩

theorem foldl_openCase (txs : List Transaction) (db : Database) :
    (txs.foldl Database.openCase db).transactions = db.transactions ∧
      (txs.foldl Database.openCase db).outbox = db.outbox := by
  induction txs generalizing db with
  | nil => exact ⟨rfl, rfl⟩
  | cons tx rest ih =>
    obtain ⟨htransactions, houtbox⟩ := ih (db.openCase tx)
    obtain ⟨htransactions', houtbox'⟩ := transactions_openCase db tx
    exact ⟨htransactions.trans htransactions', houtbox.trans houtbox'⟩

/-- Soundness only reads the two tables. -/
theorem Sound.congr (h : Sound db) (htransactions : db'.transactions = db.transactions)
    (houtbox : db'.outbox = db.outbox) : Sound db' where
  transactionIds := htransactions ▸ h.transactionIds
  outboxIds := houtbox ▸ h.outboxIds
  outboxTransactions := houtbox ▸ h.outboxTransactions
  foreignKey := by
    rw [htransactions, houtbox]
    exact h.foreignKey
  active := by
    rw [htransactions, houtbox]
    exact h.active

theorem Follows.congr (h : Follows db db') {db'' : Database}
    (htransactions : db''.transactions = db'.transactions)
    (houtbox : db''.outbox = db'.outbox) : Follows db db'' where
  rows := by
    rw [houtbox]
    exact h.rows
  blocked := by
    rw [htransactions]
    exact h.blocked

/-! ### The operations -/

/-- A new payment claim comes with its pending transaction, both under fresh
keys. -/
theorem insertIntent_spec {input : TransferInput} {tenantId : Int} (h : Sound db)
    (hinsert : db.insertIntent input tenantId now = some db') : Sound db' ∧ Follows db db' := by
  unfold Database.insertIntent at hinsert
  simp only at hinsert
  split at hinsert
  · cases hinsert
  · cases hinsert
    have hfresh := fresh_not_mem (db.transactions.map Transaction.id)
    constructor
    · constructor
      · simp only [map_append, map_cons, map_nil]
        exact nodup_append_fresh h.transactionIds hfresh
      · simp only [map_append, map_cons, map_nil]
        exact nodup_append_fresh h.outboxIds (fresh_not_mem _)
      · simp only [map_append, map_cons, map_nil]
        refine nodup_append_fresh h.outboxTransactions ?_
        intro hmem
        obtain ⟨row, hrow, hid⟩ := mem_map.mp hmem
        have hkey := h.foreignKey row hrow
        rw [hid] at hkey
        exact hfresh hkey
      · intro row hrow
        simp only [map_append, map_cons, map_nil]
        rcases mem_concat.mp hrow with hrow | rfl
        · exact mem_append_left _ (h.foreignKey row hrow)
        · exact mem_concat_self
      · intro row hrow hact
        rcases mem_concat.mp hrow with hrow | rfl
        · obtain ⟨tx, htx, hid, hstatus⟩ := h.active row hrow hact
          exact ⟨tx, mem_append_left _ htx, hid, hstatus⟩
        · exact ⟨_, mem_concat_self, rfl, rfl⟩
    · constructor
      · intro row hrow
        exact ⟨row, mem_append_left _ hrow, rfl, rfl⟩
      · intro tx htx hblocked
        rcases mem_concat.mp htx with htx | rfl
        · exact ⟨tx, htx, rfl, hblocked⟩
        · cases hblocked

theorem initiateTransfer_spec (h : Sound db) (input : TransferInput) (now : Nat) :
    Sound (db.initiateTransfer input now) ∧ Follows db (db.initiateTransfer input now) := by
  unfold Database.initiateTransfer
  split
  · exact ⟨h, .refl db⟩
  next tenantId _ =>
    split
    · exact ⟨h, .refl db⟩
    · cases hinsert : db.insertIntent input tenantId now with
      | none => exact ⟨h, .refl db⟩
      | some db' => exact insertIntent_spec h hinsert

theorem expireLeases_spec (h : Sound db) (now : Nat) :
    Sound (db.expireLeases now) ∧ Follows db (db.expireLeases now) := by
  refine ⟨h.updateOutbox (fun _ => rfl) (fun _ => rfl) ?_,
    follows_updateOutbox (fun _ => rfl) fun _ => rfl⟩
  intro row hrow hp _
  have hleased : row.status = .leased := by
    simp only [Bool.and_eq_true, beq_iff_eq] at hp
    exact hp.1
  exact h.active row hrow (.inr hleased)

theorem active_of_holdsLease (h : Sound db) (hrow : row ∈ db.outbox) (hp : holdsLease item row) :
    ∃ tx ∈ db.transactions, tx.id = row.transactionId ∧ tx.status = .pending := by
  have hleased : row.status = .leased := by
    simp only [holdsLease, Bool.and_eq_true, beq_iff_eq] at hp
    exact hp.2
  exact h.active row hrow (.inr hleased)

theorem recordStarted_spec (h : Sound db) (item : PaymentOutboxRow) :
    Sound (db.recordStarted item) ∧ Follows db (db.recordStarted item) :=
  ⟨h.updateOutbox (fun _ => rfl) (fun _ => rfl) fun _ hrow hp _ => active_of_holdsLease h hrow hp,
    follows_updateOutbox (fun _ => rfl) fun _ => rfl⟩

theorem requeue_spec (h : Sound db) (item : PaymentOutboxRow) (retryAt : Nat) :
    Sound (db.requeue item retryAt) ∧ Follows db (db.requeue item retryAt) :=
  ⟨h.updateOutbox (fun _ => rfl) (fun _ => rfl) fun _ hrow hp _ => active_of_holdsLease h hrow hp,
    follows_updateOutbox (fun _ => rfl) fun _ => rfl⟩

theorem queued_of_candidate {locked : List Nat} (h : row ∈ db.candidates now limit locked) :
    row ∈ db.outbox ∧ row.status = .queued := by
  have hmem := (mem_insertionSort _).mp (mem_of_mem_take h)
  obtain ⟨hrow, hp⟩ := mem_filter.mp hmem
  simp only [Bool.and_eq_true, beq_iff_eq] at hp
  exact ⟨hrow, hp.1.1⟩

theorem claim_spec (h : Sound db) (now limit : Nat) (locked : List Nat) :
    Sound (db.claim now limit locked).1 ∧ Follows db (db.claim now limit locked).1 := by
  refine ⟨h.updateOutbox (fun _ => rfl) (fun _ => rfl) ?_,
    follows_updateOutbox (fun _ => rfl) fun _ => rfl⟩
  intro row hrow hp _
  obtain ⟨claimed, hclaimed, hid⟩ := any_eq_true.mp hp
  obtain ⟨hmem, hstatus⟩ := queued_of_candidate hclaimed
  obtain rfl : claimed = row := inj_on_of_nodup_map h.outboxIds hmem hrow (eq_of_beq hid)
  exact h.active claimed hmem (.inl hstatus)

/-- A claimed item's transaction is pending at the moment of the claim. -/
theorem pending_of_claim (h : Sound db) {locked : List Nat}
    (hitem : item ∈ (db.claim now limit locked).2) :
    item.transaction.map Transaction.status = some .pending ∧ Matches db item ∧
      NotBlocked db item := by
  obtain ⟨row, hrow, rfl⟩ := mem_map.mp hitem
  obtain ⟨hmem, hstatus⟩ := queued_of_candidate hrow
  obtain ⟨tx, htx, hid, hpending⟩ := h.active row hmem (.inl hstatus)
  have honly : ∀ other ∈ db.transactions, other.id = row.transactionId → other = tx :=
    fun other hother hkey =>
      inj_on_of_nodup_map h.transactionIds hother htx (hkey.trans hid.symm)
  refine ⟨?_, ⟨row, hmem, rfl, rfl⟩, ?_⟩
  · have hfind : db.transaction? row.transactionId = some tx := by
      cases hfound : db.transaction? row.transactionId with
      | none =>
        have hnot := find?_eq_none.mp hfound tx htx
        simp [hid] at hnot
      | some other =>
        have hother := mem_of_find?_eq_some hfound
        have hkey := find?_some hfound
        rw [honly other hother (eq_of_beq hkey)]
    simp only [Database.claimedRow, hfind, Option.map_some, hpending]
  · intro other hother hkey
    rw [honly other hother hkey, hpending]
    exact fun hblocked => TransactionStatus.noConfusion hblocked

theorem setUnderReview_tables (db : Database) (p : Transaction → Bool) :
    (db.setUnderReview p).transactions =
        (db.updateTransactions p fun tx => tx.withStatus .underReview).transactions ∧
      (db.setUnderReview p).outbox = db.outbox :=
  foldl_openCase _ _

theorem leased_of_holdsLease (h : holdsLease item row) :
    row.id = item.id ∧ row.status = .leased := by
  simpa [holdsLease] using h

/-- Escalation takes the transaction and its outbox row out together. -/
theorem escalate_spec (h : Sound db) (hitem : Matches db item) {errorCode : String}
    (hescalate : db.escalate item errorCode = some db') : Sound db' ∧ Follows db db' := by
  unfold Database.escalate at hescalate
  split at hescalate
  next hguard =>
    cases hescalate
    obtain ⟨htransactions, houtbox⟩ :=
      setUnderReview_tables (db.deadLetter item errorCode) item.pendingTransaction
    obtain ⟨held, hheld, hlease⟩ := any_eq_true.mp (Bool.and_eq_true_iff.mp hguard).1
    obtain ⟨named, hnamed, hnamedId, hnamedTx⟩ := hitem
    have hsame : held = named :=
      inj_on_of_nodup_map h.outboxIds hheld hnamed
        ((leased_of_holdsLease hlease).1.trans hnamedId.symm)
    have hdead : Sound (db.deadLetter item errorCode) := by
      refine h.updateOutbox (fun _ => rfl) (fun _ => rfl) ?_
      rintro row _ _ (hqueued | hleased)
      · cases hqueued
      · cases hleased
    have hfollows : Follows db (db.deadLetter item errorCode) :=
      follows_updateOutbox (fun _ => rfl) fun _ => rfl
    constructor
    · have hids : ∀ tx : Transaction, (tx.withStatus .underReview).id = tx.id := fun _ => rfl
      refine (hdead.updateTransactions hids ?_).congr htransactions houtbox
      intro tx htx hp _
      have htxId : tx.id = item.transactionId := by
        simp only [PaymentOutboxRow.pendingTransaction, Bool.and_eq_true, beq_iff_eq] at hp
        exact hp.1.1
      refine .inr ?_
      intro row hrow hrowTx
      rcases mem_updateWhere.mp hrow with ⟨old, _, _, rfl⟩ | ⟨hold, hnot⟩
      · rintro (hqueued | hleased)
        · cases hqueued
        · cases hleased
      · have hrowNamed : row = named := inj_on_of_nodup_map h.outboxTransactions hold hnamed
          (hrowTx.trans (htxId.trans hnamedTx.symm))
        rw [hrowNamed, ← hsame] at hnot
        exact absurd hlease hnot
    · refine (hfollows.trans (follows_updateTransactions ?_)).congr htransactions houtbox
      exact fun tx hblocked => TransactionStatus.noConfusion hblocked
  next => cases hescalate

theorem claimCase_spec (h : Sound db) (transactionId : Nat) (tenantId : Int) (actorId : Nat) :
    Sound (db.claimCase transactionId tenantId actorId) ∧
      Follows db (db.claimCase transactionId tenantId actorId) :=
  ⟨h.congr rfl rfl, (Follows.refl db).congr rfl rfl⟩

theorem lockClaimedCase_spec {transactionId : Nat} {tenantId : Int} {actorId : Nat}
    {c : ReconciliationCase} (h : db.lockClaimedCase transactionId tenantId actorId = some c) :
    c.transactionId = transactionId ∧ c.tenantId = tenantId ∧
      ∃ tx ∈ db.transactions, tx.id = c.transactionId ∧ tx.tenantId = some tenantId ∧
        tx.status = .underReview := by
  unfold Database.lockClaimedCase at h
  split at h
  · cases h
  next found hfound =>
    split at h
    next hguard =>
      cases h
      have hkey := find?_some hfound
      simp only [Bool.and_eq_true, beq_iff_eq] at hkey
      simp only [Bool.and_eq_true, any_eq_true, beq_iff_eq] at hguard
      obtain ⟨⟨_, tx, htx, ⟨hid, htenant⟩, hstatus⟩, _⟩ := hguard
      exact ⟨hkey.1, hkey.2, tx, htx, hid, hkey.2 ▸ htenant, hstatus⟩
    next => cases h

/-- Moving a reviewed transaction concerns no active outbox row. -/
theorem moveReviewed_spec (h : Sound db) (c : ReconciliationCase) (tenantId : Int)
    {status : TransactionStatus} (hstatus : status ≠ .blocked) :
    Sound (db.moveReviewed c tenantId status) ∧ Follows db (db.moveReviewed c tenantId status) := by
  have hids : ∀ tx : Transaction, (tx.withStatus status).id = tx.id := fun _ => rfl
  constructor
  · refine h.updateTransactions hids ?_
    intro tx _ hp hpending
    simp only [ReconciliationCase.reviewed, Bool.and_eq_true, beq_iff_eq] at hp
    rw [hp.2] at hpending
    cases hpending
  · exact follows_updateTransactions fun _ => hstatus

/-- A resolution moves transactions that are under review, and queues an outbox
row only together with its transaction. -/
theorem resolveCase_spec (h : Sound db) (transactionId : Nat) (tenantId : Int) (actorId : Nat)
    (resolution : Resolution) (now : Nat) :
    Sound (db.resolveCase transactionId tenantId actorId resolution now) ∧
      Follows db (db.resolveCase transactionId tenantId actorId resolution now) := by
  unfold Database.resolveCase
  split
  · exact ⟨h, .refl db⟩
  next c hlock =>
    have hclosed : Sound (db.closeCase c tenantId actorId resolution) := h.congr rfl rfl
    have hfollows : Follows db (db.closeCase c tenantId actorId resolution) :=
      (Follows.refl db).congr rfl rfl
    cases resolution with
    | compensationRequired => exact ⟨hclosed, hfollows⟩
    | confirmedSettled =>
      obtain ⟨hsound, hmoved⟩ := moveReviewed_spec hclosed c tenantId
        (show TransactionStatus.completed ≠ .blocked by decide)
      exact ⟨hsound, hfollows.trans hmoved⟩
    | confirmedNotSettled =>
      obtain ⟨hsound, hmoved⟩ := moveReviewed_spec hclosed c tenantId
        (show TransactionStatus.failed ≠ .blocked by decide)
      exact ⟨hsound, hfollows.trans hmoved⟩
    | approvedRetry =>
      obtain ⟨_, htenant, tx, htx, hid, htxTenant, hstatus⟩ := lockClaimedCase_spec hlock
      obtain ⟨hsound, hmoved⟩ := moveReviewed_spec hclosed c tenantId
        (show TransactionStatus.pending ≠ .blocked by decide)
      -- the two updates touch different tables, so their order does not matter
      have hcommute : ((db.closeCase c tenantId actorId .approvedRetry).queueApproved c tenantId
          now).moveReviewed c tenantId .pending =
          ((db.closeCase c tenantId actorId .approvedRetry).moveReviewed c tenantId
            .pending).queueApproved c tenantId now := rfl
      simp only
      rw [hcommute]
      constructor
      · refine hsound.updateOutbox (fun _ => rfl) (fun _ => rfl) ?_
        intro row _ hp _
        simp only [Bool.and_eq_true, beq_iff_eq] at hp
        refine ⟨tx.withStatus .pending, ?_, hid.trans hp.1.2.symm, rfl⟩
        refine mem_updateWhere.mpr (.inl ⟨tx, htx, ?_, rfl⟩)
        simp [ReconciliationCase.reviewed, hid, htxTenant, hstatus]
      · exact (hfollows.trans hmoved).trans (follows_updateOutbox (fun _ => rfl) fun _ => rfl)

/-- A freeze that meets no active outbox row keeps the tables in step. -/
theorem freezeAccount_spec (h : Sound db) {accountId : String}
    (hspares : ∀ tx ∈ db.transactions, freezes accountId tx →
      ∀ row ∈ db.outbox, row.transactionId = tx.id → ¬ row.active) :
    Sound (db.freezeAccount accountId) := by
  have hids : ∀ tx : Transaction, (tx.withStatus .blocked).id = tx.id := fun _ => rfl
  refine h.updateTransactions hids ?_
  intro tx htx hp _
  exact .inr (hspares tx htx hp)

end Tables

/-! ### Runs -/

/-- Every workflow start was for a transaction that was pending when its outbox
row was claimed and has not been blocked since. -/
def OnlyPending (s : System) : Prop :=
  ∀ dispatch ∈ s.dispatches,
    dispatch.statusAtClaim = some .pending ∧ dispatch.statusAtDispatch ≠ some .blocked

/-- A freeze meets no transfer that the dispatchers are still going to start:
none of its outbox rows is queued or leased, and none is in a dispatcher's hands. -/
def FreezeSpares (s : System) : Action → Prop
  | .freezeAccount accountId =>
    ∀ tx ∈ s.db.transactions, freezes accountId tx →
      (∀ row ∈ s.db.outbox, row.transactionId = tx.id → ¬ row.active) ∧
        ∀ worker, ∀ lease ∈ (s.dispatchers worker).toHandle,
          lease.item.transactionId ≠ tx.id
  | _ => True

/-- The tables are in step, and so is every dispatcher with them. -/
structure InStep (s : System) : Prop where
  sound : Sound s.db
  held : ∀ worker, ∀ lease ∈ (s.dispatchers worker).held, Matches s.db lease.item
  ready : ∀ worker, ∀ lease ∈ (s.dispatchers worker).toHandle,
    lease.statusAtClaim = some .pending ∧ NotBlocked s.db lease.item
  dispatched : OnlyPending s

section Steps

variable {s t : System} {action : Action}

/-- A claim in this state hands out the lease. -/
def Claimed (s : System) (lease : Lease) : Prop :=
  ∃ limit locked, ∃ item ∈ (s.db.claim s.clock limit locked).2,
    lease = ⟨item, item.transaction.map Transaction.status⟩

/-- The new phase has leases of the old one, or of a claim. -/
def Within (s : System) (phase phase' : Dispatcher) : Prop :=
  (∀ lease ∈ phase'.held, lease ∈ phase.held ∨ Claimed s lease) ∧
    ∀ lease ∈ phase'.toHandle, lease ∈ phase.toHandle ∨ Claimed s lease

theorem within_empty (phase : Dispatcher) {phase' : Dispatcher} (hheld : phase'.held = [])
    (hhandle : phase'.toHandle = []) : Within s phase phase' := by
  unfold Within
  rw [hheld, hhandle]
  exact ⟨forall_mem_nil _, forall_mem_nil _⟩

theorem within_of_step (h : paymentStep s action = some t) (worker : Nat) :
    Within s (s.dispatchers worker) (t.dispatchers worker) := by
  have hset : ∀ other phase, Within s (s.dispatchers other) phase →
      Within s (s.dispatchers worker) (update s.dispatchers other phase worker) := by
    intro other phase hphase
    rcases eq_or_ne worker other with rfl | hne
    · rw [update_self]
      exact hphase
    · rw [update_of_ne hne]
      exact ⟨fun _ => .inl, fun _ => .inl⟩
  have hnext : ∀ {other} item errorCode {rest}, Within s (s.dispatchers other) (.handling rest) →
      Within s (s.dispatchers worker)
        ((s.escalateNext other item errorCode rest).dispatchers worker) := by
    intro other item errorCode rest hrest
    unfold System.escalateNext
    split
    next => exact hset other _ hrest
    next => exact hset other .idle (within_empty _ rfl rfl)
  cases systemTakes_of_step h with
  | expireLeases => exact hset _ .claiming (within_empty _ rfl rfl)
  | finishCycle | crash => exact hset _ .idle (within_empty _ rfl rfl)
  | claim hphase limit locked =>
    have hclaimed : ∀ lease ∈ (s.db.claim s.clock limit locked).2.map
        (fun item => Lease.mk item (item.transaction.map Transaction.status)), Claimed s lease := by
      intro lease hlease
      obtain ⟨item, hitem, rfl⟩ := mem_map.mp hlease
      exact ⟨limit, locked, item, hitem, rfl⟩
    exact hset _ (.handling _) ⟨fun lease hlease => .inr (hclaimed lease hlease),
      fun lease hlease => .inr (hclaimed lease hlease)⟩
  | dispatched hphase hdispatchable started =>
    apply hset
    rw [hphase]
    cases started with
    | true | false => exact ⟨fun _ => .inl, fun _ hlease => .inl (mem_cons_of_mem _ hlease)⟩
  | rejected hphase hinvalid started =>
    apply hnext
    rw [hphase]
    exact ⟨fun _ hlease => .inl (mem_cons_of_mem _ hlease),
      fun _ hlease => .inl (mem_cons_of_mem _ hlease)⟩
  | exhausted hphase hlast jitter =>
    apply hnext
    rw [hphase]
    exact ⟨fun _ hlease => .inl (mem_cons_of_mem _ hlease), fun _ => .inl⟩
  | stored hphase | requeued hphase hlast jitter =>
    apply hset
    rw [hphase]
    exact ⟨fun _ hlease => .inl (mem_cons_of_mem _ hlease), fun _ => .inl⟩
  | notStored hphase =>
    apply hset
    rw [hphase]
    exact ⟨fun _ => .inl, fun _ => .inl⟩
  | _ => exact ⟨fun _ => .inl, fun _ => .inl⟩

theorem escalateNext_spec (hs : InStep s) {worker : Nat} {lease : Lease} (rest : List Lease)
    (errorCode : String) (hlease : lease ∈ (s.dispatchers worker).held) :
    Sound (s.escalateNext worker lease.item errorCode rest).db ∧
      Follows s.db (s.escalateNext worker lease.item errorCode rest).db ∧
      (s.escalateNext worker lease.item errorCode rest).dispatches = s.dispatches := by
  unfold System.escalateNext
  split
  next db hescalate =>
    obtain ⟨hsound, hfollows⟩ := escalate_spec hs.sound (hs.held worker lease hlease) hescalate
    exact ⟨hsound, hfollows, rfl⟩
  next => exact ⟨hs.sound, .refl _, rfl⟩

/-- Every step but a freeze keeps the tables in step. -/
theorem tables_step (hs : InStep s) (hnot : ∀ accountId, action ≠ .freezeAccount accountId)
    (h : paymentStep s action = some t) : Sound t.db ∧ Follows s.db t.db := by
  cases systemTakes_of_step h with
  | initiateTransfer input => exact initiateTransfer_spec hs.sound input s.clock
  | expireLeases hphase => exact expireLeases_spec hs.sound s.clock
  | claim hphase limit locked => exact claim_spec hs.sound s.clock limit locked
  | @rejected worker lease rest hphase | @exhausted worker lease rest hphase =>
    have hlease : lease ∈ (s.dispatchers worker).held := by
      rw [hphase]
      exact mem_cons_self
    obtain ⟨hsound, hfollows, _⟩ := escalateNext_spec hs rest _ hlease
    exact ⟨hsound, hfollows⟩
  | stored hphase => exact recordStarted_spec hs.sound _
  | requeued hphase => exact requeue_spec hs.sound _ _
  | dispatched | notStored | finishCycle | crash | tick => exact ⟨hs.sound, .refl _⟩
  | freezeAccount accountId => exact (hnot accountId rfl).elim
  | claimCase transactionId tenantId actorId =>
    exact claimCase_spec hs.sound transactionId tenantId actorId
  | resolveCase transactionId tenantId actorId resolution =>
    exact resolveCase_spec hs.sound transactionId tenantId actorId resolution s.clock

theorem onlyPending_step (hs : InStep s) (h : paymentStep s action = some t) : OnlyPending t := by
  have hdispatched := hs.dispatched
  cases systemTakes_of_step h with
  | @dispatched worker lease rest hphase =>
    have hlease : lease ∈ (s.dispatchers worker).toHandle := by
      rw [hphase]
      exact mem_cons_self
    obtain ⟨hpending, hblocked⟩ := hs.ready worker lease hlease
    intro dispatch hdispatch
    rcases mem_cons.mp hdispatch with rfl | hold
    · refine ⟨hpending, fun hnow => ?_⟩
      obtain ⟨tx, hfind, hstatus⟩ := Option.map_eq_some_iff.mp hnow
      have hkey := find?_some hfind
      exact hblocked tx (mem_of_find?_eq_some hfind) (eq_of_beq hkey) hstatus
    · exact hdispatched dispatch hold
  | @rejected worker lease rest hphase | @exhausted worker lease rest hphase =>
    have hlease : lease ∈ (s.dispatchers worker).held := by
      rw [hphase]
      exact mem_cons_self
    obtain ⟨_, _, hsame⟩ := escalateNext_spec hs rest _ hlease
    unfold OnlyPending
    rwa [hsame]
  | _ => exact hdispatched

theorem inStep_freezeAccount (hs : InStep s) {accountId : String}
    (hcond : FreezeSpares s (.freezeAccount accountId)) :
    InStep (s.withDb (s.db.freezeAccount accountId)) where
  sound := freezeAccount_spec hs.sound fun tx htx hp => (hcond tx htx hp).1
  held worker lease hlease := hs.held worker lease hlease
  ready worker lease hlease := by
    obtain ⟨hpending, hblocked⟩ := hs.ready worker lease hlease
    refine ⟨hpending, ?_⟩
    intro tx htx hid hstatus
    rcases mem_updateWhere.mp htx with ⟨old, hold, hp, rfl⟩ | ⟨hold, _⟩
    · exact (hcond old hold hp).2 worker lease hlease hid.symm
    · exact hblocked tx hold hid hstatus
  dispatched := hs.dispatched

theorem inStep_step (hs : InStep s) (hcond : FreezeSpares s action)
    (h : paymentStep s action = some t) : InStep t := by
  by_cases hfreeze : ∃ accountId, action = .freezeAccount accountId
  · obtain ⟨accountId, rfl⟩ := hfreeze
    cases systemTakes_of_step h with
    | freezeAccount => exact inStep_freezeAccount hs hcond
  · obtain ⟨hsound, hfollows⟩ :=
      tables_step hs (fun accountId heq => hfreeze ⟨accountId, heq⟩) h
    refine ⟨hsound, ?_, ?_, onlyPending_step hs h⟩
    · intro worker lease hlease
      rcases (within_of_step h worker).1 lease hlease with hold | ⟨limit, locked, item, hitem, rfl⟩
      · exact (hs.held worker lease hold).follows hfollows
      · exact (pending_of_claim hs.sound hitem).2.1.follows hfollows
    · intro worker lease hlease
      rcases (within_of_step h worker).2 lease hlease with hold | ⟨limit, locked, item, hitem, rfl⟩
      · exact (hs.ready worker lease hold).imp_right fun hblocked => hblocked.follows hfollows
      · obtain ⟨hpending, _, hblocked⟩ := pending_of_claim hs.sound hitem
        exact ⟨hpending, hblocked.follows hfollows⟩

end Steps

theorem inStep_initial {transactions : List Transaction}
    (h : (transactions.map Transaction.id).Nodup) : InStep (.initial transactions) where
  sound :=
    { transactionIds := h
      outboxIds := nodup_nil
      outboxTransactions := nodup_nil
      foreignKey := by
        intro row hrow
        cases hrow
      active := by
        intro row hrow
        cases hrow }
  held worker lease hlease := by
    cases hlease
  ready worker lease hlease := by
    cases hlease
  dispatched dispatch hdispatch := by
    cases hdispatch

/-- Along every run whose freezes spare the transfers still to be dispatched,
workflows are only started for pending transactions. -/
theorem dispatches_only_pending (transactions : List Transaction) (labels : List Action)
    (hids : (transactions.map Transaction.id).Nodup)
    (hspares : Meets paymentStep FreezeSpares (.initial transactions) labels) :
    Always paymentStep OnlyPending (.initial transactions) labels := by
  have hinStep := always_of_meets (fun s a t hs hcond h => inStep_step hs hcond h)
    (inStep_initial hids) hspares
  exact hinStep.mono fun s hs => hs.dispatched

def sampleTransfer : TransferInput :=
  { tenantId := some 7
    originatorAccountId := "ACC-1"
    beneficiaryAccountId := "0123456789"
    beneficiaryBankCode := "058"
    beneficiaryName := "Ada"
    amountKobo := 50000
    reference := some "PAY-1"
    generatedRef := "TXN-1"
    rail := "nip"
    velocityBlocked := false }

def unnamedTransfer : TransferInput :=
  { sampleTransfer with
    originatorAccountId := "ACC-2"
    reference := some "" }

/-- The originator is frozen while the transfer is queued. -/
theorem frozen_transfer_dispatched :
    ¬ ∀ labels, Always paymentStep OnlyPending (.initial []) labels := by
  intro h
  have hrun : (run paymentStep (.initial []) [.initiateTransfer sampleTransfer,
      .freezeAccount "ACC-1", .expireLeases 0, .claim 0 25 [], .dispatch 0 false]).map
      System.dispatches = some [⟨1, some .blocked, some .blocked⟩] := by
    decide
  obtain ⟨s, hs, hdispatches⟩ := Option.map_eq_some_iff.mp hrun
  have hpending := ((h _).finish hs) ⟨1, some .blocked, some .blocked⟩
    (hdispatches ▸ mem_cons_self)
  cases hpending.1

theorem unfrozen_transfer_dispatched_pending :
    Always paymentStep OnlyPending (.initial []) [.freezeAccount "ACC-9",
      .initiateTransfer sampleTransfer, .expireLeases 0, .claim 0 25 [], .dispatch 0 false] := by
  refine dispatches_only_pending [] _ nodup_nil ?_
  intro t _
  constructor
  · intro tx htx
    cases htx
  · apply Meets.of_forall
    intro action haction s
    simp only [mem_cons, not_mem_nil, or_false] at haction
    rcases haction with rfl | rfl | rfl | rfl <;> trivial

end Bis.Payments
