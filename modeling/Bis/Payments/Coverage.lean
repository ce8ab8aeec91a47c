import Bis.Payments.Attempts
import Bis.Payments.Schema

/-!
Whether every payment that waits for the desk has a case there. The trigger
opens a case when a transaction becomes `under_review`, but at most one for each
transaction, and a resolution closes it for good. So a payment is covered as long
as it does not come back to review after its case was closed.
-/

namespace Bis.Payments

open Bis.Relation Bis.Transition List

def ReconciliationCase.Active (c : ReconciliationCase) : Prop :=
  c.status = .open ∨ c.status = .underReview

def DeadLettered (db : Database) (tx : Transaction) : Prop :=
  ∃ row ∈ db.outbox, row.transactionId = tx.id ∧ row.status = .deadLetter

/-- Some officer can claim the case, and another one is then given it to resolve. -/
def CanBeResolved (db : Database) (c : ReconciliationCase) : Prop :=
  ∃ claimer actor, ((db.claimCase c.transactionId c.tenantId claimer).lockClaimedCase
    c.transactionId c.tenantId actor).isSome

/-- A transaction is under review with a dead letter exactly where it has an
active case that can be resolved. -/
def CasesMatch (s : Register) : Prop :=
  ∀ tx ∈ s.rows, (tx.status = .underReview ∧ DeadLettered s.db tx) ↔
    ∃ c ∈ s.db.cases, c.transactionId = tx.id ∧ c.Active ∧ CanBeResolved s.db c

/-- Every transaction that waits for the desk has an active case. -/
def Covered (db : Database) : Prop :=
  ∀ tx ∈ db.transactions, tx.status = .underReview → DeadLettered db tx →
    ∃ c ∈ db.cases, c.transactionId = tx.id ∧ c.Active

/-- Cases of the transactions a statement sends to review are not closed. -/
def ReviewOpens (db : Database) (p : Transaction → Bool) : Prop :=
  ∀ tx ∈ db.transactions, p tx → tx.status ≠ .underReview → DeadLettered db tx →
    ∀ c ∈ db.cases, c.transactionId = tx.id → c.Active

/-- An escalation that goes through finds no closed case. -/
def EscalationOpens (db : Database) (item : PaymentOutboxRow) : Prop :=
  db.outbox.any (holdsLease item) → db.transactions.any item.pendingTransaction →
    ∀ c ∈ db.cases, c.transactionId = item.transactionId → c.Active

/-- The steps after which every payment at the desk has its case: what goes to
review has no closed case, and no compensation is required. -/
def KeepsCases (s : Register) : RegisterAction → Prop
  | .payment (.dispatch worker _) =>
    ∀ lease rest, s.payments.dispatchers worker = .handling (lease :: rest) →
      ¬ lease.item.isDispatchable → EscalationOpens s.db lease.item
  | .payment (.handleFailure worker _) =>
    ∀ lease rest, s.payments.dispatchers worker = .failed lease rest →
      maxAttempts ≤ lease.item.attempts + 1 → EscalationOpens s.db lease.item
  | .payment (.resolveCase transactionId tenantId actorId .compensationRequired) =>
    s.db.lockClaimedCase transactionId tenantId actorId = none
  | .writeUpdate call =>
    (∃ status ∈ call.status, status.val = .underReview) →
      ReviewOpens s.db (owned call.id call.tenantId)
  | .flagForReview id tenantId => ReviewOpens s.db (owned id tenantId)
  | _ => True

section Tables

variable {db db' : Database}

/-! ### Active cases of waiting transactions can be resolved -/

variable {c : ReconciliationCase} {tx : Transaction} {row : OutboxRow} {status : TransactionStatus}

theorem transaction_of_case (h : Linked db) (hc : c ∈ db.cases) (htx : tx ∈ db.transactions)
    (hid : tx.id = c.transactionId) :
    tx.tenantId = some c.tenantId ∧
      ∃ row ∈ db.outbox, row.id = c.outboxId ∧ row.transactionId = c.transactionId ∧
        row.tenantId = c.tenantId := by
  obtain ⟨row, hrow, hrowId, hrowTx, hrowTenant⟩ := h.cases c hc
  obtain ⟨other, hother, hotherId, htenant⟩ := h.outbox row hrow
  obtain rfl := inj_on_of_nodup_map h.transactionIds hother htx
    (hotherId.trans (hrowTx.trans hid.symm))
  refine ⟨?_, row, hrow, hrowId, hrowTx, hrowTenant⟩
  rw [htenant, hrowTenant]

theorem deadLettered_iff (h : Linked db) (hrow : row ∈ db.outbox) (htx : row.transactionId =
    tx.id) :
    DeadLettered db tx ↔ row.status = .deadLetter := by
  constructor
  · rintro ⟨other, hother, hotherTx, hdead⟩
    obtain rfl := inj_on_of_nodup_map h.outboxTransactions hother hrow
      (hotherTx.trans htx.symm)
    exact hdead
  · intro hdead
    exact ⟨row, hrow, htx, hdead⟩

theorem canBeResolved_iff (h : Linked db) (hc : c ∈ db.cases) (hactive : c.Active)
    (htx : tx ∈ db.transactions) (hid : tx.id = c.transactionId) :
    CanBeResolved db c ↔ tx.status = .underReview ∧ DeadLettered db tx := by
  obtain ⟨htenant, row, hrow, hrowId, hrowTx, hrowTenant⟩ := transaction_of_case h hc htx hid
  constructor
  · rintro ⟨claimer, actor, hlock⟩
    obtain ⟨found, hfound⟩ := Option.isSome_iff_exists.mp hlock
    obtain ⟨hfoundId, hlockable⟩ :=
      (lockClaimedCase_iff (linked_claimCase h _ _ _)).mp hfound
    obtain ⟨other, hother, hotherId, _, hstatus⟩ := hlockable.transaction
    obtain ⟨dead, hdead, _, hdeadTx, _, hdeadStatus⟩ := hlockable.outbox
    obtain rfl := inj_on_of_nodup_map h.transactionIds hother htx
      (hotherId.trans (hfoundId.trans hid.symm))
    exact ⟨hstatus, dead, hdead, hdeadTx.trans hotherId.symm, hdeadStatus⟩
  · rintro ⟨hstatus, hdead⟩
    have hrowDead := (deadLettered_iff h hrow (hrowTx.trans hid.symm)).mp hdead
    rcases hactive with hopen | hreview
    · let claimed : ReconciliationCase :=
        { c with
          status := .underReview
          claimedBy := some 0 }
      have hunclaimed := ((h.shaped c hc).unclaimed hopen).1
      have hmem : claimed ∈ (db.claimCase c.transactionId c.tenantId 0).cases := by
        refine mem_updateWhere.mpr (.inl ⟨c, hc, ?_, rfl⟩)
        simp [hopen, hunclaimed]
      refine ⟨0, 1, Option.isSome_iff_exists.mpr ⟨claimed, ?_⟩⟩
      apply (lockClaimedCase_iff (linked_claimCase h _ _ _)).mpr
      exact ⟨rfl, hmem, rfl, rfl, ⟨0, rfl, by decide⟩, ⟨tx, htx, hid, htenant, hstatus⟩,
        ⟨row, hrow, hrowId, hrowTx, hrowTenant, hrowDead⟩⟩
    · obtain ⟨claimer, hclaimer⟩ := Option.ne_none_iff_exists'.mp ((h.shaped c hc).claimed hreview).1
      have hmem : c ∈ (db.claimCase c.transactionId c.tenantId 0).cases := by
        apply mem_updateWhere_of_not hc
        simp [hreview]
      refine ⟨0, claimer + 1, Option.isSome_iff_exists.mpr ⟨c, ?_⟩⟩
      apply (lockClaimedCase_iff (linked_claimCase h _ _ _)).mpr
      exact ⟨rfl, hmem, rfl, hreview, ⟨claimer, hclaimer, by omega⟩,
        ⟨tx, htx, hid, htenant, hstatus⟩, ⟨row, hrow, hrowId, hrowTx, hrowTenant, hrowDead⟩⟩

theorem casesMatch_iff {s : Register} (h : Linked s.db) : CasesMatch s ↔ Covered s.db := by
  constructor
  · intro hmatch tx htx hstatus hdead
    obtain ⟨c, hc, hid, hactive, _⟩ := (hmatch tx htx).mp ⟨hstatus, hdead⟩
    exact ⟨c, hc, hid, hactive⟩
  · intro hcovered tx htx
    constructor
    · rintro ⟨hstatus, hdead⟩
      obtain ⟨c, hc, hid, hactive⟩ := hcovered tx htx hstatus hdead
      exact ⟨c, hc, hid, hactive,
        (canBeResolved_iff h hc hactive htx hid.symm).mpr ⟨hstatus, hdead⟩⟩
    · rintro ⟨c, hc, hid, hactive, hresolvable⟩
      exact (canBeResolved_iff h hc hactive htx hid.symm).mp hresolvable

/-! ### What keeps the cover -/

theorem Covered.mono (h : Covered db)
    (htransactions : ∀ tx' ∈ db'.transactions, tx'.status = .underReview → DeadLettered db' tx' →
      ∃ tx ∈ db.transactions, tx.id = tx'.id ∧ tx.status = .underReview ∧ DeadLettered db tx)
    (hcases : ∀ c ∈ db.cases, c.Active →
      ∃ c' ∈ db'.cases, c'.transactionId = c.transactionId ∧ c'.Active) : Covered db' := by
  intro tx' htx' hstatus hdead
  obtain ⟨tx, htx, hid, hbefore, hdeadBefore⟩ := htransactions tx' htx' hstatus hdead
  obtain ⟨c, hc, hcase, hactive⟩ := h tx htx hbefore hdeadBefore
  obtain ⟨c', hc', hsame, hactive'⟩ := hcases c hc hactive
  exact ⟨c', hc', hsame.trans (hcase.trans hid), hactive'⟩

theorem Covered.withStatus (h : Covered db) (p : Transaction → Bool)
    (hstatus : status ≠ .underReview) :
    Covered (db.updateTransactions p fun tx => tx.withStatus status) := by
  apply h.mono
  · intro tx' htx' hreview hdead
    rcases mem_updateWhere.mp htx' with ⟨old, _, _, rfl⟩ | ⟨hold, _⟩
    · exact (hstatus hreview).elim
    · exact ⟨tx', hold, rfl, hreview, hdead⟩
  · exact fun c hc hactive => ⟨c, hc, rfl, hactive⟩

theorem Covered.updateOutbox (h : Covered db) (p : OutboxRow → Bool) {f : OutboxRow → OutboxRow}
    (hdead : ∀ row ∈ db.outbox, p row → (f row).status ≠ .deadLetter) :
    Covered (db.updateOutbox p f) := by
  apply h.mono
  · rintro tx htx hstatus ⟨row, hrow, hrowTx, hrowDead⟩
    refine ⟨tx, htx, rfl, hstatus, ?_⟩
    rcases mem_updateWhere.mp hrow with ⟨old, hold, hp, rfl⟩ | ⟨hold, _⟩
    · exact (hdead old hold hp hrowDead).elim
    · exact ⟨row, hold, hrowTx, hrowDead⟩
  · exact fun c hc hactive => ⟨c, hc, rfl, hactive⟩

theorem Covered.insertTransaction (hlinked : Linked db) (h : Covered db)
    (hid : tx.id = db.freshTransactionId) :
    Covered { db with transactions := db.transactions ++ [tx] } := by
  apply h.mono
  · rintro tx' htx' hstatus ⟨row, hrow, hrowTx, hrowDead⟩
    rcases mem_concat.mp htx' with hold | rfl
    · exact ⟨tx', hold, rfl, hstatus, row, hrow, hrowTx, hrowDead⟩
    · obtain ⟨old, hold, hkey, _⟩ := hlinked.outbox row hrow
      have hmem := mem_map_of_mem (f := Transaction.id) hold
      rw [hkey, hrowTx, hid] at hmem
      exact (fresh_not_mem _ hmem).elim
  · exact fun c hc hactive => ⟨c, hc, rfl, hactive⟩

theorem Covered.insertIntent (hlinked : Linked db) (h : Covered db)
    (hid : tx.id = db.freshTransactionId) (hqueued : row.status = .queued) :
    Covered
      { db with
        transactions := db.transactions ++ [tx]
        outbox := db.outbox ++ [row] } := by
  apply (Covered.insertTransaction hlinked h hid).mono
  · rintro tx' htx' hstatus ⟨other, hother, hotherTx, hotherDead⟩
    refine ⟨tx', htx', rfl, hstatus, ?_⟩
    rcases mem_concat.mp hother with hold | rfl
    · exact ⟨other, hold, hotherTx, hotherDead⟩
    · rw [hqueued] at hotherDead
      cases hotherDead
  · exact fun c hc hactive => ⟨c, hc, rfl, hactive⟩

theorem covered_claimCase (h : Covered db) (transactionId : Nat) (tenantId : Int) (actorId : Nat) :
    Covered (db.claimCase transactionId tenantId actorId) := by
  apply h.mono
  · exact fun tx htx hstatus hdead => ⟨tx, htx, rfl, hstatus, hdead⟩
  · intro c hc hactive
    cases hp : (c.transactionId == transactionId && c.tenantId == tenantId && c.status == .open &&
        c.claimedBy.isNone) with
    | true => exact ⟨_, mem_updateWhere.mpr (.inl ⟨c, hc, hp, rfl⟩), rfl, .inr rfl⟩
    | false => exact ⟨c, mem_updateWhere_of_not hc (by simp [hp]), rfl, hactive⟩

/-! ### Transactions that go to review -/

theorem openCase_mem (db : Database) (tx : Transaction) (hc : c ∈ db.cases) :
    c ∈ (db.openCase tx).cases := by
  rcases openCase_spec db tx with hsame | ⟨_, _, _, _, new, hcase, _⟩
  · rwa [hsame]
  · rw [hcase]
    exact mem_append_left _ hc

theorem foldl_openCase_mem (txs : List Transaction) (db : Database) (hc : c ∈ db.cases) :
    c ∈ (txs.foldl Database.openCase db).cases := by
  induction txs generalizing db with
  | nil => exact hc
  | cons tx rest ih => exact ih (db.openCase tx) (openCase_mem db tx hc)

/-- The trigger leaves no transaction with an outbox row without a case. -/
theorem openCase_covers (db : Database) (hrow : row ∈ db.outbox) (htx : row.transactionId = tx.id)
    (htenant : tx.tenantId = some row.tenantId) :
    ∃ c ∈ (db.openCase tx).cases, c.transactionId = tx.id := by
  unfold Database.openCase
  split
  next hnone =>
    have hnot := find?_eq_none.mp hnone row hrow
    simp [htx, htenant] at hnot
  next found hfind =>
    split
    next hany =>
      obtain ⟨c, hc, hid⟩ := any_eq_true.mp hany
      exact ⟨c, hc, eq_of_beq hid⟩
    next => exact ⟨_, mem_concat_self, rfl⟩

theorem foldl_openCase_covers (txs : List Transaction) (db : Database) (hmem : tx ∈ txs)
    (hrow : row ∈ db.outbox) (htx : row.transactionId = tx.id)
    (htenant : tx.tenantId = some row.tenantId) :
    ∃ c ∈ (txs.foldl Database.openCase db).cases, c.transactionId = tx.id := by
  induction txs generalizing db with
  | nil => cases hmem
  | cons first rest ih =>
    rcases mem_cons.mp hmem with rfl | hrest
    · obtain ⟨c, hc, hid⟩ := openCase_covers db hrow htx htenant
      exact ⟨c, foldl_openCase_mem rest _ hc, hid⟩
    · apply ih (db.openCase first) hrest
      rw [(transactions_openCase db first).2]
      exact hrow

/-- The cases after a statement that sends transactions to review: those there
were, and open ones. -/
theorem cases_setUnderReview (db : Database) (p : Transaction → Bool) :
    (∀ c ∈ db.cases, c ∈ (db.setUnderReview p).cases) ∧
      ∀ c ∈ (db.setUnderReview p).cases, c ∈ db.cases ∨ Opened c := by
  obtain ⟨new, hcases, hopened⟩ := cases_of_writes (writes_setUnderReview db p)
  rw [hcases]
  constructor
  · exact fun c hc => mem_append_left _ hc
  · intro c hc
    rcases mem_append.mp hc with hold | hnew
    · exact .inl hold
    · exact .inr (hopened c hnew)

theorem covered_setUnderReview_iff (hlinked : Linked db) (h : Covered db) (p : Transaction → Bool) :
    Covered (db.setUnderReview p) ↔ ReviewOpens db p := by
  obtain ⟨htransactions, houtbox⟩ := setUnderReview_tables db p
  obtain ⟨hkept, honly⟩ := cases_setUnderReview db p
  have hlinked' := hlinked.writes (writes_setUnderReview db p)
  constructor
  · rintro hcovered tx htx hp _ ⟨row, hrow, hrowTx, hrowDead⟩ c hc hid
    have hmoved : tx.withStatus .underReview ∈ (db.setUnderReview p).transactions := by
      rw [htransactions]
      exact mem_updateWhere.mpr (.inl ⟨tx, htx, hp, rfl⟩)
    obtain ⟨c', hc', hid', hactive⟩ := hcovered _ hmoved rfl
      ⟨row, by rw [houtbox]; exact hrow, hrowTx, hrowDead⟩
    obtain rfl := inj_on_of_nodup_map hlinked'.caseTransactions (hkept c hc) hc'
      (hid.trans hid'.symm)
    exact hactive
  · rintro hopens tx' htx' hstatus ⟨row, hrow, hrowTx, hrowDead⟩
    rw [houtbox] at hrow
    rw [htransactions] at htx'
    have hold : ∀ tx ∈ db.transactions, tx.id = tx'.id → tx.status = .underReview →
        ∃ c ∈ (db.setUnderReview p).cases, c.transactionId = tx'.id ∧ c.Active := by
      intro tx htx hid hreview
      obtain ⟨c, hc, hcase, hactive⟩ := h tx htx hreview ⟨row, hrow, hrowTx.trans hid.symm, hrowDead⟩
      exact ⟨c, hkept c hc, hcase.trans hid, hactive⟩
    rcases mem_updateWhere.mp htx' with ⟨tx, htx, hp, rfl⟩ | ⟨htx, _⟩
    · by_cases hreview : tx.status = .underReview
      · exact hold tx htx rfl hreview
      · -- the trigger fires for this row
        obtain ⟨other, hother, hotherId, htenant⟩ := hlinked.outbox row hrow
        obtain rfl := inj_on_of_nodup_map hlinked.transactionIds hother htx
          (hotherId.trans hrowTx)
        have hfires : other ∈ db.transactions.filter fun tx => p tx && tx.status != .underReview :=
          mem_filter.mpr ⟨hother, by simp [hp, hreview]⟩
        obtain ⟨c, hc, hid⟩ := foldl_openCase_covers _
          (db.updateTransactions p fun tx => tx.withStatus .underReview) hfires hrow hrowTx htenant
        refine ⟨c, hc, hid, ?_⟩
        rcases honly c hc with hbefore | hopened
        · exact hopens other hother hp hreview ⟨row, hrow, hrowTx, hrowDead⟩ c hbefore hid
        · exact .inl hopened.1
    · exact hold tx' htx rfl hstatus

theorem covered_setStatus (h : Covered db) (p : Transaction → Bool)
    (hstatus : status ≠ .underReview) : Covered (db.setStatus p status) := by
  unfold Database.setStatus
  rw [if_neg hstatus]
  exact h.withStatus p hstatus

theorem covered_escalate_iff (hlinked : Linked db) (h : Covered db) {item : PaymentOutboxRow}
    (hitem : Matches db item) {errorCode : String} (hescalate : db.escalate item errorCode = some db') :
    Covered db' ↔ EscalationOpens db item := by
  unfold Database.escalate at hescalate
  split at hescalate
  next hguard =>
    cases hescalate
    obtain ⟨hholds, hpending⟩ := Bool.and_eq_true_iff.mp hguard
    obtain ⟨row, hrow, hlease⟩ := any_eq_true.mp hholds
    obtain ⟨tx, htx, hp⟩ := any_eq_true.mp hpending
    obtain ⟨named, hnamed, hnamedId, hnamedTx⟩ := hitem
    obtain rfl := inj_on_of_nodup_map hlinked.outboxIds hrow hnamed
      ((leased_of_holdsLease hlease).1.trans hnamedId.symm)
    have hpending' : tx.id = item.transactionId ∧ tx.status = .pending := by
      simp only [PaymentOutboxRow.pendingTransaction, Bool.and_eq_true, beq_iff_eq] at hp
      exact ⟨hp.1.1, hp.2⟩
    have hdeadLinked : Linked (db.deadLetter item errorCode) :=
      hlinked.updateOutbox _ fun row => ⟨rfl, rfl, rfl⟩
    have hdeadRow : DeadLettered (db.deadLetter item errorCode) tx := by
      refine ⟨_, mem_updateWhere.mpr (.inl ⟨row, hrow, hlease, rfl⟩), ?_, rfl⟩
      exact hnamedTx.trans hpending'.1.symm
    -- the row that becomes a dead letter belongs to the pending transaction
    have hdeadCovered : Covered (db.deadLetter item errorCode) := by
      rintro other hother hstatus ⟨dead, hdead, hdeadTx, hdeadStatus⟩
      rcases mem_updateWhere.mp hdead with ⟨old, hold, hp', rfl⟩ | ⟨hold, _⟩
      · obtain rfl := inj_on_of_nodup_map hlinked.outboxIds hold hrow
          ((leased_of_holdsLease hp').1.trans (leased_of_holdsLease hlease).1.symm)
        obtain rfl := inj_on_of_nodup_map hlinked.transactionIds hother htx
          (hdeadTx.symm.trans (hnamedTx.trans hpending'.1.symm))
        rw [hpending'.2] at hstatus
        cases hstatus
      · exact h other hother hstatus ⟨dead, hold, hdeadTx, hdeadStatus⟩
    rw [covered_setUnderReview_iff hdeadLinked hdeadCovered]
    constructor
    · intro hopens _ _ c hc hid
      apply hopens tx htx hp _ hdeadRow c hc (hid.trans hpending'.1.symm)
      rw [hpending'.2]
      exact TransactionStatus.noConfusion
    · intro hopens other hother hp' _ _ c hc hid
      apply hopens hholds hpending c hc
      simp only [PaymentOutboxRow.pendingTransaction, Bool.and_eq_true, beq_iff_eq] at hp'
      exact hid.trans hp'.1.1
  next => cases hescalate

/-! ### Resolutions -/

/-- The case that is resolved is the only one that is closed. -/
theorem mem_closeCase (db : Database) (c : ReconciliationCase) (tenantId : Int) (actorId : Nat)
    (resolution : Resolution) {other : ReconciliationCase} (hother : other ∈ db.cases)
    (hne : other.transactionId ≠ c.transactionId) :
    other ∈ (db.closeCase c tenantId actorId resolution).cases := by
  apply mem_updateWhere_of_not hother
  simp [hne]

theorem covered_moveReviewed (hlinked : Linked db) (h : Covered db) {transactionId actorId : Nat}
    {tenantId : Int} (hlock : db.lockClaimedCase transactionId tenantId actorId = some c)
    (resolution : Resolution) (hstatus : status ≠ .underReview) :
    Covered ((db.closeCase c tenantId actorId resolution).moveReviewed c tenantId status) := by
  obtain ⟨_, hlockable⟩ := (lockClaimedCase_iff hlinked).mp hlock
  rintro tx htx hreview hdead
  rcases mem_updateWhere.mp htx with ⟨old, _, _, rfl⟩ | ⟨hold, hnot⟩
  · exact (hstatus hreview).elim
  · obtain ⟨other, hother, hid, hactive⟩ := h tx hold hreview hdead
    refine ⟨other, mem_closeCase db c tenantId actorId resolution hother ?_, hid, hactive⟩
    intro hsame
    obtain ⟨htenant, _⟩ := transaction_of_case hlinked hlockable.mem hold (hid.symm.trans hsame)
    apply hnot
    simp [ReconciliationCase.reviewed, hid.symm.trans hsame, htenant, hlockable.tenant, hreview]

theorem covered_resolveCase_iff (hlinked : Linked db) (h : Covered db) (transactionId : Nat)
    (tenantId : Int) (actorId : Nat) (resolution : Resolution) (now : Nat) :
    Covered (db.resolveCase transactionId tenantId actorId resolution now) ↔
      (resolution = .compensationRequired →
        db.lockClaimedCase transactionId tenantId actorId = none) := by
  unfold Database.resolveCase
  cases hlock : db.lockClaimedCase transactionId tenantId actorId with
  | none => exact iff_of_true h fun _ => rfl
  | some c =>
    cases resolution with
    | confirmedSettled | confirmedNotSettled =>
      exact iff_of_true (covered_moveReviewed hlinked h hlock _ TransactionStatus.noConfusion)
        fun hother => by cases hother
    | approvedRetry =>
      have hmoved := covered_moveReviewed hlinked h hlock .approvedRetry
        (show TransactionStatus.pending ≠ .underReview from TransactionStatus.noConfusion)
      refine iff_of_true ?_ fun hother => by cases hother
      apply hmoved.updateOutbox
      exact fun row _ _ => OutboxStatus.noConfusion
    | compensationRequired =>
      refine iff_of_false ?_ fun hnone => by cases hnone rfl
      intro hcovered
      obtain ⟨_, hlockable⟩ := (lockClaimedCase_iff hlinked).mp hlock
      obtain ⟨tx, htx, hid, _, hstatus⟩ := hlockable.transaction
      obtain ⟨row, hrow, _, hrowTx, _, hrowDead⟩ := hlockable.outbox
      obtain ⟨claimer, hclaimer, hother⟩ := hlockable.claimed
      obtain ⟨found, hfound, hfoundId, hactive⟩ := hcovered tx htx hstatus
        ⟨row, hrow, hrowTx.trans hid.symm, hrowDead⟩
      have hclosed : found.status = .compensationRequired := by
        rcases mem_updateWhere.mp hfound with ⟨old, _, _, rfl⟩ | ⟨hold, hnot⟩
        · rfl
        · obtain rfl := inj_on_of_nodup_map hlinked.caseTransactions hold hlockable.mem
            (hfoundId.trans hid)
          refine (hnot ?_).elim
          simp [hlockable.tenant, hlockable.status, hclaimer, hother]
      rcases hactive with hopen | hreview
      · rw [hclosed] at hopen
        cases hopen
      · rw [hclosed] at hreview
        cases hreview

end Tables

/-! ### The register -/

/-- Every claimed item names its outbox row. -/
def Held (s : System) : Prop := ∀ worker, ∀ lease ∈ (s.dispatchers worker).held, Matches s.db lease.item

/-- What the coverage of a reachable register rests on. -/
structure Kept (s : Register) : Prop where
  linked : Linked s.db
  held : Held s.payments

section Register

variable {db : Database} {db' : Database} {s : System} {worker : Nat}

theorem Matches.sameRows {item : PaymentOutboxRow} (h : Matches db item)
    (hrows : ∀ row ∈ db.outbox, ∃ row' ∈ db'.outbox, SameRow row row') : Matches db' item := by
  obtain ⟨row, hrow, hid, htx⟩ := h
  obtain ⟨row', hrow', hid', htx', _⟩ := hrows row hrow
  exact ⟨row', hrow', hid'.trans hid, htx'.trans htx⟩

theorem matches_of_claim {now limit : Nat} {locked : List Nat} {item : PaymentOutboxRow}
    (hitem : item ∈ (db.claim now limit locked).2) : Matches db item := by
  obtain ⟨row, hrow, rfl⟩ := mem_map.mp hitem
  exact ⟨row, (queued_of_candidate hrow).1, rfl, rfl⟩

theorem rows_resolveCase (db : Database) (transactionId : Nat) (tenantId : Int) (actorId : Nat)
    (resolution : Resolution) (now : Nat) :
    ∀ row ∈ db.outbox,
      ∃ row' ∈ (db.resolveCase transactionId tenantId actorId resolution now).outbox,
        SameRow row row' := by
  unfold Database.resolveCase
  split
  next => exact fun row hrow => ⟨row, hrow, rfl, rfl, rfl⟩
  next c _ =>
    have hrows := rows_of_writes
      (writes_of_resolution (db.closeCase c tenantId actorId resolution) c tenantId resolution now)
    cases resolution with
    | confirmedSettled | confirmedNotSettled | approvedRetry | compensationRequired => exact hrows

theorem rows_of_paymentStep {t : System} {action : Action} (hstep : paymentStep s action = some t) :
    ∀ row ∈ s.db.outbox, ∃ row' ∈ t.db.outbox, SameRow row row' := by
  cases hdesk : (RegisterAction.payment action).ofDesk with
  | false => exact rows_of_writes (writes_of_paymentStep hdesk hstep)
  | true =>
    cases systemTakes_of_step hstep with
    | claimCase => exact fun row hrow => ⟨row, hrow, rfl, rfl, rfl⟩
    | resolveCase transactionId tenantId actorId resolution =>
      exact rows_resolveCase s.db transactionId tenantId actorId resolution s.clock
    | _ => cases hdesk

theorem held_paymentStep {t : System} {action : Action} (h : Held s)
    (hstep : paymentStep s action = some t) : Held t := by
  intro worker lease hlease
  have hrows := rows_of_paymentStep hstep
  rcases (within_of_step hstep worker).1 lease hlease with hold | ⟨limit, locked, item, hitem, rfl⟩
  · exact (h worker lease hold).sameRows hrows
  · exact (matches_of_claim hitem).sameRows hrows

theorem kept_step {s t : Register} {action : RegisterAction} (h : Kept s)
    (hstep : registerStep s action = some t) : Kept t where
  linked := linked_registerStep h.linked hstep
  held := by
    by_cases hpayment : ∃ payment, action = .payment payment
    · obtain ⟨payment, rfl⟩ := hpayment
      obtain ⟨payments, hpayments, rfl⟩ := Option.map_eq_some_iff.mp hstep
      exact held_paymentStep h.held hpayments
    · have huntouched := untouched_of_registerStep
        (fun payment heq => hpayment ⟨payment, heq⟩) hstep
      intro worker lease hlease
      rw [huntouched.dispatchers] at hlease
      obtain ⟨row, hrow, hkey⟩ := h.held worker lease hlease
      refine ⟨row, ?_, hkey⟩
      have houtbox : t.payments.db.outbox = s.payments.db.outbox := huntouched.outbox
      rwa [houtbox]

theorem covered_escalateNext_iff (hlinked : Linked s.db) (hheld : Held s) (h : Covered s.db)
    {lease : Lease} {rest : List Lease} (hlease : lease ∈ (s.dispatchers worker).held)
    (errorCode : String) :
    Covered (s.escalateNext worker lease.item errorCode rest).db ↔
      EscalationOpens s.db lease.item := by
  unfold System.escalateNext
  cases hescalate : s.db.escalate lease.item errorCode with
  | none =>
    refine iff_of_true h ?_
    intro hholds hpending
    unfold Database.escalate at hescalate
    rw [if_pos (by simp [hholds, hpending])] at hescalate
    cases hescalate
  | some db' => exact covered_escalate_iff hlinked h (hheld worker lease hlease) hescalate

theorem covered_initiateTransfer (hlinked : Linked db) (h : Covered db) (input : TransferInput)
    (now : Nat) : Covered (db.initiateTransfer input now) := by
  unfold Database.initiateTransfer
  split
  next => exact h
  next =>
    split
    next => exact h
    next =>
      unfold Database.insertIntent
      dsimp only
      split
      next => exact h
      next => exact h.insertIntent hlinked rfl rfl

theorem covered_insert {s : Register} (hlinked : Linked s.db) (h : Covered s.db)
    (input : NewTransaction) (status : TransactionStatus) (settled : Bool) :
    Covered (s.insert input status settled).db := by
  unfold Register.insert
  cases hinsert : s.db.insertTransaction input status with
  | none => exact h
  | some db =>
    unfold Database.insertTransaction at hinsert
    split at hinsert
    · cases hinsert
    · cases hinsert
      exact h.insertTransaction hlinked rfl

theorem covered_reverse (hlinked : Linked db) (h : Covered db) {tx : Transaction} {txRef : String}
    {tenantId : Option Int} {now : Nat} (hreverse : db.reverse tx txRef tenantId now = some db') :
    Covered db' := by
  unfold Database.reverse at hreverse
  dsimp only at hreverse
  split at hreverse
  · cases hreverse
  · cases hreverse
    have hmarked := h.withStatus (reverses txRef tenantId)
      (show TransactionStatus.reversed ≠ .underReview from TransactionStatus.noConfusion)
    have hlinkedMarked := hlinked.updateTransactions (reverses txRef tenantId)
      (sameTransaction_withStatus .reversed)
    apply hmarked.insertTransaction hlinkedMarked
    rw [freshTransactionId_withStatus]
    rfl

theorem covered_setStatus_iff {db : Database} (hlinked : Linked db) (h : Covered db)
    (p : Transaction → Bool) (status : TransactionStatus) :
    Covered (db.setStatus p status) ↔ (status = .underReview → ReviewOpens db p) := by
  by_cases hreview : status = .underReview
  · unfold Database.setStatus
    rw [if_pos hreview, covered_setUnderReview_iff hlinked h]
    simp [hreview]
  · exact iff_of_true (covered_setStatus h _ hreview) fun hsame => (hreview hsame).elim

theorem covered_payment_iff {s : Register} {payments : System} {action : Action}
    (hlinked : Linked s.db) (hheld : Held s.payments) (h : Covered s.db)
    (hstep : paymentStep s.payments action = some payments) :
    Covered payments.db ↔ KeepsCases s (.payment action) := by
  cases systemTakes_of_step hstep with
  | initiateTransfer input =>
    exact iff_of_true (covered_initiateTransfer hlinked h input _) trivial
  | expireLeases | claim | stored =>
    exact iff_of_true (h.updateOutbox _ fun row _ _ => OutboxStatus.noConfusion) trivial
  | @dispatched worker lease rest hphase hdispatchable started =>
    refine iff_of_true h ?_
    intro other rest' hsame hnot
    rw [hphase] at hsame
    cases hsame
    exact (hnot hdispatchable).elim
  | @rejected worker lease rest hphase hinvalid started =>
    have hlease : lease ∈ (s.payments.dispatchers worker).held := by
      rw [hphase]
      exact mem_cons_self
    rw [covered_escalateNext_iff hlinked hheld h hlease]
    constructor
    · intro hopens other rest' hsame _
      rw [hphase] at hsame
      cases hsame
      exact hopens
    · intro hopens
      exact hopens lease rest hphase hinvalid
  | notStored | finishCycle | crash | tick => exact iff_of_true h trivial
  | @exhausted worker lease rest hphase hlast jitter =>
    have hlease : lease ∈ (s.payments.dispatchers worker).held := by
      rw [hphase]
      exact mem_cons_self
    rw [covered_escalateNext_iff hlinked hheld h hlease]
    constructor
    · intro hopens other rest' hsame _
      rw [hphase] at hsame
      cases hsame
      exact hopens
    · intro hopens
      exact hopens lease rest hphase hlast
  | requeued hphase hlast jitter =>
    refine iff_of_true (h.updateOutbox _ fun row _ _ => OutboxStatus.noConfusion) ?_
    intro other rest' hsame hother
    rw [hphase] at hsame
    cases hsame
    exact (hlast hother).elim
  | freezeAccount accountId =>
    exact iff_of_true (h.withStatus (freezes accountId) TransactionStatus.noConfusion) trivial
  | claimCase transactionId tenantId actorId =>
    exact iff_of_true (covered_claimCase h transactionId tenantId actorId) trivial
  | resolveCase transactionId tenantId actorId resolution =>
    have hresolved := covered_resolveCase_iff hlinked h transactionId tenantId actorId
      resolution s.payments.clock
    cases resolution with
    | compensationRequired =>
      change Covered (s.db.resolveCase transactionId tenantId actorId _ _) ↔
        s.db.lockClaimedCase transactionId tenantId actorId = none
      exact hresolved.trans ⟨fun hnone => hnone rfl, fun hnone _ => hnone⟩
    | confirmedSettled | confirmedNotSettled | approvedRetry =>
      exact iff_of_true (hresolved.mpr fun hother => by cases hother) trivial

theorem covered_step_iff {s t : Register} {action : RegisterAction} (hkept : Kept s)
    (h : Covered s.db) (hstep : registerStep s action = some t) :
    Covered t.db ↔ KeepsCases s action := by
  obtain ⟨hlinked, hheld⟩ := hkept
  cases registerTakes_of_step hstep with
  | payment hpayments => exact covered_payment_iff hlinked hheld h hpayments
  | created input score => exact iff_of_true (covered_insert hlinked h input _ false) trivial
  | notCreated | notRecorded | readUpdate | notCleared | readReversal | notReversed =>
    exact iff_of_true h trivial
  | recorded input score => exact iff_of_true (covered_insert hlinked h input _ true) trivial
  | storeStablecoin input confirmed =>
    exact iff_of_true (covered_insert hlinked h input _ confirmed) trivial
  | @emptyUpdate call hstatus updates =>
    refine iff_of_true h ?_
    rintro ⟨status, hmem, _⟩
    rw [hstatus] at hmem
    cases hmem
  | @updated call status hstatus updates =>
    change Covered (s.db.setStatus (owned call.id call.tenantId) status.val) ↔ _
    rw [covered_setStatus_iff hlinked h]
    simp [KeepsCases, hstatus]
  | flagForReview id tenantId => exact covered_setUnderReview_iff hlinked h (owned id tenantId)
  | flag id tenantId =>
    have hset := covered_setStatus h (owned id (some tenantId))
      (show TransactionStatus.flagged ≠ .underReview from TransactionStatus.noConfusion)
    exact iff_of_true hset trivial
  | @cleared id tenantId hany clears =>
    have hset := covered_setStatus h (clearable id tenantId)
      (show TransactionStatus.completed ≠ .underReview from TransactionStatus.noConfusion)
    exact iff_of_true hset trivial
  | reversed hreverse reversals =>
    exact iff_of_true (covered_reverse hlinked h hreverse) trivial

end Register

/-- Along every run, payments under review with a dead letter and active cases
that can be resolved belong together in every state exactly where every step
keeps the cases. -/
theorem cases_match_iff (labels : List RegisterAction) :
    Always registerStep CasesMatch .initial labels ↔
      Meets registerStep KeepsCases .initial labels := by
  apply always_iff_meets labels (I := Kept)
  · exact fun s a t hs hstep => kept_step hs hstep
  · intro s a t hs hmatch hstep
    rw [casesMatch_iff hs.linked] at hmatch
    rw [casesMatch_iff (kept_step hs hstep).linked]
    exact covered_step_iff hs hmatch hstep
  · refine ⟨linked_initial, ?_⟩
    intro worker lease hlease
    cases hlease
  · intro tx htx
    cases htx

/-- A payment that cannot be dispatched is escalated, retried on approval, and
escalated again: its case stays closed. -/
theorem second_escalation_uncovered :
    ¬ ∀ labels, Always registerStep CasesMatch .initial labels := by
  intro h
  let escalated : List RegisterAction :=
    [.payment (.expireLeases 0), .payment (.claim 0 25 []), .payment (.dispatch 0 false),
      .payment (.finishCycle 0)]
  let labels : List RegisterAction :=
    .payment (.initiateTransfer unnamedTransfer) :: (escalated ++
      [.payment (.claimCase 1 7 8), .payment (.resolveCase 1 7 9 .approvedRetry)] ++ escalated)
  have hrun : (run registerStep .initial labels).map (fun s =>
      (s.rows.map fun tx => (tx.id, tx.status),
        s.db.outbox.map fun row => (row.transactionId, row.status),
        s.db.cases.map ReconciliationCase.status)) =
      some ([(1, .underReview)], [(1, .deadLetter)], [.approvedRetry]) := by
    decide
  obtain ⟨s, hs, hobs⟩ := Option.map_eq_some_iff.mp hrun
  obtain ⟨hrows, hrest⟩ := Prod.mk.inj hobs
  obtain ⟨houtbox, hcases⟩ := Prod.mk.inj hrest
  obtain ⟨tx, htx, hstatus⟩ := mem_map.mp (hrows ▸ mem_cons_self)
  obtain ⟨row, hrow, hdead⟩ := mem_map.mp (houtbox ▸ mem_cons_self)
  obtain ⟨htxId, htxStatus⟩ := Prod.mk.inj hstatus
  obtain ⟨hrowId, hrowStatus⟩ := Prod.mk.inj hdead
  have hmatch := (h labels).finish hs
  obtain ⟨c, hc, _, hactive, _⟩ :=
    (hmatch tx htx).mp ⟨htxStatus, row, hrow, hrowId.trans htxId.symm, hrowStatus⟩
  have hclosed := mem_map_of_mem (f := ReconciliationCase.status) hc
  rw [hcases] at hclosed
  rcases hactive with hopen | hreview
  · rw [hopen] at hclosed
    simp at hclosed
  · rw [hreview] at hclosed
    simp at hclosed

end Bis.Payments
