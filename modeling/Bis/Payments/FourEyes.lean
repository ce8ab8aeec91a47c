import Bis.Payments.Schema

/-!
The reconciliation desk, one database transaction at a time. A resolution locks
a case with its transaction and its outbox row, runs its statements and commits
or rolls back; in between other requests go on, but none of them changes a
locked row. `payment_reconciliation_events` tells who claimed and who resolved.
Left out: the evidence references and digests, and the events of opened cases.
-/

namespace Bis.Payments

open Bis.Relation Bis.Transition List

inductive CaseEventType where
  | caseClaimed | settlementConfirmed | notSettledConfirmed | retryApproved | compensationRequired
  deriving DecidableEq

structure CaseEvent where
  transactionId : Nat
  tenantId : Int
  eventType : CaseEventType
  actorUserId : Nat
  (fromStatus toStatus : CaseStatus)
  reasonCode : String

def Resolution.eventType : Resolution → CaseEventType
  | .confirmedSettled => .settlementConfirmed
  | .confirmedNotSettled => .notSettledConfirmed
  | .approvedRetry => .retryApproved
  | .compensationRequired => .compensationRequired

/-- The reason a resolution has to name; it is stored as the rationale. -/
def Resolution.reasonCode : Resolution → String
  | .confirmedSettled => "MATCHING_SETTLEMENT_CONFIRMED"
  | .confirmedNotSettled => "NO_SETTLEMENT_CONFIRMED"
  | .approvedRetry => "NO_EXTERNAL_EFFECT_CONFIRMED"
  | .compensationRequired => "COMPENSATION_REQUIRED"

/-- A resolution transaction that holds its locks: `item` is the locked case. -/
structure Resolving where
  connection : Nat
  item : ReconciliationCase
  tenantId : Int
  actorId : Nat
  resolution : Resolution

def Resolving.event (r : Resolving) : CaseEvent :=
  { transactionId := r.item.transactionId
    tenantId := r.tenantId
    eventType := r.resolution.eventType
    actorUserId := r.actorId
    fromStatus := .underReview
    toStatus := r.resolution.caseStatus
    reasonCode := r.resolution.reasonCode }

/-! ### The statements of `resolveCase` -/

def Resolving.closes (r : Resolving) (c : ReconciliationCase) : Bool :=
  c.transactionId == r.item.transactionId && c.tenantId == r.tenantId &&
    c.status == .underReview && c.claimedBy.any fun by_ => by_ != r.actorId

def Resolving.closed (r : Resolving) (c : ReconciliationCase) : ReconciliationCase :=
  { c with status := r.resolution.caseStatus, resolvedBy := some r.actorId }

/-- The table's check `payment_reconciliation_resolution_shape`. -/
def ReconciliationCase.resolutionShape (c : ReconciliationCase) (rationale : String) : Bool :=
  c.status == .open || c.status == .underReview ||
    (c.claimedBy.isSome && c.resolvedBy.isSome && c.resolvedBy != c.claimedBy &&
      decide (20 ≤ rationale.length))

def Resolving.queues (r : Resolving) (row : OutboxRow) : Bool :=
  row.id == r.item.outboxId && row.tenantId == r.tenantId &&
    row.transactionId == r.item.transactionId && row.status == .deadLetter

/-- Each statement has to change one row; anything else throws. -/
def Database.closeStatement (db : Database) (r : Resolving) : Except String Database :=
  if (db.cases.filter r.closes).all fun c =>
      (r.closed c).resolutionShape r.resolution.reasonCode then
    if db.cases.countP r.closes = 1 then
      .ok (db.closeCase r.item r.tenantId r.actorId r.resolution)
    else .error "Payment reconciliation resolution could not be recorded."
  else .error "payment_reconciliation_resolution_shape"

def Database.moveStatement (db : Database) (r : Resolving) (status : TransactionStatus)
    (message : String) : Except String Database :=
  if db.transactions.countP (r.item.reviewed r.tenantId) = 1 then
    .ok (db.moveReviewed r.item r.tenantId status)
  else .error message

def Database.queueStatement (db : Database) (r : Resolving) (now : Nat) : Except String Database :=
  if db.outbox.countP r.queues = 1 then .ok (db.queueApproved r.item r.tenantId now)
  else .error "Payment outbox could not be requeued safely."

/-- The statements after the case is closed. -/
def Database.settleStatements (closed : Database) (r : Resolving) (now : Nat) :
    Except String Database :=
  match r.resolution with
  | .confirmedSettled =>
    closed.moveStatement r .completed "Payment transaction could not be settled safely."
  | .confirmedNotSettled =>
    closed.moveStatement r .failed "Payment transaction could not be failed safely."
  | .approvedRetry => do
    let queued ← closed.queueStatement r now
    queued.moveStatement r .pending "Payment transaction could not be requeued safely."
  | .compensationRequired => .ok closed

def Database.resolve (db : Database) (r : Resolving) (now : Nat) : Except String Database := do
  let closed ← db.closeStatement r
  closed.settleStatements r now

/-! ### Runs of the desk -/

structure Desk where
  register : Register
  resolving : List Resolving
  events : List CaseEvent

namespace Desk

def db (s : Desk) : Database := s.register.db

def clock (s : Desk) : Nat := s.register.payments.clock

def initial : Desk := { register := .initial, resolving := [], events := [] }

def withDb (s : Desk) (db : Database) : Desk :=
  { s with register := { s.register with payments := s.register.payments.withDb db } }

/-- The end of a connection's transaction. -/
def release (s : Desk) (connection : Nat) : Desk :=
  { s with resolving := s.resolving.filter fun r => r.connection != connection }

end Desk

/-- The rows that a resolution of the payment's case locks. -/
def Database.rowsOf (db : Database) (transactionId : Nat) :
    List ReconciliationCase × List Transaction × List OutboxRow :=
  (db.cases.filter fun c => c.transactionId == transactionId,
    db.transactions.filter fun tx => tx.id == transactionId,
    db.outbox.filter fun row => row.transactionId == transactionId)

/-- A request that would change a locked row waits. -/
def Desk.waits (s : Desk) (db : Database) : Bool :=
  s.resolving.any fun r =>
    decide (db.rowsOf r.item.transactionId ≠ s.db.rowsOf r.item.transactionId)

def claimable (transactionId : Nat) (tenantId : Int) (c : ReconciliationCase) : Bool :=
  c.transactionId == transactionId && c.tenantId == tenantId && c.status == .open &&
    c.claimedBy.isNone

inductive DeskAction where
  /-- `claim`; `stored` is whether the transaction goes through. -/
  | claim (transactionId : Nat) (tenantId : Int) (actorId : Nat) (stored : Bool)
  /-- `resolveCase` up to its locks; a case that is not available is rejected. -/
  | lock (connection transactionId : Nat) (tenantId : Int) (actorId : Nat)
      (resolution : Resolution)
  | commit (connection : Nat)
  | rollback (connection : Nat)
  /-- Everything that is not the desk's. -/
  | other (action : RegisterAction)

def deskStep : Step Desk DeskAction
  | s, .claim transactionId tenantId actorId stored =>
    if stored && s.db.cases.any (claimable transactionId tenantId) then
      let claimed := s.withDb (s.db.claimCase transactionId tenantId actorId)
      some
        { claimed with
          events := s.events ++
            [{ transactionId
               tenantId
               eventType := .caseClaimed
               actorUserId := actorId
               fromStatus := .open
               toStatus := .underReview
               reasonCode := "INDEPENDENT_REVIEW_CLAIMED" }] }
    else some s
  | s, .lock connection transactionId tenantId actorId resolution =>
    if s.resolving.any fun r =>
        r.connection == connection || r.item.transactionId == transactionId then none
    else
      match s.db.lockClaimedCase transactionId tenantId actorId with
      | none => some s
      | some item =>
        some
          { s with
            resolving := ⟨connection, item, tenantId, actorId, resolution⟩ :: s.resolving }
  | s, .commit connection =>
    match s.resolving.find? fun r => r.connection == connection with
    | none => none
    | some r =>
      match s.db.resolve r s.clock with
      | .error _ => some (s.release connection)
      | .ok db =>
        some { (s.withDb db).release connection with events := s.events ++ [r.event] }
  | s, .rollback connection =>
    if s.resolving.any fun r => r.connection == connection then some (s.release connection)
    else none
  | s, .other action =>
    if action.ofDesk then none
    else
      match registerStep s.register action with
      | none => none
      | some register => if s.waits register.db then none else some { s with register }

/-! ### What the desk promises -/

/-- What a resolution makes of the payment. -/
def Resolution.settle : Resolution → Transaction → Transaction
  | .confirmedSettled, tx => tx.withStatus .completed
  | .confirmedNotSettled, tx => tx.withStatus .failed
  | .approvedRetry, tx => tx.withStatus .pending
  | .compensationRequired, tx => tx

/-- What it makes of the outbox row. -/
def Resolution.requeue : Resolution → Nat → OutboxRow → OutboxRow
  | .approvedRetry, now, row =>
    { row with
      status := .queued
      attempts := 0
      leasedAt := none
      nextAttemptAt := now
      lastErrorCode := some "HUMAN_APPROVED_DETERMINISTIC_RETRY" }
  | _, _, row => row

/-- The case, its transaction and its outbox row change together and agree, and
no other row changes. -/
structure ResolvedTogether (db db' : Database) (r : Resolving) (now : Nat) : Prop where
  reviewed : r.item.status = .underReview
  independent : ∃ claimer, r.item.claimedBy = some claimer ∧ claimer ≠ r.actorId
  case_ : Replaced ReconciliationCase.transactionId r.item (r.closed r.item) db.cases db'.cases
  transaction : ∃ tx, tx.id = r.item.transactionId ∧ tx.status = .underReview ∧
    Replaced Transaction.id tx (r.resolution.settle tx) db.transactions db'.transactions
  outbox : ∃ row, row.id = r.item.outboxId ∧ row.transactionId = r.item.transactionId ∧
    row.status = .deadLetter ∧
      Replaced OutboxRow.id row (r.resolution.requeue now row) db.outbox db'.outbox

def CaseEvent.decides (event : CaseEvent) : Bool := event.eventType != .caseClaimed

/-- Who claimed a case has not resolved it, and it was resolved once. -/
structure FourEyes (s : Desk) : Prop where
  independent : ∀ claim ∈ s.events, ∀ decision ∈ s.events, ¬ claim.decides → decision.decides →
    claim.transactionId = decision.transactionId → claim.actorUserId ≠ decision.actorUserId
  officers : ∀ c ∈ s.db.cases, c.status ≠ .open → c.status ≠ .underReview →
    ∃ claimer resolver, c.claimedBy = some claimer ∧ c.resolvedBy = some resolver ∧
      resolver ≠ claimer
  once : ((s.events.filter CaseEvent.decides).map CaseEvent.transactionId).Nodup
  final : ∀ decision ∈ s.events, decision.decides → ∃ c ∈ s.db.cases,
    c.transactionId = decision.transactionId ∧ c.status = decision.toStatus ∧
      c.resolvedBy = some decision.actorUserId

/-- Only a commit resolves a case, and it changes the three rows together;
requests that are rejected or fail leave every row as it is. -/
def Agrees (s : Desk) (action : DeskAction) : Prop :=
  ∀ t, deskStep s action = some t →
    match action with
    | .claim _ _ _ _ => t.db.transactions = s.db.transactions ∧ t.db.outbox = s.db.outbox
    | .lock _ _ _ _ _ | .rollback _ => t.db = s.db ∧ t.events = s.events
    | .commit connection =>
      ∃ r ∈ s.resolving, r.connection = connection ∧ ResolvedTogether s.db t.db r s.clock
    | .other _ => ∃ new, t.db.cases = s.db.cases ++ new ∧ ∀ c ∈ new, Opened c

section Statements

variable {db : Database} {r : Resolving}

/-- Every reason is long enough to be a rationale. -/
theorem reasonCode_length (resolution : Resolution) : 20 ≤ resolution.reasonCode.length := by
  cases resolution with
  | confirmedSettled | confirmedNotSettled | approvedRetry | compensationRequired => decide

variable {c : ReconciliationCase} {db' : Database}

theorem closes_iff :
    r.closes c ↔ c.transactionId = r.item.transactionId ∧ c.tenantId = r.tenantId ∧
      c.status = .underReview ∧ ∃ claimer, c.claimedBy = some claimer ∧ claimer ≠ r.actorId := by
  simp [Resolving.closes, Option.any_eq_true, and_assoc]

theorem resolutionShape_closed (h : r.closes c) :
    (r.closed c).resolutionShape r.resolution.reasonCode := by
  obtain ⟨_, _, _, claimer, hclaimer, hother⟩ := closes_iff.mp h
  have hlength := reasonCode_length r.resolution
  simp [ReconciliationCase.resolutionShape, Resolving.closed, hclaimer, hother.symm, hlength]

/-- The locked case is the one that is closed. -/
theorem closeStatement_spec (hlinked : Linked db) (h : Lockable db r.tenantId r.actorId r.item) :
    db.closeStatement r = .ok (db.closeCase r.item r.tenantId r.actorId r.resolution) ∧
      Replaced ReconciliationCase.transactionId r.item (r.closed r.item) db.cases
        (db.closeCase r.item r.tenantId r.actorId r.resolution).cases := by
  have hcloses : r.closes r.item := closes_iff.mpr ⟨rfl, h.tenant, h.status, h.claimed⟩
  have honly : ∀ other ∈ db.cases, r.closes other → other.transactionId = r.item.transactionId :=
    fun other _ hother => (closes_iff.mp hother).1
  constructor
  · have hshape : ((db.cases.filter r.closes).all fun c =>
        (r.closed c).resolutionShape r.resolution.reasonCode) = true := by
      rw [all_eq_true]
      intro c hc
      exact resolutionShape_closed (mem_filter.mp hc).2
    unfold Database.closeStatement
    rw [if_pos hshape, if_pos (countP_of_key hlinked.caseTransactions h.mem hcloses honly)]
  · exact replaced_updateWhere hlinked.caseTransactions h.mem hcloses honly rfl

theorem reviewed_iff {tenantId : Int} {tx : Transaction} :
    c.reviewed tenantId tx ↔
      tx.id = c.transactionId ∧ tx.tenantId = some tenantId ∧ tx.status = .underReview := by
  simp [ReconciliationCase.reviewed, and_assoc]

theorem moveStatement_spec (hkeys : (db.transactions.map Transaction.id).Nodup)
    {tx : Transaction} (htx : tx ∈ db.transactions) (hreviewed : r.item.reviewed r.tenantId tx)
    (status : TransactionStatus) (message : String) :
    db.moveStatement r status message = .ok (db.moveReviewed r.item r.tenantId status) ∧
      Replaced Transaction.id tx (tx.withStatus status) db.transactions
        (db.moveReviewed r.item r.tenantId status).transactions := by
  have honly : ∀ other ∈ db.transactions, r.item.reviewed r.tenantId other → other.id = tx.id :=
    fun other _ hother => (reviewed_iff.mp hother).1.trans (reviewed_iff.mp hreviewed).1.symm
  constructor
  · unfold Database.moveStatement
    rw [if_pos (countP_of_key hkeys htx hreviewed honly)]
  · exact replaced_updateWhere (f := fun tx => tx.withStatus status) hkeys htx hreviewed honly rfl

theorem queueStatement_spec (hkeys : (db.outbox.map OutboxRow.id).Nodup) {row : OutboxRow}
    (hrow : row ∈ db.outbox) (hqueues : r.queues row) (now : Nat) :
    db.queueStatement r now = .ok (db.queueApproved r.item r.tenantId now) ∧
      Replaced OutboxRow.id row (Resolution.approvedRetry.requeue now row) db.outbox
        (db.queueApproved r.item r.tenantId now).outbox := by
  have hid : ∀ other, r.queues other → other.id = r.item.outboxId := by
    intro other hother
    simp only [Resolving.queues, Bool.and_eq_true, beq_iff_eq] at hother
    exact hother.1.1.1
  have honly : ∀ other ∈ db.outbox, r.queues other → other.id = row.id :=
    fun other _ hother => (hid other hother).trans (hid row hqueues).symm
  constructor
  · unfold Database.queueStatement
    rw [if_pos (countP_of_key hkeys hrow hqueues honly)]
  · exact replaced_updateWhere hkeys hrow hqueues honly rfl

theorem settleStatements_spec (htransactions : (db.transactions.map Transaction.id).Nodup)
    (houtbox : (db.outbox.map OutboxRow.id).Nodup) {tx : Transaction} (htx : tx ∈ db.transactions)
    (hreviewed : r.item.reviewed r.tenantId tx) {row : OutboxRow} (hrow : row ∈ db.outbox)
    (hqueues : r.queues row) (now : Nat) :
    ∃ db', db.settleStatements r now = .ok db' ∧ db'.cases = db.cases ∧
      Replaced Transaction.id tx (r.resolution.settle tx) db.transactions db'.transactions ∧
      Replaced OutboxRow.id row (r.resolution.requeue now row) db.outbox db'.outbox := by
  have hsameRow := Replaced.refl houtbox hrow
  unfold Database.settleStatements
  cases r.resolution with
  | confirmedSettled =>
    obtain ⟨hmoved, htransaction⟩ := moveStatement_spec htransactions htx hreviewed .completed
      "Payment transaction could not be settled safely."
    exact ⟨_, hmoved, rfl, htransaction, hsameRow⟩
  | confirmedNotSettled =>
    obtain ⟨hmoved, htransaction⟩ := moveStatement_spec htransactions htx hreviewed .failed
      "Payment transaction could not be failed safely."
    exact ⟨_, hmoved, rfl, htransaction, hsameRow⟩
  | approvedRetry =>
    obtain ⟨hqueued, hrequeued⟩ := queueStatement_spec houtbox hrow hqueues now
    let queued := db.queueApproved r.item r.tenantId now
    obtain ⟨hmoved, htransaction⟩ := @moveStatement_spec queued r htransactions tx htx hreviewed
      .pending "Payment transaction could not be requeued safely."
    refine ⟨queued.moveReviewed r.item r.tenantId .pending, ?_, rfl, htransaction, hrequeued⟩
    simp only [hqueued]
    exact hmoved
  | compensationRequired => exact ⟨db, rfl, rfl, Replaced.refl htransactions htx, hsameRow⟩

/-- A resolution that holds its locks goes through. -/
theorem resolve_spec (hlinked : Linked db) (h : Lockable db r.tenantId r.actorId r.item)
    (now : Nat) : ∃ db', db.resolve r now = .ok db' ∧ ResolvedTogether db db' r now := by
  obtain ⟨hclose, hcase⟩ := closeStatement_spec hlinked h
  obtain ⟨tx, htx, htxId, htxTenant, htxStatus⟩ := h.transaction
  obtain ⟨row, hrow, hrowId, hrowTx, hrowTenant, hrowStatus⟩ := h.outbox
  rw [h.tenant] at htxTenant hrowTenant
  have hreviewed : r.item.reviewed r.tenantId tx := reviewed_iff.mpr ⟨htxId, htxTenant, htxStatus⟩
  have hqueues : r.queues row := by
    simp [Resolving.queues, hrowId, hrowTx, hrowTenant, hrowStatus]
  let closed := db.closeCase r.item r.tenantId r.actorId r.resolution
  obtain ⟨db', hsettle, hcases, htransaction, houtbox⟩ := @settleStatements_spec closed r
    hlinked.transactionIds hlinked.outboxIds tx htx hreviewed row hrow hqueues now
  refine ⟨db', ?_, h.status, h.claimed, ?_, ⟨tx, htxId, htxStatus, htransaction⟩,
    ⟨row, hrowId, hrowTx, hrowStatus, houtbox⟩⟩
  · unfold Database.resolve
    rw [hclose]
    exact hsettle
  · rw [hcases]
    exact hcase

theorem moveStatement_ok {status : TransactionStatus} {message : String}
    (h : db.moveStatement r status message = .ok db') :
    db' = db.moveReviewed r.item r.tenantId status := by
  unfold Database.moveStatement at h
  split at h
  · exact (Except.ok.inj h).symm
  · cases h

theorem queueStatement_ok {now : Nat} (h : db.queueStatement r now = .ok db') :
    db' = db.queueApproved r.item r.tenantId now := by
  unfold Database.queueStatement at h
  split at h
  · exact (Except.ok.inj h).symm
  · cases h

/-- The statements together are the atomic resolution. -/
theorem resolve_eq_resolveCase {now : Nat} (hlinked : Linked db)
    (h : Lockable db r.tenantId r.actorId r.item) (hresolve : db.resolve r now = .ok db') :
    db' = db.resolveCase r.item.transactionId r.tenantId r.actorId r.resolution now := by
  have hlock : db.lockClaimedCase r.item.transactionId r.tenantId r.actorId = some r.item :=
    (lockClaimedCase_iff hlinked).mpr ⟨rfl, h⟩
  unfold Database.resolve at hresolve
  rw [(closeStatement_spec hlinked h).1] at hresolve
  change Database.settleStatements _ r now = .ok db' at hresolve
  unfold Database.settleStatements at hresolve
  unfold Database.resolveCase
  rw [hlock]
  dsimp only
  cases hresolution : r.resolution with
  | confirmedSettled | confirmedNotSettled =>
    rw [hresolution] at hresolve
    exact moveStatement_ok hresolve
  | approvedRetry =>
    rw [hresolution] at hresolve
    cases hqueue : (db.closeCase r.item r.tenantId r.actorId .approvedRetry).queueStatement r
        now with
    | error message =>
      simp only [hqueue] at hresolve
      cases hresolve
    | ok queued =>
      simp only [hqueue] at hresolve
      rw [← queueStatement_ok hqueue]
      exact moveStatement_ok hresolve
  | compensationRequired =>
    rw [hresolution] at hresolve
    exact (Except.ok.inj hresolve).symm

end Statements

/-! ### Locks -/

/-- Transactions in flight hold their rows alone, and what they have read still
stands. -/
structure Locked (s : Desk) : Prop where
  connections : (s.resolving.map Resolving.connection).Nodup
  cases : (s.resolving.map fun r => r.item.transactionId).Nodup
  lockable : ∀ r ∈ s.resolving, Lockable s.db r.tenantId r.actorId r.item

section Locks

variable {db db' : Database} {c : ReconciliationCase}

theorem Lockable.of_rows {tenantId : Int} {actorId : Nat} (h : Lockable db tenantId actorId c)
    (hrows : db'.rowsOf c.transactionId = db.rowsOf c.transactionId) :
    Lockable db' tenantId actorId c := by
  obtain ⟨hcases, hrest⟩ := Prod.mk.inj hrows
  obtain ⟨htransactions, houtbox⟩ := Prod.mk.inj hrest
  obtain ⟨tx, htx, htxId, htxTenant, htxStatus⟩ := h.transaction
  obtain ⟨row, hrow, hrowId, hrowTx, hrowTenant, hrowStatus⟩ := h.outbox
  have hc := mem_of_filter_eq hcases h.mem (beq_self_eq_true c.transactionId)
  have htx' := mem_of_filter_eq htransactions htx (beq_iff_eq.mpr htxId)
  have hrow' := mem_of_filter_eq houtbox hrow (beq_iff_eq.mpr hrowTx)
  exact ⟨hc, h.tenant, h.status, h.claimed, ⟨tx, htx', htxId, htxTenant, htxStatus⟩,
    ⟨row, hrow', hrowId, hrowTx, hrowTenant, hrowStatus⟩⟩

/-- A claim takes an open case, and a locked one is under review. -/
theorem Lockable.claimCase {tenantId : Int} {actorId : Nat} (h : Lockable db tenantId actorId c)
    (transactionId : Nat) (tenant : Int) (actor : Nat) :
    Lockable (db.claimCase transactionId tenant actor) tenantId actorId c where
  mem := by
    apply mem_updateWhere_of_not h.mem
    simp [h.status]
  tenant := h.tenant
  status := h.status
  claimed := h.claimed
  transaction := h.transaction
  outbox := h.outbox

/-- A resolution leaves the rows of every other case alone. -/
theorem Lockable.resolved {r r' : Resolving} {now : Nat} (hlinked : Linked db)
    (h : Lockable db r'.tenantId r'.actorId r'.item)
    (hresolved : ResolvedTogether db db' r now)
    (hother : r'.item.transactionId ≠ r.item.transactionId) :
    Lockable db' r'.tenantId r'.actorId r'.item := by
  obtain ⟨tx, htx, htxId, htxTenant, htxStatus⟩ := h.transaction
  obtain ⟨row, hrow, hrowId, hrowTx, hrowTenant, hrowStatus⟩ := h.outbox
  obtain ⟨moved, hmovedId, _, hmoved⟩ := hresolved.transaction
  obtain ⟨queued, _, hqueuedTx, _, hqueued⟩ := hresolved.outbox
  have hrowNe : row.id ≠ queued.id := by
    intro hsame
    obtain rfl := inj_on_of_nodup_map hlinked.outboxIds hrow hqueued.mem hsame
    exact hother (hrowTx.symm.trans hqueuedTx)
  have htxNe : tx.id ≠ moved.id := by
    rw [htxId, hmovedId]
    exact hother
  exact ⟨hresolved.case_.mem_iff.mpr (.inr ⟨h.mem, hother⟩), h.tenant, h.status, h.claimed,
    ⟨tx, hmoved.mem_iff.mpr (.inr ⟨htx, htxNe⟩), htxId, htxTenant, htxStatus⟩,
    ⟨row, hqueued.mem_iff.mpr (.inr ⟨hrow, hrowNe⟩), hrowId, hrowTx, hrowTenant, hrowStatus⟩⟩

end Locks

/-! ### Events -/

/-- The events tell what the cases say. -/
structure Recorded (db : Database) (events : List CaseEvent) : Prop where
  claims : ∀ event ∈ events, ¬ event.decides → ∃ c ∈ db.cases,
    c.transactionId = event.transactionId ∧ c.claimedBy = some event.actorUserId
  decisions : ∀ event ∈ events, event.decides → ∃ c ∈ db.cases,
    c.transactionId = event.transactionId ∧ c.resolvedBy = some event.actorUserId ∧
      c.status = event.toStatus ∧ c.status ≠ .open ∧ c.status ≠ .underReview
  once : ((events.filter CaseEvent.decides).map CaseEvent.transactionId).Nodup

section Events

variable {db db' : Database} {events : List CaseEvent}

/-- Open cases may be added, and cases may change before anything was recorded. -/
theorem Recorded.mono (h : Recorded db events)
    (hclaimed : ∀ c ∈ db.cases, ∀ actor, c.claimedBy = some actor → ∃ c' ∈ db'.cases,
      c'.transactionId = c.transactionId ∧ c'.claimedBy = some actor)
    (hclosed : ∀ c ∈ db.cases, c.status ≠ .open → c.status ≠ .underReview → c ∈ db'.cases) :
    Recorded db' events where
  claims event hevent hclaim := by
    obtain ⟨c, hc, hid, hactor⟩ := h.claims event hevent hclaim
    obtain ⟨c', hc', hid', hactor'⟩ := hclaimed c hc _ hactor
    exact ⟨c', hc', hid'.trans hid, hactor'⟩
  decisions event hevent hdecides := by
    obtain ⟨c, hc, hid, hactor, hstatus, hopen, hreview⟩ := h.decisions event hevent hdecides
    exact ⟨c, hclosed c hc hopen hreview, hid, hactor, hstatus, hopen, hreview⟩
  once := h.once

theorem recorded_append (h : Recorded db events) {new : List ReconciliationCase}
    (hcases : db'.cases = db.cases ++ new) : Recorded db' events := by
  have hkept : ∀ c ∈ db.cases, c ∈ db'.cases := by
    intro c hc
    rw [hcases]
    exact mem_append_left _ hc
  apply h.mono
  · exact fun c hc actor hactor => ⟨c, hkept c hc, rfl, hactor⟩
  · exact fun c hc _ _ => hkept c hc

theorem recorded_claim (h : Recorded db events) {transactionId : Nat} {tenantId : Int}
    {actorId : Nat} {event : CaseEvent} (hid : event.transactionId = transactionId)
    (hactor : event.actorUserId = actorId) (hclaim : ¬ event.decides)
    (hany : db.cases.any (claimable transactionId tenantId)) :
    Recorded (db.claimCase transactionId tenantId actorId) (events ++ [event]) := by
  have hkept : Recorded (db.claimCase transactionId tenantId actorId) events := by
    apply h.mono
    · intro c hc actor hclaimed
      refine ⟨c, mem_updateWhere_of_not hc ?_, rfl, hclaimed⟩
      simp [hclaimed]
    · intro c hc hopen _
      apply mem_updateWhere_of_not hc
      simp [hopen]
  obtain ⟨c, hc, hclaimable⟩ := any_eq_true.mp hany
  refine ⟨?_, ?_, ?_⟩
  · intro other hother hnot
    rcases mem_concat.mp hother with hold | rfl
    · exact hkept.claims other hold hnot
    · refine ⟨_, mem_updateWhere.mpr (.inl ⟨c, hc, hclaimable, rfl⟩), ?_, congrArg some hactor.symm⟩
      simp only [claimable, Bool.and_eq_true, beq_iff_eq] at hclaimable
      exact hclaimable.1.1.1.trans hid.symm
  · intro other hother hdecides
    rcases mem_concat.mp hother with hold | rfl
    · exact hkept.decisions other hold hdecides
    · exact (hclaim hdecides).elim
  · rw [filter_append, filter_cons_of_neg hclaim]
    simpa using h.once

theorem decides_event (r : Resolving) : r.event.decides := by
  unfold Resolving.event
  cases r.resolution with
  | confirmedSettled | confirmedNotSettled | approvedRetry | compensationRequired => rfl

theorem recorded_resolve (hlinked : Linked db) (h : Recorded db events) {r : Resolving} {now : Nat}
    (hresolved : ResolvedTogether db db' r now) : Recorded db' (events ++ [r.event]) := by
  have hmem : r.closed r.item ∈ db'.cases := hresolved.case_.mem_iff.mpr (.inl rfl)
  have hkept : Recorded db' events := by
    apply h.mono
    · intro c hc actor hactor
      by_cases hsame : c.transactionId = r.item.transactionId
      · obtain rfl := inj_on_of_nodup_map hlinked.caseTransactions hc hresolved.case_.mem hsame
        exact ⟨r.closed r.item, hmem, rfl, hactor⟩
      · exact ⟨c, hresolved.case_.mem_iff.mpr (.inr ⟨hc, hsame⟩), rfl, hactor⟩
    · intro c hc _ hreview
      refine hresolved.case_.mem_iff.mpr (.inr ⟨hc, ?_⟩)
      intro hsame
      obtain rfl := inj_on_of_nodup_map hlinked.caseTransactions hc hresolved.case_.mem hsame
      exact hreview hresolved.reviewed
  refine ⟨?_, ?_, ?_⟩
  · intro other hother hnot
    rcases mem_concat.mp hother with hold | rfl
    · exact hkept.claims other hold hnot
    · exact (hnot (decides_event r)).elim
  · intro other hother hdecides
    rcases mem_concat.mp hother with hold | rfl
    · exact hkept.decisions other hold hdecides
    · exact ⟨r.closed r.item, hmem, rfl, rfl, rfl, caseStatus_closed r.resolution⟩
  · rw [filter_append, filter_cons_of_pos (decides_event r), map_append]
    refine nodup_append_fresh h.once ?_
    -- a decided case is closed, and this one is still under review
    intro hclash
    obtain ⟨other, hother, hid⟩ := mem_map.mp hclash
    obtain ⟨hevent, hdecides⟩ := mem_filter.mp hother
    obtain ⟨c, hc, hcId, _, _, _, hreview⟩ := h.decisions other hevent hdecides
    obtain rfl := inj_on_of_nodup_map hlinked.caseTransactions hc hresolved.case_.mem
      (hcId.trans hid)
    exact hreview hresolved.reviewed

end Events

/-! ### Steps -/

/-- What every step of the desk keeps. -/
structure DeskSound (s : Desk) : Prop where
  linked : Linked s.db
  locked : Locked s
  recorded : Recorded s.db s.events

section Steps

variable {s t : Desk} {connection : Nat}

theorem mem_release {r : Resolving} :
    r ∈ (s.release connection).resolving ↔ r ∈ s.resolving ∧ r.connection ≠ connection := by
  simp [Desk.release, mem_filter]

theorem locked_release (h : Locked s) (connection : Nat) : Locked (s.release connection) where
  connections := h.connections.sublist (filter_sublist.map _)
  cases := h.cases.sublist (filter_sublist.map _)
  lockable r hr := h.lockable r (mem_release.mp hr).1

variable {transactionId actorId : Nat}

theorem sound_claim (h : DeskSound s) {tenantId : Int} {stored : Bool}
    (hstep : deskStep s (.claim transactionId tenantId actorId stored) = some t) :
    DeskSound t ∧ t.db.transactions = s.db.transactions ∧ t.db.outbox = s.db.outbox := by
  simp only [deskStep] at hstep
  split at hstep
  next hany =>
    cases hstep
    refine ⟨⟨linked_claimCase h.linked transactionId tenantId actorId, ?_, ?_⟩, rfl, rfl⟩
    · exact ⟨h.locked.connections, h.locked.cases, fun r hr =>
        (h.locked.lockable r hr).claimCase transactionId tenantId actorId⟩
    · rw [Bool.and_eq_true] at hany
      exact recorded_claim h.recorded rfl rfl Bool.false_ne_true hany.2
  next =>
    cases hstep
    exact ⟨h, rfl, rfl⟩

theorem sound_lock (h : DeskSound s) {tenantId : Int} {resolution : Resolution}
    (hstep : deskStep s (.lock connection transactionId tenantId actorId resolution) = some t) :
    DeskSound t ∧ t.db = s.db ∧ t.events = s.events := by
  simp only [deskStep] at hstep
  split at hstep
  next => cases hstep
  next hfree =>
    split at hstep
    next =>
      cases hstep
      exact ⟨h, rfl, rfl⟩
    next item hlock =>
      cases hstep
      obtain ⟨hid, hlockable⟩ := (lockClaimedCase_iff h.linked).mp hlock
      have hnew : ∀ r ∈ s.resolving,
          r.connection ≠ connection ∧ r.item.transactionId ≠ transactionId := by
        simpa using hfree
      refine ⟨⟨h.linked, ⟨?_, ?_, ?_⟩, h.recorded⟩, rfl, rfl⟩
      · refine nodup_cons.mpr ⟨?_, h.locked.connections⟩
        intro hclash
        obtain ⟨r, hr, hsame⟩ := mem_map.mp hclash
        exact (hnew r hr).1 hsame
      · refine nodup_cons.mpr ⟨?_, h.locked.cases⟩
        intro hclash
        obtain ⟨r, hr, hsame⟩ := mem_map.mp hclash
        exact (hnew r hr).2 (hsame.trans hid)
      · intro r hr
        rcases mem_cons.mp hr with rfl | hold
        · exact hlockable
        · exact h.locked.lockable r hold

theorem sound_commit (h : DeskSound s) (hstep : deskStep s (.commit connection) = some t) :
    DeskSound t ∧
      ∃ r ∈ s.resolving, r.connection = connection ∧ ResolvedTogether s.db t.db r s.clock := by
  simp only [deskStep] at hstep
  split at hstep
  next => cases hstep
  next r hfind =>
    have hr := mem_of_find?_eq_some hfind
    have hkey := find?_some hfind
    have hconnection : r.connection = connection := eq_of_beq hkey
    have hlockable := h.locked.lockable r hr
    obtain ⟨db, hresolve, htogether⟩ := resolve_spec h.linked hlockable s.clock
    rw [hresolve] at hstep
    cases hstep
    have hlinked : Linked db := by
      rw [resolve_eq_resolveCase h.linked hlockable hresolve]
      exact linked_resolveCase h.linked _ _ _ _ _
    refine ⟨⟨hlinked, ⟨?_, ?_, ?_⟩, recorded_resolve h.linked h.recorded htogether⟩,
      r, hr, hconnection, htogether⟩
    · exact (locked_release h.locked connection).connections
    · exact (locked_release h.locked connection).cases
    · intro other hother
      obtain ⟨hmem, hne⟩ := mem_release.mp hother
      refine (h.locked.lockable other hmem).resolved h.linked htogether ?_
      intro hsame
      obtain rfl := inj_on_of_nodup_map h.locked.cases hmem hr hsame
      exact hne hconnection

theorem sound_rollback (h : DeskSound s) (hstep : deskStep s (.rollback connection) = some t) :
    DeskSound t ∧ t.db = s.db ∧ t.events = s.events := by
  simp only [deskStep] at hstep
  split at hstep
  · cases hstep
    exact ⟨⟨h.linked, locked_release h.locked connection, h.recorded⟩, rfl, rfl⟩
  · cases hstep

theorem sound_other (h : DeskSound s) {action : RegisterAction}
    (hstep : deskStep s (.other action) = some t) :
    DeskSound t ∧ ∃ new, t.db.cases = s.db.cases ++ new ∧ ∀ c ∈ new, Opened c := by
  simp only [deskStep] at hstep
  split at hstep
  next => cases hstep
  next hdesk =>
    split at hstep
    next => cases hstep
    next register hregister =>
      split at hstep
      next => cases hstep
      next hfree =>
        cases hstep
        have hwrites := writes_of_registerStep (by simpa using hdesk) hregister
        obtain ⟨new, hcases, hopened⟩ := cases_of_writes hwrites
        refine ⟨⟨h.linked.writes hwrites, ⟨h.locked.connections, h.locked.cases, ?_⟩,
          recorded_append h.recorded hcases⟩, new, hcases, hopened⟩
        intro r hr
        apply (h.locked.lockable r hr).of_rows
        have hkeeps : ∀ r ∈ s.resolving,
            register.db.rowsOf r.item.transactionId = s.db.rowsOf r.item.transactionId := by
          simpa [Desk.waits] using hfree
        exact hkeeps r hr

theorem sound_step {action : DeskAction} (h : DeskSound s) (hstep : deskStep s action = some t) :
    DeskSound t := by
  cases action with
  | claim transactionId tenantId actorId stored => exact (sound_claim h hstep).1
  | lock connection transactionId tenantId actorId resolution => exact (sound_lock h hstep).1
  | commit connection => exact (sound_commit h hstep).1
  | rollback connection => exact (sound_rollback h hstep).1
  | other action => exact (sound_other h hstep).1

theorem agrees_of_sound (h : DeskSound s) (action : DeskAction) : Agrees s action := by
  intro t hstep
  cases action with
  | claim transactionId tenantId actorId stored => exact (sound_claim h hstep).2
  | lock connection transactionId tenantId actorId resolution => exact (sound_lock h hstep).2
  | commit connection => exact (sound_commit h hstep).2
  | rollback connection => exact (sound_rollback h hstep).2
  | other action => exact (sound_other h hstep).2

theorem sound_initial : DeskSound .initial where
  linked := linked_initial
  locked := by
    refine ⟨nodup_nil, nodup_nil, ?_⟩
    intro r hr
    cases hr
  recorded := by
    refine ⟨?_, ?_, nodup_nil⟩
    · intro event hevent
      cases hevent
    · intro event hevent
      cases hevent

theorem fourEyes_of_sound (h : DeskSound s) : FourEyes s where
  independent claim hclaim decision hdecision hnot hdecides hsame := by
    obtain ⟨c, hc, hid, hclaimer⟩ := h.recorded.claims claim hclaim hnot
    obtain ⟨c', hc', hid', hresolver, _, hopen, hreview⟩ :=
      h.recorded.decisions decision hdecision hdecides
    obtain rfl := inj_on_of_nodup_map h.linked.caseTransactions hc hc'
      (hid.trans (hsame.trans hid'.symm))
    obtain ⟨claimer, resolver, hclaimed, hresolved, hne⟩ :=
      (h.linked.shaped c hc).resolved hopen hreview
    rw [hclaimed] at hclaimer
    rw [hresolved] at hresolver
    rw [← Option.some.inj hclaimer, ← Option.some.inj hresolver]
    exact hne.symm
  officers c hc hopen hreview := (h.linked.shaped c hc).resolved hopen hreview
  once := h.recorded.once
  final decision hdecision hdecides := by
    obtain ⟨c, hc, hid, hresolver, hstatus, _⟩ := h.recorded.decisions decision hdecision hdecides
    exact ⟨c, hc, hid, hstatus, hresolver⟩

end Steps

/-- In every run of the desk the officer who resolves a case is not the one who
claimed it, a case is resolved at most once, and each resolution changes the
case, the transaction and the outbox row together. -/
theorem cases_resolved_together (labels : List DeskAction) :
    Always deskStep FourEyes .initial labels ∧ Meets deskStep Agrees .initial labels := by
  constructor
  · apply Always.mono (I := DeskSound) fun s => fourEyes_of_sound
    exact always_of_step labels (fun s a t => sound_step) sound_initial
  · apply meets_of_invariant (I := DeskSound) (C := fun _ _ => True)
    · exact fun s a t hs _ => sound_step hs
    · exact fun s a hs _ => agrees_of_sound hs a
    · exact sound_initial
    · exact Meets.of_forall fun a _ s => trivial

/-- Keys are unique, tenants agree, and the resolutions in flight are on different cases. -/
theorem desk_linked (labels : List DeskAction) :
    Always deskStep (fun s => Linked s.db ∧ Locked s) .initial labels :=
  (always_of_step labels (fun _ _ _ => sound_step) sound_initial).mono fun _ h =>
    ⟨h.linked, h.locked⟩

end Bis.Payments
