import Bis.Relation.Keyed
import Mathlib.Data.List.Sort

/-!
Adverse-action cases, the deliveries of their notices, the outbox of the notices
and the audit events, with the mutations of the compliance workflow on them. Each
mutation works on the rows its transaction has locked. `Except` carries the
message with which it is refused; a violated check of a table is such a refusal.

A reference and the serial number of its row are one key here, UUIDs are numbers
that the caller draws, and instants are microseconds of the database's clock; a
transaction that has to wait is taken to start when it need not wait. What a mutation reads elsewhere (the
order with its snapshot and consent, the template, the open disputes) comes with
its input. Left out are templates, items, payloads and the attestations, which no
later step reads.
-/

namespace Bis.Adverse

open Bis.Relation

inductive NoticeType where
  | preAdverse | finalAdverse | undeliverable | disputeHold | disputeResult
  deriving DecidableEq

inductive Channel where
  | portal | email | postal | manual
  deriving DecidableEq

inductive CaseStatus where
  | preNoticeQueued | preNoticeDelivered | waiting | pausedForDispute | finalNoticeQueued
  | completed | undeliverable | manualDelivery | canceled
  deriving DecidableEq

namespace CaseStatus

/-- The statuses that a dispute pauses. -/
def active : CaseStatus → Bool
  | .preNoticeQueued | .preNoticeDelivered | .waiting | .finalNoticeQueued => true
  | _ => false

def terminal : CaseStatus → Bool
  | .completed | .canceled => true
  | _ => false

end CaseStatus

structure AdverseCase where
  caseRef : String
  tenantId : Int
  (screeningOrderId candidateId : Nat)
  status : CaseStatus
  waitingPeriodDays : Nat
  finalNoticeEligibleAt : Option Nat
  pausedFromStatus : Option CaseStatus
  pausedAt : Option Nat

/-- The checks on the pause columns. -/
def AdverseCase.checks (row : AdverseCase) : Bool :=
  (row.status == .pausedForDispute) == row.pausedAt.isSome &&
    row.pausedFromStatus.all CaseStatus.active

inductive DeliveryStatus where
  | queued | sent | delivered | opened | undeliverable | manualRequired | canceled
  deriving DecidableEq

structure Delivery where
  id : Nat
  caseRef : String
  noticeType : NoticeType
  channel : Channel
  status : DeliveryStatus
  createdAt : Nat

inductive OutboxState where
  | pending | leased | delivered | deadLetter | cancelled
  deriving DecidableEq

structure NoticeOutboxRow where
  id : Nat
  caseRef : String
  deliveryId : Nat
  state : OutboxState
  (attemptCount availableAt : Nat)
  leasedAt : Option Nat
  createdAt : Nat

inductive EventType where
  | created | preNoticeQueued | preNoticeDelivered | pausedForDispute | resumed | canceled
  | finalNoticeQueued | finalNoticeDelivered | manualDeliveryRequired | manualDeliveryResolved
  | completed
  deriving DecidableEq

structure AdverseEvent where
  caseRef : String
  eventType : EventType
  createdAt : Nat

/-- Events are kept with the latest in front. -/
structure Tables where
  cases : List AdverseCase
  deliveries : List Delivery
  outbox : List NoticeOutboxRow
  events : List AdverseEvent

/-! ### What is written to a case -/

def daysToMicroseconds (days : Nat) : Nat := days * 24 * 60 * 60 * 1000000

namespace AdverseCase

def withStatus (status : CaseStatus) (row : AdverseCase) : AdverseCase := { row with status }

/-- The pre-adverse notice is delivered. -/
def startWaiting (now : Nat) (row : AdverseCase) : AdverseCase :=
  { row with
    status := .waiting
    finalNoticeEligibleAt := some (now + daysToMicroseconds row.waitingPeriodDays) }

def pause (pausedFrom : CaseStatus) (now : Nat) (row : AdverseCase) : AdverseCase :=
  { row with
    status := .pausedForDispute
    pausedFromStatus := some pausedFrom
    pausedAt := some now }

def unpause (status : CaseStatus) (row : AdverseCase) : AdverseCase :=
  { row with status, pausedFromStatus := none, pausedAt := none }

/-- Rounds half a second up, as a cast from `numeric` does. -/
def roundSeconds (microseconds : Nat) : Nat := (microseconds + 500000) / 1000000

/-- `GREATEST(0, EXTRACT(EPOCH FROM (final_notice_eligible_at - paused_at)))::integer`,
where `GREATEST` ignores a null. -/
def remainingSeconds (row : AdverseCase) : Nat :=
  match row.finalNoticeEligibleAt, row.pausedAt with
  | some eligibleAt, some pausedAt => roundSeconds (eligibleAt - pausedAt)
  | _, _ => 0

/-- The wait goes on with what was left of it. -/
def continueWaiting (now : Nat) (row : AdverseCase) : AdverseCase :=
  { row.unpause .waiting with
    finalNoticeEligibleAt := some (now + row.remainingSeconds * 1000000) }

end AdverseCase

/-! ### The tables -/

namespace Tables

def empty : Tables := { cases := [], deliveries := [], outbox := [], events := [] }

/-! ### Statements -/

def updateCases (db : Tables) (p : AdverseCase → Bool) (f : AdverseCase → AdverseCase) :
    Except String Tables :=
  if (db.cases.filter p).all fun row => (f row).checks then
    .ok { db with cases := updateWhere p f db.cases }
  else .error "compliance_adverse_action_cases_pause_timestamp"

def updateCase (db : Tables) (caseRef : String) (f : AdverseCase → AdverseCase) :
    Except String Tables :=
  db.updateCases (fun row => row.caseRef == caseRef) f

def setDeliveries (db : Tables) (p : Delivery → Bool) (status : DeliveryStatus) : Tables :=
  { db with deliveries := updateWhere p (fun d => { d with status }) db.deliveries }

def setOutbox (db : Tables) (p : NoticeOutboxRow → Bool) (state : OutboxState) : Tables :=
  { db with outbox := updateWhere p (fun o => { o with state }) db.outbox }

def appendEvent (db : Tables) (caseRef : String) (eventType : EventType) (now : Nat) : Tables :=
  { db with events := { caseRef, eventType, createdAt := now } :: db.events }

def lockedCase (db : Tables) (caseRef : String) (tenantId : Int) : Except String AdverseCase :=
  match db.cases.find? fun row => row.caseRef == caseRef && row.tenantId == tenantId with
  | none => .error "Adverse-action case not found."
  | some row => .ok row

/-- The identifiers that a queued notice is given. -/
structure NoticeIds where
  (deliveryId outboxId : Nat)

def queueNotice (db : Tables) (caseRef : String) (noticeType : NoticeType) (channel : Channel)
    (ids : NoticeIds) (now : Nat) : Except String Tables :=
  if db.deliveries.any fun d => d.id == ids.deliveryId then
    .error "compliance_notice_deliveries_pkey"
  else
    let delivered : Tables :=
      { db with
        deliveries := db.deliveries ++ [{ id := ids.deliveryId, caseRef, noticeType, channel,
                                          status := .queued, createdAt := now }] }
    if channel = .manual then .ok delivered
    else if db.outbox.any fun o => o.id == ids.outboxId || o.deliveryId == ids.deliveryId then
      .error "compliance_notice_delivery_outbox_pkey"
    else
      .ok { delivered with
        outbox := db.outbox ++ [{ id := ids.outboxId, caseRef, deliveryId := ids.deliveryId,
                                  state := .pending, attemptCount := 0, availableAt := now,
                                  leasedAt := none, createdAt := now }] }

/-- What a case that stops takes back: its notices on their way. -/
def cancelNotices (db : Tables) (caseRef : String) : Tables :=
  (db.setDeliveries (fun d => d.caseRef == caseRef && (d.status == .queued || d.status == .sent))
    .canceled).setOutbox
      (fun o => o.caseRef == caseRef && (o.state == .pending || o.state == .leased)) .cancelled

def assertNoOpenDispute (disputed : Bool) : Except String Unit :=
  if disputed then .error "A consumer dispute is open; adverse action must remain paused."
  else .ok ()

/-! ### Initiation -/

structure InitiateInput where
  caseRef : String
  tenantId : Int
  (screeningOrderId reportSnapshotId candidateId waitingPeriodDays : Nat)
  channel : Channel

/-- The checks of `initiatePreAdverse`; `sourceFound` is whether order, snapshot
and consent are there, `templateFound` whether the template is. -/
def initiateCheck (input : InitiateInput) (sourceFound disputed templateFound : Bool) :
    Except String Unit := do
  if input.waitingPeriodDays < 5 ∨ 30 < input.waitingPeriodDays then .error "BAD_REQUEST"
  else if !sourceFound then
    .error ("A completed tenant order, matching immutable snapshot, and active signed " ++
      "candidate consent are required.")
  else do
    assertNoOpenDispute disputed
    if templateFound then .ok ()
    else .error "An active counsel-approved notice template is unavailable."

def initiatePreAdverse (db : Tables) (input : InitiateInput) (ids : NoticeIds) (now : Nat) :
    Except String Tables := do
  if db.cases.any fun row => row.caseRef == input.caseRef ||
      (row.tenantId == input.tenantId && row.screeningOrderId == input.screeningOrderId) then
    .error "compliance_adverse_action_cases_tenant_id_screening_order_id_key"
  else do
    let inserted : Tables :=
      { db with
        cases := db.cases ++
          [{ caseRef := input.caseRef, tenantId := input.tenantId
             screeningOrderId := input.screeningOrderId, candidateId := input.candidateId
             status := .preNoticeQueued, waitingPeriodDays := input.waitingPeriodDays
             finalNoticeEligibleAt := none, pausedFromStatus := none, pausedAt := none }] }
    let queued ← inserted.queueNotice input.caseRef .preAdverse input.channel ids now
    .ok ((queued.appendEvent input.caseRef .created now).appendEvent input.caseRef
      .preNoticeQueued now)

/-! ### Deliveries -/

/-- A delivered notice moves its case on. -/
def advance (db : Tables) (caseRef : String) (noticeType : NoticeType) (now : Nat) :
    Except String Tables :=
  match noticeType with
  | .preAdverse => do
    let moved ← db.updateCase caseRef (.startWaiting now)
    .ok (moved.appendEvent caseRef .preNoticeDelivered now)
  | .finalAdverse => do
    let moved ← db.updateCase caseRef (.withStatus .completed)
    .ok ((moved.appendEvent caseRef .finalNoticeDelivered now).appendEvent caseRef .completed now)
  | _ => .ok db

inductive RecordedStatus where
  | delivered | undeliverable | manualRequired
  deriving DecidableEq

def RecordedStatus.delivery : RecordedStatus → DeliveryStatus
  | .delivered => .delivered
  | .undeliverable => .undeliverable
  | .manualRequired => .manualRequired

/-- The case of a notice that did not get through, or whose type has no next step. -/
def RecordedStatus.case : RecordedStatus → CaseStatus
  | .undeliverable => .undeliverable
  | _ => .manualDelivery

def recordable (d : Delivery) : Bool :=
  d.status == .queued || (d.status == .manualRequired && d.channel == .manual)

def recordDelivery (db : Tables) (caseRef : String) (tenantId : Int) (deliveryId : Nat)
    (status : RecordedStatus) (now : Nat) : Except String Tables := do
  let row ← db.lockedCase caseRef tenantId
  match db.deliveries.find? fun d => d.id == deliveryId && d.caseRef == row.caseRef with
  | none => .error "An eligible queued or manual notice delivery was not found."
  | some current =>
    if !recordable current then
      .error "An eligible queued or manual notice delivery was not found."
    else
      let recorded := (db.setDeliveries (fun d => d.id == deliveryId) status.delivery).setOutbox
        (fun o => o.deliveryId == deliveryId && (o.state == .pending || o.state == .leased))
        .cancelled
      if status = .delivered ∧
          (current.noticeType = .preAdverse ∨ current.noticeType = .finalAdverse) then
        recorded.advance row.caseRef current.noticeType now
      else do
        let moved ← recorded.updateCase row.caseRef (.withStatus status.case)
        .ok (moved.appendEvent row.caseRef .manualDeliveryRequired now)

def resolveManualDelivery (db : Tables) (caseRef : String) (tenantId : Int) (deliveryId : Nat)
    (channel : Channel) (ids : NoticeIds) (now : Nat) : Except String Tables := do
  let row ← db.lockedCase caseRef tenantId
  if row.status ≠ .manualDelivery ∧ row.status ≠ .undeliverable then
    .error "Case does not require manual delivery recovery."
  else
    match db.deliveries.find? fun d => d.id == deliveryId && (d.caseRef == row.caseRef &&
        (d.status == .undeliverable || d.status == .manualRequired)) with
    | none => .error "Undeliverable or manual notice delivery not found."
    | some source =>
      if source.noticeType ≠ .preAdverse ∧ source.noticeType ≠ .finalAdverse then
        .error "Only adverse-action notice deliveries can be recovered."
      else do
        let queued ← db.queueNotice row.caseRef source.noticeType channel ids now
        let moved ← queued.updateCase row.caseRef
          (.withStatus (if source.noticeType = .preAdverse then .preNoticeQueued
            else .finalNoticeQueued))
        .ok (moved.appendEvent row.caseRef .manualDeliveryResolved now)

/-! ### Dispute holds -/

/-- The condition of the query that finds the cases to pause. -/
def pausable (tenantId : Int) (candidateId : Nat) (row : AdverseCase) : Bool :=
  row.tenantId == tenantId && (row.candidateId == candidateId && row.status.active)

/-- The cases that `pauseAdverseActionsForOpenDispute` works on: they were found
by its query and still match when they are locked. -/
def toPause (db : Tables) (tenantId : Int) (candidateId : Nat) (found : List String) :
    List AdverseCase :=
  db.cases.filter fun row => pausable tenantId candidateId row && found.contains row.caseRef

/-- What the loop does to one case. -/
def pauseOne (now : Nat) (db : Tables) (row : AdverseCase) : Except String Tables := do
  let paused ← db.updateCase row.caseRef (.pause row.status now)
  .ok ((paused.cancelNotices row.caseRef).appendEvent row.caseRef .pausedForDispute now)

def pauseAdverseActions (db : Tables) (tenantId : Int) (candidateId : Nat) (found : List String)
    (now : Nat) : Except String Tables :=
  (db.toPause tenantId candidateId found).foldlM (pauseOne now) db

def pauseForDispute (db : Tables) (caseRef : String) (tenantId : Int) (disputed : Bool)
    (now : Nat) : Except String Tables := do
  let row ← db.lockedCase caseRef tenantId
  if row.status ≠ .waiting ∧ row.status ≠ .preNoticeDelivered then
    .error "Only a delivered pre-adverse case in its waiting period can be paused."
  else if !disputed then
    .error "An open dispute bound to this candidate is required to pause adverse action."
  else
    let found := db.cases.map AdverseCase.caseRef
    if (db.toPause tenantId row.candidateId found).length ≠ 1 then
      .error "Adverse-action case was not eligible for a dispute hold."
    else db.pauseAdverseActions tenantId row.candidateId found now

def resumeCheck (db : Tables) (caseRef : String) (tenantId : Int) (disputed : Bool) :
    Except String AdverseCase := do
  let row ← db.lockedCase caseRef tenantId
  if row.status ≠ .pausedForDispute ∨ !row.pausedFromStatus.any CaseStatus.active then
    .error "Case is not eligible for dispute-resolution resumption."
  else do
    assertNoOpenDispute disputed
    .ok row

def createdLater (a b : Delivery) : Prop := b.createdAt ≤ a.createdAt

instance : DecidableRel createdLater := fun _ _ => inferInstanceAs (Decidable (_ ≤ _))

/-- The notice that the hold has taken back. -/
def priorNotice (db : Tables) (caseRef : String) (noticeType : NoticeType) : Option Delivery :=
  let canceled : List Delivery := db.deliveries.filter fun d =>
    d.caseRef == caseRef && (d.status == .canceled && d.noticeType == noticeType)
  (canceled.insertionSort createdLater).head?

/-- The notice that was on its way when a case was paused. -/
def pausedNotice : CaseStatus → Option NoticeType
  | .preNoticeQueued => some .preAdverse
  | .finalNoticeQueued => some .finalAdverse
  | _ => none

/-- The rest of `resumeAfterDispute`, for the row that it has locked. -/
def resume (db : Tables) (row : AdverseCase) (ids : NoticeIds) (now : Nat) :
    Except String Tables :=
  match row.pausedFromStatus with
  | none => .error "Case is not eligible for dispute-resolution resumption."
  | some pausedFrom =>
    match pausedNotice pausedFrom with
    | some noticeType =>
      match db.priorNotice row.caseRef noticeType with
      | none => .error "The original paused notice cannot be safely re-queued."
      | some original => do
        let queued ← db.queueNotice row.caseRef original.noticeType original.channel ids now
        let moved ← queued.updateCase row.caseRef (.unpause pausedFrom)
        .ok (moved.appendEvent row.caseRef .resumed now)
    | none => do
      let moved ← db.updateCase row.caseRef (.continueWaiting now)
      .ok (moved.appendEvent row.caseRef .resumed now)

/-! ### The final notice and the end -/

/-- `new Date(eligibleAt) > new Date()`: dates are whole milliseconds. -/
def eligible (eligibleAt now : Nat) : Bool := decide (eligibleAt / 1000 ≤ now / 1000)

def queueFinalCheck (db : Tables) (caseRef : String) (tenantId : Int)
    (disputed templateFound : Bool) (now : Nat) : Except String AdverseCase := do
  let row ← db.lockedCase caseRef tenantId
  if row.status ≠ .waiting ∨ !row.finalNoticeEligibleAt.any fun e => eligible e now then
    .error "Pre-adverse waiting period has not completed."
  else do
    assertNoOpenDispute disputed
    if templateFound then .ok row
    else .error "An active counsel-approved notice template is unavailable."

def queueFinalAdverse (db : Tables) (caseRef : String) (channel : Channel) (ids : NoticeIds)
    (now : Nat) : Except String Tables := do
  let queued ← db.queueNotice caseRef .finalAdverse channel ids now
  let moved ← queued.updateCase caseRef (.withStatus .finalNoticeQueued)
  .ok (moved.appendEvent caseRef .finalNoticeQueued now)

def cancel (db : Tables) (caseRef : String) (tenantId : Int) (now : Nat) :
    Except String Tables := do
  let row ← db.lockedCase caseRef tenantId
  if row.status.terminal then .error "Completed or canceled adverse action cannot be changed."
  else do
    let moved ← db.updateCase row.caseRef (.withStatus .canceled)
    .ok ((moved.cancelNotices row.caseRef).appendEvent row.caseRef .canceled now)

end Tables

end Bis.Adverse
