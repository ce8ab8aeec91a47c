import Bis.Relation.Table
import Bis.Transition.Run
import Mathlib.Data.List.Sort

/-!
Commercial entitlements: the tables `billing_entitlements`,
`billing_check_reservations` and `billing_usage_events`, and the three operations
that take units from an entitlement. Each operation is one transaction: its
statements may violate a constraint, its guards may throw, and its commit may
fail, and then the tables stay as they were. `Except` carries the message of
what went wrong.

Entitlements come from contracts and signups, and assessments to bill from the
metering worker; of both only the inserts are here. UUIDs are numbers that the
caller draws, instants are milliseconds, and the clocks of the server and the
database are one. Left out: plans, subscriptions and the time stamps that only
record when a row was written.
-/

namespace Bis.Commercial

open Bis.Relation Bis.Transition

inductive EntitlementStatus where
  | active | expired | revoked
  deriving DecidableEq

structure Entitlement where
  id : Nat
  (tenantId totalUnits consumedUnits reservedUnits : Int)
  (periodStart periodEnd : Nat)
  status : EntitlementStatus
  sourceReference : String

inductive Tier where
  | basic | standard | premium | intelligenceAssessment
  deriving DecidableEq

inductive ReservationStatus where
  | reserved | consumed | released | expired
  deriving DecidableEq

structure Reservation where
  id : Nat
  tenantId : Int
  entitlementId : Nat
  investigationRef : String
  requestedTier : Tier
  status : ReservationStatus
  (idempotencyKey reservedBy expiresAt : Nat)

inductive UsageType where
  | completedAuthorizedCheck | intelligenceAssessment | reversal
  deriving DecidableEq

structure UsageEvent where
  id : Nat
  tenantId : Int
  reservationId : Nat
  usageType : UsageType
  units : Int
  investigationRef : String
  recordedBy : Nat

/-- What the reservation of an assessment reads and writes of its billing event. -/
structure AssessmentEvent where
  id : Nat
  tenantId : Int
  assessmentId : String
  requestedBy : Nat
  reservationId : Option Nat
  settled : Bool

structure Tables where
  entitlements : List Entitlement
  reservations : List Reservation
  usage : List UsageEvent
  assessments : List AssessmentEvent

def reservationTtlMs : Nat := 20 * 60 * 1000

/-- The checks of `billing_entitlements`. -/
def Entitlement.checks (e : Entitlement) : Bool :=
  decide (0 < e.totalUnits) && decide (0 ≤ e.consumedUnits) &&
    decide (e.consumedUnits ≤ e.totalUnits) && decide (0 ≤ e.reservedUnits) &&
    decide (e.reservedUnits ≤ e.totalUnits) && decide (e.periodStart < e.periodEnd)

/-- The `WHERE` clause of both entitlement queries. -/
def Entitlement.available (tenantId : Int) (now : Nat) (e : Entitlement) : Bool :=
  e.tenantId == tenantId && e.status == .active && decide (e.periodStart ≤ now) &&
    decide (now < e.periodEnd) && decide (e.consumedUnits + e.reservedUnits < e.totalUnits)

def endsFirst (a b : Entitlement) : Prop := a.periodEnd ≤ b.periodEnd

instance : DecidableRel endsFirst := fun _ _ => inferInstanceAs (Decidable (_ ≤ _))

/-- The unique constraints that two reservations would violate. -/
def Reservation.clashes (r other : Reservation) : Bool :=
  r.id == other.id ||
    (r.tenantId == other.tenantId && r.idempotencyKey == other.idempotencyKey) ||
      (r.tenantId == other.tenantId && r.investigationRef == other.investigationRef)

def UsageEvent.clashes (u other : UsageEvent) : Bool :=
  u.id == other.id || (u.reservationId == other.reservationId && u.usageType == other.usageType)

def Entitlement.reserveUnit (e : Entitlement) : Entitlement :=
  { e with reservedUnits := e.reservedUnits + 1 }

def Entitlement.consumeUnit (e : Entitlement) : Entitlement :=
  { e with
    reservedUnits := e.reservedUnits - 1
    consumedUnits := e.consumedUnits + 1 }

def Reservation.consume (r : Reservation) : Reservation := { r with status := .consumed }

namespace Tables

/-! ### Statements -/

/-- `FOR UPDATE SKIP LOCKED LIMIT 1`; `locked` are the rows other transactions
hold. -/
def entitlement? (db : Tables) (tenantId : Int) (now : Nat) (locked : List Nat) :
    Option Entitlement :=
  ((db.entitlements.filter fun e =>
    e.available tenantId now && !locked.contains e.id).insertionSort endsFirst).head?

def updateEntitlement (db : Tables) (id : Nat) (f : Entitlement → Entitlement) :
    Except String Tables :=
  if (db.entitlements.filter fun e => e.id == id).all fun e => (f e).checks then
    .ok { db with entitlements := updateWhere (fun e => e.id == id) f db.entitlements }
  else .error "billing_entitlements_check"

def insertReservation (db : Tables) (r : Reservation) : Except String Tables :=
  if db.reservations.any r.clashes then .error "billing_check_reservations_unique"
  else .ok { db with reservations := db.reservations ++ [r] }

def insertUsage (db : Tables) (u : UsageEvent) : Except String Tables :=
  if db.usage.any u.clashes then .error "billing_usage_events_reservation_unique"
  else .ok { db with usage := db.usage ++ [u] }

def markConsumed (db : Tables) (id : Nat) : Tables :=
  { db with
    reservations := updateWhere (fun r => r.id == id) Reservation.consume db.reservations }

def markSettled (db : Tables) (id reservationId : Nat) : Tables :=
  { db with
    assessments := updateWhere (fun a => a.id == id)
      (fun a => { a with reservationId := some reservationId, settled := true }) db.assessments }

end Tables

/-! ### The operations -/

structure Caller where
  userId : Nat
  tenantId : Option Int

/-- `requireTenantScope`. -/
def requireTenantScope (contextTenantId : Option Int) (tenantId : Int) : Except String Unit :=
  if tenantId ≤ 0 then .error "A valid tenant is required"
  else if contextTenantId.any fun own => own != tenantId then
    .error "Cross-tenant commercial access is denied"
  else .ok ()

def investigationRefAccepted (investigationRef : String) : Bool :=
  decide (1 ≤ investigationRef.length) && decide (investigationRef.length ≤ 128)

structure ReserveInput where
  tenantId : Int
  investigationRef : String
  tier : Tier
  idempotencyKey : Nat

def ReserveInput.accepted (input : ReserveInput) : Bool :=
  decide (0 < input.tenantId) && investigationRefAccepted input.investigationRef &&
    input.tier != .intelligenceAssessment

structure Reserved where
  (reservationId expiresAt : Nat)
  idempotent : Bool

/-- The part of `reserveCompletedCheck` for a key without a reservation. -/
def Tables.reserveUnit (db : Tables) (caller : Caller) (input : ReserveInput)
    (reservationId : Nat) (locked : List Nat) (now : Nat) : Except String (Tables × Reserved) :=
  match db.entitlement? input.tenantId now locked with
  | none => .error "No active commercial entitlement is available for this completed check"
  | some entitlement => do
    let expiresAt := now + reservationTtlMs
    let counted ← db.updateEntitlement entitlement.id Entitlement.reserveUnit
    let stored ← counted.insertReservation
      { id := reservationId
        tenantId := input.tenantId
        entitlementId := entitlement.id
        investigationRef := input.investigationRef
        requestedTier := input.tier
        status := .reserved
        idempotencyKey := input.idempotencyKey
        reservedBy := caller.userId
        expiresAt }
    .ok (stored, ⟨reservationId, expiresAt, false⟩)

def Tables.reserveCompletedCheck (db : Tables) (caller : Caller) (input : ReserveInput)
    (reservationId : Nat) (locked : List Nat) (now : Nat) : Except String (Tables × Reserved) :=
  if !input.accepted then .error "BAD_REQUEST"
  else do
    requireTenantScope caller.tenantId input.tenantId
    match db.reservations.find? fun r =>
        r.tenantId == input.tenantId && r.idempotencyKey == input.idempotencyKey with
    | some row =>
      if row.status == .reserved && decide (now < row.expiresAt) then
        .ok (db, ⟨row.id, row.expiresAt, true⟩)
      else .error "The idempotency key is bound to an unavailable commercial reservation"
    | none => db.reserveUnit caller input reservationId locked now

structure ConsumeInput where
  tenantId : Int
  reservationId : Nat
  investigationRef : String

def ConsumeInput.accepted (input : ConsumeInput) : Bool :=
  decide (0 < input.tenantId) && investigationRefAccepted input.investigationRef

/-- The statements of `consumeReservedCheck` for a reservation that still holds. -/
def Tables.consumeUnit (db : Tables) (caller : Caller) (input : ConsumeInput) (row : Reservation)
    (usageId : Nat) : Except String Tables := do
  let counted ← (db.markConsumed input.reservationId).updateEntitlement row.entitlementId
    Entitlement.consumeUnit
  counted.insertUsage
    { id := usageId
      tenantId := input.tenantId
      reservationId := input.reservationId
      usageType := .completedAuthorizedCheck
      units := 1
      investigationRef := input.investigationRef
      recordedBy := caller.userId }

/-- The answer is whether the reservation was consumed before. -/
def Tables.consumeReservedCheck (db : Tables) (caller : Caller) (input : ConsumeInput)
    (usageId now : Nat) : Except String (Tables × Bool) :=
  if !input.accepted then .error "BAD_REQUEST"
  else do
    requireTenantScope caller.tenantId input.tenantId
    match db.reservations.find? fun r => r.id == input.reservationId &&
        (r.tenantId == input.tenantId && r.investigationRef == input.investigationRef) with
    | none => .error "Commercial reservation was not found"
    | some row =>
      if row.status == .consumed then .ok (db, true)
      else if row.status != .reserved || decide (row.expiresAt ≤ now) then
        .error "Commercial reservation is no longer valid"
      else do
        let stored ← db.consumeUnit caller input row usageId
        .ok (stored, false)

/-- The statements of `reserveAndConsumeEntitledUnit` after its entitlement. -/
def Tables.reserveAndConsume (db : Tables) (event : AssessmentEvent) (entitlementId : Nat)
    (reservationId usageId now : Nat) : Except String Tables := do
  let investigationRef := "intelligence:" ++ event.assessmentId
  let reserved ← db.updateEntitlement entitlementId Entitlement.reserveUnit
  let stored ← reserved.insertReservation
    { id := reservationId
      tenantId := event.tenantId
      entitlementId
      investigationRef
      requestedTier := .intelligenceAssessment
      status := .consumed
      idempotencyKey := event.id
      reservedBy := event.requestedBy
      expiresAt := now }
  let consumed ← stored.updateEntitlement entitlementId Entitlement.consumeUnit
  let recorded ← consumed.insertUsage
    { id := usageId
      tenantId := event.tenantId
      reservationId
      usageType := .intelligenceAssessment
      units := 1
      investigationRef
      recordedBy := event.requestedBy }
  .ok (recorded.markSettled event.id reservationId)

/-- The answer is whether the event has its unit. -/
def Tables.reserveAndConsumeEntitledUnit (db : Tables) (event : AssessmentEvent)
    (reservationId usageId : Nat) (locked : List Nat) (now : Nat) :
    Except String (Tables × Bool) :=
  match db.assessments.find? fun a => a.id == event.id with
  | none => .error "Assessment billing event disappeared"
  | some existing =>
    if existing.reservationId.isSome then .ok (db, true)
    else
      match db.entitlement? event.tenantId now locked with
      | none => .ok (db, false)
      | some entitlement => do
        let stored ← db.reserveAndConsume event entitlement.id reservationId usageId now
        .ok (stored, true)

/-! ### Runs -/

structure Commerce where
  db : Tables
  clock : Nat

def Commerce.initial : Commerce :=
  { db := { entitlements := [], reservations := [], usage := [], assessments := [] }
    clock := 0 }

/-- A transaction that throws or does not commit leaves the tables alone. -/
def Commerce.commit {α : Type} (s : Commerce) (commits : Bool)
    (result : Except String (Tables × α)) : Commerce :=
  match result with
  | .ok (db, _) => if commits then { s with db } else s
  | .error _ => s

/-- The insert of a contract's or a signup's entitlement. -/
def Tables.grant (db : Tables) (e : Entitlement) : Except String (Tables × Unit) :=
  if e.checks && !db.entitlements.any (fun other =>
      other.id == e.id || other.sourceReference == e.sourceReference) then
    .ok ({ db with entitlements := db.entitlements ++ [e] }, ())
  else .error "billing_entitlements_source_reference_key"

/-- The insert of a billing event that has no reservation yet. -/
def Tables.enqueue (db : Tables) (a : AssessmentEvent) : Except String (Tables × Unit) :=
  if db.assessments.any fun other => other.id == a.id || other.assessmentId == a.assessmentId then
    .error "intelligence_assessment_billing_one_per_assessment"
  else .ok ({ db with assessments := db.assessments ++ [a] }, ())

inductive CommerceAction where
  | grant (id : Nat) (tenantId totalUnits : Int) (periodStart periodEnd : Nat)
      (sourceReference : String)
  | enqueue (id : Nat) (tenantId : Int) (assessmentId : String) (requestedBy : Nat)
  /-- `commits` is whether the transaction goes through. -/
  | reserve (caller : Caller) (input : ReserveInput) (reservationId : Nat) (locked : List Nat)
      (commits : Bool)
  | consume (caller : Caller) (input : ConsumeInput) (usageId : Nat) (commits : Bool)
  /-- `event` is the row the worker's claim returned. -/
  | bill (event : AssessmentEvent) (reservationId usageId : Nat) (locked : List Nat)
      (commits : Bool)
  | tick (ms : Nat)

def commerceStep : Step Commerce CommerceAction
  | s, .grant id tenantId totalUnits periodStart periodEnd sourceReference =>
    some (s.commit true (s.db.grant
      { id
        tenantId
        totalUnits
        consumedUnits := 0
        reservedUnits := 0
        periodStart
        periodEnd
        status := .active
        sourceReference }))
  | s, .enqueue id tenantId assessmentId requestedBy =>
    some (s.commit true (s.db.enqueue
      { id, tenantId, assessmentId, requestedBy, reservationId := none, settled := false }))
  | s, .reserve caller input reservationId locked commits =>
    some (s.commit commits
      (s.db.reserveCompletedCheck caller input reservationId locked s.clock))
  | s, .consume caller input usageId commits =>
    some (s.commit commits (s.db.consumeReservedCheck caller input usageId s.clock))
  | s, .bill event reservationId usageId locked commits =>
    some (s.commit commits
      (s.db.reserveAndConsumeEntitledUnit event reservationId usageId locked s.clock))
  | s, .tick ms => some { s with clock := s.clock + ms }

end Bis.Commercial
