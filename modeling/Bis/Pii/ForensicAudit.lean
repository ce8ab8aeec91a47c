import Bis.Pii.ForensicCursor
import Bis.Relation.Keyset
import Mathlib.Data.Prod.Lex

/-!
The PII forensic audit trail: how an event is sealed when it is appended, and how
verified events are read page by page. Instants are whole milliseconds, as
`appendPiiForensicAuditEvent` writes them. The foreign keys of the table, the
tenant policy that repeats the filter of the query, and the counters of appended
events are left out.
-/

namespace Bis.Pii

open Bis.Calendar Bis.Json Bis.Number Bis.Relation Bis.Transition
open Bis.TigerBeetle (utf8)

/-! ### Events -/

inductive PiiForensicEventType where
  | incidentCreated
  | keyContained
  | keyCompromised
  | rotationCreated
  | rotationDryRunCompleted
  | rotationStarted
  | rotationProgress
  | rotationCompleted
  | rotationFailed
  | accessRevoked
  | recoveryVerified
  | incidentResolved
  | incidentClosed

def PiiForensicEventType.text : PiiForensicEventType → String
  | .incidentCreated => "incident_created"
  | .keyContained => "key_contained"
  | .keyCompromised => "key_compromised"
  | .rotationCreated => "rotation_created"
  | .rotationDryRunCompleted => "rotation_dry_run_completed"
  | .rotationStarted => "rotation_started"
  | .rotationProgress => "rotation_progress"
  | .rotationCompleted => "rotation_completed"
  | .rotationFailed => "rotation_failed"
  | .accessRevoked => "access_revoked"
  | .recoveryVerified => "recovery_verified"
  | .incidentResolved => "incident_resolved"
  | .incidentClosed => "incident_closed"

inductive PiiForensicIntegrityScheme where
  | legacyJsonV1
  | hmacSha256CanonicalJsonV2
  deriving DecidableEq

def allowedDetailKeys : List String :=
  ["record_count", "registry_id", "source_registry_id", "target_registry_id", "rotation_job_id",
    "reason_code", "error_code", "actor_role", "source_key_version", "target_key_version",
    "provider_key_version", "evidence_ref", "channel", "dry_run", "checkpoint", "state",
    "worker_version", "incident_ref"]

structure PiiForensicWriteInput where
  incidentId : Option String
  tenantId : Int32
  rotationJobId : Option String
  actorUserId : Option Int32
  eventType : PiiForensicEventType
  detail : List (String × Value)

structure PiiForensicStoredEvent extends PiiForensicWriteInput where
  id : Nat
  id_pos : 0 < id
  integrityHash : String
  integrityScheme : PiiForensicIntegrityScheme
  createdAt : Nat

def isPrimitive : Value → Bool
  | .array _ => false
  | .object _ => false
  | _ => true

def assertApprovedDetail (detail : List (String × Value)) : Except ForensicError Unit :=
  if detail.all fun m => decide (m.1 ∈ allowedDetailKeys) && isPrimitive m.2 then .ok ()
  else
    .error (.thrown "PII forensic audit event detail violates the approved non-PII schema.")

def canonicalCreatedAt (createdAt : Nat) : Except ForensicError String :=
  match toISOString createdAt with
  | some text => .ok text
  | none => .error (.thrown "PII forensic audit event timestamp is invalid.")

def keyBefore (a b : String × Value) : Prop := a.1 ≤ b.1

instance : DecidableRel keyBefore := fun a b => inferInstanceAs (Decidable (a.1 ≤ b.1))

/-- Approved keys are ASCII, where `sort` and the order of strings agree. -/
def canonicalDetail (detail : List (String × Value)) : List (String × Value) :=
  detail.insertionSort keyBefore

def optionalText : Option String → Value
  | none => .null
  | some text => .string text

def optionalNumber : Option Int32 → Value
  | none => .null
  | some n => .number (.ofInt n.toInt)

def canonicalPiiForensicAuditEvent (input : PiiForensicWriteInput) (createdAt : Nat) :
    Except ForensicError String := do
  assertApprovedDetail input.detail
  let createdAt ← canonicalCreatedAt createdAt
  return stringify (.object
    [("integrityScheme", .string "hmac_sha256_canonical_json_v2"),
      ("incidentId", optionalText input.incidentId),
      ("tenantId", .number (.ofInt input.tenantId.toInt)),
      ("rotationJobId", optionalText input.rotationJobId),
      ("actorUserId", optionalNumber input.actorUserId),
      ("eventType", .string input.eventType.text),
      ("detail", .object (canonicalDetail input.detail)),
      ("createdAt", .string createdAt)])

variable (node : Node)

def piiForensicIntegrityHash (env : Env) (input : PiiForensicWriteInput) (createdAt : Nat) :
    Except ForensicError String := do
  let text ← canonicalPiiForensicAuditEvent input createdAt
  hmacHex node env text

/-- The column has a fixed width, so its value is trimmed before it is compared. -/
def trimmedHash (event : PiiForensicStoredEvent) : String :=
  String.ofList (jsTrim event.integrityHash.toList)

def verifyPiiForensicAuditEvent (env : Env) (event : PiiForensicStoredEvent) :
    Except ForensicError Bool :=
  if event.integrityScheme ≠ .hmacSha256CanonicalJsonV2 then .ok false
  else do
    let expected ← piiForensicIntegrityHash node env event.toPiiForensicWriteInput event.createdAt
    return fixedTimeHexEqual (trimmedHash event) expected

/-! ### The tables -/

inductive IncidentStatus where
  | suspected
  | contained
  | rotationQueued
  | rotating
  | recovering
  | resolved
  | closed

/-- `^BIS-KC-[A-Z0-9]{18}$` -/
def isIncidentRef (text : String) : Bool :=
  text.toList.take 7 == "BIS-KC-".toList && (text.toList.drop 7).length == 18 &&
    (text.toList.drop 7).all fun c => c.isUpper || c.isDigit

structure Incident where
  (id incidentRef : String)
  incidentRef_form : isIncidentRef incidentRef = true
  status : IncidentStatus

structure Trail where
  incidents : List Incident
  events : List PiiForensicStoredEvent
  ids_nodup : (events.map (·.id)).Nodup

/-- The sequence behind the ids goes up. -/
def Trail.nextId (trail : Trail) : Nat := (trail.events.map (·.id)).foldr max 0 + 1

theorem Trail.id_lt_nextId {trail : Trail} {event : PiiForensicStoredEvent}
    (h : event ∈ trail.events) : event.id < trail.nextId := by
  have hmax : ∀ ids : List Nat, ∀ id ∈ ids, id ≤ ids.foldr max 0 := by
    intro ids
    induction ids with
    | nil => simp
    | cons first rest ih =>
      intro id hid
      rw [List.foldr_cons]
      rcases List.mem_cons.mp hid with rfl | hrest
      · exact Nat.le_max_left _ _
      · exact Nat.le_trans (ih id hrest) (Nat.le_max_right _ _)
  have hle := hmax (trail.events.map (·.id)) event.id (List.mem_map_of_mem h)
  unfold Trail.nextId
  omega

def Trail.insert (trail : Trail) (event : PiiForensicStoredEvent)
    (h : event.id = trail.nextId) : Trail where
  incidents := trail.incidents
  events := trail.events ++ [event]
  ids_nodup := by
    rw [List.map_append, List.map_singleton]
    refine List.nodup_append.mpr ⟨trail.ids_nodup, by simp, ?_⟩
    intro id hid other hother heq
    obtain ⟨old, hold, rfl⟩ := List.mem_map.mp hid
    have hlt := Trail.id_lt_nextId hold
    rw [List.mem_singleton.mp hother] at heq
    omega

/-- The order in which a `JSONB` column hands out the members of an object. -/
structure JsonbOrder where
  arrange : List (String × Value) → List (String × Value)
  perm : ∀ members, (arrange members).Perm members

def appendPiiForensicAuditEvent (env : Env) (jsonb : JsonbOrder) (now : Nat) (trail : Trail)
    (input : PiiForensicWriteInput) : Except ForensicError Trail := do
  assertApprovedDetail input.detail
  let integrityHash ← piiForensicIntegrityHash node env input now
  return trail.insert
    { toPiiForensicWriteInput :=
        { input with detail := jsonb.arrange (canonicalDetail input.detail) }
      id := trail.nextId
      id_pos := Nat.succ_pos _
      integrityHash
      integrityScheme := .hmacSha256CanonicalJsonV2
      createdAt := now } rfl

/-! ### Reading -/

/-- An event and the incident that the left join finds for it. -/
structure Row where
  event : PiiForensicStoredEvent
  incident : Option Incident

def Trail.join (trail : Trail) (event : PiiForensicStoredEvent) : Row where
  event := event
  incident := event.incidentId.bind fun id => trail.incidents.find? (·.id = id)

/-- `limit` has been checked to be at least one. -/
structure ForensicRequest where
  tenantId : Int32
  incidentRef : Option String
  limit : Nat
  limit_pos : 0 < limit

/-- The rows of the tenant and, if one is asked for, of the incident. -/
def Trail.matching (trail : Trail) (request : ForensicRequest) : List Row :=
  (trail.events.map trail.join).filter fun row =>
    decide (row.event.tenantId = request.tenantId) &&
      request.incidentRef.all fun ref => row.incident.any fun i => decide (i.incidentRef = ref)

/-- `(created_at, id)`. -/
def Row.key (row : Row) : Int ×ₗ Int := toLex ((row.event.createdAt : Int), (row.event.id : Int))

/-- How the driver hands a `BIGINT` over: as a text, unless it has been told to
parse it. -/
inductive Int8Reading where
  | text
  | number

/-- A number beyond the safe integers is rounded; `JSON.stringify` may write it
with other digits of the same number. -/
def Int8Reading.read : Int8Reading → Nat → Value
  | .text, n => .string (toString n)
  | .number, n => .number (.ofInt (roundToDouble n))

structure VerifiedForensicEvent where
  id : Value
  createdAt : Nat
  eventType : PiiForensicEventType
  detail : List (String × Value)
  integrityHash : String
  integrityScheme : PiiForensicIntegrityScheme
  incidentRef : Option String
  incidentStatus : Option IncidentStatus

def Row.entry (driver : Int8Reading) (row : Row) : VerifiedForensicEvent where
  id := driver.read row.event.id
  createdAt := row.event.createdAt
  eventType := row.event.eventType
  detail := row.event.detail
  integrityHash := trimmedHash row.event
  integrityScheme := row.event.integrityScheme
  incidentRef := row.incident.map (·.incidentRef)
  incidentStatus := row.incident.map (·.status)

/-- `verified.some(...)`, which stops at the first event that is not verified. -/
def someUnverified (env : Env) : List Row → Except ForensicError Bool
  | [] => .ok false
  | row :: rest => do
    if ← verifyPiiForensicAuditEvent node env row.event then someUnverified env rest
    else return true

variable (driver : Int8Reading)

/-- What `readVerifiedPiiForensicEvents` makes of the rows of its query. -/
def verifiedPage (env : Env) (now : Nat) (request : ForensicRequest) (rows : List Row) :
    Except ForensicError (Page VerifiedForensicEvent String) := do
  let hasMore := decide (request.limit < rows.length)
  let pageRows := if hasMore then rows.take request.limit else rows
  if ← someUnverified node env pageRows then
    .error (.thrown "PII forensic audit integrity verification failed.")
  else
    match hasMore, pageRows.getLast? with
    | true, some last => do
      let createdAt ← canonicalCreatedAt last.event.createdAt
      let next ← encodeForensicCursor node env now
        { tenantId := request.tenantId, incidentRef := request.incidentRef, createdAt
          id := driver.read last.event.id }
      return ⟨pageRows.map (Row.entry driver), some next⟩
    | _, _ => return ⟨pageRows.map (Row.entry driver), none⟩

/-- The query: the rows behind the position of the cursor, the newest first. -/
def Trail.select (trail : Trail) (request : ForensicRequest)
    (position : Option ForensicCursorPayload) : List Row :=
  let behind := (trail.matching request).filter fun row =>
    position.all fun p => decide (row.key < toLex (p.createdAt, p.id))
  (descending Row.key behind).take (request.limit + 1)

/-- An empty cursor is none. -/
def cursorPosition (env : Env) (now : Nat) (request : ForensicRequest) (cursor : Option String) :
    Except ForensicError (Option ForensicCursorPayload) :=
  match cursor with
  | none => .ok none
  | some text =>
    if text = "" then .ok none
    else (decodeForensicCursor node env now text request.tenantId request.incidentRef).map some

def readVerifiedPiiForensicEvents (env : Env) (now : Nat) (trail : Trail)
    (request : ForensicRequest) (cursor : Option String) :
    Except ForensicError (Page VerifiedForensicEvent String) := do
  let position ← cursorPosition node env now request cursor
  verifiedPage node driver env now request (trail.select request position)

end Bis.Pii
