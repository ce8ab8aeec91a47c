import Bis.Events.Gateway

/-!
The event processor. A message of a topic it subscribes to is decoded into an
envelope, logged, and handed to the handler of its event type, which decodes the
payload into a struct of its own and drops what it cannot decode.
-/

namespace Bis.Events

open Json
open Temporal (Members)

structure BisEvent where
  (eventType subjectRef severity : String)
  payload : Value
  (source publishedAt : Option String)

/-- The members of a struct: an object's own, or an array's in the order of the fields. -/
def structMembers (fields : List String) : Value → Option Members
  | .object members => some members
  | .array items => if items.length = fields.length then some (fields.zip items) else none
  | _ => none

def required {α : Type} (field : String) (read : Value → Option α) (members : Members) :
    Option α := (requiredField field read members).toOption

def optional {α : Type} (field : String) (read : Value → Option α) (members : Members) :
    Option (Option α) := (optionalField field read members).toOption

/-- Any number of JSON is a `f64`, if it is not too large. -/
def rustFloat : Value → Option Rat
  | .number n => goFloat64 0 (.number n)
  | _ => none

def rustInt64 : Value → Option Int
  | .number n => goInt64 0 (.number n)
  | _ => none

def rustStrings : Value → Option (List String)
  | .array items => items.mapM rustString
  | _ => none

def decodeEnvelope (v : Value) : Option BisEvent := do
  let members ← structMembers
    ["event_type", "subject_ref", "severity", "payload", "source", "published_at"] v
  return {
    eventType := ← required "event_type" rustString members
    subjectRef := ← required "subject_ref" rustString members
    severity := ← required "severity" rustString members
    payload := ← required "payload" some members
    source := ← optional "source" rustString members
    publishedAt := ← optional "published_at" rustString members }

/-- `serde_json::from_slice`. -/
def decodeMessage (message : List Char) : Option BisEvent := (read none message).bind decodeEnvelope

/-! ### The processor -/

structure Processor where
  auditLog : List Value
  /-- What was forwarded to the BFF, the oldest first. -/
  forwarded : List Value

/-- What a handler takes from its surroundings. -/
structure Clock where
  now : String
  /-- How `serde_json` writes a `f64`. -/
  formatFloat : Rat → Number
  /-- `{:.0}`. -/
  rounded : Rat → String

variable (clock : Clock)

def Clock.float (x : Rat) : Value := .number (clock.formatFloat x)

def optionString : Option String → Value
  | none => .null
  | some text => .string text

def Processor.log (s : Processor) (entry : Members) : Processor :=
  let log := s.auditLog ++ [.object entry]
  { s with auditLog := if 500 < log.length then log.drop 100 else log }

def Processor.forward (s : Processor) (alert : Members) : Processor :=
  { s with forwarded := s.forwarded ++ [.object alert] }

/-! ### Handlers -/

structure CriminalRecordIngestedPayload where
  (recordRef requestRef subjectName : String)
  nin : Option String
  (offenceCategory verdict : String)
  outstandingWarrant : Bool
  riskContribution : Rat
  (ingestSource timestamp : String)

def decodeCriminalRecord (v : Value) : Option CriminalRecordIngestedPayload := do
  let members ← structMembers ["record_ref", "request_ref", "subject_name", "nin",
    "offence_category", "verdict", "outstanding_warrant", "risk_contribution", "ingest_source",
    "timestamp"] v
  return {
    recordRef := ← required "record_ref" rustString members
    requestRef := ← required "request_ref" rustString members
    subjectName := ← required "subject_name" rustString members
    nin := ← optional "nin" rustString members
    offenceCategory := ← required "offence_category" rustString members
    verdict := ← required "verdict" rustString members
    outstandingWarrant := ← required "outstanding_warrant" rustBool members
    riskContribution := ← required "risk_contribution" rustFloat members
    ingestSource := ← required "ingest_source" rustString members
    timestamp := ← required "timestamp" rustString members }

def computeCriminalSeverity (category verdict : String) (warrant : Bool) (riskScore : Rat) :
    String :=
  if warrant then "critical"
  else if category ∈ ["terrorism", "sexual"] ∧ verdict = "convicted" then "critical"
  else if 70 ≤ riskScore then "high"
  else if 40 ≤ riskScore then "medium"
  else "low"

def handleCriminalRecordIngested (p : CriminalRecordIngestedPayload) (s : Processor) : Processor :=
  let severity := computeCriminalSeverity p.offenceCategory p.verdict p.outstandingWarrant
    p.riskContribution
  let logged := s.log
    [("event_type", .string "CRIMINAL_RECORD_INGESTED"), ("record_ref", .string p.recordRef),
      ("request_ref", .string p.requestRef), ("subject_name", .string p.subjectName),
      ("offence_category", .string p.offenceCategory), ("verdict", .string p.verdict),
      ("outstanding_warrant", .bool p.outstandingWarrant),
      ("risk_contribution", clock.float p.riskContribution), ("severity", .string severity),
      ("processed_at", .string clock.now)]
  if severity ∈ ["high", "critical"] then
    logged.forward
      [("event_type", .string "CRIMINAL_RECORD_ALERT"), ("record_ref", .string p.recordRef),
        ("subject_name", .string p.subjectName), ("offence_category", .string p.offenceCategory),
        ("verdict", .string p.verdict), ("outstanding_warrant", .bool p.outstandingWarrant),
        ("risk_contribution", clock.float p.riskContribution), ("severity", .string severity),
        ("message", .string ("Criminal record alert: " ++ p.subjectName ++ " — " ++
          p.offenceCategory ++ " (" ++ p.verdict ++ ")")),
        ("timestamp", .string clock.now)]
  else logged

structure CorporateCheckCompletedPayload where
  (checkRef rcNumber outcome : String)
  riskScore : Rat
  flags : List String
  (workflowID investigationRef : Option String)
  timestamp : String

def decodeCorporateCheck (v : Value) : Option CorporateCheckCompletedPayload := do
  let members ← structMembers ["check_ref", "rc_number", "outcome", "risk_score", "flags",
    "workflow_id", "investigation_ref", "timestamp"] v
  return {
    checkRef := ← required "check_ref" rustString members
    rcNumber := ← required "rc_number" rustString members
    outcome := ← required "outcome" rustString members
    riskScore := ← required "risk_score" rustFloat members
    flags := ← required "flags" rustStrings members
    workflowID := ← optional "workflow_id" rustString members
    investigationRef := ← optional "investigation_ref" rustString members
    timestamp := ← required "timestamp" rustString members }

def corporateSeverity (outcome : String) : String :=
  if outcome = "adverse" then "high" else if outcome = "consider" then "medium" else "low"

def handleCorporateCheckCompleted (p : CorporateCheckCompletedPayload) (s : Processor) :
    Processor :=
  let severity := corporateSeverity p.outcome
  let logged := s.log
    [("event_type", .string "CORPORATE_CHECK_COMPLETED"), ("check_ref", .string p.checkRef),
      ("rc_number", .string p.rcNumber), ("outcome", .string p.outcome),
      ("risk_score", clock.float p.riskScore), ("flags", .array (p.flags.map .string)),
      ("severity", .string severity), ("investigation_ref", optionString p.investigationRef),
      ("processed_at", .string clock.now)]
  if severity ∈ ["high", "critical"] then
    logged.forward
      [("event_type", .string "CORPORATE_CHECK_ALERT"), ("check_ref", .string p.checkRef),
        ("rc_number", .string p.rcNumber), ("outcome", .string p.outcome),
        ("risk_score", clock.float p.riskScore), ("flags", .array (p.flags.map .string)),
        ("severity", .string severity),
        ("message", .string ("Corporate check adverse: RC " ++ p.rcNumber ++ " — " ++ p.outcome ++
          " (risk: " ++ clock.rounded p.riskScore ++ ")")),
        ("timestamp", .string clock.now)]
  else logged

structure FieldVisitCheckInPayload where
  (checkInRef taskRef agentID : String)
  (lat lng : Rat)
  accuracy : Option Rat
  notes : Option String
  timestamp : String

def decodeCheckIn (v : Value) : Option FieldVisitCheckInPayload := do
  let members ← structMembers ["check_in_ref", "task_ref", "agent_id", "lat", "lng", "accuracy",
    "notes", "timestamp"] v
  return {
    checkInRef := ← required "check_in_ref" rustString members
    taskRef := ← required "task_ref" rustString members
    agentID := ← required "agent_id" rustString members
    lat := ← required "lat" rustFloat members
    lng := ← required "lng" rustFloat members
    accuracy := ← optional "accuracy" rustFloat members
    notes := ← optional "notes" rustString members
    timestamp := ← required "timestamp" rustString members }

def handleFieldVisitCheckedIn (p : FieldVisitCheckInPayload) (s : Processor) : Processor :=
  s.log
    [("event_type", .string "FIELD_VISIT_CHECKED_IN"), ("check_in_ref", .string p.checkInRef),
      ("task_ref", .string p.taskRef), ("agent_id", .string p.agentID),
      ("gps", .object [("lat", clock.float p.lat), ("lng", clock.float p.lng)]),
      ("processed_at", .string clock.now)]

structure FieldVisitCheckOutPayload where
  (checkOutRef taskRef agentID : String)
  (lat lng : Rat)
  durationMinutes : Int
  notes : Option String
  timestamp : String

def decodeCheckOut (v : Value) : Option FieldVisitCheckOutPayload := do
  let members ← structMembers ["check_out_ref", "task_ref", "agent_id", "lat", "lng",
    "duration_minutes", "notes", "timestamp"] v
  return {
    checkOutRef := ← required "check_out_ref" rustString members
    taskRef := ← required "task_ref" rustString members
    agentID := ← required "agent_id" rustString members
    lat := ← required "lat" rustFloat members
    lng := ← required "lng" rustFloat members
    durationMinutes := ← required "duration_minutes" rustInt64 members
    notes := ← optional "notes" rustString members
    timestamp := ← required "timestamp" rustString members }

/-- A visit of less than five minutes is forwarded before it is logged. -/
def handleFieldVisitCheckedOut (p : FieldVisitCheckOutPayload) (s : Processor) : Processor :=
  let suspicious := decide (p.durationMinutes < 5 ∧ 0 ≤ p.durationMinutes)
  let duration : Value := .number (Number.ofInt p.durationMinutes)
  let alerted :=
    if suspicious then
      s.forward
        [("event_type", .string "FIELD_VISIT_SHORT_DURATION_ALERT"),
          ("task_ref", .string p.taskRef), ("agent_id", .string p.agentID),
          ("duration_minutes", duration), ("severity", .string "medium"),
          ("message", .string (s!"Field visit completed in {p.durationMinutes}min" ++
            " — below minimum threshold of 5min")),
          ("timestamp", .string clock.now)]
    else s
  alerted.log
    [("event_type", .string "FIELD_VISIT_CHECKED_OUT"), ("check_out_ref", .string p.checkOutRef),
      ("task_ref", .string p.taskRef), ("agent_id", .string p.agentID),
      ("duration_minutes", duration), ("suspicious", .bool suspicious),
      ("processed_at", .string clock.now)]

/-- The payload of either thin-file event; the field of the actor has its own name in each. -/
structure ThinFilePayload where
  (investigationRef actor : String)
  reason : Option String
  timestamp : String

def decodeThinFile (actorField : String) (v : Value) : Option ThinFilePayload := do
  let members ← structMembers ["investigation_ref", actorField, "reason", "timestamp"] v
  return {
    investigationRef := ← required "investigation_ref" rustString members
    actor := ← required actorField rustString members
    reason := ← optional "reason" rustString members
    timestamp := ← required "timestamp" rustString members }

def handleThinFileFlagged (p : ThinFilePayload) (s : Processor) : Processor :=
  (s.log
    [("event_type", .string "THIN_FILE_FLAGGED"), ("investigation_ref", .string p.investigationRef),
      ("flagged_by", .string p.actor), ("reason", optionString p.reason),
      ("processed_at", .string clock.now)]).forward
    [("event_type", .string "THIN_FILE_FLAGGED"), ("investigation_ref", .string p.investigationRef),
      ("flagged_by", .string p.actor), ("reason", optionString p.reason),
      ("severity", .string "medium"),
      ("message", .string ("Investigation " ++ p.investigationRef ++ " flagged as thin-file by " ++
        p.actor)),
      ("timestamp", .string clock.now)]

def handleThinFileReverted (p : ThinFilePayload) (s : Processor) : Processor :=
  s.log
    [("event_type", .string "THIN_FILE_REVERTED"),
      ("investigation_ref", .string p.investigationRef), ("reverted_by", .string p.actor),
      ("processed_at", .string clock.now)]

structure MojaloopCompliancePayload where
  subjectRef : String
  approved : Bool
  riskLevel : String
  amount : Int
  timestamp : String

def decodeMojaloop (v : Value) : Option MojaloopCompliancePayload := do
  let members ← structMembers ["subject_ref", "approved", "risk_level", "amount", "timestamp"] v
  return {
    subjectRef := ← required "subject_ref" rustString members
    approved := ← required "approved" rustBool members
    riskLevel := ← required "risk_level" rustString members
    amount := ← required "amount" rustInt64 members
    timestamp := ← required "timestamp" rustString members }

def handleMojaloopCompliance (p : MojaloopCompliancePayload) (s : Processor) : Processor :=
  let amount : Value := .number (Number.ofInt p.amount)
  let logged := s.log
    [("event_type", .string "MOJALOOP_COMPLIANCE_CHECKED"), ("subject_ref", .string p.subjectRef),
      ("approved", .bool p.approved), ("risk_level", .string p.riskLevel), ("amount", amount),
      ("processed_at", .string clock.now)]
  if p.approved then logged
  else
    logged.forward
      [("event_type", .string "MOJALOOP_COMPLIANCE_BLOCKED"), ("subject_ref", .string p.subjectRef),
        ("risk_level", .string p.riskLevel), ("amount", amount), ("severity", .string "high"),
        ("message", .string ("Mojaloop transfer blocked for subject " ++ p.subjectRef ++
          " — compliance check failed (risk: " ++ p.riskLevel ++ ")")),
        ("timestamp", .string clock.now)]

structure FluvioCriminalRecordPayload where
  (recordRef offenceCategory verdict : String)
  riskContribution : Rat
  timestamp : String

def decodeFluvio (v : Value) : Option FluvioCriminalRecordPayload := do
  let members ← structMembers ["record_ref", "offence_category", "verdict", "risk_contribution",
    "timestamp"] v
  return {
    recordRef := ← required "record_ref" rustString members
    offenceCategory := ← required "offence_category" rustString members
    verdict := ← required "verdict" rustString members
    riskContribution := ← required "risk_contribution" rustFloat members
    timestamp := ← required "timestamp" rustString members }

def handleFluvioCriminalRecord (p : FluvioCriminalRecordPayload) (s : Processor) : Processor :=
  s.log
    [("event_type", .string "FLUVIO_CRIMINAL_RECORD"), ("record_ref", .string p.recordRef),
      ("offence_category", .string p.offenceCategory),
      ("risk_contribution", clock.float p.riskContribution), ("processed_at", .string clock.now)]

/-! ### Dispatch -/

/-- The handler of an event type, applied to a payload that it can decode. -/
def domainHandler (eventType : String) (payload : Value) : Option (Processor → Processor) :=
  match eventType with
  | "bis.criminal.record_ingested" =>
    (decodeCriminalRecord payload).map (handleCriminalRecordIngested clock)
  | "bis.corporate.check_completed" =>
    (decodeCorporateCheck payload).map (handleCorporateCheckCompleted clock)
  | "bis.field_visit.checked_in" => (decodeCheckIn payload).map (handleFieldVisitCheckedIn clock)
  | "bis.field_visit.checked_out" => (decodeCheckOut payload).map (handleFieldVisitCheckedOut clock)
  | "bis.investigation.thin_file_flagged" =>
    (decodeThinFile "flagged_by" payload).map (handleThinFileFlagged clock)
  | "bis.investigation.thin_file_reverted" =>
    (decodeThinFile "reverted_by" payload).map (handleThinFileReverted clock)
  | "bis.mojaloop.compliance_checked" =>
    (decodeMojaloop payload).map (handleMojaloopCompliance clock)
  | "bis.fluvio.criminal_record" => (decodeFluvio payload).map (handleFluvioCriminalRecord clock)
  | _ => none

def dispatchDomainEvent (event : BisEvent) (s : Processor) : Processor :=
  match domainHandler clock event.eventType event.payload with
  | some handler => handler s
  | none => s

def processEvent (event : BisEvent) (s : Processor) : Processor :=
  let entry : Members :=
    [("event_type", .string event.eventType), ("subject_ref", .string event.subjectRef),
      ("severity", .string event.severity), ("payload", event.payload),
      ("source", optionString event.source), ("processed_at", .string clock.now)]
  let handled := dispatchDomainEvent clock event (s.log entry)
  if event.severity ∈ ["high", "critical"] then handled.forward entry else handled

/-- The two builds: with the consumer of Kafka, or with the bridge that leaves it out. -/
inductive Build where
  | kafkaNative
  | httpBridge

def topics : Build → List String
  | .kafkaNative =>
    ["bis.events", "bis.payment.events", "bis.aml.alerts", "bis.ml.ueba-alerts",
      "bis.velocity.breaches"]
  | .httpBridge => []

/-- What the consumer makes of a message of a topic. -/
def receive (build : Build) (topic : String) (message : List Char) (s : Processor) : Processor :=
  if topic ∈ topics build then
    match decodeMessage message with
    | some event => processEvent clock event s
    | none => s
  else s

end Bis.Events
