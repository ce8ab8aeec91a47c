import Bis.Encoding.Base64Url
import Bis.Json.Escape
import Bis.Json.RoundTrip
import Bis.Temporal.Replies
import Mathlib.Algebra.Order.Ring.Unbundled.Rat

/-!
The events that the gateway publishes about criminal records, corporate checks,
field visits and thin files. Each is a map under keys of its own; it becomes the
payload of an outbox row, and what is sent to Kafka in the end is the JSON of
that row's bytes, which `encoding/json` writes as a base64 string.
-/

namespace Bis.Events

open Json
open Temporal (Members entry asString asBool)

/-- What the handlers take from their surroundings. -/
structure Surroundings where
  now : String
  /-- `operationRef`: a reference under a prefix. -/
  operationRef : String → String
  /-- The ID of a workflow of a type, if Temporal starts it. -/
  startWorkflow : String → Option String
  /-- How `encoding/json` writes a `float64`. -/
  formatFloat : Rat → Number
  /-- The entry of the cache under a key, as minutes since the time it holds. -/
  minutesSince : String → Option Int
  /-- The answers of the providers, if they are configured and answer. -/
  (cac firs directors : Option Members)

structure Published where
  topic : String
  payload : Value

structure GatewayError where
  status : Nat
  (code message : String)

/-- A map as `encoding/json` writes it, in the order of its keys. -/
def goObject (members : Members) : Value :=
  .object (members.mergeSort fun a b => decide (a.1 ≤ b.1))

def publishEvent (topic : String) (members : Members) : Published := ⟨topic, goObject members⟩

def missingFields (message : String) : GatewayError := ⟨400, "missing_fields", message⟩

variable (env : Surroundings)

def Surroundings.workflowID (workflowType : String) : String :=
  (env.startWorkflow workflowType).getD "temporal-unavailable"

def Surroundings.float (x : Rat) : Value := .number (env.formatFloat x)

/-! ### Criminal records -/

structure CriminalRecordRequest where
  (subjectName nin agency state priority requestedBy investRef : String)

def handleCriminalRecordRequest (req : CriminalRecordRequest) :
    Except GatewayError (List Published) :=
  if req.subjectName = "" ∨ req.agency = "" ∨ req.state = "" then
    .error (missingFields "subjectName, agency, and state are required")
  else
    .ok [publishEvent "bis.criminal.request_submitted"
      [("requestRef", .string (env.operationRef "CRR")), ("agency", .string req.agency),
        ("subjectName", .string req.subjectName), ("nin", .string req.nin),
        ("state", .string req.state), ("priority", .string req.priority),
        ("investigationRef", .string req.investRef), ("requestedBy", .string req.requestedBy),
        ("workflowId", .string (env.workflowID "CriminalRecordsWorkflow")),
        ("timestamp", .string env.now)]]

structure CriminalRecordIngest where
  (requestRef subjectName nin offenceCategory offenceDesc verdict : String)
  outstandingWarrant : Bool
  ingestSource : String

def baseContribution (category : String) : Rat :=
  if category = "terrorism" then 90
  else if category = "violent" then 70
  else if category = "financial" then 60
  else if category = "cybercrime" then 55
  else if category = "drug" then 50
  else if category = "corruption" then 65
  else if category = "sexual" then 75
  else if category = "property" then 35
  else if category = "traffic" then 15
  else if category = "other" then 25
  else 30

/-- How a product rounds is left out. -/
def computeCriminalRiskContribution (category verdict : String) (warrant : Bool) : Rat :=
  let score := baseContribution category
  let modified :=
    if verdict = "convicted" then score
    else if verdict = "pending" then score * (7 / 10)
    else if verdict ∈ ["acquitted", "discharged", "nolle_prosequi"] then score * (2 / 10)
    else score * (5 / 10)
  if warrant then min (modified + 20) 100 else modified

def handleCriminalRecordIngest (req : CriminalRecordIngest) :
    Except GatewayError (List Published) :=
  if req.requestRef = "" ∨ req.subjectName = "" ∨ req.offenceDesc = "" then
    .error (missingFields "requestRef, subjectName, and offenceDescription are required")
  else
    let recordRef := env.operationRef "CR"
    let riskContribution :=
      computeCriminalRiskContribution req.offenceCategory req.verdict req.outstandingWarrant
    .ok
      [publishEvent "bis.criminal.record_ingested"
        [("recordRef", .string recordRef), ("requestRef", .string req.requestRef),
          ("subjectName", .string req.subjectName), ("nin", .string req.nin),
          ("offenceCategory", .string req.offenceCategory), ("verdict", .string req.verdict),
          ("outstandingWarrant", .bool req.outstandingWarrant),
          ("riskContribution", env.float riskContribution),
          ("ingestSource", .string req.ingestSource), ("timestamp", .string env.now)],
        publishEvent "bis.fluvio.criminal_record"
        [("recordRef", .string recordRef), ("offenceCategory", .string req.offenceCategory),
          ("verdict", .string req.verdict), ("riskContribution", env.float riskContribution),
          ("timestamp", .string env.now)]]

structure CriminalRecordVerify where
  (recordRef verifiedBy notes : String)

def handleCriminalRecordVerify (req : CriminalRecordVerify) :
    Except GatewayError (List Published) :=
  if req.recordRef = "" ∨ req.verifiedBy = "" then
    .error (missingFields "recordRef and verifiedBy are required")
  else
    .ok [publishEvent "bis.criminal.record_verified"
      [("recordRef", .string req.recordRef), ("verifiedBy", .string req.verifiedBy),
        ("notes", .string req.notes), ("timestamp", .string env.now)]]

/-! ### Corporate check -/

structure CorporateCheckRequest where
  (rcNumber companyName tin : String)
  checks : List String
  investRef : String

/-- What the checks made so far have come to. -/
structure Findings where
  riskScore : Rat
  flags : List String
  cac : Option Members

def runCACCheck (rcNumber : String) : Members :=
  env.cac.getD [("rcNumber", .string rcNumber), ("status", .string "unavailable"),
    ("error", .string "CAC provider is unavailable; no corporate profile was returned.")]

def runFIRSCheck (rcNumber tin : String) : Members :=
  env.firs.getD [("rcNumber", .string rcNumber), ("tin", .string tin),
    ("status", .string "unavailable"),
    ("error", .string "FIRS provider is unavailable; no tax-clearance decision was returned.")]

def runDirectorsCheck (rcNumber : String) : Members :=
  env.directors.getD [("rcNumber", .string rcNumber), ("status", .string "unavailable"),
    ("error",
      .string "CAC directors provider is unavailable; no director or UBO data was returned.")]

def runCorporateSanctionsCheck (companyName rcNumber : String) : Members :=
  if companyName = "" then
    [("rcNumber", .string rcNumber), ("status", .string "unavailable"),
      ("error", .string "A company name is required for sanctions screening.")]
  else
    [("companyName", .string companyName), ("rcNumber", .string rcNumber),
      ("status", .string "unavailable"),
      ("error", .string ("No corporate sanctions provider is configured; " ++
        "no screening decision was returned."))]

def unavailable (code : String) (result : Members) : Except GatewayError Unit :=
  match asString (entry "error" result) with
  | some message => .error ⟨503, code, message⟩
  | none => .ok ()

def runCheck (req : CorporateCheckRequest) (findings : Findings) (check : String) :
    Except GatewayError Findings := do
  if check = "cac_full" then
    let result := runCACCheck env req.rcNumber
    unavailable "cac_unavailable" result
    match asString (entry "status" result) with
    | some status =>
      if status ≠ "active" then
        return { findings with
          riskScore := findings.riskScore + 20
          flags := findings.flags ++ ["CAC status: " ++ status]
          cac := some result }
      else return { findings with cac := some result }
    | none => return { findings with cac := some result }
  else if check = "firs_tax" then
    let result := runFIRSCheck env req.rcNumber req.tin
    unavailable "firs_unavailable" result
    if asBool (entry "taxClearance" result) = some false then
      return { findings with
        riskScore := findings.riskScore + 25
        flags := findings.flags ++ ["FIRS: tax clearance not obtained"] }
    else return findings
  else if check = "directors" then
    unavailable "cac_directors_unavailable" (runDirectorsCheck env req.rcNumber)
    return findings
  else if check = "sanctions" then
    let name :=
      if req.companyName = "" then
        ((findings.cac.map (entry "companyName")).bind asString).getD ""
      else req.companyName
    let result := runCorporateSanctionsCheck name req.rcNumber
    unavailable "sanctions_unavailable" result
    if asBool (entry "hit" result) = some true then
      return { findings with
        riskScore := findings.riskScore + 50
        flags := findings.flags ++ ["Sanctions hit detected"] }
    else return findings
  else return findings

def corporateOutcome (riskScore : Rat) : String :=
  if 50 ≤ riskScore then "adverse" else if 20 ≤ riskScore then "consider" else "clear"

def handleCorporateCheck (req : CorporateCheckRequest) : Except GatewayError (List Published) :=
  if req.rcNumber = "" then .error (missingFields "rcNumber is required")
  else do
    let checks :=
      if req.checks = [] then ["cac_full", "firs_tax", "directors", "sanctions"] else req.checks
    let findings ← checks.foldlM (runCheck env req) ⟨0, [], none⟩
    let riskScore := min findings.riskScore 100
    return [publishEvent "bis.corporate.check_completed"
      [("checkRef", .string (env.operationRef "CORP")), ("rcNumber", .string req.rcNumber),
        ("outcome", .string (corporateOutcome riskScore)), ("riskScore", env.float riskScore),
        ("flags", .array (findings.flags.map .string)),
        ("workflowId", .string (env.workflowID "CorporateCheckWorkflow")),
        ("investigationRef", .string req.investRef), ("timestamp", .string env.now)]]

/-! ### Field visits -/

structure FieldVisitCheckIn where
  (taskRef agentID : String)
  (lat lng accuracy : Rat)
  notes : String

def handleFieldVisitCheckIn (req : FieldVisitCheckIn) : Except GatewayError (List Published) :=
  if req.taskRef = "" ∨ req.agentID = "" then
    .error (missingFields "taskRef and agentId are required")
  else
    .ok [publishEvent "bis.field_visit.checked_in"
      [("checkInRef", .string (env.operationRef "CHIN")), ("taskRef", .string req.taskRef),
        ("agentId", .string req.agentID), ("lat", env.float req.lat), ("lng", env.float req.lng),
        ("accuracy", env.float req.accuracy), ("notes", .string req.notes),
        ("timestamp", .string env.now)]]

structure FieldVisitCheckOut where
  (taskRef agentID : String)
  (lat lng : Rat)
  notes : String

def handleFieldVisitCheckOut (req : FieldVisitCheckOut) : Except GatewayError (List Published) :=
  if req.taskRef = "" ∨ req.agentID = "" then
    .error (missingFields "taskRef and agentId are required")
  else
    let durationMinutes := (env.minutesSince ("field_visit:checkin:" ++ req.taskRef)).getD 0
    .ok [publishEvent "bis.field_visit.checked_out"
      [("checkOutRef", .string (env.operationRef "CHOUT")), ("taskRef", .string req.taskRef),
        ("agentId", .string req.agentID), ("lat", env.float req.lat), ("lng", env.float req.lng),
        ("durationMinutes", .number (Number.ofInt durationMinutes)),
        ("notes", .string req.notes), ("timestamp", .string env.now)]]

/-! ### Thin files -/

structure ThinFileRequest where
  (investRef reason : String)
  /-- Who flags, or reverts, the investigation. -/
  actor : String

def handleThinFileFlag (req : ThinFileRequest) : Except GatewayError (List Published) :=
  if req.investRef = "" ∨ req.actor = "" then
    .error (missingFields "investigationRef and flaggedBy are required")
  else
    .ok [publishEvent "bis.investigation.thin_file_flagged"
      [("investigationRef", .string req.investRef), ("flaggedBy", .string req.actor),
        ("reason", .string req.reason), ("timestamp", .string env.now)]]

def handleThinFileRevert (req : ThinFileRequest) : Except GatewayError (List Published) :=
  if req.investRef = "" ∨ req.actor = "" then
    .error (missingFields "investigationRef and revertedBy are required")
  else
    .ok [publishEvent "bis.investigation.thin_file_reverted"
      [("investigationRef", .string req.investRef), ("revertedBy", .string req.actor),
        ("reason", .string req.reason), ("timestamp", .string env.now)]]

/-! ### What is published -/

inductive GatewayRequest where
  | criminalRecordRequest (req : CriminalRecordRequest)
  | criminalRecordIngest (req : CriminalRecordIngest)
  | criminalRecordVerify (req : CriminalRecordVerify)
  | corporateCheck (req : CorporateCheckRequest)
  | fieldVisitCheckIn (req : FieldVisitCheckIn)
  | fieldVisitCheckOut (req : FieldVisitCheckOut)
  | thinFileFlag (req : ThinFileRequest)
  | thinFileRevert (req : ThinFileRequest)

/-- The events that a request publishes, unless it is refused. -/
def handle : GatewayRequest → Except GatewayError (List Published)
  | .criminalRecordRequest req => handleCriminalRecordRequest env req
  | .criminalRecordIngest req => handleCriminalRecordIngest env req
  | .criminalRecordVerify req => handleCriminalRecordVerify env req
  | .corporateCheck req => handleCorporateCheck env req
  | .fieldVisitCheckIn req => handleFieldVisitCheckIn env req
  | .fieldVisitCheckOut req => handleFieldVisitCheckOut env req
  | .thinFileFlag req => handleThinFileFlag env req
  | .thinFileRevert req => handleThinFileRevert env req

/-- Base64 with padding, as `encoding/json` writes bytes. -/
def base64StdEncode (bytes : List UInt8) : List Char :=
  let sextets := (Encoding.base64UrlEncode bytes).map fun c =>
    if c = '-' then '+' else if c = '_' then '/' else c
  sextets ++ List.replicate ((4 - sextets.length % 4) % 4) '='

/-- The payload of the outbox row: `json.Marshal` of the map. -/
def Published.row (event : Published) : List UInt8 :=
  (String.ofList (render goTable.escape event.payload)).toUTF8.data.toList

/-- The value of the Kafka message: `Publish` marshals the row's bytes once more. -/
def Published.message (event : Published) : List Char :=
  render goTable.escape (.string (String.ofList (base64StdEncode event.row)))

end Bis.Events
