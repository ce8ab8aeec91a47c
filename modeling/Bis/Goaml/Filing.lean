import Bis.Relation.Keyed
import Bis.Transition.Run

/-!
Suspicious transaction reports. A filing is a row with its report and the XML that
was made of it. `submit` and `bulkSubmit` claim a draft, send the XML under the
filing reference as idempotency key, and write down what came back, each a step of
its own. Any number of calls run at once, and each may fail or be lost at any step.

Dates are in ISO form and amounts as they are printed.
-/

namespace Bis.Goaml

open Bis.Relation Bis.Transition

/-! ### Filings -/

inductive StrStatus where
  | draft | submitted | accepted | rejected | pendingReview
  deriving DecidableEq

def StrStatus.name : StrStatus → String
  | .draft => "draft"
  | .submitted => "submitted"
  | .accepted => "accepted"
  | .rejected => "rejected"
  | .pendingReview => "pending_review"

structure Report where
  (reportType subjectName : String)
  (subjectBvn subjectNin subjectAccountNumber subjectBank transactionDate : Option String)
  (transactionAmount transactionCurrency : Option String)
  suspiciousActivity : String
  narrativeDetails : Option String

structure Filing where
  (id tenantId : Nat)
  filingRef : String
  status : StrStatus
  report : Report
  (goamlXml goamlReferenceNumber : Option String)

/-- The document that a submission sends. -/
def Filing.document (filing : Filing) : String := filing.goamlXml.getD ""

/-! ### The document -/

def isoDay (instant : String) : String := (instant.splitOn "T").headD instant

def firstName (name : String) : String := (name.splitOn " ").headD name

def lastName (name : String) : String :=
  let rest := " ".intercalate ((name.splitOn " ").drop 1)
  if rest = "" then "N/A" else rest

/-- An empty string is left out, as a missing one. -/
def idNumber (kind : String) (number : Option String) : String :=
  match number with
  | none => ""
  | some number =>
    if number = "" then "" else "<id_number type=\"" ++ kind ++ "\">" ++ number ++ "</id_number>"

def generateGoamlXml (filingRef : String) (report : Report) (now : String) : String :=
  "\n".intercalate
    ["<?xml version=\"1.0\" encoding=\"UTF-8\"?>",
     "<goAML xmlns=\"http://www.goaml.org/schema/v4.0\"",
     "       xmlns:xsi=\"http://www.w3.org/2001/XMLSchema-instance\"",
     "       xsi:schemaLocation=\"http://www.goaml.org/schema/v4.0 goAML.xsd\">",
     "  <report>",
     "    <rentity_id>BIS-PLATFORM-001</rentity_id>",
     "    <rentity_branch>MAIN</rentity_branch>",
     "    <submission_code>E</submission_code>",
     "    <report_code>" ++ report.reportType ++ "</report_code>",
     "    <entity_reference>" ++ filingRef ++ "</entity_reference>",
     "    <fiu_ref_number></fiu_ref_number>",
     "    <submission_date>" ++ now ++ "</submission_date>",
     "    <currency_code_local>" ++ report.transactionCurrency.getD "NGN" ++
       "</currency_code_local>",
     "    <reporting_person>",
     "      <gender>U</gender>",
     "      <first_name>BIS</first_name>",
     "      <last_name>Platform</last_name>",
     "      <occupation>Compliance Officer</occupation>",
     "    </reporting_person>",
     "    <location>",
     "      <address_type>B</address_type>",
     "      <country>NG</country>",
     "    </location>",
     "    <reason>" ++ report.suspiciousActivity ++ "</reason>",
     "    <action>Reported via BIS Platform automated STR wizard</action>",
     "    <transaction>",
     "      <transactionnumber>" ++ filingRef ++ "-TXN</transactionnumber>",
     "      <transaction_location>NG</transaction_location>",
     "      <date_transaction>" ++ isoDay (report.transactionDate.getD now) ++ "</date_transaction>",
     "      <teller>0</teller>",
     "      <late_deposit>false</late_deposit>",
     "      <amount_local>" ++ report.transactionAmount.getD "0" ++ "</amount_local>",
     "      <involved_party>",
     "        <party>",
     "          <funds_code>W</funds_code>",
     "          <first_name>" ++ firstName report.subjectName ++ "</first_name>",
     "          <last_name>" ++ lastName report.subjectName ++ "</last_name>",
     "          <is_primary>true</is_primary>",
     "          <role>S</role>",
     "          <account>",
     "            <institution_name>" ++ report.subjectBank.getD "Unknown" ++ "</institution_name>",
     "            <account_number>" ++ report.subjectAccountNumber.getD "N/A" ++
       "</account_number>",
     "            <currency_code>NGN</currency_code>",
     "            <account_name>" ++ report.subjectName ++ "</account_name>",
     "          </account>",
     "          <identification>",
     "            " ++ idNumber "BVN" report.subjectBvn,
     "            " ++ idNumber "NIN" report.subjectNin,
     "          </identification>",
     "        </party>",
     "      </involved_party>",
     "    </transaction>",
     "    <narrative>" ++ report.narrativeDetails.getD report.suspiciousActivity ++ "</narrative>",
     "  </report>",
     "</goAML>"]

/-! ### The answer of the financial intelligence unit -/

structure NfiuBody where
  (referenceNumber status : Option String)
  errors : Option (List String)
  deriving DecidableEq

inductive NfiuResponse where
  | notOk (status : Nat) (text : String)
  | ok (body : NfiuBody)
  /-- No connection, no answer in time, or a body that is not JSON. -/
  | networkError (message : String)
  deriving DecidableEq

structure NfiuResult where
  referenceNumber : String
  accepted : Bool
  errors : List String

def NfiuBody.accepted (body : NfiuBody) : Bool :=
  body.status == some "accepted" && body.referenceNumber.getD "" != ""

def NfiuResponse.accepts : NfiuResponse → Bool
  | .ok body => body.accepted
  | .notOk _ _ | .networkError _ => false

/-- What `submitToNfiu` makes of the response; there is none without a configuration. -/
def submitToNfiu : Option NfiuResponse → NfiuResult
  | none =>
    { referenceNumber := "", accepted := false
      errors := ["NFIU goAML is not configured; the filing was not submitted."] }
  | some (.notOk status text) =>
    { referenceNumber := "", accepted := false
      errors := ["NFIU API " ++ toString status ++ ": " ++ String.ofList (text.toList.take 200)] }
  | some (.ok body) =>
    { referenceNumber := body.referenceNumber.getD "", accepted := body.accepted
      errors := body.errors.getD
        (if body.accepted then [] else ["NFIU did not return an accepted filing reference."]) }
  | some (.networkError message) =>
    { referenceNumber := "", accepted := false, errors := ["Network error: " ++ message] }

/-- The filing goes back to a draft. -/
def NfiuResult.refused (result : NfiuResult) : Bool :=
  !result.accepted && decide (0 < result.errors.length)

/-! ### Calls -/

structure Updates where
  (subjectName subjectBvn subjectNin subjectAccountNumber subjectBank transactionDate : Option String)
  (transactionAmount suspiciousActivity narrativeDetails : Option String)

def Updates.apply (updates : Updates) (report : Report) : Report where
  reportType := report.reportType
  subjectName := updates.subjectName.getD report.subjectName
  subjectBvn := updates.subjectBvn <|> report.subjectBvn
  subjectNin := updates.subjectNin <|> report.subjectNin
  subjectAccountNumber := updates.subjectAccountNumber <|> report.subjectAccountNumber
  subjectBank := updates.subjectBank <|> report.subjectBank
  transactionDate := updates.transactionDate <|> report.transactionDate
  transactionAmount := updates.transactionAmount <|> report.transactionAmount
  transactionCurrency := report.transactionCurrency
  suspiciousActivity := updates.suspiciousActivity.getD report.suspiciousActivity
  narrativeDetails := updates.narrativeDetails <|> report.narrativeDetails

inductive ResultStatus where
  | submitted | skipped | error

structure BulkResult where
  id : Nat
  filingRef : String
  status : ResultStatus
  (goamlReferenceNumber reason : Option String)

inductive Stage where
  /-- `update` has read the draft. -/
  | editing (existing : Filing) (updates : Updates)
  /-- Before the next filing of a bulk submission. -/
  | next (rest : List Nat)
  /-- Seen as a draft by a bulk submission, or to be submitted by `submit`. -/
  | selected (id : Nat) (filingRef : String) (rest : List Nat)
  | claimed (filing : Filing) (rest : List Nat)
  | sent (filing : Filing) (rest : List Nat)
  | answered (filing : Filing) (response : Option NfiuResponse) (rest : List Nat)
  | done

structure Call where
  (id tenantId : Nat)
  bulk : Bool
  stage : Stage
  results : List BulkResult

structure Sending where
  (idempotencyKey xmlPayload : String)

structure System where
  /-- Whether the API key and the institution code are set. -/
  configured : Bool
  nextId : Nat
  filings : List Filing
  calls : List Call
  /-- Every document that was sent. -/
  sendings : List Sending

def System.empty (configured : Bool) : System := ⟨configured, 1, [], [], []⟩

inductive Action where
  | write (now : String)
  | select
  | claim
  | send
  | answer (response : NfiuResponse)
  | finish
  /-- An error of the database; the write may have been made all the same. -/
  | databaseError (written : Bool)
  | crash

inductive Label where
  | create (tenantId : Nat) (filingRef : String) (report : Report) (now : String)
  | update (call tenantId id : Nat) (updates : Updates)
  | submit (call tenantId id : Nat)
  | bulkSubmit (call tenantId : Nat) (ids : List Nat)
  | delete (tenantId id : Nat)
  | act (call : Nat) (action : Action)

/-! ### What a call writes -/

def Filing.isDraft (tenantId id : Nat) (row : Filing) : Bool :=
  row.id == id && (row.tenantId == tenantId && row.status == .draft)

def claim (tenantId id : Nat) (filings : List Filing) : List Filing :=
  updateWhere (Filing.isDraft tenantId id) (fun row => { row with status := .pendingReview }) filings

def writeUpdate (tenantId : Nat) (existing : Filing) (updates : Updates) (now : String)
    (filings : List Filing) : List Filing :=
  updateWhere (Filing.isDraft tenantId existing.id)
    (fun row =>
      { row with
        report := updates.apply row.report
        goamlXml := some (generateGoamlXml existing.filingRef (updates.apply existing.report) now) })
    filings

/-- A refused filing is a draft again; any other is submitted. -/
def finish (tenantId id : Nat) (result : NfiuResult) (filings : List Filing) : List Filing :=
  if result.refused then
    updateWhere (fun row => row.id == id && row.status == .pendingReview)
      (fun row => { row with status := .draft }) filings
  else
    updateWhere (fun row => row.id == id && (row.tenantId == tenantId && row.status == .pendingReview))
      (fun row =>
        { row with status := .submitted, goamlReferenceNumber := some result.referenceNumber })
      filings

namespace Call

/-- The call goes on with the next filing. -/
def goOn (call : Call) (rest : List Nat) (result : BulkResult) : Call :=
  if call.bulk then { call with stage := .next rest, results := call.results ++ [result] }
  else { call with stage := .done }

def failed (call : Call) (id : Nat) (rest : List Nat) : Call :=
  call.goOn rest
    { id, filingRef := "", status := .error, goamlReferenceNumber := none, reason := some "Error" }

def finished (call : Call) (filing : Filing) (rest : List Nat) (result : NfiuResult) : Call :=
  if result.refused then
    call.goOn rest
      { id := filing.id, filingRef := filing.filingRef, status := .error
        goamlReferenceNumber := none, reason := some ("; ".intercalate result.errors) }
  else
    call.goOn rest
      { id := filing.id, filingRef := filing.filingRef, status := .submitted
        goamlReferenceNumber := some result.referenceNumber, reason := none }

end Call

namespace System

/-- A call goes on; the rows are then `filings`. -/
def goOn (s : System) (call : Call) (filings : List Filing) : System :=
  { s with calls := upsert Call.id call s.calls, filings }

def select (s : System) (call : Call) (id : Nat) (rest : List Nat) : Call :=
  match s.filings.find? fun row => row.id == id && row.tenantId == call.tenantId with
  | none =>
    call.goOn rest
      { id, filingRef := "", status := .error, goamlReferenceNumber := none
        reason := some "Filing not found" }
  | some filing =>
    if filing.status ≠ .draft then
      call.goOn rest
        { id, filingRef := filing.filingRef, status := .skipped, goamlReferenceNumber := none
          reason := some ("Already " ++ filing.status.name) }
    else { call with stage := .selected id filing.filingRef rest }

def act (s : System) (id : Nat) (action : Action) : Option System := do
  let call ← lookup Call.id id s.calls
  match call.stage, action with
  | .editing existing updates, .write now =>
    some (s.goOn { call with stage := .done }
      (writeUpdate call.tenantId existing updates now s.filings))
  | .next (filing :: rest), .select => some (s.goOn (s.select call filing rest) s.filings)
  | .next (filing :: rest), .databaseError _ =>
    some (s.goOn (call.failed filing rest) s.filings)
  | .selected filing filingRef rest, .claim =>
    match s.filings.find? (Filing.isDraft call.tenantId filing) with
    | none =>
      some (s.goOn
        (call.goOn rest
          { id := filing, filingRef, status := .skipped, goamlReferenceNumber := none
            reason := some "Filing was claimed by another submission" })
        s.filings)
    | some row =>
      some (s.goOn { call with stage := .claimed { row with status := .pendingReview } rest }
        (claim call.tenantId filing s.filings))
  | .selected filing _ rest, .databaseError written =>
    some (s.goOn (call.failed filing rest)
      (if written then claim call.tenantId filing s.filings else s.filings))
  | .claimed filing rest, .send =>
    if s.configured then
      some { s.goOn { call with stage := .sent filing rest } s.filings with
        sendings := s.sendings ++ [⟨filing.filingRef, filing.document⟩] }
    else some (s.goOn { call with stage := .answered filing none rest } s.filings)
  | .sent filing rest, .answer response =>
    some (s.goOn { call with stage := .answered filing (some response) rest } s.filings)
  | .answered filing response rest, .finish =>
    some (s.goOn (call.finished filing rest (submitToNfiu response))
      (finish call.tenantId filing.id (submitToNfiu response) s.filings))
  | .answered filing response rest, .databaseError written =>
    some (s.goOn (call.failed filing.id rest)
      (if written then finish call.tenantId filing.id (submitToNfiu response) s.filings
       else s.filings))
  | _, .crash => some (s.goOn { call with stage := .done } s.filings)
  | _, _ => none

def call (s : System) (id tenantId : Nat) (bulk : Bool) (stage : Stage) : Option System :=
  if s.calls.any fun call => call.id == id then none
  else some { s with calls := s.calls ++ [⟨id, tenantId, bulk, stage, []⟩] }

def step : Step System Label
  | s, .create tenantId filingRef report now =>
    if s.filings.any fun row => row.filingRef == filingRef then none
    else some { s with
      nextId := s.nextId + 1
      filings := s.filings ++
        [{ id := s.nextId, tenantId, filingRef, status := .draft, report
           goamlXml := some (generateGoamlXml filingRef report now)
           goamlReferenceNumber := none }] }
  | s, .update call tenantId id updates =>
    match s.filings.find? (Filing.isDraft tenantId id) with
    | none => none
    | some existing => s.call call tenantId false (.editing existing updates)
  | s, .submit call tenantId id => s.call call tenantId false (.selected id "" [])
  | s, .bulkSubmit call tenantId ids => s.call call tenantId true (.next ids)
  | s, .delete tenantId id =>
    some { s with filings := s.filings.filter fun row => !row.isDraft tenantId id }
  | s, .act call action => s.act call action

end System

end Bis.Goaml
