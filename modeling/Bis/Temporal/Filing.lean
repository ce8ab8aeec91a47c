import Bis.Temporal.Replies

/-!
The two filing workflows of the compliance worker. A submission may be taken by
the FIU although its confirmation never arrives, and the database may have
stored a row although the statement seemed to fail, so an attempt of either
carries what it did beside what the worker sees of it.
-/

namespace Bis.Temporal

open Json

/-! ### The activities -/

/-- A struct that `json.Unmarshal` fills from a whole body, or its error. -/
def unmarshal {α : Type*} (tags : List String) (assign : String → Value → α → Option α) (zero : α)
    (body : Option Value) : Option α := body.bind (decodeStruct tags assign zero)

structure ValidationResult where
  valid : Bool
  errors : List String

def assignValidation (tag : String) (v : Value) (s : ValidationResult) : Option ValidationResult :=
  match tag with
  | "valid" => (goBool s.valid v).map fun x => { s with valid := x }
  | _ => (goStrings v).map fun x => { s with errors := x }

/-- An activity that replaces an error of its request, or of the decoding, by a fallback. -/
def withFallback {α : Type*} (decode : Option Value → Option α) (fallback : α)
    (attempt : Attempt) : Except Failure α :=
  match attempt with
  | .timedOut => .error .timedOut
  | _ =>
    match getJSON attempt with
    | .error _ => .ok fallback
    | .ok body => .ok ((decode body).getD fallback)

def validateSarData : Attempt → Except Failure ValidationResult :=
  withFallback (unmarshal ["valid", "errors"] assignValidation ⟨false, []⟩) ⟨true, []⟩

def computeSubjectRiskScore : Attempt → Except Failure Rat :=
  withFallback (unmarshal ["score"] (fun _ v s => goFloat64 s v) 0) 50

def generateGoAMLReport (sarID : Int) : Attempt → Except Failure String :=
  withFallback (unmarshal ["xmlPath"] (fun _ v s => goString s v) "") s!"/tmp/sar-{sarID}-goaml.xml"

def generateGoAMLXML (filingID : Int) : Attempt → Except Failure String :=
  withFallback (unmarshal ["xml"] (fun _ v s => goString s v) "")
    s!"<goAML><filingId>{filingID}</filingId></goAML>"

/-- The data, as the reply has them; an error of the request leaves none. -/
def fetchGoAmlData : Attempt → Except Failure (Option Value) := withFallback some none

/-- A request that fails counts as valid, a reply that does not decode as invalid. -/
def validateGoAMLSchema : Attempt → Except Failure Bool :=
  withFallback (fun body => some ((fieldOf "valid" asBool body).getD false)) true

/-- An attempt to submit: what the worker sees, and whether the FIU took the report
without a confirmation that arrives. -/
structure Submission where
  reply : Attempt
  taken : Bool

/-- The reference in a reply. -/
def referenceOf : Option Value → Option String :=
  unmarshal ["reference"] (fun _ v s => goString s v) ""

/-- A reply that says that the report was accepted, with its reference. -/
def Attempt.confirms : Attempt → Bool
  | .answered status body =>
    if 400 ≤ status then false else (referenceOf body).any fun reference => reference != ""
  | _ => false

def Submission.accepted (submission : Submission) : Bool :=
  submission.reply.confirms || submission.taken

def submitToNFIU (sarID : Int) (submission : Submission) : Except Failure String :=
  match getJSON submission.reply with
  | .error e => .error e
  | .ok body => .ok ((referenceOf body).getD s!"NFIU-SANDBOX-{sarID}")

/-- The reply's body is not looked at. -/
def submitGoAML (submission : Submission) : Except Failure Unit :=
  match getJSON submission.reply with
  | .error e => .error e
  | .ok _ => .ok ()

/-- A filing as the database holds it. -/
structure Filing where
  (status nfiuReference : String)
  submittedAt : Option String

inductive UpdateReply where
  | timedOut
  | noDatabase
  | failed
  | stored

/-- An attempt to update the row: how it ends, and when it wrote if it did. -/
structure UpdateAttempt where
  reply : UpdateReply
  wroteAt : Option String

def UpdateAttempt.write (attempt : UpdateAttempt) : Option String :=
  match attempt.reply with
  | .noDatabase => none
  | _ => attempt.wroteAt

def updateSarStatus (attempt : UpdateAttempt) : Except Unit Unit :=
  match attempt.reply with
  | .timedOut => .error ()
  | .failed => .error ()
  | .noDatabase => .ok ()
  | .stored => .ok ()

/-- The row after one attempt: `submitted_at` is set for every status. -/
def UpdateAttempt.apply (status nfiuRef : String) (row : Filing) (attempt : UpdateAttempt) :
    Filing :=
  match attempt.write with
  | none => row
  | some now => ⟨status, nfiuRef, some now⟩

/-- The attempts that an execution with so many retries makes. -/
def madeBy {τ ε α : Type*} (body : τ → Except ε α) (retries : Nat) (attempts : Nat → τ) : List τ :=
  (List.range (lastAttempt body attempts retries + 1)).map attempts

/-! ### The workflows -/

structure SarFilingRun where
  sarID : Int
  (validation score report : Nat → Attempt)
  submissions : Nat → Submission
  updates : Nat → UpdateAttempt
  now : String
  /-- The row before the run. -/
  filing : Filing

structure SarFilingResult where
  sarID : Int
  (status nfiuReference xmlReportPath : String)
  riskScore : Rat
  submittedAt : Option String
  /-- The error that the workflow returns beside its result. -/
  error : Option Failure

/-- What a run leaves behind. -/
structure Ending (R : Type*) where
  result : R
  stored : Filing
  made : List Submission

def sarFilingWorkflow (run : SarFilingRun) : Ending SarFilingResult :=
  match execute validateSarData 4 run.validation with
  | .error e => ⟨⟨run.sarID, "failed", "", "", 0, none, some e⟩, run.filing, []⟩
  | .ok validation =>
    if validation.valid = false then
      ⟨⟨run.sarID, "pending_review", "", "", 0, none, none⟩, run.filing, []⟩
    else
      let riskScore :=
        match execute computeSubjectRiskScore 4 run.score with
        | .ok score => score
        | .error _ => 50
      match execute (generateGoAMLReport run.sarID) 4 run.report with
      | .error e => ⟨⟨run.sarID, "failed", "", "", riskScore, none, some e⟩, run.filing, []⟩
      | .ok xmlPath =>
        let (status, nfiuRef) :=
          match execute (submitToNFIU run.sarID) 4 run.submissions with
          | .ok nfiuRef => ("submitted", nfiuRef)
          | .error _ => ("pending_nfiu", "")
        { result := ⟨run.sarID, status, nfiuRef, xmlPath, riskScore, some run.now, none⟩
          stored := (madeBy updateSarStatus 4 run.updates).foldl
            (UpdateAttempt.apply status nfiuRef) run.filing
          made := madeBy (submitToNFIU run.sarID) 4 run.submissions }

structure GoAmlFilingRun where
  filingID : Int
  (data xml schema : Nat → Attempt)
  submissions : Nat → Submission
  now : String
  filing : Filing

structure GoAmlFilingResult where
  filingID : Int
  (status xmlContent : String)
  submittedAt : Option String
  error : Option Failure

/-- The workflow stores nothing. -/
def goAmlFilingWorkflow (run : GoAmlFilingRun) : Ending GoAmlFilingResult :=
  match execute fetchGoAmlData 4 run.data with
  | .error e => ⟨⟨run.filingID, "failed", "", none, some e⟩, run.filing, []⟩
  | .ok _ =>
    match execute (generateGoAMLXML run.filingID) 4 run.xml with
    | .error e => ⟨⟨run.filingID, "failed", "", none, some e⟩, run.filing, []⟩
    | .ok xmlContent =>
      match execute validateGoAMLSchema 4 run.schema with
      | .ok true =>
        { result :=
            match execute submitGoAML 4 run.submissions with
            | .ok _ => ⟨run.filingID, "submitted", xmlContent, some run.now, none⟩
            | .error _ => ⟨run.filingID, "submission_failed", xmlContent, none, none⟩
          stored := run.filing
          made := madeBy submitGoAML 4 run.submissions }
      | _ => ⟨⟨run.filingID, "schema_invalid", xmlContent, none, none⟩, run.filing, []⟩

/-- The validator's reply, on which the activity returned, says that the XML is
not valid. -/
def schemaRefused (attempts : Nat → Attempt) : Bool :=
  match attempts (lastAttempt validateGoAMLSchema attempts 4) with
  | .answered _ body => fieldOf "valid" asBool body == some false
  | _ => false

/-! ### What a filing owes -/

/-- What is checked of a run: its returned status and time, the row and the submissions. -/
structure Account where
  status : String
  submittedAt : Option String
  stored : Filing
  made : List Submission
  /-- The schema validator refused the XML. -/
  refused : Bool

def SarFilingRun.account (run : SarFilingRun) : Account where
  status := (sarFilingWorkflow run).result.status
  submittedAt := (sarFilingWorkflow run).result.submittedAt
  stored := (sarFilingWorkflow run).stored
  made := (sarFilingWorkflow run).made
  refused := false

def GoAmlFilingRun.account (run : GoAmlFilingRun) : Account where
  status := (goAmlFilingWorkflow run).result.status
  submittedAt := (goAmlFilingWorkflow run).result.submittedAt
  stored := (goAmlFilingWorkflow run).stored
  made := (goAmlFilingWorkflow run).made
  refused := schemaRefused run.schema

/-- The FIU accepted the report and its reference came back. -/
def Account.Confirmed (account : Account) : Prop :=
  ∃ submission ∈ account.made, submission.reply.confirms = true

def Account.acceptances (account : Account) : Nat :=
  (account.made.filter Submission.accepted).length

structure Account.Lawful (account : Account) : Prop where
  returned_confirmed : account.status = "submitted" → account.Confirmed
  stored_confirmed : account.stored.status = "submitted" → account.Confirmed
  stored_eq : account.stored.status = account.status
  time_returned : account.submittedAt ≠ none → account.status = "submitted"
  time_stored : account.stored.submittedAt ≠ none → account.stored.status = "submitted"
  refused_unsent : account.refused = true → account.made = []
  once : account.acceptances ≤ 1

end Bis.Temporal
