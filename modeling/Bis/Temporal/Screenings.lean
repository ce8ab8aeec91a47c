import Bis.Temporal.FailClosed
import Bis.Temporal.Replies
import Bis.Temporal.Scores

/-!
The screening order: one activity for each requested type, the scorer over what
they returned, and an outcome from the adverse items and the mean score. The
screening activity does not fail; what goes wrong becomes a result whose outcome
is `error`. The activities after the outcome is settled are left out.
-/

namespace Bis.Temporal

open Json

variable {S : Type*} [LinearOrder S]

structure ScreeningResult (S : Type*) where
  (screeningType outcome : String)
  riskScore : S
  summary : String
  details : Members
  sources : List String
  (completedAt error : String)

inductive OverallOutcome where
  | clear
  | consider
  | adverse
deriving DecidableEq

def OverallOutcome.rank : OverallOutcome → Nat
  | .clear => 0
  | .consider => 1
  | .adverse => 2

structure ScreeningOrderInput where
  orderRef : String
  screeningTypes : List String

structure ScreeningOrderResult (S : Type*) where
  orderRef : String
  overallOutcome : OverallOutcome
  compositeScore : S
  results : List (ScreeningResult S)
  adverseItems : List String
  requiresAdverse : Bool
  (completedAt status : String)

structure ScreeningRun where
  input : ScreeningOrderInput
  /-- The attempts to run the screening of an index. -/
  screenings : Nat → Nat → Attempt
  batch : Nat → Attempt
  now : String
  /-- How the SDK renders an error. -/
  errorText : Failure → String

def emptyResult (arith : Arithmetic S) : ScreeningResult S :=
  ⟨"", "", arith.ofRat 0, "", [], [], "", ""⟩

/-- A map that is decoded into an existing map adds to it. -/
def goMapInto (old : Members) : Value → Option Members
  | .null => some []
  | v => (goMap v).map (old ++ ·)

def assignResult (arith : Arithmetic S) (tag : String) (v : Value) (s : ScreeningResult S) :
    Option (ScreeningResult S) :=
  match tag with
  | "screening_type" => (goString s.screeningType v).map fun x => { s with screeningType := x }
  | "outcome" => (goString s.outcome v).map fun x => { s with outcome := x }
  | "risk_score" =>
    match v with
    | .null => some s
    | _ => (asFloat v).map fun x => { s with riskScore := arith.ofRat x }
  | "summary" => (goString s.summary v).map fun x => { s with summary := x }
  | "details" => (goMapInto s.details v).map fun x => { s with details := x }
  | "sources" => (goStrings v).map fun x => { s with sources := x }
  | "completed_at" => (goString s.completedAt v).map fun x => { s with completedAt := x }
  | _ => (goString s.error v).map fun x => { s with error := x }

def decodeResult (arith : Arithmetic S) : Value → Option (ScreeningResult S) :=
  decodeStruct ["screening_type", "outcome", "risk_score", "summary", "details", "sources",
    "completed_at", "error"] (assignResult arith) (emptyResult arith)

/-- `RunScreeningActivity`: the status of the reply is not looked at. -/
def runScreening (arith : Arithmetic S) (errorText : Failure → String) (screeningType : String) :
    Attempt → Except Failure (ScreeningResult S)
  | .timedOut => .error .timedOut
  | .unreachable =>
    .ok { emptyResult arith with
      screeningType := screeningType, outcome := "error", error := errorText .unreachable }
  | .answered _ body =>
    match body.bind (decodeResult arith) with
    | some result => .ok result
    | none =>
      .ok { emptyResult arith with
        screeningType := screeningType
        outcome := "error"
        error := "decode error: " ++ errorText .undecodable }

structure ScoredResult where
  screeningType : String
  compositeRiskScore : Rat
  (riskBand recommendation : String)

def assignScored (tag : String) (v : Value) (s : ScoredResult) : Option ScoredResult :=
  match tag with
  | "screening_type" => (goString s.screeningType v).map fun x => { s with screeningType := x }
  | "composite_risk_score" =>
    (goFloat64 s.compositeRiskScore v).map fun x => { s with compositeRiskScore := x }
  | "risk_band" => (goString s.riskBand v).map fun x => { s with riskBand := x }
  | _ => (goString s.recommendation v).map fun x => { s with recommendation := x }

def decodeScored : Value → Option (List ScoredResult)
  | .null => some []
  | .array items =>
    items.mapM (decodeStruct
      ["screening_type", "composite_risk_score", "risk_band", "recommendation"]
      assignScored ⟨"", 0, "", ""⟩)
  | _ => none

/-- The scores are merged by position. -/
def mergeScores (arith : Arithmetic S) :
    List (ScreeningResult S) → List ScoredResult → List (ScreeningResult S)
  | result :: results, scored :: rest =>
    { result with
      riskScore := arith.ofRat scored.compositeRiskScore
      details := result.details ++
        [("risk_band", .string scored.riskBand),
          ("recommendation", .string scored.recommendation)] } ::
      mergeScores arith results rest
  | results, _ => results

/-- `BatchScoreActivity`, which fails open. -/
def batchScore (arith : Arithmetic S) (results : List (ScreeningResult S)) :
    Attempt → Except Failure (List (ScreeningResult S))
  | .timedOut => .error .timedOut
  | .unreachable => .ok results
  | .answered _ body =>
    match body.bind decodeScored with
    | none => .ok results
    | some scored => .ok (mergeScores arith results scored)

def executedScreening (arith : Arithmetic S) (run : ScreeningRun) (screeningType : String)
    (i : Nat) : Except Failure (ScreeningResult S) :=
  execute (runScreening arith run.errorText screeningType) 2 (run.screenings i)

/-- What the workflow collects of one screening. -/
def collected (arith : Arithmetic S) (run : ScreeningRun) (screeningType : String) (i : Nat) :
    ScreeningResult S :=
  match executedScreening arith run screeningType i with
  | .ok result => result
  | .error e =>
    { emptyResult arith with
      screeningType := screeningType
      outcome := "error"
      riskScore := arith.ofRat (1 / 2)
      summary := "Screening failed: " ++ run.errorText e
      completedAt := run.now }

def collectedResults (arith : Arithmetic S) (run : ScreeningRun) : List (ScreeningResult S) :=
  run.input.screeningTypes.zipIdx.map fun (screeningType, i) => collected arith run screeningType i

def scoredResults (arith : Arithmetic S) (run : ScreeningRun) : List (ScreeningResult S) :=
  match execute (batchScore arith (collectedResults arith run)) 2 run.batch with
  | .ok scored => scored
  | .error _ => collectedResults arith run

def overallOutcome (arith : Arithmetic S) (adverseItems : List String) (compositeScore : S) :
    OverallOutcome :=
  if adverseItems ≠ [] then .adverse
  else if arith.ofRat (45 / 100) < compositeScore then .consider
  else .clear

def screeningWorkflow (arith : Arithmetic S) (run : ScreeningRun) : ScreeningOrderResult S :=
  let adverseItems :=
    ((collectedResults arith run).filter fun result => result.outcome == "adverse").map
      fun result => result.screeningType ++ ": " ++ result.summary
  let compositeScore := arith.mean ((scoredResults arith run).map ScreeningResult.riskScore)
  let outcome := overallOutcome arith adverseItems compositeScore
  { orderRef := run.input.orderRef
    overallOutcome := outcome
    compositeScore := compositeScore
    results := scoredResults arith run
    adverseItems := adverseItems
    requiresAdverse := outcome == .adverse
    completedAt := run.now
    status := "complete" }

/-! ### What the engine decided -/

/-- The reply that the activity returned on, if it is one of the engine that is
no error. -/
def decisionOf (arith : Arithmetic S) : Attempt → Option String
  | .answered status body =>
    if 400 ≤ status then none
    else (body.bind (decodeResult arith)).map ScreeningResult.outcome
  | _ => none

def screeningFinding (arith : Arithmetic S) (run : ScreeningRun) (screeningType : String)
    (i : Nat) : Finding :=
  match decisionOf arith
      (run.screenings i
        (lastAttempt (runScreening arith run.errorText screeningType) (run.screenings i) 2)) with
  | some "adverse" => .adverse
  | some "clear" => .clear
  | some "consider" => .clear
  | _ => .undecided

/-- The outcome and the final score of the screening of an index. -/
def outcomeAt (arith : Arithmetic S) (run : ScreeningRun) (i : Nat) : Option String :=
  (collectedResults arith run)[i]?.map ScreeningResult.outcome

def scoreAt (arith : Arithmetic S) (run : ScreeningRun) (i : Nat) : Option S :=
  (scoredResults arith run)[i]?.map ScreeningResult.riskScore

def screening (arith : Arithmetic S) : Pipeline ScreeningRun where
  findings run :=
    run.input.screeningTypes.zipIdx.map fun (screeningType, i) =>
      screeningFinding arith run screeningType i
  TierAllows _ := True
  rank run := (screeningWorkflow arith run).overallOutcome.rank
  Worse run run' :=
    run'.input = run.input ∧
    ∀ screeningType i, (screeningType, i) ∈ run.input.screeningTypes.zipIdx →
      (screeningFinding arith run screeningType i ≠ .adverse ∧
        screeningFinding arith run' screeningType i = .adverse) ∨
      (outcomeAt arith run' i = outcomeAt arith run i ∧
        ∀ score ∈ scoreAt arith run i, ∀ raised ∈ scoreAt arith run' i, score ≤ raised)

end Bis.Temporal
