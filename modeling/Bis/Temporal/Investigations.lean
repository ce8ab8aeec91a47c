import Bis.Temporal.FailClosed
import Bis.Temporal.Replies
import Mathlib.Algebra.Ring.Int.Defs

/-!
The three workflows that gather facts from the gateway and leave the score to
the risk engine: the investigation, the criminal records and the corporate
check. The activities whose results a workflow discards are left out.
-/

namespace Bis.Temporal

open Json

inductive Status where
  | completed
  | review
  | flagged
deriving DecidableEq

def Status.rank : Status → Nat
  | .completed => 0
  | .review => 1
  | .flagged => 2

/-- The answer that an activity leaves to its workflow after so many retries. -/
def answer (retries : Nat) (attempts : Nat → Attempt) : Option Members :=
  (execute gatewayGet retries attempts).toOption

def entryOf (key : String) (members : Option Members) : Value :=
  (members.map (entry key)).getD .null

/-- The score and the tier, which are set to a default if scoring fails and stay
as they were if the engine's answer has none. -/
def scoreRisk : Option Members → Rat × String
  | none => (50, "medium")
  | some members =>
    ((asFloat (entry "composite_score" members)).getD 0,
      (asString (entry "risk_tier" members)).getD "")

def computedTier (scored : Option Members) : Option String := asString (entryOf "risk_tier" scored)

def tierRank (tier : String) : Nat :=
  if tier = "critical" then 3 else if tier = "high" then 2 else if tier = "medium" then 1 else 0

def TierAllows (scored : Option Members) : Prop :=
  ∃ tier, computedTier scored = some tier ∧ tier ≠ "high" ∧ tier ≠ "critical"

/-! ### Investigation -/

structure InvestigationInput where
  (ref nin bvn : String)

structure InvestigationResult where
  ref : String
  riskScore : Rat
  riskTier : String
  (ninVerified bvnVerified sanctionsHit isPEP : Bool)
  status : Status

structure InvestigationRun where
  input : InvestigationInput
  (nin bvn sanctions pep score : Nat → Attempt)

def investigationStatus (riskTier : String) : Status :=
  if riskTier = "critical" ∨ riskTier = "high" then .flagged
  else if riskTier = "medium" then .review
  else .completed

def investigationWorkflow (run : InvestigationRun) : InvestigationResult :=
  let ninResult := if run.input.nin ≠ "" then answer 2 run.nin else none
  let bvnResult := if run.input.bvn ≠ "" then answer 2 run.bvn else none
  let scored := scoreRisk (answer 2 run.score)
  { ref := run.input.ref
    riskScore := scored.1
    riskTier := scored.2
    ninVerified := asString (entryOf "status" ninResult) == some "verified"
    bvnVerified := match entryOf "bvn" bvnResult with | .null => false | _ => true
    sanctionsHit := asBool (entryOf "clear" (answer 2 run.sanctions)) == some false
    isPEP := asBool (entryOf "isPEP" (answer 2 run.pep)) == some true
    status := investigationStatus scored.2 }

def ninFinding (attempts : Nat → Attempt) : Finding :=
  match asString (entryOf "status" (answer 2 attempts)) with
  | none => .undecided
  | some status => if status = "verified" then .clear else .adverse

def bvnFinding (attempts : Nat → Attempt) : Finding :=
  match entryOf "bvn" (answer 2 attempts) with
  | .null => .undecided
  | _ => .clear

def sanctionsFinding (attempts : Nat → Attempt) : Finding :=
  match asBool (entryOf "clear" (answer 2 attempts)) with
  | none => .undecided
  | some clear => if clear then .clear else .adverse

def pepFinding (attempts : Nat → Attempt) : Finding :=
  match asBool (entryOf "isPEP" (answer 2 attempts)) with
  | none => .undecided
  | some isPEP => if isPEP then .adverse else .clear

def investigation : Pipeline InvestigationRun where
  findings run :=
    (if run.input.nin ≠ "" then [ninFinding run.nin] else []) ++
    (if run.input.bvn ≠ "" then [bvnFinding run.bvn] else []) ++
    [sanctionsFinding run.sanctions, pepFinding run.pep]
  TierAllows run := TierAllows (answer 2 run.score)
  rank run := (investigationWorkflow run).status.rank
  Worse run run' :=
    run'.input = run.input ∧ Worsened ninFinding run.nin run'.nin ∧
    Worsened bvnFinding run.bvn run'.bvn ∧
    Worsened sanctionsFinding run.sanctions run'.sanctions ∧
    Worsened pepFinding run.pep run'.pep ∧
    tierRank (scoreRisk (answer 2 run.score)).2 ≤ tierRank (scoreRisk (answer 2 run'.score)).2

/-! ### Criminal records -/

structure CriminalRecordsInput where
  requestRef : String
  agencies : List String

structure CriminalRecordsResult where
  requestRef : String
  recordsFound : Int
  warrantActive : Bool
  riskScore : Rat
  riskTier : String
  status : Status
  /-- The entry of an agency whose poll failed holds the error. -/
  agencyResults : List (String × Except Failure Members)

structure CriminalRecordsRun where
  input : CriminalRecordsInput
  /-- The attempts to poll the agency of an index. -/
  polls : Nat → Nat → Attempt
  score : Nat → Attempt

/-- The agencies that are polled. -/
def CriminalRecordsInput.polled (input : CriminalRecordsInput) : List String :=
  if input.agencies = [] then ["NPF", "EFCC", "ICPC"] else input.agencies

/-- `int(count)`, exact for the counts that an `int` can hold. -/
def truncate (count : Rat) : Int := count.num.tdiv count.den

def recordCount (attempts : Nat → Attempt) : Option Rat :=
  asFloat (entryOf "recordCount" (answer 4 attempts))

def activeWarrant (attempts : Nat → Attempt) : Bool :=
  asBool (entryOf "activeWarrant" (answer 4 attempts)) == some true

def criminalRecordsStatus (warrantActive : Bool) (riskTier : String) : Status :=
  if warrantActive ∨ riskTier = "critical" then .flagged
  else if riskTier = "high" ∨ riskTier = "medium" then .review
  else .completed

def criminalRecordsWorkflow (run : CriminalRecordsRun) : CriminalRecordsResult :=
  let agencies := run.input.polled
  let polls := List.range agencies.length
  let warrantActive := polls.any fun i => activeWarrant (run.polls i)
  let scored := scoreRisk (answer 4 run.score)
  { requestRef := run.input.requestRef
    recordsFound := (polls.map fun i => truncate ((recordCount (run.polls i)).getD 0)).sum
    warrantActive := warrantActive
    riskScore := scored.1
    riskTier := scored.2
    status := criminalRecordsStatus warrantActive scored.2
    agencyResults := agencies.zipIdx.map fun (agency, i) =>
      (agency, execute gatewayGet 4 (run.polls i)) }

/-- A warrant or a record found is adverse; an agency that names no count has not decided. -/
def agencyFinding (attempts : Nat → Attempt) : Finding :=
  if activeWarrant attempts then .adverse
  else
    match recordCount attempts with
    | none => .undecided
    | some count => if 1 ≤ count then .adverse else .clear

def criminalRecords : Pipeline CriminalRecordsRun where
  findings run := (List.range run.input.polled.length).map fun i => agencyFinding (run.polls i)
  TierAllows run := TierAllows (answer 4 run.score)
  rank run := (criminalRecordsWorkflow run).status.rank
  Worse run run' :=
    run'.input = run.input ∧
    (∀ i < run.input.polled.length, Worsened agencyFinding (run.polls i) (run'.polls i)) ∧
    tierRank (scoreRisk (answer 4 run.score)).2 ≤ tierRank (scoreRisk (answer 4 run'.score)).2

/-! ### Corporate check -/

structure CorporateCheckResult where
  (profileRef cacStatus : String)
  (firsCleared directorsPEP sanctionsHit : Bool)
  riskScore : Rat
  riskTier : String
  status : Status
  /-- The entry of a check that failed holds the error. -/
  checks : List (String × Except Failure Members)

structure CorporateCheckRun where
  profileRef : String
  (cac firs directors sanctions score : Nat → Attempt)

def cacStatus (attempts : Nat → Attempt) : String :=
  (asString (entryOf "status" (answer 4 attempts))).getD ""

def firsCleared (attempts : Nat → Attempt) : Bool :=
  (asBool (entryOf "cleared" (answer 4 attempts))).getD false

def directorsPEP (attempts : Nat → Attempt) : Bool :=
  (asBool (entryOf "pepFound" (answer 4 attempts))).getD false

def corporateHit (attempts : Nat → Attempt) : Bool :=
  (asBool (entryOf "hit" (answer 4 attempts))).getD false

def corporateCheckStatus (cacStatus : String) (firsCleared directorsPEP sanctionsHit : Bool)
    (riskTier : String) : Status :=
  if sanctionsHit ∨ cacStatus = "struck_off" then .flagged
  else if directorsPEP ∨ firsCleared = false ∨ riskTier = "high" then .review
  else .completed

def corporateCheckWorkflow (run : CorporateCheckRun) : CorporateCheckResult :=
  let scored := scoreRisk (answer 4 run.score)
  { profileRef := run.profileRef
    cacStatus := cacStatus run.cac
    firsCleared := firsCleared run.firs
    directorsPEP := directorsPEP run.directors
    sanctionsHit := corporateHit run.sanctions
    riskScore := scored.1
    riskTier := scored.2
    status := corporateCheckStatus (cacStatus run.cac) (firsCleared run.firs)
      (directorsPEP run.directors) (corporateHit run.sanctions) scored.2
    checks := [("cac", execute gatewayGet 4 run.cac), ("firs", execute gatewayGet 4 run.firs),
      ("directors", execute gatewayGet 4 run.directors),
      ("sanctions", execute gatewayGet 4 run.sanctions)] }

def cacFinding (attempts : Nat → Attempt) : Finding :=
  match asString (entryOf "status" (answer 4 attempts)) with
  | none => .undecided
  | some status => if status = "struck_off" then .adverse else .clear

def firsFinding (attempts : Nat → Attempt) : Finding :=
  match asBool (entryOf "cleared" (answer 4 attempts)) with
  | none => .undecided
  | some cleared => if cleared then .clear else .adverse

def directorsFinding (attempts : Nat → Attempt) : Finding :=
  match asBool (entryOf "pepFound" (answer 4 attempts)) with
  | none => .undecided
  | some pepFound => if pepFound then .adverse else .clear

/-- The workflow reads `hit`, and the gateway's sanctions endpoint answers with
`clear`. Either of them decides. -/
def corporateSanctionsFinding (attempts : Nat → Attempt) : Finding :=
  match asBool (entryOf "hit" (answer 4 attempts)),
      asBool (entryOf "clear" (answer 4 attempts)) with
  | some true, _ => .adverse
  | _, some false => .adverse
  | none, none => .undecided
  | _, _ => .clear

def corporateCheck : Pipeline CorporateCheckRun where
  findings run := [cacFinding run.cac, firsFinding run.firs, directorsFinding run.directors,
    corporateSanctionsFinding run.sanctions]
  TierAllows run := TierAllows (answer 4 run.score)
  rank run := (corporateCheckWorkflow run).status.rank
  Worse run run' :=
    run'.profileRef = run.profileRef ∧ Worsened cacFinding run.cac run'.cac ∧
    Worsened firsFinding run.firs run'.firs ∧
    Worsened directorsFinding run.directors run'.directors ∧
    Worsened corporateSanctionsFinding run.sanctions run'.sanctions ∧
    tierRank (scoreRisk (answer 4 run.score)).2 ≤ tierRank (scoreRisk (answer 4 run'.score)).2

end Bis.Temporal
