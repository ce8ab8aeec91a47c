import Bis.Temporal.FailClosed
import Bis.Temporal.Replies
import Bis.Temporal.Scores

/-!
The risk profile of the compliance worker. Its six activities turn every HTTP
error into a default value and ignore what does not decode; the workflow ignores
the error of an activity whose attempts all ran out of time, which leaves zero.
-/

namespace Bis.Temporal

open Json

variable {S : Type*} [LinearOrder S]

inductive RiskTier where
  | low
  | medium
  | high
  | critical
deriving DecidableEq

def RiskTier.rank : RiskTier → Nat
  | .low => 0
  | .medium => 1
  | .high => 2
  | .critical => 3

/-- An activity that reads one field: the default stands for a reply that is an
error, zero for a field that cannot be read. -/
def fetchField {α : Type*} (tag : String) (read : Value → Option α) (default zero : α)
    (attempt : Attempt) : Except Failure α :=
  match attempt with
  | .timedOut => .error .timedOut
  | _ =>
    match getJSON attempt with
    | .error _ => .ok default
    | .ok body => .ok ((fieldOf tag read body).getD zero)

def fetchKycRiskScore : Attempt → Except Failure Rat := fetchField "score" asFloat 30 0

def fetchTransactionRiskScore : Attempt → Except Failure Rat := fetchField "score" asFloat 25 0

def fetchAmlRiskScore : Attempt → Except Failure Rat := fetchField "score" asFloat 20 0

def checkSanctions : Attempt → Except Failure Bool := fetchField "match" asBool false false

def checkPEP : Attempt → Except Failure Bool := fetchField "match" asBool false false

def fetchAdverseMedia : Attempt → Except Failure Int := fetchField "count" asInt 0 0

structure RiskProfileRun where
  subjectRef : String
  (kyc transactions aml sanctions pep media : Nat → Attempt)
  now : String

structure RiskProfileResult (S : Type*) where
  subjectRef : String
  compositeRiskScore : S
  riskTier : RiskTier
  (kycRiskScore transactionRiskScore amlRiskScore : Rat)
  (sanctionsMatch pepMatch : Bool)
  adverseMediaHits : Int
  flags : List String
  computedAt : String

/-- What a future leaves in a variable when its error is ignored. -/
def settledOr {α : Type*} (zero : α) (body : Attempt → Except Failure α)
    (attempts : Nat → Attempt) : α :=
  (execute body 4 attempts).toOption.getD zero

/-- The six signals, as the workflow holds them. -/
structure Signals where
  (kycScore txScore amlScore : Rat)
  (sanctionsMatch pepMatch : Bool)
  adverseHits : Int

def RiskProfileRun.signals (run : RiskProfileRun) : Signals where
  kycScore := settledOr 0 fetchKycRiskScore run.kyc
  txScore := settledOr 0 fetchTransactionRiskScore run.transactions
  amlScore := settledOr 0 fetchAmlRiskScore run.aml
  sanctionsMatch := settledOr false checkSanctions run.sanctions
  pepMatch := settledOr false checkPEP run.pep
  adverseHits := settledOr 0 fetchAdverseMedia run.media

def weightedAverage (arith : Arithmetic S) (signals : Signals) : S :=
  arith.add
    (arith.add (arith.scale (3 / 10) (arith.ofRat signals.kycScore))
      (arith.scale (3 / 10) (arith.ofRat signals.txScore)))
    (arith.scale (4 / 10) (arith.ofRat signals.amlScore))

/-- The score before it is capped: a sanctions match replaces the average. -/
def uncapped (arith : Arithmetic S) (signals : Signals) : S :=
  let average :=
    if signals.sanctionsMatch then arith.ofRat 95 else weightedAverage arith signals
  let withPep := if signals.pepMatch then arith.add average (arith.ofRat 10) else average
  if 0 < signals.adverseHits then
    arith.add withPep (arith.scale 2 (arith.ofRat signals.adverseHits))
  else withPep

def compositeScore (arith : Arithmetic S) (signals : Signals) : S :=
  if arith.ofRat 100 < uncapped arith signals then arith.ofRat 100 else uncapped arith signals

def riskTier (arith : Arithmetic S) (composite : S) : RiskTier :=
  if arith.ofRat 80 ≤ composite then .critical
  else if arith.ofRat 60 ≤ composite then .high
  else if arith.ofRat 40 ≤ composite then .medium
  else .low

def riskProfileWorkflow (arith : Arithmetic S) (run : RiskProfileRun) : RiskProfileResult S :=
  let signals := run.signals
  let composite := compositeScore arith signals
  { subjectRef := run.subjectRef
    compositeRiskScore := composite
    riskTier := riskTier arith composite
    kycRiskScore := signals.kycScore
    transactionRiskScore := signals.txScore
    amlRiskScore := signals.amlScore
    sanctionsMatch := signals.sanctionsMatch
    pepMatch := signals.pepMatch
    adverseMediaHits := signals.adverseHits
    flags := (if signals.sanctionsMatch then ["SANCTIONS_MATCH"] else []) ++
      (if signals.pepMatch then ["PEP_MATCH"] else []) ++
      (if 0 < signals.adverseHits then ["ADVERSE_MEDIA"] else [])
    computedAt := run.now }

/-! ### What was read -/

/-- The field in the reply that the activity returned on. -/
def readField {α : Type*} (tag : String) (read : Value → Option α)
    (body : Attempt → Except Failure α) (attempts : Nat → Attempt) : Option α :=
  match getJSON (attempts (lastAttempt body attempts 4)) with
  | .error _ => none
  | .ok reply => fieldOf tag read reply

def scoreFinding (body : Attempt → Except Failure Rat) (attempts : Nat → Attempt) : Finding :=
  match readField "score" asFloat body attempts with
  | none => .undecided
  | some _ => .clear

def matchFinding (body : Attempt → Except Failure Bool) (attempts : Nat → Attempt) : Finding :=
  match readField "match" asBool body attempts with
  | none => .undecided
  | some found => if found then .adverse else .clear

def mediaFinding (attempts : Nat → Attempt) : Finding :=
  match readField "count" asInt fetchAdverseMedia attempts with
  | none => .undecided
  | some count => if 0 < count then .adverse else .clear

def riskProfile (arith : Arithmetic S) : Pipeline RiskProfileRun where
  findings run :=
    [scoreFinding fetchKycRiskScore run.kyc,
      scoreFinding fetchTransactionRiskScore run.transactions,
      scoreFinding fetchAmlRiskScore run.aml, matchFinding checkSanctions run.sanctions,
      matchFinding checkPEP run.pep, mediaFinding run.media]
  TierAllows run :=
    (riskProfileWorkflow arith run).riskTier ≠ .high ∧
      (riskProfileWorkflow arith run).riskTier ≠ .critical
  rank run := (riskProfileWorkflow arith run).riskTier.rank
  Worse run run' :=
    run'.subjectRef = run.subjectRef ∧
    run.signals.kycScore ≤ run'.signals.kycScore ∧
    run.signals.txScore ≤ run'.signals.txScore ∧
    run.signals.amlScore ≤ run'.signals.amlScore ∧
    Worsened (matchFinding checkSanctions) run.sanctions run'.sanctions ∧
    Worsened (matchFinding checkPEP) run.pep run'.pep ∧
    run.signals.adverseHits ≤ run'.signals.adverseHits

end Bis.Temporal
