import Mathlib.Algebra.Order.Ring.Unbundled.Rat
import Mathlib.Data.List.Infix
import Mathlib.Algebra.GroupWithZero.Nat

/-!
The risk score that `transactions.create` gives a transaction. Every amount that a
number can be is rational, and 95 % of each threshold is a whole number that the
rounding of the product does not miss, so the comparisons here are exact.
-/

namespace Bis.Transactions

inductive RiskLevel where
  | low | medium | high | critical
  deriving DecidableEq

/-- What `quickScore` looks at. -/
structure ScoreData where
  amount : Rat
  (currency originatorCountry beneficiaryCountry : String)
  narration : Option String
  deriving DecidableEq

structure QuickScore where
  score : Nat
  flags : List String
  riskLevel : RiskLevel

def highRiskCountries : List String :=
  ["AF", "BY", "CF", "CG", "CU", "ER", "IR", "KP", "LY", "ML", "MM", "NI", "RU", "SO", "SS", "SY",
   "VE", "YE", "ZW"]

def ctrThresholds : List (String × Rat) :=
  [("NGN", 5000000), ("USD", 10000), ("EUR", 10000), ("GBP", 10000), ("GHS", 50000),
   ("KES", 1000000), ("ZAR", 100000)]

def ctrThreshold (currency : String) : Rat := (ctrThresholds.lookup currency).getD 10000

def suspiciousKeywords : List String :=
  ["shell", "offshore", "nominee", "crypto", "hawala", "bearer"]

/-- No letter outside ASCII becomes one of the letters of a keyword alone, so it is
enough to lower ASCII. -/
def suspiciousNarration (narration : Option String) : Bool :=
  let lower := (narration.getD "").toList.map Char.toLower
  suspiciousKeywords.any fun kw => kw.toList <:+: lower

/-- What one test of `quickScore` adds where it fires. -/
structure Flag where
  points : Nat
  name : String
  fires : Bool

def flagsOf (data : ScoreData) : List Flag :=
  let threshold := ctrThreshold data.currency
  let lower := threshold * (95 / 100)
  [{ points := 35
     name := "high_risk_originator_country"
     fires := highRiskCountries.contains data.originatorCountry },
   { points := 35
     name := "high_risk_beneficiary_country"
     fires := highRiskCountries.contains data.beneficiaryCountry },
   { points := 45
     name := "potential_structuring"
     fires := lower ≤ data.amount && data.amount < threshold },
   { points := 10
     name := "round_number"
     fires := 100000 ≤ data.amount && (data.amount / 10000).isInt },
   { points := 30
     name := "suspicious_narration"
     fires := suspiciousNarration data.narration }]

def riskLevelOf (score : Nat) : RiskLevel :=
  if score < 25 then .low else if score < 50 then .medium else if score < 75 then .high
  else .critical

def quickScore (data : ScoreData) : QuickScore :=
  let fired := (flagsOf data).filter Flag.fires
  let score := min (fired.map Flag.points).sum 100
  { score
    flags := fired.map Flag.name
    riskLevel := riskLevelOf score }

end Bis.Transactions
