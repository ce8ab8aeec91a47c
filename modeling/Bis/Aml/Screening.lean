import Bis.Json.Escape
import Bis.Json.RoundTrip
import Bis.Json.Struct

/-!
AML screening between two services: the payment rails service (Go) asks, the
AML engine (Rust) answers, both in JSON by the names of their own structs. How
a `float64` is written is an argument. How the engine scores a transaction is
not looked into: every answer it could give is considered.

The authentication of the call, its timeouts and the texts of its errors are
left out.
-/

namespace Bis.Aml

open Bis.Json Option

/-! ### Payment rails -/

structure AMLScreenRequest where
  transactionRef : String
  amount : Rat
  (currency originatorName originatorCountry beneficiaryName beneficiaryCountry : String)
  (transactionType narration : String)

structure AMLScreenResponse where
  riskScore : Rat
  riskLevel : String
  flags : List String
  blocked : Bool

def AMLScreenRequest.members (formatFloat64 : Rat → Number) (req : AMLScreenRequest) :
    List (String × Value) :=
  [("transactionRef", .string req.transactionRef), ("amount", .number (formatFloat64 req.amount)),
    ("currency", .string req.currency), ("originatorName", .string req.originatorName),
    ("originatorCountry", .string req.originatorCountry),
    ("beneficiaryName", .string req.beneficiaryName),
    ("beneficiaryCountry", .string req.beneficiaryCountry),
    ("transactionType", .string req.transactionType), ("narration", .string req.narration)]

/-- `json.Marshal`. -/
def marshalRequest (formatFloat64 : Rat → Number) (req : AMLScreenRequest) : List Char :=
  render goTable.escape (.object (req.members formatFloat64))

def responseTags : List String := ["riskScore", "riskLevel", "flags", "blocked"]

def assignResponse (tag : String) (v : Value) (resp : AMLScreenResponse) :
    Option AMLScreenResponse :=
  match tag with
  | "riskScore" => (goFloat64 resp.riskScore v).map fun x => { resp with riskScore := x }
  | "riskLevel" => (goString resp.riskLevel v).map fun x => { resp with riskLevel := x }
  | "flags" => (goStrings v).map fun x => { resp with flags := x }
  | "blocked" => (goBool resp.blocked v).map fun x => { resp with blocked := x }
  | _ => some resp

def AMLScreenResponse.zero : AMLScreenResponse :=
  { riskScore := 0, riskLevel := "", flags := [], blocked := false }

/-- `json.NewDecoder(body).Decode`. -/
def decodeResponse (body : List Char) : Option AMLScreenResponse :=
  (readFirst (some '\ufffd') body).bind fun p =>
    decodeStruct responseTags assignResponse AMLScreenResponse.zero p.1

inductive AmlError where
  | urlNotConfigured
  | keyNotConfigured
  | status (code : Nat)
  | decode

/-- `server` answers a body with a status and a body. -/
def screenAML (formatFloat64 : Rat → Number) (amlURL amlKey : String)
    (server : List Char → Nat × List Char) (req : AMLScreenRequest) :
    Except AmlError AMLScreenResponse :=
  if amlURL = "" then .error .urlNotConfigured
  else if amlKey = "" then .error .keyNotConfigured
  else
    match server (marshalRequest formatFloat64 req) with
    | (status, body) =>
      if status ≠ 200 then .error (.status status)
      else
        match decodeResponse body with
        | none => .error .decode
        | some resp => .ok resp

/-- What `HandleMT103` makes of a screening. -/
inductive Mt103Outcome where
  | unavailable
  | blocked
  | accepted (status : String)

def mt103Outcome : Except AmlError AMLScreenResponse → Mt103Outcome
  | .error _ => .unavailable
  | .ok resp =>
    if resp.blocked then .blocked
    else if resp.riskLevel = "high" ∨ resp.riskLevel = "critical" then
      .accepted "pending_compliance"
    else .accepted "accepted"

/-! ### AML engine -/

structure TransactionScreenRequest where
  transactionRef : String
  amount : Rat
  (currency originatorName originatorCountry : String)
  originatorBic : Option String
  (beneficiaryName beneficiaryCountry : String)
  beneficiaryBic : Option String
  transactionType : String
  narration : Option String
  isCash : Option Bool

inductive RiskLevel where
  | low
  | medium
  | high
  | critical
  deriving DecidableEq

def RiskLevel.asStr : RiskLevel → String
  | .low => "low"
  | .medium => "medium"
  | .high => "high"
  | .critical => "critical"

structure RuleHit where
  (ruleId ruleName : String)
  scoreContribution : UInt32
  description : String

structure ScreeningResult where
  transactionRef : String
  riskScore : UInt32
  riskLevel : RiskLevel
  flags : List String
  (blocked requiresManualReview : Bool)
  ruleHits : List RuleHit

def rustFloat64 : Value → Option Rat := fun v => (goFloat64 0 v).filter fun _ => !(v matches .null)

/-- The derived `Deserialize`: the names of the fields are the names in the text. -/
def deserializeRequest (members : List (String × Value)) :
    Except DecodeError TransactionScreenRequest := do
  let transactionRef ← requiredField "transaction_ref" rustString members
  let amount ← requiredField "amount" rustFloat64 members
  let currency ← requiredField "currency" rustString members
  let originatorName ← requiredField "originator_name" rustString members
  let originatorCountry ← requiredField "originator_country" rustString members
  let originatorBic ← optionalField "originator_bic" rustString members
  let beneficiaryName ← requiredField "beneficiary_name" rustString members
  let beneficiaryCountry ← requiredField "beneficiary_country" rustString members
  let beneficiaryBic ← optionalField "beneficiary_bic" rustString members
  let transactionType ← requiredField "transaction_type" rustString members
  let narration ← optionalField "narration" rustString members
  let isCash ← optionalField "is_cash" rustBool members
  return { transactionRef, amount, currency, originatorName, originatorCountry, originatorBic
           beneficiaryName, beneficiaryCountry, beneficiaryBic, transactionType, narration
           isCash }

def requestFields : List String :=
  ["transaction_ref", "amount", "currency", "originator_name", "originator_country",
    "originator_bic", "beneficiary_name", "beneficiary_country", "beneficiary_bic",
    "transaction_type", "narration", "is_cash"]

/-- A struct is read from an object, or from an array with each of its fields in their order. -/
def requestMembers : Value → Option (List (String × Value))
  | .object members => some members
  | .array items =>
    if items.length = requestFields.length then some (requestFields.zip items) else none
  | _ => none

/-- The extractor's answer to a body it does not take: 400 for a text that is no
JSON, 422 for JSON that is no request. -/
def extractRequest (body : List Char) : Except Nat TransactionScreenRequest :=
  match read none body with
  | some request =>
    match (requestMembers request).map deserializeRequest with
    | some (.ok req) => .ok req
    | _ => .error 422
  | none => .error 400

def RuleHit.value (hit : RuleHit) : Value :=
  .object [("rule_id", .string hit.ruleId), ("rule_name", .string hit.ruleName),
    ("score_contribution", .number (.ofInt hit.scoreContribution.toNat)),
    ("description", .string hit.description)]

def ScreeningResult.members (result : ScreeningResult) : List (String × Value) :=
  [("transaction_ref", .string result.transactionRef),
    ("risk_score", .number (.ofInt result.riskScore.toNat)),
    ("risk_level", .string result.riskLevel.asStr),
    ("flags", .array (result.flags.map .string)), ("blocked", .bool result.blocked),
    ("requires_manual_review", .bool result.requiresManualReview),
    ("rule_hits", .array (result.ruleHits.map RuleHit.value))]

def serializeResult (result : ScreeningResult) : List Char :=
  render serdeTable.escape (.object result.members)

/-! ### What each side reads -/

/-- The engine screens the transaction that the payment service asked about. -/
def RequestAgrees (formatFloat64 : Rat → Number) (req : AMLScreenRequest) : Prop :=
  ∃ read, extractRequest (marshalRequest formatFloat64 req) = .ok read ∧
    read.transactionRef = req.transactionRef ∧ read.amount = req.amount ∧
    read.currency = req.currency ∧ read.originatorName = req.originatorName ∧
    read.originatorCountry = req.originatorCountry ∧ read.beneficiaryName = req.beneficiaryName ∧
    read.beneficiaryCountry = req.beneficiaryCountry ∧
    read.transactionType = req.transactionType ∧ read.narration = some req.narration

/-- The payment service decides on the result that the engine found. -/
def ResponseAgrees (result : ScreeningResult) : Prop :=
  ∃ resp, decodeResponse (serializeResult result) = some resp ∧
    resp.riskScore = (result.riskScore.toNat : Rat) ∧ resp.riskLevel = result.riskLevel.asStr ∧
    resp.flags = result.flags ∧ resp.blocked = result.blocked

/-- The engine refuses every request: the name of its first field is not in it. -/
theorem extractRequest_marshalRequest (formatFloat64 : Rat → Number) (req : AMLScreenRequest) :
    extractRequest (marshalRequest formatFloat64 req) = .error 422 := by
  have hmissing : deserializeRequest (req.members formatFloat64) =
      .error (.missing "transaction_ref") := by
    have hfield : requiredField "transaction_ref" rustString (req.members formatFloat64) =
        .error (.missing "transaction_ref") :=
      requiredField_missing (by simp [AMLScreenRequest.members])
    rw [deserializeRequest, hfield]
    rfl
  rw [extractRequest, marshalRequest, read_render]
  simp only [requestMembers, map_some, hmissing]

theorem goFlags {resp : AMLScreenResponse} (flags : List String) :
    assignResponse "flags" (.array (flags.map .string)) resp =
      some { resp with flags := flags } := by
  simp only [assignResponse, goStrings_strings, map_some]

/-- Of a result, the flags and the block arrive; its score and level do not. -/
theorem decodeResponse_serializeResult (result : ScreeningResult) :
    decodeResponse (serializeResult result) =
      some
        { riskScore := 0
          riskLevel := ""
          flags := result.flags
          blocked := result.blocked } := by
  have hforeign : ∀ key ∈ ["transaction_ref", "risk_score", "risk_level", "requires_manual_review",
      "rule_hits"], tagFor responseTags key = none := by decide
  have hflags : tagFor responseTags "flags" = some "flags" := by decide
  have hblocked : tagFor responseTags "blocked" = some "blocked" := by decide
  simp only [List.forall_mem_cons] at hforeign
  obtain ⟨href, hscore, hlevel, hreview, hhits, -⟩ := hforeign
  rw [decodeResponse, serializeResult, readFirst_render, bind_some, decodeStruct,
    ScreeningResult.members, decodeMembers_cons_of_none _ _ _ href,
    decodeMembers_cons_of_none _ _ _ hscore, decodeMembers_cons_of_none _ _ _ hlevel,
    decodeMembers_cons_of_some _ _ _ hflags, goFlags, bind_some,
    decodeMembers_cons_of_some _ _ _ hblocked]
  simp only [assignResponse, goBool, map_some, bind_some]
  rw [decodeMembers_cons_of_none _ _ _ hreview, decodeMembers_cons_of_none _ _ _ hhits]
  rfl

theorem asStr_ne_empty (level : RiskLevel) : level.asStr ≠ "" := by
  cases level <;> decide

/-- Neither side ever reads what the other one wrote. -/
theorem screening_never_agrees (formatFloat64 : Rat → Number) (req : AMLScreenRequest)
    (result : ScreeningResult) :
    ¬RequestAgrees formatFloat64 req ∧ ¬ResponseAgrees result := by
  constructor
  · rintro ⟨read, hread, -⟩
    rw [extractRequest_marshalRequest] at hread
    cases hread
  · rintro ⟨resp, hresp, -, hlevel, -⟩
    rw [decodeResponse_serializeResult] at hresp
    cases hresp
    exact asStr_ne_empty result.riskLevel hlevel.symm

/-- A transfer of 9500 dollars to Russia, and what the engine finds on it: in the
structuring range, to a high-risk country. -/
theorem critical_result_read_as_accepted :
    let req : AMLScreenRequest :=
      { transactionRef := "TX1", amount := 9500, currency := "USD", originatorName := "A"
        originatorCountry := "NG", beneficiaryName := "B", beneficiaryCountry := "RU"
        transactionType := "swift_mt103", narration := "" }
    let result : ScreeningResult :=
      { transactionRef := "TX1", riskScore := 80, riskLevel := .critical
        flags := ["high_risk_beneficiary_country", "potential_structuring"], blocked := false
        requiresManualReview := true
        ruleHits :=
          [{ ruleId := "AML-002", ruleName := "High-Risk Beneficiary Country"
             scoreContribution := 35
             description := "Beneficiary country RU is on FATF/OFAC high-risk list" },
            { ruleId := "AML-003", ruleName := "Potential Structuring / Smurfing"
              scoreContribution := 45
              description := "Amount 9500.00 USD is in structuring range (9000.00–10000.00)" }] }
    extractRequest (marshalRequest (fun amount => .ofInt amount.floor) req) = .error 422 ∧
      ¬RequestAgrees (fun amount => .ofInt amount.floor) req ∧
      (∃ resp, decodeResponse (serializeResult result) = some resp ∧ resp.riskScore = 0 ∧
        resp.riskLevel = "" ∧ mt103Outcome (.ok resp) = .accepted "accepted") ∧
      ¬ResponseAgrees result := by
  intro req result
  have hrefused := extractRequest_marshalRequest (fun amount => .ofInt amount.floor) req
  have hdecoded := decodeResponse_serializeResult result
  refine ⟨hrefused, ?_, ⟨_, hdecoded, rfl, rfl, rfl⟩, ?_⟩
  · rintro ⟨read, hread, -⟩
    rw [hrefused] at hread
    cases hread
  · rintro ⟨resp, hresp, -, hlevel, -⟩
    obtain rfl := some.inj (hdecoded.symm.trans hresp)
    exact absurd hlevel (by decide)

end Bis.Aml
