import Bis.Aml.Sanctions
import Bis.Aml.Screening
import Bis.Number.Binary64
import Mathlib.Algebra.Order.BigOperators.Group.List
import Mathlib.Data.List.Infix

/-!
How the AML engine scores a transaction: the local rules, and what its screening route
changes in their result after a look at the live sanctions lists.

An amount is a finite `f64`, a rational. The time that a screening takes is left out.
-/

namespace Bis.Aml

open Bis.Number List

def highRiskCountries : List String :=
  ["AF", "BY", "CF", "CG", "CU", "ER", "IR", "KP", "LY", "ML", "MM", "NI", "RU", "SO", "SS", "SY",
   "VE", "YE", "ZW"]

def sanctionedBicPrefixes : List String := ["CBIRKPSE", "SYRIABANK", "IRIBANKIR"]

def structuringRange : String → Option (Rat × Rat)
  | "NGN" => some (4900000, 5000000)
  | "USD" | "EUR" | "GBP" => some (9000, 10000)
  | "GHS" => some (49000, 50000)
  | "KES" => some (990000, 1000000)
  | _ => none

def largeCashThreshold : String → Rat
  | "NGN" => 5000000
  | "USD" | "EUR" | "GBP" => 10000
  | "GHS" => 50000
  | "KES" => 1000000
  | _ => 10000

/-- The format `{:.2}` of a positive number. -/
def fixed2 (q : Rat) : String :=
  let cents := (roundEven (100 * q)).toNat
  toString (cents / 100) ++ "." ++ (if cents % 100 < 10 then "0" else "") ++ toString (cents % 100)

def startsWith (text start : String) : Bool := start.toList.isPrefixOf text.toList

def TransactionScreenRequest.bics (req : TransactionScreenRequest) : List String :=
  [req.originatorBic, req.beneficiaryBic].filterMap id

/-! ### The local rules -/

/-- A rule that fires adds its contribution, a flag and a hit. -/
structure Finding where
  flag : String
  hit : RuleHit

def finding (fires : Bool) (flag : String) (hit : RuleHit) : List Finding :=
  if fires then [⟨flag, hit⟩] else []

section

variable (req : TransactionScreenRequest)

def highRiskOriginatorCountry : List Finding :=
  finding (highRiskCountries.contains req.originatorCountry) "high_risk_originator_country"
    { ruleId := "AML-001", ruleName := "High-Risk Originator Country", scoreContribution := 35
      description := "Originator country " ++ req.originatorCountry ++
        " is on FATF/OFAC high-risk list" }

def highRiskBeneficiaryCountry : List Finding :=
  finding (highRiskCountries.contains req.beneficiaryCountry) "high_risk_beneficiary_country"
    { ruleId := "AML-002", ruleName := "High-Risk Beneficiary Country", scoreContribution := 35
      description := "Beneficiary country " ++ req.beneficiaryCountry ++
        " is on FATF/OFAC high-risk list" }

def potentialStructuring : List Finding :=
  match structuringRange req.currency with
  | none => []
  | some (low, high) =>
    finding (low ≤ req.amount ∧ req.amount < high) "potential_structuring"
      { ruleId := "AML-003", ruleName := "Potential Structuring / Smurfing"
        scoreContribution := 45
        description := "Amount " ++ fixed2 req.amount ++ " " ++ req.currency ++
          " is in structuring range (" ++ fixed2 low ++ "–" ++ fixed2 high ++ ")" }

def largeCashTransaction : List Finding :=
  let threshold := largeCashThreshold req.currency
  finding (threshold ≤ req.amount ∧ req.isCash.getD false) "large_cash_transaction"
    { ruleId := "AML-004", ruleName := "Large Cash Transaction (CTR Required)"
      scoreContribution := 20
      description := "Cash transaction " ++ fixed2 req.amount ++ " " ++ req.currency ++
        " exceeds CTR threshold " ++ fixed2 threshold }

def cashTransaction : List Finding :=
  finding (["cash_deposit", "cash_withdrawal"].contains req.transactionType) "cash_transaction"
    { ruleId := "AML-005", ruleName := "Cash Transaction", scoreContribution := 10
      description := "Transaction type " ++ req.transactionType ++ " involves physical cash" }

def suspiciousKeywords : List String :=
  ["shell", "offshore", "nominee", "bearer", "crypto", "bitcoin", "hawala", "smurfing", "layering",
   "placement", "integration"]

def suspiciousNarration (toLowercase : String → String) : List Finding :=
  match req.narration with
  | none => []
  | some narration =>
    let narrationLower := toLowercase narration
    let found := suspiciousKeywords.filter fun kw => kw.toList <:+: narrationLower.toList
    finding (!found.isEmpty) "suspicious_narration"
      { ruleId := "AML-006", ruleName := "Suspicious Narration Keywords"
        scoreContribution := 30
        description := "Narration contains suspicious keywords: " ++ ", ".intercalate found }

def largeFxConversion : List Finding :=
  finding (req.transactionType = "fx_conversion" ∧ 50000 < req.amount) "large_fx_conversion"
    { ruleId := "AML-007", ruleName := "Large FX Conversion", scoreContribution := 15
      description := "FX conversion of " ++ fixed2 req.amount ++ " " ++ req.currency ++
        " exceeds threshold" }

/-- It may fire for each of the two institutions. -/
def sanctionedBic : List Finding :=
  req.bics.flatMap fun bic =>
    finding (sanctionedBicPrefixes.any (startsWith bic)) "sanctioned_bic"
      { ruleId := "AML-008", ruleName := "Sanctioned Institution BIC", scoreContribution := 100
        description := "BIC " ++ bic ++ " matches sanctioned institution list" }

def roundNumberLargeTransfer : List Finding :=
  finding (100000 ≤ req.amount ∧ (req.amount / 10000).isInt) "round_number_large_transfer"
    { ruleId := "AML-009", ruleName := "Round Number Large Transfer", scoreContribution := 10
      description := "Transfer amount " ++ fixed2 req.amount ++
        " is a round number >= 100,000 (layering indicator)" }

def crossBorderWire : List Finding :=
  finding (req.originatorCountry ≠ req.beneficiaryCountry ∧
      ["wire_transfer", "swift_mt103", "swift_mt202"].contains req.transactionType ∧
      10000 < req.amount) "cross_border_wire"
    { ruleId := "AML-010", ruleName := "Cross-Border Wire Transfer", scoreContribution := 5
      description := "Cross-border wire transfer above threshold — verify purpose code" }

def findings (unicode : UnicodeTables) : List Finding :=
  highRiskOriginatorCountry req ++ highRiskBeneficiaryCountry req ++ potentialStructuring req ++
    largeCashTransaction req ++ cashTransaction req ++
    suspiciousNarration req unicode.toLowercase ++ largeFxConversion req ++ sanctionedBic req ++
    roundNumberLargeTransfer req ++ crossBorderWire req

end

def RiskLevel.fromScore (score : UInt32) : RiskLevel :=
  if score ≤ 24 then .low
  else if score ≤ 49 then .medium
  else if score ≤ 74 then .high
  else .critical

def contributions (found : List Finding) : UInt32 :=
  found.foldl (fun score f => score + f.hit.scoreContribution) 0

def scoreTransaction (unicode : UnicodeTables) (req : TransactionScreenRequest) :
    ScreeningResult :=
  let found := findings req unicode
  let flags := found.map Finding.flag
  let score := min (contributions found) 100
  let blocked := decide (100 ≤ score) || flags.contains "sanctioned_bic"
  { transactionRef := req.transactionRef
    riskScore := score
    riskLevel := RiskLevel.fromScore score
    flags
    blocked
    requiresManualReview := decide (50 ≤ score) && !blocked
    ruleHits := found.map Finding.hit }

/-! ### The screening route -/

section

variable (unicode : UnicodeTables) (cache : SdnCache) (req : TransactionScreenRequest)

def namesHit : Bool :=
  nameHitsSdn unicode req.originatorName cache || nameHitsSdn unicode req.beneficiaryName cache

def bicHits (bic : String) : Bool := cache.bicPrefixes.any (startsWith bic)

def checkNames (result : ScreeningResult) : ScreeningResult :=
  if namesHit unicode cache req then
    { result with
      riskScore := 100
      blocked := true
      flags := result.flags ++ ["sdn_name_match"]
      ruleHits := result.ruleHits ++
        [{ ruleId := "AML-SDN-001", ruleName := "SDN Name Match", scoreContribution := 100
           description := "Originator '" ++ req.originatorName ++ "' or beneficiary '" ++
             req.beneficiaryName ++ "' matches OFAC/UN SDN list" }] }
  else result

def checkBic (result : ScreeningResult) (bic : String) : ScreeningResult :=
  if bicHits cache bic then
    if result.flags.contains "sanctioned_bic" then { result with riskScore := 100, blocked := true }
    else
      { result with
        riskScore := 100
        blocked := true
        flags := result.flags ++ ["sanctioned_bic_live"]
        ruleHits := result.ruleHits ++
          [{ ruleId := "AML-SDN-002", ruleName := "Sanctioned Institution BIC (Live Cache)"
             scoreContribution := 100
             description := "BIC " ++ bic ++
               " matches live SDN sanctioned institution cache" }] }
  else result

def checkCountries (result : ScreeningResult) : ScreeningResult :=
  if (cache.sanctionedCountries.contains req.originatorCountry ||
        cache.sanctionedCountries.contains req.beneficiaryCountry) &&
      !result.flags.contains "high_risk_originator_country" &&
      !result.flags.contains "high_risk_beneficiary_country" then
    { result with
      riskScore := min (result.riskScore + 35) 100
      flags := result.flags ++ ["sanctioned_country_live"] }
  else result

/-- The result that `screen_transaction` answers with. -/
def screenTransactionResult : ScreeningResult :=
  let named := checkNames unicode cache req (scoreTransaction unicode req)
  checkCountries cache req (req.bics.foldl (checkBic cache) named)

end

/-! ### What the local rules find -/

def scoreOf (found : List Finding) : Nat :=
  (found.map fun f => f.hit.scoreContribution.toNat).sum

/-- The score of the local rules, before it is cut off at 100. -/
def localScore (unicode : UnicodeTables) (req : TransactionScreenRequest) : Nat :=
  scoreOf (findings req unicode)

theorem mem_finding {fires : Bool} {flag : String} {hit : RuleHit} {f : Finding} :
    f ∈ finding fires flag hit ↔ fires = true ∧ f = ⟨flag, hit⟩ := by
  cases fires <;> simp [finding]

theorem scoreOf_append (a b : List Finding) : scoreOf (a ++ b) = scoreOf a + scoreOf b := by
  simp [scoreOf]

theorem scoreOf_finding_le {fires : Bool} {flag : String} {hit : RuleHit} :
    scoreOf (finding fires flag hit) ≤ hit.scoreContribution.toNat := by
  cases fires <;> simp [finding, scoreOf]

theorem le_scoreOf {found : List Finding} {f : Finding} (h : f ∈ found) :
    f.hit.scoreContribution.toNat ≤ scoreOf found :=
  le_sum_of_mem (mem_map_of_mem h)

theorem contributions_toNat (found : List Finding) :
    (contributions found).toNat = scoreOf found % 2 ^ 32 := by
  have hfold : ∀ start : UInt32,
      (found.foldl (fun score f => score + f.hit.scoreContribution) start).toNat =
        (start.toNat + scoreOf found) % 2 ^ 32 := by
    induction found with
    | nil =>
      intro start
      exact (Nat.mod_eq_of_lt start.toNat_lt).symm
    | cons f rest ih =>
      intro start
      have hcons : scoreOf (f :: rest) = f.hit.scoreContribution.toNat + scoreOf rest := by
        simp [scoreOf]
      rw [foldl_cons, ih, UInt32.toNat_add, hcons]
      omega
  rw [contributions, hfold]
  simp

section

variable {unicode : UnicodeTables} {req : TransactionScreenRequest} {f : Finding} {flag : String}

theorem mem_findings :
    f ∈ findings req unicode ↔
      f ∈ highRiskOriginatorCountry req ∨ f ∈ highRiskBeneficiaryCountry req ∨
        f ∈ potentialStructuring req ∨ f ∈ largeCashTransaction req ∨ f ∈ cashTransaction req ∨
        f ∈ suspiciousNarration req unicode.toLowercase ∨ f ∈ largeFxConversion req ∨
        f ∈ sanctionedBic req ∨ f ∈ roundNumberLargeTransfer req ∨ f ∈ crossBorderWire req := by
  simp only [findings, mem_append, or_assoc]

/-- The flag, the rule and the contribution of a finding. -/
def Finding.known (f : Finding) : String × String × UInt32 :=
  (f.flag, f.hit.ruleId, f.hit.scoreContribution)

def originatorFinding : String × String × UInt32 := ("high_risk_originator_country", "AML-001", 35)

def beneficiaryFinding : String × String × UInt32 :=
  ("high_risk_beneficiary_country", "AML-002", 35)

/-- What the rules find that look at no country's risk. -/
def otherFindings : List (String × String × UInt32) :=
  [("potential_structuring", "AML-003", 45), ("large_cash_transaction", "AML-004", 20),
   ("cash_transaction", "AML-005", 10), ("suspicious_narration", "AML-006", 30),
   ("large_fx_conversion", "AML-007", 15), ("sanctioned_bic", "AML-008", 100),
   ("round_number_large_transfer", "AML-009", 10), ("cross_border_wire", "AML-010", 5)]

theorem known_of_mem_finding {fires : Bool} {hit : RuleHit}
    (hknown : (flag, hit.ruleId, hit.scoreContribution) ∈ otherFindings)
    (h : f ∈ finding fires flag hit) : f.known ∈ otherFindings := by
  obtain ⟨-, rfl⟩ := mem_finding.mp h
  exact hknown

theorem known_of_mem_findings (h : f ∈ findings req unicode) :
    (f ∈ highRiskOriginatorCountry req ∧ f.known = originatorFinding) ∨
      (f ∈ highRiskBeneficiaryCountry req ∧ f.known = beneficiaryFinding) ∨
      f.known ∈ otherFindings := by
  rw [mem_findings] at h
  rcases h with h | h | h | h | h | h | h | h | h | h
  · obtain ⟨-, rfl⟩ := mem_finding.mp h
    exact .inl ⟨h, rfl⟩
  · obtain ⟨-, rfl⟩ := mem_finding.mp h
    exact .inr (.inl ⟨h, rfl⟩)
  all_goals refine .inr (.inr ?_)
  · unfold potentialStructuring at h
    split at h
    · cases h
    · exact known_of_mem_finding (by simp [otherFindings]) h
  · exact known_of_mem_finding (by simp [otherFindings]) h
  · exact known_of_mem_finding (by simp [otherFindings]) h
  · unfold suspiciousNarration at h
    split at h
    · cases h
    · exact known_of_mem_finding (by simp [otherFindings]) h
  · exact known_of_mem_finding (by simp [otherFindings]) h
  · obtain ⟨bic, -, hbic⟩ := mem_flatMap.mp h
    exact known_of_mem_finding (by simp [otherFindings]) hbic
  · exact known_of_mem_finding (by simp [otherFindings]) h
  · exact known_of_mem_finding (by simp [otherFindings]) h

theorem mem_flags_iff :
    flag ∈ (scoreTransaction unicode req).flags ↔ ∃ f ∈ findings req unicode, f.flag = flag := by
  simp [scoreTransaction]

theorem flag_ne_of_mem (h : f.known ∈ otherFindings) (hflag : flag ∉ otherFindings.map Prod.fst) :
    f.flag ≠ flag := by
  rintro rfl
  exact hflag (mem_map_of_mem h)

/-- The flag of a country that only the country's own rule gives. -/
theorem countryFlag_iff {country : String} {hit : RuleHit}
    (hown : finding (highRiskCountries.contains country) flag hit ⊆ findings req unicode)
    (honly : ∀ f ∈ findings req unicode, f.flag = flag → f ∈ finding (highRiskCountries.contains
      country) flag hit) :
    flag ∈ (scoreTransaction unicode req).flags ↔ country ∈ highRiskCountries := by
  rw [mem_flags_iff]
  constructor
  · rintro ⟨f, hf, hflag⟩
    exact contains_iff_mem.mp (mem_finding.mp (honly f hf hflag)).1
  · intro hcountry
    have hmem : _ ∈ finding (highRiskCountries.contains country) flag hit :=
      mem_finding.mpr ⟨contains_iff_mem.mpr hcountry, rfl⟩
    exact ⟨_, hown hmem, rfl⟩

theorem originatorFlag_iff :
    "high_risk_originator_country" ∈ (scoreTransaction unicode req).flags ↔
      req.originatorCountry ∈ highRiskCountries := by
  refine countryFlag_iff (fun f hf => mem_findings.mpr (.inl hf)) ?_
  intro f hf hflag
  rcases known_of_mem_findings hf with ⟨hmem, -⟩ | ⟨-, hknown⟩ | hother
  · exact hmem
  · have hne : f.flag = "high_risk_beneficiary_country" := congrArg Prod.fst hknown
    exact absurd (hne.symm.trans hflag) (by decide)
  · exact absurd hflag (flag_ne_of_mem hother (by decide))

theorem beneficiaryFlag_iff :
    "high_risk_beneficiary_country" ∈ (scoreTransaction unicode req).flags ↔
      req.beneficiaryCountry ∈ highRiskCountries := by
  refine countryFlag_iff (fun f hf => mem_findings.mpr (.inr (.inl hf))) ?_
  intro f hf hflag
  rcases known_of_mem_findings hf with ⟨-, hknown⟩ | ⟨hmem, -⟩ | hother
  · have hne : f.flag = "high_risk_originator_country" := congrArg Prod.fst hknown
    exact absurd (hne.symm.trans hflag) (by decide)
  · exact hmem
  · exact absurd hflag (flag_ne_of_mem hother (by decide))

/-! ### The sum of the contributions -/

theorem scoreOf_sanctionedBic_le : scoreOf (sanctionedBic req) ≤ 200 := by
  have hone : ∀ bic, scoreOf (finding (sanctionedBicPrefixes.any (startsWith bic))
      "sanctioned_bic"
      { ruleId := "AML-008", ruleName := "Sanctioned Institution BIC", scoreContribution := 100
        description := "BIC " ++ bic ++ " matches sanctioned institution list" }) ≤ 100 :=
    fun bic => scoreOf_finding_le
  unfold sanctionedBic TransactionScreenRequest.bics
  cases req.originatorBic with
  | none =>
    cases req.beneficiaryBic with
    | none => simp [scoreOf]
    | some bic =>
      have hbic := hone bic
      simp only [filterMap_cons, filterMap_nil, id, flatMap_singleton]
      omega
  | some bic =>
    have hbic := hone bic
    cases req.beneficiaryBic with
    | none =>
      simp only [filterMap_cons, filterMap_nil, id, flatMap_singleton]
      omega
    | some other =>
      have hother := hone other
      simp only [filterMap_cons, filterMap_nil, id, flatMap_cons,
        flatMap_nil, append_nil, scoreOf_append]
      omega

variable (unicode req) in
/-- The local rules never score over 405: the sum of the contributions does not wrap. -/
theorem localScore_le : localScore unicode req ≤ 405 := by
  have hstructuring : scoreOf (potentialStructuring req) ≤ 45 := by
    unfold potentialStructuring
    split
    · simp [scoreOf]
    · exact scoreOf_finding_le
  have hnarration : scoreOf (suspiciousNarration req unicode.toLowercase) ≤ 30 := by
    unfold suspiciousNarration
    split
    · simp [scoreOf]
    · exact scoreOf_finding_le
  have horiginator : scoreOf (highRiskOriginatorCountry req) ≤ 35 := scoreOf_finding_le
  have hbeneficiary : scoreOf (highRiskBeneficiaryCountry req) ≤ 35 := scoreOf_finding_le
  have hlarge : scoreOf (largeCashTransaction req) ≤ 20 := scoreOf_finding_le
  have hcash : scoreOf (cashTransaction req) ≤ 10 := scoreOf_finding_le
  have hfx : scoreOf (largeFxConversion req) ≤ 15 := scoreOf_finding_le
  have hbic : scoreOf (sanctionedBic req) ≤ 200 := scoreOf_sanctionedBic_le
  have hround : scoreOf (roundNumberLargeTransfer req) ≤ 10 := scoreOf_finding_le
  have hwire : scoreOf (crossBorderWire req) ≤ 5 := scoreOf_finding_le
  simp only [localScore, findings, scoreOf_append]
  omega

theorem min_toNat (a b : UInt32) : (min a b).toNat = min a.toNat b.toNat := by
  have hmin : min a b = if a ≤ b then a else b := rfl
  rw [hmin]
  split
  next h => exact (Nat.min_eq_left h).symm
  next h => exact (Nat.min_eq_right (Nat.le_of_not_le h)).symm

theorem riskScore_toNat :
    (scoreTransaction unicode req).riskScore.toNat = min (localScore unicode req) 100 := by
  have hle := localScore_le unicode req
  have hsum : (contributions (findings req unicode)).toNat = localScore unicode req := by
    rw [contributions_toNat]
    exact Nat.mod_eq_of_lt (Nat.lt_of_le_of_lt hle (by decide))
  rw [scoreTransaction, min_toNat, hsum]
  rfl

theorem blocked_iff_flag :
    (scoreTransaction unicode req).blocked = true ↔
      100 ≤ (scoreTransaction unicode req).riskScore ∨
        "sanctioned_bic" ∈ (scoreTransaction unicode req).flags := by
  simp only [scoreTransaction, Bool.or_eq_true, decide_eq_true_iff, contains_iff_mem]

/-- A sanctioned institution alone already scores 100. -/
theorem blocked_iff :
    (scoreTransaction unicode req).blocked = true ↔ 100 ≤ localScore unicode req := by
  have hscore : (scoreTransaction unicode req).riskScore.toNat =
      min (localScore unicode req) 100 := riskScore_toNat
  rw [blocked_iff_flag, UInt32.le_iff_toNat_le, hscore]
  constructor
  · rintro (hcut | hflag)
    · exact (Nat.le_min.mp hcut).1
    · obtain ⟨f, hf, hname⟩ := mem_flags_iff.mp hflag
      have hcontribution : f.hit.scoreContribution = 100 := by
        rcases known_of_mem_findings hf with ⟨-, hknown⟩ | ⟨-, hknown⟩ | hother
        · exact absurd ((congrArg Prod.fst hknown).symm.trans hname) (by decide)
        · exact absurd ((congrArg Prod.fst hknown).symm.trans hname) (by decide)
        · have hall : ∀ k ∈ otherFindings, k.1 = "sanctioned_bic" → k.2.2 = 100 := by decide
          exact hall f.known hother hname
      have hsum := le_scoreOf hf
      rw [hcontribution] at hsum
      exact hsum
  · intro hle
    exact .inl (Nat.le_min.mpr ⟨hle, Nat.le_refl 100⟩)

end

/-! ### What the route changes -/

/-- A hit of a live list is among the hits. -/
def LiveHit (result : ScreeningResult) : Prop :=
  ∃ hit ∈ result.ruleHits, hit.ruleId = "AML-SDN-001" ∨ hit.ruleId = "AML-SDN-002"

/-- The fields of a result fit each other. -/
structure Consistent (result : ScreeningResult) : Prop where
  level : result.riskLevel = RiskLevel.fromScore result.riskScore
  hit : LiveHit result → result.blocked = true
  review : result.requiresManualReview = true ↔
    50 ≤ result.riskScore ∧ result.blocked = false

/-- A live list names one of the parties or of their institutions. -/
def listedParty (unicode : UnicodeTables) (cache : SdnCache) (req : TransactionScreenRequest) :
    Bool :=
  namesHit unicode cache req || req.bics.any (bicHits cache)

/-- One of the countries is on the live list, and none is on the local one. -/
def liveCountry (cache : SdnCache) (req : TransactionScreenRequest) : Bool :=
  (cache.sanctionedCountries.contains req.originatorCountry ||
      cache.sanctionedCountries.contains req.beneficiaryCountry) &&
    !highRiskCountries.contains req.originatorCountry &&
    !highRiskCountries.contains req.beneficiaryCountry

/-- What the looks at names and institutions have made of a result; `listed` says
whether one of them hit. The level and the review stay as they were. -/
structure Patched (base : ScreeningResult) (listed : Bool) (result : ScreeningResult) : Prop where
  level : result.riskLevel = base.riskLevel
  review : result.requiresManualReview = base.requiresManualReview
  score : result.riskScore = if listed then 100 else base.riskScore
  blocked : result.blocked = (base.blocked || listed)
  hit : LiveHit result → listed = true
  flags : ∀ flag, flag ∉ ["sdn_name_match", "sanctioned_bic_live"] →
    (flag ∈ result.flags ↔ flag ∈ base.flags)

section

variable {unicode : UnicodeTables} {cache : SdnCache} {req : TransactionScreenRequest}
variable {base result : ScreeningResult} {listed : Bool}

theorem Patched.names (h : Patched base listed result) :
    Patched base (listed || namesHit unicode cache req)
      (checkNames unicode cache req result) := by
  unfold checkNames
  split
  next hnames =>
    rw [hnames, Bool.or_true]
    refine ⟨h.level, h.review, rfl, ?_, fun _ => rfl, ?_⟩
    · rw [Bool.or_true]
    · intro flag hflag
      rw [← h.flags flag hflag]
      have hne : flag ≠ "sdn_name_match" := fun heq => hflag (by simp [heq])
      simp [hne]
  next hnames =>
    rw [Bool.eq_false_of_not_eq_true hnames, Bool.or_false]
    exact h

theorem Patched.bic (h : Patched base listed result) (bic : String) :
    Patched base (listed || bicHits cache bic) (checkBic cache result bic) := by
  unfold checkBic
  split
  next hbic =>
    rw [hbic, Bool.or_true]
    split
    · exact ⟨h.level, h.review, rfl, (Bool.or_true _).symm, fun _ => rfl, h.flags⟩
    · refine ⟨h.level, h.review, rfl, (Bool.or_true _).symm, fun _ => rfl, ?_⟩
      intro flag hflag
      rw [← h.flags flag hflag]
      have hne : flag ≠ "sanctioned_bic_live" := fun heq => hflag (by simp [heq])
      simp [hne]
  next hbic =>
    rw [Bool.eq_false_of_not_eq_true hbic, Bool.or_false]
    exact h

/-- The loop over the institutions. -/
theorem Patched.bics (h : Patched base listed result) (bics : List String) :
    Patched base (listed || bics.any (bicHits cache)) (bics.foldl (checkBic cache) result) := by
  induction bics generalizing listed result with
  | nil => simpa using h
  | cons bic rest ih =>
    rw [foldl_cons, any_cons, ← Bool.or_assoc]
    exact ih (h.bic bic)

theorem not_liveHit_score : ¬LiveHit (scoreTransaction unicode req) := by
  rintro ⟨hit, hmem, hrule⟩
  have hids : ∀ k ∈ originatorFinding :: beneficiaryFinding :: otherFindings,
      k.2.1 ≠ "AML-SDN-001" ∧ k.2.1 ≠ "AML-SDN-002" := by decide
  obtain ⟨f, hf, rfl⟩ := mem_map.mp hmem
  have hknown : f.known ∈ originatorFinding :: beneficiaryFinding :: otherFindings := by
    rcases known_of_mem_findings hf with ⟨-, h⟩ | ⟨-, h⟩ | h
    · simp [h]
    · simp [h]
    · simp [h]
  exact hrule.elim (hids f.known hknown).1 (hids f.known hknown).2

/-- The result before the look at the countries. -/
theorem patched_parties :
    Patched (scoreTransaction unicode req) (listedParty unicode cache req)
      (req.bics.foldl (checkBic cache)
        (checkNames unicode cache req (scoreTransaction unicode req))) := by
  have hbase : Patched (scoreTransaction unicode req) false (scoreTransaction unicode req) :=
    ⟨rfl, rfl, rfl, (Bool.or_false _).symm, fun h => absurd h not_liveHit_score, fun _ _ => Iff.rfl⟩
  have hnames : Patched _ (false || namesHit unicode cache req) _ := hbase.names
  rw [Bool.false_or] at hnames
  exact hnames.bics req.bics

/-- The look at the countries, behind that at the parties. -/
theorem checkCountries_eq (h : Patched (scoreTransaction unicode req) listed result) :
    checkCountries cache req result =
      if liveCountry cache req then
        { result with
          riskScore := min (result.riskScore + 35) 100
          flags := result.flags ++ ["sanctioned_country_live"] }
      else result := by
  have horiginator : result.flags.contains "high_risk_originator_country" =
      highRiskCountries.contains req.originatorCountry := by
    rw [Bool.eq_iff_iff, contains_iff_mem, contains_iff_mem,
      h.flags _ (by decide), originatorFlag_iff]
  have hbeneficiary : result.flags.contains "high_risk_beneficiary_country" =
      highRiskCountries.contains req.beneficiaryCountry := by
    rw [Bool.eq_iff_iff, contains_iff_mem, contains_iff_mem,
      h.flags _ (by decide), beneficiaryFlag_iff]
  rw [checkCountries, horiginator, hbeneficiary]
  rfl

/-- The score, block, level and review that the route answers with. -/
structure Answered (base : ScreeningResult) (listed live : Bool) (result : ScreeningResult) :
    Prop where
  level : result.riskLevel = base.riskLevel
  review : result.requiresManualReview = base.requiresManualReview
  score : result.riskScore.toNat =
    if listed then 100
    else if live then min (base.riskScore.toNat + 35) 100
    else base.riskScore.toNat
  blocked : result.blocked = (base.blocked || listed)
  hit : LiveHit result → listed = true

theorem raised_toNat {score : UInt32} (h : score.toNat ≤ 100) :
    (min (score + 35) 100).toNat = min (score.toNat + 35) 100 := by
  have hsum : (score + 35).toNat = score.toNat + 35 := by
    rw [UInt32.toNat_add]
    exact Nat.mod_eq_of_lt (Nat.lt_of_le_of_lt (Nat.add_le_add_right h 35) (by decide))
  rw [min_toNat, hsum]
  rfl

theorem riskScore_le : (scoreTransaction unicode req).riskScore.toNat ≤ 100 := by
  rw [riskScore_toNat]
  exact Nat.min_le_right _ _

theorem screenTransactionResult_answered :
    Answered (scoreTransaction unicode req) (listedParty unicode cache req)
      (liveCountry cache req) (screenTransactionResult unicode cache req) := by
  have hparties : Patched (scoreTransaction unicode req) (listedParty unicode cache req) _ :=
    patched_parties
  unfold screenTransactionResult
  simp only []
  rw [checkCountries_eq hparties]
  generalize req.bics.foldl (checkBic cache)
    (checkNames unicode cache req (scoreTransaction unicode req)) = named at hparties
  have hscore := hparties.score
  have hle : named.riskScore.toNat ≤ 100 := by
    rw [hscore]
    split
    · exact Nat.le_refl 100
    · exact riskScore_le
  cases hlive : liveCountry cache req with
  | false =>
    refine ⟨hparties.level, hparties.review, ?_, hparties.blocked, hparties.hit⟩
    rw [if_neg Bool.false_ne_true, hscore]
    split <;> rfl
  | true =>
    refine ⟨hparties.level, hparties.review, ?_, hparties.blocked, hparties.hit⟩
    rw [if_pos rfl, if_pos rfl, raised_toNat hle, hscore]
    split <;> rfl

end

/-- The level of a score. -/
def levelOf (score : Nat) : RiskLevel :=
  if score ≤ 24 then .low
  else if score ≤ 49 then .medium
  else if score ≤ 74 then .high
  else .critical

theorem fromScore_eq (score : UInt32) : RiskLevel.fromScore score = levelOf score.toNat := rfl

theorem levelOf_eq_critical {score : Nat} : levelOf score = .critical ↔ 75 ≤ score := by
  unfold levelOf
  split_ifs <;> simp <;> omega

/-- 35 points more are another level, but for a critical one. -/
theorem levelOf_raised {score : Nat} :
    levelOf score = levelOf (min (score + 35) 100) ↔ 75 ≤ score := by
  unfold levelOf
  split_ifs <;> simp <;> omega

variable {unicode : UnicodeTables} {req : TransactionScreenRequest}

theorem riskLevel_eq :
    (scoreTransaction unicode req).riskLevel =
      RiskLevel.fromScore (scoreTransaction unicode req).riskScore := by
  simp only [scoreTransaction]

theorem review_iff :
    (scoreTransaction unicode req).requiresManualReview = true ↔
      50 ≤ localScore unicode req ∧ ¬100 ≤ localScore unicode req := by
  have hreview : (scoreTransaction unicode req).requiresManualReview = true ↔
      50 ≤ (scoreTransaction unicode req).riskScore ∧
        ¬(scoreTransaction unicode req).blocked = true := by
    simp only [scoreTransaction, Bool.and_eq_true, decide_eq_true_iff, Bool.not_eq_true',
      Bool.not_eq_true]
  have hfifty : (50 : UInt32).toNat = 50 := rfl
  rw [hreview, blocked_iff, UInt32.le_iff_toNat_le, riskScore_toNat, hfifty]
  omega

/-- What the fields of an answer come to in terms of the local score. -/
theorem consistent_iff_scores {listed live : Bool} {result : ScreeningResult}
    (h : Answered (scoreTransaction unicode req) listed live result) :
    Consistent result ↔
      levelOf (min (localScore unicode req) 100) = levelOf result.riskScore.toNat ∧
        (50 ≤ localScore unicode req ∧ ¬100 ≤ localScore unicode req ↔
          50 ≤ result.riskScore.toNat ∧ ¬(100 ≤ localScore unicode req ∨ listed = true)) := by
  have hlevel : result.riskLevel = levelOf (min (localScore unicode req) 100) := by
    rw [h.level, riskLevel_eq, fromScore_eq, riskScore_toNat]
  have hreview : result.requiresManualReview = true ↔
      50 ≤ localScore unicode req ∧ ¬100 ≤ localScore unicode req := by
    rw [h.review, review_iff]
  have hblocked : result.blocked = true ↔ 100 ≤ localScore unicode req ∨ listed = true := by
    rw [h.blocked, Bool.or_eq_true, blocked_iff]
  rw [← hlevel, ← fromScore_eq, ← hreview, ← hblocked, Bool.not_eq_true]
  constructor
  · intro hconsistent
    exact ⟨hconsistent.level, hconsistent.review⟩
  · rintro ⟨hscore, hwaits⟩
    exact ⟨hscore, fun hhit => hblocked.mpr (.inr (h.hit hhit)), hwaits⟩

/-- The answer of the route is consistent exactly if the local rules alone score 100
where a live list names a party, and 75 where it has one of the countries. -/
theorem screenTransactionResult_consistent_iff (unicode : UnicodeTables) (cache : SdnCache)
    (req : TransactionScreenRequest) :
    Consistent (screenTransactionResult unicode cache req) ↔
      (listedParty unicode cache req = true → 100 ≤ localScore unicode req) ∧
        (liveCountry cache req = true → 75 ≤ localScore unicode req) := by
  have h : Answered (scoreTransaction unicode req) (listedParty unicode cache req)
      (liveCountry cache req) (screenTransactionResult unicode cache req) :=
    screenTransactionResult_answered
  rw [consistent_iff_scores h, h.score, riskScore_toNat]
  generalize localScore unicode req = score
  cases listedParty unicode cache req with
  | true =>
    have hcritical : levelOf 100 = .critical := rfl
    simp only [↓reduceIte, hcritical, levelOf_eq_critical, le_inf_iff, Nat.reduceLeDiff,
      and_true, not_le, or_true, not_true_eq_false, and_false, iff_false, not_and, not_lt,
      forall_const]
    omega
  | false =>
    cases liveCountry cache req with
    | true =>
      simp only [Bool.false_eq_true, ↓reduceIte, levelOf_raised, le_inf_iff,
        Nat.reduceLeDiff, and_true, not_le, or_false, IsEmpty.forall_iff, forall_const,
        true_and]
      omega
    | false =>
      simp

/-- A transfer in the name of a seeded person, on which the local rules find nothing. -/
def seededTransfer : TransactionScreenRequest where
  transactionRef := "TX1"
  amount := 500
  currency := "USD"
  originatorName := "Vladimir Putin"
  originatorCountry := "NG"
  originatorBic := none
  beneficiaryName := "Ada Obi"
  beneficiaryCountry := "NG"
  beneficiaryBic := none
  transactionType := "transfer"
  narration := none
  isCash := none

theorem seededTransfer_listed :
    listedParty asciiTables (cacheAfter asciiTables []) seededTransfer = true := by
  have hseed : listedNames [] = seedNames := by simp [listedNames]
  have htokens : normaliseName asciiTables "Vladimir Putin" = ["vladimir", "putin"] := by decide
  have hlisted : ∀ token ∈ ["vladimir", "putin"],
      token ∈ (cacheAfter asciiTables []).nameTokens := by
    intro token htoken
    refine mem_nameTokens_cacheAfter.mpr ⟨"vladimir putin", ?_, ?_⟩
    · rw [hseed]
      decide
    · have hlower : normaliseName asciiTables "vladimir putin" = ["vladimir", "putin"] := by decide
      rwa [hlower]
  have hhit : nameHitsSdn asciiTables seededTransfer.originatorName (cacheAfter asciiTables []) =
      true := by
    rw [nameHitsSdn_iff]
    refine .inr ⟨"vladimir", ?_, by decide, hlisted "vladimir" (by simp)⟩
    have hname : seededTransfer.originatorName = "Vladimir Putin" := rfl
    rw [hname, htokens]
    simp
  rw [listedParty, namesHit, hhit]
  rfl

/-- It is answered with a score of 100, blocked, and with the level "low". -/
theorem seededTransfer_inconsistent :
    let result := screenTransactionResult asciiTables (cacheAfter asciiTables []) seededTransfer
    result.riskScore = 100 ∧ result.blocked = true ∧ result.riskLevel = .low ∧
      ¬Consistent result := by
  intro result
  have h : Answered (scoreTransaction asciiTables seededTransfer) _ _ result :=
    screenTransactionResult_answered
  rw [seededTransfer_listed] at h
  have hscore : result.riskScore = 100 := UInt32.toNat_inj.mp h.score
  have hlevel : result.riskLevel = .low := by
    rw [h.level]
    decide
  refine ⟨hscore, ?_, hlevel, ?_⟩
  · rw [h.blocked, Bool.or_true]
  · intro hconsistent
    have hcritical := hconsistent.level
    rw [hscore, hlevel] at hcritical
    exact absurd hcritical (by decide)

end Bis.Aml
