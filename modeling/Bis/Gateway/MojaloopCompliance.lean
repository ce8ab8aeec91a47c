import Mathlib.Tactic.NormNum

/-!
The compliance check before a Mojaloop transfer. A request brings the signals on an
individual or a company; the evaluators raise flags and decide, and the handlers answer
with what they say.

A risk score comes out of JSON, so it is a finite number.
-/

namespace Bis.Gateway

inductive Decision where
  | allow
  | review
  | block
  deriving DecidableEq

/-- How far a decision is from `allow`. -/
def Decision.severity : Decision → Nat
  | allow => 0
  | review => 1
  | block => 2

structure IndividualComplianceRequest where
  (subjectRef subjectName nin txRef : String)
  (hasCriminalRecord outstandingWarrant sanctionsHit pep : Bool)
  riskScore : ℚ
  thinFile : Bool

structure CorporateComplianceRequest where
  (profileRef companyName rcNumber tin txRef cacStatus : String)
  (firsCleared sanctionsHit pepDirector : Bool)
  riskScore : ℚ
  outstandingWarrant : Bool

structure Evaluation where
  decision : Decision
  reason : String
  flags : List String

def raised (signal : Bool) (flag : String) : List String := if signal then [flag] else []

def evaluateIndividual (req : IndividualComplianceRequest) : Evaluation :=
  let flags :=
    raised req.outstandingWarrant "OUTSTANDING_WARRANT" ++
    raised req.sanctionsHit "SANCTIONS_HIT" ++
    raised req.pep "PEP" ++
    raised req.hasCriminalRecord "CRIMINAL_RECORD" ++
    raised req.thinFile "THIN_FILE" ++
    raised (80 ≤ req.riskScore) "HIGH_RISK_SCORE"
  if req.outstandingWarrant || req.sanctionsHit then
    ⟨.block, "Subject has outstanding warrant or sanctions hit — transfer blocked", flags⟩
  else if req.hasCriminalRecord || req.pep || 65 ≤ req.riskScore || req.thinFile then
    ⟨.review, "Subject requires enhanced due diligence before transfer proceeds", flags⟩
  else ⟨.allow, "Subject cleared for Mojaloop transfer", flags⟩

def CorporateComplianceRequest.isInactive (req : CorporateComplianceRequest) : Bool :=
  req.cacStatus == "struck_off" || req.cacStatus == "dissolved"

/-- A warrant raises a flag and is not looked at again. -/
def evaluateCorporate (req : CorporateComplianceRequest) : Evaluation :=
  let flags :=
    raised req.sanctionsHit "SANCTIONS_HIT" ++
    raised req.pepDirector "PEP_DIRECTOR" ++
    raised req.isInactive "INACTIVE_CAC" ++
    raised (!req.firsCleared) "FIRS_NOT_CLEARED" ++
    raised req.outstandingWarrant "DIRECTOR_WARRANT" ++
    raised (75 ≤ req.riskScore) "HIGH_RISK_SCORE"
  if req.sanctionsHit || req.isInactive then
    ⟨.block, "Corporate entity is sanctioned or no longer active — transfer blocked", flags⟩
  else if req.pepDirector || !req.firsCleared || 55 ≤ req.riskScore then
    ⟨.review, "Corporate entity requires enhanced due diligence", flags⟩
  else ⟨.allow, "Corporate entity cleared for Mojaloop transfer", flags⟩

inductive ComplianceRequest where
  | individual (req : IndividualComplianceRequest)
  | corporate (req : CorporateComplianceRequest)

namespace ComplianceRequest

def evaluate : ComplianceRequest → Evaluation
  | individual req => evaluateIndividual req
  | corporate req => evaluateCorporate req

end ComplianceRequest

/-! ### Decisions and signals -/

theorem raised_eq_nil_iff (signal : Bool) (flag : String) :
    raised signal flag = [] ↔ signal = false := by
  cases signal <;> simp [raised]

/-- More reasons to block and more reasons to review do not move towards `allow`. -/
theorem severity_mono {blocked reviewed blocked' reviewed' : Bool}
    (hblocked : blocked → blocked') (hreviewed : reviewed → reviewed') :
    (if blocked then Decision.block else if reviewed then .review else .allow).severity ≤
      (if blocked' then Decision.block else if reviewed' then .review else .allow).severity := by
  cases blocked <;> cases blocked' <;> cases reviewed <;> cases reviewed' <;>
    simp_all [Decision.severity]

theorem allow_iff {blocked reviewed : Bool} :
    (if blocked then Decision.block else if reviewed then .review else .allow) = .allow ↔
      blocked = false ∧ reviewed = false := by
  cases blocked <;> cases reviewed <;> simp

theorem evaluateIndividual_decision (req : IndividualComplianceRequest) :
    (evaluateIndividual req).decision =
      if req.outstandingWarrant || req.sanctionsHit then .block
      else if req.hasCriminalRecord || req.pep || 65 ≤ req.riskScore || req.thinFile then .review
      else .allow := by
  unfold evaluateIndividual
  split
  · rfl
  · split <;> rfl

theorem evaluateCorporate_decision (req : CorporateComplianceRequest) :
    (evaluateCorporate req).decision =
      if req.sanctionsHit || req.isInactive then .block
      else if req.pepDirector || !req.firsCleared || 55 ≤ req.riskScore then .review
      else .allow := by
  unfold evaluateCorporate
  split
  · rfl
  · split <;> rfl

theorem evaluateIndividual_flags (req : IndividualComplianceRequest) :
    (evaluateIndividual req).flags = [] ↔
      req.outstandingWarrant = false ∧ req.sanctionsHit = false ∧ req.pep = false ∧
        req.hasCriminalRecord = false ∧ req.thinFile = false ∧ req.riskScore < 80 := by
  have hflags : (evaluateIndividual req).flags =
      raised req.outstandingWarrant "OUTSTANDING_WARRANT" ++
      raised req.sanctionsHit "SANCTIONS_HIT" ++ raised req.pep "PEP" ++
      raised req.hasCriminalRecord "CRIMINAL_RECORD" ++ raised req.thinFile "THIN_FILE" ++
      raised (80 ≤ req.riskScore) "HIGH_RISK_SCORE" := by
    unfold evaluateIndividual
    split
    · rfl
    · split <;> rfl
  rw [hflags]
  simp [raised_eq_nil_iff]

theorem evaluateCorporate_flags (req : CorporateComplianceRequest) :
    (evaluateCorporate req).flags = [] ↔
      req.sanctionsHit = false ∧ req.pepDirector = false ∧ req.isInactive = false ∧
        req.firsCleared = true ∧ req.outstandingWarrant = false ∧ req.riskScore < 75 := by
  have hflags : (evaluateCorporate req).flags =
      raised req.sanctionsHit "SANCTIONS_HIT" ++ raised req.pepDirector "PEP_DIRECTOR" ++
      raised req.isInactive "INACTIVE_CAC" ++ raised (!req.firsCleared) "FIRS_NOT_CLEARED" ++
      raised req.outstandingWarrant "DIRECTOR_WARRANT" ++
      raised (75 ≤ req.riskScore) "HIGH_RISK_SCORE" := by
    unfold evaluateCorporate
    split
    · rfl
    · split <;> rfl
  rw [hflags]
  simp [raised_eq_nil_iff]

theorem evaluateIndividual_allow_iff (req : IndividualComplianceRequest) :
    (evaluateIndividual req).decision = .allow ↔
      req.outstandingWarrant = false ∧ req.sanctionsHit = false ∧
        req.hasCriminalRecord = false ∧ req.pep = false ∧ req.riskScore < 65 ∧
        req.thinFile = false := by
  rw [evaluateIndividual_decision, allow_iff]
  simp [and_assoc]

theorem evaluateCorporate_allow_iff (req : CorporateComplianceRequest) :
    (evaluateCorporate req).decision = .allow ↔
      req.sanctionsHit = false ∧ req.isInactive = false ∧ req.pepDirector = false ∧
        req.firsCleared = true ∧ req.riskScore < 55 := by
  rw [evaluateCorporate_decision, allow_iff]
  simp [and_assoc]

/-! ### What a decision is to keep to -/

/-- The second request has every adverse signal of the first and no lower a score. -/
structure IndividualComplianceRequest.Worse (req req' : IndividualComplianceRequest) : Prop where
  hasCriminalRecord : req.hasCriminalRecord → req'.hasCriminalRecord
  outstandingWarrant : req.outstandingWarrant → req'.outstandingWarrant
  sanctionsHit : req.sanctionsHit → req'.sanctionsHit
  pep : req.pep → req'.pep
  thinFile : req.thinFile → req'.thinFile
  riskScore : req.riskScore ≤ req'.riskScore

structure CorporateComplianceRequest.Worse (req req' : CorporateComplianceRequest) : Prop where
  isInactive : req.isInactive → req'.isInactive
  firsCleared : req'.firsCleared → req.firsCleared
  sanctionsHit : req.sanctionsHit → req'.sanctionsHit
  pepDirector : req.pepDirector → req'.pepDirector
  outstandingWarrant : req.outstandingWarrant → req'.outstandingWarrant
  riskScore : req.riskScore ≤ req'.riskScore

namespace ComplianceRequest

def Worse : ComplianceRequest → ComplianceRequest → Prop
  | individual req, individual req' => req.Worse req'
  | corporate req, corporate req' => req.Worse req'
  | _, _ => False

/-- An allowed request raises no flag, and a worse one is decided no more mildly. -/
def Sound (req : ComplianceRequest) : Prop :=
  (req.evaluate.decision = .allow → req.evaluate.flags = []) ∧
    ∀ req', req.Worse req' → req.evaluate.decision.severity ≤ req'.evaluate.decision.severity

/-- A company with a warrant has something else that its evaluator acts on. -/
def WarrantCovered : ComplianceRequest → Prop
  | individual _ => True
  | corporate req => req.outstandingWarrant = true →
      req.sanctionsHit = true ∨ req.isInactive = true ∨ req.pepDirector = true ∨
        req.firsCleared = false ∨ 55 ≤ req.riskScore

end ComplianceRequest

theorem evaluateIndividual_mono {req req' : IndividualComplianceRequest} (h : req.Worse req') :
    (evaluateIndividual req).decision.severity ≤ (evaluateIndividual req').decision.severity := by
  rw [evaluateIndividual_decision, evaluateIndividual_decision]
  apply severity_mono
  · simp only [Bool.or_eq_true]
    exact Or.imp h.outstandingWarrant h.sanctionsHit
  · simp only [Bool.or_eq_true, decide_eq_true_eq]
    exact Or.imp (Or.imp (Or.imp h.hasCriminalRecord h.pep) fun hscore => hscore.trans h.riskScore)
      h.thinFile

theorem evaluateCorporate_mono {req req' : CorporateComplianceRequest} (h : req.Worse req') :
    (evaluateCorporate req).decision.severity ≤ (evaluateCorporate req').decision.severity := by
  have hcleared : (!req.firsCleared) = true → (!req'.firsCleared) = true := by
    simp only [Bool.not_eq_true', ← Bool.not_eq_true]
    exact mt h.firsCleared
  rw [evaluateCorporate_decision, evaluateCorporate_decision]
  apply severity_mono
  · simp only [Bool.or_eq_true]
    exact Or.imp h.sanctionsHit h.isInactive
  · simp only [Bool.or_eq_true, decide_eq_true_eq]
    exact Or.imp (Or.imp h.pepDirector hcleared) fun hscore => hscore.trans h.riskScore

theorem evaluateIndividual_flags_of_allow {req : IndividualComplianceRequest}
    (h : (evaluateIndividual req).decision = .allow) : (evaluateIndividual req).flags = [] := by
  obtain ⟨hwarrant, hsanctions, hrecord, hpep, hscore, hthin⟩ :=
    (evaluateIndividual_allow_iff req).mp h
  exact (evaluateIndividual_flags req).mpr
    ⟨hwarrant, hsanctions, hpep, hrecord, hthin, hscore.trans (by norm_num)⟩

/-- An allowed company may have one flag only, that of a warrant. -/
theorem evaluateCorporate_flags_of_allow {req : CorporateComplianceRequest}
    (h : (evaluateCorporate req).decision = .allow) :
    (evaluateCorporate req).flags = [] ↔ req.outstandingWarrant = false := by
  obtain ⟨hsanctions, hactive, hpep, hcleared, hscore⟩ := (evaluateCorporate_allow_iff req).mp h
  have hlow : req.riskScore < 75 := hscore.trans (by norm_num)
  rw [evaluateCorporate_flags]
  simp [hsanctions, hactive, hpep, hcleared, hlow]

/-- The decisions are sound but for a company whose warrant is all there is against it. -/
theorem compliance_sound_iff (req : ComplianceRequest) : req.Sound ↔ req.WarrantCovered := by
  cases req with
  | individual req =>
    simp only [ComplianceRequest.WarrantCovered, iff_true]
    constructor
    · exact evaluateIndividual_flags_of_allow
    · rintro (req' | req') hworse
      · exact evaluateIndividual_mono hworse
      · exact hworse.elim
  | corporate req =>
    have hmono : ∀ req', (ComplianceRequest.corporate req).Worse req' →
        (evaluateCorporate req).decision.severity ≤ req'.evaluate.decision.severity := by
      rintro (req' | req') hworse
      · exact hworse.elim
      · exact evaluateCorporate_mono hworse
    have hflags : (ComplianceRequest.corporate req).Sound ↔
        ((evaluateCorporate req).decision = .allow → req.outstandingWarrant = false) := by
      constructor
      · rintro ⟨hsound, -⟩ hallow
        exact (evaluateCorporate_flags_of_allow hallow).mp (hsound hallow)
      · intro hwarrant
        exact ⟨fun hallow => (evaluateCorporate_flags_of_allow hallow).mpr (hwarrant hallow),
          hmono⟩
    rw [hflags, evaluateCorporate_allow_iff]
    cases hwarrant : req.outstandingWarrant with
    | false => simp [ComplianceRequest.WarrantCovered, hwarrant]
    | true =>
      simp only [ComplianceRequest.WarrantCovered, hwarrant, Bool.true_eq_false, imp_false,
        not_and_or, not_lt, Bool.not_eq_false, Bool.not_eq_true, true_implies]

/-- A company with a director under warrant and a clean record otherwise is allowed. -/
theorem compliance_unsound : ¬ ∀ req : ComplianceRequest, req.Sound := by
  intro hall
  have hsound := (hall (.corporate
    { profileRef := "CORP-0042", companyName := "Dangote Feeds Ltd", rcNumber := "RC123456",
      tin := "12345678-0001", txRef := "TX-001", cacStatus := "active", firsCleared := true,
      sanctionsHit := false, pepDirector := false, riskScore := 10,
      outstandingWarrant := true })).1
  have hflags := hsound ((evaluateCorporate_allow_iff _).mpr
    ⟨rfl, by decide, rfl, rfl, by norm_num⟩)
  exact absurd ((evaluateCorporate_flags _).mp hflags).2.2.2.2.1 (by simp)

end Bis.Gateway
