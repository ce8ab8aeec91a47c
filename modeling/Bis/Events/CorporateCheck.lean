import Bis.Events.Gateway
import Mathlib.Algebra.Ring.Rat

/-!
What a corporate check answers, against the set of checks that it was asked for. A check
that finds something scores every time it is listed; an unknown name, and a response
without the field that decides, add nothing. So the answer rests on the set, and `clear`
says that all is clear, only where the request fails or every check is clear.
-/

namespace Bis.Events

open Json
open Temporal (Members entry asString asBool)

variable (env : Surroundings) (req : CorporateCheckRequest)

/-! ### The answer -/

structure Report where
  outcome : String
  riskScore : Rat
  flags : List String

def CorporateCheckRequest.requested : List String :=
  if req.checks = [] then ["cac_full", "firs_tax", "directors", "sanctions"] else req.checks

def Findings.report (findings : Findings) : Report :=
  let riskScore := min findings.riskScore 100
  ⟨corporateOutcome riskScore, riskScore, findings.flags⟩

def corporateReport : Except GatewayError Report :=
  if req.rcNumber = "" then .error (missingFields "rcNumber is required")
  else (req.requested.foldlM (runCheck env req) ⟨0, [], none⟩).map Findings.report

/-- What is answered is what is published, so that the law of the answer is one of the event. -/
theorem handleCorporateCheck_eq :
    handleCorporateCheck env req = (corporateReport env req).map fun report =>
      [publishEvent "bis.corporate.check_completed"
        [("checkRef", .string (env.operationRef "CORP")), ("rcNumber", .string req.rcNumber),
          ("outcome", .string report.outcome), ("riskScore", env.float report.riskScore),
          ("flags", .array (report.flags.map .string)),
          ("workflowId", .string (env.workflowID "CorporateCheckWorkflow")),
          ("investigationRef", .string req.investRef), ("timestamp", .string env.now)]] := by
  unfold handleCorporateCheck corporateReport CorporateCheckRequest.requested
  split
  · rfl
  · dsimp only
    generalize List.foldlM (runCheck env req) _ _ = result
    cases result <;> rfl

/-! ### One check -/

/-- No provider has carried the check out. -/
def Fails (check : String) : Prop :=
  check = "cac_full" ∧ asString (entry "error" (runCACCheck env req.rcNumber)) ≠ none ∨
    check = "firs_tax" ∧ asString (entry "error" (runFIRSCheck env req.rcNumber req.tin)) ≠ none ∨
    check = "directors" ∧ asString (entry "error" (runDirectorsCheck env req.rcNumber)) ≠ none ∨
    check = "sanctions"

/-- The check is known, and the field that decides it has a clear value; nothing in the
response decides the check of the directors. -/
def Clear (check : String) : Prop :=
  check = "cac_full" ∧ asString (entry "status" (runCACCheck env req.rcNumber)) = some "active" ∨
    check = "firs_tax" ∧
      asBool (entry "taxClearance" (runFIRSCheck env req.rcNumber req.tin)) = some true ∨
    check = "directors"

/-- What a check that is carried out adds to score and flags. -/
def raised (check : String) : Option (Rat × String) :=
  if check = "cac_full" then
    match asString (entry "status" (runCACCheck env req.rcNumber)) with
    | some status => if status ≠ "active" then some (20, "CAC status: " ++ status) else none
    | none => none
  else if check = "firs_tax" ∧
      asBool (entry "taxClearance" (runFIRSCheck env req.rcNumber req.tin)) = some false then
    some (25, "FIRS: tax clearance not obtained")
  else none

def Findings.adds (findings : Findings) (hits : List (Rat × String)) (after : Findings) : Prop :=
  after.riskScore = findings.riskScore + (hits.map Prod.fst).sum ∧
    after.flags = findings.flags ++ hits.map Prod.snd

variable {env req}

theorem raised_of_clear {check : String} (h : Clear env req check) : raised env req check = none := by
  rcases h with ⟨rfl, h⟩ | ⟨rfl, h⟩ | rfl <;> simp_all [raised]

theorem unavailable_ok (code : String) {result : Members}
    (h : asString (entry "error" result) = none) : unavailable code result = .ok () := by
  rw [unavailable, h]

theorem unavailable_error (code : String) {result : Members}
    (h : asString (entry "error" result) ≠ none) : ∃ e, unavailable code result = .error e := by
  obtain ⟨message, hmessage⟩ := Option.ne_none_iff_exists'.mp h
  exact ⟨⟨503, code, message⟩, by rw [unavailable, hmessage]⟩

theorem sanctions_fail (companyName rcNumber : String) :
    asString (entry "error" (runCorporateSanctionsCheck companyName rcNumber)) ≠ none := by
  unfold runCorporateSanctionsCheck
  split <;> simp [entry, asString]

theorem runCheck_of_fails {check : String} (h : Fails env req check) (findings : Findings) :
    ∃ e, runCheck env req findings check = .error e := by
  rcases h with ⟨rfl, h⟩ | ⟨rfl, h⟩ | ⟨rfl, h⟩ | rfl
  · obtain ⟨e, he⟩ := unavailable_error "cac_unavailable" h
    exact ⟨e, by simp [runCheck, he, bind, Except.bind]⟩
  · obtain ⟨e, he⟩ := unavailable_error "firs_unavailable" h
    exact ⟨e, by simp [runCheck, he, bind, Except.bind]⟩
  · obtain ⟨e, he⟩ := unavailable_error "cac_directors_unavailable" h
    exact ⟨e, by simp [runCheck, he, bind, Except.bind]⟩
  · obtain ⟨e, he⟩ := unavailable_error "sanctions_unavailable" (sanctions_fail
      (if req.companyName = "" then
        ((findings.cac.map (entry "companyName")).bind asString).getD "" else req.companyName)
      req.rcNumber)
    exact ⟨e, by simp [runCheck, he, bind, Except.bind]⟩

theorem runCheck_of_not_fails {check : String} (h : ¬ Fails env req check) (findings : Findings) :
    ∃ after, runCheck env req findings check = .ok after ∧
      findings.adds (raised env req check).toList after := by
  simp only [Fails, not_or, not_and, not_not] at h
  obtain ⟨hcac, hfirs, hdirectors, hsanctions⟩ := h
  unfold runCheck raised Findings.adds
  by_cases hcheck : check = "cac_full"
  · subst hcheck
    simp only [if_true, unavailable_ok _ (hcac rfl), bind, Except.bind]
    cases hstatus : asString (entry "status" (runCACCheck env req.rcNumber)) with
    | none => exact ⟨_, rfl, by simp, by simp⟩
    | some status =>
      by_cases hactive : status = "active"
      · exact ⟨_, if_neg (not_not_intro hactive), by simp [hactive], by simp [hactive]⟩
      · exact ⟨_, if_pos hactive, by simp [hactive], by simp [hactive]⟩
  by_cases hcheck' : check = "firs_tax"
  · subst hcheck'
    simp only [hcheck, if_false, if_true, true_and, unavailable_ok _ (hfirs rfl), bind, Except.bind]
    split <;> simp [pure, Except.pure]
  by_cases hcheck'' : check = "directors"
  · subst hcheck''
    simp [unavailable_ok _ (hdirectors rfl), bind, Except.bind, pure, Except.pure]
  simp [hcheck, hcheck', hcheck'', hsanctions, pure, Except.pure]

/-! ### All checks -/

theorem foldlM_of_fails {checks : List String} (h : ∃ check ∈ checks, Fails env req check)
    (findings : Findings) : ∃ e, checks.foldlM (runCheck env req) findings = .error e := by
  induction checks generalizing findings with
  | nil => simp at h
  | cons check rest ih =>
    rw [List.foldlM_cons]
    by_cases hcheck : Fails env req check
    · obtain ⟨e, he⟩ := runCheck_of_fails hcheck findings
      exact ⟨e, by rw [he]; rfl⟩
    · obtain ⟨after, hafter, _⟩ := runCheck_of_not_fails hcheck findings
      rw [hafter]
      refine ih ?_ after
      obtain ⟨other, hother, hfails⟩ := h
      rcases List.mem_cons.mp hother with rfl | hother
      · exact absurd hfails hcheck
      · exact ⟨other, hother, hfails⟩

theorem foldlM_of_not_fails {checks : List String} (h : ∀ check ∈ checks, ¬ Fails env req check)
    (findings : Findings) : ∃ after, checks.foldlM (runCheck env req) findings = .ok after ∧
      findings.adds (checks.filterMap (raised env req)) after := by
  induction checks generalizing findings with
  | nil => exact ⟨findings, rfl, by simp [Findings.adds]⟩
  | cons check rest ih =>
    obtain ⟨next, hnext, hscore, hflags⟩ := runCheck_of_not_fails (h check List.mem_cons_self)
      findings
    obtain ⟨after, hafter, hscore', hflags'⟩ := ih
      (fun other hother => h other (List.mem_cons_of_mem _ hother)) next
    refine ⟨after, by rw [List.foldlM_cons, hnext]; exact hafter, ?_, ?_⟩
    · rw [hscore', hscore, List.filterMap_cons]
      cases raised env req check <;> simp [add_assoc]
    · rw [hflags', hflags, List.filterMap_cons]
      cases raised env req check <;> simp

theorem corporateReport_ok (hrc : req.rcNumber ≠ "")
    (h : ∀ check ∈ req.requested, ¬ Fails env req check) :
    ∃ report, corporateReport env req = .ok report ∧
      report.flags = (req.requested.filterMap (raised env req)).map Prod.snd ∧
      (req.requested.filterMap (raised env req) = [] → report = ⟨"clear", 0, []⟩) := by
  obtain ⟨after, hafter, hscore, hflags⟩ := foldlM_of_not_fails h ⟨0, [], none⟩
  refine ⟨after.report, by rw [corporateReport, if_neg hrc, hafter]; rfl, hflags.trans ?_,
    fun hnil => ?_⟩
  · exact List.nil_append _
  · rw [hnil] at hscore hflags
    have hzero : after.riskScore = 0 := hscore.trans (by simp)
    have hnone : after.flags = [] := hflags
    unfold Findings.report
    rw [hzero, hnone]
    rfl

/-! ### The law -/

/-- The answer is the same for all lists of the same checks, and `clear` only where every
check that was asked for is clear. -/
structure Lawful (env : Surroundings) (req : CorporateCheckRequest) : Prop where
  set : ∀ checks, (∀ check, check ∈ { req with checks }.requested ↔ check ∈ req.requested) →
    (corporateReport env { req with checks }).toOption = (corporateReport env req).toOption
  clear : ∀ report, corporateReport env req = .ok report → report.outcome = "clear" →
    ∀ check ∈ req.requested, Clear env req check

theorem requested_ne_nil : req.requested ≠ [] := by
  unfold CorporateCheckRequest.requested
  split
  · exact List.cons_ne_nil _ _
  · assumption

theorem corporateReport_error (h : req.rcNumber = "" ∨ ∃ check ∈ req.requested, Fails env req check) :
    (corporateReport env req).toOption = none := by
  unfold corporateReport
  split
  · rfl
  · next hrc =>
    obtain ⟨e, he⟩ := foldlM_of_fails (h.resolve_left hrc) ⟨0, [], none⟩
    rw [he]
    rfl

/-- The answer rests on the set of checks, and `clear` on all of them, exactly where there is
no report or every check is clear: anything a check finds counts again when it is repeated. -/
theorem corporateCheck_lawful_iff (env : Surroundings) (req : CorporateCheckRequest) :
    Lawful env req ↔ (req.rcNumber = "" ∨ ∃ check ∈ req.requested, Fails env req check) ∨
      ∀ check ∈ req.requested, Clear env req check := by
  constructor
  · intro h
    refine or_iff_not_imp_left.mpr fun hfails => ?_
    simp only [not_or, not_exists, not_and] at hfails
    obtain ⟨hrc, hfails⟩ := hfails
    obtain ⟨report, hreport, hflags, hclear⟩ := corporateReport_ok hrc hfails
    -- The same checks, each listed once more.
    let twice : CorporateCheckRequest := { req with checks := req.requested ++ req.requested }
    have htwice : twice.requested = req.requested ++ req.requested := by
      have hne : req.requested ++ req.requested ≠ [] := by simp [requested_ne_nil]
      exact if_neg hne
    obtain ⟨report', hreport', hflags', _⟩ := @corporateReport_ok env twice hrc
      fun check hcheck => hfails check (by simpa [htwice] using hcheck)
    have hsame := h.set twice.checks fun check => by
      rw [show CorporateCheckRequest.requested _ = _ from htwice, List.mem_append, or_self]
    rw [show corporateReport env _ = _ from hreport', hreport] at hsame
    cases hsame
    rw [htwice, List.filterMap_append, List.map_append, hflags] at hflags'
    have hnil : (req.requested.filterMap (raised env req)).map Prod.snd = [] :=
      List.self_eq_append_right.mp hflags'
    have hfinal := hclear (List.map_eq_nil_iff.mp hnil)
    exact h.clear report hreport (by rw [hfinal])
  · intro h
    by_cases hfails : req.rcNumber = "" ∨ ∃ check ∈ req.requested, Fails env req check
    · have hnone := corporateReport_error hfails
      refine ⟨fun checks hsame => ?_, fun report hreport _ => ?_⟩
      · rw [hnone]
        exact corporateReport_error (hfails.imp_right fun ⟨check, hcheck, hfail⟩ =>
          ⟨check, (hsame check).mpr hcheck, hfail⟩)
      · rw [hreport] at hnone
        cases hnone
    · have hclear := h.resolve_left hfails
      simp only [not_or, not_exists, not_and] at hfails
      have hnone : req.requested.filterMap (raised env req) = [] :=
        List.filterMap_eq_nil_iff.mpr fun check hcheck => raised_of_clear (hclear check hcheck)
      obtain ⟨report, hreport, _, hfinal⟩ := corporateReport_ok hfails.1 hfails.2
      refine ⟨fun checks hsame => ?_, fun _ _ _ => hclear⟩
      obtain ⟨report', hreport', _, hfinal'⟩ := @corporateReport_ok env { req with checks } hfails.1
        fun check hcheck => hfails.2 check ((hsame check).mp hcheck)
      rw [hreport, hreport', hfinal hnone, hfinal']
      exact List.filterMap_eq_nil_iff.mpr fun check hcheck =>
        raised_of_clear (hclear check ((hsame check).mp hcheck))

/-- FIRS answers without a decision, as an empty object. -/
def undecided : Surroundings where
  now := ""
  operationRef tag := tag
  startWorkflow _ := none
  formatFloat _ := Number.ofInt 0
  minutesSince _ := none
  cac := none
  firs := some []
  directors := none

theorem undecided_clear : ¬ ∀ (env : Surroundings) (req : CorporateCheckRequest),
    Lawful env req := by
  intro h
  have hlaw := (h undecided ⟨"RC1", "", "", ["firs_tax"], ""⟩).clear
  have hclear := hlaw ⟨"clear", 0, []⟩ rfl rfl "firs_tax" List.mem_cons_self
  simp [Clear, undecided, runFIRSCheck, entry, asBool] at hclear

end Bis.Events
