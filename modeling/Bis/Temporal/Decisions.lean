import Bis.Temporal.Outcomes

/-!
The same for the screening order and the risk profile, and the law for all five
workflows together.
-/

namespace Bis.Temporal

open Json

variable {S : Type*} [LinearOrder S] (arith : Arithmetic S)

/-! ### Screening order -/

def ScreeningRun.AnyAdverse (run : ScreeningRun) : Prop :=
  ∃ result ∈ collectedResults arith run, result.outcome = "adverse"

def ScreeningRun.meanScore (run : ScreeningRun) : S :=
  arith.mean ((scoredResults arith run).map ScreeningResult.riskScore)

/-- An item that is adverse or a mean above the threshold sets the order apart. -/
def ScreeningRun.Covered (run : ScreeningRun) : Prop :=
  run.AnyAdverse arith ∨ arith.ofRat (45 / 100) < run.meanScore arith ∨
    AllClear ((screening arith).findings run)

theorem length_mergeScores (results : List (ScreeningResult S)) (scored : List ScoredResult) :
    (mergeScores arith results scored).length = results.length := by
  induction results generalizing scored with
  | nil => cases scored <;> rfl
  | cons result results ih =>
    cases scored with
    | nil => rfl
    | cons first rest => simp only [mergeScores, List.length_cons, ih]

theorem length_batchScore {results scored : List (ScreeningResult S)} {attempt : Attempt}
    (h : batchScore arith results attempt = .ok scored) : scored.length = results.length := by
  cases attempt with
  | timedOut => cases h
  | unreachable => cases h; rfl
  | answered status body =>
    simp only [batchScore] at h
    split at h
    · cases h; rfl
    · cases h; exact length_mergeScores arith _ _

theorem length_collectedResults (run : ScreeningRun) :
    (collectedResults arith run).length = run.input.screeningTypes.length := by
  simp [collectedResults]

theorem length_scoredResults (run : ScreeningRun) :
    (scoredResults arith run).length = run.input.screeningTypes.length := by
  unfold scoredResults
  split
  next scored hscored =>
    rw [length_batchScore arith hscored, length_collectedResults]
  · exact length_collectedResults arith run

theorem screening_rank (run : ScreeningRun) [Decidable (run.AnyAdverse arith)] :
    (screening arith).rank run =
      if run.AnyAdverse arith then 2
      else if arith.ofRat (45 / 100) < run.meanScore arith then 1 else 0 := by
  have hitems : ((collectedResults arith run).filter fun result => result.outcome == "adverse").map
      (fun result => result.screeningType ++ ": " ++ result.summary) ≠ [] ↔
      run.AnyAdverse arith := by
    simp [ScreeningRun.AnyAdverse, List.filter_eq_nil_iff]
  change (overallOutcome arith _ (run.meanScore arith)).rank = _
  unfold overallOutcome
  by_cases hadverse : run.AnyAdverse arith
  · rw [if_pos (hitems.mpr hadverse), if_pos hadverse]
    rfl
  · rw [if_neg (mt hitems.mp hadverse), if_neg hadverse]
    split <;> rfl

variable {run : ScreeningRun} {signals raised : Signals}

/-- What the engine found adverse is adverse in the order. -/
theorem collected_of_adverse {screeningType : String} {i : Nat}
    (h : screeningFinding arith run screeningType i = .adverse) :
    (collected arith run screeningType i).outcome = "adverse" := by
  unfold screeningFinding at h
  have hdecision : decisionOf arith
      (run.screenings i
        (lastAttempt (runScreening arith run.errorText screeningType) (run.screenings i) 2)) =
      some "adverse" := by
    split at h
    · assumption
    all_goals cases h
  unfold collected executedScreening execute
  generalize run.screenings i
    (lastAttempt (runScreening arith run.errorText screeningType) (run.screenings i) 2) =
    attempt at hdecision ⊢
  cases attempt with
  | timedOut | unreachable => cases hdecision
  | answered status body =>
    simp only [decisionOf] at hdecision
    split at hdecision
    · cases hdecision
    · obtain ⟨result, hresult, houtcome⟩ := Option.map_eq_some_iff.mp hdecision
      simp only [runScreening, hresult]
      exact houtcome

theorem mem_collectedResults {screeningType : String} {i : Nat}
    (h : (screeningType, i) ∈ run.input.screeningTypes.zipIdx) :
    (collectedResults arith run)[i]? = some (collected arith run screeningType i) := by
  have hget : run.input.screeningTypes[i]? = some screeningType := by
    simpa using List.mk_mem_zipIdx_iff_getElem?.mp h
  simp [collectedResults, hget]

theorem anyAdverse_of_outcomeAt {i : Nat} (h : outcomeAt arith run i = some "adverse") :
    run.AnyAdverse arith := by
  obtain ⟨result, hresult, houtcome⟩ := Option.map_eq_some_iff.mp h
  exact ⟨result, List.mem_of_getElem? hresult, houtcome⟩

theorem screening_neverImproves (run : ScreeningRun) : (screening arith).NeverImproves run := by
  classical
  rintro run' ⟨hinput, hitems⟩
  rw [screening_rank, screening_rank]
  by_cases hadverse' : run'.AnyAdverse arith
  · rw [if_pos hadverse']
    split_ifs <;> omega
  -- no item has turned adverse, so every item has its outcome and a score as high
  have hkept : ∀ i < run.input.screeningTypes.length,
      outcomeAt arith run' i = outcomeAt arith run i ∧
      ∀ score ∈ scoreAt arith run i, ∀ raised ∈ scoreAt arith run' i, score ≤ raised := by
    intro i hi
    have hmem : (run.input.screeningTypes[i], i) ∈ run.input.screeningTypes.zipIdx :=
      List.mk_mem_zipIdx_iff_getElem?.mpr (List.getElem?_eq_getElem hi)
    rcases hitems _ i hmem with ⟨-, hturned⟩ | hsame
    · have hmem' : (run.input.screeningTypes[i], i) ∈ run'.input.screeningTypes.zipIdx := by
        rw [hinput]
        exact hmem
      exact absurd ⟨_, List.mem_of_getElem? (mem_collectedResults arith hmem'),
        collected_of_adverse arith hturned⟩ hadverse'
    · exact hsame
  have hadverse : ¬ run.AnyAdverse arith := by
    rintro ⟨result, hresult, houtcome⟩
    obtain ⟨i, hi, rfl⟩ := List.mem_iff_getElem.mp hresult
    have hat : outcomeAt arith run i = some "adverse" := by
      simp only [outcomeAt, List.getElem?_eq_getElem hi, Option.map_some, houtcome]
    rw [length_collectedResults] at hi
    exact hadverse' (anyAdverse_of_outcomeAt arith ((hkept i hi).1.trans hat))
  have hscores : List.Forall₂ (· ≤ ·)
      ((scoredResults arith run).map ScreeningResult.riskScore)
      ((scoredResults arith run').map ScreeningResult.riskScore) := by
    apply List.forall₂_iff_get.mpr
    have hlength := length_scoredResults arith run
    have hlength' := length_scoredResults arith run'
    rw [hinput] at hlength'
    refine ⟨by simp only [List.length_map, hlength, hlength'], fun i hi hi' => ?_⟩
    rw [List.length_map] at hi hi'
    apply (hkept i (hlength ▸ hi)).2
    · simp [scoreAt, hi]
    · simp [scoreAt, hi']
  have hmean : run.meanScore arith ≤ run'.meanScore arith := arith.mean_mono hscores
  rw [if_neg hadverse, if_neg hadverse']
  split_ifs with habove habove'
  · exact Nat.le_refl _
  · exact absurd (lt_of_lt_of_le habove hmean) habove'
  · exact Nat.zero_le _
  · exact Nat.le_refl _

theorem screening_sound_iff (run : ScreeningRun) :
    (screening arith).Sound run ↔ run.Covered arith := by
  classical
  unfold Pipeline.Sound Pipeline.FailClosed ScreeningRun.Covered
  rw [and_iff_left (screening_neverImproves arith run), screening_rank]
  by_cases hadverse : run.AnyAdverse arith
  · rw [if_pos hadverse]
    exact ⟨fun _ => .inl hadverse, fun _ => nofun⟩
  rw [if_neg hadverse]
  by_cases habove : arith.ofRat (45 / 100) < run.meanScore arith
  · rw [if_pos habove]
    exact ⟨fun _ => .inr (.inl habove), fun _ => nofun⟩
  rw [if_neg habove]
  exact ⟨fun h => .inr (.inr (h rfl).1),
    fun h _ => ⟨(h.resolve_left hadverse).resolve_left habove, trivial⟩⟩

/-! ### Risk profile -/

/-- A run of the risk profile meets the law by a score of forty or more, or by
six readings of which none is a match or a hit. -/
def RiskProfileRun.Covered (run : RiskProfileRun) : Prop :=
  arith.ofRat 40 ≤ uncapped arith run.signals ∨ AllClear ((riskProfile arith).findings run)

theorem le_compositeScore_iff {p : Rat} (hp : p ≤ 100) :
    arith.ofRat p ≤ compositeScore arith signals ↔ arith.ofRat p ≤ uncapped arith signals := by
  unfold compositeScore
  split
  next habove =>
    have hcap : arith.ofRat p ≤ arith.ofRat 100 := arith.ofRat_mono hp
    exact ⟨fun _ => hcap.trans habove.le, fun _ => hcap⟩
  · exact Iff.rfl

theorem riskTier_mono {composite raised : S} (h : composite ≤ raised) :
    (riskTier arith composite).rank ≤ (riskTier arith raised).rank := by
  unfold riskTier
  split_ifs with h80 h80' h60 h60' h40 h40'
  all_goals first
    | decide
    | exact absurd (le_trans ‹_› h) ‹_›

/-- The additions do not lower the score that they start from. -/
theorem average_le_uncapped (signals : Signals) :
    (if signals.sanctionsMatch then arith.ofRat 95 else weightedAverage arith signals) ≤
      uncapped arith signals := by
  have hten : arith.ofRat 0 ≤ arith.ofRat 10 := arith.ofRat_mono (by norm_num)
  unfold uncapped
  generalize (if signals.sanctionsMatch then arith.ofRat 95 else weightedAverage arith signals) =
    average
  have hpep : average ≤ if signals.pepMatch then arith.add average (arith.ofRat 10) else average := by
    split
    · exact arith.le_add hten
    · exact le_rfl
  simp only
  split
  next hhits =>
    have hnonneg : arith.ofRat 0 ≤ arith.ofRat signals.adverseHits :=
      arith.ofRat_mono (by exact_mod_cast hhits.le)
    exact hpep.trans (arith.le_add (arith.scale_nonneg (by norm_num) hnonneg))
  · exact hpep

theorem riskTier_of_sanctions (h : signals.sanctionsMatch = true) :
    riskTier arith (compositeScore arith signals) = .critical := by
  have hstart := average_le_uncapped arith signals
  rw [if_pos h] at hstart
  have hcritical : arith.ofRat 80 ≤ arith.ofRat 95 := arith.ofRat_mono (by norm_num)
  exact if_pos ((le_compositeScore_iff arith (by norm_num)).mpr (hcritical.trans hstart))

theorem weightedAverage_mono (hkyc : signals.kycScore ≤ raised.kycScore)
    (htx : signals.txScore ≤ raised.txScore) (haml : signals.amlScore ≤ raised.amlScore) :
    weightedAverage arith signals ≤ weightedAverage arith raised := by
  have hweigh : ∀ {c p q : Rat}, 0 ≤ c → p ≤ q →
      arith.scale c (arith.ofRat p) ≤ arith.scale c (arith.ofRat q) :=
    fun hc hpq => arith.scale_mono hc (arith.ofRat_mono hpq)
  apply arith.add_mono
  · exact arith.add_mono (hweigh (by norm_num) hkyc) (hweigh (by norm_num) htx)
  · exact hweigh (by norm_num) haml

theorem uncapped_mono (hkyc : signals.kycScore ≤ raised.kycScore)
    (htx : signals.txScore ≤ raised.txScore) (haml : signals.amlScore ≤ raised.amlScore)
    (hnone : signals.sanctionsMatch = false) (hnone' : raised.sanctionsMatch = false)
    (hpep : signals.pepMatch = true → raised.pepMatch = true)
    (hhits : signals.adverseHits ≤ raised.adverseHits) :
    uncapped arith signals ≤ uncapped arith raised := by
  have hten : arith.ofRat 0 ≤ arith.ofRat 10 := arith.ofRat_mono (by norm_num)
  have haverage := weightedAverage_mono arith hkyc htx haml
  have hwithPep :
      (if signals.pepMatch then arith.add (weightedAverage arith signals) (arith.ofRat 10)
        else weightedAverage arith signals) ≤
      if raised.pepMatch then arith.add (weightedAverage arith raised) (arith.ofRat 10)
        else weightedAverage arith raised := by
    split
    next hmatch =>
      rw [if_pos (hpep hmatch)]
      exact arith.add_mono haverage le_rfl
    · split
      · exact haverage.trans (arith.le_add hten)
      · exact haverage
  have hcount : arith.scale 2 (arith.ofRat signals.adverseHits) ≤
      arith.scale 2 (arith.ofRat raised.adverseHits) :=
    arith.scale_mono (by norm_num) (arith.ofRat_mono (by exact_mod_cast hhits))
  unfold uncapped
  simp only [hnone, hnone', Bool.false_eq_true, if_false]
  by_cases hsome : 0 < signals.adverseHits
  · rw [if_pos hsome, if_pos (by omega : 0 < raised.adverseHits)]
    exact arith.add_mono hwithPep hcount
  rw [if_neg hsome]
  by_cases hsome' : 0 < raised.adverseHits
  · have hnonneg : arith.ofRat 0 ≤ arith.ofRat raised.adverseHits :=
      arith.ofRat_mono (by exact_mod_cast hsome'.le)
    rw [if_pos hsome']
    exact hwithPep.trans (arith.le_add (arith.scale_nonneg (by norm_num) hnonneg))
  · rw [if_neg hsome']
    exact hwithPep

theorem compositeScore_mono (h : uncapped arith signals ≤ uncapped arith raised) :
    compositeScore arith signals ≤ compositeScore arith raised := by
  unfold compositeScore
  split_ifs with habove habove'
  · exact le_rfl
  · exact absurd (habove.trans_le h) habove'
  · exact not_lt.mp habove
  · exact h

/-- A match that the workflow holds was read from a reply. -/
theorem matchFinding_of_settled {attempts : Nat → Attempt}
    (h : settledOr false (fetchField "match" asBool false false) attempts = true) :
    matchFinding (fetchField "match" asBool false false) attempts = .adverse := by
  unfold settledOr execute at h
  unfold matchFinding readField
  generalize attempts (lastAttempt (fetchField "match" asBool false false) attempts 4) =
    attempt at h ⊢
  cases attempt with
  | timedOut => cases h
  | unreachable => cases h
  | answered status body =>
    simp only [fetchField] at h
    cases hreply : getJSON (.answered status body) with
    | error e => simp [hreply, Except.toOption] at h
    | ok reply =>
      simp only [hreply, Except.toOption, Option.getD_some] at h ⊢
      cases hfield : fieldOf "match" asBool reply with
      | none => simp [hfield] at h
      | some found =>
        obtain rfl : found = true := by simpa [hfield] using h
        rfl

theorem riskProfile_neverImproves (run : RiskProfileRun) :
    (riskProfile arith).NeverImproves run := by
  rintro run' ⟨-, hkyc, htx, haml, hsanctions, hpep, hhits⟩
  change (riskTier arith (compositeScore arith run.signals)).rank ≤
    (riskTier arith (compositeScore arith run'.signals)).rank
  cases hmatch' : run'.signals.sanctionsMatch with
  | true =>
    rw [riskTier_of_sanctions arith hmatch']
    cases riskTier arith (compositeScore arith run.signals) <;> decide
  | false =>
    have hmatch : run.signals.sanctionsMatch = false := by
      by_contra hnot
      have hfound := (Bool.not_eq_false _).mp hnot
      have hsame := hsanctions.eq_of_adverse (matchFinding_of_settled hfound)
      have hfound' : run'.signals.sanctionsMatch = true := by
        change settledOr false checkSanctions run'.sanctions = true
        rw [← hsame]
        exact hfound
      rw [hmatch'] at hfound'
      cases hfound'
    have hkept : run.signals.pepMatch = true → run'.signals.pepMatch = true := by
      intro hfound
      have hsame := hpep.eq_of_adverse (matchFinding_of_settled hfound)
      change settledOr false checkPEP run'.pep = true
      rw [← hsame]
      exact hfound
    exact riskTier_mono arith (compositeScore_mono arith
      (uncapped_mono arith hkyc htx haml hmatch hmatch' hkept hhits))

theorem riskProfile_rank_eq_zero (run : RiskProfileRun) :
    (riskProfile arith).rank run = 0 ↔ ¬ arith.ofRat 40 ≤ uncapped arith run.signals := by
  rw [← le_compositeScore_iff arith (by norm_num)]
  change (riskTier arith (compositeScore arith run.signals)).rank = 0 ↔ _
  generalize compositeScore arith run.signals = composite
  have h80 : arith.ofRat 40 ≤ arith.ofRat 80 := arith.ofRat_mono (by norm_num)
  have h60 : arith.ofRat 40 ≤ arith.ofRat 60 := arith.ofRat_mono (by norm_num)
  unfold riskTier
  split_ifs with hcritical hhigh hmedium
  · exact ⟨nofun, fun hnot => absurd (h80.trans hcritical) hnot⟩
  · exact ⟨nofun, fun hnot => absurd (h60.trans hhigh) hnot⟩
  · exact ⟨nofun, fun hnot => absurd hmedium hnot⟩
  · exact ⟨fun _ => hmedium, fun _ => rfl⟩

theorem riskProfile_sound_iff (run : RiskProfileRun) :
    (riskProfile arith).Sound run ↔ run.Covered arith := by
  unfold Pipeline.Sound RiskProfileRun.Covered
  rw [and_iff_left (riskProfile_neverImproves arith run)]
  unfold Pipeline.FailClosed
  have hallows : (riskProfile arith).rank run = 0 → (riskProfile arith).TierAllows run := by
    intro hzero
    change (riskProfileWorkflow arith run).riskTier ≠ .high ∧ _
    change (riskProfileWorkflow arith run).riskTier.rank = 0 at hzero
    constructor
    · intro htier
      rw [htier] at hzero
      cases hzero
    · intro htier
      rw [htier] at hzero
      cases hzero
  rw [riskProfile_rank_eq_zero] at hallows ⊢
  constructor
  · intro h
    by_cases hforty : arith.ofRat 40 ≤ uncapped arith run.signals
    · exact .inl hforty
    · exact .inr (h hforty).1
  · intro h hforty
    exact ⟨h.resolve_left hforty, hallows hforty⟩

/-! ### The five workflows -/

inductive WorkflowRun where
  | investigation (run : InvestigationRun)
  | corporateCheck (run : CorporateCheckRun)
  | criminalRecords (run : CriminalRecordsRun)
  | screening (run : ScreeningRun)
  | riskProfile (run : RiskProfileRun)

/-- The run passes a subject only on decisions that are all there and clear and on a
tier below high, and no run that is worse than it has a better outcome. -/
def WorkflowRun.Sound : WorkflowRun → Prop
  | .investigation run => Temporal.investigation.Sound run
  | .corporateCheck run => Temporal.corporateCheck.Sound run
  | .criminalRecords run => Temporal.criminalRecords.Sound run
  | .screening run => (Temporal.screening arith).Sound run
  | .riskProfile run => (Temporal.riskProfile arith).Sound run

def WorkflowRun.Covered : WorkflowRun → Prop
  | .investigation run => run.Covered
  | .corporateCheck run => run.Covered
  | .criminalRecords run => run.Covered
  | .screening run => run.Covered arith
  | .riskProfile run => run.Covered arith

/-- A workflow decides soundly exactly if what it has read is adverse enough, or nothing that
it asked for went missing: a check that fails counts as one that found nothing. -/
theorem sound_iff_covered (run : WorkflowRun) : run.Sound arith ↔ run.Covered arith := by
  cases run with
  | investigation run => exact investigation_sound_iff run
  | corporateCheck run => exact corporateCheck_sound_iff run
  | criminalRecords run => exact criminalRecords_sound_iff run
  | screening run => exact screening_sound_iff arith run
  | riskProfile run => exact riskProfile_sound_iff arith run

/-- An investigation whose sanctions and PEP checks fail three times while the
engine, not knowing of it, answers with a low tier. -/
def unscreened : InvestigationRun where
  input := ⟨"INV-1", "", ""⟩
  nin _ := .timedOut
  bvn _ := .timedOut
  sanctions _ := .answered 503 none
  pep _ := .answered 503 none
  score _ := .answered 200 (some (.object [("risk_tier", .string "low")]))

theorem unscreened_passes :
    ¬ ∀ run : WorkflowRun, run.Sound Arithmetic.exact := by
  intro h
  have hclosed := (h (.investigation unscreened)).1
  have hclear := (hclosed rfl).1 .undecided (by decide)
  cases hclear

end Bis.Temporal
