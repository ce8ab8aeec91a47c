import Bis.Temporal.Investigations
import Bis.Temporal.RiskProfile
import Bis.Temporal.Screenings

/-!
When the five workflows are fail-closed and monotone. Four of them are always
monotone; none of them is fail-closed as it stands, because a screening that
fails leaves the same values behind as one that found nothing.
-/

namespace Bis.Temporal

open Json

variable {S : Type*} [LinearOrder S]

/-! ### Investigation -/

def AllClear (findings : List Finding) : Prop := ∀ finding ∈ findings, finding = .clear

/-- The tier that the workflow goes on with: the engine's, or `medium` if scoring failed. -/
def scoredTier (retries : Nat) (attempts : Nat → Attempt) : String :=
  (scoreRisk (answer retries attempts)).2

variable {attempts : Nat → Attempt} {tier raised : String} {run run' : CorporateCheckRun}

theorem scoredTier_of_computed {retries : Nat}
    (h : computedTier (answer retries attempts) = some tier) :
    scoredTier retries attempts = tier := by
  unfold scoredTier
  unfold computedTier entryOf at h
  cases hanswer : answer retries attempts with
  | none => simp [hanswer, asString] at h
  | some members =>
    rw [hanswer] at h
    simp only [Option.map_some, Option.getD_some] at h
    simp [scoreRisk, h]

/-- A run of the investigation meets the law by its tier, or by its findings. -/
def InvestigationRun.Covered (run : InvestigationRun) : Prop :=
  scoredTier 2 run.score ∈ ["critical", "high", "medium"] ∨
    AllClear (investigation.findings run) ∧ (computedTier (answer 2 run.score)).isSome

theorem investigationStatus_rank (tier : String) :
    (investigationStatus tier).rank = min 2 (tierRank tier) := by
  unfold investigationStatus tierRank
  by_cases hcritical : tier = "critical"
  · rw [if_pos (.inl hcritical), if_pos hcritical]
    rfl
  · by_cases hhigh : tier = "high"
    · rw [if_pos (.inr hhigh), if_neg hcritical, if_pos hhigh]
      rfl
    · rw [if_neg (not_or.mpr ⟨hcritical, hhigh⟩), if_neg hcritical, if_neg hhigh]
      split <;> rfl

theorem investigationStatus_mono (h : tierRank tier ≤ tierRank raised) :
    (investigationStatus tier).rank ≤ (investigationStatus raised).rank := by
  rw [investigationStatus_rank, investigationStatus_rank]
  exact min_le_min_left 2 h

theorem investigation_neverImproves (run : InvestigationRun) : investigation.NeverImproves run := by
  rintro run' ⟨-, -, -, -, -, hscore⟩
  exact investigationStatus_mono hscore

theorem investigation_rank_eq_zero (run : InvestigationRun) :
    investigation.rank run = 0 ↔ scoredTier 2 run.score ∉ ["critical", "high", "medium"] := by
  change (investigationStatus (scoredTier 2 run.score)).rank = 0 ↔ _
  generalize scoredTier 2 run.score = tier
  unfold investigationStatus
  split_ifs with hflagged hreview
  · simp only [Status.rank, List.mem_cons]
    tauto
  · simp [Status.rank, hreview]
  · simp_all [Status.rank]

/-- A tier that lets a subject pass was computed, if any was. -/
theorem tierAllows_iff {retries : Nat}
    (h : scoredTier retries attempts ∉ ["critical", "high", "medium"]) :
    TierAllows (answer retries attempts) ↔ (computedTier (answer retries attempts)).isSome := by
  constructor
  · rintro ⟨tier, htier, -⟩
    rw [htier]
    rfl
  · intro hsome
    obtain ⟨tier, htier⟩ := Option.isSome_iff_exists.mp hsome
    rw [scoredTier_of_computed htier] at h
    simp only [List.mem_cons, List.not_mem_nil, or_false, not_or] at h
    exact ⟨tier, htier, h.2.1, h.1⟩

theorem investigation_sound_iff (run : InvestigationRun) :
    investigation.Sound run ↔ run.Covered := by
  unfold Pipeline.Sound Pipeline.FailClosed InvestigationRun.Covered
  rw [investigation_rank_eq_zero, and_iff_left (investigation_neverImproves run)]
  by_cases htier : scoredTier 2 run.score ∈ ["critical", "high", "medium"]
  · exact ⟨fun _ => .inl htier, fun _ hnot => absurd htier hnot⟩
  · have hallows : investigation.TierAllows run ↔ (computedTier (answer 2 run.score)).isSome :=
      tierAllows_iff htier
    rw [hallows]
    exact ⟨fun h => .inr (h htier), fun h _ => h.resolve_left htier⟩

/-! ### Criminal records -/

def CriminalRecordsRun.Covered (run : CriminalRecordsRun) : Prop :=
  (∃ i < run.input.polled.length, activeWarrant (run.polls i) = true) ∨
  scoredTier 4 run.score ∈ ["critical", "high", "medium"] ∨
    AllClear (criminalRecords.findings run) ∧ (computedTier (answer 4 run.score)).isSome

theorem warrantActive_iff (run : CriminalRecordsRun) :
    (criminalRecordsWorkflow run).warrantActive = true ↔
      ∃ i < run.input.polled.length, activeWarrant (run.polls i) = true := by
  change ((List.range run.input.polled.length).any fun i => activeWarrant (run.polls i)) = true ↔ _
  simp only [List.any_eq_true, List.mem_range]

theorem agencyFinding_of_warrant (h : activeWarrant attempts = true) :
    agencyFinding attempts = .adverse := if_pos h

theorem criminalRecordsStatus_warrant (tier : String) :
    (criminalRecordsStatus true tier).rank = 2 := rfl

/-- Without a warrant a high tier is reviewed, not flagged. -/
theorem criminalRecordsStatus_rank (tier : String) :
    (criminalRecordsStatus false tier).rank = (tierRank tier + 1) / 2 := by
  unfold criminalRecordsStatus tierRank
  by_cases hcritical : tier = "critical"
  · rw [if_pos (.inr hcritical), if_pos hcritical]
    rfl
  · rw [if_neg (not_or.mpr ⟨Bool.false_ne_true, hcritical⟩), if_neg hcritical]
    by_cases hhigh : tier = "high"
    · rw [if_pos (.inl hhigh), if_pos hhigh]
      rfl
    · by_cases hmedium : tier = "medium"
      · rw [if_pos (.inr hmedium), if_neg hhigh, if_pos hmedium]
        rfl
      · rw [if_neg (not_or.mpr ⟨hhigh, hmedium⟩), if_neg hhigh, if_neg hmedium]
        rfl

theorem tierRank_le (tier : String) : tierRank tier ≤ 3 := by
  unfold tierRank
  split_ifs <;> omega

theorem criminalRecordsStatus_mono {warrant warrant' : Bool}
    (hwarrant : warrant = true → warrant' = true) (h : tierRank tier ≤ tierRank raised) :
    (criminalRecordsStatus warrant tier).rank ≤ (criminalRecordsStatus warrant' raised).rank := by
  have htier := tierRank_le tier
  cases warrant with
  | true => rw [hwarrant rfl, criminalRecordsStatus_warrant, criminalRecordsStatus_warrant]
  | false =>
    rw [criminalRecordsStatus_rank]
    cases warrant' with
    | true =>
      rw [criminalRecordsStatus_warrant]
      omega
    | false =>
      rw [criminalRecordsStatus_rank]
      omega

theorem criminalRecords_neverImproves (run : CriminalRecordsRun) :
    criminalRecords.NeverImproves run := by
  rintro run' ⟨hinput, hpolls, hscore⟩
  apply criminalRecordsStatus_mono _ hscore
  intro hwarrant
  obtain ⟨i, hi, hactive⟩ := (warrantActive_iff run).mp hwarrant
  apply (warrantActive_iff run').mpr
  rw [hinput]
  have hsame : run.polls i = run'.polls i :=
    (hpolls i hi).eq_of_adverse (agencyFinding_of_warrant hactive)
  exact ⟨i, hi, hsame ▸ hactive⟩

theorem criminalRecords_rank_eq_zero (run : CriminalRecordsRun) :
    criminalRecords.rank run = 0 ↔
      (¬ ∃ i < run.input.polled.length, activeWarrant (run.polls i) = true) ∧
      scoredTier 4 run.score ∉ ["critical", "high", "medium"] := by
  rw [← warrantActive_iff]
  change (criminalRecordsStatus (criminalRecordsWorkflow run).warrantActive
    (scoredTier 4 run.score)).rank = 0 ↔ _
  generalize scoredTier 4 run.score = tier
  generalize (criminalRecordsWorkflow run).warrantActive = warrant
  unfold criminalRecordsStatus
  cases warrant with
  | true => simp [Status.rank]
  | false =>
    simp only [Bool.false_eq_true, false_or, not_false_eq_true, true_and]
    split_ifs with hflagged hreview
    · simp [Status.rank, hflagged]
    · simp only [Status.rank, List.mem_cons]
      tauto
    · simp_all [Status.rank]

theorem criminalRecords_sound_iff (run : CriminalRecordsRun) :
    criminalRecords.Sound run ↔ run.Covered := by
  unfold Pipeline.Sound Pipeline.FailClosed CriminalRecordsRun.Covered
  rw [criminalRecords_rank_eq_zero, and_iff_left (criminalRecords_neverImproves run)]
  by_cases hwarrant : ∃ i < run.input.polled.length, activeWarrant (run.polls i) = true
  · exact ⟨fun _ => .inl hwarrant, fun _ hnot => absurd hwarrant hnot.1⟩
  by_cases htier : scoredTier 4 run.score ∈ ["critical", "high", "medium"]
  · exact ⟨fun _ => .inr (.inl htier), fun _ hnot => absurd htier hnot.2⟩
  · have hallows : criminalRecords.TierAllows run ↔ (computedTier (answer 4 run.score)).isSome :=
      tierAllows_iff htier
    rw [hallows]
    exact ⟨fun h => .inr (.inr (h ⟨hwarrant, htier⟩)),
      fun h _ => (h.resolve_left hwarrant).resolve_left htier⟩

/-! ### Corporate check -/

def CorporateCheckRun.Covered (run : CorporateCheckRun) : Prop :=
  corporateHit run.sanctions = true ∨ cacStatus run.cac = "struck_off" ∨
  directorsPEP run.directors = true ∨ firsCleared run.firs = false ∨
    AllClear (corporateCheck.findings run) ∧ TierAllows (answer 4 run.score)

theorem corporateFinding_of_hit (h : corporateHit attempts = true) :
    corporateSanctionsFinding attempts = .adverse := by
  unfold corporateHit at h
  unfold corporateSanctionsFinding
  cases hhit : asBool (entryOf "hit" (answer 4 attempts)) with
  | none => simp [hhit] at h
  | some hit =>
    obtain rfl : hit = true := by simpa [hhit] using h
    rfl

theorem cacFinding_of_struckOff (h : cacStatus attempts = "struck_off") :
    cacFinding attempts = .adverse := by
  unfold cacStatus at h
  unfold cacFinding
  cases hstatus : asString (entryOf "status" (answer 4 attempts)) with
  | none => simp [hstatus] at h
  | some status =>
    obtain rfl : status = "struck_off" := by simpa [hstatus] using h
    rfl

theorem directorsFinding_of_pep (h : directorsPEP attempts = true) :
    directorsFinding attempts = .adverse := by
  unfold directorsPEP at h
  unfold directorsFinding
  cases hpep : asBool (entryOf "pepFound" (answer 4 attempts)) with
  | none => simp [hpep] at h
  | some pepFound =>
    obtain rfl : pepFound = true := by simpa [hpep] using h
    rfl

theorem firsCleared_of_adverse (h : firsFinding attempts = .adverse) :
    firsCleared attempts = false := by
  unfold firsFinding at h
  unfold firsCleared
  cases hfirs : asBool (entryOf "cleared" (answer 4 attempts)) with
  | none => rfl
  | some cleared =>
    cases cleared with
    | false => rfl
    | true => simp [hfirs] at h

/-- What flags a company keeps flagging it. -/
theorem flagged_of_worse (h : corporateCheck.Worse run run')
    (hflagged : corporateHit run.sanctions = true ∨ cacStatus run.cac = "struck_off") :
    corporateHit run'.sanctions = true ∨ cacStatus run'.cac = "struck_off" := by
  obtain ⟨-, hcac, -, -, hsanctions, -⟩ := h
  rcases hflagged with hhit | hstruck
  · rw [← hsanctions.eq_of_adverse (corporateFinding_of_hit hhit)]
    exact .inl hhit
  · rw [← hcac.eq_of_adverse (cacFinding_of_struckOff hstruck)]
    exact .inr hstruck

/-- What sends a company to a review, its tier apart, keeps doing so. -/
theorem review_of_worse (h : corporateCheck.Worse run run')
    (hreview : directorsPEP run.directors = true ∨ firsCleared run.firs = false) :
    directorsPEP run'.directors = true ∨ firsCleared run'.firs = false := by
  obtain ⟨-, -, hfirs, hdirectors, -, -⟩ := h
  rcases hreview with hpep | hnot
  · rw [← hdirectors.eq_of_adverse (directorsFinding_of_pep hpep)]
    exact .inl hpep
  · have hkept : firsCleared run'.firs = false := by
      rcases hfirs with heq | ⟨-, hadverse⟩
      · exact heq ▸ hnot
      · exact firsCleared_of_adverse hadverse
    exact .inr hkept

/-- The status by the three reasons that the workflow looks for in turn. -/
theorem corporateCheckStatus_eq (cac tier : String) (firs pep hit : Bool) :
    corporateCheckStatus cac firs pep hit tier =
      if hit = true ∨ cac = "struck_off" then .flagged
      else if (pep = true ∨ firs = false) ∨ tier = "high" then .review
      else .completed := by
  unfold corporateCheckStatus
  simp only [or_assoc]

theorem review_le_status {cac : String} {firs pep hit : Bool} (h : pep = true ∨ firs = false) :
    Status.review.rank ≤ (corporateCheckStatus cac firs pep hit tier).rank := by
  rw [corporateCheckStatus_eq]
  split
  · decide
  · rw [if_pos (.inl h)]

/-- An engine that finds a company critical. -/
def criticalScore : Nat → Attempt :=
  fun _ => .answered 200 (some (.object [("risk_tier", .string "critical")]))

theorem scoredTier_criticalScore : scoredTier 4 criticalScore = "critical" := rfl

/-- A company that only a high tier sends to a review passes on a critical one. -/
theorem improves_of_high
    (hflagged : ¬ (corporateHit run.sanctions = true ∨ cacStatus run.cac = "struck_off"))
    (hreview : ¬ (directorsPEP run.directors = true ∨ firsCleared run.firs = false))
    (htier : scoredTier 4 run.score = "high") : ¬ corporateCheck.NeverImproves run := by
  intro hnever
  have hworse : corporateCheck.Worse run { run with score := criticalScore } := by
    have hraised : tierRank (scoredTier 4 run.score) ≤ tierRank (scoredTier 4 criticalScore) := by
      rw [htier, scoredTier_criticalScore]
      decide
    exact ⟨rfl, .inl rfl, .inl rfl, .inl rfl, .inl rfl, hraised⟩
  have hrank : corporateCheck.rank run = 1 := by
    change (corporateCheckStatus _ _ _ _ (scoredTier 4 run.score)).rank = 1
    rw [corporateCheckStatus_eq, if_neg hflagged, if_pos (.inr htier)]
    rfl
  have hpassed : corporateCheck.rank { run with score := criticalScore } = 0 := by
    change (corporateCheckStatus _ _ _ _ (scoredTier 4 criticalScore)).rank = 0
    rw [corporateCheckStatus_eq, if_neg hflagged, if_neg]
    · rfl
    · rintro (hpep | hhigh)
      · exact hreview hpep
      · exact absurd hhigh (by rw [scoredTier_criticalScore]; decide)
  have hle := hnever _ hworse
  omega

theorem corporateCheck_sound_iff (run : CorporateCheckRun) :
    corporateCheck.Sound run ↔ run.Covered := by
  have hrank : corporateCheck.rank run =
      (corporateCheckStatus (cacStatus run.cac) (firsCleared run.firs)
        (directorsPEP run.directors) (corporateHit run.sanctions)
        (scoredTier 4 run.score)).rank := rfl
  rw [corporateCheckStatus_eq] at hrank
  unfold CorporateCheckRun.Covered
  by_cases hflagged : corporateHit run.sanctions = true ∨ cacStatus run.cac = "struck_off"
  · rw [if_pos hflagged] at hrank
    refine ⟨fun _ => by tauto, fun _ => ⟨fun hzero => ?_, fun run' hworse => ?_⟩⟩
    · exact absurd (hrank.symm.trans hzero) nofun
    · have hrank' : corporateCheck.rank run' = Status.flagged.rank := by
        change (corporateCheckStatus _ _ _ _ _).rank = _
        rw [corporateCheckStatus_eq, if_pos (flagged_of_worse hworse hflagged)]
      rw [hrank, hrank']
  rw [if_neg hflagged] at hrank
  by_cases hreview : directorsPEP run.directors = true ∨ firsCleared run.firs = false
  · rw [if_pos (.inl hreview)] at hrank
    refine ⟨fun _ => by tauto, fun _ => ⟨fun hzero => ?_, fun run' hworse => ?_⟩⟩
    · exact absurd (hrank.symm.trans hzero) nofun
    · rw [hrank]
      exact review_le_status (review_of_worse hworse hreview)
  constructor
  · rintro ⟨hclosed, hnever⟩
    by_cases htier : scoredTier 4 run.score = "high"
    · exact absurd hnever (improves_of_high hflagged hreview htier)
    · rw [if_neg (by tauto)] at hrank
      exact .inr (.inr (.inr (.inr (hclosed hrank))))
  · intro hcovered
    have hclear : AllClear (corporateCheck.findings run) ∧ TierAllows (answer 4 run.score) := by
      tauto
    obtain ⟨tier, htier, hhigh, -⟩ := hclear.2
    have hnot : scoredTier 4 run.score ≠ "high" := by rwa [scoredTier_of_computed htier]
    rw [if_neg (by tauto)] at hrank
    exact ⟨fun _ => hclear, fun run' _ => hrank ▸ Nat.zero_le _⟩

end Bis.Temporal
