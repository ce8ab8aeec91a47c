import Bis.Temporal.Filing
import Mathlib.Data.List.Nodup
import Mathlib.Data.List.Range

/-!
When a filing is what its run says it is. A submission that is confirmed at once
is lawful once its status is stored; a run that ends early, or whose submission
fails, is so only if the row already holds what the run returns.
-/

namespace Bis.Temporal

open Json List

/-! ### Submissions -/

/-- The first attempt that gets a reply is the one that the FIU confirms, and the
FIU took none of those before it. -/
def ConfirmedOnce (attempts : Nat → Submission) : Prop :=
  ∃ n ≤ 4, (attempts n).reply.confirms = true ∧
    ∀ m < n, (∃ e, getJSON (attempts m).reply = .error e) ∧ (attempts m).taken = false

/-- None of the five attempts gets a reply, and the FIU took one of them at most. -/
def FailedOnce (attempts : Nat → Submission) : Prop :=
  (∀ n ≤ 4, ∃ e, getJSON (attempts n).reply = .error e) ∧
    ∀ m ≤ 4, ∀ n ≤ 4, (attempts m).taken = true → (attempts n).taken = true → m = n

theorem getJSON_of_confirms {attempt : Attempt} (h : attempt.confirms = true) :
    ∃ body, getJSON attempt = .ok body := by
  cases attempt with
  | timedOut => cases h
  | unreachable => cases h
  | answered status body =>
    simp only [Attempt.confirms] at h
    split at h
    · cases h
    · next hstatus => exact ⟨body, if_neg hstatus⟩

theorem confirms_of_error {attempt : Attempt} (h : ∃ e, getJSON attempt = .error e) :
    attempt.confirms = false := by
  obtain ⟨e, herror⟩ := h
  by_contra hconfirms
  obtain ⟨body, hok⟩ := getJSON_of_confirms ((Bool.not_eq_false _).mp hconfirms)
  exact absurd (hok.symm.trans herror) nofun

theorem accepted_of_error {submission : Submission}
    (h : ∃ e, getJSON submission.reply = .error e) : submission.accepted = submission.taken := by
  rw [Submission.accepted, confirms_of_error h, Bool.false_or]

theorem length_le_one_iff {α : Type*} {l : List α} (h : l.Nodup) :
    l.length ≤ 1 ↔ ∀ a ∈ l, ∀ b ∈ l, a = b := by
  cases l with
  | nil => simp
  | cons a l =>
    cases l with
    | nil => simp
    | cons b l =>
      have hne : a ≠ b := (nodup_cons.mp h).1 ∘ fun heq => heq ▸ mem_cons_self
      constructor
      · intro hlength
        simp at hlength
      · intro hall
        exact absurd (hall a (by simp) b (by simp)) hne

theorem mem_madeBy {τ ε α : Type*} {body : τ → Except ε α} {retries : Nat} {attempts : Nat → τ}
    {x : τ} : x ∈ madeBy body retries attempts ↔
      ∃ n ≤ lastAttempt body attempts retries, attempts n = x := by
  simp only [madeBy, mem_map, mem_range, Nat.lt_succ_iff]

section Submitted

variable {α : Type*} {body : Submission → Except Failure α} {attempts : Nat → Submission}

theorem acceptances_le_one_iff :
    ((madeBy body 4 attempts).filter Submission.accepted).length ≤ 1 ↔
      ∀ m ≤ lastAttempt body attempts 4, ∀ n ≤ lastAttempt body attempts 4,
        (attempts m).accepted = true → (attempts n).accepted = true → m = n := by
  have hnodup : ((List.range (lastAttempt body attempts 4 + 1)).filter
      (Submission.accepted ∘ attempts)).Nodup := nodup_range.filter _
  rw [madeBy, filter_map, length_map, length_le_one_iff hnodup]
  simp only [mem_filter, mem_range, Nat.lt_succ_iff, Function.comp_apply, and_imp]
  exact ⟨fun h m hm n hn hma hna => h m hm hma n hn hna,
    fun h m hm hma n hn hna => h m hm n hn hma hna⟩

variable (hbody : ∀ submission : Submission,
  (∃ e, body submission = .error e) ↔ ∃ e, getJSON submission.reply = .error e)

include hbody

/-- An execution that ends well and is confirmed was confirmed by its last attempt. -/
theorem confirmedOnce_iff :
    ConfirmedOnce attempts ↔
      (∃ a, execute body 4 attempts = .ok a) ∧
      (∃ submission ∈ madeBy body 4 attempts, submission.reply.confirms = true) ∧
      ((madeBy body 4 attempts).filter Submission.accepted).length ≤ 1 := by
  have hbefore : ∀ m < lastAttempt body attempts 4, ∃ e, getJSON (attempts m).reply = .error e :=
    fun m hm => (hbody _).mp (error_before_last hm)
  constructor
  · rintro ⟨n, hn, hconfirms, hothers⟩
    have hok : ∃ a, body (attempts n) = .ok a := by
      cases hreply : body (attempts n) with
      | ok a => exact ⟨a, rfl⟩
      | error e =>
        have hnot := confirms_of_error ((hbody _).mp ⟨e, hreply⟩)
        exact absurd (hnot.symm.trans hconfirms) nofun
    obtain ⟨a, ha⟩ := hok
    have hlast : lastAttempt body attempts 4 = n :=
      lastAttempt_of_first hn ha fun m hm => (hbody _).mpr (hothers m hm).1
    refine ⟨⟨a, by rw [execute, hlast, ha]⟩, ⟨_, mem_madeBy.mpr ⟨n, hlast.ge, rfl⟩, hconfirms⟩, ?_⟩
    rw [acceptances_le_one_iff, hlast]
    have hearlier : ∀ m ≤ n, (attempts m).accepted = true → m = n := by
      intro m hm haccepted
      rcases Nat.lt_or_eq_of_le hm with hlt | heq
      · obtain ⟨herror, htaken⟩ := hothers m hlt
        rw [accepted_of_error herror, htaken] at haccepted
        cases haccepted
      · exact heq
    intro m hm k hk hma hka
    rw [hearlier m hm hma, hearlier k hk hka]
  · rintro ⟨-, ⟨submission, hmade, hconfirms⟩, honce⟩
    obtain ⟨n, hn, rfl⟩ := mem_madeBy.mp hmade
    have hlast : n = lastAttempt body attempts 4 := by
      rcases Nat.lt_or_eq_of_le hn with hlt | heq
      · have hnot := confirms_of_error (hbefore n hlt)
        exact absurd (hnot.symm.trans hconfirms) nofun
      · exact heq
    refine ⟨n, hlast ▸ lastAttempt_le 4, hconfirms, fun m hm => ?_⟩
    have herror := hbefore m (hlast ▸ hm)
    refine ⟨herror, ?_⟩
    by_contra htaken
    have haccepted : (attempts m).accepted = true := by
      rw [accepted_of_error herror]
      exact (Bool.not_eq_false _).mp htaken
    have haccepted' : (attempts n).accepted = true := by
      rw [Submission.accepted, hconfirms, Bool.true_or]
    have heq := acceptances_le_one_iff.mp honce m (by omega) n hn haccepted haccepted'
    omega

theorem failedOnce_iff :
    FailedOnce attempts ↔
      (∃ e, execute body 4 attempts = .error e) ∧
      ((madeBy body 4 attempts).filter Submission.accepted).length ≤ 1 := by
  unfold FailedOnce
  rw [acceptances_le_one_iff, execute_error_iff]
  simp only [hbody]
  constructor
  · rintro ⟨herrors, htaken⟩
    refine ⟨herrors, fun m hm n hn hma hna => ?_⟩
    have hm' := hm.trans (lastAttempt_le 4)
    have hn' := hn.trans (lastAttempt_le 4)
    rw [accepted_of_error (herrors _ ‹_›)] at hma hna
    exact htaken m hm' n hn' hma hna
  · rintro ⟨herrors, honce⟩
    have hlast : lastAttempt body attempts 4 = 4 := by
      obtain ⟨e, herror⟩ := (hbody _).mpr (herrors _ (lastAttempt_le 4))
      exact lastAttempt_of_error herror
    rw [hlast] at honce
    refine ⟨herrors, fun m hm n hn hmt hnt => honce m hm n hn ?_ ?_⟩
    · rwa [accepted_of_error (herrors m hm)]
    · rwa [accepted_of_error (herrors n hn)]

end Submitted

theorem submitToNFIU_error_iff (sarID : Int) (submission : Submission) :
    (∃ e, submitToNFIU sarID submission = .error e) ↔ ∃ e, getJSON submission.reply = .error e := by
  unfold submitToNFIU
  cases getJSON submission.reply with
  | error e => exact ⟨fun _ => ⟨e, rfl⟩, fun _ => ⟨e, rfl⟩⟩
  | ok body => exact ⟨nofun, nofun⟩

theorem submitGoAML_error_iff (submission : Submission) :
    (∃ e, submitGoAML submission = .error e) ↔ ∃ e, getJSON submission.reply = .error e := by
  unfold submitGoAML
  cases getJSON submission.reply with
  | error e => exact ⟨fun _ => ⟨e, rfl⟩, fun _ => ⟨e, rfl⟩⟩
  | ok body => exact ⟨nofun, nofun⟩

/-! ### The row -/

/-- One of the attempts to update the row that are made writes it. -/
def SarFilingRun.Written (run : SarFilingRun) : Prop :=
  ∃ attempt ∈ madeBy updateSarStatus 4 run.updates, attempt.write ≠ none

/-- The row after the attempts: as it was if none wrote, else as the last that did left it. -/
theorem foldl_apply (status nfiuRef : String) (attempts : List UpdateAttempt) (row : Filing) :
    ((¬ ∃ attempt ∈ attempts, attempt.write ≠ none) ∧
      attempts.foldl (UpdateAttempt.apply status nfiuRef) row = row) ∨
    ((∃ attempt ∈ attempts, attempt.write ≠ none) ∧
      ∃ now, attempts.foldl (UpdateAttempt.apply status nfiuRef) row =
        ⟨status, nfiuRef, some now⟩) := by
  induction attempts using List.reverseRecOn with
  | nil => exact .inl ⟨nofun, rfl⟩
  | append_singleton attempts last ih =>
    rw [foldl_append, foldl_cons, foldl_nil]
    cases hlast : last.write with
    | some now =>
      have hrow : ∀ other, UpdateAttempt.apply status nfiuRef other last =
          ⟨status, nfiuRef, some now⟩ := by
        intro other
        rw [UpdateAttempt.apply, hlast]
      exact .inr ⟨⟨last, by simp, by simp [hlast]⟩, now, hrow _⟩
    | none =>
      have hrow : ∀ other, UpdateAttempt.apply status nfiuRef other last = other := by
        intro other
        rw [UpdateAttempt.apply, hlast]
      rw [hrow]
      have hwrites : (∃ attempt ∈ attempts ++ [last], attempt.write ≠ none) ↔
          ∃ attempt ∈ attempts, attempt.write ≠ none := by
        simp [or_and_right, exists_or, hlast]
      rwa [hwrites]

/-! ### The workflows -/

/-- A run that ends before it submits: the row must hold its status, and no time. -/
theorem lawful_of_unsent {account : Account} (hmade : account.made = [])
    (htime : account.submittedAt = none) (hstatus : account.status ≠ "submitted") :
    account.Lawful ↔
      account.stored.status = account.status ∧ account.stored.submittedAt = none := by
  constructor
  · intro hlawful
    refine ⟨hlawful.stored_eq, ?_⟩
    by_contra htimed
    exact hstatus (hlawful.stored_eq ▸ hlawful.time_stored htimed)
  · rintro ⟨hstored, hnone⟩
    refine
      { returned_confirmed := fun h => absurd h hstatus
        stored_confirmed := fun h => absurd (hstored ▸ h) hstatus
        stored_eq := hstored
        time_returned := fun h => absurd htime h
        time_stored := fun h => absurd hnone h
        refused_unsent := fun _ => hmade
        once := ?_ }
    rw [Account.acceptances, hmade]
    exact Nat.zero_le _

def SarFilingRun.Covered (run : SarFilingRun) : Prop :=
  match execute validateSarData 4 run.validation with
  | .error _ => run.filing.status = "failed" ∧ run.filing.submittedAt = none
  | .ok validation =>
    if validation.valid = false then
      run.filing.status = "pending_review" ∧ run.filing.submittedAt = none
    else
      match execute (generateGoAMLReport run.sarID) 4 run.report with
      | .error _ => run.filing.status = "failed" ∧ run.filing.submittedAt = none
      | .ok _ =>
        ConfirmedOnce run.submissions ∧ (run.Written ∨ run.filing.status = "submitted")

def GoAmlFilingRun.Covered (run : GoAmlFilingRun) : Prop :=
  match execute fetchGoAmlData 4 run.data with
  | .error _ => run.filing.status = "failed" ∧ run.filing.submittedAt = none
  | .ok _ =>
    match execute (generateGoAMLXML run.filingID) 4 run.xml with
    | .error _ => run.filing.status = "failed" ∧ run.filing.submittedAt = none
    | .ok _ =>
      match execute validateGoAMLSchema 4 run.schema with
      | .ok true =>
        schemaRefused run.schema = false ∧
          (ConfirmedOnce run.submissions ∧ run.filing.status = "submitted" ∨
            FailedOnce run.submissions ∧ run.filing.status = "submission_failed" ∧
              run.filing.submittedAt = none)
      | _ => run.filing.status = "schema_invalid" ∧ run.filing.submittedAt = none

/-- The account of a run of the SAR filing that submits. -/
theorem sarFiling_lawful_of_sent {run : SarFilingRun} {validation : ValidationResult}
    {xmlPath : String} (hvalidation : execute validateSarData 4 run.validation = .ok validation)
    (hvalid : validation.valid ≠ false)
    (hreport : execute (generateGoAMLReport run.sarID) 4 run.report = .ok xmlPath) :
    run.account.Lawful ↔
      ConfirmedOnce run.submissions ∧ (run.Written ∨ run.filing.status = "submitted") := by
  rw [confirmedOnce_iff (submitToNFIU_error_iff run.sarID)]
  have hmade : run.account.made = madeBy (submitToNFIU run.sarID) 4 run.submissions := by
    simp only [SarFilingRun.account, sarFilingWorkflow, hvalidation, hreport, if_neg hvalid]
  have htime : run.account.submittedAt = some run.now := by
    simp only [SarFilingRun.account, sarFilingWorkflow, hvalidation, hreport, if_neg hvalid]
  cases hsubmit : execute (submitToNFIU run.sarID) 4 run.submissions with
  | error e =>
    have hstatus : run.account.status = "pending_nfiu" := by
      simp only [SarFilingRun.account, sarFilingWorkflow, hvalidation, hreport, if_neg hvalid,
        hsubmit]
    constructor
    · intro hlawful
      have hsubmitted := hlawful.time_returned (by rw [htime]; nofun)
      rw [hstatus] at hsubmitted
      exact absurd hsubmitted (by decide)
    · rintro ⟨⟨⟨_, hok⟩, -⟩, -⟩
      cases hok
  | ok nfiuRef =>
    have hstatus : run.account.status = "submitted" := by
      simp only [SarFilingRun.account, sarFilingWorkflow, hvalidation, hreport, if_neg hvalid,
        hsubmit]
    have hstored : run.account.stored =
        (madeBy updateSarStatus 4 run.updates).foldl
          (UpdateAttempt.apply "submitted" nfiuRef) run.filing := by
      simp only [SarFilingRun.account, sarFilingWorkflow, hvalidation, hreport, if_neg hvalid,
        hsubmit]
    have hrow : run.account.stored.status = "submitted" ↔
        run.Written ∨ run.filing.status = "submitted" := by
      rw [hstored]
      rcases foldl_apply "submitted" nfiuRef (madeBy updateSarStatus 4 run.updates) run.filing
        with ⟨hnone, hfold⟩ | ⟨hsome, now, hfold⟩
      · rw [hfold]
        exact ⟨.inr, fun h => h.resolve_left hnone⟩
      · rw [hfold]
        exact ⟨fun _ => .inl hsome, fun _ => rfl⟩
    rw [← hrow, ← hmade]
    constructor
    · intro hlawful
      exact ⟨⟨⟨nfiuRef, rfl⟩, hlawful.returned_confirmed hstatus, hlawful.once⟩,
        hlawful.stored_eq.trans hstatus⟩
    · rintro ⟨⟨-, hconfirmed, honce⟩, hrowStatus⟩
      exact
        { returned_confirmed := fun _ => hconfirmed
          stored_confirmed := fun _ => hconfirmed
          stored_eq := hrowStatus.trans hstatus.symm
          time_returned := fun _ => hstatus
          time_stored := fun _ => hrowStatus
          refused_unsent := nofun
          once := honce }

theorem sarFiling_lawful_iff (run : SarFilingRun) : run.account.Lawful ↔ run.Covered := by
  unfold SarFilingRun.Covered
  cases hvalidation : execute validateSarData 4 run.validation with
  | error e =>
    have haccount : run.account = ⟨"failed", none, run.filing, [], false⟩ := by
      simp only [SarFilingRun.account, sarFilingWorkflow, hvalidation]
    rw [haccount]
    exact lawful_of_unsent rfl rfl (by simp)
  | ok validation =>
    simp only
    split
    next hinvalid =>
      have haccount : run.account = ⟨"pending_review", none, run.filing, [], false⟩ := by
        simp only [SarFilingRun.account, sarFilingWorkflow, hvalidation, if_pos hinvalid]
      rw [haccount]
      exact lawful_of_unsent rfl rfl (by simp)
    next hvalid =>
      cases hreport : execute (generateGoAMLReport run.sarID) 4 run.report with
      | error e =>
        have haccount : run.account = ⟨"failed", none, run.filing, [], false⟩ := by
          simp only [SarFilingRun.account, sarFilingWorkflow, hvalidation, hreport,
            if_neg hvalid]
        rw [haccount]
        exact lawful_of_unsent rfl rfl (by simp)
      | ok xmlPath => exact sarFiling_lawful_of_sent hvalidation hvalid hreport

/-- The account of a run of the goAML filing that submits. -/
theorem goAmlFiling_lawful_of_sent {run : GoAmlFilingRun} {data : Option Value} {xmlContent : String}
    (hdata : execute fetchGoAmlData 4 run.data = .ok data)
    (hxml : execute (generateGoAMLXML run.filingID) 4 run.xml = .ok xmlContent)
    (hschema : execute validateGoAMLSchema 4 run.schema = .ok true) :
    run.account.Lawful ↔
      schemaRefused run.schema = false ∧
        (ConfirmedOnce run.submissions ∧ run.filing.status = "submitted" ∨
          FailedOnce run.submissions ∧ run.filing.status = "submission_failed" ∧
            run.filing.submittedAt = none) := by
  rw [confirmedOnce_iff submitGoAML_error_iff, failedOnce_iff submitGoAML_error_iff]
  have hmade : run.account.made = madeBy submitGoAML 4 run.submissions := by
    simp only [GoAmlFilingRun.account, goAmlFilingWorkflow, hdata, hxml, hschema]
  have hsent : run.account.made ≠ [] := by
    rw [hmade, madeBy, range_succ]
    simp
  have hrefused : run.account.refused = schemaRefused run.schema := rfl
  have hstored : run.account.stored = run.filing := by
    simp only [GoAmlFilingRun.account, goAmlFilingWorkflow, hdata, hxml, hschema]
  have hunrefused : run.account.Lawful → schemaRefused run.schema = false := by
    intro hlawful
    by_contra hrefused'
    exact hsent (hlawful.refused_unsent ((Bool.not_eq_false _).mp hrefused'))
  rw [← hmade]
  cases hsubmit : execute submitGoAML 4 run.submissions with
  | error e =>
    have hstatus : run.account.status = "submission_failed" := by
      simp only [GoAmlFilingRun.account, goAmlFilingWorkflow, hdata, hxml, hschema, hsubmit]
    have htime : run.account.submittedAt = none := by
      simp only [GoAmlFilingRun.account, goAmlFilingWorkflow, hdata, hxml, hschema, hsubmit]
    have hfailed : run.account.status ≠ "submitted" := by
      rw [hstatus]
      decide
    constructor
    · intro hlawful
      have hrow := hlawful.stored_eq
      have hnone : run.filing.submittedAt = none := by
        by_contra htimed
        rw [← hstored] at htimed
        exact hfailed (hrow ▸ hlawful.time_stored htimed)
      rw [hstored, hstatus] at hrow
      exact ⟨hunrefused hlawful, .inr ⟨⟨⟨e, rfl⟩, hlawful.once⟩, hrow, hnone⟩⟩
    · rintro ⟨hnot, ⟨⟨⟨_, hok⟩, -⟩, -⟩ | ⟨⟨-, honce⟩, hrow, hnone⟩⟩
      · cases hok
      · exact
          { returned_confirmed := fun h => absurd h hfailed
            stored_confirmed := fun h => by
              rw [hstored, hrow] at h
              exact absurd h (by decide)
            stored_eq := by rw [hstored, hrow, hstatus]
            time_returned := fun h => absurd htime h
            time_stored := fun h => absurd (hstored ▸ hnone) h
            refused_unsent := fun h => absurd (hnot.symm.trans h) nofun
            once := honce }
  | ok _ =>
    have hstatus : run.account.status = "submitted" := by
      simp only [GoAmlFilingRun.account, goAmlFilingWorkflow, hdata, hxml, hschema, hsubmit]
    constructor
    · intro hlawful
      have hrow := hlawful.stored_eq
      rw [hstored, hstatus] at hrow
      exact ⟨hunrefused hlawful,
        .inl ⟨⟨⟨(), rfl⟩, hlawful.returned_confirmed hstatus, hlawful.once⟩, hrow⟩⟩
    · rintro ⟨hnot, ⟨⟨-, hconfirmed, honce⟩, hrow⟩ | ⟨⟨⟨_, herror⟩, -⟩, -⟩⟩
      · have hrowStatus : run.account.stored.status = "submitted" := by rw [hstored, hrow]
        exact
          { returned_confirmed := fun _ => hconfirmed
            stored_confirmed := fun _ => hconfirmed
            stored_eq := hrowStatus.trans hstatus.symm
            time_returned := fun _ => hstatus
            time_stored := fun _ => hrowStatus
            refused_unsent := fun h => absurd (hnot.symm.trans h) nofun
            once := honce }
      · cases herror

theorem goAmlFiling_lawful_iff (run : GoAmlFilingRun) : run.account.Lawful ↔ run.Covered := by
  have hunsent : ∀ status, run.account =
      ⟨status, none, run.filing, [], schemaRefused run.schema⟩ → status ≠ "submitted" →
      (run.account.Lawful ↔ run.filing.status = status ∧ run.filing.submittedAt = none) := by
    intro status haccount hstatus
    rw [haccount]
    exact lawful_of_unsent rfl rfl hstatus
  unfold GoAmlFilingRun.Covered
  cases hdata : execute fetchGoAmlData 4 run.data with
  | error e =>
    apply hunsent _ _ (by decide)
    simp only [GoAmlFilingRun.account, goAmlFilingWorkflow, hdata]
  | ok data =>
    cases hxml : execute (generateGoAMLXML run.filingID) 4 run.xml with
    | error e =>
      apply hunsent _ _ (by decide)
      simp only [GoAmlFilingRun.account, goAmlFilingWorkflow, hdata, hxml]
    | ok xmlContent =>
      cases hschema : execute validateGoAMLSchema 4 run.schema with
      | error e =>
        apply hunsent _ _ (by decide)
        simp only [GoAmlFilingRun.account, goAmlFilingWorkflow, hdata, hxml, hschema]
      | ok valid =>
        cases valid with
        | false =>
          apply hunsent _ _ (by decide)
          simp only [GoAmlFilingRun.account, goAmlFilingWorkflow, hdata, hxml, hschema]
        | true => exact goAmlFiling_lawful_of_sent hdata hxml hschema

inductive FilingRun where
  | sar (run : SarFilingRun)
  | goAml (run : GoAmlFilingRun)

def FilingRun.account : FilingRun → Account
  | .sar run => run.account
  | .goAml run => run.account

def FilingRun.Covered : FilingRun → Prop
  | .sar run => run.Covered
  | .goAml run => run.Covered

/-- What a workflow says of its filing is so exactly if its submission was confirmed the first
time that it was taken, or never made, and the row was brought to the same status. -/
theorem lawful_iff_covered (run : FilingRun) : run.account.Lawful ↔ run.Covered := by
  cases run with
  | sar run => exact sarFiling_lawful_iff run
  | goAml run => exact goAmlFiling_lawful_iff run

/-- A SAR whose first submission the FIU takes while the reply runs out of time, and
whose second it takes and confirms. -/
def takenTwice : SarFilingRun where
  sarID := 7
  validation _ := .answered 200 (some (.object [("valid", .bool true)]))
  score _ := .answered 503 none
  report _ := .answered 200 (some (.object [("xmlPath", .string "/reports/sar-7-goaml.xml")]))
  submissions n :=
    if n = 0 then ⟨.timedOut, true⟩
    else ⟨.answered 200 (some (.object [("reference", .string "NFIU-2")])), false⟩
  updates _ := ⟨.stored, some "2026-01-01T00:00:01Z"⟩
  now := "2026-01-01T00:00:02Z"
  filing := ⟨"approved", "", none⟩

theorem takenTwice_unlawful : ¬ ∀ run : FilingRun, run.account.Lawful := by
  intro h
  have honce := (h (.sar takenTwice)).once
  exact absurd honce (by decide)

end Bis.Temporal
