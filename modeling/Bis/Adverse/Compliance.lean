import Bis.Adverse.DisputeHold

/-!
The dispute desk and the adverse-action workflow as one system. They share the
candidates: the workflow looks for open disputes at the desk, and the transaction
that opens a dispute pauses the cases it has found. Both are kept apart otherwise,
each with its own clock.

A dispute that is closed is reopened by a late source response without a pause.
-/

namespace Bis.Adverse

open Bis.Relation Bis.Transition Option

/-! ### The system -/

structure Compliance where
  desk : Disputes.Desk
  office : Office

def Compliance.empty : Compliance := { desk := .empty, office := .empty }

/-- The query of `assertNoOpenDispute`. -/
def disputed (db : Disputes.Tables) : Disputed := fun tenantId candidateId =>
  db.cases.any fun c => c.tenantId == tenantId && (c.candidateId == candidateId && !c.status.closed)

def Compliance.disputed (s : Compliance) : Disputed := Bis.Adverse.disputed s.desk.db

/-- Whether the operation has read what stands at the desk; the dispute that a
hold names is one of those open. -/
def OfficeStep.reads (D : Disputed) (db : Tables) : OfficeStep → Bool
  | .initiateCheck _ _ input _ found _ => found == D input.tenantId input.candidateId
  | .resumeCheck _ _ caseRef tenantId found | .queueFinalCheck _ _ caseRef tenantId _ found _ =>
    db.cases.all fun row =>
      !(row.caseRef == caseRef && row.tenantId == tenantId) || found == D tenantId row.candidateId
  | .mutate _ (.pauseForDispute caseRef tenantId found) =>
    db.cases.all fun row =>
      !(row.caseRef == caseRef && row.tenantId == tenantId) ||
        (!found || D tenantId row.candidateId)
  | _ => true

/-- The commits that open a dispute. -/
def Office.opens (s : Office) : OfficeStep → Bool
  | .commit session _ _ =>
    match s.session? session with
    | some (.pausing _ _ _ _ _) => true
    | _ => false
  | _ => false

def openCase? : Disputes.DeskStep → Bool
  | .mutate _ (.openCase _ _ _ _ _) => true
  | _ => false

inductive ComplianceStep where
  | desk (a : Disputes.DeskStep)
  | office (a : OfficeStep)
  /-- `open` commits, with the pauses of the cases it has found. -/
  | openDispute (session now : Nat) (caseRef : String) (userId : Nat) (itemRefs : List String)

variable (sha256 : String → String)

def complianceStep : Step Compliance ComplianceStep
  | s, .desk a =>
    if openCase? a then none
    else (Disputes.deskStep sha256 s.desk a).map fun desk => { s with desk }
  | s, .office a =>
    if s.office.opens a || !a.reads s.disputed s.office.db then none
    else (officeStep s.office a).map fun office => { s with office }
  | s, .openDispute session now caseRef userId itemRefs =>
    match s.office.session? session with
    | some (.pausing tenantId candidateId _ _ _) =>
      (Disputes.deskStep sha256 s.desk
        (.mutate now (.openCase caseRef tenantId userId candidateId itemRefs))).bind
          fun desk => (officeStep s.office (.commit session now ⟨0, 0⟩)).map
            fun office => { desk, office }
    | _ => none

/-! ### The property and its condition -/

/-- No case moves on to its final notice or its completion under a dispute. -/
def NoneMovesOn (s : Compliance) (a : ComplianceStep) : Prop :=
  ∀ t, complianceStep sha256 s a = some t →
    Tables.NoneMovesOn s.disputed s.office.db t.office.db

def Compliance.OnHold (s : Compliance) : Prop := s.office.db.OnHold s.disputed

/-- The transaction has found all the cases it is to pause. -/
def Work.findsAll (db : Tables) : Work → Prop
  | .pausing tenantId candidateId _ found _ =>
    ∀ row ∈ db.cases, Tables.pausable tenantId candidateId row → found.contains row.caseRef
  | .initiating _ _ | .resuming _ _ | .queueing _ _ _ => True

def KeepsOnHold (s : Compliance) : ComplianceStep → Prop
  | .desk (.mutate _ (.recordSourceResponse caseRef _ _)) =>
    ∀ c ∈ s.desk.db.cases, c.caseRef = caseRef → c.status.closed → ∀ row ∈ s.office.db.cases,
      row.tenantId = c.tenantId → row.candidateId = c.candidateId → row.status.active = false
  | .desk _ => True
  | .office a => LeavesDisputedAlone s.disputed s.office a
  | .openDispute session _ _ _ _ => ∀ work ∈ s.office.session? session, work.findsAll s.office.db

/-! ### The desk -/

variable {sha256} {db db' : Disputes.Tables} {s t : Disputes.Desk}

variable {tenantId : Int} {candidateId now : Nat} {caseRef : String}

theorem disputed_iff :
    disputed db tenantId candidateId ↔ ∃ c ∈ db.cases, c.tenantId = tenantId ∧
      c.candidateId = candidateId ∧ c.status.closed = false := by
  simp [disputed, List.any_eq_true]

/-- A closed dispute is reopened. -/
def Reopens (db : Disputes.Tables) (a : Disputes.DeskStep) (tenantId : Int) (candidateId : Nat) :
    Prop :=
  ∃ now caseRef scope taskRef, a = .mutate now (.recordSourceResponse caseRef scope taskRef) ∧
    ∃ c ∈ db.cases, c.caseRef = caseRef ∧ c.tenantId = tenantId ∧ c.candidateId = candidateId ∧
      c.status.closed

theorem disputed_setCaseStatus {status : Disputes.DisputeStatus} (hcases : db'.cases = db.cases)
    (hopen : status.closed = false → ∀ c ∈ db.cases, c.caseRef = caseRef → c.status.closed = false)
    (h : disputed (db'.setCaseStatus caseRef status) tenantId candidateId) :
    disputed db tenantId candidateId := by
  obtain ⟨c, hc, htenant, hcandidate, hstatus⟩ := disputed_iff.mp h
  rcases mem_updateWhere.mp hc with ⟨old, hold, hcase, rfl⟩ | ⟨hold, -⟩
  · rw [hcases] at hold
    exact disputed_iff.mpr
      ⟨old, hold, htenant, hcandidate, hopen hstatus old hold (beq_iff_eq.mp hcase)⟩
  · rw [hcases] at hold
    exact disputed_iff.mpr ⟨c, hold, htenant, hcandidate, hstatus⟩

theorem disputed_congr (hcases : db'.cases = db.cases) :
    disputed db' tenantId candidateId = disputed db tenantId candidateId := by
  unfold disputed
  rw [hcases]

/-- At the desk a dispute becomes open by its opening, or by a source response. -/
theorem disputed_of_mutates {m : Disputes.Mutation} (hkeyed : db.Keyed)
    (hm : Disputes.Mutates db m db') (hopen : openCase? (.mutate now m) = false)
    (h : disputed db' tenantId candidateId) :
    disputed db tenantId candidateId ∨ Reopens db (.mutate now m) tenantId candidateId := by
  have hsame : ∀ {caseRef : String} {status : Disputes.DisputeStatus},
      db.status? caseRef = some status → status.closed = false →
        ∀ c ∈ db.cases, c.caseRef = caseRef → c.status.closed = false := by
    intro caseRef status hstatus hlive c hc hcase
    have hown := Disputes.Tables.status?_of_mem hkeyed hc
    rw [hcase, hstatus] at hown
    rw [← some.inj hown]
    exact hlive
  cases hm with
  | opened => cases hopen
  | accepted hreceived =>
    exact .inl (disputed_setCaseStatus rfl (fun _ => hsame hreceived rfl) h)
  | assigned | dispositioned | escalated | settled => exact .inl h
  | requested hstatus hlive hrequested =>
    exact .inl (disputed_setCaseStatus hrequested.cases (fun _ => hsame hstatus hlive) h)
  | @responded caseRef taskRef scope status hstatus =>
    obtain ⟨c, hc, htenant, hcandidate, hlive⟩ := disputed_iff.mp h
    rcases mem_updateWhere.mp hc with ⟨old, hold, hcase, rfl⟩ | ⟨hold, -⟩
    · cases hclosed : old.status.closed with
      | true =>
        exact .inr ⟨now, caseRef, scope, taskRef, rfl, old, hold, beq_iff_eq.mp hcase, htenant,
          hcandidate, hclosed⟩
      | false => exact .inl (disputed_iff.mpr ⟨old, hold, htenant, hcandidate, hclosed⟩)
    · exact .inl (disputed_iff.mpr ⟨c, hold, htenant, hcandidate, hlive⟩)
  | completed =>
    refine .inl (disputed_setCaseStatus rfl ?_ h)
    nofun

theorem restoreOrFail_cases (event : Disputes.LeasedOutboxEvent) (now : Nat) (retryable : Bool) :
    (db.restoreOrFail event now retryable).cases = db.cases := by
  unfold Disputes.Tables.restoreOrFail
  split <;> rfl

variable {a : Disputes.DeskStep} {itemRefs : List String}

theorem disputed_of_deskStep (hkeyed : s.db.Keyed) (hstep : Disputes.deskStep sha256 s a = some t)
    (hopen : openCase? a = false) (h : disputed t.db tenantId candidateId) :
    disputed s.db tenantId candidateId ∨ Reopens s.db a tenantId candidateId := by
  cases Disputes.deskTakes_of_step hkeyed hstep with
  | mutated _ hm => exact disputed_of_mutates hkeyed hm hopen h
  | withdrew _ _ =>
    refine .inl (disputed_setCaseStatus rfl ?_ h)
    nofun
  | restored =>
    refine .inl ?_
    rw [← disputed_congr (restoreOrFail_cases _ _ _)]
    exact h
  | checked | selected | rolledBack | leased | decrypted | authorized | dispatched | notRestored
    | crashed => exact .inl h

/-- A new dispute of the candidate, and those of before. -/
theorem disputed_of_open {userId : Nat} (hkeyed : s.db.Keyed)
    (hstep : Disputes.deskStep sha256 s (.mutate now (.openCase caseRef tenantId userId candidateId
      itemRefs)) = some t) (tenant : Int) (candidate : Nat) :
    disputed t.db tenant candidate ↔
      disputed s.db tenant candidate ∨ (tenantId = tenant ∧ candidateId = candidate) := by
  cases Disputes.deskTakes_of_step hkeyed hstep with
  | mutated _ hm =>
    cases hm with
    | opened =>
      simp [disputed, List.any_append, Disputes.DisputeStatus.closed]

/-! ### Steps of the system -/

variable {u v : Compliance}

structure Compliance.Ok (u : Compliance) : Prop where
  desk : u.desk.db.Keyed
  office : u.office.Ok

theorem complianceOk_of_step {a : ComplianceStep} (hu : u.Ok)
    (hstep : complianceStep sha256 u a = some v) : v.Ok := by
  cases a with
  | desk a =>
    simp only [complianceStep] at hstep
    split at hstep
    · cases hstep
    · obtain ⟨desk, hdesk, rfl⟩ := map_eq_some_iff.mp hstep
      exact ⟨Disputes.keyed_of_step hu.desk hdesk, hu.office⟩
  | office a =>
    simp only [complianceStep] at hstep
    split at hstep
    · cases hstep
    · obtain ⟨office, hoffice, rfl⟩ := map_eq_some_iff.mp hstep
      exact ⟨hu.desk, ok_of_step hu.office hoffice⟩
  | openDispute session now caseRef userId itemRefs =>
    simp only [complianceStep] at hstep
    split at hstep
    · obtain ⟨desk, hdesk, hrest⟩ := bind_eq_some_iff.mp hstep
      obtain ⟨office, hoffice, rfl⟩ := map_eq_some_iff.mp hrest
      exact ⟨Disputes.keyed_of_step hu.desk hdesk, ok_of_step hu.office hoffice⟩
    · cases hstep

/-- A step at the desk keeps the cases on hold unless it reopens a dispute of a
candidate with an active case. -/
theorem onHold_iff_of_desk {desk : Disputes.Desk} (hu : u.Ok) (hP : u.OnHold)
    (hopen : openCase? a = false) (hdesk : Disputes.deskStep sha256 u.desk a = some desk) :
    u.office.db.OnHold (disputed desk.db) ↔ KeepsOnHold u (.desk a) := by
  constructor
  · intro hafter
    cases a with
    | mutate now m =>
      cases m with
      | recordSourceResponse caseRef scope taskRef =>
        intro c hc hcase hclosed row hrow htenant hcandidate
        rw [Bool.eq_false_iff]
        intro hactive
        have hfree := hafter row hrow hactive
        have hopened : disputed desk.db row.tenantId row.candidateId := by
          cases Disputes.deskTakes_of_step hu.desk hdesk with
          | mutated _ hm =>
            cases hm with
            | responded =>
              refine disputed_iff.mpr ⟨{ c with status := .investigating }, ?_,
                htenant.symm, hcandidate.symm, rfl⟩
              exact mem_updateWhere.mpr (.inl ⟨c, hc, beq_iff_eq.mpr hcase, rfl⟩)
        rw [AdverseCase.disputed, hopened] at hfree
        cases hfree
      | openCase | assign | createSourceTask | dispositionItem | complete | escalate
        | resolveDeadlineEscalation => trivial
    | withdrawCheck | withdrawTasks | withdrawCommit | withdrawRollback | lease | decrypt
      | authorize | dispatch | restore | crash => trivial
  · intro hC row hrow hactive
    rw [Bool.eq_false_iff]
    intro hdisputed
    rcases disputed_of_deskStep hu.desk hdesk hopen hdisputed with hbefore |
      ⟨now, caseRef, scope, taskRef, rfl, c, hc, hcase, htenant, hcandidate, hclosed⟩
    · have hfree := hP row hrow hactive
      rw [AdverseCase.disputed, Compliance.disputed, hbefore] at hfree
      cases hfree
    · rw [hC c hc hcase hclosed row hrow htenant.symm hcandidate.symm] at hactive
      cases hactive

/-- The opening of a dispute puts every case on hold that it has found. -/
theorem onHold_iff_of_open {session : Nat} {userId : Nat} {reportSnapshotId startedAt : Nat}
    {found : List String} {desk : Disputes.Desk} {office : Office} (hu : u.Ok) (hP : u.OnHold)
    (hwork : u.office.session? session = some (.pausing tenantId candidateId reportSnapshotId found
      startedAt))
    (hdesk : Disputes.deskStep sha256 u.desk (.mutate now (.openCase caseRef tenantId userId
      candidateId itemRefs)) = some desk)
    (hoffice : officeStep u.office (.commit session now ⟨0, 0⟩) = some office) :
    Tables.NoneMovesOn u.disputed u.office.db office.db ∧
      (office.db.OnHold (disputed desk.db) ↔
        ∀ row ∈ u.office.db.cases, Tables.pausable tenantId candidateId row →
          found.contains row.caseRef) := by
  cases officeTakes_of_step hu.office.keyed hoffice with
  | @initiated _ _ _ _ _ _ _ hwork' | @resumed _ _ _ _ _ _ _ hwork'
  | @queued _ _ _ _ _ _ _ _ hwork' => cases hwork.symm.trans hwork'
  | turned hworker => cases hworker
  | @opened _ _ _ _ tenantId' candidateId' _ found' _ db' _ hwork' _ hpaused =>
    cases some.inj (hwork.symm.trans hwork')
    refine ⟨(held_of_pauses hP hpaused).noneMovesOn, ?_⟩
    have hopened := disputed_of_open hu.desk hdesk
    constructor
    · intro hafter row hrow hpausable
      by_contra hmissed
      have hkept : row ∈ db'.cases := by
        rw [hpaused.touches.cases]
        refine mem_updateWhere_of_not hrow ?_
        exact fun hboth => hmissed (Bool.and_eq_true_iff.mp hboth).2
      simp only [Tables.pausable, Bool.and_eq_true, beq_iff_eq] at hpausable
      have hfree := hafter row hkept hpausable.2.2
      have hdisputed := (hopened row.tenantId row.candidateId).mpr
        (.inr ⟨hpausable.1.symm, hpausable.2.1.symm⟩)
      rw [AdverseCase.disputed, hdisputed] at hfree
      cases hfree
    · intro hall row hrow hactive
      change row ∈ db'.cases at hrow
      rw [hpaused.touches.cases] at hrow
      rcases mem_updateWhere.mp hrow with ⟨old, _, _, rfl⟩ | ⟨hold, hnot⟩
      · cases hactive
      · rw [Bool.eq_false_iff]
        intro hdisputed
        rcases (hopened row.tenantId row.candidateId).mp hdisputed with hbefore | ⟨rfl, rfl⟩
        · have hfree := hP row hold hactive
          rw [AdverseCase.disputed, Compliance.disputed, hbefore] at hfree
          cases hfree
        · have hpausable : Tables.pausable row.tenantId row.candidateId row := by
            simp [Tables.pausable, hactive]
          exact hnot (Bool.and_eq_true_iff.mpr ⟨hpausable, hall row hold hpausable⟩)

theorem keepsOnHold_iff {a : ComplianceStep} (hu : u.Ok) (hP : u.OnHold)
    (hstep : complianceStep sha256 u a = some v) :
    (NoneMovesOn sha256 u a ∧ v.OnHold) ↔ KeepsOnHold u a := by
  have hmoves : NoneMovesOn sha256 u a ↔ Tables.NoneMovesOn u.disputed u.office.db v.office.db := by
    constructor
    · exact fun h => h v hstep
    · intro h v' hstep'
      obtain rfl := some.inj (hstep.symm.trans hstep')
      exact h
  rw [hmoves]
  cases a with
  | desk a =>
    simp only [complianceStep] at hstep
    split at hstep
    · cases hstep
    next hopen =>
      obtain ⟨desk, hdesk, rfl⟩ := map_eq_some_iff.mp hstep
      have hnone := (held_of_subset hP fun _ hrow => hrow).noneMovesOn
      rw [← onHold_iff_of_desk hu hP (Bool.eq_false_iff.mpr hopen) hdesk]
      exact and_iff_right hnone
  | office a =>
    simp only [complianceStep] at hstep
    split at hstep
    · cases hstep
    · obtain ⟨office, hoffice, rfl⟩ := map_eq_some_iff.mp hstep
      constructor
      · rintro ⟨hnone, hafter⟩
        exact leavesDisputedAlone_of_held hu.office hoffice ⟨hafter, hnone⟩
      · intro hC
        have hheld := held_of_officeStep hu.office hP hC hoffice
        exact ⟨hheld.noneMovesOn, hheld.onHold⟩
  | openDispute session now caseRef userId itemRefs =>
    simp only [complianceStep] at hstep
    split at hstep
    next tenantId candidateId reportSnapshotId found startedAt hwork =>
      obtain ⟨desk, hdesk, hrest⟩ := bind_eq_some_iff.mp hstep
      obtain ⟨office, hoffice, rfl⟩ := map_eq_some_iff.mp hrest
      obtain ⟨hnone, hiff⟩ := onHold_iff_of_open hu hP hwork hdesk hoffice
      rw [and_iff_right hnone]
      refine hiff.trans ?_
      constructor
      · intro hall work hmem
        obtain rfl := some.inj (hwork.symm.trans (Option.mem_def.mp hmem))
        exact hall
      · exact fun hC => hC _ hwork
    · cases hstep

/-- No case moves on to its final notice or its completion while a dispute of its
candidate is open, and none is active then, in exactly the runs whose steps leave
disputed cases alone, pause all that a new dispute concerns and reopen no dispute
of a candidate with an active case. -/
theorem dispute_hold_iff (sha256 : String → String) (labels : List ComplianceStep) :
    (Meets (complianceStep sha256) (NoneMovesOn sha256) .empty labels ∧
        Always (complianceStep sha256) Compliance.OnHold .empty labels) ↔
      Meets (complianceStep sha256) KeepsOnHold .empty labels := by
  have hok : Compliance.empty.Ok := ⟨List.nodup_nil, ok_empty⟩
  have hempty : Compliance.empty.OnHold := List.forall_mem_nil _
  refine meets_and_always_iff_meets labels (I := Compliance.Ok)
    (fun u a v hu hstep => complianceOk_of_step hu hstep) ?_ hok hempty
  exact fun u a v hu hP hstep => keepsOnHold_iff hu hP hstep

/-! ### A notice recovered under a dispute -/

def heldInput : Tables.InitiateInput :=
  { caseRef := "BIS-AA-4", tenantId := 7, screeningOrderId := 4, reportSnapshotId := 4
    candidateId := 9, waitingPeriodDays := 5, channel := .manual }

/-- The final notice waits for manual delivery when the dispute is opened. -/
def openedRun : List ComplianceStep :=
  [.office (.initiateCheck 0 0 heldInput true false true), .office (.commit 0 0 ⟨1, 1⟩),
    .office (.mutate 0 (.recordDelivery "BIS-AA-4" 7 1 .delivered)),
    .office (.queueFinalCheck 0 432000000000 "BIS-AA-4" 7 .manual false true),
    .office (.commit 0 432000000000 ⟨2, 2⟩),
    .office (.mutate 432000000000 (.recordDelivery "BIS-AA-4" 7 2 .manualRequired)),
    .office (.findPausable 0 432000000000 7 9 4),
    .openDispute 0 432000000000 "BIS-DR-4" 1 ["BIS-DI-4"]]

/-- The notice is queued once more. -/
def recovery : ComplianceStep :=
  .office (.mutate 432000000000 (.resolveManualDelivery "BIS-AA-4" 7 2 .manual ⟨3, 3⟩))

/-- The disputed case moves on to its final notice, and is active. -/
theorem disputed_case_moves_on :
    ¬ Meets (complianceStep id) (NoneMovesOn id) .empty (openedRun ++ [recovery]) ∧
      ¬ Always (complianceStep id) Compliance.OnHold .empty (openedRun ++ [recovery]) := by
  have hrun : (run (complianceStep id) .empty openedRun).map (fun u =>
      (u.office.db.cases.map AdverseCase.status,
        (complianceStep id u recovery).map fun v =>
          v.office.db.cases.map fun row =>
            (row.status, row.disputed u.disputed && row.disputed v.disputed))) =
      some ([.manualDelivery], some [(.finalNoticeQueued, true)]) := by decide
  obtain ⟨u, hu, hresult⟩ := map_eq_some_iff.mp hrun
  obtain ⟨hbefore, hstep⟩ := Prod.mk.inj hresult
  obtain ⟨v, hv, hafter⟩ := map_eq_some_iff.mp hstep
  obtain ⟨row, hrows, hrow⟩ := List.map_eq_singleton_iff.mp hafter
  obtain ⟨hstatus, hboth⟩ := Prod.mk.inj hrow
  obtain ⟨hdisputed, hopen⟩ := Bool.and_eq_true_iff.mp hboth
  have hmem : row ∈ v.office.db.cases := hrows ▸ List.mem_cons_self
  constructor
  · intro h
    have hnone := ((h.append hu) v hv).1 v hv row hmem (hstatus ▸ rfl) hdisputed
    obtain ⟨old, hold, -, hsame⟩ := hnone
    obtain ⟨first, hfirst, hmanual⟩ := List.map_eq_singleton_iff.mp hbefore
    rw [hfirst, List.mem_singleton] at hold
    rw [hold, hmanual, hstatus] at hsame
    cases hsame
  · intro h
    have hfinish : run (complianceStep id) .empty (openedRun ++ [recovery]) = some v :=
      (run_append_iff _ _ _ _).mpr ⟨u, hu, (run_cons_iff _ _ _ _).mpr ⟨v, hv, rfl⟩⟩
    have hfree := h.finish hfinish row hmem (hstatus ▸ rfl)
    rw [hopen] at hfree
    cases hfree

end Bis.Adverse
