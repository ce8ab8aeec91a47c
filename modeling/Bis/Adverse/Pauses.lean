import Bis.Adverse.Workflow

/-!
What the check on the pause columns does to the workflow. Every write keeps it,
for a write that does not is refused; so a paused case cannot be canceled, and a
worker whose notice has failed for good cannot hand a paused case over to manual
delivery: its cycle ends there, with the rest of the batch.
-/

namespace Bis.Adverse

open Bis.Relation Bis.Transition

variable {db db' : Tables} {s t : Office} {row : AdverseCase}

/-! ### The check -/

theorem updateCases_isOk {p : AdverseCase → Bool} {f : AdverseCase → AdverseCase} :
    (∃ db', db.updateCases p f = .ok db') ↔ ∀ row ∈ db.cases, p row → (f row).checks := by
  constructor
  · rintro ⟨db', h⟩
    exact (updateCases_ok h).2
  · intro hchecks
    refine ⟨_, if_pos (List.all_eq_true.mpr ?_)⟩
    intro row hrow
    obtain ⟨hmem, hp⟩ := List.mem_filter.mp hrow
    exact hchecks row hmem hp

/-- Another status can be given to a case that is not paused. -/
theorem withStatus_checks (next : CaseStatus) (hnext : next ≠ .pausedForDispute)
    (h : row.checks) : (row.withStatus next).checks ↔ row.status ≠ .pausedForDispute := by
  obtain ⟨hpaused, hfrom⟩ := Bool.and_eq_true_iff.mp h
  have hsince : row.pausedAt.isSome = (row.status == .pausedForDispute) := (eq_of_beq hpaused).symm
  have hnext' : (next == .pausedForDispute) = false := beq_eq_false_iff_ne.mpr hnext
  simp [AdverseCase.checks, AdverseCase.withStatus, hnext', hsince, hfrom]

/-! ### Cancellation -/

theorem lockedCase_of_mem (hkeyed : db.Keyed) (hrow : row ∈ db.cases) :
    db.lockedCase row.caseRef row.tenantId = .ok row := by
  have hfind := find?_of_key hkeyed.cases hrow fun other => other.tenantId == row.tenantId
  rw [if_pos (beq_self_eq_true _)] at hfind
  unfold Tables.lockedCase
  rw [hfind]

theorem cancel_isOk_iff (hkeyed : db.Keyed) (hrow : row ∈ db.cases) (hchecks : row.checks)
    (hopen : row.status.terminal = false) (now : Nat) :
    (∃ db', db.cancel row.caseRef row.tenantId now = .ok db') ↔
      row.status ≠ .pausedForDispute := by
  have hupdate : (∃ moved, db.updateCase row.caseRef (.withStatus .canceled) = .ok moved) ↔
      row.status ≠ .pausedForDispute := by
    refine updateCases_isOk.trans ?_
    rw [← withStatus_checks .canceled nofun hchecks]
    constructor
    · exact fun h => h row hrow (beq_self_eq_true _)
    · intro h other hother hsame
      obtain rfl := List.inj_on_of_nodup_map hkeyed.cases hother hrow (beq_iff_eq.mp hsame)
      exact h
  rw [← hupdate]
  constructor
  · rintro ⟨db', h⟩
    obtain ⟨locked, hlocked, hrest⟩ := except_bind_ok h
    obtain rfl := Except.ok.inj ((lockedCase_of_mem hkeyed hrow).symm.trans hlocked)
    split at hrest
    · cases hrest
    · obtain ⟨moved, hmoved, -⟩ := except_bind_ok hrest
      exact ⟨moved, hmoved⟩
  · rintro ⟨moved, hmoved⟩
    refine ⟨(moved.cancelNotices row.caseRef).appendEvent row.caseRef .canceled now, ?_⟩
    unfold Tables.cancel
    rw [lockedCase_of_mem hkeyed hrow]
    change (if row.status.terminal then _ else _) = _
    rw [hopen, if_neg Bool.false_ne_true, hmoved]
    rfl

/-! ### The worker -/

/-- The notice is worked off, and the worker turns to the rest of its batch. -/
def GoesOn (s t : Office) (worker now : Nat) (phase : Phase) (event : LeasedNotice)
    (rest : List LeasedNotice) : Prop :=
  phase.statement s.db event now = some (.ok t.db) ∧ t.cycles worker = .next rest

/-- The notice has failed, and will not be tried again. -/
def Phase.failsForGood (event : LeasedNotice) : Phase → Bool
  | .failing retryable => terminalFailure event retryable
  | _ => false

variable {event : LeasedNotice}

theorem markDelivered_paused (hkeyed : db.Keyed) (hrow : row ∈ db.cases)
    (hpaused : row.status = .pausedForDispute) (hcase : row.caseRef = event.caseRef) (now : Nat) :
    ∃ db', db.markDelivered event now = .ok db' := by
  have hlookup : lookup AdverseCase.caseRef event.caseRef db.cases = some row :=
    (lookup_eq_some_iff hkeyed.cases).mpr ⟨hrow, hcase⟩
  have hchanged (d : Delivery) : d.status ≠ .queued ∨ Tables.stateChanged row.status = true := by
    rw [hpaused]
    exact .inr rfl
  unfold Tables.markDelivered
  rw [hlookup]
  split
  next found d hfound _ =>
    cases hfound
    rw [if_pos (hchanged d)]
    exact ⟨_, rfl⟩
  · exact ⟨_, rfl⟩

theorem restoreOrDeadLetter_paused (hrow : row ∈ db.cases) (hchecks : row.checks)
    (hpaused : row.status = .pausedForDispute) (hcase : row.caseRef = event.caseRef) (now : Nat)
    (retryable : Bool) :
    (∃ db', db.restoreOrDeadLetter event now retryable = .ok db') ↔
      terminalFailure event retryable = false := by
  constructor
  · rintro ⟨db', h⟩
    rcases restoreOrDeadLetter_ok h with ⟨hretry, _⟩ | ⟨_, htouch⟩
    · exact hretry
    · have hmoved : movedByDeadLetter event row := by
        simp [movedByDeadLetter, hcase, hpaused, CaseStatus.terminal]
      have hbroken := htouch.checked row hrow hmoved
      exact absurd hpaused ((withStatus_checks .manualDelivery nofun hchecks).mp hbroken)
  · intro hretry
    unfold Tables.restoreOrDeadLetter
    dsimp only
    rw [hretry]
    exact ⟨_, if_neg Bool.false_ne_true⟩

/-- What becomes of the transaction of a worker on a paused case. -/
theorem statement_paused (hs : s.Ok) (hrow : row ∈ s.db.cases)
    (hpaused : row.status = .pausedForDispute) (hcase : row.caseRef = event.caseRef) {now : Nat}
    {phase : Phase} {result : Except String Tables}
    (hresult : phase.statement s.db event now = some result) :
    (∃ db', result = .ok db') ↔ phase.failsForGood event = false := by
  cases phase with
  | checking | sending => cases hresult
  | canceling =>
    cases hresult
    exact iff_of_true ⟨_, rfl⟩ rfl
  | delivering =>
    cases hresult
    exact iff_of_true (markDelivered_paused hs.keyed hrow hpaused hcase now) rfl
  | failing retryable =>
    cases hresult
    exact restoreOrDeadLetter_paused hrow (hs.checked row hrow) hpaused hcase now retryable

theorem goesOn_iff (hs : s.Ok) (hrow : row ∈ s.db.cases) (hpaused : row.status = .pausedForDispute)
    {worker now : Nat} {phase : Phase} {rest : List LeasedNotice}
    (hcase : row.caseRef = event.caseRef) (hcycle : s.cycles worker = .working phase event rest)
    (hstep : officeStep s (.settle worker now .done) = some t) :
    GoesOn s t worker now phase event rest ↔ phase.failsForGood event = false := by
  simp only [officeStep, Office.settle, hcycle] at hstep
  split at hstep
  · cases hstep
  · split at hstep
    · cases hstep
    next result hresult =>
      have hiff := statement_paused hs hrow hpaused hcase hresult
      split at hstep
      · cases hstep
      · rw [← hiff, GoesOn, hresult]
        constructor
        · rintro ⟨hok, -⟩
          exact ⟨t.db, Option.some.inj hok⟩
        · rintro ⟨db', rfl⟩
          cases hstep
          exact ⟨rfl, Function.update_self _ _ _⟩

/-- In every reachable state each case meets the check, a case that is neither
completed nor canceled can be canceled exactly when it is not paused, and a worker
that comes upon a paused case works its notice off and goes on exactly when the
notice has not failed for good. -/
theorem pause_check_kept (labels : List OfficeStep) :
    Always officeStep (fun s =>
      (∀ row ∈ s.db.cases, row.checks) ∧
      (∀ row ∈ s.db.cases, row.status.terminal = false → ∀ now,
        (∃ db', s.db.cancel row.caseRef row.tenantId now = .ok db') ↔
          row.status ≠ .pausedForDispute) ∧
      (∀ worker phase event rest, s.cycles worker = .working phase event rest →
        ∀ row ∈ s.db.cases, row.caseRef = event.caseRef → row.status = .pausedForDispute →
          ∀ now t, officeStep s (.settle worker now .done) = some t →
            (GoesOn s t worker now phase event rest ↔ phase.failsForGood event = false)))
      .empty labels := by
  have hok : Always officeStep Office.Ok .empty labels :=
    always_of_step labels (fun s a t hs hstep => ok_of_step hs hstep) ok_empty
  refine hok.mono ?_
  intro s hs
  refine ⟨hs.checked, ?_, ?_⟩
  · intro row hrow hopen now
    exact cancel_isOk_iff hs.keyed hrow (hs.checked row hrow) hopen now
  · intro worker phase event rest hcycle row hrow hcase hpaused now t hstep
    exact goesOn_iff hs hrow hpaused hcase hcycle hstep

/-! ### Two notices leased, and a dispute -/

def disputedInput : Tables.InitiateInput :=
  { caseRef := "BIS-AA-2", tenantId := 7, screeningOrderId := 2, reportSnapshotId := 2
    candidateId := 5, waitingPeriodDays := 5, channel := .email }

def otherInput : Tables.InitiateInput :=
  { caseRef := "BIS-AA-3", tenantId := 7, screeningOrderId := 3, reportSnapshotId := 3
    candidateId := 6, waitingPeriodDays := 5, channel := .email }

/-- A worker leases two notices, and a dispute pauses the case of the first one. -/
def pausedRun : List OfficeStep :=
  [.initiateCheck 0 0 disputedInput true false true, .commit 0 0 ⟨1, 1⟩,
    .initiateCheck 0 1 otherInput true false true, .commit 0 1 ⟨2, 2⟩,
    .lease 0 2 (fun _ => false), .findPausable 1 3 7 5 2, .commit 1 3 ⟨3, 3⟩]

/-- No adapter is installed, and the notice has failed for good. -/
def failedRun : List OfficeStep := pausedRun ++ [.check 0, .dispatch 0 .notInstalled]

/-- The paused case cannot be canceled, and the other notice of the batch is left. -/
theorem paused_case_stuck :
    ∃ s t, run officeStep .empty failedRun = some s ∧
      (∃ row ∈ s.db.cases, row.status = .pausedForDispute ∧
        ∀ db', s.db.cancel row.caseRef row.tenantId 4 ≠ .ok db') ∧
      officeStep s (.settle 0 4 .done) = some t ∧
      ∃ phase event next rest, s.cycles 0 = .working phase event (next :: rest) ∧
        t.cycles 0 = .idle := by
  have hrun : (run officeStep .empty failedRun).map (fun s =>
      (s.db.cases.map fun row => (row.status, (s.db.cancel row.caseRef row.tenantId 4).isOk),
        match s.cycles 0 with
        | .working _ _ rest => rest.length
        | .idle => 0,
        (officeStep s (.settle 0 4 .done)).map fun t => t.cycles 0)) =
      some ([(.pausedForDispute, false), (.preNoticeQueued, true)], 1, some .idle) := by
    decide
  obtain ⟨s, hs, hresult⟩ := Option.map_eq_some_iff.mp hrun
  obtain ⟨hcases, hresult⟩ := Prod.mk.inj hresult
  obtain ⟨hrest, hstep⟩ := Prod.mk.inj hresult
  obtain ⟨t, ht, hidle⟩ := Option.map_eq_some_iff.mp hstep
  refine ⟨s, t, hs, ?_, ht, ?_⟩
  · obtain ⟨row, rows, hrows, hfirst, -⟩ := List.map_eq_cons_iff.mp hcases
    obtain ⟨hpaused, hfails⟩ := Prod.mk.inj hfirst
    refine ⟨row, hrows ▸ List.mem_cons_self, hpaused, ?_⟩
    intro db' hok
    rw [hok] at hfails
    cases hfails
  · split at hrest
    next phase event rest hcycle =>
      obtain ⟨next, hnext⟩ := List.length_eq_one_iff.mp hrest
      exact ⟨phase, event, next, [], hnext ▸ hcycle, hidle⟩
    · cases hrest

end Bis.Adverse
