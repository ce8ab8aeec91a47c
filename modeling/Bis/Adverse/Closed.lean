import Bis.Adverse.Order

/-!
A completed or canceled case is not to be left. Most operations look at the status
of the case first; recording a delivery does not, and a pre-adverse notice that
arrives is not kept from a completed case.
-/

namespace Bis.Adverse

open Bis.Relation Bis.Transition List

variable {db db' : Tables} {s t : Office} {row : AdverseCase} {queued : List Notice}
  {events : List AdverseEvent}

/-- A case that is completed or canceled has its status after the step. -/
def KeepsClosed (s : Office) (a : OfficeStep) : Prop :=
  ∀ t, officeStep s a = some t → ∀ row ∈ s.db.cases, row.status.terminal →
    ∃ row' ∈ t.db.cases, row'.caseRef = row.caseRef ∧ row'.status = row.status

/-- The worker does not mark a pre-adverse notice of a completed case. -/
def Cycle.leavesCompleted (db : Tables) : Cycle → Prop
  | .working .delivering event _ =>
    event.noticeType = .preAdverse →
    (∃ d ∈ db.deliveries, d.id = event.deliveryId ∧ d.caseRef = event.caseRef ∧
      d.status = .queued) →
    ∀ row ∈ db.cases, row.caseRef = event.caseRef → row.status ≠ .completed
  | _ => True

/-- Nothing is recorded on a closed case, save that a final notice of a completed
one was delivered, and no pre-adverse notice of a completed case is marked. -/
def LeavesClosedAlone (s : Office) : OfficeStep → Prop
  | .mutate _ (.recordDelivery caseRef _ deliveryId status) =>
    ∀ row ∈ s.db.cases, row.caseRef = caseRef → row.status.terminal →
      row.status = .completed ∧ status = .delivered ∧
        ∃ d ∈ s.db.deliveries, d.id = deliveryId ∧ d.noticeType = .finalAdverse
  | .settle worker _ .done => (s.cycles worker).leavesCompleted s.db
  | _ => True

instance (db : Tables) : DecidablePred (Cycle.leavesCompleted db)
  | .working .delivering event _ => inferInstanceAs (Decidable (event.noticeType = _ → _))
  | .idle | .working .checking _ _ | .working .canceling _ _ | .working .sending _ _
    | .working (.failing _) _ _ => isTrue trivial

instance (s : Office) : DecidablePred (LeavesClosedAlone s)
  | .mutate _ (.recordDelivery _ _ _ _) => inferInstanceAs (Decidable (∀ _ ∈ s.db.cases, _))
  | .settle worker _ .done => inferInstanceAs (Decidable ((s.cycles worker).leavesCompleted s.db))
  | .mutate _ (.resolveManualDelivery _ _ _ _ _) | .mutate _ (.pauseForDispute _ _ _)
    | .mutate _ (.cancel _ _) | .initiateCheck _ _ _ _ _ _ | .resumeCheck _ _ _ _ _
    | .queueFinalCheck _ _ _ _ _ _ _ | .findPausable _ _ _ _ _ | .commit _ _ _ | .rollback _
    | .lease _ _ _ | .check _ | .dispatch _ _ | .settle _ _ .refused | .crash _ => isTrue trivial

def Tables.Closed (db db' : Tables) : Prop :=
  ∀ row ∈ db.cases, row.status.terminal →
    ∃ row' ∈ db'.cases, row'.caseRef = row.caseRef ∧ row'.status = row.status

theorem closed_of_subset (h : ∀ row ∈ db.cases, row ∈ db'.cases) : db.Closed db' :=
  fun row hrow _ => ⟨row, h row hrow, rfl, rfl⟩

theorem closed_of_touches {p : AdverseCase → Bool} {w : Write}
    (h : Touches db db' p w queued events)
    (hmoved : ∀ row ∈ db.cases, p row → row.status.terminal → (w.apply row).status = row.status) :
    db.Closed db' := by
  intro row hrow hterminal
  rw [h.cases]
  cases hp : p row with
  | true =>
    refine ⟨w.apply row, mem_updateWhere.mpr (.inl ⟨row, hrow, hp, rfl⟩), ?_,
      hmoved row hrow hp hterminal⟩
    exact (sameCase_apply w row).caseRef
  | false => exact ⟨row, mem_updateWhere_of_not hrow (by simp [hp]), rfl, rfl⟩

/-- The converse for the one case of a transaction. -/
theorem status_of_closed {caseRef : String} {w : Write} (hkeyed : db.Keyed)
    (h : Touches db db' (onCase caseRef) w queued events) (hclosed : db.Closed db')
    (hrow : row ∈ db.cases) (hcase : row.caseRef = caseRef) (hterminal : row.status.terminal) :
    (w.apply row).status = row.status := by
  obtain ⟨row', hrow', href, hstatus⟩ := hclosed row hrow hterminal
  have hmoved : w.apply row ∈ db'.cases := by
    rw [h.cases]
    exact mem_updateWhere.mpr (.inl ⟨row, hrow, beq_iff_eq.mpr hcase, rfl⟩)
  have hsame := (sameCase_apply w row).caseRef.trans href.symm
  rw [inj_on_of_nodup_map (h.keyed hkeyed).cases hmoved hrow' hsame]
  exact hstatus

theorem not_terminal_of_active {status : CaseStatus} (h : status.active) :
    status.terminal = false := by
  cases status <;> first | rfl | cases h

theorem closed_of_pauses {p : AdverseCase → Bool} {now : Nat} (h : Paused db db' p now events)
    (hactive : ∀ row, p row → row.status.active) : db.Closed db' := by
  refine closed_of_touches h.touches ?_
  intro row _ hp hterminal
  rw [not_terminal_of_active (hactive row hp)] at hterminal
  cases hterminal

theorem closed_of_step {a : OfficeStep} (hs : s.Ok) (hC : LeavesClosedAlone s a)
    (hstep : officeStep s a = some t) : s.db.Closed t.db := by
  cases officeTakes_of_step hs.keyed hstep with
  | @recorded now caseRef tenantId deliveryId status d db' _ _ hd hid hcase htouch =>
    refine closed_of_touches htouch ?_
    intro row hrow hsame hterminal
    obtain ⟨hcompleted, rfl, d', hd', hid', hfinal⟩ := hC row hrow (beq_iff_eq.mp hsame) hterminal
    obtain rfl := delivery_eq hs.keyed hd hd' (hid.trans hid'.symm)
    rw [hcompleted, hfinal]
    rfl
  | resolved _ _ hrow href hstatus _ _ _ _ htouch =>
    refine closed_of_touches htouch ?_
    intro other hother hsame hterminal
    obtain rfl := hs.keyed.eq_of_onCase hrow href hother hsame
    rcases hstatus with hstatus | hstatus <;>
      · rw [hstatus] at hterminal
        cases hterminal
  | paused _ _ _ _ _ hpaused =>
    refine closed_of_pauses hpaused ?_
    intro row hp
    simp only [Tables.pausable, Bool.and_eq_true] at hp
    exact hp.2.2
  | canceled _ _ hrow href hopen htouch =>
    refine closed_of_touches htouch ?_
    intro other hother hsame hterminal
    obtain rfl := hs.keyed.eq_of_onCase hrow href hother hsame
    rw [hopen] at hterminal
    cases hterminal
  | initiating | resuming | queueing | found | rolledBack | turned =>
    exact closed_of_subset fun _ hrow => hrow
  | leased => exact closed_of_subset fun _ hrow => hrow
  | initiated _ _ hinit =>
    exact closed_of_subset fun row hrow => hinit.cases ▸ mem_append_left _ hrow
  | @resumed _ _ _ _ row _ _ hwork hresumes =>
    obtain ⟨hrow, hpaused, -, -⟩ := hs.current _ (session?_mem hwork)
    have hnever : ∀ other ∈ s.db.cases, onCase row.caseRef other → other.status.terminal →
        False := by
      intro other hother hsame hterminal
      obtain rfl := hs.keyed.eq_of_onCase hrow rfl hother hsame
      rw [hpaused] at hterminal
      cases hterminal
    cases hresumes with
    | requeued _ _ _ _ _ _ _ _ htouch | continued _ _ _ htouch =>
      exact closed_of_touches htouch fun other hother hsame hterminal =>
        (hnever other hother hsame hterminal).elim
  | queued _ hwork htouch =>
    obtain ⟨row, hrow, href, hwaiting, -⟩ := hs.current _ (session?_mem hwork)
    refine closed_of_touches htouch ?_
    intro other hother hsame hterminal
    obtain rfl := hs.keyed.eq_of_onCase hrow href hother hsame
    rw [hwaiting] at hterminal
    cases hterminal
  | opened _ _ _ hpaused =>
    refine closed_of_pauses hpaused ?_
    intro row hp
    simp only [Tables.pausable, Bool.and_eq_true] at hp
    exact hp.1.2.2
  | settled _ hquiet _ => exact closed_of_subset fun row hrow => hquiet.cases ▸ hrow
  | @delivered worker now event rest row d db' _ hcycle _ hrow href hsame htype hd hid hcase
      hqueued htouch =>
      refine closed_of_touches htouch ?_
      intro other hother hother' hterminal
      obtain rfl := hs.keyed.eq_of_onCase hrow href hother hother'
      have hcompleted : other.status = .completed := by
        cases hstatus : other.status <;> simp_all [Tables.stateChanged, CaseStatus.terminal]
      have hnotice : event.noticeType = .finalAdverse := by
        cases hpre : event.noticeType with
        | finalAdverse => rfl
        | preAdverse =>
          rw [LeavesClosedAlone, hcycle] at hC
          exact absurd hcompleted (hC hpre ⟨d, hd, hid, hcase, hqueued⟩ other hother href)
        | undeliverable | disputeHold | disputeResult =>
          rw [hpre] at htype
          cases htype
      rw [hcompleted, hnotice]
      rfl
  | deadLettered _ _ _ _ htouch =>
    refine closed_of_touches htouch ?_
    intro row _ hmoved hterminal
    have hopen := (Bool.and_eq_true_iff.mp hmoved).2
    rw [hterminal] at hopen
    cases hopen

/-! ### The converse -/

/-- A pre-adverse notice of a completed case is marked as any other is. -/
theorem markDelivered_completed (hs : s.Ok) {event : LeasedNotice} {d : Delivery} (now : Nat)
    (hrow : row ∈ s.db.cases) (hcase : row.caseRef = event.caseRef)
    (hcompleted : row.status = .completed) (hpre : event.noticeType = .preAdverse)
    (hd : d ∈ s.db.deliveries) (hid : d.id = event.deliveryId) (hown : d.caseRef = event.caseRef)
    (hqueued : d.status = .queued) :
    ∃ db', s.db.markDelivered event now = .ok db' ∧
      Touches s.db db' (onCase event.caseRef) (.startWaiting now) []
        [⟨event.caseRef, .preNoticeDelivered, now⟩] := by
  have hlookup : lookup AdverseCase.caseRef event.caseRef s.db.cases = some row :=
    (lookup_eq_some_iff hs.keyed.cases).mpr ⟨hrow, hcase⟩
  have hfind : (s.db.deliveries.find? fun other =>
      other.id == event.deliveryId && other.caseRef == event.caseRef) = some d := by
    have hnodup : (s.db.deliveries.map Delivery.id).Nodup := by
      have hids := hs.keyed.notices
      rw [Tables.notices, map_map] at hids
      exact hids
    have hkey := find?_of_key hnodup hd fun other => other.caseRef == event.caseRef
    rw [hid, if_pos (beq_iff_eq.mpr hown)] at hkey
    exact hkey
  have hquiet := (quiet_setOutbox s.db (fun o => o.id == event.id && o.state == .leased)
    .delivered).trans (quiet_setDeliveries _ (fun d => d.id == event.deliveryId) .delivered)
  have hchecks : ∀ other ∈ s.db.cases, onCase event.caseRef other →
      (other.startWaiting now).checks := by
    intro other hother hsame
    obtain rfl := inj_on_of_nodup_map hs.keyed.cases hother hrow
      ((beq_iff_eq.mp hsame).trans hcase.symm)
    have hold := hs.checked other hother
    rw [AdverseCase.checks, hcompleted] at hold
    exact hold
  have hunchanged : ¬ (d.status ≠ .queued ∨ Tables.stateChanged row.status = true) := by
    rw [hqueued, hcompleted]
    decide
  unfold Tables.markDelivered
  rw [hlookup, hfind]
  dsimp only
  rw [if_neg hunchanged, hpre]
  generalize hmid : (s.db.setOutbox (fun o => o.id == event.id && o.state == .leased)
    .delivered).setDeliveries (fun d => d.id == event.deliveryId) .delivered = mid at hquiet ⊢
  obtain ⟨moved, hmoved⟩ : ∃ moved, mid.updateCase event.caseRef (.startWaiting now) = .ok moved := by
    refine ⟨_, if_pos (all_eq_true.mpr ?_)⟩
    intro other hother
    obtain ⟨hmem, hsame⟩ := mem_filter.mp hother
    exact hchecks other (hquiet.cases ▸ hmem) hsame
  refine ⟨moved.appendEvent event.caseRef .preNoticeDelivered now, ?_, ?_⟩
  · unfold Tables.advance
    dsimp only
    rw [hmoved]
    rfl
  · exact touches_of_update hquiet hmoved rfl rfl rfl

/-- So the worker's transaction takes the case back to waiting. -/
theorem settle_completed (hs : s.Ok) {worker now : Nat} {event : LeasedNotice}
    {rest : List LeasedNotice} {d : Delivery}
    (hcycle : s.cycles worker = .working .delivering event rest)
    (hrow : row ∈ s.db.cases) (hcase : row.caseRef = event.caseRef)
    (hcompleted : row.status = .completed) (hpre : event.noticeType = .preAdverse)
    (hd : d ∈ s.db.deliveries) (hid : d.id = event.deliveryId) (hown : d.caseRef = event.caseRef)
    (hqueued : d.status = .queued) (hstep : officeStep s (.settle worker now .done) = some t) :
    Touches s.db t.db (onCase event.caseRef) (.startWaiting now) []
      [⟨event.caseRef, .preNoticeDelivered, now⟩] := by
  obtain ⟨db', hok, htouch⟩ :=
    markDelivered_completed hs now hrow hcase hcompleted hpre hd hid hown hqueued
  have hdb : t.db = db' := by
    simp only [officeStep, Office.settle, hcycle, Phase.statement, hok] at hstep
    split at hstep
    · cases hstep
    · split at hstep
      · cases hstep
      · rw [← Option.some.inj hstep]
        rfl
  rw [hdb]
  exact htouch

theorem leavesClosedAlone_of_closed {a : OfficeStep} (hs : s.Ok)
    (hstep : officeStep s a = some t) (hclosed : s.db.Closed t.db) : LeavesClosedAlone s a := by
  cases a with
  | mutate now m =>
    cases m with
    | recordDelivery caseRef tenantId deliveryId status =>
      intro row hrow hcase hterminal
      cases officeTakes_of_step hs.keyed hstep with
      | @recorded _ _ _ _ _ d db' _ _ hd hid _ htouch =>
        have hkept := status_of_closed hs.keyed htouch hclosed hrow hcase hterminal
        unfold recordedWrite at hkept
        split at hkept
        next hdelivered =>
          unfold deliveredWrite at hkept
          split at hkept
          · change CaseStatus.waiting = row.status at hkept
            rw [← hkept] at hterminal
            cases hterminal
          next hne =>
            have hfinal : d.noticeType = .finalAdverse := by
              cases htype : d.noticeType <;>
                simp_all [NoticeType.adverse]
            exact ⟨hkept.symm, hdelivered.1, d, hd, hid, hfinal⟩
        · change status.case = row.status at hkept
          rw [← hkept] at hterminal
          cases status <;> cases hterminal
      | turned hworker => cases hworker
    | resolveManualDelivery | pauseForDispute | cancel => trivial
  | settle worker now answer =>
    cases answer with
    | done =>
      change (s.cycles worker).leavesCompleted s.db
      unfold Cycle.leavesCompleted
      split
      case h_2 => trivial
      rename_i event rest hcycle
      rintro hpre ⟨d, hd, hid, hown, hqueued⟩ row hrow hcase hcompleted
      have htouch :=
        settle_completed hs hcycle hrow hcase hcompleted hpre hd hid hown hqueued hstep
      have hkept := status_of_closed hs.keyed htouch hclosed hrow hcase (by rw [hcompleted]; rfl)
      change CaseStatus.waiting = row.status at hkept
      rw [hcompleted] at hkept
      cases hkept
    | refused => trivial
  | initiateCheck | resumeCheck | queueFinalCheck | findPausable | commit | rollback | lease
    | check | dispatch | crash => trivial

/-- The statuses completed and canceled are never left in exactly the runs that
leave closed cases alone, and in the runs that lose no time every completed case
has its notices and its wait in order. -/
theorem workflow_in_order (labels : List OfficeStep) :
    (Meets officeStep KeepsClosed .empty labels ↔
        Meets officeStep LeavesClosedAlone .empty labels) ∧
      (Meets officeStep LosesNoTime .empty labels →
        Always officeStep (fun s => s.db.CompletedInOrder) .empty labels) := by
  have hinv : ∀ s a t, Office.Ok s → officeStep s a = some t → t.Ok :=
    fun s a t hs hstep => ok_of_step hs hstep
  have hexact : ∀ s a t, Office.Ok s → True → officeStep s a = some t →
      ((KeepsClosed s a ∧ True) ↔ LeavesClosedAlone s a) := by
    intro s a t hs _ hstep
    constructor
    · rintro ⟨hkeeps, _⟩
      exact leavesClosedAlone_of_closed hs hstep (hkeeps t hstep)
    · intro hC
      refine ⟨?_, trivial⟩
      intro t' hstep'
      exact closed_of_step hs hC hstep'
  have hiff := meets_and_always_iff_meets labels hinv hexact ok_empty trivial
  refine ⟨⟨fun h => hiff.mp ⟨h, ?_⟩, fun h => (hiff.mpr h).1⟩, completedInOrder_of_meets labels⟩
  exact always_of_step labels (fun _ _ _ _ _ => trivial) trivial

/-- No two transactions hold one case, and their reads stand. -/
theorem transactions_apart (labels : List OfficeStep) :
    Always officeStep Office.Ok .empty labels :=
  always_of_step labels (fun _ _ _ => ok_of_step) ok_empty

/-! ### A canceled case that waits again, and a wait cut short -/

def sampleInput : Tables.InitiateInput :=
  { caseRef := "BIS-AA-1", tenantId := 7, screeningOrderId := 1, reportSnapshotId := 1
    candidateId := 9, waitingPeriodDays := 5, channel := .manual }

def initiateSample : List OfficeStep :=
  [.initiateCheck 0 0 sampleInput true false true, .commit 0 0 ⟨1, 1⟩]

/-- The notice is left to manual delivery, and the case is canceled. -/
def canceledRun : List OfficeStep :=
  initiateSample ++
    [.mutate 0 (.recordDelivery "BIS-AA-1" 7 1 .manualRequired), .mutate 0 (.cancel "BIS-AA-1" 7)]

/-- The hand delivery is recorded after all. -/
def lateDelivery : OfficeStep := .mutate 0 (.recordDelivery "BIS-AA-1" 7 1 .delivered)

/-- Paused 0.6 s after the wait has begun and resumed at once. -/
def hastyRun : List OfficeStep :=
  initiateSample ++
    [.mutate 0 (.recordDelivery "BIS-AA-1" 7 1 .delivered),
      .mutate 600000 (.pauseForDispute "BIS-AA-1" 7 true),
      .resumeCheck 0 600000 "BIS-AA-1" 7 false, .commit 0 600000 ⟨2, 2⟩,
      .queueFinalCheck 0 431999600000 "BIS-AA-1" 7 .manual false true,
      .commit 0 431999600000 ⟨2, 2⟩,
      .mutate 431999600000 (.recordDelivery "BIS-AA-1" 7 2 .delivered)]

/-- The canceled case waits again, and the hasty one is completed 0.4 s early. -/
theorem closed_case_reopens :
    ¬ Meets officeStep KeepsClosed .empty (canceledRun ++ [lateDelivery]) ∧
      ¬ Always officeStep (fun s => s.db.CompletedInOrder) .empty hastyRun := by
  have hcanceled : (run officeStep .empty canceledRun).map (fun s =>
      (s.db.cases.map AdverseCase.status, (officeStep s lateDelivery).map fun t =>
        t.db.cases.map AdverseCase.status)) =
      some ([.canceled], some [.waiting]) := by decide
  have hhasty : (run officeStep .empty hastyRun).map (fun s =>
      (s.db.cases.map AdverseCase.status, s.db.cases.all fun row =>
        decide (InOrder row.caseRef row.waitingPeriodDays s.db.events))) =
      some ([.completed], false) := by decide
  constructor
  · intro h
    obtain ⟨s, hs, hresult⟩ := Option.map_eq_some_iff.mp hcanceled
    obtain ⟨hbefore, hstep⟩ := Prod.mk.inj hresult
    obtain ⟨t, ht, hafter⟩ := Option.map_eq_some_iff.mp hstep
    have hclosed := ((h.append hs) t ht).1 t ht
    obtain ⟨row, hrows, hstatus⟩ := map_eq_singleton_iff.mp hbefore
    obtain ⟨row', hrows', hstatus'⟩ := map_eq_singleton_iff.mp hafter
    obtain ⟨kept, hkept, -, hsame⟩ := hclosed row (hrows ▸ mem_cons_self) (hstatus ▸ rfl)
    rw [hrows', mem_singleton] at hkept
    rw [hkept, hstatus', hstatus] at hsame
    cases hsame
  · intro h
    obtain ⟨s, hs, hresult⟩ := Option.map_eq_some_iff.mp hhasty
    obtain ⟨hcompleted, hnot⟩ := Prod.mk.inj hresult
    have horder := h.finish hs
    obtain ⟨row, hrows, hstatus⟩ := map_eq_singleton_iff.mp hcompleted
    have hinorder := horder row (hrows ▸ mem_cons_self) hstatus
    rw [hrows] at hnot
    simp [hinorder] at hnot

/-- The same case, with whole seconds left when it is paused. -/
def properRun : List OfficeStep :=
  initiateSample ++
    [.mutate 0 (.recordDelivery "BIS-AA-1" 7 1 .delivered),
      .mutate 3000000 (.pauseForDispute "BIS-AA-1" 7 true),
      .resumeCheck 0 9000000 "BIS-AA-1" 7 false, .commit 0 9000000 ⟨2, 2⟩,
      .queueFinalCheck 0 432006000000 "BIS-AA-1" 7 .manual false true,
      .commit 0 432006000000 ⟨2, 2⟩,
      .mutate 432006000000 (.recordDelivery "BIS-AA-1" 7 2 .delivered)]

theorem proper_run_in_order :
    ((run officeStep .empty properRun).map fun s => s.db.cases.map AdverseCase.status) =
        some [.completed] ∧
      Meets officeStep KeepsClosed .empty properRun ∧
      Always officeStep (fun s => s.db.CompletedInOrder) .empty properRun := by
  refine ⟨by decide, (workflow_in_order properRun).1.mpr ?_,
    (workflow_in_order properRun).2 ?_⟩
  · decide
  · decide

end Bis.Adverse
