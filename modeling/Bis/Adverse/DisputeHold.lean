import Bis.Adverse.Closed
import Bis.Disputes.Steps

/-!
The dispute desk and the adverse-action workflow of the same candidates. An open
dispute is to keep every case of its candidate on hold: no case is active, and none
moves on to its final notice or to completion. Disputes are opened and adverse
actions checked in transactions of their own, so what a check has found may have
changed when its transaction commits.
-/

namespace Bis.Adverse

open Bis.Relation Bis.Transition

variable {db db' : Tables} {s t : Office} {row : AdverseCase} {queued : List Notice}
  {events : List AdverseEvent}

/-! ### Cases on hold -/

/-- For which candidates of which tenants a dispute is open. -/
abbrev Disputed := Int → Nat → Bool

def AdverseCase.disputed (D : Disputed) (row : AdverseCase) : Bool :=
  D row.tenantId row.candidateId

variable {D : Disputed}

/-- No case of a candidate with an open dispute is active. -/
def Tables.OnHold (D : Disputed) (db : Tables) : Prop :=
  ∀ row ∈ db.cases, row.status.active → row.disputed D = false

/-- The statuses that an open dispute keeps a case from. -/
def CaseStatus.final (status : CaseStatus) : Bool :=
  status == .finalNoticeQueued || status == .completed

/-- No such case has moved on to its end. -/
def Tables.NoneMovesOn (D : Disputed) (db db' : Tables) : Prop :=
  ∀ row' ∈ db'.cases, row'.status.final → row'.disputed D →
    ∃ row ∈ db.cases, row.caseRef = row'.caseRef ∧ row.status = row'.status

/-- Both, for one step. -/
structure Tables.Held (D : Disputed) (db db' : Tables) : Prop where
  onHold : db'.OnHold D
  noneMovesOn : Tables.NoneMovesOn D db db'

theorem disputed_apply (w : Write) (row : AdverseCase) :
    (w.apply row).disputed D = row.disputed D := by
  cases w <;> rfl

variable {p : AdverseCase → Bool} {noticeType : NoticeType}

/-- The writes of a step, case by case. -/
theorem held_of_touches {w : Write} (hP : db.OnHold D) (h : Touches db db' p w queued events)
    (hmoved : ∀ row ∈ db.cases, p row → row.disputed D → (w.apply row).status.active = false ∧
      ((w.apply row).status.final → (w.apply row).status = row.status)) : Tables.Held D db db' := by
  constructor
  · intro row hrow hactive
    rw [h.cases] at hrow
    rcases mem_updateWhere.mp hrow with ⟨old, hold, hp, rfl⟩ | ⟨hold, -⟩
    · rw [disputed_apply, Bool.eq_false_iff]
      intro hdisputed
      rw [(hmoved old hold hp hdisputed).1] at hactive
      cases hactive
    · exact hP row hold hactive
  · intro row hrow hfinal hdisputed
    rw [h.cases] at hrow
    rcases mem_updateWhere.mp hrow with ⟨old, hold, hp, rfl⟩ | ⟨hold, -⟩
    · rw [disputed_apply] at hdisputed
      exact ⟨old, hold, (sameCase_apply w old).caseRef.symm,
        ((hmoved old hold hp hdisputed).2 hfinal).symm⟩
    · exact ⟨row, hold, rfl, rfl⟩

/-- The converse for the case that a step writes to. -/
theorem status_of_held {caseRef : String} {w : Write} (hkeyed : db.Keyed)
    (h : Touches db db' (onCase caseRef) w queued events) (hheld : Tables.Held D db db')
    (hrow : row ∈ db.cases) (hcase : row.caseRef = caseRef) (hdisputed : row.disputed D) :
    (w.apply row).status.active = false ∧
      ((w.apply row).status.final → (w.apply row).status = row.status) := by
  have hmoved : w.apply row ∈ db'.cases := by
    rw [h.cases]
    exact mem_updateWhere.mpr (.inl ⟨row, hrow, beq_iff_eq.mpr hcase, rfl⟩)
  have hstill : (w.apply row).disputed D := by
    rw [disputed_apply]
    exact hdisputed
  constructor
  · rw [Bool.eq_false_iff]
    intro hactive
    rw [hheld.onHold _ hmoved hactive] at hstill
    cases hstill
  · intro hfinal
    obtain ⟨old, hold, href, hstatus⟩ := hheld.noneMovesOn _ hmoved hfinal hstill
    have hsame := href.trans (sameCase_apply w row).caseRef
    obtain rfl := List.inj_on_of_nodup_map hkeyed.cases hold hrow hsame
    exact hstatus.symm

theorem held_of_subset (hP : db.OnHold D) (h : ∀ row ∈ db'.cases, row ∈ db.cases) :
    Tables.Held D db db' :=
  ⟨fun row hrow => hP row (h row hrow), fun row hrow _ _ => ⟨row, h row hrow, rfl, rfl⟩⟩

theorem held_of_pauses {now : Nat} (hP : db.OnHold D) (h : Paused db db' p now events) :
    Tables.Held D db db' :=
  held_of_touches hP h.touches fun _ _ _ _ => ⟨rfl, nofun⟩

/-! ### The steps of the workflow -/

/-- What a worker marks as delivered does not wake a completed case. -/
def Cycle.leavesDisputed (D : Disputed) (db : Tables) : Cycle → Prop
  | .working .delivering event _ =>
    event.noticeType = .preAdverse →
    (∃ d ∈ db.deliveries, d.id = event.deliveryId ∧ d.caseRef = event.caseRef ∧
      d.status = .queued) →
    ∀ row ∈ db.cases, row.caseRef = event.caseRef → row.status = .completed →
      row.disputed D = false
  | _ => True

/-- A commit that makes a case active finds no dispute open. -/
def Work.leavesDisputed (D : Disputed) : Work → Prop
  | .initiating input _ => input.row.disputed D = false
  | .resuming row _ => row.disputed D = false
  | .queueing _ _ _ | .pausing _ _ _ _ _ => True

/-- No operation moves a case of a candidate with an open dispute; a final notice
of a completed case may be recorded as delivered once more. -/
def LeavesDisputedAlone (D : Disputed) (s : Office) : OfficeStep → Prop
  | .mutate _ (.recordDelivery caseRef _ deliveryId .delivered) =>
    ∀ row ∈ s.db.cases, row.caseRef = caseRef → row.disputed D →
      ∀ d ∈ s.db.deliveries, d.id = deliveryId → d.noticeType.adverse →
        d.noticeType = .finalAdverse ∧ row.status = .completed
  | .mutate _ (.resolveManualDelivery caseRef _ _ _ _) =>
    ∀ row ∈ s.db.cases, row.caseRef = caseRef → row.disputed D = false
  | .settle worker _ .done => (s.cycles worker).leavesDisputed D s.db
  | .commit session _ _ => ∀ work ∈ s.session? session, work.leavesDisputed D
  | _ => True

/-- What a recorded or marked delivery does to a disputed case. -/
theorem delivered_of_completed {now : Nat} (hfinal : noticeType = .finalAdverse)
    (hcompleted : row.status = .completed) :
    ((deliveredWrite noticeType now).apply row).status.active = false ∧
      (((deliveredWrite noticeType now).apply row).status.final →
        ((deliveredWrite noticeType now).apply row).status = row.status) := by
  subst hfinal
  exact ⟨rfl, fun _ => hcompleted.symm⟩

theorem active_queuedStatus (noticeType : NoticeType) : (queuedStatus noticeType).active := by
  unfold queuedStatus
  split <;> rfl

theorem active_of_pausedNotice {pausedFrom : CaseStatus}
    (h : Tables.pausedNotice pausedFrom = some noticeType) : pausedFrom.active := by
  cases pausedFrom with
  | preNoticeQueued | finalNoticeQueued => rfl
  | preNoticeDelivered | waiting | pausedForDispute | completed | undeliverable | manualDelivery
    | canceled => cases h

theorem held_of_officeStep {a : OfficeStep} (hs : s.Ok) (hP : s.db.OnHold D)
    (hC : LeavesDisputedAlone D s a) (hstep : officeStep s a = some t) :
    Tables.Held D s.db t.db := by
  cases officeTakes_of_step hs.keyed hstep with
  | @recorded now caseRef tenantId deliveryId status d db' _ _ hd hid hcase htouch =>
    refine held_of_touches hP htouch ?_
    intro row hrow hsame hdisputed
    unfold recordedWrite
    split
    next hdelivered =>
      obtain ⟨rfl, hadverse⟩ := hdelivered
      obtain ⟨hfinal, hcompleted⟩ :=
        hC row hrow (beq_iff_eq.mp hsame) hdisputed d hd hid hadverse
      exact delivered_of_completed hfinal hcompleted
    · cases status <;> exact ⟨rfl, nofun⟩
  | resolved _ _ hrow href _ _ _ _ _ htouch =>
    refine held_of_touches hP htouch ?_
    intro other hother hsame hdisputed
    rw [hC other hother (beq_iff_eq.mp hsame)] at hdisputed
    cases hdisputed
  | paused _ _ _ _ _ hpaused => exact held_of_pauses hP hpaused
  | canceled _ _ _ _ _ htouch =>
    exact held_of_touches hP htouch fun _ _ _ _ => ⟨rfl, nofun⟩
  | initiating | resuming | queueing | found | rolledBack | turned =>
    exact held_of_subset hP fun _ hrow => hrow
  | leased => exact held_of_subset hP fun _ hrow => hrow
  | @initiated session now startedAt ids input db' _ hwork hinit =>
    have hfree : input.row.disputed D = false := hC _ hwork
    constructor
    · intro row hrow hactive
      rw [hinit.cases] at hrow
      rcases mem_concat.mp hrow with hold | rfl
      · exact hP row hold hactive
      · exact hfree
    · intro row hrow hfinal _
      rw [hinit.cases] at hrow
      rcases mem_concat.mp hrow with hold | rfl
      · exact ⟨row, hold, rfl, rfl⟩
      · cases hfinal
  | @resumed session now startedAt ids row db' _ hwork hresumes =>
    obtain ⟨hrow, hpaused, -, -⟩ := hs.current _ (session?_mem hwork)
    have hnever : ∀ other ∈ s.db.cases, onCase row.caseRef other → other.disputed D → False := by
      intro other hother hsame hdisputed
      obtain rfl := hs.keyed.eq_of_onCase hrow rfl hother hsame
      have hfree : other.disputed D = false := hC _ hwork
      rw [hfree] at hdisputed
      cases hdisputed
    cases hresumes with
    | requeued _ _ _ _ _ _ _ _ htouch | continued _ _ _ htouch =>
      exact held_of_touches hP htouch fun other hother hsame hdisputed =>
        (hnever other hother hsame hdisputed).elim
  | queued _ hwork htouch =>
    obtain ⟨row, hrow, href, hwaiting, -⟩ := hs.current _ (session?_mem hwork)
    refine held_of_touches hP htouch ?_
    intro other hother hsame hdisputed
    obtain rfl := hs.keyed.eq_of_onCase hrow href hother hsame
    rw [hP other hother (hwaiting ▸ rfl)] at hdisputed
    cases hdisputed
  | opened _ _ _ hpaused => exact held_of_pauses hP hpaused
  | settled _ hquiet _ => exact held_of_subset hP fun row hrow => hquiet.cases ▸ hrow
  | @delivered worker now event rest row d db' _ hcycle _ hrow href hsame htype hd hid hcase
      hqueued htouch =>
      refine held_of_touches hP htouch ?_
      intro other hother hother' hdisputed
      obtain rfl := hs.keyed.eq_of_onCase hrow href hother hother'
      have hcompleted : other.status = .completed := by
        cases hstatus : other.status with
        | completed => rfl
        | preNoticeQueued | preNoticeDelivered | waiting | finalNoticeQueued =>
          rw [hP other hother (hstatus ▸ rfl)] at hdisputed
          cases hdisputed
        | pausedForDispute | undeliverable | manualDelivery | canceled =>
          rw [hstatus] at hsame
          cases hsame
      cases hnotice : event.noticeType with
      | finalAdverse => exact delivered_of_completed rfl hcompleted
      | preAdverse =>
        rw [LeavesDisputedAlone, hcycle] at hC
        rw [hC hnotice ⟨d, hd, hid, hcase, hqueued⟩ other hother href hcompleted] at hdisputed
        cases hdisputed
      | undeliverable | disputeHold | disputeResult =>
        rw [hnotice] at htype
        cases htype
  | deadLettered _ _ _ _ htouch =>
    exact held_of_touches hP htouch fun _ _ _ _ => ⟨rfl, nofun⟩

/-- Each of the conditions is needed. -/
theorem leavesDisputedAlone_of_held {a : OfficeStep} (hs : s.Ok)
    (hstep : officeStep s a = some t) (hheld : Tables.Held D s.db t.db) :
    LeavesDisputedAlone D s a := by
  cases a with
  | mutate now m =>
    cases m with
    | recordDelivery caseRef tenantId deliveryId status =>
      cases status with
      | delivered =>
        intro row hrow hcase hdisputed d hd hid hadverse
        cases officeTakes_of_step hs.keyed hstep with
        | @recorded _ _ _ _ _ d' _ _ _ hd' hid' _ htouch =>
          obtain rfl := delivery_eq hs.keyed hd hd' (hid.trans hid'.symm)
          have hkept := status_of_held hs.keyed htouch hheld hrow hcase hdisputed
          rw [recordedWrite, if_pos ⟨rfl, hadverse⟩] at hkept
          cases hnotice : d.noticeType with
          | preAdverse =>
            rw [hnotice] at hkept
            cases hkept.1
          | finalAdverse =>
            rw [hnotice] at hkept
            exact ⟨rfl, (hkept.2 rfl).symm⟩
          | undeliverable | disputeHold | disputeResult =>
            rw [hnotice] at hadverse
            cases hadverse
        | turned hworker => cases hworker
      | undeliverable | manualRequired => trivial
    | resolveManualDelivery caseRef tenantId deliveryId channel ids =>
      intro row hrow hcase
      rw [Bool.eq_false_iff]
      intro hdisputed
      cases officeTakes_of_step hs.keyed hstep with
      | @resolved _ _ _ _ _ _ _ source _ _ _ _ _ _ _ _ _ _ htouch =>
        have hkept := status_of_held hs.keyed htouch hheld hrow hcase hdisputed
        have hactive := active_queuedStatus source.noticeType
        exact Bool.false_ne_true (hkept.1.symm.trans hactive)
      | turned hworker => cases hworker
    | pauseForDispute | cancel => trivial
  | settle worker now answer =>
    cases answer with
    | done =>
      change (s.cycles worker).leavesDisputed D s.db
      unfold Cycle.leavesDisputed
      split
      case h_2 => trivial
      rename_i event rest hcycle
      rintro hpre ⟨d, hd, hid, hown, hqueued⟩ row hrow hcase hcompleted
      rw [Bool.eq_false_iff]
      intro hdisputed
      have htouch :=
        settle_completed hs hcycle hrow hcase hcompleted hpre hd hid hown hqueued hstep
      cases (status_of_held hs.keyed htouch hheld hrow hcase hdisputed).1
    | refused => trivial
  | commit session now ids =>
    intro work hwork
    have hsession := Option.mem_def.mp hwork
    cases officeTakes_of_step hs.keyed hstep with
    | @initiated _ _ _ _ input _ _ hwork' hinit =>
      obtain rfl := Option.some.inj (hsession.symm.trans hwork')
      refine hheld.onHold _ ?_ rfl
      rw [hinit.cases]
      exact List.mem_concat_self
    | @resumed _ _ _ _ row _ _ hwork' hresumes =>
      obtain rfl := Option.some.inj (hsession.symm.trans hwork')
      obtain ⟨hrow, -, -, -⟩ := hs.current _ (session?_mem hwork')
      change row.disputed D = false
      rw [Bool.eq_false_iff]
      intro hdisputed
      cases hresumes with
      | requeued pausedFrom _ _ _ hnotice _ _ _ htouch =>
        have hkept := status_of_held hs.keyed htouch hheld hrow rfl hdisputed
        have hactive := active_of_pausedNotice hnotice
        exact Bool.false_ne_true (hkept.1.symm.trans hactive)
      | continued _ _ _ htouch =>
        cases (status_of_held hs.keyed htouch hheld hrow rfl hdisputed).1
    | @queued _ _ _ _ _ _ _ _ hwork' _ | @opened _ _ _ _ _ _ _ _ _ _ _ hwork' _ _ =>
      obtain rfl := Option.some.inj (hsession.symm.trans hwork')
      trivial
    | turned hworker => cases hworker
  | initiateCheck | resumeCheck | queueFinalCheck | findPausable | rollback | lease | check
    | dispatch | crash => trivial

end Bis.Adverse
