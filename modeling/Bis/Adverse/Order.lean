import Bis.Adverse.Workflow

/-!
The order of the workflow: a case is completed only after its pre-adverse notice
has been delivered, it has waited for its period without the time it was paused,
its final notice has been queued and that notice has been delivered. The audit
events of the case tell this.

A part of a second can be lost in two places: the remaining wait is rounded when a
case is resumed, and a final notice may be queued up to a millisecond early.
-/

namespace Bis.Adverse

open Bis.Relation Bis.Transition List

variable {db db' : Tables} {s t : Office}

/-! ### The time waited -/

/-- The time waited before, and since when it runs. -/
structure Wait where
  before : Nat
  since : Option Nat

namespace Wait

def upTo (now : Nat) (w : Wait) : Nat := w.before + w.since.elim 0 fun since => now - since

def stop (now : Nat) (w : Wait) : Wait := { before := w.upTo now, since := none }

def start (now : Nat) (w : Wait) : Wait := { w with since := some now }

end Wait

/-- How long a case has waited since its pre-adverse notice was delivered. -/
def waitOf (caseRef : String) : List AdverseEvent → Option Wait
  | [] => none
  | event :: older =>
    if event.caseRef ≠ caseRef then waitOf caseRef older
    else
      match event.eventType with
      | .preNoticeDelivered => some { before := 0, since := some event.createdAt }
      | .pausedForDispute => (waitOf caseRef older).map (Wait.stop event.createdAt)
      | .resumed => (waitOf caseRef older).map (Wait.start event.createdAt)
      | _ => waitOf caseRef older

def AdverseEvent.movesWait (event : AdverseEvent) : Bool :=
  [.preNoticeDelivered, .pausedForDispute, .resumed].contains event.eventType

variable {caseRef : String} {now : Nat} {noticeType : NoticeType}

theorem waitOf_append {events : List AdverseEvent}
    (h : ∀ event ∈ events, event.caseRef = caseRef → event.movesWait = false)
    (older : List AdverseEvent) : waitOf caseRef (events ++ older) = waitOf caseRef older := by
  induction events with
  | nil => rfl
  | cons event rest ih =>
    have hrest := ih fun other hother => h other (mem_cons_of_mem _ hother)
    rw [cons_append, waitOf]
    split
    · exact hrest
    next hcase =>
      have hfirst := h event mem_cons_self (not_not.mp hcase)
      rw [AdverseEvent.movesWait] at hfirst
      cases htype : event.eventType <;> first | exact hrest | simp [htype] at hfirst

/-- Pauses at one instant stop the wait of each case they name. -/
theorem waitOf_pauses {events : List AdverseEvent}
    (hpauses : ∀ event ∈ events, event.eventType = .pausedForDispute ∧ event.createdAt = now)
    (hnamed : ∃ event ∈ events, event.caseRef = caseRef) (older : List AdverseEvent) :
    waitOf caseRef (events ++ older) = (waitOf caseRef older).map (Wait.stop now) := by
  induction events with
  | nil =>
    obtain ⟨event, hevent, _⟩ := hnamed
    cases hevent
  | cons event rest ih =>
    obtain ⟨htype, hnow⟩ := hpauses event mem_cons_self
    have hrest := fun other hother => hpauses other (mem_cons_of_mem _ hother)
    rw [cons_append, waitOf]
    by_cases hlater : ∃ other ∈ rest, other.caseRef = caseRef
    · rw [ih hrest hlater]
      split
      · rfl
      · rw [htype, Option.map_map]
        rfl
    · have hnone : waitOf caseRef (rest ++ older) = waitOf caseRef older := by
        refine waitOf_append ?_ older
        intro other hother hcase
        exact absurd ⟨other, hother, hcase⟩ hlater
      have hfirst : event.caseRef = caseRef := by
        obtain ⟨other, hother, hcase⟩ := hnamed
        rcases mem_cons.mp hother with rfl | hmem
        · exact hcase
        · exact absurd ⟨other, hmem, hcase⟩ hlater
      rw [if_neg (not_not.mpr hfirst), htype, hnone, hnow]

/-! ### The trail of a completed case -/

/-- The final notice was queued after the case had waited for its period. -/
def WaitedOut (caseRef : String) (days : Nat) : List AdverseEvent → Prop
  | [] => False
  | event :: older =>
    (event.caseRef = caseRef ∧ event.eventType = .finalNoticeQueued ∧
      ∃ w ∈ waitOf caseRef older, daysToMicroseconds days ≤ w.upTo event.createdAt) ∨
    WaitedOut caseRef days older

/-- And then the final notice was delivered. -/
def InOrder (caseRef : String) (days : Nat) : List AdverseEvent → Prop
  | [] => False
  | event :: older =>
    (event.caseRef = caseRef ∧ event.eventType = .finalNoticeDelivered ∧
      WaitedOut caseRef days older) ∨
    InOrder caseRef days older

instance decidableWaitedOut (caseRef : String) (days : Nat) :
    (events : List AdverseEvent) → Decidable (WaitedOut caseRef days events)
  | [] => isFalse id
  | _ :: older =>
    let _ := decidableWaitedOut caseRef days older
    inferInstanceAs (Decidable (_ ∨ _))

instance decidableInOrder (caseRef : String) (days : Nat) :
    (events : List AdverseEvent) → Decidable (InOrder caseRef days events)
  | [] => isFalse id
  | _ :: older =>
    let _ := decidableInOrder caseRef days older
    inferInstanceAs (Decidable (_ ∨ _))

theorem WaitedOut.append {days : Nat} {older : List AdverseEvent} (h : WaitedOut caseRef days older)
    (events : List AdverseEvent) : WaitedOut caseRef days (events ++ older) := by
  induction events with
  | nil => exact h
  | cons event rest ih => exact .inr ih

theorem InOrder.append {days : Nat} {older : List AdverseEvent} (h : InOrder caseRef days older)
    (events : List AdverseEvent) : InOrder caseRef days (events ++ older) := by
  induction events with
  | nil => exact h
  | cons event rest ih => exact .inr ih

def Tables.CompletedInOrder (db : Tables) : Prop :=
  ∀ row ∈ db.cases, row.status = .completed → InOrder row.caseRef row.waitingPeriodDays db.events

/-! ### The invariant -/

/-- What the trail says of a case. -/
structure AdverseCase.Trailed (row : AdverseCase) (notices : List Notice)
    (events : List AdverseEvent) : Prop where
  waiting : row.status = .waiting → ∃ e before since, row.finalNoticeEligibleAt = some e ∧
    waitOf row.caseRef events = some ⟨before, some since⟩ ∧
    daysToMicroseconds row.waitingPeriodDays ≤ before + (e - since)
  paused : row.status = .pausedForDispute → row.pausedFromStatus = some .waiting →
    ∃ e since before, row.finalNoticeEligibleAt = some e ∧ row.pausedAt = some since ∧
      waitOf row.caseRef events = some ⟨before, none⟩ ∧
      daysToMicroseconds row.waitingPeriodDays ≤ before + (e - since)
  statuses : row.status ≠ .preNoticeDelivered ∧ row.pausedFromStatus ≠ some .preNoticeDelivered
  final : ∀ notice ∈ notices, notice.caseRef = row.caseRef →
    notice.noticeType = .finalAdverse → WaitedOut row.caseRef row.waitingPeriodDays events
  completed : row.status = .completed → InOrder row.caseRef row.waitingPeriodDays events

structure Tables.Trailed (db : Tables) : Prop where
  owned : ∀ notice ∈ db.notices, ∃ row ∈ db.cases, row.caseRef = notice.caseRef
  cases : ∀ row ∈ db.cases, row.Trailed db.notices db.events

variable {row row' : AdverseCase} {notices queued : List Notice} {events older : List AdverseEvent}

/-- A final notice in the new lists has waited for, if it had in the old. -/
theorem final_append (h : row.Trailed notices older) (hsame : SameCase row row')
    (hqueued : ∀ notice ∈ queued, notice.caseRef = row.caseRef →
      notice.noticeType = .finalAdverse →
        WaitedOut row.caseRef row.waitingPeriodDays (events ++ older)) :
    ∀ notice ∈ notices ++ queued, notice.caseRef = row'.caseRef →
      notice.noticeType = .finalAdverse →
        WaitedOut row'.caseRef row'.waitingPeriodDays (events ++ older) := by
  intro notice hnotice hcase hfinal
  rw [hsame.caseRef] at hcase ⊢
  rw [hsame.waitingPeriodDays]
  rcases mem_append.mp hnotice with hold | hnew
  · exact (h.final notice hold hcase hfinal).append events
  · exact hqueued notice hnew hcase hfinal

/-- A case that a step does not write to. -/
theorem trailed_kept (h : row.Trailed notices older)
    (hevents : ∀ event ∈ events, event.caseRef = row.caseRef → event.movesWait = false)
    (hqueued : ∀ notice ∈ queued, notice.caseRef = row.caseRef →
      notice.noticeType = .finalAdverse →
        WaitedOut row.caseRef row.waitingPeriodDays (events ++ older)) :
    row.Trailed (notices ++ queued) (events ++ older) where
  waiting hstatus := by
    rw [waitOf_append hevents]
    exact h.waiting hstatus
  paused hstatus hfrom := by
    rw [waitOf_append hevents]
    exact h.paused hstatus hfrom
  statuses := h.statuses
  final := final_append h (sameCase_refl row) hqueued
  completed hstatus := (h.completed hstatus).append events

/-- Neither waiting nor on hold. -/
def CaseStatus.settled : CaseStatus → Bool
  | .waiting | .pausedForDispute | .preNoticeDelivered => false
  | _ => true

/-- A case that a step takes to a status in which it does not wait. -/
theorem trailed_settled (h : row.Trailed notices older) (hsame : SameCase row row')
    (hstatus : row'.status.settled)
    (hfrom : row'.pausedFromStatus = row.pausedFromStatus ∨ row'.pausedFromStatus = none)
    (hqueued : ∀ notice ∈ queued, notice.caseRef = row.caseRef →
      notice.noticeType = .finalAdverse →
        WaitedOut row.caseRef row.waitingPeriodDays (events ++ older))
    (hcompleted : row'.status = .completed →
      InOrder row.caseRef row.waitingPeriodDays (events ++ older)) :
    row'.Trailed (notices ++ queued) (events ++ older) := by
  refine ⟨?_, ?_, ⟨?_, ?_⟩, ?_, ?_⟩
  · intro hwaiting
    rw [hwaiting] at hstatus
    cases hstatus
  · intro hpaused
    rw [hpaused] at hstatus
    cases hstatus
  · intro hearly
    rw [hearly] at hstatus
    cases hstatus
  · rcases hfrom with hfrom | hfrom
    · rw [hfrom]
      exact h.statuses.2
    · rw [hfrom]
      nofun
  · exact final_append h hsame hqueued
  · rw [hsame.caseRef, hsame.waitingPeriodDays]
    exact hcompleted

/-- A case whose pre-adverse notice is delivered begins to wait. -/
theorem trailed_startWaiting (h : row.Trailed notices older) (now : Nat) :
    (row.startWaiting now).Trailed (notices ++ [])
      ([⟨row.caseRef, .preNoticeDelivered, now⟩] ++ older) := by
  refine ⟨?_, nofun, ⟨nofun, h.statuses.2⟩, ?_, nofun⟩
  · intro _
    refine ⟨now + daysToMicroseconds row.waitingPeriodDays, 0, now, rfl, ?_, ?_⟩
    · simp [waitOf, AdverseCase.startWaiting]
    · change daysToMicroseconds row.waitingPeriodDays ≤ _
      omega
  · exact final_append h (sameCase_apply (.startWaiting now) row) nofun

theorem trailed_pause (h : row.Trailed notices older)
    (hpauses : ∀ event ∈ events, event.eventType = .pausedForDispute ∧ event.createdAt = now)
    (hnamed : ∃ event ∈ events, event.caseRef = row.caseRef) :
    (row.pause row.status now).Trailed (notices ++ []) (events ++ older) := by
  refine ⟨nofun, ?_, ⟨nofun, ?_⟩,
    final_append h (sameCase_apply (.pause now) row) nofun, nofun⟩
  · intro _ hfrom
    obtain ⟨e, before, since, he, hwait, hfull⟩ := h.waiting (Option.some.inj hfrom)
    refine ⟨e, now, before + (now - since), he, rfl, ?_, ?_⟩
    · change waitOf row.caseRef (events ++ older) = _
      rw [waitOf_pauses hpauses hnamed, hwait]
      rfl
    · change daysToMicroseconds row.waitingPeriodDays ≤ _
      omega
  · intro hfrom
    exact h.statuses.1 (Option.some.inj hfrom)

/-- What is left of the wait is not less than it was. -/
def AdverseCase.losesNothing (row : AdverseCase) : Prop :=
  ∀ e ∈ row.finalNoticeEligibleAt, ∀ since ∈ row.pausedAt,
    e - since ≤ row.remainingSeconds * 1000000

instance : DecidablePred AdverseCase.losesNothing := fun _ => inferInstanceAs (Decidable (∀ _ ∈ _, _))

theorem trailed_continueWaiting (h : row.Trailed notices older) (now : Nat)
    (hstatus : row.status = .pausedForDispute) (hfrom : row.pausedFromStatus = some .waiting)
    (hloses : row.losesNothing) :
    (row.continueWaiting now).Trailed (notices ++ [])
      ([⟨row.caseRef, .resumed, now⟩] ++ older) := by
  refine ⟨?_, nofun, ⟨nofun, nofun⟩, ?_, nofun⟩
  · intro _
    obtain ⟨e, since, before, he, hat, hwait, hfull⟩ := h.paused hstatus hfrom
    refine ⟨now + row.remainingSeconds * 1000000, before, now, rfl, ?_, ?_⟩
    · change waitOf row.caseRef _ = _
      simp [waitOf, hwait, Wait.start]
    · have hleft := hloses e he since hat
      change daysToMicroseconds row.waitingPeriodDays ≤ _
      omega
  · exact final_append h (sameCase_apply (.continueWaiting now) row) nofun

/-! ### Steps -/

variable {p : AdverseCase → Bool} {pausedFrom : CaseStatus}

theorem trailed_of_touches {w : Write} (hdb : db.Trailed) (h : Touches db db' p w queued events)
    (howned : ∀ notice ∈ queued, ∃ row ∈ db.cases, row.caseRef = notice.caseRef)
    (hkept : ∀ row ∈ db.cases, p row = false → row.Trailed (db.notices ++ queued) (events ++
      db.events))
    (hmoved : ∀ row ∈ db.cases, p row → (w.apply row).Trailed (db.notices ++ queued) (events ++
      db.events)) : db'.Trailed := by
  constructor
  · intro notice hnotice
    have hbefore : ∃ row ∈ db.cases, row.caseRef = notice.caseRef := by
      rw [h.notices] at hnotice
      rcases mem_append.mp hnotice with hold | hnew
      · exact hdb.owned notice hold
      · exact howned notice hnew
    obtain ⟨row, hrow, hcase⟩ := hbefore
    rw [h.cases]
    cases hp : p row with
    | true =>
      refine ⟨w.apply row, mem_updateWhere.mpr (.inl ⟨row, hrow, hp, rfl⟩), ?_⟩
      exact (sameCase_apply w row).caseRef.trans hcase
    | false => exact ⟨row, mem_updateWhere_of_not hrow (by simp [hp]), hcase⟩
  · intro row hrow
    rw [h.notices, h.events]
    rw [h.cases] at hrow
    rcases mem_updateWhere.mp hrow with ⟨old, hold, hp, rfl⟩ | ⟨hold, hp⟩
    · exact hmoved old hold hp
    · exact hkept row hold (Bool.eq_false_iff.mpr hp)

/-- A transaction on one case. -/
theorem trailed_of_case {w : Write} (hdb : db.Trailed)
    (h : Touches db db' (onCase caseRef) w queued events)
    (hevents : ∀ event ∈ events, event.caseRef = caseRef)
    (hqueued : ∀ notice ∈ queued, notice.caseRef = caseRef)
    (hcase : ∃ row ∈ db.cases, row.caseRef = caseRef)
    (hmoved : ∀ row ∈ db.cases, row.caseRef = caseRef → row.Trailed db.notices db.events → (w.apply
      row).Trailed (db.notices ++ queued) (events ++ db.events)) : db'.Trailed := by
  refine trailed_of_touches hdb h ?_ ?_ ?_
  · intro notice hnotice
    rw [hqueued notice hnotice]
    exact hcase
  · intro row hrow hother
    have hne : row.caseRef ≠ caseRef := beq_eq_false_iff_ne.mp hother
    refine trailed_kept (hdb.cases row hrow) ?_ ?_
    · exact fun event hevent hsame => absurd (hsame.symm.trans (hevents event hevent)) hne
    · exact fun notice hnotice hsame => absurd (hsame.symm.trans (hqueued notice hnotice)) hne
  · intro row hrow hsame
    exact hmoved row hrow (beq_iff_eq.mp hsame) (hdb.cases row hrow)

theorem trailed_of_quiet (hdb : db.Trailed) (h : Quiet db db') : db'.Trailed := by
  constructor
  · intro notice hnotice
    obtain ⟨row, hrow, hcase⟩ := hdb.owned notice (h.notices ▸ hnotice)
    exact ⟨row, h.cases ▸ hrow, hcase⟩
  · intro row hrow
    have hkept := hdb.cases row (h.cases ▸ hrow)
    rw [← h.notices, ← h.events] at hkept
    exact hkept

theorem trailed_of_pauses (hkeyed : db.Keyed) (hdb : db.Trailed) (h : Paused db db' p now events) :
    db'.Trailed := by
  refine trailed_of_touches hdb h.touches nofun ?_ ?_
  · intro row hrow hp
    refine trailed_kept (hdb.cases row hrow) ?_ nofun
    intro event hevent hcase
    obtain ⟨other, hother, hpother, rfl⟩ := (h.exact event).mp hevent
    obtain rfl := inj_on_of_nodup_map hkeyed.cases hother hrow hcase
    rw [hp] at hpother
    cases hpother
  · intro row hrow hp
    refine trailed_pause (hdb.cases row hrow) ?_ ?_
    · intro event hevent
      obtain ⟨other, _, _, rfl⟩ := (h.exact event).mp hevent
      exact ⟨rfl, rfl⟩
    · exact ⟨_, (h.exact _).mpr ⟨row, hrow, hp, rfl⟩, rfl⟩

/-- A delivered notice moves its case on. -/
theorem trailed_delivered (hadverse : noticeType.adverse) (h : row.Trailed notices older)
    (hnotice : noticeType = .finalAdverse → ∃ notice ∈ notices, notice.caseRef = row.caseRef ∧
      notice.noticeType = .finalAdverse) :
    ((deliveredWrite noticeType now).apply row).Trailed (notices ++ [])
      (deliveredEvents row.caseRef noticeType now ++ older) := by
  cases noticeType with
  | preAdverse => exact trailed_startWaiting h now
  | finalAdverse =>
    obtain ⟨notice, hmem, hcase, hfinal⟩ := hnotice rfl
    refine trailed_settled h (sameCase_apply (.status .completed) row) rfl (.inl rfl) nofun ?_
    intro _
    exact .inr (.inl ⟨rfl, rfl, h.final notice hmem hcase hfinal⟩)
  | undeliverable | disputeHold | disputeResult => cases hadverse

theorem trailed_status {next : CaseStatus} (h : row.Trailed notices older)
    (hnext : next.settled) (hne : next ≠ .completed)
    (hqueued : ∀ notice ∈ queued, notice.caseRef = row.caseRef →
      notice.noticeType = .finalAdverse →
        WaitedOut row.caseRef row.waitingPeriodDays (events ++ older)) :
    ((Write.status next).apply row).Trailed (notices ++ queued) (events ++ older) :=
  trailed_settled h (sameCase_apply (.status next) row) hnext (.inl rfl) hqueued
    fun hcompleted => absurd hcompleted hne

theorem deliveredEvents_caseRef :
    ∀ event ∈ deliveredEvents caseRef noticeType now, event.caseRef = caseRef := by
  intro event hevent
  unfold deliveredEvents at hevent
  split at hevent
  · obtain rfl := mem_singleton.mp hevent
    rfl
  · rcases mem_cons.mp hevent with rfl | hrest
    · rfl
    · obtain rfl := mem_singleton.mp hrest
      rfl

def Work.losesNoTime (db : Tables) : Work → Prop
  | .resuming row _ => row.pausedFromStatus = some .waiting → row.losesNothing
  | .queueing caseRef _ startedAt =>
    ∀ row ∈ db.cases, row.caseRef = caseRef → ∀ e ∈ row.finalNoticeEligibleAt, e ≤ startedAt
  | .initiating _ _ | .pausing _ _ _ _ _ => True

/-- No part of a second is lost. -/
def LosesNoTime (s : Office) : OfficeStep → Prop
  | .commit session _ _ => ∀ work ∈ s.session? session, work.losesNoTime s.db
  | _ => True

instance (db : Tables) : DecidablePred (Work.losesNoTime db)
  | .resuming row _ => inferInstanceAs (Decidable (row.pausedFromStatus = some .waiting → _))
  | .queueing _ _ _ => inferInstanceAs (Decidable (∀ _ ∈ db.cases, _))
  | .initiating _ _ | .pausing _ _ _ _ _ => isTrue trivial

instance (s : Office) : DecidablePred (LosesNoTime s)
  | .commit session _ _ => inferInstanceAs (Decidable (∀ _ ∈ s.session? session, _))
  | .mutate _ _ | .initiateCheck _ _ _ _ _ _ | .resumeCheck _ _ _ _ _
    | .queueFinalCheck _ _ _ _ _ _ _ | .findPausable _ _ _ _ _ | .rollback _ | .lease _ _ _
    | .check _ | .dispatch _ _ | .settle _ _ _ | .crash _ => isTrue trivial

theorem pausedNotice_eq_none (hactive : pausedFrom.active)
    (hnone : Tables.pausedNotice pausedFrom = none) :
    pausedFrom = .waiting ∨ pausedFrom = .preNoticeDelivered := by
  cases pausedFrom <;> simp_all [CaseStatus.active, Tables.pausedNotice]

theorem settled_queuedStatus (noticeType : NoticeType) :
    (queuedStatus noticeType).settled ∧ queuedStatus noticeType ≠ .completed := by
  unfold queuedStatus
  split <;> exact ⟨rfl, nofun⟩

theorem settled_of_pausedNotice (h : Tables.pausedNotice pausedFrom = some noticeType) :
    pausedFrom.settled ∧ pausedFrom ≠ .completed := by
  cases pausedFrom with
  | preNoticeQueued | finalNoticeQueued => exact ⟨rfl, nofun⟩
  | preNoticeDelivered | waiting | pausedForDispute | completed | undeliverable | manualDelivery
    | canceled => cases h

theorem trailed_of_step {a : OfficeStep} (hs : s.Ok) (hdb : s.db.Trailed) (hC : LosesNoTime s a)
    (hstep : officeStep s a = some t) : t.db.Trailed := by
  cases officeTakes_of_step hs.keyed hstep with
  | @recorded now caseRef tenantId deliveryId status d db' _ _ hd _ hcase htouch =>
    obtain ⟨owner, howner, hsame⟩ := hdb.owned d.notice (mem_map_of_mem hd)
    refine trailed_of_case hdb htouch ?_ nofun ⟨owner, howner, hsame.trans hcase⟩ ?_
    · intro event hevent
      unfold recordedEvents at hevent
      split at hevent
      · exact deliveredEvents_caseRef event hevent
      · obtain rfl := mem_singleton.mp hevent
        rfl
    · rintro row _ rfl hrow
      unfold recordedWrite recordedEvents
      split
      next hdelivered =>
        refine trailed_delivered hdelivered.2 hrow ?_
        intro hfinal
        exact ⟨d.notice, mem_map_of_mem hd, hcase, hfinal⟩
      · cases status <;> exact trailed_status hrow rfl nofun nofun
  | @resolved _ _ _ _ _ _ row source _ _ _ hrow href _ hsource _ hcase _ htouch =>
    refine trailed_of_case hdb htouch ?_ ?_ ⟨row, hrow, href⟩ ?_
    · exact forall_mem_singleton.mpr rfl
    · exact forall_mem_singleton.mpr rfl
    · rintro row _ rfl hrow
      obtain ⟨hsettled, hne⟩ := settled_queuedStatus source.noticeType
      refine trailed_status hrow hsettled hne ?_
      intro notice hnotice _ hfinal
      obtain rfl := mem_singleton.mp hnotice
      exact (hrow.final source.notice (mem_map_of_mem hsource) hcase hfinal).append _
  | paused _ _ _ _ _ hpaused => exact trailed_of_pauses hs.keyed hdb hpaused
  | canceled _ _ hrow href _ htouch =>
    refine trailed_of_case hdb htouch ?_ nofun ⟨_, hrow, href⟩ ?_
    · exact forall_mem_singleton.mpr rfl
    · exact fun row _ _ hrow => trailed_status hrow rfl nofun nofun
  | initiating | resuming | queueing | found | rolledBack | turned => exact hdb
  | leased => exact trailed_of_quiet hdb (quiet_lease _ _ _)
  | @initiated session now startedAt ids input db' _ _ hinit =>
    constructor
    · intro notice hnotice
      rw [hinit.cases]
      rw [hinit.notices] at hnotice
      rcases mem_concat.mp hnotice with hold | rfl
      · obtain ⟨row, hrow, hcase⟩ := hdb.owned notice hold
        exact ⟨row, mem_append_left _ hrow, hcase⟩
      · exact ⟨input.row, mem_concat_self, rfl⟩
    · intro row hrow
      rw [hinit.notices, hinit.events]
      rw [hinit.cases] at hrow
      rcases mem_append.mp hrow with hold | hnew
      · refine trailed_kept (hdb.cases row hold) ?_ ?_
        · intro event hevent _
          rcases mem_cons.mp hevent with rfl | hrest
          · rfl
          · obtain rfl := mem_singleton.mp hrest
            rfl
        · intro notice hnotice _ hfinal
          obtain rfl := mem_singleton.mp hnotice
          cases hfinal
      · obtain rfl := mem_singleton.mp hnew
        refine ⟨nofun, nofun, ⟨nofun, nofun⟩, ?_, nofun⟩
        intro notice hnotice hcase hfinal
        rcases mem_concat.mp hnotice with hold | rfl
        · obtain ⟨owner, howner, hsame⟩ := hdb.owned notice hold
          exact absurd (mem_map.mpr ⟨owner, howner, hsame.trans hcase⟩) hinit.freshCase
        · cases hfinal
  | @resumed session now startedAt ids row db' _ hwork hresumes =>
    obtain ⟨hrow, hpaused, -, -⟩ := hs.current _ (session?_mem hwork)
    have hown : ∀ other ∈ s.db.cases, other.caseRef = row.caseRef → other = row :=
      fun other hother hcase => inj_on_of_nodup_map hs.keyed.cases hother hrow hcase
    cases hresumes with
    | requeued pausedFrom noticeType original _ hnotice horiginal hcase htype htouch =>
      obtain ⟨hsettled, hne⟩ := settled_of_pausedNotice hnotice
      refine trailed_of_case hdb htouch ?_ ?_ ⟨row, hrow, rfl⟩ ?_
      · exact forall_mem_singleton.mpr rfl
      · exact forall_mem_singleton.mpr rfl
      · intro other hother hsame htrail
        obtain rfl := hown other hother hsame
        refine trailed_settled htrail (sameCase_apply (.unpause pausedFrom) other) hsettled
          (.inr rfl) ?_ fun hcompleted => absurd hcompleted hne
        intro notice hnotice _ hfinal
        obtain rfl := mem_singleton.mp hnotice
        exact (htrail.final original.notice (mem_map_of_mem horiginal) hcase
          (htype.trans hfinal)).append _
    | continued pausedFrom hfrom hnone htouch =>
      refine trailed_of_case hdb htouch ?_ nofun ⟨row, hrow, rfl⟩ ?_
      · exact forall_mem_singleton.mpr rfl
      · intro other hother hsame htrail
        obtain rfl := hown other hother hsame
        have hactive : pausedFrom.active := by
          have hchecks := hs.checked other hrow
          simpa [AdverseCase.checks, hfrom] using (Bool.and_eq_true_iff.mp hchecks).2
        have hwaiting : other.pausedFromStatus = some .waiting := by
          rcases pausedNotice_eq_none hactive hnone with rfl | rfl
          · exact hfrom
          · exact absurd hfrom htrail.statuses.2
        exact trailed_continueWaiting htrail startedAt hpaused hwaiting
          (hC _ hwork hwaiting)
  | @queued session now startedAt ids caseRef channel db' _ hwork htouch =>
    obtain ⟨row, hrow, rfl, hwaiting, -⟩ := hs.current _ (session?_mem hwork)
    refine trailed_of_case hdb htouch ?_ ?_ ⟨row, hrow, rfl⟩ ?_
    · exact forall_mem_singleton.mpr rfl
    · exact forall_mem_singleton.mpr rfl
    · intro other hother hsame htrail
      obtain rfl := inj_on_of_nodup_map hs.keyed.cases hother hrow hsame
      refine trailed_status htrail rfl nofun ?_
      intro _ _ _ _
      obtain ⟨e, before, since, he, hwait, hfull⟩ := htrail.waiting hwaiting
      have hreached := hC _ hwork other hrow rfl e he
      refine .inl ⟨rfl, rfl, _, hwait, ?_⟩
      simp only [Wait.upTo, Option.elim_some]
      omega
  | opened _ _ _ hpaused => exact trailed_of_pauses hs.keyed hdb hpaused
  | settled _ hquiet _ => exact trailed_of_quiet hdb hquiet
  | @delivered worker now event rest row d db' _ hcycle _ hrow href _ htype hd hid hcase _ htouch =>
    have hknown : d.noticeType = event.noticeType := by
      refine noticeType_of_leased hs worker ?_ hd hid
      rw [hcycle]
      exact mem_cons_self
    refine trailed_of_case hdb htouch deliveredEvents_caseRef nofun ⟨row, hrow, href⟩ ?_
    intro other _ hsame htrail
    rw [← hsame]
    refine trailed_delivered htype htrail ?_
    intro hfinal
    exact ⟨d.notice, mem_map_of_mem hd, hcase.trans hsame.symm, hknown.trans hfinal⟩
  | @deadLettered worker now event rest retryable db' _ _ _ _ htouch =>
    refine trailed_of_touches hdb htouch nofun ?_ ?_
    · intro row hrow _
      refine trailed_kept (hdb.cases row hrow) ?_ nofun
      intro event' hevent _
      obtain rfl := mem_singleton.mp hevent
      rfl
    · exact fun row hrow _ => trailed_status (hdb.cases row hrow) rfl nofun nofun

theorem trailed_empty : Tables.empty.Trailed where
  owned _ hnotice := absurd hnotice not_mem_nil
  cases _ hrow := absurd hrow not_mem_nil

theorem completedInOrder_of_meets (labels : List OfficeStep)
    (h : Meets officeStep LosesNoTime .empty labels) :
    Always officeStep (fun s => s.db.CompletedInOrder) .empty labels := by
  have hinv : Always officeStep (fun s => s.Ok ∧ s.db.Trailed) .empty labels := by
    refine always_of_meets ?_ ⟨ok_empty, trailed_empty⟩ h
    rintro s a t ⟨hs, hdb⟩ hC hstep
    exact ⟨ok_of_step hs hstep, trailed_of_step hs hdb hC hstep⟩
  exact hinv.mono fun s hs row hrow => (hs.2.cases row hrow).completed

end Bis.Adverse
