import Bis.Adverse.Steps
import Mathlib.Data.List.Pairwise

/-!
What each step of the workflow does, and what holds in every state it reaches:
keys are unique, the checks on the pause columns are met, a transaction in flight
has the case it works on as it has found it, and a worker knows the types of its
notices.
-/

namespace Bis.Adverse

open Bis.Relation Bis.Transition List Function

variable {db db' : Tables} {s t : Office}

/-! ### Steps -/

/-- The notices a cycle has in hand. -/
def Cycle.events : Cycle → List LeasedNotice
  | .idle => []
  | .working _ event rest => event :: rest

def OfficeStep.ofWorker : OfficeStep → Bool
  | .check _ | .dispatch _ _ | .settle _ _ _ | .crash _ => true
  | _ => false

inductive OfficeTakes (s : Office) : OfficeStep → Office → Prop where
  | recorded {now : Nat} {caseRef : String} {tenantId : Int} {deliveryId : Nat}
      {status : Tables.RecordedStatus} {d : Delivery} {db' : Tables} :
      s.clock ≤ now → s.caseHeld caseRef = false → d ∈ s.db.deliveries → d.id = deliveryId →
      d.caseRef = caseRef →
      Touches s.db db' (onCase caseRef) (recordedWrite status d.noticeType now) []
        (recordedEvents caseRef status d.noticeType now) →
      OfficeTakes s (.mutate now (.recordDelivery caseRef tenantId deliveryId status))
        { s with db := db', clock := now }
  | resolved {now : Nat} {caseRef : String} {tenantId : Int} {deliveryId : Nat}
      {channel : Channel} {ids : Tables.NoticeIds} {row : AdverseCase} {source : Delivery}
      {db' : Tables} :
      s.clock ≤ now → s.caseHeld caseRef = false → row ∈ s.db.cases → row.caseRef = caseRef →
      (row.status = .manualDelivery ∨ row.status = .undeliverable) → source ∈ s.db.deliveries →
      source.id = deliveryId → source.caseRef = caseRef → source.noticeType.adverse →
      Touches s.db db' (onCase caseRef) (.status (queuedStatus source.noticeType))
        [⟨ids.deliveryId, caseRef, source.noticeType⟩] [⟨caseRef, .manualDeliveryResolved, now⟩] →
      OfficeTakes s (.mutate now (.resolveManualDelivery caseRef tenantId deliveryId channel ids))
        { s with db := db', clock := now }
  | paused {now : Nat} {caseRef : String} {tenantId : Int} {row : AdverseCase}
      {events : List AdverseEvent} {db' : Tables} :
      s.clock ≤ now →
      (∀ other ∈ s.db.cases, other.status.active → s.caseHeld other.caseRef = false) →
      row ∈ s.db.cases → row.caseRef = caseRef → row.tenantId = tenantId →
      Paused s.db db' (Tables.pausable tenantId row.candidateId) now events →
      OfficeTakes s (.mutate now (.pauseForDispute caseRef tenantId true))
        { s with db := db', clock := now }
  | canceled {now : Nat} {caseRef : String} {tenantId : Int} {row : AdverseCase} {db' : Tables} :
      s.clock ≤ now → s.caseHeld caseRef = false → row ∈ s.db.cases → row.caseRef = caseRef →
      row.status.terminal = false →
      Touches s.db db' (onCase caseRef) (.status .canceled) [] [⟨caseRef, .canceled, now⟩] →
      OfficeTakes s (.mutate now (.cancel caseRef tenantId)) { s with db := db', clock := now }
  | initiating {session now : Nat} {input : Tables.InitiateInput}
      {sourceFound templateFound : Bool} :
      s.clock ≤ now →
      OfficeTakes s (.initiateCheck session now input sourceFound false templateFound)
        { s with clock := now, sessions := (session, .initiating input now) :: s.sessions }
  | resuming {session now : Nat} {caseRef : String} {tenantId : Int} {row : AdverseCase} :
      s.clock ≤ now → s.caseHeld caseRef = false → row ∈ s.db.cases → row.caseRef = caseRef →
      row.tenantId = tenantId → row.status = .pausedForDispute →
      OfficeTakes s (.resumeCheck session now caseRef tenantId false)
        { s with clock := now, sessions := (session, .resuming row now) :: s.sessions }
  | queueing {session now e : Nat} {caseRef : String} {tenantId : Int} {channel : Channel}
      {templateFound : Bool} {row : AdverseCase} :
      s.clock ≤ now → s.caseHeld caseRef = false → row ∈ s.db.cases → row.caseRef = caseRef →
      row.tenantId = tenantId → row.status = .waiting → row.finalNoticeEligibleAt = some e →
      Tables.eligible e now →
      OfficeTakes s (.queueFinalCheck session now caseRef tenantId channel false templateFound)
        { s with clock := now, sessions := (session, .queueing caseRef channel now) :: s.sessions }
  | found {session now : Nat} {tenantId : Int} {candidateId reportSnapshotId : Nat} :
      s.clock ≤ now →
      OfficeTakes s (.findPausable session now tenantId candidateId reportSnapshotId)
        { s with
          clock := now
          sessions := (session, .pausing tenantId candidateId reportSnapshotId
            ((s.db.cases.filter (Tables.pausable tenantId candidateId)).map
              AdverseCase.caseRef) now) :: s.sessions }
  | initiated {session now startedAt : Nat} {ids : Tables.NoticeIds} {input : Tables.InitiateInput}
      {db' : Tables} :
      s.clock ≤ now → s.session? session = some (.initiating input startedAt) →
      Initiates s.db db' input ids.deliveryId startedAt →
      OfficeTakes s (.commit session now ids)
        { s.withoutSession session with db := db', clock := now }
  | resumed {session now startedAt : Nat} {ids : Tables.NoticeIds} {row : AdverseCase}
      {db' : Tables} :
      s.clock ≤ now → s.session? session = some (.resuming row startedAt) →
      Resumes s.db row ids.deliveryId startedAt db' →
      OfficeTakes s (.commit session now ids)
        { s.withoutSession session with db := db', clock := now }
  | queued {session now startedAt : Nat} {ids : Tables.NoticeIds} {caseRef : String}
      {channel : Channel} {db' : Tables} :
      s.clock ≤ now → s.session? session = some (.queueing caseRef channel startedAt) →
      Touches s.db db' (onCase caseRef) (.status .finalNoticeQueued)
        [⟨ids.deliveryId, caseRef, .finalAdverse⟩] [⟨caseRef, .finalNoticeQueued, startedAt⟩] →
      OfficeTakes s (.commit session now ids)
        { s.withoutSession session with db := db', clock := now }
  | opened {session now startedAt : Nat} {ids : Tables.NoticeIds} {tenantId : Int}
      {candidateId reportSnapshotId : Nat} {found : List String} {events : List AdverseEvent}
      {db' : Tables} :
      s.clock ≤ now →
      s.session? session =
        some (.pausing tenantId candidateId reportSnapshotId found startedAt) →
      (∀ caseRef ∈ found, s.caseHeld caseRef = false) →
      Paused s.db db'
        (fun row => Tables.pausable tenantId candidateId row && found.contains row.caseRef)
        startedAt events →
      OfficeTakes s (.commit session now ids)
        { s.withoutSession session with db := db', clock := now }
  | rolledBack {session : Nat} : OfficeTakes s (.rollback session) (s.withoutSession session)
  | leased {worker now : Nat} {locked : Nat → Bool} :
      s.clock ≤ now → OfficeTakes s (.lease worker now locked) (s.lease worker now locked)
  /-- A worker's turn that writes nothing. -/
  | turned {a : OfficeStep} {worker : Nat} {cycle : Cycle} :
      a.ofWorker → cycle.events ⊆ (s.cycles worker).events →
      OfficeTakes s a (s.setCycle worker cycle)
  | settled {worker now : Nat} {cycle : Cycle} {db' : Tables} :
      s.clock ≤ now → Quiet s.db db' → cycle.events ⊆ (s.cycles worker).events →
      OfficeTakes s (.settle worker now .done)
        ({ s with db := db', clock := now }.setCycle worker cycle)
  | delivered {worker now : Nat} {event : LeasedNotice} {rest : List LeasedNotice}
      {row : AdverseCase} {d : Delivery} {db' : Tables} :
      s.clock ≤ now → s.cycles worker = .working .delivering event rest →
      s.caseHeld event.caseRef = false → row ∈ s.db.cases → row.caseRef = event.caseRef →
      Tables.stateChanged row.status = false → event.noticeType.adverse → d ∈ s.db.deliveries →
      d.id = event.deliveryId → d.caseRef = event.caseRef → d.status = .queued →
      Touches s.db db' (onCase event.caseRef) (deliveredWrite event.noticeType now) []
        (deliveredEvents event.caseRef event.noticeType now) →
      OfficeTakes s (.settle worker now .done)
        ({ s with db := db', clock := now }.setCycle worker (.next rest))
  | deadLettered {worker now : Nat} {event : LeasedNotice} {rest : List LeasedNotice}
      {retryable : Bool} {db' : Tables} :
      s.clock ≤ now → s.cycles worker = .working (.failing retryable) event rest →
      terminalFailure event retryable → s.caseHeld event.caseRef = false →
      Touches s.db db' (movedByDeadLetter event) (.status .manualDelivery) []
        [⟨event.caseRef, .manualDeliveryRequired, now⟩] →
      OfficeTakes s (.settle worker now .done)
        ({ s with db := db', clock := now }.setCycle worker (.next rest))

theorem events_next (event : LeasedNotice) (rest : List LeasedNotice) :
    (Cycle.next rest).events ⊆ event :: rest := by
  cases rest with
  | nil => exact nil_subset _
  | cons first rest => exact subset_cons_self event _

variable {session now worker clock : Nat} {work : Work} {event : LeasedNotice} {caseRef : String}

theorem begin_eq_some (h : s.begin session work = some t) :
    t = { s with sessions := (session, work) :: s.sessions } := by
  unfold Office.begin at h
  split at h
  · cases h
  · exact (Option.some.inj h).symm

theorem session?_mem (h : s.session? session = some work) : (session, work) ∈ s.sessions := by
  obtain ⟨⟨id, work'⟩, hfind, rfl⟩ := Option.map_eq_some_iff.mp h
  have hid : id = session := by simpa using find?_some hfind
  exact hid ▸ mem_of_find?_eq_some hfind

theorem toOption_eq_some {ε α : Type*} {result : Except ε α} {a : α}
    (h : result.toOption = some a) : result = .ok a := by
  cases result with
  | error e => cases h
  | ok b => rw [Option.some.inj h]

/-! ### Each step -/

theorem officeTakes_of_mutate {m : Mutation} (hkeyed : s.db.Keyed) (hclock : s.clock ≤ now)
    (hfree : ∀ caseRef ∈ m.locks s.db, s.caseHeld caseRef = false) (h : s.db.mutate now m = .ok
    db') :
    OfficeTakes s (.mutate now m) { s with db := db', clock := now } := by
  cases m with
  | recordDelivery caseRef tenantId deliveryId status =>
    obtain ⟨d, hd, hid, hcase, htouch⟩ := recordDelivery_ok h
    exact .recorded hclock (hfree caseRef mem_cons_self) hd hid hcase htouch
  | resolveManualDelivery caseRef tenantId deliveryId channel ids =>
    obtain ⟨row, hrow, href, hstatus, source, hsource, hid, hcase, htype, htouch⟩ :=
      resolveManualDelivery_ok h
    exact .resolved hclock (hfree caseRef mem_cons_self) hrow href hstatus hsource hid hcase
      htype htouch
  | pauseForDispute caseRef tenantId disputed =>
    obtain ⟨row, hrow, href, htenant, rfl, events, hpaused⟩ := pauseForDispute_ok hkeyed h
    refine .paused hclock ?_ hrow href htenant hpaused
    intro other hother hactive
    refine hfree _ (mem_cons_of_mem _ ?_)
    exact mem_map_of_mem (mem_filter.mpr ⟨hother, hactive⟩)
  | cancel caseRef tenantId =>
    obtain ⟨row, hrow, href, hterminal, htouch⟩ := cancel_ok h
    exact .canceled hclock (hfree caseRef mem_cons_self) hrow href hterminal htouch

theorem officeTakes_of_commit {ids : Tables.NoticeIds} (hkeyed : s.db.Keyed)
    (h : s.commit session now ids = some t) : OfficeTakes s (.commit session now ids) t := by
  unfold Office.commit at h
  split at h
  · cases h
  next work hwork =>
    split at h
    · cases h
    next hfree =>
      obtain ⟨db', hdb, rfl⟩ := Option.map_eq_some_iff.mp h
      have hok := toOption_eq_some hdb
      simp only [Bool.or_eq_true, decide_eq_true_eq, not_or, Nat.not_lt] at hfree
      obtain ⟨hclock, hlocks⟩ := hfree
      cases work with
      | initiating input startedAt =>
        exact .initiated hclock hwork (initiatePreAdverse_ok hok)
      | resuming row startedAt => exact .resumed hclock hwork (resume_ok hok)
      | queueing caseRef channel startedAt =>
        exact .queued hclock hwork (queueFinalAdverse_ok hok)
      | pausing tenantId candidateId reportSnapshotId found startedAt =>
        have hfound : ∀ caseRef ∈ found, s.caseHeld caseRef = false := by
          simpa [Work.locks] using hlocks
        exact .opened hclock hwork hfound (pauseAdverseActions_ok hkeyed hok)

theorem afterError_events {phase : Phase} {rest : List LeasedNotice} :
    (phase.afterError event rest).events ⊆ event :: rest := by
  cases phase <;> first | exact List.Subset.refl _ | exact nil_subset _

theorem officeTakes_of_settle {answer : Answer} (hclock : s.clock ≤ now)
    (h : s.settle worker now answer = some t) : OfficeTakes s (.settle worker now answer) t := by
  unfold Office.settle at h
  split at h
  · cases h
  next phase event rest hcycle =>
    split at h
    · cases h
    next result hresult =>
      split at h
      · cases h
      next hfree =>
        split at h
        next db' hok =>
          cases h
          have hsub : (Cycle.next rest).events ⊆ (s.cycles worker).events := by
            rw [hcycle]
            exact events_next event rest
          cases phase with
          | checking | sending => cases hresult
          | canceling =>
            obtain rfl := Except.ok.inj (Option.some.inj hresult)
            exact .settled hclock (quiet_cancelLeased s.db event) hsub
          | delivering =>
            rcases markDelivered_ok (Option.some.inj hresult) with hquiet |
              ⟨row, hrow, href, hsame, htype, ⟨d, hd, hid, hcase, hqueued⟩, htouch⟩
            · exact .settled hclock hquiet hsub
            · have hheld : s.caseHeld event.caseRef = false := by
                simpa [Phase.locksCase] using hfree
              exact .delivered hclock hcycle hheld hrow href hsame htype hd hid hcase
                hqueued htouch
          | failing retryable =>
            rcases restoreOrDeadLetter_ok (Option.some.inj hresult) with
              ⟨_, hquiet⟩ | ⟨hterminal, htouch⟩
            · exact .settled hclock hquiet hsub
            · have hheld : s.caseHeld event.caseRef = false := by
                simpa [Phase.locksCase, hterminal] using hfree
              exact .deadLettered hclock hcycle hterminal hheld htouch
        · cases h
          refine .turned rfl ?_
          rw [hcycle]
          exact afterError_events

theorem officeTakes_of_step {a : OfficeStep} (hkeyed : s.db.Keyed)
    (h : officeStep s a = some t) : OfficeTakes s a t := by
  cases a with
  | mutate now m =>
    simp only [officeStep] at h
    split at h
    · cases h
    next hfree =>
      obtain ⟨db', hdb, rfl⟩ := Option.map_eq_some_iff.mp h
      simp only [Bool.or_eq_true, decide_eq_true_eq, not_or, Nat.not_lt] at hfree
      have hlocks : ∀ caseRef ∈ m.locks s.db, s.caseHeld caseRef = false := by
        simpa using hfree.2
      exact officeTakes_of_mutate hkeyed hfree.1 hlocks (toOption_eq_some hdb)
  | initiateCheck session now input sourceFound disputed templateFound =>
    simp only [officeStep] at h
    split at h
    · cases h
    next hfree =>
      obtain ⟨u, hcheck, hbegin⟩ := Option.bind_eq_some_iff.mp h
      obtain rfl := initiateCheck_ok (toOption_eq_some hcheck)
      obtain rfl := begin_eq_some hbegin
      simp only [Bool.or_eq_true, decide_eq_true_eq, not_or, Nat.not_lt] at hfree
      exact .initiating hfree.1
  | resumeCheck session now caseRef tenantId disputed =>
    simp only [officeStep] at h
    split at h
    · cases h
    next hfree =>
      obtain ⟨row, hcheck, hbegin⟩ := Option.bind_eq_some_iff.mp h
      obtain ⟨hrow, href, htenant, hpaused, rfl⟩ := resumeCheck_ok (toOption_eq_some hcheck)
      obtain rfl := begin_eq_some hbegin
      simp only [Bool.or_eq_true, decide_eq_true_eq, not_or, Nat.not_lt,
        Bool.not_eq_true] at hfree
      exact .resuming hfree.1 hfree.2 hrow href htenant hpaused
  | queueFinalCheck session now caseRef tenantId channel disputed templateFound =>
    simp only [officeStep] at h
    split at h
    · cases h
    next hfree =>
      obtain ⟨row, hcheck, hbegin⟩ := Option.bind_eq_some_iff.mp h
      obtain ⟨hrow, rfl, htenant, hwaiting, ⟨e, he, heligible⟩, rfl⟩ :=
        queueFinalCheck_ok (toOption_eq_some hcheck)
      obtain rfl := begin_eq_some hbegin
      simp only [Bool.or_eq_true, decide_eq_true_eq, not_or, Nat.not_lt,
        Bool.not_eq_true] at hfree
      exact .queueing hfree.1 hfree.2 hrow rfl htenant hwaiting he heligible
  | findPausable session now tenantId candidateId reportSnapshotId =>
    simp only [officeStep] at h
    split at h
    · cases h
    next hfree =>
      obtain rfl := begin_eq_some h
      simp only [Bool.or_eq_true, decide_eq_true_eq, not_or, Nat.not_lt] at hfree
      exact .found hfree.1
  | commit session now ids => exact officeTakes_of_commit hkeyed h
  | rollback session =>
    cases h
    exact .rolledBack
  | lease worker now locked =>
    simp only [officeStep] at h
    split at h
    · cases h
    next hclock =>
      split at h
      · cases h
        exact .leased (Nat.le_of_not_lt hclock)
      · cases h
  | check | dispatch =>
    simp only [officeStep] at h
    split at h
    next hcycle =>
      cases h
      refine .turned rfl ?_
      rw [hcycle]
      exact List.Subset.refl _
    · cases h
  | settle worker now answer =>
    simp only [officeStep] at h
    split at h
    · cases h
    · next hclock => exact officeTakes_of_settle (Nat.le_of_not_lt hclock) h
  | crash worker =>
    cases h
    exact .turned rfl (nil_subset _)

/-! ### Reachable states -/

/-- A transaction in flight has its case as it has found it. -/
def Work.Current (db : Tables) (clock : Nat) : Work → Prop
  | .resuming row startedAt =>
    row ∈ db.cases ∧ row.status = .pausedForDispute ∧ startedAt ≤ clock ∧
      ∀ since, row.pausedAt = some since → since ≤ startedAt
  | .queueing caseRef _ startedAt =>
    ∃ row ∈ db.cases, row.caseRef = caseRef ∧ row.status = .waiting ∧
      ∃ e, row.finalNoticeEligibleAt = some e ∧ Tables.eligible e startedAt
  | .pausing _ _ _ _ startedAt => startedAt ≤ clock
  | .initiating _ _ => True

/-- Two transactions do not hold one case. -/
def Apart (a b : Nat × Work) : Prop :=
  ∀ caseRef, a.2.held = some caseRef → b.2.held ≠ some caseRef

/-- The type of a leased notice is that of its delivery. -/
def LeasedNotice.Known (db : Tables) (event : LeasedNotice) : Prop :=
  ∃ notice ∈ db.notices, notice.deliveryId = event.deliveryId ∧
    notice.noticeType = event.noticeType

structure Office.Ok (s : Office) : Prop where
  keyed : s.db.Keyed
  checked : ∀ row ∈ s.db.cases, row.checks
  paused : ∀ row ∈ s.db.cases, ∀ since, row.pausedAt = some since → since ≤ s.clock
  current : ∀ entry ∈ s.sessions, entry.2.Current s.db s.clock
  apart : s.sessions.Pairwise Apart
  known : ∀ worker, ∀ event ∈ (s.cycles worker).events, event.Known s.db

theorem ok_empty : Office.empty.Ok where
  keyed := ⟨nodup_nil, nodup_nil⟩
  checked _ hrow := absurd hrow not_mem_nil
  paused _ hrow := absurd hrow not_mem_nil
  current _ hentry := absurd hentry not_mem_nil
  apart := .nil
  known _ _ hevent := absurd hevent not_mem_nil

theorem current_mono {clock' : Nat} (h : work.Current db clock) (hclock : clock ≤ clock')
    (hkept : ∀ row ∈ db.cases, work.held = some row.caseRef → row ∈ db'.cases) :
    work.Current db' clock' := by
  cases work with
  | resuming row startedAt =>
    obtain ⟨hrow, hpaused, hstarted, hsince⟩ := h
    exact ⟨hkept row hrow rfl, hpaused, hstarted.trans hclock, hsince⟩
  | queueing caseRef channel startedAt =>
    obtain ⟨row, hrow, rfl, heligible⟩ := h
    exact ⟨row, hkept row hrow rfl, rfl, heligible⟩
  | pausing => exact h.trans hclock
  | initiating => trivial

theorem not_held (h : s.caseHeld caseRef = false) {entry : Nat × Work} (hentry : entry ∈
    s.sessions) : entry.2.held ≠ some caseRef := by
  intro hheld
  have hnone := any_eq_false.mp h entry hentry
  exact hnone (beq_iff_eq.mpr hheld)

/-- What holds a case is the only transaction to do so. -/
theorem eq_of_held (hs : s.Ok) {a b : Nat × Work} (ha : a ∈ s.sessions) (hb : b ∈ s.sessions)
    (hheld : a.2.held = some caseRef) (hheld' : b.2.held = some caseRef) : a = b := by
  by_contra hne
  have : Std.Symm Apart := ⟨fun x y h ref hy hx => h ref hx hy⟩
  exact hs.apart.forall ha hb hne caseRef hheld hheld'

/-- A write pauses cases no later than now. -/
def Write.within (clock : Nat) : Write → Prop
  | .pause now => now ≤ clock
  | .status _ | .startWaiting _ | .unpause _ | .continueWaiting _ => True

theorem pausedAt_apply {w : Write} {clock' : Nat} (hw : w.within clock') (hclock : clock ≤ clock')
    {row : AdverseCase} (hrow : ∀ since, row.pausedAt = some since → since ≤ clock) {since : Nat}
    (h : (w.apply row).pausedAt = some since) : since ≤ clock' := by
  cases w with
  | status | startWaiting => exact (hrow since h).trans hclock
  | pause now =>
    cases h
    exact hw
  | unpause | continueWaiting => cases h

/-- The writes of a step that touches no case that stays held. -/
theorem ok_of_touches {p : AdverseCase → Bool} {w : Write} {queued : List Notice}
    {events : List AdverseEvent} (hs : s.Ok) (h : Touches s.db db' p w queued events)
    (hdb : t.db = db') (hclock : s.clock ≤ t.clock) (hw : w.within t.clock)
    (hsessions : t.sessions.Sublist s.sessions)
    (hfree : ∀ entry ∈ t.sessions, ∀ row ∈ s.db.cases, entry.2.held = some row.caseRef →
      p row = false)
    (hcycles : ∀ worker, (t.cycles worker).events ⊆ (s.cycles worker).events) : t.Ok := by
  subst hdb
  refine ⟨h.keyed hs.keyed, ?_, ?_, ?_, hs.apart.sublist hsessions, ?_⟩
  · intro row hrow
    rw [h.cases] at hrow
    rcases mem_updateWhere.mp hrow with ⟨old, hold, hp, rfl⟩ | ⟨hold, -⟩
    · exact h.checked old hold hp
    · exact hs.checked row hold
  · intro row hrow since hsince
    rw [h.cases] at hrow
    rcases mem_updateWhere.mp hrow with ⟨old, hold, hp, rfl⟩ | ⟨hold, -⟩
    · exact pausedAt_apply hw hclock (hs.paused old hold) hsince
    · exact (hs.paused row hold since hsince).trans hclock
  · intro entry hentry
    refine current_mono (hs.current entry (hsessions.subset hentry)) hclock ?_
    intro row hrow hheld
    rw [h.cases]
    exact mem_updateWhere_of_not hrow (by simp [hfree entry hentry row hrow hheld])
  · intro worker event hevent
    obtain ⟨notice, hnotice, hsame⟩ := hs.known worker event (hcycles worker hevent)
    refine ⟨notice, ?_, hsame⟩
    rw [h.notices]
    exact mem_append_left _ hnotice

theorem ok_of_quiet (hs : s.Ok) (h : Quiet s.db t.db) (hclock : s.clock ≤ t.clock)
    (hsessions : t.sessions.Sublist s.sessions)
    (hknown : ∀ worker, ∀ event ∈ (t.cycles worker).events, event.Known s.db) : t.Ok where
  keyed := h.keyed hs.keyed
  checked row hrow := hs.checked row (h.cases ▸ hrow)
  paused row hrow since hsince := (hs.paused row (h.cases ▸ hrow) since hsince).trans hclock
  current entry hentry :=
    current_mono (hs.current entry (hsessions.subset hentry)) hclock
      fun row hrow _ => h.cases ▸ hrow
  apart := hs.apart.sublist hsessions
  known worker event hevent := by
    obtain ⟨notice, hnotice, hsame⟩ := hknown worker event hevent
    exact ⟨notice, h.notices ▸ hnotice, hsame⟩

/-- A transaction begins that holds no case or one that nobody holds. -/
theorem ok_of_begin (hs : s.Ok) (hclock : s.clock ≤ now) (hcurrent : work.Current s.db now)
    (hfree : ∀ caseRef, work.held = some caseRef → s.caseHeld caseRef = false) :
    ({ s with clock := now, sessions := (session, work) :: s.sessions } : Office).Ok := by
  refine ⟨hs.keyed, hs.checked, ?_, ?_, ?_, hs.known⟩
  · exact fun row hrow since hsince => (hs.paused row hrow since hsince).trans hclock
  · intro entry hentry
    rcases mem_cons.mp hentry with rfl | hmem
    · exact hcurrent
    · exact current_mono (hs.current entry hmem) hclock fun row hrow _ => hrow
  · refine pairwise_cons.mpr ⟨?_, hs.apart⟩
    intro entry hentry caseRef hheld
    exact not_held (hfree caseRef hheld) hentry

theorem events_setCycle {cycle : Cycle} (h : cycle.events ⊆ (s.cycles worker).events) (other :
    Nat) :
    ((s.setCycle worker cycle).cycles other).events ⊆ (s.cycles other).events := by
  change (update s.cycles worker cycle other).events ⊆ (s.cycles other).events
  by_cases hother : other = worker
  · subst hother
    rw [update_self]
    exact h
  · rw [update_of_ne hother]
    exact List.Subset.refl _

theorem known_of_leased {row : NoticeOutboxRow}
    (h : (db.releaseExpired now).leasedNotice row = some event) : event.Known db := by
  unfold Tables.leasedNotice at h
  split at h
  next c d hc hd =>
    cases h
    have hid : d.id = row.deliveryId := by simpa using find?_some hd
    exact ⟨d.notice, mem_map_of_mem (mem_of_find?_eq_some hd), hid, rfl⟩
  · cases h

theorem known_of_lease (hs : s.Ok) {locked : Nat → Bool} {other : Nat}
    (hevent : event ∈ ((s.lease worker now locked).cycles other).events) : event.Known s.db := by
  simp only [Office.lease, Office.setCycle] at hevent
  by_cases hother : other = worker
  · subst hother
    rw [update_self] at hevent
    have hmem : event ∈ ((s.db.releaseExpired now).batch now locked).filterMap
        (s.db.releaseExpired now).leasedNotice := by
      generalize ((s.db.releaseExpired now).batch now locked).filterMap
        (s.db.releaseExpired now).leasedNotice = events at hevent ⊢
      cases events with
      | nil => cases hevent
      | cons first rest => exact hevent
    obtain ⟨row, -, hleased⟩ := mem_filterMap.mp hmem
    exact known_of_leased hleased
  · rw [update_of_ne hother] at hevent
    exact hs.known other event hevent

/-- A commit writes to a case that it alone has held. -/
theorem free_of_commit (hs : s.Ok) (hwork : s.session? session = some work)
    (hheld : work.held = some caseRef) :
    ∀ entry ∈ (s.withoutSession session).sessions, ∀ row ∈ s.db.cases,
      entry.2.held = some row.caseRef → onCase caseRef row = false := by
  intro entry hentry row _ hother
  obtain ⟨hmem, hne⟩ := mem_filter.mp hentry
  refine beq_eq_false_iff_ne.mpr ?_
  rintro rfl
  obtain rfl := eq_of_held hs (session?_mem hwork) hmem hheld hother
  simp at hne

theorem free_of_not_held (h : s.caseHeld caseRef = false) :
    ∀ entry ∈ s.sessions, ∀ row ∈ s.db.cases, entry.2.held = some row.caseRef →
      onCase caseRef row = false := by
  intro entry hentry row _ hheld
  refine beq_eq_false_iff_ne.mpr ?_
  rintro rfl
  exact not_held h hentry hheld

theorem within_delivered {noticeType : NoticeType} :
    (deliveredWrite noticeType now).within clock := by
  unfold deliveredWrite
  split <;> trivial

theorem within_recorded {status : Tables.RecordedStatus} {noticeType : NoticeType} :
    (recordedWrite status noticeType now).within clock := by
  unfold recordedWrite
  split
  · exact within_delivered
  · trivial

theorem delivery_eq (hkeyed : db.Keyed) {d d' : Delivery} (hd : d ∈ db.deliveries)
    (hd' : d' ∈ db.deliveries) (hid : d.id = d'.id) : d = d' := by
  have hnodup : (db.deliveries.map Delivery.id).Nodup := by
    have hids := hkeyed.notices
    rw [Tables.notices, map_map] at hids
    exact hids
  exact inj_on_of_nodup_map hnodup hd hd' hid

/-- A worker knows the type of the delivery it works on. -/
theorem noticeType_of_leased (hs : s.Ok) (worker : Nat) (hevent : event ∈ (s.cycles worker).events)
    {d : Delivery} (hd : d ∈ s.db.deliveries) (hid : d.id = event.deliveryId) :
    d.noticeType = event.noticeType := by
  obtain ⟨notice, hnotice, hsame, htype⟩ := hs.known worker event hevent
  obtain ⟨d', hd', rfl⟩ := mem_map.mp hnotice
  obtain rfl := delivery_eq hs.keyed hd hd' (hid.trans hsame.symm)
  exact htype

theorem ok_of_step {a : OfficeStep} (hs : s.Ok) (hstep : officeStep s a = some t) : t.Ok := by
  have hsame : ∀ worker, (s.cycles worker).events ⊆ (s.cycles worker).events :=
    fun _ => List.Subset.refl _
  have hrest (session : Nat) : (s.withoutSession session).sessions.Sublist s.sessions :=
    filter_sublist
  cases officeTakes_of_step hs.keyed hstep with
  | recorded hclock hheld _ _ _ htouch =>
    exact ok_of_touches hs htouch rfl hclock within_recorded (List.Sublist.refl _)
      (free_of_not_held hheld) hsame
  | resolved hclock hheld _ _ _ _ _ _ _ htouch | canceled hclock hheld _ _ _ htouch =>
    exact ok_of_touches hs htouch rfl hclock trivial (List.Sublist.refl _)
      (free_of_not_held hheld) hsame
  | paused hclock hfree _ _ _ hpaused =>
    refine ok_of_touches hs hpaused.touches rfl hclock (Nat.le_refl _) (List.Sublist.refl _) ?_ hsame
    intro entry hentry other hother hheld
    rw [Bool.eq_false_iff]
    intro hpausable
    simp only [Tables.pausable, Bool.and_eq_true] at hpausable
    exact not_held (hfree other hother hpausable.2.2) hentry hheld
  | initiating hclock => exact ok_of_begin hs hclock trivial nofun
  | found hclock => exact ok_of_begin hs hclock (Nat.le_refl _) nofun
  | resuming hclock hheld hrow href _ hpaused =>
    refine ok_of_begin hs hclock ⟨hrow, hpaused, Nat.le_refl _, ?_⟩ ?_
    · exact fun since hsince => (hs.paused _ hrow since hsince).trans hclock
    · intro other hother
      cases hother
      rw [href]
      exact hheld
  | queueing hclock hheld hrow href _ hwaiting he heligible =>
    refine ok_of_begin hs hclock ⟨_, hrow, href, hwaiting, _, he, heligible⟩ ?_
    intro other hother
    cases hother
    exact hheld
  | @initiated session now startedAt ids input db' hclock _ hinit =>
    have hkept : ∀ row ∈ s.db.cases, row ∈ db'.cases :=
      fun row hrow => hinit.cases ▸ mem_append_left _ hrow
    refine ⟨⟨?_, ?_⟩, ?_, ?_, ?_, hs.apart.sublist (hrest session), ?_⟩
    · rw [hinit.cases, map_append]
      exact nodup_append_fresh hs.keyed.cases hinit.freshCase
    · rw [hinit.notices, map_append]
      exact nodup_append_fresh hs.keyed.notices hinit.freshNotice
    · intro row hrow
      rw [hinit.cases] at hrow
      rcases mem_concat.mp hrow with hold | rfl
      · exact hs.checked row hold
      · rfl
    · intro row hrow since hsince
      rw [hinit.cases] at hrow
      rcases mem_concat.mp hrow with hold | rfl
      · exact (hs.paused row hold since hsince).trans hclock
      · cases hsince
    · intro entry hentry
      exact current_mono (hs.current entry ((hrest session).subset hentry)) hclock
        fun row hrow _ => hkept row hrow
    · intro worker event hevent
      obtain ⟨notice, hnotice, hsame⟩ := hs.known worker event hevent
      exact ⟨notice, hinit.notices ▸ mem_append_left _ hnotice, hsame⟩
  | resumed hclock hwork hresumes =>
    cases hresumes with
    | requeued _ _ _ _ _ _ _ _ htouch | continued _ _ _ htouch =>
      exact ok_of_touches hs htouch rfl hclock trivial (hrest _) (free_of_commit hs hwork rfl)
        hsame
  | queued hclock hwork htouch =>
    exact ok_of_touches hs htouch rfl hclock trivial (hrest _) (free_of_commit hs hwork rfl) hsame
  | opened hclock hwork hfree hpaused =>
    have hstarted := hs.current _ (session?_mem hwork)
    refine ok_of_touches hs hpaused.touches rfl hclock (hstarted.trans hclock) (hrest _) ?_ hsame
    intro entry hentry row hrow hheld
    rw [Bool.eq_false_iff]
    intro hpausable
    rw [Bool.and_eq_true] at hpausable
    have hfound := contains_iff_mem.mp hpausable.2
    exact not_held (hfree _ hfound) ((hrest _).subset hentry) hheld
  | rolledBack => exact ok_of_quiet hs (quiet_refl _) (Nat.le_refl _) (hrest _) hs.known
  | leased hclock =>
    exact ok_of_quiet hs (quiet_lease _ _ _) hclock (List.Sublist.refl _)
      fun worker event hevent => known_of_lease hs hevent
  | turned _ hsub =>
    refine ok_of_quiet hs (quiet_refl _) (Nat.le_refl _) (List.Sublist.refl _) ?_
    exact fun worker event hevent => hs.known worker event (events_setCycle hsub worker hevent)
  | settled hclock hquiet hsub =>
    refine ok_of_quiet hs hquiet hclock (List.Sublist.refl _) ?_
    exact fun worker event hevent => hs.known worker event (events_setCycle hsub worker hevent)
  | delivered hclock hcycle hheld _ _ _ _ _ _ _ _ htouch =>
    refine ok_of_touches hs htouch rfl hclock within_delivered (List.Sublist.refl _)
      (free_of_not_held hheld) (events_setCycle ?_)
    rw [hcycle]
    exact events_next _ _
  | deadLettered hclock hcycle _ hheld htouch =>
    refine ok_of_touches hs htouch rfl hclock trivial (List.Sublist.refl _) ?_
      (events_setCycle ?_)
    · intro entry hentry row hrow hother
      rw [Bool.eq_false_iff]
      intro hmoved
      have hcase := (Bool.and_eq_true_iff.mp hmoved).1
      exact absurd hcase (by simpa [onCase] using free_of_not_held hheld entry hentry row hrow hother)
    · rw [hcycle]
      exact events_next _ _

end Bis.Adverse
