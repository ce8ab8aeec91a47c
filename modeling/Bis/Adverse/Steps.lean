import Bis.Adverse.NoticeWorker

/-!
What each mutation of the workflow, each commit and each transaction of its
workers does to the tables: it writes to cases, queues a notice and appends
events, or it leaves cases, notices and events alone.
-/

namespace Bis.Adverse

open Bis.Relation Bis.Transition List

variable {db db' : Tables} {s t : Office}

/-! ### Writes to a case -/

inductive Write where
  | status (next : CaseStatus)
  | startWaiting (now : Nat)
  | pause (now : Nat)
  | unpause (next : CaseStatus)
  | continueWaiting (now : Nat)

def Write.apply : Write → AdverseCase → AdverseCase
  | .status next => AdverseCase.withStatus next
  | .startWaiting now => AdverseCase.startWaiting now
  | .pause now => fun row => row.pause row.status now
  | .unpause next => AdverseCase.unpause next
  | .continueWaiting now => AdverseCase.continueWaiting now

/-- What no write changes. -/
structure SameCase (row row' : AdverseCase) : Prop where
  caseRef : row'.caseRef = row.caseRef
  tenantId : row'.tenantId = row.tenantId
  candidateId : row'.candidateId = row.candidateId
  waitingPeriodDays : row'.waitingPeriodDays = row.waitingPeriodDays

theorem sameCase_refl (row : AdverseCase) : SameCase row row := ⟨rfl, rfl, rfl, rfl⟩

theorem sameCase_apply (w : Write) (row : AdverseCase) : SameCase row (w.apply row) := by
  cases w <;> exact ⟨rfl, rfl, rfl, rfl⟩

def onCase (caseRef : String) (row : AdverseCase) : Bool := row.caseRef == caseRef

/-! ### Notices -/

/-- What stays of a delivery. -/
structure Notice where
  deliveryId : Nat
  caseRef : String
  noticeType : NoticeType

def Delivery.notice (d : Delivery) : Notice := ⟨d.id, d.caseRef, d.noticeType⟩

def Tables.notices (db : Tables) : List Notice := db.deliveries.map Delivery.notice

/-- References and identifiers are keys. -/
structure Tables.Keyed (db : Tables) : Prop where
  cases : (db.cases.map AdverseCase.caseRef).Nodup
  notices : (db.notices.map Notice.deliveryId).Nodup

variable {caseRef : String} {mid : Tables} {p q : AdverseCase → Bool} {tenantId : Int}
  {channel : Channel} {ids : Tables.NoticeIds} {now : Nat} {w : Write}
  {events : List AdverseEvent} {disputed : Bool}

/-- A reference names one case. -/
theorem Tables.Keyed.eq_of_onCase (h : db.Keyed) {row other : AdverseCase} (hrow : row ∈ db.cases)
    (hcase : row.caseRef = caseRef) (hother : other ∈ db.cases) (hsame : onCase caseRef other) :
    other = row :=
  inj_on_of_nodup_map h.cases hother hrow ((beq_iff_eq.mp hsame).trans hcase.symm)

/-- A transaction that writes to the cases with `p`. -/
structure Touches (db db' : Tables) (p : AdverseCase → Bool) (w : Write) (queued : List Notice)
    (events : List AdverseEvent) : Prop where
  cases : db'.cases = updateWhere p w.apply db.cases
  checked : ∀ row ∈ db.cases, p row → (w.apply row).checks
  notices : db'.notices = db.notices ++ queued
  fresh : (db.notices.map Notice.deliveryId).Nodup → (db'.notices.map Notice.deliveryId).Nodup
  events : db'.events = events ++ db.events

/-- A transaction that at most moves notices on. -/
structure Quiet (db db' : Tables) : Prop where
  cases : db'.cases = db.cases
  notices : db'.notices = db.notices
  events : db'.events = db.events

theorem quiet_refl (db : Tables) : Quiet db db := ⟨rfl, rfl, rfl⟩

theorem Quiet.trans (h : Quiet db mid) (h' : Quiet mid db') : Quiet db db' :=
  ⟨h'.cases.trans h.cases, h'.notices.trans h.notices, h'.events.trans h.events⟩

theorem quiet_setDeliveries (db : Tables) (p : Delivery → Bool) (status : DeliveryStatus) :
    Quiet db (db.setDeliveries p status) where
  cases := rfl
  notices := by
    apply map_updateWhere
    intro d
    rfl
  events := rfl

theorem quiet_setOutbox (db : Tables) (p : NoticeOutboxRow → Bool) (state : OutboxState) :
    Quiet db (db.setOutbox p state) := ⟨rfl, rfl, rfl⟩

theorem quiet_cancelNotices (db : Tables) (caseRef : String) :
    Quiet db (db.cancelNotices caseRef) :=
  (quiet_setDeliveries db _ _).trans (quiet_setOutbox _ _ _)

/-! ### Statements -/

theorem updateCases_ok {f : AdverseCase → AdverseCase} (h : db.updateCases p f = .ok db') :
    db' = { db with cases := updateWhere p f db.cases } ∧
      ∀ row ∈ db.cases, p row → (f row).checks := by
  unfold Tables.updateCases at h
  split at h
  next hall =>
    refine ⟨(Except.ok.inj h).symm, ?_⟩
    intro row hrow hp
    exact all_eq_true.mp hall row (mem_filter.mpr ⟨hrow, hp⟩)
  · cases h

theorem lockedCase_ok {row : AdverseCase} (h : db.lockedCase caseRef tenantId = .ok row) :
    row ∈ db.cases ∧ row.caseRef = caseRef ∧ row.tenantId = tenantId := by
  unfold Tables.lockedCase at h
  split at h
  · cases h
  next found hfind =>
    cases h
    have hboth := find?_some hfind
    simp only [Bool.and_eq_true, beq_iff_eq] at hboth
    exact ⟨mem_of_find?_eq_some hfind, hboth⟩

/-- What a queued notice adds. -/
structure Queued (db db' : Tables) (notice : Notice) : Prop where
  cases : db'.cases = db.cases
  notices : db'.notices = db.notices ++ [notice]
  fresh : notice.deliveryId ∉ db.notices.map Notice.deliveryId
  events : db'.events = db.events

variable {noticeType : NoticeType} {rows : List AdverseCase} {input : Tables.InitiateInput}

theorem queueNotice_ok (h : db.queueNotice caseRef noticeType channel ids now = .ok db') :
    Queued db db' ⟨ids.deliveryId, caseRef, noticeType⟩ := by
  unfold Tables.queueNotice at h
  split at h
  · cases h
  next hfree =>
    have hfresh : ids.deliveryId ∉ db.notices.map Notice.deliveryId := by
      intro hmem
      rw [Tables.notices, map_map] at hmem
      obtain ⟨d, hd, hid⟩ := mem_map.mp hmem
      exact hfree (any_eq_true.mpr ⟨d, hd, beq_iff_eq.mpr hid⟩)
    have hadded (status : DeliveryStatus) : (db.deliveries ++ [Delivery.mk ids.deliveryId caseRef
        noticeType channel status now]).map Delivery.notice =
          db.notices ++ [⟨ids.deliveryId, caseRef, noticeType⟩] := map_append
    dsimp only at h
    split at h
    · cases h
      exact ⟨rfl, hadded .queued, hfresh, rfl⟩
    · split at h
      · cases h
      · cases h
        exact ⟨rfl, hadded .queued, hfresh, rfl⟩

/-- One update of cases, after statements on notices and before events. -/
theorem touches_of_update {moved : Tables} (hmid : Quiet db mid)
    (h : mid.updateCases p w.apply = .ok moved) (hcases : db'.cases = moved.cases)
    (hnotices : db'.notices = moved.notices) (hevents : db'.events = events ++ moved.events) :
    Touches db db' p w [] events := by
  obtain ⟨rfl, hchecked⟩ := updateCases_ok h
  have hsame : db'.notices = db.notices := hnotices.trans hmid.notices
  refine ⟨?_, ?_, ?_, ?_, ?_⟩
  · rw [hcases, ← hmid.cases]
  · exact fun row hrow => hchecked row (hmid.cases ▸ hrow)
  · rw [hsame, append_nil]
  · exact fun hnodup => hsame ▸ hnodup
  · rw [hevents, ← hmid.events]

/-- The same after a notice has been queued. -/
theorem touches_of_queued {moved : Tables} {notice : Notice} (hmid : Queued db mid notice)
    (h : mid.updateCases p w.apply = .ok moved) (hcases : db'.cases = moved.cases)
    (hnotices : db'.notices = moved.notices) (hevents : db'.events = events ++ moved.events) :
    Touches db db' p w [notice] events := by
  obtain ⟨rfl, hchecked⟩ := updateCases_ok h
  have hadded : db'.notices = db.notices ++ [notice] := hnotices.trans hmid.notices
  refine ⟨?_, ?_, hadded, ?_, ?_⟩
  · rw [hcases, ← hmid.cases]
  · exact fun row hrow => hchecked row (hmid.cases ▸ hrow)
  · intro hnodup
    rw [hadded, map_append]
    exact nodup_append_fresh hnodup hmid.fresh
  · rw [hevents, ← hmid.events]

theorem Touches.of_eq {queued : List Notice} (h : Touches db db' p w queued events)
    (hpq : ∀ row ∈ db.cases, p row = q row) : Touches db db' q w queued events := by
  refine ⟨?_, ?_, h.notices, h.fresh, h.events⟩
  · rw [h.cases]
    exact updateWhere_congr hpq fun _ _ _ => rfl
  · intro row hrow hq
    rw [← hpq row hrow] at hq
    exact h.checked row hrow hq

/-- One transaction that writes to some cases and then in the same way to others. -/
theorem Touches.trans {events' : List AdverseEvent} (h : Touches db mid p w [] events)
    (h' : Touches mid db' q w [] events') (hq : ∀ row, q (w.apply row) = q row)
    (hseparate : ∀ row ∈ db.cases, p row → q row = false) :
    Touches db db' (fun row => p row || q row) w [] (events' ++ events) := by
  refine ⟨?_, ?_, ?_, fun hnodup => h'.fresh (h.fresh hnodup), ?_⟩
  · rw [h'.cases, h.cases]
    exact updateWhere_updateWhere hq hseparate
  · intro row hrow hboth
    cases hp : p row with
    | true => exact h.checked row hrow hp
    | false =>
      have hmid : row ∈ mid.cases := by
        rw [h.cases]
        exact mem_updateWhere_of_not hrow (by simp [hp])
      exact h'.checked row hmid (by simpa [hp] using hboth)
  · rw [h'.notices, h.notices, append_nil]
  · rw [h'.events, h.events, append_assoc]

theorem Touches.keyed {queued : List Notice} (h : Touches db db' p w queued events)
    (hkeyed : db.Keyed) : db'.Keyed := by
  refine ⟨?_, h.fresh hkeyed.notices⟩
  have hmap : db'.cases.map AdverseCase.caseRef = db.cases.map AdverseCase.caseRef := by
    rw [h.cases]
    exact map_updateWhere (fun row => (sameCase_apply w row).caseRef) db.cases
  rw [hmap]
  exact hkeyed.cases

theorem Quiet.keyed (h : Quiet db db') (hkeyed : db.Keyed) : db'.Keyed :=
  ⟨h.cases ▸ hkeyed.cases, h.notices ▸ hkeyed.notices⟩

/-! ### Deliveries -/

/-- The two notices that move a case on. -/
def NoticeType.adverse (noticeType : NoticeType) : Bool :=
  noticeType == .preAdverse || noticeType == .finalAdverse

/-- What a delivered notice does to its case. -/
def deliveredWrite (noticeType : NoticeType) (now : Nat) : Write :=
  if noticeType = .preAdverse then .startWaiting now else .status .completed

def deliveredEvents (caseRef : String) (noticeType : NoticeType) (now : Nat) :
    List AdverseEvent :=
  if noticeType = .preAdverse then [⟨caseRef, .preNoticeDelivered, now⟩]
  else [⟨caseRef, .completed, now⟩, ⟨caseRef, .finalNoticeDelivered, now⟩]

theorem advance_ok (hadverse : noticeType.adverse) (hquiet : Quiet db mid)
    (h : mid.advance caseRef noticeType now = .ok db') :
    Touches db db' (onCase caseRef) (deliveredWrite noticeType now) []
      (deliveredEvents caseRef noticeType now) := by
  cases noticeType with
  | preAdverse =>
    obtain ⟨moved, hmoved, hdone⟩ := except_bind_ok h
    cases hdone
    exact touches_of_update hquiet hmoved rfl rfl rfl
  | finalAdverse =>
    obtain ⟨moved, hmoved, hdone⟩ := except_bind_ok h
    cases hdone
    exact touches_of_update hquiet hmoved rfl rfl rfl
  | undeliverable | disputeHold | disputeResult => cases hadverse

/-- What the recorded outcome of a delivery does to its case. -/
def recordedWrite (status : Tables.RecordedStatus) (noticeType : NoticeType) (now : Nat) : Write :=
  if status = .delivered ∧ noticeType.adverse then deliveredWrite noticeType now
  else .status status.case

def recordedEvents (caseRef : String) (status : Tables.RecordedStatus) (noticeType : NoticeType)
    (now : Nat) : List AdverseEvent :=
  if status = .delivered ∧ noticeType.adverse then deliveredEvents caseRef noticeType now
  else [⟨caseRef, .manualDeliveryRequired, now⟩]

theorem recordDelivery_ok {deliveryId : Nat} {status : Tables.RecordedStatus}
    (h : db.recordDelivery caseRef tenantId deliveryId status now = .ok db') :
    ∃ d ∈ db.deliveries, d.id = deliveryId ∧ d.caseRef = caseRef ∧
      Touches db db' (onCase caseRef) (recordedWrite status d.noticeType now) []
        (recordedEvents caseRef status d.noticeType now) := by
  obtain ⟨row, hrow, hrest⟩ := except_bind_ok h
  obtain ⟨-, rfl, -⟩ := lockedCase_ok hrow
  split at hrest
  · cases hrest
  next d hfind =>
    have hd := find?_some hfind
    simp only [Bool.and_eq_true, beq_iff_eq] at hd
    split at hrest
    · cases hrest
    · refine ⟨d, mem_of_find?_eq_some hfind, hd.1, hd.2, ?_⟩
      have hquiet := (quiet_setDeliveries db (fun d => d.id == deliveryId)
        status.delivery).trans (quiet_setOutbox _ (fun o => o.deliveryId == deliveryId &&
          (o.state == .pending || o.state == .leased)) .cancelled)
      have hiff : (status = .delivered ∧ d.noticeType.adverse) ↔
          (status = .delivered ∧ (d.noticeType = .preAdverse ∨ d.noticeType = .finalAdverse)) := by
        simp [NoticeType.adverse]
      dsimp only at hrest
      split at hrest
      next hadverse =>
        have hboth := hiff.mpr hadverse
        rw [recordedWrite, recordedEvents, if_pos hboth, if_pos hboth]
        exact advance_ok hboth.2 hquiet hrest
      next hnot =>
        have hneither := hiff.not.mpr hnot
        rw [recordedWrite, recordedEvents, if_neg hneither, if_neg hneither]
        obtain ⟨moved, hmoved, hdone⟩ := except_bind_ok hrest
        cases hdone
        exact touches_of_update hquiet hmoved rfl rfl rfl

/-- The status in which a case waits for a notice. -/
def queuedStatus (noticeType : NoticeType) : CaseStatus :=
  if noticeType = .preAdverse then .preNoticeQueued else .finalNoticeQueued

theorem resolveManualDelivery_ok {deliveryId : Nat}
    (h : db.resolveManualDelivery caseRef tenantId deliveryId channel ids now = .ok db') :
    ∃ row ∈ db.cases, row.caseRef = caseRef ∧
      (row.status = .manualDelivery ∨ row.status = .undeliverable) ∧
      ∃ source ∈ db.deliveries, source.id = deliveryId ∧ source.caseRef = caseRef ∧
        source.noticeType.adverse ∧
        Touches db db' (onCase caseRef) (.status (queuedStatus source.noticeType))
          [⟨ids.deliveryId, caseRef, source.noticeType⟩]
          [⟨caseRef, .manualDeliveryResolved, now⟩] := by
  obtain ⟨row, hrow, hrest⟩ := except_bind_ok h
  obtain ⟨hmem, rfl, -⟩ := lockedCase_ok hrow
  split at hrest
  · cases hrest
  next hstatus =>
    split at hrest
    · cases hrest
    next source hfind =>
      have hsource := find?_some hfind
      simp only [Bool.and_eq_true, beq_iff_eq] at hsource
      split at hrest
      · cases hrest
      next hadverse =>
        obtain ⟨queued, hqueued, hrest⟩ := except_bind_ok hrest
        obtain ⟨moved, hmoved, hdone⟩ := except_bind_ok hrest
        cases hdone
        rw [not_and_or, not_not, not_not] at hstatus hadverse
        have htype : source.noticeType.adverse := by simpa [NoticeType.adverse] using hadverse
        exact ⟨row, hmem, rfl, hstatus, source, mem_of_find?_eq_some hfind, hsource.1,
          hsource.2.1, htype,
          touches_of_queued (queueNotice_ok hqueued) hmoved rfl rfl rfl⟩

theorem cancel_ok (h : db.cancel caseRef tenantId now = .ok db') :
    ∃ row ∈ db.cases, row.caseRef = caseRef ∧ row.status.terminal = false ∧
      Touches db db' (onCase caseRef) (.status .canceled) [] [⟨caseRef, .canceled, now⟩] := by
  obtain ⟨row, hrow, hrest⟩ := except_bind_ok h
  obtain ⟨hmem, rfl, -⟩ := lockedCase_ok hrow
  split at hrest
  · cases hrest
  next hterminal =>
    obtain ⟨moved, hmoved, hdone⟩ := except_bind_ok hrest
    cases hdone
    exact ⟨row, hmem, rfl, Bool.eq_false_iff.mpr hterminal,
      touches_of_update (quiet_refl db) hmoved rfl
        (quiet_cancelNotices moved row.caseRef).notices rfl⟩

/-! ### Dispute holds -/

theorem pauseOne_ok (hkeyed : db.Keyed) {row : AdverseCase} (hrow : row ∈ db.cases)
    (h : db.pauseOne now row = .ok db') :
    Touches db db' (onCase row.caseRef) (.pause now) []
      [⟨row.caseRef, .pausedForDispute, now⟩] := by
  obtain ⟨moved, hmoved, hdone⟩ := except_bind_ok h
  cases hdone
  obtain ⟨rfl, hchecked⟩ := updateCases_ok hmoved
  -- The row found by the query is the row that is updated.
  have hsame : ∀ other ∈ db.cases, onCase row.caseRef other →
      AdverseCase.pause row.status now other = (Write.pause now).apply other := by
    intro other hother hcase
    obtain rfl := inj_on_of_nodup_map hkeyed.cases hother hrow (beq_iff_eq.mp hcase)
    rfl
  have hnotices := (quiet_cancelNotices { db with
    cases := updateWhere (onCase row.caseRef) (AdverseCase.pause row.status now) db.cases }
      row.caseRef).notices
  refine ⟨updateWhere_congr (fun _ _ => rfl) hsame, ?_, ?_, ?_, rfl⟩
  · intro other hother hcase
    rw [← hsame other hother hcase]
    exact hchecked other hother hcase
  · rw [append_nil]
    exact hnotices
  · exact fun hnodup => hnotices ▸ hnodup

def pauseEvents (now : Nat) : List AdverseCase → List AdverseEvent
  | [] => []
  | row :: rest => pauseEvents now rest ++ [⟨row.caseRef, .pausedForDispute, now⟩]

theorem mem_pauseEvents {event : AdverseEvent} :
    event ∈ pauseEvents now rows ↔
      ∃ row ∈ rows, event = ⟨row.caseRef, .pausedForDispute, now⟩ := by
  induction rows with
  | nil => simp [pauseEvents]
  | cons row rest ih => simp [pauseEvents, ih, or_comm]

/-- Every case with `p`, and no other case, has its event. -/
structure Paused (db db' : Tables) (p : AdverseCase → Bool) (now : Nat)
    (events : List AdverseEvent) : Prop where
  touches : Touches db db' p (.pause now) [] events
  exact : ∀ event, event ∈ events ↔
    ∃ row ∈ db.cases, p row ∧ event = ⟨row.caseRef, .pausedForDispute, now⟩

theorem foldlM_pauseOne_ok (hkeyed : db.Keyed) (hrows : ∀ row ∈ rows, row ∈ db.cases)
    (hnodup : (rows.map AdverseCase.caseRef).Nodup)
    (h : rows.foldlM (Tables.pauseOne now) db = .ok db') :
    Touches db db' (fun row => rows.any fun first => onCase first.caseRef row) (.pause now) []
      (pauseEvents now rows) := by
  induction rows generalizing db with
  | nil =>
    obtain rfl := Except.ok.inj h
    refine ⟨?_, fun _ _ hany => absurd hany Bool.false_ne_true, (append_nil _).symm, id,
      rfl⟩
    have hmap : ∀ row ∈ db.cases, (if false = true then (Write.pause now).apply row else row) =
        id row := fun _ _ => rfl
    unfold updateWhere
    exact (map_id _).symm.trans (map_congr_left hmap).symm
  | cons row rest ih =>
    obtain ⟨hfirst, hrest⟩ := nodup_cons.mp hnodup
    obtain ⟨mid, hpaused, hfold⟩ := except_bind_ok h
    have htouch := pauseOne_ok hkeyed (hrows row mem_cons_self) hpaused
    have hother : ∀ other ∈ rest, onCase row.caseRef other = false := by
      intro other hmem
      refine beq_eq_false_iff_ne.mpr fun hcase => hfirst ?_
      exact hcase ▸ mem_map_of_mem hmem
    have hmid : ∀ other ∈ rest, other ∈ mid.cases := by
      intro other hmem
      rw [htouch.cases]
      refine mem_updateWhere_of_not (hrows other (mem_cons_of_mem _ hmem)) ?_
      simp [hother other hmem]
    refine (htouch.trans (ih (htouch.keyed hkeyed) hmid hrest hfold) (fun _ => rfl) ?_).of_eq
      fun _ _ => rfl
    intro found _ hcase
    refine any_eq_false.mpr ?_
    intro other hmem hsame
    have href := (beq_iff_eq.mp hcase).symm.trans (beq_iff_eq.mp hsame)
    exact absurd (beq_iff_eq.mpr href.symm) (by simpa [onCase] using hother other hmem)

/-- The pauses of one dispute are one update. -/
theorem pauseAdverseActions_ok {candidateId : Nat} {found : List String} (hkeyed : db.Keyed)
    (h : db.pauseAdverseActions tenantId candidateId found now = .ok db') :
    Paused db db'
      (fun row => Tables.pausable tenantId candidateId row && found.contains row.caseRef) now
      (pauseEvents now (db.toPause tenantId candidateId found)) := by
  have hrows : ∀ row ∈ db.toPause tenantId candidateId found, row ∈ db.cases :=
    fun row hrow => mem_of_mem_filter hrow
  have hnodup : ((db.toPause tenantId candidateId found).map AdverseCase.caseRef).Nodup :=
    (filter_sublist.map _).nodup hkeyed.cases
  refine ⟨(foldlM_pauseOne_ok hkeyed hrows hnodup h).of_eq ?_, ?_⟩
  · intro row hrow
    rw [Bool.eq_iff_iff, any_eq_true]
    constructor
    · rintro ⟨other, hother, hcase⟩
      obtain ⟨hmem, hmatch⟩ := mem_filter.mp hother
      obtain rfl := inj_on_of_nodup_map hkeyed.cases hrow hmem (beq_iff_eq.mp hcase)
      exact hmatch
    · intro hmatch
      exact ⟨row, mem_filter.mpr ⟨hrow, hmatch⟩, beq_self_eq_true _⟩
  · intro event
    rw [mem_pauseEvents]
    simp only [Tables.toPause, mem_filter, and_assoc]

theorem Paused.of_eq (h : Paused db db' p now events) (hpq : ∀ row ∈ db.cases, p row = q row) :
    Paused db db' q now events := by
  refine ⟨h.touches.of_eq hpq, fun event => (h.exact event).trans ?_⟩
  constructor
  · rintro ⟨row, hrow, hp, hevent⟩
    exact ⟨row, hrow, hpq row hrow ▸ hp, hevent⟩
  · rintro ⟨row, hrow, hq, hevent⟩
    exact ⟨row, hrow, hpq row hrow ▸ hq, hevent⟩

theorem pauseForDispute_ok (hkeyed : db.Keyed)
    (h : db.pauseForDispute caseRef tenantId disputed now = .ok db') :
    ∃ row ∈ db.cases, row.caseRef = caseRef ∧ row.tenantId = tenantId ∧ disputed = true ∧
      ∃ events, Paused db db' (Tables.pausable tenantId row.candidateId) now events := by
  obtain ⟨row, hrow, hrest⟩ := except_bind_ok h
  obtain ⟨hmem, rfl, htenant⟩ := lockedCase_ok hrow
  split at hrest
  · cases hrest
  · split at hrest
    · cases hrest
    next hdisputed =>
      dsimp only at hrest
      split at hrest
      · cases hrest
      · refine ⟨row, hmem, rfl, htenant, by simpa using hdisputed, _,
          (pauseAdverseActions_ok hkeyed hrest).of_eq ?_⟩
        intro other hother
        have hfound : (db.cases.map AdverseCase.caseRef).contains other.caseRef :=
          contains_iff_mem.mpr (mem_map_of_mem hother)
        rw [hfound, Bool.and_true]

theorem resumeCheck_ok {row : AdverseCase} (h : db.resumeCheck caseRef tenantId disputed = .ok
    row) :
    row ∈ db.cases ∧ row.caseRef = caseRef ∧ row.tenantId = tenantId ∧
      row.status = .pausedForDispute ∧ disputed = false := by
  obtain ⟨locked, hlocked, hrest⟩ := except_bind_ok h
  obtain ⟨hmem, hcase, htenant⟩ := lockedCase_ok hlocked
  split at hrest
  · cases hrest
  next hpaused =>
    obtain ⟨_, hdispute, hdone⟩ := except_bind_ok hrest
    cases hdone
    rw [not_or, not_not] at hpaused
    unfold Tables.assertNoOpenDispute at hdispute
    split at hdispute
    · cases hdispute
    · next hnone => exact ⟨hmem, hcase, htenant, hpaused.1, Bool.eq_false_iff.mpr hnone⟩

/-- The two ways in which a case is resumed. -/
inductive Resumes (db : Tables) (row : AdverseCase) (deliveryId now : Nat) (db' : Tables) :
    Prop where
  | requeued (pausedFrom : CaseStatus) (noticeType : NoticeType) (original : Delivery) :
      row.pausedFromStatus = some pausedFrom → Tables.pausedNotice pausedFrom = some noticeType →
      original ∈ db.deliveries → original.caseRef = row.caseRef →
      original.noticeType = noticeType →
      Touches db db' (onCase row.caseRef) (.unpause pausedFrom)
        [⟨deliveryId, row.caseRef, noticeType⟩] [⟨row.caseRef, .resumed, now⟩] →
      Resumes db row deliveryId now db'
  | continued (pausedFrom : CaseStatus) :
      row.pausedFromStatus = some pausedFrom → Tables.pausedNotice pausedFrom = none →
      Touches db db' (onCase row.caseRef) (.continueWaiting now) []
        [⟨row.caseRef, .resumed, now⟩] →
      Resumes db row deliveryId now db'

theorem resume_ok {row : AdverseCase} (h : db.resume row ids now = .ok db') :
    Resumes db row ids.deliveryId now db' := by
  unfold Tables.resume at h
  split at h
  · cases h
  next pausedFrom hfrom =>
    split at h
    next noticeType hnotice =>
      split at h
      · cases h
      next original hprior =>
        obtain ⟨queued, hqueued, hrest⟩ := except_bind_ok h
        obtain ⟨moved, hmoved, hdone⟩ := except_bind_ok hrest
        cases hdone
        have hsorted := mem_of_mem_head? (Option.mem_def.mpr hprior)
        have hcanceled := (perm_insertionSort _ _).mem_iff.mp hsorted
        obtain ⟨hmem, hmatch⟩ := mem_filter.mp hcanceled
        simp only [Bool.and_eq_true, beq_iff_eq] at hmatch
        obtain ⟨hcase, -, rfl⟩ := hmatch
        exact .requeued pausedFrom _ original hfrom hnotice hmem hcase rfl
          (touches_of_queued (queueNotice_ok hqueued) hmoved rfl rfl rfl)
    next hnotice =>
      obtain ⟨moved, hmoved, hdone⟩ := except_bind_ok h
      cases hdone
      exact .continued pausedFrom hfrom hnotice
        (touches_of_update (quiet_refl db) hmoved rfl rfl rfl)

/-! ### Initiation and the final notice -/

def Tables.InitiateInput.row (input : Tables.InitiateInput) : AdverseCase :=
  { caseRef := input.caseRef, tenantId := input.tenantId
    screeningOrderId := input.screeningOrderId, candidateId := input.candidateId
    status := .preNoticeQueued, waitingPeriodDays := input.waitingPeriodDays
    finalNoticeEligibleAt := none, pausedFromStatus := none, pausedAt := none }

structure Initiates (db db' : Tables) (input : Tables.InitiateInput) (deliveryId now : Nat) :
    Prop where
  cases : db'.cases = db.cases ++ [input.row]
  freshCase : input.caseRef ∉ db.cases.map AdverseCase.caseRef
  notices : db'.notices = db.notices ++ [⟨deliveryId, input.caseRef, .preAdverse⟩]
  freshNotice : deliveryId ∉ db.notices.map Notice.deliveryId
  events : db'.events =
    [⟨input.caseRef, .preNoticeQueued, now⟩, ⟨input.caseRef, .created, now⟩] ++ db.events

theorem initiateCheck_ok {sourceFound templateFound : Bool} {u : Unit}
    (h : Tables.initiateCheck input sourceFound disputed templateFound = .ok u) :
    disputed = false := by
  unfold Tables.initiateCheck at h
  split at h
  · cases h
  · split at h
    · cases h
    · cases disputed with
      | false => rfl
      | true => cases h

theorem initiatePreAdverse_ok (h : db.initiatePreAdverse input ids now = .ok db') :
    Initiates db db' input ids.deliveryId now := by
  unfold Tables.initiatePreAdverse at h
  split at h
  · cases h
  next hfree =>
    obtain ⟨queued, hqueued, hdone⟩ := except_bind_ok h
    cases hdone
    have hnotice := queueNotice_ok hqueued
    refine ⟨hnotice.cases, ?_, hnotice.notices, hnotice.fresh, ?_⟩
    · intro hmem
      obtain ⟨row, hrow, hcase⟩ := mem_map.mp hmem
      exact hfree (any_eq_true.mpr ⟨row, hrow, by simp [hcase]⟩)
    · exact congrArg _ (congrArg _ hnotice.events)

theorem queueFinalCheck_ok {templateFound : Bool} {row : AdverseCase}
    (h : db.queueFinalCheck caseRef tenantId disputed templateFound now = .ok row) :
    row ∈ db.cases ∧ row.caseRef = caseRef ∧ row.tenantId = tenantId ∧ row.status = .waiting ∧
      (∃ e, row.finalNoticeEligibleAt = some e ∧ Tables.eligible e now) ∧ disputed = false := by
  obtain ⟨locked, hlocked, hrest⟩ := except_bind_ok h
  obtain ⟨hmem, hcase, htenant⟩ := lockedCase_ok hlocked
  split at hrest
  · cases hrest
  next hwaiting =>
    obtain ⟨_, hdispute, hdone⟩ := except_bind_ok hrest
    split at hdone
    · obtain rfl := Except.ok.inj hdone
      rw [not_or, not_not] at hwaiting
      have heligible : ∃ e, locked.finalNoticeEligibleAt = some e ∧ Tables.eligible e now := by
        simpa [Option.any_eq_true] using hwaiting.2
      unfold Tables.assertNoOpenDispute at hdispute
      split at hdispute
      · cases hdispute
      next hnone =>
        exact ⟨hmem, hcase, htenant, hwaiting.1, heligible, Bool.eq_false_iff.mpr hnone⟩
    · cases hdone

theorem queueFinalAdverse_ok (h : db.queueFinalAdverse caseRef channel ids now = .ok db') :
    Touches db db' (onCase caseRef) (.status .finalNoticeQueued)
      [⟨ids.deliveryId, caseRef, .finalAdverse⟩] [⟨caseRef, .finalNoticeQueued, now⟩] := by
  obtain ⟨queued, hqueued, hrest⟩ := except_bind_ok h
  obtain ⟨moved, hmoved, hdone⟩ := except_bind_ok hrest
  cases hdone
  exact touches_of_queued (queueNotice_ok hqueued) hmoved rfl rfl rfl

/-! ### The worker's transactions -/

theorem quiet_lease (db : Tables) (now : Nat) (ids : List Nat) :
    Quiet db ((db.releaseExpired now).markLeased now ids) := ⟨rfl, rfl, rfl⟩

theorem quiet_cancelLeased (db : Tables) (event : LeasedNotice) :
    Quiet db (db.cancelLeased event) :=
  (quiet_setOutbox db _ _).trans (quiet_setDeliveries _ _ _)

theorem markDelivered_ok {event : LeasedNotice} (h : db.markDelivered event now = .ok db') :
    Quiet db db' ∨ ∃ row ∈ db.cases, row.caseRef = event.caseRef ∧
      Tables.stateChanged row.status = false ∧ event.noticeType.adverse ∧
      (∃ d ∈ db.deliveries, d.id = event.deliveryId ∧ d.caseRef = event.caseRef ∧
        d.status = .queued) ∧
      Touches db db' (onCase event.caseRef) (deliveredWrite event.noticeType now) []
        (deliveredEvents event.caseRef event.noticeType now) := by
  unfold Tables.markDelivered at h
  split at h
  next row d hrow hd =>
    split at h
    · cases h
      exact .inl (quiet_setOutbox _ _ _)
    next hsame =>
      have hquiet := (quiet_setOutbox db (fun o => o.id == event.id && o.state == .leased)
        .delivered).trans (quiet_setDeliveries _ (fun d => d.id == event.deliveryId) .delivered)
      cases hadverse : event.noticeType.adverse with
      | true =>
        have hmatch := find?_some hd
        simp only [Bool.and_eq_true, beq_iff_eq] at hmatch
        rw [not_or, not_not] at hsame
        exact .inr ⟨row, mem_of_find?_eq_some hrow, by simpa using find?_some hrow,
          Bool.eq_false_iff.mpr hsame.2, rfl,
          ⟨d, mem_of_find?_eq_some hd, hmatch.1, hmatch.2, hsame.1⟩,
          advance_ok hadverse hquiet h⟩
      | false =>
        unfold Tables.advance at h
        split at h
        · next hpre => rw [hpre] at hadverse; cases hadverse
        · next hfinal => rw [hfinal] at hadverse; cases hadverse
        · cases h
          exact .inl hquiet
  · cases h
    exact .inl (quiet_setOutbox _ _ _)

/-- The cases that a dead letter moves. -/
def movedByDeadLetter (event : LeasedNotice) (row : AdverseCase) : Bool :=
  row.caseRef == event.caseRef && !row.status.terminal

theorem restoreOrDeadLetter_ok {event : LeasedNotice} {retryable : Bool}
    (h : db.restoreOrDeadLetter event now retryable = .ok db') :
    (terminalFailure event retryable = false ∧ Quiet db db') ∨
      (terminalFailure event retryable ∧
        Touches db db' (movedByDeadLetter event) (.status .manualDelivery) []
          [⟨event.caseRef, .manualDeliveryRequired, now⟩]) := by
  unfold Tables.restoreOrDeadLetter at h
  dsimp only at h
  split at h
  next hterminal =>
    obtain ⟨moved, hmoved, hdone⟩ := except_bind_ok h
    cases hdone
    have hfailed : Quiet db { db with
        outbox := updateWhere (fun row => row.id == event.id && row.state == .leased)
          (Tables.failedRow event now retryable) db.outbox } := ⟨rfl, rfl, rfl⟩
    exact .inr ⟨hterminal,
      touches_of_update (hfailed.trans (quiet_setDeliveries _ _ _)) hmoved rfl rfl rfl⟩
  next hretry =>
    cases h
    exact .inl ⟨Bool.eq_false_iff.mpr hretry, ⟨rfl, rfl, rfl⟩⟩

end Bis.Adverse
