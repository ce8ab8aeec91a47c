import Bis.Disputes.Steps
import Mathlib.Data.List.Count

/-!
What the provider outbox promises: no request for a case that is over, attempt
counts that do not go down, and no more dispatches of an event than attempts are
allowed. Requests outlive their case, a worker goes on after its lease has
expired, and a lease that expires does not count as an attempt.
-/

namespace Bis.Disputes

open Bis.Relation Bis.Transition List Function

variable {sha256 : String → String} {db db' : Tables} {s t : Desk}

def Tables.Over (db : Tables) (caseRef : String) : Prop :=
  ∃ status, db.status? caseRef = some status ∧ status.terminal

/-- The row will be taken, or is taken. -/
def ProviderOutboxRow.live (row : ProviderOutboxRow) : Bool :=
  row.state == .pending || row.state == .leased

/-- Nothing is dispatched for a case that is resolved or withdrawn. -/
def DispatchesOpen (s : Desk) : DeskStep → Prop
  | .dispatch worker _ =>
    ∀ work event rest, s.cycles worker = .working work event rest → ¬ s.db.Over event.caseRef
  | _ => True

/-- No event has fewer attempts after the step than before. -/
def AttemptsGrow (sha256 : String → String) (s : Desk) (a : DeskStep) : Prop :=
  ∀ t, deskStep sha256 s a = some t → ∀ row ∈ s.db.outbox,
    ∃ row' ∈ t.db.outbox, row'.id = row.id ∧ row.attemptCount ≤ row'.attemptCount

def Desk.dispatches (s : Desk) (id : Nat) : Nat := (s.dispatched.map Prod.snd).count id

def Desk.leases (s : Desk) (id : Nat) : Nat := (s.leased.map Prod.snd).count id

/-- No request of the case is waiting, leased or in the hands of a worker. -/
def Desk.Drained (s : Desk) (caseRef : String) : Prop :=
  (∀ row ∈ s.db.outbox, row.caseRef = caseRef → row.live = false) ∧
    ∀ worker, ∀ event ∈ (s.cycles worker).events, event.caseRef ≠ caseRef

/-- Cases are closed when their requests are through; a failure is recorded on a
leased row only if that has not been attempted twice since the worker read it; and
no event is leased more often than it may be attempted. -/
def Accountable (s : Desk) : DeskStep → Prop
  | .mutate _ (.complete caseRef _) => s.Drained caseRef
  | .withdrawCommit session => ∀ w, s.withdrawal? session = some w → s.Drained w.caseRef
  | .restore worker _ answer =>
    answer = .refused ∨ ∀ work event rest, s.cycles worker = .working work event rest →
      ∀ row ∈ s.db.outbox, row.id = event.id → row.state = .leased →
        row.attemptCount ≤ event.nextAttempt
  | .lease _ now locked =>
    ∀ row ∈ (s.db.releaseExpired now).batch now locked, s.leases row.id < maxDispatchAttempts
  | _ => True

/-! ### Cycles -/

/-- The events of a cycle that it has not handed to the adapter yet. -/
def Cycle.waiting : Cycle → List Nat
  | .idle => []
  | .working work event rest =>
    (match work with
      | .opening | .authorizing | .dispatching => [event.id]
      | .refusing | .failing _ => []) ++ rest.map LeasedOutboxEvent.id

theorem waiting_next (events : List LeasedOutboxEvent) :
    (Cycle.next events).waiting = events.map LeasedOutboxEvent.id := by
  cases events with
  | nil | cons => rfl

theorem events_next (events : List LeasedOutboxEvent) : (Cycle.next events).events = events := by
  cases events with
  | nil | cons => rfl

/-- A cycle that goes on with less. -/
structure Cycle.Shrinks (cycle cycle' : Cycle) : Prop where
  events : ∀ event ∈ cycle'.events, event ∈ cycle.events
  waiting : ∀ id, cycle'.waiting.count id ≤ cycle.waiting.count id

theorem shrinks_idle (cycle : Cycle) : cycle.Shrinks .idle where
  events event hevent := by cases hevent
  waiting id := Nat.zero_le _

theorem shrinks_next (work : Work) (event : LeasedOutboxEvent) (rest : List LeasedOutboxEvent) :
    (Cycle.working work event rest).Shrinks (.next rest) where
  events other hother := by
    rw [events_next] at hother
    exact mem_cons_of_mem _ hother
  waiting id := by
    rw [waiting_next]
    simp only [Cycle.waiting, count_append]
    exact Nat.le_add_left _ _

theorem shrinks_working {work work' : Work} (event : LeasedOutboxEvent)
    (rest : List LeasedOutboxEvent)
    (h : (∃ retryable, work' = .failing retryable) ∨ work' = .refusing ∨ work = .opening ∨
      work = .authorizing) :
    (Cycle.working work event rest).Shrinks (.working work' event rest) where
  events other hother := hother
  waiting id := by
    simp only [Cycle.waiting, count_append]
    refine Nat.add_le_add_right ?_ _
    rcases h with ⟨retryable, rfl⟩ | rfl | rfl | rfl
    · exact Nat.zero_le _
    · exact Nat.zero_le _
    · cases work' <;> simp
    · cases work' <;> simp

theorem shrinks_afterError (work : Work) (event : LeasedOutboxEvent)
    (rest : List LeasedOutboxEvent) :
    (Cycle.working work event rest).Shrinks (work.afterError event rest) := by
  unfold Work.afterError
  split
  · exact shrinks_working event rest (.inl ⟨true, rfl⟩)
  · exact shrinks_idle _

/-! ### Tables -/

theorem over_setCaseStatus {caseRef other : String} {status : DisputeStatus}
    (h : (db.setCaseStatus caseRef status).Over other) :
    db.Over other ∨ (other = caseRef ∧ status.terminal) := by
  obtain ⟨now, hnow, hterminal⟩ := h
  rw [Tables.status?_setCaseStatus] at hnow
  split at hnow
  next hother =>
    obtain ⟨_, _, rfl⟩ := Option.map_eq_some_iff.mp hnow
    exact .inr ⟨hother, hterminal⟩
  · exact .inl ⟨now, hnow, hterminal⟩

/-- A mutation ends a case only by completing it. -/
theorem over_of_mutates {m : Mutation} (hm : Mutates db m db') {caseRef : String}
    (h : db'.Over caseRef) : db.Over caseRef ∨ ∃ tenantId, m = .complete caseRef tenantId := by
  cases hm with
  | @opened ref tenantId userId candidateId itemRefs items hfresh =>
    obtain ⟨status, hstatus, hterminal⟩ := h
    rw [@Tables.status?_append db
      { caseRef := ref, tenantId, requesterUserId := userId, candidateId, status := .received }
      hfresh items] at hstatus
    split at hstatus
    · cases hstatus
      cases hterminal
    · exact .inl ⟨status, hstatus, hterminal⟩
  | accepted | responded => exact .inl ((over_setCaseStatus h).resolve_right fun h => nomatch h.2)
  | assigned | dispositioned | escalated | settled => exact .inl h
  | requested _ _ hrequested =>
    have hbefore := (over_setCaseStatus h).resolve_right fun h => nomatch h.2
    obtain ⟨status, hstatus, hterminal⟩ := hbefore
    rw [Tables.status?_congr hrequested.cases] at hstatus
    exact .inl ⟨status, hstatus, hterminal⟩
  | completed =>
    rcases over_setCaseStatus h with h | ⟨rfl, _⟩
    · exact .inl h
    · exact .inr ⟨_, rfl⟩

theorem outbox_of_mutates {m : Mutation} (hm : Mutates db m db') :
    db'.outbox = db.outbox ∨ ∃ row : ProviderOutboxRow, row.attemptCount = 0 ∧
      row.id ∉ db.outbox.map ProviderOutboxRow.id ∧ ¬ db'.Over row.caseRef ∧
      db'.outbox = db.outbox ++ [row] := by
  cases hm with
  | @requested input tenantId taskRef outboxId status stored hstatus hclosed hrequested =>
    rcases hrequested.outbox with hsame | ⟨row, hcase, _, hattempts, hid, hadded⟩
    · exact .inl hsame
    · refine .inr ⟨row, hattempts, hid, ?_, hadded⟩
      rintro ⟨now, hnow, hterminal⟩
      rw [hcase, Tables.status?_setCaseStatus, if_pos rfl] at hnow
      obtain ⟨_, _, rfl⟩ := Option.map_eq_some_iff.mp hnow
      cases hterminal
  | opened | accepted | assigned | responded | dispositioned | completed | escalated
    | settled => exact .inl rfl

/-- A row at a later time, with the same number of attempts unless it says otherwise. -/
structure ProviderOutboxRow.Later (row row' : ProviderOutboxRow) : Prop where
  id : row'.id = row.id
  caseRef : row'.caseRef = row.caseRef
  live : row'.live → row.live

theorem later_refl (row : ProviderOutboxRow) : row.Later row := ⟨rfl, rfl, id⟩

variable {now worker : Nat} {row' : ProviderOutboxRow} {event : LeasedOutboxEvent}

theorem later_released (h : row' ∈ (db.releaseExpired now).outbox) :
    ∃ row ∈ db.outbox, row.Later row' ∧ row'.attemptCount = row.attemptCount := by
  rcases mem_updateWhere.mp h with ⟨row, hrow, hexpired, rfl⟩ | ⟨hrow, _⟩
  · refine ⟨row, hrow, ⟨rfl, rfl, fun _ => ?_⟩, rfl⟩
    unfold ProviderOutboxRow.expired at hexpired
    rw [Bool.and_eq_true] at hexpired
    rw [ProviderOutboxRow.live, hexpired.1, Bool.or_true]
  · exact ⟨row', hrow, later_refl row', rfl⟩

theorem later_leased {ids : List Nat} (h : row' ∈ (db.markLeased now ids).outbox) :
    ∃ row ∈ db.outbox, row.Later row' ∧ row'.attemptCount = row.attemptCount := by
  rcases mem_updateWhere.mp h with ⟨row, hrow, hselected, rfl⟩ | ⟨hrow, _⟩
  · refine ⟨row, hrow, ⟨rfl, rfl, fun _ => ?_⟩, rfl⟩
    rw [Bool.and_eq_true] at hselected
    rw [ProviderOutboxRow.live, hselected.2, Bool.true_or]
  · exact ⟨row', hrow, later_refl row', rfl⟩

theorem outbox_restoreOrFail (event : LeasedOutboxEvent) (now : Nat) (retryable : Bool) :
    (db.restoreOrFail event now retryable).outbox =
      updateWhere (fun row => row.id == event.id && row.state == .leased)
        (failedRow event now retryable) db.outbox := by
  unfold Tables.restoreOrFail
  split
  · rfl
  · rfl

theorem cases_restoreOrFail (event : LeasedOutboxEvent) (now : Nat) (retryable : Bool) :
    (db.restoreOrFail event now retryable).cases = db.cases := by
  unfold Tables.restoreOrFail
  split
  · rfl
  · rfl

theorem failedRow_id (event : LeasedOutboxEvent) (now : Nat) (retryable : Bool)
    (row : ProviderOutboxRow) : (failedRow event now retryable row).id = row.id := by
  unfold failedRow
  split
  · rfl
  · rfl

theorem failedRow_attemptCount (event : LeasedOutboxEvent) (now : Nat) (retryable : Bool)
    (row : ProviderOutboxRow) :
    (failedRow event now retryable row).attemptCount = event.nextAttempt := by
  unfold failedRow
  split
  · rfl
  · rfl

theorem later_failed {retryable : Bool} (h : row' ∈ (db.restoreOrFail event now retryable).outbox) :
    ∃ row ∈ db.outbox, row.Later row' := by
  rw [outbox_restoreOrFail] at h
  rcases mem_updateWhere.mp h with ⟨row, hrow, hselected, rfl⟩ | ⟨hrow, _⟩
  · refine ⟨row, hrow, failedRow_id event now retryable row, ?_, fun _ => ?_⟩
    · unfold failedRow
      split
      · rfl
      · rfl
    · rw [Bool.and_eq_true] at hselected
      rw [ProviderOutboxRow.live, hselected.2, Bool.or_true]
  · exact ⟨row', hrow, later_refl row'⟩

/-! ### The invariant -/

structure Served (s : Desk) : Prop where
  keyed : s.db.Keyed
  ids : (s.db.outbox.map ProviderOutboxRow.id).Nodup
  rowsOpen : ∀ row ∈ s.db.outbox, row.live → ¬ s.db.Over row.caseRef
  eventsOpen : ∀ worker, ∀ event ∈ (s.cycles worker).events, ¬ s.db.Over event.caseRef
  counted : ∀ worker id, s.dispatched.count (worker, id) + (s.cycles worker).waiting.count id ≤
    s.leased.count (worker, id)
  bounded : ∀ id, s.leases id ≤ maxDispatchAttempts

theorem served_empty : Served .empty where
  keyed := nodup_nil
  ids := nodup_nil
  rowsOpen row hrow := by cases hrow
  eventsOpen worker event hevent := by cases hevent
  counted worker id := Nat.le_refl _
  bounded id := Nat.zero_le _

/-- Each event is dispatched at most once for each time it is leased. -/
theorem Served.dispatches_le (h : Served s) (id : Nat) : s.dispatches id ≤ s.leases id := by
  have hcount : ∀ pair ∈ s.dispatched, s.dispatched.count pair ≤ s.leased.count pair := by
    rintro ⟨worker, event⟩ _
    exact (Nat.le_add_right _ _).trans (h.counted worker event)
  have hsub : s.dispatched.Subperm s.leased := subperm_ext_iff.mpr hcount
  obtain ⟨shared, hperm, hsublist⟩ := hsub
  have hsame := (hperm.map Prod.snd).count_eq id
  have hle := (hsublist.map Prod.snd).count_le id
  unfold Desk.dispatches Desk.leases
  omega

/-- The tables change and one cycle goes on with less. -/
theorem Served.of_shrink (h : Served s) (worker : Nat) (hkeyed : t.db.Keyed)
    (hids : t.db.outbox.map ProviderOutboxRow.id = s.db.outbox.map ProviderOutboxRow.id)
    (hrows : ∀ row' ∈ t.db.outbox, ∃ row ∈ s.db.outbox, row.Later row')
    (hover : ∀ caseRef, t.db.Over caseRef → s.db.Over caseRef)
    (hshrinks : (s.cycles worker).Shrinks (t.cycles worker))
    (hothers : ∀ other, other ≠ worker → t.cycles other = s.cycles other)
    (hdispatched : t.dispatched = s.dispatched) (hleased : t.leased = s.leased) :
    Served t := by
  have hcycles : ∀ other, (s.cycles other).Shrinks (t.cycles other) := by
    intro other
    rcases eq_or_ne other worker with rfl | hne
    · exact hshrinks
    · rw [hothers other hne]
      exact ⟨fun event hevent => hevent, fun id => Nat.le_refl _⟩
  constructor
  · exact hkeyed
  · rw [hids]
    exact h.ids
  · intro row' hrow' hlive hended
    obtain ⟨row, hrow, hlater⟩ := hrows row' hrow'
    exact h.rowsOpen row hrow (hlater.live hlive) (hlater.caseRef ▸ hover _ hended)
  · intro other event hevent hended
    exact h.eventsOpen other event ((hcycles other).events event hevent) (hover _ hended)
  · intro other id
    have hle := h.counted other id
    have hwaiting := (hcycles other).waiting id
    rw [hdispatched, hleased]
    omega
  · intro id
    have hle := h.bounded id
    unfold Desk.leases at hle ⊢
    rw [hleased]
    exact hle

theorem Served.of_cycle (h : Served s) {cycle : Cycle} (hshrinks : (s.cycles worker).Shrinks
    cycle) : Served (s.setCycle worker cycle) := by
  refine h.of_shrink worker h.keyed rfl
    (fun row hrow => ⟨row, hrow, later_refl row⟩) (fun _ hended => hended) ?_ ?_ rfl rfl
  · simp only [Desk.setCycle, update_self]
    exact hshrinks
  · intro other hne
    exact update_of_ne hne _ _

/-- The tables change and the cycles do not. -/
theorem Served.of_tables (h : Served s) (hkeyed : db'.Keyed)
    (houtbox : db'.outbox = s.db.outbox ∨ ∃ row : ProviderOutboxRow,
      row.id ∉ s.db.outbox.map ProviderOutboxRow.id ∧ ¬ db'.Over row.caseRef ∧
        db'.outbox = s.db.outbox ++ [row])
    (hover : ∀ caseRef, db'.Over caseRef → s.db.Over caseRef ∨ s.Drained caseRef)
    {clock : Nat} {withdrawals : List Withdrawal} :
    Served { s with db := db', clock, withdrawals } := by
  have hrows : ∀ row ∈ s.db.outbox, row.live → ¬ db'.Over row.caseRef := by
    intro row hrow hlive hended
    rcases hover _ hended with hbefore | hdrained
    · exact h.rowsOpen row hrow hlive hbefore
    · rw [hdrained.1 row hrow rfl] at hlive
      cases hlive
  refine ⟨hkeyed, ?_, ?_, ?_, h.counted, h.bounded⟩
  · rcases houtbox with hsame | ⟨row, hfresh, _, hadded⟩
    · rw [hsame]
      exact h.ids
    · rw [hadded, map_append]
      exact nodup_append_fresh h.ids hfresh
  · rcases houtbox with hsame | ⟨added, _, hopen, hadded⟩
    · rw [hsame]
      exact hrows
    · intro row hrow hlive
      rw [hadded] at hrow
      rcases mem_concat.mp hrow with hold | rfl
      · exact hrows row hold hlive
      · exact hopen
  · intro worker event hevent hended
    rcases hover _ hended with hbefore | hdrained
    · exact h.eventsOpen worker event hevent hbefore
    · exact hdrained.2 worker event hevent rfl

/-! ### Steps -/

theorem ids_releaseExpired (db : Tables) (now : Nat) :
    (db.releaseExpired now).outbox.map ProviderOutboxRow.id =
      db.outbox.map ProviderOutboxRow.id := by
  apply map_updateWhere
  intro row
  rfl

theorem ids_markLeased (db : Tables) (now : Nat) (ids : List Nat) :
    (db.markLeased now ids).outbox.map ProviderOutboxRow.id =
      db.outbox.map ProviderOutboxRow.id := by
  apply map_updateWhere
  intro row
  rfl

theorem batch_ids_nodup (h : Served s) (now : Nat) (locked : Nat → Bool) :
    (((s.db.releaseExpired now).batch now locked).map ProviderOutboxRow.id).Nodup := by
  have hnodup := h.ids
  rw [← ids_releaseExpired s.db now] at hnodup
  obtain ⟨shared, hperm, hsublist⟩ := firstBy_subperm (r := ProviderOutboxRow.before)
    dispatchBatchSize ((s.db.releaseExpired now).outbox.filter fun row =>
      decide (row.state = .pending ∧ row.availableAt ≤ now) && !locked row.id)
  have hsub := (hsublist.trans filter_sublist).map ProviderOutboxRow.id
  exact (hperm.map ProviderOutboxRow.id).nodup_iff.mp (hnodup.sublist hsub)

variable {locked : Nat → Bool} {rest : List LeasedOutboxEvent}

theorem mem_batch {row : ProviderOutboxRow} (h : row ∈ db.batch now locked) :
    row ∈ db.outbox ∧ row.state = .pending := by
  have hmem := mem_filter.mp (mem_firstBy h)
  rw [Bool.and_eq_true, decide_eq_true_eq] at hmem
  exact ⟨hmem.1, hmem.2.1.1⟩

theorem count_map_pair (worker other id : Nat) (ids : List Nat) :
    (ids.map (Prod.mk worker)).count (other, id) = if other = worker then ids.count id else 0 := by
  split
  next hother =>
    subst hother
    exact count_map_of_injective ids (Prod.mk other) (Prod.mk_right_injective other) id
  next hother =>
    refine count_eq_zero.mpr ?_
    intro hmem
    obtain ⟨_, _, heq⟩ := mem_map.mp hmem
    exact hother (Prod.mk.inj heq).1.symm

theorem served_lease (h : Served s)
    (hfew : ∀ row ∈ (s.db.releaseExpired now).batch now locked, s.leases row.id <
      maxDispatchAttempts) : Served (s.lease worker now locked) := by
  have hlater : ∀ row' ∈ (s.lease worker now locked).db.outbox,
      ∃ row ∈ s.db.outbox, row.Later row' := by
    intro row' hrow'
    obtain ⟨mid, hmid, hsecond, _⟩ := later_leased hrow'
    obtain ⟨row, hrow, hfirst, _⟩ := later_released hmid
    refine ⟨row, hrow, hsecond.id.trans hfirst.id, hsecond.caseRef.trans hfirst.caseRef, ?_⟩
    exact fun hlive => hfirst.live (hsecond.live hlive)
  have hnodup := batch_ids_nodup h now locked
  constructor
  · exact h.keyed
  · have hids : (s.lease worker now locked).db.outbox.map ProviderOutboxRow.id =
        s.db.outbox.map ProviderOutboxRow.id :=
      (ids_markLeased _ _ _).trans (ids_releaseExpired s.db now)
    rw [hids]
    exact h.ids
  · intro row' hrow' hlive hended
    obtain ⟨row, hrow, hrowLater⟩ := hlater row' hrow'
    exact h.rowsOpen row hrow (hrowLater.live hlive) (hrowLater.caseRef ▸ hended)
  · intro other event hevent hended
    simp only [Desk.lease, Desk.setCycle, update_apply] at hevent
    split at hevent
    · rw [events_next] at hevent
      obtain ⟨picked, hpicked, rfl⟩ := mem_map.mp hevent
      obtain ⟨hmem, hpending⟩ := mem_batch hpicked
      obtain ⟨row, hrow, hrowLater, _⟩ := later_released hmem
      have hlive : picked.live := by rw [ProviderOutboxRow.live, hpending]; rfl
      exact h.rowsOpen row hrow (hrowLater.live hlive) (hrowLater.caseRef ▸ hended)
    · exact h.eventsOpen other event hevent hended
  · intro other id
    have hle := h.counted other id
    simp only [Desk.lease, Desk.setCycle, count_append, count_map_pair,
      update_apply]
    split
    · rw [waiting_next, map_map]
      have hsame : (LeasedOutboxEvent.id ∘ ProviderOutboxRow.toEvent) = ProviderOutboxRow.id := rfl
      rw [hsame]
      omega
    · omega
  · intro id
    have hle := h.bounded id
    have hpairs : (((((s.db.releaseExpired now).batch now locked).map
        ProviderOutboxRow.id).map (Prod.mk worker)).map Prod.snd) =
        ((s.db.releaseExpired now).batch now locked).map ProviderOutboxRow.id := by
      simp [map_map, Function.comp_def]
    simp only [Desk.leases, Desk.lease, Desk.setCycle, map_append, count_append]
    rw [hpairs]
    by_cases hmem : id ∈ ((s.db.releaseExpired now).batch now locked).map ProviderOutboxRow.id
    · obtain ⟨row, hrow, rfl⟩ := mem_map.mp hmem
      have hone := nodup_iff_count_le_one.mp hnodup row.id
      have hlt := hfew row hrow
      unfold Desk.leases at hlt
      omega
    · rw [count_eq_zero.mpr hmem]
      unfold Desk.leases at hle
      omega

theorem served_dispatch (h : Served s) {adapter : AdapterAnswer}
    (hcycle : s.cycles worker = .working .dispatching event rest) :
    Served ({ s with dispatched := (worker, event.id) :: s.dispatched }.setCycle worker
      (adapter.cycle event rest)) := by
  have hevents : ∀ other ∈ (adapter.cycle event rest).events, other ∈ event :: rest := by
    intro other hother
    cases adapter with
    | notInstalled | failed => exact hother
    | accepted =>
      simp only [AdapterAnswer.cycle] at hother
      rw [events_next] at hother
      exact mem_cons_of_mem _ hother
  have hwaiting : (adapter.cycle event rest).waiting = rest.map LeasedOutboxEvent.id := by
    cases adapter with
    | notInstalled | failed => rfl
    | accepted => exact waiting_next rest
  refine ⟨h.keyed, h.ids, h.rowsOpen, ?_, ?_, h.bounded⟩
  · intro other found hfound hended
    simp only [Desk.setCycle, update_apply] at hfound
    split at hfound
    · refine h.eventsOpen worker found ?_ hended
      rw [hcycle]
      exact hevents found hfound
    · exact h.eventsOpen other found hfound hended
  · intro other id
    have hle := h.counted other id
    simp only [Desk.setCycle, update_apply, count_cons]
    rcases eq_or_ne other worker with rfl | hne
    · have hpair : ((other, event.id) == (other, id)) = (event.id == id) := by simp
      rw [hcycle] at hle
      simp only [Cycle.waiting, singleton_append, count_cons] at hle
      rw [if_pos rfl, hwaiting, hpair]
      omega
    · have hpair : ((worker, event.id) == (other, id)) = false := by simp [hne.symm]
      rw [if_neg hne, hpair]
      simpa using hle

theorem served_restore (h : Served s) {work : Work} {retryable : Bool} {cycle : Cycle}
    (hcycle : s.cycles worker = .working work event rest)
    (hnext : cycle = .next rest ∨ cycle = work.afterError event rest) :
    Served ({ s with db := s.db.restoreOrFail event now retryable, clock := now }.setCycle worker
      cycle) := by
  have hcases : (s.db.restoreOrFail event now retryable).cases = s.db.cases :=
    cases_restoreOrFail event now retryable
  refine h.of_shrink worker ?_ ?_ (fun row' hrow' => later_failed hrow') ?_ ?_ ?_ rfl rfl
  · change (List.map DisputeCase.caseRef (s.db.restoreOrFail event now retryable).cases).Nodup
    rw [hcases]
    exact h.keyed
  · change (s.db.restoreOrFail event now retryable).outbox.map ProviderOutboxRow.id = _
    rw [outbox_restoreOrFail]
    apply map_updateWhere
    exact failedRow_id event now retryable
  · rintro caseRef ⟨status, hstatus, hterminal⟩
    refine ⟨status, ?_, hterminal⟩
    rw [← Tables.status?_congr hcases]
    exact hstatus
  · simp only [Desk.setCycle, update_self]
    rw [hcycle]
    rcases hnext with rfl | rfl
    · exact shrinks_next work event rest
    · exact shrinks_afterError work event rest
  · intro other hne
    exact update_of_ne hne _ _

theorem served_of_step {a : DeskStep} (h : Served s) (hC : Accountable s a)
    (hstep : deskStep sha256 s a = some t) : Served t := by
  cases deskTakes_of_step h.keyed hstep with
  | mutated _ hm =>
    refine h.of_tables (keyed_of_mutates h.keyed hm) ?_ ?_
    · rcases outbox_of_mutates hm with hsame | ⟨row, _, hrow⟩
      · exact .inl hsame
      · exact .inr ⟨row, hrow⟩
    · intro caseRef hended
      rcases over_of_mutates hm hended with hbefore | ⟨tenantId, rfl⟩
      · exact .inl hbefore
      · exact .inr hC
  | @withdrew session w taskRefs hw hrefs =>
    have hkeyed : (s.db.withdraw w.caseRef taskRefs).Keyed :=
      keyed_setCaseStatus h.keyed _ _
    refine h.of_tables hkeyed (.inl rfl) ?_
    intro caseRef hended
    rcases over_setCaseStatus hended with hbefore | ⟨rfl, _⟩
    · exact .inl hbefore
    · exact .inr (hC w hw)
  | checked | selected | rolledBack =>
    exact h.of_tables h.keyed (.inl rfl) fun _ hended => .inl hended
  | leased => exact served_lease h hC
  | @decrypted worker opening event rest hcycle =>
    refine h.of_cycle ?_
    rw [hcycle]
    exact shrinks_working event rest (.inr (.inr (.inl rfl)))
  | @authorized worker authorization event rest hcycle =>
    refine h.of_cycle ?_
    rw [hcycle]
    exact shrinks_working event rest (.inr (.inr (.inr rfl)))
  | dispatched hcycle => exact served_dispatch h hcycle
  | restored _ _ hcycle _ hnext => exact served_restore h hcycle hnext
  | @notRestored worker now answer work event rest retryable _ hcycle _ =>
    refine h.of_cycle ?_
    rw [hcycle]
    exact shrinks_afterError work event rest
  | crashed => exact h.of_cycle (shrinks_idle _)

theorem attemptsGrow_of_step {a : DeskStep} (hkeyed : s.db.Keyed) (hC : Accountable s a) :
    AttemptsGrow sha256 s a := by
  intro t hstep row hrow
  cases deskTakes_of_step hkeyed hstep with
  | mutated _ hm =>
    refine ⟨row, ?_, rfl, Nat.le_refl _⟩
    rcases outbox_of_mutates hm with hsame | ⟨_, _, _, _, hadded⟩
    · exact hsame ▸ hrow
    · exact hadded ▸ mem_append_left _ hrow
  | @leased worker now locked =>
    have hreleased : ∃ mid ∈ (s.db.releaseExpired now).outbox,
        mid.id = row.id ∧ row.attemptCount ≤ mid.attemptCount := by
      by_cases hexpired : row.expired now
      · exact ⟨_, mem_updateWhere.mpr (.inl ⟨row, hrow, hexpired, rfl⟩), rfl, Nat.le_refl _⟩
      · exact ⟨row, mem_updateWhere_of_not hrow hexpired, rfl, Nat.le_refl _⟩
    obtain ⟨mid, hmid, hid, hle⟩ := hreleased
    let ids := ((s.db.releaseExpired now).batch now locked).map ProviderOutboxRow.id
    by_cases hselected : (ids.contains mid.id && mid.state == .pending)
    · exact ⟨_, mem_updateWhere.mpr (.inl ⟨mid, hmid, hselected, rfl⟩), hid, hle⟩
    · exact ⟨mid, mem_updateWhere_of_not hmid hselected, hid, hle⟩
  | @restored worker now answer work event rest retryable cycle _ hanswer hcycle _ _ =>
    simp only [Desk.setCycle, outbox_restoreOrFail]
    by_cases hselected : (row.id == event.id && row.state == .leased)
    · refine ⟨_, mem_updateWhere.mpr (.inl ⟨row, hrow, hselected, rfl⟩),
        failedRow_id event now retryable row, ?_⟩
      rw [failedRow_attemptCount]
      rw [Bool.and_eq_true, beq_iff_eq, beq_iff_eq] at hselected
      exact hC.resolve_left hanswer work event rest hcycle row hrow hselected.1 hselected.2
    · exact ⟨row, mem_updateWhere_of_not hrow hselected, rfl, Nat.le_refl _⟩
  | checked | selected | withdrew | rolledBack | decrypted | authorized | dispatched
    | notRestored | crashed => exact ⟨row, hrow, rfl, Nat.le_refl _⟩

/-! ### Results -/

/-- In runs that close drained cases, record failures in order and lease no event
too often, nothing is dispatched for a case that is over, attempt counts do not go
down and no event is dispatched more than twelve times. -/
theorem outbox_accountable {labels : List DeskStep}
    (h : Meets (deskStep sha256) Accountable .empty labels) :
    Meets (deskStep sha256) (fun s a => DispatchesOpen s a ∧ AttemptsGrow sha256 s a) .empty
        labels ∧
      Always (deskStep sha256) (fun s => ∀ id, s.dispatches id ≤ maxDispatchAttempts) .empty
        labels := by
  have hstep : ∀ s a t, Served s → Accountable s a → deskStep sha256 s a = some t → Served t :=
    fun s a t hserved hC hstep => served_of_step hserved hC hstep
  constructor
  · refine meets_of_invariant hstep ?_ served_empty h
    intro s a hserved hC
    refine ⟨?_, attemptsGrow_of_step hserved.keyed hC⟩
    cases a with
    | dispatch worker adapter =>
      intro work event rest hcycle
      refine hserved.eventsOpen worker event ?_
      rw [hcycle]
      exact mem_cons_self
    | mutate | withdrawCheck | withdrawTasks | withdrawCommit | withdrawRollback | lease
      | decrypt | authorize | restore | crash => trivial
  · refine (always_of_meets hstep served_empty h).mono ?_
    exact fun s hserved id => (hserved.dispatches_le id).trans (hserved.bounded id)

/-! ### A request and its failures -/

def sampleRequest : Tables.SourceTaskInput :=
  { caseRef := "BIS-DR-1", disputeItemRef := "BIS-DI-1", providerAuthorizationRef := "AUTH-1"
    authorized := true, manifest := "[]" }

/-- A case with one request. -/
def requestRun : List DeskStep :=
  [.mutate 0 (.openCase "BIS-DR-1" 7 1 9 ["BIS-DI-1"]),
    .mutate 0 (.createSourceTask sampleRequest (some 7) "BIS-DST-1" 1)]

def leaseStep (worker now : Nat) : DeskStep := .lease worker now fun _ => false

def sendSteps (worker : Nat) : List DeskStep :=
  [.decrypt worker .opened, .authorize worker .permitted, .dispatch worker .notInstalled]

/-- The adapter is not installed, the event is given up, and the case is withdrawn. -/
def givenUpRun : List DeskStep :=
  requestRun ++ leaseStep 0 0 :: sendSteps 0 ++
    [.restore 0 1 .done, .withdrawCheck 0 "BIS-DR-1" 1 7, .withdrawTasks 0, .withdrawCommit 0]

theorem sample_accountable :
    Meets (deskStep id) (fun s a => DispatchesOpen s a ∧ AttemptsGrow id s a) .empty givenUpRun ∧
      Always (deskStep id) (fun s => ∀ id, s.dispatches id ≤ maxDispatchAttempts) .empty
        givenUpRun := by
  refine outbox_accountable ?_
  refine Meets.cons rfl trivial (Meets.cons rfl trivial (Meets.cons rfl ?_
    (Meets.cons rfl trivial (Meets.cons rfl trivial (Meets.cons rfl trivial
      (Meets.cons rfl ?_ (Meets.cons rfl trivial (Meets.cons rfl trivial
        (Meets.cons rfl ?_ trivial)))))))))
  · simp only [Accountable, leaseStep]
    decide
  · refine .inr ?_
    intro work event rest hcycle
    cases hcycle
    decide
  · intro w hw
    cases hw
    refine ⟨by decide, ?_⟩
    intro worker event hevent
    cases worker with
    | zero | succ => cases hevent

/-- The request is still in the outbox when its case is withdrawn. -/
def withdrawnRun : List DeskStep :=
  requestRun ++ [.withdrawCheck 0 "BIS-DR-1" 1 7, .withdrawTasks 0, .withdrawCommit 0,
    leaseStep 0 0, .decrypt 0 .opened, .authorize 0 .permitted]

/-- Worker 0 loses its lease, two others fail, and a third has the event when
worker 0 fails in turn. -/
def staleRun : List DeskStep :=
  let fails (worker now : Nat) : List DeskStep :=
    [leaseStep worker now, .decrypt worker .failed, .restore worker now .done]
  requestRun ++ leaseStep 0 0 :: .decrypt 0 .failed :: fails 1 400000000 ++ fails 2 500000000 ++
    [leaseStep 3 600000000]

/-- The worker crashes each time it has sent the request. -/
def crashRun : List DeskStep :=
  requestRun ++ (List.range 13).flatMap fun turn =>
    leaseStep 0 (turn * 400000000) :: sendSteps 0 ++ [.crash 0]

theorem outbox_dispatches_amiss :
    ¬ Meets (deskStep id) DispatchesOpen .empty (withdrawnRun ++ [.dispatch 0 .notInstalled]) ∧
      ¬ Meets (deskStep id) (AttemptsGrow id) .empty (staleRun ++ [.restore 0 600000000 .done]) ∧
      ¬ Always (deskStep id) (fun s => ∀ id, s.dispatches id ≤ maxDispatchAttempts) .empty
          crashRun := by
  refine ⟨?_, ?_, ?_⟩
  · intro h
    have hrun : (run (deskStep id) .empty withdrawnRun).map (fun s =>
        (s.cycles 0, s.db.status? "BIS-DR-1", (deskStep id s (.dispatch 0 .notInstalled)).isSome)) =
        some (.working .dispatching ⟨1, "BIS-DR-1", "BIS-DST-1", 0⟩ [], some .withdrawn, true) := by
      decide
    obtain ⟨s, hs, hresult⟩ := Option.map_eq_some_iff.mp hrun
    obtain ⟨hcycle, hresult⟩ := Prod.mk.inj hresult
    obtain ⟨hstatus, hsome⟩ := Prod.mk.inj hresult
    obtain ⟨t, ht⟩ := Option.isSome_iff_exists.mp hsome
    exact ((h.append hs) t ht).1 _ _ _ hcycle ⟨.withdrawn, hstatus, rfl⟩
  · intro h
    have hrun : (run (deskStep id) .empty staleRun).map (fun s =>
        (s.db.outbox.map fun row => (row.id, row.attemptCount),
          (deskStep id s (.restore 0 600000000 .done)).map fun t =>
            t.db.outbox.map fun row => (row.id, row.attemptCount))) =
        some ([(1, 2)], some [(1, 1)]) := by
      decide
    obtain ⟨s, hs, hresult⟩ := Option.map_eq_some_iff.mp hrun
    obtain ⟨hbefore, hresult⟩ := Prod.mk.inj hresult
    obtain ⟨t, ht, hafter⟩ := Option.map_eq_some_iff.mp hresult
    have hmem : (1, 2) ∈ s.db.outbox.map fun row => (row.id, row.attemptCount) := by
      rw [hbefore]
      exact mem_cons_self
    obtain ⟨row, hrow, hvalues⟩ := mem_map.mp hmem
    obtain ⟨row', hrow', _, hle⟩ := ((h.append hs) t ht).1 t ht row hrow
    have hmem' := mem_map_of_mem (f := fun row : ProviderOutboxRow =>
      (row.id, row.attemptCount)) hrow'
    rw [hafter, mem_singleton] at hmem'
    have hone := (Prod.mk.inj hmem').2
    have htwo := (Prod.mk.inj hvalues).2
    omega
  · intro h
    have hrun : (run (deskStep id) .empty crashRun).map (fun s => s.dispatches 1) = some 13 := by
      decide
    obtain ⟨s, hs, hcount⟩ := Option.map_eq_some_iff.mp hrun
    have hle := h.finish hs 1
    rw [hcount] at hle
    exact absurd hle (by decide)

end Bis.Disputes
