import Bis.Settlement.Webhook

/-!
What the webhook store guarantees. The insert of a delivery is rolled back every
time, so an empty table stays empty. Of a table that holds events already, none
is attempted more than ten times and those processed stay processed. Their claim
to `processing` is not a lease, though: the due query passes such events over,
so one stays there whose worker has died or has failed to settle it.
-/

namespace Bis.Settlement

open Bis.Relation Bis.Transition Function

/-- An event is settled for good, or some later cycle may select it, or a worker
has it in hand. -/
def Attended (s : WebhookStore) (event : WebhookEvent) : Prop :=
  event.status.terminal ∨ (∃ now, s.clock ≤ now ∧ event.due now) ∨
    (event.status = .processing ∧ ∃ worker, (s.workers worker).held = some event.id)

def Live (s : WebhookStore) : Prop := ∀ event ∈ s.events, Attended s event

/-- Events that were processed are processed. -/
def Absorbing (s : WebhookStore) : Prop :=
  ∀ id ∈ s.processedEver, ∀ event ∈ s.events, event.id = id → event.status = .processed

def AttemptsBounded (s : WebhookStore) : Prop :=
  ∀ event ∈ s.events, event.attemptCount ≤ maxWebhookAttempts

/-- No worker dies, or fails to write a failure, with an event in `processing` that
no other worker has in hand. -/
def KeepsClaims (s : WebhookStore) : WebhookAction → Prop
  | .markFailed worker | .crash worker => ∀ id, (s.workers worker).held = some id →
      ∀ event ∈ s.events, event.id = id → event.status = .processing →
        ∃ other, other ≠ worker ∧ (s.workers other).held = some id
  | _ => True

/-- Identifiers are unique, attempts counted up to the limit, and processed events
stay processed. -/
structure Stored (s : WebhookStore) : Prop where
  ids : (s.events.map WebhookEvent.id).Nodup
  attempts : AttemptsBounded s
  absorbing : Absorbing s

section Steps

variable {s t : WebhookStore} {action : WebhookAction}

variable {id worker : Nat} {f : WebhookEvent → WebhookEvent} {state : WebhookWorker}

theorem mem_update {event : WebhookEvent} :
    event ∈ (s.update id f).events ↔
      (∃ old ∈ s.events, old.id = id ∧ event = f old) ∨ (event ∈ s.events ∧ event.id ≠ id) := by
  unfold WebhookStore.update
  rw [mem_updateWhere]
  simp only [beq_iff_eq]

theorem ids_update (hid : ∀ event, (f event).id = event.id) :
    (s.update id f).events.map WebhookEvent.id = s.events.map WebhookEvent.id :=
  map_updateWhere hid s.events

theorem Stored.setWorker (h : Stored s) (worker : Nat) (state : WebhookWorker) :
    Stored (s.setWorker worker state) := ⟨h.ids, h.attempts, h.absorbing⟩

/-- An event that is not processed is given another status. -/
theorem Stored.update (h : Stored s) {event : WebhookEvent} (hevent : event ∈ s.events)
    {f : WebhookEvent → WebhookEvent} (hid : ∀ row, (f row).id = row.id)
    (hopen : event.status ≠ .processed) (hattempts : (f event).attemptCount ≤ maxWebhookAttempts) :
    Stored (s.update event.id f) where
  ids := by
    rw [ids_update hid]
    exact h.ids
  attempts row hrow := by
    rcases mem_update.mp hrow with ⟨old, hold, hkey, rfl⟩ | ⟨hold, _⟩
    · obtain rfl := List.inj_on_of_nodup_map h.ids hold hevent hkey
      exact hattempts
    · exact h.attempts row hold
  absorbing id hnoted row hrow hkey := by
    rcases mem_update.mp hrow with ⟨old, hold, hold_id, rfl⟩ | ⟨hold, _⟩
    · obtain rfl := List.inj_on_of_nodup_map h.ids hold hevent hold_id
      rw [hid] at hkey
      exact absurd (h.absorbing id hnoted old hold hkey) hopen
    · exact h.absorbing id hnoted row hold hkey

theorem stored_claim (h : Stored s) (worker id : Nat) (rest : List Nat) :
    Stored (s.claim worker id rest) := by
  unfold WebhookStore.claim
  split
  next => exact h.setWorker worker .idle
  next event hfind =>
    have hevent : event ∈ s.events := List.mem_of_find?_eq_some hfind
    have hkey : event.id = id := by simpa using List.find?_some hfind
    subst hkey
    split
    next => exact h.setWorker worker (.looping rest)
    next hopen =>
      split
      next =>
        apply Stored.setWorker
        refine h.update hevent ?_ hopen ?_
        · intro row
          rfl
        · exact h.attempts event hevent
      next hattempts =>
        apply Stored.setWorker
        refine h.update hevent ?_ hopen ?_
        · intro row
          rfl
        · simp only
          omega

theorem stored_markProcessed (h : Stored s) (id : Nat) : Stored (s.markProcessed id) where
  ids := by
    have hids : (s.markProcessed id).events.map WebhookEvent.id = s.events.map WebhookEvent.id := by
      apply map_updateWhere
      intro row
      rfl
    rw [hids]
    exact h.ids
  attempts event hevent := by
    rcases mem_update.mp hevent with ⟨old, hold, _, rfl⟩ | ⟨hold, _⟩
    · exact h.attempts old hold
    · exact h.attempts event hold
  absorbing other hnoted event hevent hkey := by
    rcases mem_update.mp hevent with ⟨old, _, _, rfl⟩ | ⟨hold, hne⟩
    · rfl
    · rcases List.mem_cons.mp hnoted with rfl | hnoted
      · exact absurd hkey hne
      · exact h.absorbing other hnoted event hold hkey

theorem stored_step (h : Stored s) (hstep : webhookStep s action = some t) : Stored t := by
  cases webhookTakes_of_step hstep with
  | record payloadSha256 eventType reference => exact h
  | selectDue | process | settled | failed | notStored | markFailed | finish =>
    exact h.setWorker _ _
  | claim hworker => exact stored_claim h _ _ _
  | stored hworker => exact (stored_markProcessed h _).setWorker _ _
  | crash worker => exact h.setWorker worker .idle
  | tick ms => exact ⟨h.ids, h.attempts, h.absorbing⟩

/-- The table stays empty: what a worker claims is not there. -/
theorem events_nil_step (h : s.events = []) (hstep : webhookStep s action = some t) :
    t.events = [] := by
  have hupdate : ∀ id f, (s.update id f).events = [] := by
    intro id f
    simp only [WebhookStore.update, h, updateWhere, List.map_nil]
  cases webhookTakes_of_step hstep with
  | record | selectDue | process | settled | failed | notStored | markFailed | finish | crash
  | tick => exact h
  | claim hworker =>
    unfold WebhookStore.claim
    rw [h]
    exact h
  | stored hworker => exact hupdate _ _

/-! ### Events in hand -/

theorem due_later (clock : Nat) {event : WebhookEvent}
    (h : event.status = .received ∨ event.status = .retryableFailure) :
    ∃ now, clock ≤ now ∧ event.due now := by
  refine ⟨max clock (event.nextAttemptAt.getD 0), Nat.le_max_left _ _, ?_⟩
  have hstatus : (event.status == .received || event.status == .retryableFailure) = true := by
    simpa using h
  unfold WebhookEvent.due
  rw [hstatus, Bool.true_and]
  cases event.nextAttemptAt with
  | none => rfl
  | some at_ => simp

theorem attended_iff (s : WebhookStore) (event : WebhookEvent) :
    Attended s event ↔
      (event.status = .processing → ∃ worker, (s.workers worker).held = some event.id) := by
  unfold Attended
  cases hstatus : event.status with
  | received => exact iff_of_true (.inr (.inl (due_later s.clock (.inl hstatus)))) (by simp)
  | retryableFailure => exact iff_of_true (.inr (.inl (due_later s.clock (.inr hstatus)))) (by simp)
  | processed | terminalFailure => exact iff_of_true (.inl rfl) (by simp)
  | processing =>
    have hdue : ¬ ∃ now, s.clock ≤ now ∧ event.due now := by
      rintro ⟨now, _, hnow⟩
      unfold WebhookEvent.due at hnow
      rw [hstatus] at hnow
      cases hnow
    constructor
    · rintro (hterminal | hlater | hhand) _
      · cases hterminal
      · exact absurd hlater hdue
      · exact hhand.2
    · intro hhand
      exact .inr (.inr ⟨rfl, hhand rfl⟩)

theorem live_iff (s : WebhookStore) :
    Live s ↔ ∀ event ∈ s.events, event.status = .processing →
      ∃ worker, (s.workers worker).held = some event.id :=
  forall₂_congr fun event _ => attended_iff s event

/-- A worker that keeps what it holds. -/
theorem Live.setWorker (h : Live s) (worker : Nat)
    (hheld : ∀ id, (s.workers worker).held = some id → state.held = some id) :
    Live (s.setWorker worker state) := by
  rw [live_iff] at h ⊢
  intro event hevent hprocessing
  obtain ⟨other, hother⟩ := h event hevent hprocessing
  refine ⟨other, ?_⟩
  by_cases hsame : other = worker
  · subst hsame
    simp only [WebhookStore.setWorker, update_self]
    exact hheld event.id hother
  · simp only [WebhookStore.setWorker, update_of_ne hsame]
    exact hother

/-- A worker gives an event another status and lets go of it. -/
theorem Live.release (h : Live s) (hstatus : ∀ event, (f event).status ≠ .processing)
    (hheld : ∀ other, (s.workers worker).held = some other → other = id) :
    Live ((s.update id f).setWorker worker state) := by
  rw [live_iff] at h ⊢
  intro event hevent hprocessing
  rcases mem_update.mp hevent with ⟨old, _, _, rfl⟩ | ⟨hold, hother⟩
  · exact absurd hprocessing (hstatus old)
  · obtain ⟨holder, hholder⟩ := h event hold hprocessing
    refine ⟨holder, ?_⟩
    have hne : holder ≠ worker := by
      rintro rfl
      exact hother (hheld event.id hholder)
    simp only [WebhookStore.setWorker, update_of_ne hne]
    exact hholder

theorem live_claim (h : Live s) {rest : List Nat} (hfree : (s.workers worker).held = none) :
    Live (s.claim worker id rest) := by
  have hnone : ∀ other, (s.workers worker).held ≠ some other := by
    intro other hother
    rw [hfree] at hother
    cases hother
  unfold WebhookStore.claim
  split
  next => exact h.setWorker worker fun other hother => absurd hother (hnone other)
  next event _ =>
    split
    next => exact h.setWorker worker fun other hother => absurd hother (hnone other)
    next =>
      split
      next =>
        apply h.release
        · intro row
          simp
        · exact fun other hother => absurd hother (hnone other)
      next =>
        rw [live_iff] at h ⊢
        intro row hrow hprocessing
        rcases mem_update.mp hrow with ⟨old, _, hkey, rfl⟩ | ⟨hold, _⟩
        · refine ⟨worker, ?_⟩
          simp only [WebhookStore.setWorker, update_self]
          exact congrArg some hkey.symm
        · obtain ⟨holder, hholder⟩ := h row hold hprocessing
          refine ⟨holder, ?_⟩
          have hne : holder ≠ worker := by
            rintro rfl
            exact hnone row.id hholder
          simp only [WebhookStore.setWorker, WebhookStore.update, update_of_ne hne]
          exact hholder

/-- A worker may let go exactly where no event is left in `processing` without it. -/
theorem live_crash_iff (h : Live s) (worker : Nat) :
    Live (s.setWorker worker .idle) ↔ KeepsClaims s (.crash worker) := by
  rw [live_iff] at h ⊢
  constructor
  · intro hlive id _ event hevent hkey hprocessing
    obtain ⟨other, hother⟩ := hlive event hevent hprocessing
    rw [hkey] at hother
    have hne : other ≠ worker := by
      rintro rfl
      simp only [WebhookStore.setWorker, update_self] at hother
      cases hother
    simp only [WebhookStore.setWorker, update_of_ne hne] at hother
    exact ⟨other, hne, hother⟩
  · intro hkeeps event hevent hprocessing
    obtain ⟨holder, hholder⟩ := h event hevent hprocessing
    by_cases hsame : holder = worker
    · subst hsame
      obtain ⟨other, hne, hother⟩ := hkeeps event.id hholder event hevent rfl hprocessing
      refine ⟨other, ?_⟩
      simp only [WebhookStore.setWorker, update_of_ne hne]
      exact hother
    · refine ⟨holder, ?_⟩
      simp only [WebhookStore.setWorker, update_of_ne hsame]
      exact hholder

/-- A worker that held nothing may take up anything. -/
theorem Live.setWorker_free (h : Live s) (state : WebhookWorker)
    (hfree : (s.workers worker).held = none) : Live (s.setWorker worker state) := by
  apply h.setWorker
  intro id hid
  rw [hfree] at hid
  cases hid

theorem Live.setWorker_held (h : Live s) (hheld : (s.workers worker).held = some id)
    (hstate : state.held = some id) : Live (s.setWorker worker state) := by
  apply h.setWorker
  intro other hother
  rw [hstate, ← hheld]
  exact hother

theorem live_step_iff (h : Live s) (hstep : webhookStep s action = some t) :
    Live t ↔ KeepsClaims s action := by
  cases webhookTakes_of_step hstep with
  | record payloadSha256 eventType reference => exact iff_of_true h trivial
  | selectDue hworker limit locked | process hworker id | finish hworker =>
    exact iff_of_true (h.setWorker_free _ (congrArg WebhookWorker.held hworker)) trivial
  | claim hworker =>
    exact iff_of_true (live_claim h (congrArg WebhookWorker.held hworker)) trivial
  | settled hworker | failed hworker error | notStored hworker =>
    exact iff_of_true (h.setWorker_held (congrArg WebhookWorker.held hworker) rfl) trivial
  | @stored worker id rest hworker =>
    have hheld : (s.workers worker).held = some id := congrArg WebhookWorker.held hworker
    refine iff_of_true ?_ trivial
    apply h.release
    · intro event
      simp
    · intro other hother
      exact Option.some.inj (hother.symm.trans hheld)
  | @markFailed worker | crash worker => exact live_crash_iff h worker
  | tick ms =>
    refine iff_of_true ?_ trivial
    rw [live_iff] at h ⊢
    exact h

end Steps

end Bis.Settlement
