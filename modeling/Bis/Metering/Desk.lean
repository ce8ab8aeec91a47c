import Bis.Metering.Worker

/-!
Whether somebody still looks after an event: a later due cycle, the
reconciliation desk, or, on request, the worker that is in the middle of its last
attempt. Ten attempts, stale leases and a single case per event leave gaps, and
each step has its own condition under which it does not open one.
-/

namespace Bis.Metering

open Bis.Transition Function

namespace Billing

/-- The event has a case the desk can still act on. -/
def caseOpen (s : Billing) : Bool := s.reconciliation.any Reconciliation.isOpen

/-- What a due cycle finds and claims. -/
def due (s : Billing) : Bool :=
  claimable s.event && decide (s.event.availableAt ≤ s.clock)

/-- A due cycle claims the event when enough time has passed. -/
def ClaimableLater (s : Billing) : Prop :=
  ∃ ms, ({ s with clock := s.clock + ms } : Billing).recoverStale.due

/-- A worker is in the middle of the event. -/
def Working (s : Billing) : Prop := ∃ worker, (s.workers worker).busy

/-- A lease has a beginning. -/
def Dated (s : Billing) : Prop := s.event.status = .leased → s.event.leasedAt.isSome

end Billing

/-- An event that waits for reconciliation has an open case, and an event that is
not done is claimed later or has one. With `grace`, the last attempt may still be
under way. -/
structure Attended (grace : Bool) (s : Billing) : Prop where
  waiting : s.event.status = .awaitingReconciliation → s.caseOpen
  live : ¬ s.event.status.terminal →
    s.ClaimableLater ∨ s.caseOpen ∨ (grace ∧ s.event.status = .leased ∧ s.Working)

namespace Billing

/-- `Attended`, read off the state. -/
def Covered (grace : Bool) (s : Billing) : Prop :=
  s.event.status.terminal ∨ s.caseOpen ∨
    (s.event.attemptCount < maxAttempts ∧ s.event.status ≠ .awaitingReconciliation) ∨
      (grace ∧ s.event.status = .leased ∧ s.Working)

variable {s t : Billing} {grace : Bool}

theorem recoverStale_attemptCount (s : Billing) :
    s.recoverStale.event.attemptCount = s.event.attemptCount := by
  unfold recoverStale
  split
  · rfl
  · rfl

theorem recoverStale_of_not_leased (h : s.event.status ≠ .leased) : s.recoverStale = s := by
  simp [recoverStale, stale, h]

theorem stale_iff : s.stale ↔ s.event.status = .leased ∧
    ∃ since, s.event.leasedAt = some since ∧ since + leaseTimeoutMs < s.clock := by
  simp only [stale, Bool.and_eq_true, beq_iff_eq, Option.any_eq_true, decide_eq_true_eq]

theorem claimableLater_iff (h : s.Dated) :
    s.ClaimableLater ↔ s.event.attemptCount < maxAttempts ∧
      (s.event.status = .pending ∨ s.event.status = .retryableFailure ∨
        s.event.status = .leased) := by
  constructor
  · rintro ⟨ms, hdue⟩
    unfold due claimable at hdue
    simp only [recoverStale_attemptCount, Bool.and_eq_true, Bool.or_eq_true, beq_iff_eq,
      decide_eq_true_eq] at hdue
    obtain ⟨⟨hstatus, hattempts⟩, _⟩ := hdue
    refine ⟨hattempts, ?_⟩
    by_cases hleased : s.event.status = .leased
    · exact .inr (.inr hleased)
    · rw [recoverStale_of_not_leased (s := { s with clock := s.clock + ms }) hleased] at hstatus
      rcases hstatus with hpending | hretryable
      · exact .inl hpending
      · exact .inr (.inl hretryable)
  · rintro ⟨hattempts, hstatus⟩
    by_cases hleased : s.event.status = .leased
    · obtain ⟨since, hsince⟩ := Option.isSome_iff_exists.mp (h hleased)
      have hwaits : ∀ deadline, ∃ ms, deadline < s.clock + ms :=
        fun deadline => ⟨deadline + 1, by omega⟩
      obtain ⟨ms, hlate⟩ := hwaits (since + leaseTimeoutMs)
      refine ⟨ms, ?_⟩
      have hstale : ({ s with clock := s.clock + ms } : Billing).stale :=
        stale_iff.mpr ⟨hleased, since, hsince, hlate⟩
      simp [recoverStale, hstale, due, claimable, setEvent, hattempts]
    · refine ⟨s.event.availableAt, ?_⟩
      rw [recoverStale_of_not_leased (s := { s with clock := s.clock + s.event.availableAt }) hleased]
      simpa [due, claimable, hattempts, hleased] using hstatus

theorem attended_iff (h : s.Dated) : Attended grace s ↔ s.Covered grace := by
  constructor
  · intro hattended
    unfold Covered
    by_cases hterminal : s.event.status.terminal
    · exact .inl hterminal
    · rcases hattended.live hterminal with hlater | hcase | hgrace
      · obtain ⟨hattempts, hstatus⟩ := (claimableLater_iff h).mp hlater
        refine .inr (.inr (.inl ⟨hattempts, ?_⟩))
        intro hawaiting
        simp [hawaiting] at hstatus
      · exact .inr (.inl hcase)
      · exact .inr (.inr (.inr hgrace))
  · intro hcovered
    constructor
    · intro hawaiting
      simpa [Covered, hawaiting, EventStatus.terminal] using hcovered
    · intro hterminal
      rcases hcovered with hdone | hcase | ⟨hattempts, hawaiting⟩ | hgrace
      · exact (hterminal hdone).elim
      · exact .inr (.inl hcase)
      · refine .inl ((claimableLater_iff h).mpr ⟨hattempts, ?_⟩)
        cases hstatus : s.event.status with
        | pending | leased | retryableFailure => simp
        | awaitingReconciliation => exact (hawaiting hstatus).elim
        | settled | paymentRequired | deadLetter | cancelled =>
          simp [hstatus, EventStatus.terminal] at hterminal
      · exact .inr (.inr hgrace)

variable {state : MeterWorker}

theorem working_setWorker (s : Billing) (worker : Nat) (h : state.busy) :
    (s.setWorker worker state).Working := by
  refine ⟨worker, ?_⟩
  simpa only [setWorker, update_self] using h

theorem working_setWorker_idle (s : Billing) (worker : Nat) :
    (s.setWorker worker .idle).Working ↔ ∃ other, other ≠ worker ∧ (s.workers other).busy := by
  constructor
  · rintro ⟨other, hbusy⟩
    by_cases hother : other = worker
    · simp only [hother, setWorker, update_self] at hbusy
      cases hbusy
    · simp only [setWorker, update_of_ne hother] at hbusy
      exact ⟨other, hother, hbusy⟩
  · rintro ⟨other, hother, hbusy⟩
    refine ⟨other, ?_⟩
    simp only [setWorker, update_of_ne hother]
    exact hbusy

/-- The event does not depend on this one worker. -/
def ManagesWithout (s : Billing) (worker : Nat) : Prop :=
  s.event.status = .leased → maxAttempts ≤ s.event.attemptCount → ¬ s.caseOpen →
    ∃ other, other ≠ worker ∧ (s.workers other).busy

/-- The event does not depend on its case. -/
def ManagesWithoutCase (grace : Bool) (s : Billing) : Prop :=
  s.event.status.terminal ∨ s.event.attemptCount < maxAttempts ∨
    (grace ∧ s.event.status = .leased ∧ s.Working)

theorem covered_setWorker_idle (h : s.Covered grace) (worker : Nat) :
    (s.setWorker worker .idle).Covered grace ↔ s.ManagesWithout worker := by
  constructor
  · rintro hcovered hleased hattempts hcase
    rcases hcovered with hdone | hopen | ⟨hfew, _⟩ | ⟨_, _, hworking⟩
    · change s.event.status.terminal = true at hdone
      simp [hleased, EventStatus.terminal] at hdone
    · exact (hcase hopen).elim
    · change s.event.attemptCount < maxAttempts at hfew
      omega
    · exact (working_setWorker_idle s worker).mp hworking
  · intro hmanages
    rcases h with hdone | hopen | hfew | ⟨hgrace, hleased, _⟩
    · exact .inl hdone
    · exact .inr (.inl hopen)
    · exact .inr (.inr (.inl hfew))
    · by_cases hopen : s.caseOpen
      · exact .inr (.inl hopen)
      by_cases hfew : s.event.attemptCount < maxAttempts
      · refine .inr (.inr (.inl ⟨hfew, ?_⟩))
        change s.event.status ≠ .awaitingReconciliation
        simp [hleased]
      · refine .inr (.inr (.inr ⟨hgrace, hleased, ?_⟩))
        apply (working_setWorker_idle s worker).mpr
        exact hmanages hleased (by omega) hopen

theorem covered_requeued (h : s.event.status = .retryableFailure) :
    s.Covered grace ↔ s.event.attemptCount < maxAttempts ∨ s.caseOpen := by
  simp [Covered, h, EventStatus.terminal, or_comm]

theorem covered_awaiting (h : s.event.status = .awaitingReconciliation) :
    s.Covered grace ↔ s.caseOpen := by
  simp [Covered, h, EventStatus.terminal]

/-- The step ends the event, or leaves it as it is to a worker that goes on. -/
def Continues (s t : Billing) : Prop :=
  t.event.status.terminal ∨ (t.event = s.event ∧ t.caseOpen = s.caseOpen ∧ t.Working)

theorem Continues.covered (h : Continues s t) (hs : s.Covered grace) : t.Covered grace := by
  rcases h with hdone | ⟨hevent, hcase, hworking⟩
  · exact .inl hdone
  · unfold Covered at hs ⊢
    rw [hevent, hcase]
    rcases hs with hdone | hopen | hfew | ⟨hgrace, hleased, _⟩
    · exact .inl hdone
    · exact .inr (.inl hopen)
    · exact .inr (.inr (.inl hfew))
    · exact .inr (.inr (.inr ⟨hgrace, hleased, hworking⟩))

theorem Continues.dated (h : Continues s t) (hs : s.Dated) : t.Dated := by
  rcases h with hdone | ⟨hevent, _⟩
  · intro hleased
    simp [hleased, EventStatus.terminal] at hdone
  · unfold Dated at hs ⊢
    rwa [hevent]

theorem continues_setWorker (s : Billing) (worker : Nat) (h : state.busy) :
    Continues s (s.setWorker worker state) :=
  .inr ⟨rfl, rfl, working_setWorker s worker h⟩

theorem Continues.lose (h : Continues s t) (worker : Nat) (event : BillingEvent)
    (lost : Option String) : Continues s (t.lose worker event lost) := by
  cases lost with
  | none => exact h
  | some message =>
    rcases h with hdone | ⟨hevent, hcase, _⟩
    · exact .inl hdone
    · exact .inr ⟨hevent, hcase, working_setWorker t worker rfl⟩

theorem continues_reserve (worker : Nat) (event : BillingEvent) (locked : List Nat)
    (reservationId : Nat) (h : s.event.reservationId = none) :
    Continues s (s.reserve worker event locked reservationId) := by
  unfold reserve
  rw [if_neg (by simp [h])]
  split
  next => exact continues_setWorker s worker rfl
  next => exact .inl rfl

theorem continues_charge (s : Billing) (worker : Nat) (event : BillingEvent) :
    Continues s (s.charge worker event) := by
  unfold charge
  split
  next => exact continues_setWorker s worker rfl
  next =>
    split
    next => exact .inl rfl
    next => exact continues_setWorker s worker rfl

theorem continues_authorize (s : Billing) (worker : Nat) (event : BillingEvent)
    (error : Option String) : Continues s (s.authorize worker event error) := by
  unfold authorize
  split
  next => exact continues_setWorker s worker rfl
  next =>
    cases error with
    | none | some => exact continues_setWorker s worker rfl

theorem continues_settle (s : Billing) (worker : Nat) (event : BillingEvent) :
    Continues s (s.settle worker event) := by
  unfold settle
  split
  next => exact .inl rfl
  next => exact continues_setWorker s worker rfl

theorem continues_post (s : Billing) (worker : Nat) (event : BillingEvent) (h : state.busy) :
    Continues s ((s.post event).setWorker worker state) :=
  .inr ⟨rfl, rfl, working_setWorker _ worker h⟩

end Billing

/-- The steps that leave the event to somebody. With `grace`, the claim of the
last attempt does. -/
def KeepsAttended (grace : Bool) (s : Billing) : MeterAction → Prop
  | .claim _ =>
    Billing.claimable s.event → grace ∨ s.event.attemptCount + 1 < maxAttempts ∨ s.caseOpen
  | .reserve worker _ _ lost =>
    lost = none → s.event.reservationId.isSome → s.ManagesWithout worker
  | .handleFailure worker =>
    ∀ event message, s.workers worker = .failing event message → retryable message →
      if maxAttempts ≤ event.attemptCount then
        s.event.status = .leased → s.reconciliation = none ∨ s.caseOpen
      else s.event.attemptCount < maxAttempts ∨ s.caseOpen
  | .crash worker => s.ManagesWithout worker
  | .recoverStale => s.stale → s.event.attemptCount < maxAttempts ∨ s.caseOpen
  | .resolve reviewer resolution =>
    ∀ row, s.reconciliation = some row → resolution ≠ .confirmSettled false →
      Billing.resolvable row reviewer →
        if s.event.status = .awaitingReconciliation then resolution ≠ .confirmNotSettled
        else s.ManagesWithoutCase grace
  | _ => True

section Steps

variable {s t : Billing} {grace : Bool}

theorem covered_claim_iff (h : s.Covered grace) (worker : Nat) :
    (s.claim worker).Covered grace ↔
      (Billing.claimable s.event → grace ∨ s.event.attemptCount + 1 < maxAttempts ∨ s.caseOpen) := by
  unfold Billing.claim
  split
  next hclaimable =>
    simp only [hclaimable, true_imp_iff]
    constructor
    · rintro (hdone | hopen | ⟨hfew, _⟩ | ⟨hgrace, _⟩)
      · cases hdone
      · exact .inr (.inr hopen)
      · exact .inr (.inl hfew)
      · exact .inl hgrace
    · rintro (hgrace | hfew | hopen)
      · exact .inr (.inr (.inr ⟨hgrace, rfl, Billing.working_setWorker _ worker rfl⟩))
      · exact .inr (.inr (.inl ⟨hfew, EventStatus.noConfusion⟩))
      · exact .inr (.inl hopen)
  next hclaimable =>
    apply iff_of_true h
    intro hclaim
    exact (hclaimable hclaim).elim

theorem covered_escalate_iff (h : s.Covered grace) (worker : Nat) (event : BillingEvent)
    (code : String) :
    ((s.escalate event code).setWorker worker .idle).Covered grace ↔
      (s.event.status = .leased → s.reconciliation = none ∨ s.caseOpen) := by
  have hcase : ((s.escalate event code).setWorker worker .idle).caseOpen ↔
      s.reconciliation = none ∨ s.caseOpen := by
    simp only [Billing.caseOpen, Billing.setWorker, Billing.escalate]
    cases s.reconciliation with
    | none => simp [Reconciliation.isOpen]
    | some row => simp
  by_cases hleased : s.event.status = .leased
  · rw [Billing.covered_awaiting]
    · rw [hcase]
      simp [hleased]
    · simp [Billing.setWorker, Billing.escalate, Billing.setEvent, hleased]
  · refine iff_of_true ?_ fun hother => (hleased hother).elim
    have hevent : ((s.escalate event code).setWorker worker .idle).event = s.event := by
      simp [Billing.setWorker, Billing.escalate, Billing.setEvent, hleased]
    unfold Billing.Covered at h ⊢
    rw [hevent, hcase]
    rcases h with hdone | hopen | hfew | ⟨_, hother, _⟩
    · exact .inl hdone
    · exact .inr (.inl (.inr hopen))
    · exact .inr (.inr (.inl hfew))
    · exact (hleased hother).elim

theorem covered_handleFailure_iff (h : s.Covered grace) (worker : Nat) (event : BillingEvent)
    (message : String) :
    (s.handleFailure worker event message).Covered grace ↔
      (retryable message →
        if maxAttempts ≤ event.attemptCount then
          s.event.status = .leased → s.reconciliation = none ∨ s.caseOpen
        else s.event.attemptCount < maxAttempts ∨ s.caseOpen) := by
  unfold Billing.handleFailure
  cases hretry : retryable message with
  | false =>
    refine iff_of_true (.inl ?_) fun hother => by cases hother
    simp [Billing.setWorker, Billing.fail, Billing.setEvent, hretry, EventStatus.terminal]
  | true =>
    by_cases hlast : maxAttempts ≤ event.attemptCount
    · simpa [hlast] using covered_escalate_iff h worker event (Billing.errorCode message)
    · have hrequeued : ((s.fail message).setWorker worker .idle).event.status =
          .retryableFailure := by
        simp [Billing.setWorker, Billing.fail, Billing.setEvent, hretry]
      have hcovered : ((s.fail message).setWorker worker .idle).Covered grace ↔
          s.event.attemptCount < maxAttempts ∨ s.caseOpen := Billing.covered_requeued hrequeued
      simpa [hlast] using hcovered

theorem covered_recoverStale_iff (h : s.Covered grace) :
    s.recoverStale.Covered grace ↔
      (s.stale → s.event.attemptCount < maxAttempts ∨ s.caseOpen) := by
  unfold Billing.recoverStale
  split
  next hstale =>
    simp only [hstale, true_imp_iff]
    exact Billing.covered_requeued rfl
  next hstale => exact iff_of_true h fun hother => (hstale hother).elim

theorem covered_claimCase (h : s.Covered grace) (reviewer : Reviewer) :
    (s.claimCase reviewer).Covered grace := by
  unfold Billing.claimCase
  split
  next => exact h
  next =>
    split
    next => exact .inr (.inl rfl)
    next => exact h

/-- Once its case is closed the event has to manage without it. -/
theorem covered_close_iff (row : Reconciliation) (reviewer : Reviewer) (resolution : Resolution) :
    ((s.setEvent
      (if s.event.status = .awaitingReconciliation then s.resolved resolution else s.event)).setCase
        { row with
          status := resolution.caseStatus
          reviewedBy := some reviewer.id }).Covered grace ↔
      if s.event.status = .awaitingReconciliation then resolution ≠ .confirmNotSettled
      else s.ManagesWithoutCase grace := by
  have hclosed : ∀ event, ((s.setEvent event).setCase { row with
        status := resolution.caseStatus
        reviewedBy := some reviewer.id }).caseOpen = false := by
    intro event
    cases resolution with
    | confirmSettled | confirmNotSettled | approveDeterministicRetry => rfl
  unfold Billing.Covered
  rw [hclosed]
  split
  next hawaiting =>
    cases resolution with
    | confirmSettled evidence =>
      simp [Billing.setCase, Billing.setEvent, Billing.resolved, EventStatus.terminal]
    | confirmNotSettled =>
      simp [Billing.setCase, Billing.setEvent, Billing.resolved, hawaiting,
        EventStatus.terminal]
    | approveDeterministicRetry =>
      simp [Billing.setCase, Billing.setEvent, Billing.resolved, maxAttempts]
  next hawaiting =>
    simp [Billing.ManagesWithoutCase, hawaiting, Billing.setCase, Billing.setEvent,
      Billing.Working]

theorem covered_resolve_iff (h : s.Covered grace) (reviewer : Reviewer)
    (resolution : Resolution) :
    (s.resolve reviewer resolution).Covered grace ↔
      ∀ row, s.reconciliation = some row → resolution ≠ .confirmSettled false →
        Billing.resolvable row reviewer →
          if s.event.status = .awaitingReconciliation then resolution ≠ .confirmNotSettled
          else s.ManagesWithoutCase grace := by
  unfold Billing.resolve
  cases hrow : s.reconciliation with
  | none => exact iff_of_true h fun row hnone => by cases hnone
  | some row =>
    by_cases hevidence : resolution = .confirmSettled false
    · refine iff_of_true (by simpa [hevidence] using h) ?_
      intro _ _ hother
      exact (hother hevidence).elim
    · by_cases hresolvable : Billing.resolvable row reviewer
      · simpa [hevidence, hresolvable] using covered_close_iff row reviewer resolution
      · refine iff_of_true (by simpa [hevidence, hresolvable] using h) ?_
        intro other hother _ hresolves
        obtain rfl : row = other := Option.some.inj hother
        exact (hresolvable hresolves).elim

theorem reserve_of_reserved (worker : Nat) (event : BillingEvent) (locked : List Nat)
    (reservationId : Nat) (h : s.event.reservationId.isSome) :
    s.reserve worker event locked reservationId = s.setWorker worker .idle := by
  simp [Billing.reserve, h]

theorem covered_reserve_iff (h : s.Covered grace) (worker : Nat) (event : BillingEvent)
    (locked : List Nat) (reservationId : Nat) (lost : Option String) :
    ((s.reserve worker event locked reservationId).lose worker event lost).Covered grace ↔
      (lost = none → s.event.reservationId.isSome → s.ManagesWithout worker) := by
  cases hreserved : s.event.reservationId with
  | none =>
    have hcontinues := Billing.continues_reserve worker event locked reservationId hreserved
    exact iff_of_true ((hcontinues.lose worker event lost).covered h) fun _ hother => by
      cases hother
  | some old =>
    rw [reserve_of_reserved _ _ _ _ (by simp [hreserved])]
    cases lost with
    | none => simpa [Billing.lose] using Billing.covered_setWorker_idle h worker
    | some message =>
      refine iff_of_true ?_ fun hother => by cases hother
      have hcontinues : Billing.Continues s
          ((s.setWorker worker .idle).setWorker worker (.failing event message)) :=
        .inr ⟨rfl, rfl, Billing.working_setWorker _ worker rfl⟩
      exact hcontinues.covered h

theorem covered_step_iff (h : s.Covered grace) {action : MeterAction}
    (hstep : meterStep s action = some t) : t.Covered grace ↔ KeepsAttended grace s action := by
  cases takes_of_step hstep with
  | claim hworker => exact covered_claim_iff h _
  | reserve hworker locked reservationId lost =>
    exact covered_reserve_iff h _ _ locked reservationId lost
  | charge hworker lost =>
    exact iff_of_true (((Billing.continues_charge s _ _).lose _ _ lost).covered h) trivial
  | authorize hworker error =>
    exact iff_of_true ((Billing.continues_authorize s _ _ error).covered h) trivial
  | post hworker applied =>
    exact iff_of_true ((Billing.continues_post s _ _ rfl).covered h) trivial
  | postFailed hworker message applied =>
    refine iff_of_true ?_ trivial
    cases applied with
    | true => exact (Billing.continues_post s _ _ rfl).covered h
    | false => exact (Billing.continues_setWorker s _ rfl).covered h
  | settle hworker lost =>
    exact iff_of_true (((Billing.continues_settle s _ _).lose _ _ lost).covered h) trivial
  | databaseError hbusy event message =>
    exact iff_of_true ((Billing.continues_setWorker s _ rfl).covered h) trivial
  | handleFailure hworker =>
    simpa [KeepsAttended, hworker] using covered_handleFailure_iff h _ _ _
  | crash worker => exact Billing.covered_setWorker_idle h worker
  | recoverStale => exact covered_recoverStale_iff h
  | claimCase reviewer => exact iff_of_true (covered_claimCase h reviewer) trivial
  | resolve reviewer resolution => exact covered_resolve_iff h reviewer resolution
  | entitlementsChanged | otherTransfer | tick => exact iff_of_true h trivial

/-! ### Leases have a beginning -/

theorem dated_of_event (h : s.Dated) (hevent : t.event = s.event) : t.Dated := by
  unfold Billing.Dated at h ⊢
  rwa [hevent]

theorem dated_of_not_leased (h : s.event.status ≠ .leased) : s.Dated :=
  fun hleased => (h hleased).elim

theorem dated_handleFailure (h : s.Dated) (worker : Nat) (event : BillingEvent)
    (message : String) : (s.handleFailure worker event message).Dated := by
  unfold Billing.handleFailure
  split
  next =>
    by_cases hleased : s.event.status = .leased
    · apply dated_of_not_leased
      simp [Billing.setWorker, Billing.escalate, Billing.setEvent, hleased]
    · apply dated_of_event h
      simp [Billing.setWorker, Billing.escalate, Billing.setEvent, hleased]
  next =>
    apply dated_of_not_leased
    simp only [Billing.setWorker, Billing.fail, Billing.setEvent]
    split
    next => simp
    next => simp

theorem dated_resolve (h : s.Dated) (reviewer : Reviewer) (resolution : Resolution) :
    (s.resolve reviewer resolution).Dated := by
  unfold Billing.resolve
  split
  next => exact h
  next =>
    split
    next => exact h
    next =>
      split
      next =>
        by_cases hawaiting : s.event.status = .awaitingReconciliation
        · apply dated_of_not_leased
          cases resolution with
          | confirmSettled | confirmNotSettled | approveDeterministicRetry =>
            simp [Billing.setCase, Billing.setEvent, Billing.resolved, hawaiting]
        · apply dated_of_event h
          simp [Billing.setCase, Billing.setEvent, hawaiting]
      next => exact h

theorem dated_step (h : s.Dated) {action : MeterAction} (hstep : meterStep s action = some t) :
    t.Dated := by
  cases takes_of_step hstep with
  | claim hworker =>
    unfold Billing.claim
    split
    next => exact fun _ => rfl
    next => exact h
  | reserve hworker locked reservationId lost =>
    cases hreserved : s.event.reservationId with
    | none => exact ((Billing.continues_reserve _ _ locked _ hreserved).lose _ _ lost).dated h
    | some old =>
      apply dated_of_event h
      rw [reserve_of_reserved _ _ _ _ (by simp [hreserved])]
      cases lost with
      | none | some => rfl
  | charge hworker lost => exact ((Billing.continues_charge s _ _).lose _ _ lost).dated h
  | authorize hworker error => exact (Billing.continues_authorize s _ _ error).dated h
  | post hworker applied => exact (Billing.continues_post s _ _ rfl).dated h
  | postFailed hworker message applied =>
    cases applied with
    | true => exact (Billing.continues_post s _ _ rfl).dated h
    | false => exact (Billing.continues_setWorker s _ rfl).dated h
  | settle hworker lost => exact ((Billing.continues_settle s _ _).lose _ _ lost).dated h
  | databaseError hbusy event message => exact (Billing.continues_setWorker s _ rfl).dated h
  | handleFailure hworker => exact dated_handleFailure h _ _ _
  | crash | entitlementsChanged | otherTransfer | tick => exact h
  | recoverStale =>
    unfold Billing.recoverStale
    split
    next => exact dated_of_not_leased EventStatus.noConfusion
    next => exact h
  | claimCase reviewer =>
    unfold Billing.claimCase
    split
    next => exact h
    next =>
      split
      next => exact h
      next => exact h
  | resolve reviewer resolution => exact dated_resolve h reviewer resolution

end Steps

section Runs

variable (sha256 : List UInt8 → List UInt8) (billingEventId : String) (tenantId : Int)
  (requestedBy amountKobo : Nat) (entitlements : List Entitlement)

/-- Along a run the event is looked after in every state exactly where every step
leaves it to somebody; and so with the last attempt given grace. -/
theorem attended_run_iff (grace : Bool) (labels : List MeterAction) :
    Always meterStep (Attended grace)
        (.initial sha256 billingEventId tenantId requestedBy amountKobo entitlements) labels ↔
      Meets meterStep (KeepsAttended grace)
        (.initial sha256 billingEventId tenantId requestedBy amountKobo entitlements) labels := by
  have hdated : (Billing.initial sha256 billingEventId tenantId requestedBy amountKobo
      entitlements).Dated := dated_of_not_leased EventStatus.noConfusion
  apply always_iff_meets labels (I := Billing.Dated)
  · intro s a t hs hstep
    exact dated_step hs hstep
  · intro s a t hs hattended hstep
    rw [Billing.attended_iff hs] at hattended
    rw [Billing.attended_iff (dated_step hs hstep)]
    exact covered_step_iff hattended hstep
  · exact hdated
  · rw [Billing.attended_iff hdated]
    refine .inr (.inr (.inl ⟨?_, EventStatus.noConfusion⟩))
    simp [Billing.initial, maxAttempts]

end Runs

section Attempts

variable {s : Billing}

/-- An attempt whose first database statement fails. -/
def failedAttempt : List MeterAction :=
  [.claim 0, .databaseError 0 "Connection terminated unexpectedly", .handleFailure 0]

/-- Nobody works on the event, which has no case yet. -/
structure Resting (s : Billing) : Prop where
  idle : s.workers 0 = .idle
  due : s.event.status = .pending ∨ s.event.status = .retryableFailure
  unopened : s.reconciliation = none

theorem retryable_connection : retryable "Connection terminated unexpectedly" = true := by
  decide +kernel

theorem run_failedAttempt (h : Resting s) (hfew : s.event.attemptCount < maxAttempts) :
    ∃ t : Billing, ∃ event : BillingEvent,
      event.attemptCount = s.event.attemptCount + 1 ∧
      t.event = event ∧ event.status = .leased ∧ t.reconciliation = none ∧
      run meterStep s failedAttempt =
        some (t.handleFailure 0 event "Connection terminated unexpectedly") := by
  have hclaimable : Billing.claimable s.event = true := by
    simp [Billing.claimable, h.due, hfew]
  let event : BillingEvent :=
    { s.event with
      status := .leased
      leasedAt := some s.clock
      attemptCount := s.event.attemptCount + 1 }
  let failing := (s.claim 0).setWorker 0 (.failing event "Connection terminated unexpectedly")
  have hclaimed : s.claim 0 = (s.setEvent event).setWorker 0 (.reserving event) := by
    simp [Billing.claim, hclaimable, event]
  have hclaim : meterStep s (.claim 0) = some (s.claim 0) := by
    simp only [meterStep, h.idle]
  have hlost : meterStep (s.claim 0) (.databaseError 0 "Connection terminated unexpectedly") =
      some failing := by
    have hworker : (s.claim 0).workers 0 = .reserving event := by
      simp only [hclaimed, Billing.setWorker, update_self]
    simp only [meterStep, hworker, failing]
  have hhandled : meterStep failing (.handleFailure 0) =
      some (failing.handleFailure 0 event "Connection terminated unexpectedly") := by
    have hworker : failing.workers 0 = .failing event "Connection terminated unexpectedly" := by
      simp only [failing, Billing.setWorker, update_self]
    simp only [meterStep, hworker]
  refine ⟨failing, event, rfl, ?_, rfl, ?_, ?_⟩
  · simp [failing, hclaimed, Billing.setWorker, Billing.setEvent]
  · simp [failing, hclaimed, Billing.setWorker, Billing.setEvent, h.unopened]
  · simp only [failedAttempt, run, hclaim, hlost, hhandled, Option.bind_some]

/-- Before the tenth attempt a failure puts the event back. -/
theorem resting_failedAttempt (h : Resting s) (hfew : s.event.attemptCount + 1 < maxAttempts) :
    ∃ t, run meterStep s failedAttempt = some t ∧ Resting t ∧
      t.event.attemptCount = s.event.attemptCount + 1 := by
  obtain ⟨t, event, hcount, hevent, _, hunopened, hrun⟩ := run_failedAttempt h (by omega)
  have hagain : ¬ maxAttempts ≤ event.attemptCount := by
    omega
  have hhandled : t.handleFailure 0 event "Connection terminated unexpectedly" =
      (t.fail "Connection terminated unexpectedly").setWorker 0 .idle := by
    simp [Billing.handleFailure, hagain]
  rw [hhandled] at hrun
  refine ⟨_, hrun, ⟨?_, ?_, ?_⟩, ?_⟩
  · simp only [Billing.setWorker, update_self]
  · right
    simp [Billing.setWorker, Billing.fail, Billing.setEvent, retryable_connection]
  · exact hunopened
  · simp [Billing.setWorker, Billing.fail, Billing.setEvent, hevent, hcount]

theorem resting_failedAttempts (h : Resting s) (count : Nat)
    (hfew : s.event.attemptCount + count < maxAttempts) :
    ∃ t, run meterStep s (List.replicate count failedAttempt).flatten = some t ∧ Resting t ∧
      t.event.attemptCount = s.event.attemptCount + count := by
  induction count generalizing s with
  | zero => exact ⟨s, rfl, h, rfl⟩
  | succ count ih =>
    obtain ⟨t, hfirst, hresting, hcount⟩ := resting_failedAttempt h (by omega)
    obtain ⟨finish, hrest, hlast, htotal⟩ := ih hresting (by omega)
    refine ⟨finish, ?_, hlast, by omega⟩
    rw [List.replicate_succ, List.flatten_cons, run_append_iff]
    exact ⟨t, hfirst, hrest⟩

/-- The tenth failure opens a case. -/
theorem escalated_failedAttempt (h : Resting s) (hlast : s.event.attemptCount + 1 = maxAttempts) :
    ∃ t row, run meterStep s failedAttempt = some t ∧
      t.event.status = .awaitingReconciliation ∧ t.reconciliation = some row ∧ row.isOpen := by
  obtain ⟨t, event, hcount, hevent, hleased, hunopened, hrun⟩ := run_failedAttempt h (by omega)
  have hexhausted : maxAttempts ≤ event.attemptCount := by
    omega
  let code := Billing.errorCode "Connection terminated unexpectedly"
  have hhandled : t.handleFailure 0 event "Connection terminated unexpectedly" =
      (t.escalate event code).setWorker 0 .idle := by
    simp [Billing.handleFailure, retryable_connection, hexhausted, code]
  rw [hhandled] at hrun
  let row : Reconciliation :=
    { tenantId := event.tenantId
      transferId := t.transferId
      status := .open
      lastErrorCode := code
      requestedBy := event.requestedBy
      reviewedBy := none }
  refine ⟨_, row, hrun, ?_, ?_, rfl⟩
  · simp [Billing.setWorker, Billing.escalate, Billing.setEvent, hevent, hleased]
  · simp [Billing.setWorker, Billing.escalate, hunopened, row]

end Attempts

/-- The tenth attempt fails, and the desk finds that the ledger has no debit: the
event waits for reconciliation with its case closed. -/
theorem closed_case_waits :
    ¬ ∃ sha256 : List UInt8 → List UInt8, ∀ labels,
      Always meterStep (Attended true) (.initial sha256 "7f3c" 1 7 50000 []) labels := by
  rintro ⟨sha256, h⟩
  have hresting : Resting (.initial sha256 "7f3c" 1 7 50000 []) := ⟨rfl, .inl rfl, rfl⟩
  obtain ⟨ninth, hnine, hrest, hcount⟩ := resting_failedAttempts hresting 9
    (show 0 + 9 < maxAttempts by decide)
  have hlast : ninth.event.attemptCount + 1 = maxAttempts := by
    rw [hcount]
    rfl
  obtain ⟨tenth, row, hten, hawaiting, hrow, hopen⟩ := escalated_failedAttempt hrest hlast
  let reviewer : Reviewer := ⟨row.requestedBy + 1, none⟩
  have hresolvable : Billing.resolvable row reviewer = true := by
    simp [Billing.resolvable, hopen, reviewer]
  let labels := (List.replicate 9 failedAttempt).flatten ++
    (failedAttempt ++ [.resolve reviewer .confirmNotSettled])
  have hrun : run meterStep (.initial sha256 "7f3c" 1 7 50000 []) labels =
      some (tenth.resolve reviewer .confirmNotSettled) := by
    apply (run_append_iff _ _ _ _).mpr
    refine ⟨ninth, hnine, ?_⟩
    apply (run_append_iff _ _ _ _).mpr
    exact ⟨tenth, hten, rfl⟩
  have hwaits := ((h labels).finish hrun).waiting
  simp [Billing.resolve, hrow, hresolvable, hawaiting, Billing.setCase, Billing.setEvent,
    Billing.resolved, Billing.caseOpen, Reconciliation.isOpen, Resolution.caseStatus] at hwaits

end Bis.Metering
