import Bis.Metering.Worker

/-!
How often an event is charged. What matters of a state is its `Charge`: whether a
unit is reserved and a transfer posted, how many of each there were, and the
status. Every step either leaves the charge alone or makes one of three changes
to it, and each change has its own condition under which it neither charges
twice nor leaves `settled`.
-/

namespace Bis.Metering

open Bis.Number Bis.TigerBeetle Bis.Transition

/-- What a run has charged for an event. -/
structure Charge where
  (reserved posted : Bool)
  (units debits : Nat)
  status : EventStatus
  settledEver : Bool

namespace Charge

/-- A prepaid unit is consumed. -/
def consume (c : Charge) : Charge :=
  { c with
    reserved := true
    units := c.units + 1
    status := .settled
    settledEver := true }

/-- The ledger applies the transfer, once. -/
def debit (c : Charge) : Charge :=
  { c with
    posted := true
    debits := c.debits + if c.posted then 0 else 1 }

/-- The status is written. -/
def moveTo (c : Charge) (status : EventStatus) : Charge :=
  { c with
    status
    settledEver := c.settledEver || status == .settled }

/-- The counters say what the event and the ledger say. -/
structure Consistent (c : Charge) : Prop where
  units : c.units = if c.reserved then 1 else 0
  debits : c.debits = if c.posted then 1 else 0
  settled : c.status = .settled → c.settledEver

/-- At most one charge, and no way out of `settled`. -/
structure Once (c : Charge) : Prop where
  charges : c.units + c.debits ≤ 1
  settled : c.settledEver → c.status = .settled

variable {c : Charge}

theorem Consistent.consume (h : c.Consistent) (hreserved : c.reserved = false) :
    c.consume.Consistent where
  units := by
    have hunits := h.units
    rw [hreserved] at hunits
    simp [Charge.consume, hunits]
  debits := h.debits
  settled _ := rfl

theorem Consistent.debit (h : c.Consistent) : c.debit.Consistent where
  units := h.units
  debits := by
    have hdebits := h.debits
    cases hposted : c.posted with
    | true | false => simp [Charge.debit, hdebits, hposted]
  settled := h.settled

theorem Consistent.moveTo (h : c.Consistent) (status : EventStatus) :
    (c.moveTo status).Consistent where
  units := h.units
  debits := h.debits
  settled hstatus := by
    have hsettled : status = .settled := hstatus
    simp [Charge.moveTo, hsettled]

theorem Consistent.units_eq_zero (h : c.Consistent) : c.units = 0 ↔ c.reserved = false := by
  rw [h.units]
  cases c.reserved with
  | true => simp
  | false => simp

theorem once_consume_iff (h : c.Consistent) (hreserved : c.reserved = false) :
    c.consume.Once ↔ c.posted = false := by
  have hunits : c.units = 0 := h.units_eq_zero.mpr hreserved
  have hdebits := h.debits
  constructor
  · intro honce
    have hcharges : c.units + 1 + c.debits ≤ 1 := honce.charges
    cases hposted : c.posted with
    | true =>
      rw [hposted] at hdebits
      simp only [if_true] at hdebits
      omega
    | false => rfl
  · intro hposted
    rw [hposted] at hdebits
    refine ⟨?_, fun _ => rfl⟩
    simp [Charge.consume, hunits, hdebits]

theorem once_debit_iff (h : c.Consistent) (honce : c.Once) :
    c.debit.Once ↔ c.posted ∨ c.reserved = false := by
  have hdebits := h.debits
  have hcharges := honce.charges
  cases hposted : c.posted with
  | true =>
    refine iff_of_true ⟨?_, honce.settled⟩ (.inl rfl)
    simpa [Charge.debit, hposted] using hcharges
  | false =>
    rw [hposted] at hdebits
    have hzero : c.debits = 0 := hdebits
    rw [← h.units_eq_zero]
    constructor
    · intro hdebit
      have hafter := hdebit.charges
      simp only [Charge.debit, hposted, hzero] at hafter
      right
      simpa using hafter
    · rintro (hfalse | hunits)
      · cases hfalse
      · refine ⟨?_, honce.settled⟩
        simp [Charge.debit, hposted, hzero, hunits]

theorem once_moveTo_iff (h : c.Consistent) (honce : c.Once) (status : EventStatus) :
    (c.moveTo status).Once ↔ (c.status = .settled → status = .settled) := by
  constructor
  · intro hmoved hsettled
    apply hmoved.settled
    simp [Charge.moveTo, h.settled hsettled]
  · intro hkeeps
    refine ⟨honce.charges, ?_⟩
    intro hever
    have hever : c.settledEver = true ∨ status = .settled := by
      simpa [Charge.moveTo] using hever
    rcases hever with hever | hstatus
    · exact hkeeps (honce.settled hever)
    · exact hstatus

end Charge

/-- What a step may do to a charge. `safe` is the condition under which the step
keeps `Once`. -/
inductive Changes (c : Charge) (safe : Prop) : Charge → Prop
  | kept (hsafe : safe) : Changes c safe c
  | consumed (hreserved : c.reserved = false) (hsafe : safe ↔ c.posted = false) :
      Changes c safe c.consume
  | debited (hsafe : safe ↔ c.posted ∨ c.reserved = false) : Changes c safe c.debit
  | moved (status : EventStatus) (hsafe : safe ↔ (c.status = .settled → status = .settled)) :
      Changes c safe (c.moveTo status)

namespace Changes

variable {c d : Charge} {safe : Prop}

/-- A status written over one that is not `settled`. -/
theorem moved_of_ne (status : EventStatus) (hsafe : safe) (hstatus : c.status ≠ .settled) :
    Changes c safe (c.moveTo status) :=
  .moved status (iff_of_true hsafe fun hsettled => (hstatus hsettled).elim)

/-- Another status than `settled` is written. -/
theorem moved_to_ne {status : EventStatus} (hstatus : status ≠ .settled)
    (hsafe : safe ↔ c.status ≠ .settled) : Changes c safe (c.moveTo status) := by
  apply Changes.moved
  rw [hsafe]
  constructor
  · intro hleft hsettled
    exact (hleft hsettled).elim
  · intro hkeeps hsettled
    exact hstatus (hkeeps hsettled)

theorem consistent (h : Changes c safe d) (hc : c.Consistent) : d.Consistent := by
  cases h with
  | kept hsafe => exact hc
  | consumed hreserved hsafe => exact hc.consume hreserved
  | debited hsafe => exact hc.debit
  | moved status hsafe => exact hc.moveTo status

theorem once_iff (h : Changes c safe d) (hc : c.Consistent) (honce : c.Once) : d.Once ↔ safe := by
  cases h with
  | kept hsafe => exact iff_of_true honce hsafe
  | consumed hreserved hsafe => exact (Charge.once_consume_iff hc hreserved).trans hsafe.symm
  | debited hsafe => exact (Charge.once_debit_iff hc honce).trans hsafe.symm
  | moved status hsafe => exact (Charge.once_moveTo_iff hc honce status).trans hsafe.symm

end Changes

namespace Billing

def charged (s : Billing) : Charge :=
  { reserved := s.event.reservationId.isSome
    posted := s.posted
    units := s.units
    debits := s.debits
    status := s.event.status
    settledEver := s.settledEver }

@[simp]
theorem charged_setWorker (s : Billing) (worker : Nat) (state : MeterWorker) :
    (s.setWorker worker state).charged = s.charged := rfl

@[simp]
theorem charged_setCase (s : Billing) (row : Reconciliation) :
    (s.setCase row).charged = s.charged := rfl

@[simp]
theorem charged_lose (s : Billing) (worker : Nat) (event : BillingEvent) (lost : Option String) :
    (s.lose worker event lost).charged = s.charged := by
  cases lost with
  | none => rfl
  | some message => rfl

theorem charged_setEvent (s : Billing) {event : BillingEvent}
    (hreservation : event.reservationId = s.event.reservationId) :
    (s.setEvent event).charged = s.charged.moveTo event.status := by
  simp [charged, setEvent, Charge.moveTo, hreservation, posted]

/-- A write that leaves the status alone changes nothing that counts. -/
theorem charged_setEvent_same (s : Billing) (h : s.charged.Consistent) :
    (s.setEvent s.event).charged = s.charged := by
  have hever : (s.settledEver || s.event.status == .settled) = s.settledEver := by
    cases hsettled : s.event.status == .settled with
    | true => simp [show s.settledEver = true from h.settled (beq_iff_eq.mp hsettled)]
    | false => simp
  simp [charged, setEvent, posted, hever]

theorem posted_iff (s : Billing) : s.posted ↔ s.transferId ∈ s.ledger.posted := by
  simp [posted]

theorem charged_post (s : Billing) (event : BillingEvent) :
    (s.post event).charged = s.charged.debit := by
  have hposted : (s.post event).posted = true := by
    rw [posted_iff]
    apply (mem_posted_post _ _ _).mpr
    exact .inl rfl
  simp only [charged, hposted]
  rfl

theorem charged_otherTransfer (s : Billing) {transfer : Transfer}
    (hother : transfer.id ≠ s.transferId) :
    ({ s with ledger := s.ledger.post transfer } : Billing).charged = s.charged := by
  have hposted : ({ s with ledger := s.ledger.post transfer } : Billing).posted = s.posted := by
    apply Bool.eq_iff_iff.mpr
    rw [posted_iff, posted_iff]
    simp [mem_posted_post, hother.symm]
  simp only [charged, hposted]

theorem entitlement?_eq_none_iff (s : Billing) (tenantId : Int) (locked : List Nat) :
    s.entitlement? tenantId locked = none ↔
      ∀ entitlement ∈ s.entitlements, entitlement.available tenantId s.clock →
        entitlement.id ∈ locked := by
  unfold entitlement?
  rw [List.head?_eq_none_iff, ← List.length_eq_zero_iff, List.length_insertionSort,
    List.length_eq_zero_iff, List.filter_eq_nil_iff]
  simp

/-- The entitlement a reservation consumes is one it could find. -/
theorem charged_consume (s : Billing) (entitlements : List Entitlement) (reservationId : Nat) :
    (({ s with entitlements, units := s.units + 1 } : Billing).setEvent
      { s.event with
        reservationId := some reservationId
        status := .settled }).charged = s.charged.consume := by
  simp [charged, setEvent, Charge.consume, posted]

end Billing

/-- The event takes a prepaid unit or a ledger debit, but not two of these, and
is still settled where it ever was. -/
def ChargedOnce (s : Billing) : Prop :=
  s.units + s.debits ≤ 1 ∧ (s.settledEver → s.event.status = .settled)

theorem chargedOnce_iff (s : Billing) : ChargedOnce s ↔ s.charged.Once := by
  constructor
  · rintro ⟨hcharges, hsettled⟩
    exact ⟨hcharges, hsettled⟩
  · rintro ⟨hcharges, hsettled⟩
    exact ⟨hcharges, hsettled⟩

/-- The steps that charge an event once. A unit is consumed only before the
transfer is posted, the transfer is posted only before a unit is consumed, and
the writes without a condition on the status do not hit a settled event. -/
def KeepsCharges (s : Billing) : MeterAction → Prop
  | .reserve worker locked _ _ =>
    ∀ event, s.workers worker = .reserving event → s.event.reservationId = none → s.posted →
      ∀ entitlement ∈ s.entitlements, entitlement.available event.tenantId s.clock →
        entitlement.id ∈ locked
  | .charge worker _ =>
    ∀ event, s.workers worker = .charging event → event.amountKobo = 0 →
      s.event.status ≠ .settled
  | .post _ error applied => error = none ∨ applied → s.posted ∨ s.event.reservationId = none
  | .handleFailure worker =>
    ∀ event message, s.workers worker = .failing event message →
      ¬ (retryable message ∧ maxAttempts ≤ event.attemptCount) → s.event.status ≠ .settled
  | _ => True

section Steps

variable {s t : Billing}

theorem changes_claim (s : Billing) (worker : Nat) : Changes s.charged True (s.claim worker).charged := by
  unfold Billing.claim
  split
  next hclaimable =>
    rw [Billing.charged_setWorker, Billing.charged_setEvent]
    · apply Changes.moved_of_ne
      · trivial
      · intro hsettled
        have hsettled : s.event.status = .settled := hsettled
        simp [Billing.claimable, hsettled] at hclaimable
    · rfl
  next => exact .kept trivial

theorem changes_reserve (s : Billing) (worker : Nat) (event : BillingEvent) (locked : List Nat)
    (reservationId : Nat) :
    Changes s.charged
      (s.event.reservationId = none → s.posted →
        ∀ entitlement ∈ s.entitlements, entitlement.available event.tenantId s.clock →
          entitlement.id ∈ locked)
      (s.reserve worker event locked reservationId).charged := by
  unfold Billing.reserve
  split
  next hreserved =>
    apply Changes.kept
    intro hnone
    rw [hnone] at hreserved
    cases hreserved
  next hreserved =>
    have hnone : s.event.reservationId = none := by
      simpa using hreserved
    split
    next hentitlement =>
      apply Changes.kept
      intro _ _
      exact (s.entitlement?_eq_none_iff _ _).mp hentitlement
    next entitlement hentitlement =>
      rw [Billing.charged_setWorker, Billing.charged_consume]
      apply Changes.consumed
      · simp [Billing.charged, hnone]
      · rw [← s.entitlement?_eq_none_iff, hentitlement]
        simp [Billing.charged, hnone]

theorem changes_charge (s : Billing) (worker : Nat) (event : BillingEvent) :
    Changes s.charged (event.amountKobo = 0 → s.event.status ≠ .settled)
      (s.charge worker event).charged := by
  unfold Billing.charge
  split
  next hunsafe =>
    apply Changes.kept
    intro hzero
    rw [hzero] at hunsafe
    exact absurd (by decide) hunsafe
  next =>
    split
    next hzero =>
      rw [Billing.charged_setWorker, Billing.charged_setEvent]
      · apply Changes.moved_to_ne
        · simp
        · simp [Billing.charged, hzero]
      · rfl
    next hpositive =>
      apply Changes.kept
      intro hzero
      exact (hpositive hzero).elim

theorem changes_authorize (s : Billing) (worker : Nat) (event : BillingEvent)
    (error : Option String) : Changes s.charged True (s.authorize worker event error).charged := by
  unfold Billing.authorize
  split
  · exact .kept trivial
  · cases error with
    | none | some => exact .kept trivial

theorem changes_post (s : Billing) (event : BillingEvent) :
    Changes s.charged (s.posted ∨ s.event.reservationId = none) (s.post event).charged := by
  rw [Billing.charged_post]
  apply Changes.debited
  simp [Billing.charged]

theorem changes_settle (s : Billing) (worker : Nat) (event : BillingEvent) :
    Changes s.charged True (s.settle worker event).charged := by
  unfold Billing.settle
  split
  next hleased =>
    rw [Billing.charged_setWorker, Billing.charged_setEvent]
    · apply Changes.moved
      simp
    · rfl
  next => exact .kept trivial

theorem changes_handleFailure (h : s.charged.Consistent) (worker : Nat) (event : BillingEvent)
    (message : String) :
    Changes s.charged
      (¬ (retryable message ∧ maxAttempts ≤ event.attemptCount) → s.event.status ≠ .settled)
      (s.handleFailure worker event message).charged := by
  unfold Billing.handleFailure
  split
  next hescalate =>
    have hlast : retryable message ∧ maxAttempts ≤ event.attemptCount := by
      simpa using hescalate
    rw [Billing.charged_setWorker]
    unfold Billing.escalate
    split
    next hleased =>
      change Changes s.charged _ (s.setEvent _).charged
      rw [Billing.charged_setEvent]
      · apply Changes.moved_of_ne
        · intro hother
          exact (hother hlast).elim
        · simp [Billing.charged, hleased]
      · rfl
    next =>
      change Changes s.charged _ (s.setEvent s.event).charged
      rw [s.charged_setEvent_same h]
      exact .kept fun hother => (hother hlast).elim
  next hescalate =>
    have hother : ¬ (retryable message ∧ maxAttempts ≤ event.attemptCount) := by
      simpa using hescalate
    rw [Billing.charged_setWorker, Billing.fail, Billing.charged_setEvent]
    · apply Changes.moved_to_ne
      · dsimp only
        split
        · simp
        · simp
      · simp only [hother, not_false_eq_true, true_imp_iff]
        rfl
    · rfl

theorem changes_recoverStale (s : Billing) : Changes s.charged True s.recoverStale.charged := by
  unfold Billing.recoverStale
  split
  next hstale =>
    rw [Billing.charged_setEvent]
    · apply Changes.moved_of_ne
      · trivial
      · intro hsettled
        have hsettled : s.event.status = .settled := hsettled
        simp [Billing.stale, hsettled] at hstale
    · rfl
  next => exact .kept trivial

theorem changes_claimCase (s : Billing) (reviewer : Reviewer) :
    Changes s.charged True (s.claimCase reviewer).charged := by
  unfold Billing.claimCase
  split
  · exact .kept trivial
  · split
    · exact .kept trivial
    · exact .kept trivial

theorem changes_resolve (h : s.charged.Consistent) (reviewer : Reviewer)
    (resolution : Resolution) : Changes s.charged True (s.resolve reviewer resolution).charged := by
  unfold Billing.resolve
  split
  next => exact .kept trivial
  next row _ =>
    split
    next => exact .kept trivial
    next =>
      split
      next =>
        rw [Billing.charged_setCase]
        split
        next hawaiting =>
          rw [Billing.charged_setEvent]
          · apply Changes.moved_of_ne
            · trivial
            · simp [Billing.charged, hawaiting]
          · cases resolution with
            | confirmSettled | confirmNotSettled | approveDeterministicRetry => rfl
        next =>
          rw [s.charged_setEvent_same h]
          exact .kept trivial
      next => exact .kept trivial

theorem changes_step (h : s.charged.Consistent) {action : MeterAction}
    (hstep : meterStep s action = some t) :
    Changes s.charged (KeepsCharges s action) t.charged := by
  cases takes_of_step hstep with
  | claim hworker => exact changes_claim s _
  | reserve hworker locked reservationId lost =>
    simpa [KeepsCharges, hworker] using changes_reserve s _ _ locked reservationId
  | charge hworker lost => simpa [KeepsCharges, hworker] using changes_charge s _ _
  | authorize hworker error => exact changes_authorize s _ _ error
  | post hworker applied => simpa [KeepsCharges] using changes_post s _
  | postFailed hworker message applied =>
    cases applied with
    | true => simpa [KeepsCharges] using changes_post s _
    | false =>
      apply Changes.kept
      simp [KeepsCharges]
  | settle hworker lost =>
    rw [Billing.charged_lose]
    exact changes_settle s _ _
  | databaseError | crash | entitlementsChanged | tick => exact .kept trivial
  | handleFailure hworker =>
    simpa [KeepsCharges, hworker] using changes_handleFailure h _ _ _
  | recoverStale => exact changes_recoverStale s
  | claimCase reviewer => exact changes_claimCase s reviewer
  | resolve reviewer resolution => exact changes_resolve h reviewer resolution
  | otherTransfer hother =>
    rw [Billing.charged_otherTransfer s hother]
    exact .kept trivial

end Steps

section Runs

variable (sha256 : List UInt8 → List UInt8) (billingEventId : String) (tenantId : Int)
  (requestedBy amountKobo : Nat) (entitlements : List Entitlement)

theorem consistent_initial :
    (Billing.initial sha256 billingEventId tenantId requestedBy amountKobo
      entitlements).charged.Consistent where
  units := rfl
  debits := rfl
  settled hsettled := by
    cases hsettled

theorem once_initial :
    (Billing.initial sha256 billingEventId tenantId requestedBy amountKobo
      entitlements).charged.Once where
  charges := by
    simp [Billing.initial, Billing.charged]
  settled hever := by
    cases hever

/-- Along a run the event takes at most one prepaid unit or ledger debit, and
never leaves `settled`, exactly where every step keeps the charges. -/
theorem charged_once_iff (labels : List MeterAction) :
    Always meterStep ChargedOnce
        (.initial sha256 billingEventId tenantId requestedBy amountKobo entitlements) labels ↔
      Meets meterStep KeepsCharges
        (.initial sha256 billingEventId tenantId requestedBy amountKobo entitlements) labels := by
  apply always_iff_meets labels (I := fun s => s.charged.Consistent)
  · intro s a t hs hstep
    exact (changes_step hs hstep).consistent hs
  · intro s a t hs honce hstep
    rw [chargedOnce_iff] at honce ⊢
    exact (changes_step hs hstep).once_iff hs honce
  · exact consistent_initial sha256 billingEventId tenantId requestedBy amountKobo entitlements
  · rw [chargedOnce_iff]
    exact once_initial sha256 billingEventId tenantId requestedBy amountKobo entitlements

end Runs

/-- The update after the debit fails; the tenant buys a prepaid period, and the
retry takes a unit of it. -/
theorem retry_charges_unit :
    ¬ ∃ sha256 : List UInt8 → List UInt8, ∀ labels,
      Always meterStep ChargedOnce (.initial sha256 "7f3c" 1 7 50000 []) labels := by
  rintro ⟨sha256, h⟩
  let bought : Entitlement :=
    { id := 1
      tenantId := 1
      active := true
      periodStart := 0
      periodEnd := 86400000
      totalUnits := 100
      consumedUnits := 0
      reservedUnits := 0 }
  let labels : List MeterAction :=
    [.claim 0, .reserve 0 [] 1 none, .charge 0 none, .authorize 0 none, .post 0 none true,
      .databaseError 0 "Connection terminated unexpectedly", .handleFailure 0,
      .entitlementsChanged [bought], .claim 1, .reserve 1 [] 1 none]
  have hretry : retryable "Connection terminated unexpectedly" = true := by
    decide +kernel
  have hrun : (run meterStep (.initial sha256 "7f3c" 1 7 50000 []) labels).map
      (fun s => (s.units, s.debits)) = some (1, 1) := by
    simp [labels, bought, run, meterStep, Billing.initial, Billing.setEvent, Billing.setWorker,
      Billing.claim, Billing.claimable, maxAttempts, Billing.reserve, Billing.entitlement?,
      Entitlement.available, Billing.lose, Billing.charge, isSafeInteger, Billing.authorize,
      Billing.post, Billing.posted, Billing.handleFailure, Billing.fail, hretry]
  obtain ⟨finish, hfinish, hcounts⟩ := Option.map_eq_some_iff.mp hrun
  have hunits : finish.units = 1 := congrArg Prod.fst hcounts
  have hdebits : finish.debits = 1 := congrArg Prod.snd hcounts
  have honce := ((h labels).finish hfinish).1
  omega

end Bis.Metering
