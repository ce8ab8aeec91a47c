import Bis.Settlement.Crediting
import Bis.Settlement.Signup

/-!
What a payment for a plan grants. A settlement credits the tenant of the intent
whatever the intent is for, and a signup waits for a settlement before it
activates anything. The unique reference lets one subscription through; the
prepaid balance has been raised by then.
-/

namespace Bis.Settlement

open Bis.Number Bis.TigerBeetle Bis.Relation Bis.Transition List Function Option

/-! ### What tells of a credit -/

/-- The phases of a call after its posting. -/
def Phase.afterPosting : Phase → Bool
  | .completing _ _ | .recording _ _ => true
  | .ready | .verifying _ | .ensuring _ _ | .posting _ _ | .over => false

/-- Whatever tells of a credit has one behind it. -/
structure Evidenced (s : Payment) : Prop where
  credited : ∀ row, s.intent = some row → row.status = .credited → s.posted
  calls : ∀ id, (s.calls id).phase.afterPosting → s.posted
  returned : ∀ ended ∈ s.ended, ∀ settled, ended.result = .ok settled → s.posted

/-- What a step of a settlement writes. -/
inductive Moved (s : Payment) : Payment → Prop where
  | start (tenantId amountKobo) : Moved s (s.start tenantId amountKobo)
  | initialized (accepted) : Moved s (s.initialized accepted)
  | check (id) : Moved s (s.check id)
  | phase (id) {phase : Phase} (h : ¬ phase.afterPosting) : Moved s (s.setPhase id phase)
  | failed (id error) : Moved s (s.finish id (s.calls id).later (.error error))
  | posted (id) (intent : PaymentIntent) (phase : Phase) :
      Moved s ((s.post intent).setPhase id phase)
  | unanswered (id error) (intent : PaymentIntent) :
      Moved s ((s.post intent).finish id (s.calls id).later (.error error))
  | complete (id) (intent : PaymentIntent) (channel) (h : (s.calls id).phase.afterPosting) :
      Moved s (s.complete id intent channel)
  | record (id) (intent : PaymentIntent) (channel) (h : (s.calls id).phase.afterPosting) :
      Moved s (s.record id intent channel)
  | otherTransfer (transfer : Transfer) (h : transfer.id ≠ s.transferId) :
      Moved s { s with ledger := s.ledger.post transfer }
  | tick (ms) : Moved s { s with clock := s.clock + ms }

section Payments

variable {s t : Payment} {action : SettlementAction}

theorem moved_of_step (hstep : settlementStep s action = some t) : Moved s t := by
  cases paymentTakes_of_step hstep with
  | start tenantId amountKobo => exact .start tenantId amountKobo
  | initialized accepted => exact .initialized accepted
  | check hphase => exact .check _
  | verified | ensured => exact .phase _ Bool.false_ne_true
  | @refused id intent answer error hphase herror
  | @notEnsured id intent channel answer error hphase herror => exact .failed id error
  | @posted id intent channel hphase answer applied => exact .posted id intent _
  | @unanswered id intent channel answer error sent hphase herror hsent applied =>
    rcases hsent with rfl | rfl
    · exact .unanswered id error intent
    · exact .failed id error
  | @complete id intent channel hphase => exact .complete id intent channel (hphase ▸ rfl)
  | @record id intent channel hphase => exact .record id intent channel (hphase ▸ rfl)
  | crash id => exact .phase id Bool.false_ne_true
  | @otherTransfer transfer hother => exact .otherTransfer transfer hother
  | tick ms => exact .tick ms

/-- The reference stays, and a credit once posted stays posted. -/
structure Onward (s t : Payment) : Prop where
  reference : t.reference = s.reference
  posted : s.posted → t.posted

theorem onward_of_moved (h : Moved s t) : Onward s t := by
  cases h with
  | start tenantId amountKobo =>
    unfold Payment.start
    split <;> exact ⟨rfl, id⟩
  | initialized | tick => exact ⟨rfl, id⟩
  | check id =>
    unfold Payment.check
    split <;> exact ⟨rfl, fun h => h⟩
  | phase | failed => exact ⟨rfl, fun h => h⟩
  | posted id intent phase | unanswered id error intent =>
    exact ⟨rfl, fun _ => posted_post s intent⟩
  | complete id intent channel hphase =>
    unfold Payment.complete
    split <;> exact ⟨rfl, fun h => h⟩
  | record id intent channel hphase =>
    unfold Payment.record
    split <;> exact ⟨rfl, fun h => h⟩
  | otherTransfer transfer hother =>
    refine ⟨rfl, fun hposted => contains_iff_mem.mpr ?_⟩
    exact (mem_posted_post s.ledger transfer s.transferId).mpr
      (.inr (contains_iff_mem.mp hposted))

theorem evidenced_of_posted (h : s.posted) : Evidenced s :=
  ⟨fun _ _ _ => h, fun _ _ => h, fun _ _ _ _ => h⟩

theorem Evidenced.setCall (h : Evidenced s) (id : Nat) {call : Call}
    (hphase : call.phase.afterPosting → s.posted) : Evidenced (s.setCall id call) where
  credited := h.credited
  calls other hafter := by
    by_cases hother : other = id
    · subst hother
      simp only [Payment.setCall, update_self] at hafter
      exact hphase hafter
    · simp only [Payment.setCall, update_of_ne hother] at hafter
      exact h.calls other hafter
  returned := h.returned

theorem Evidenced.finish (h : Evidenced s) (id : Nat) {later : Bool}
    {result : Except SettlementError Settled}
    (hresult : ∀ settled, result = .ok settled → s.posted) :
    Evidenced (s.finish id later result) := by
  have hcall : Evidenced (s.setCall id ⟨.over, later⟩) :=
    h.setCall id fun hafter => absurd hafter Bool.false_ne_true
  refine ⟨hcall.credited, hcall.calls, ?_⟩
  intro ended hended settled hok
  rcases mem_cons.mp hended with rfl | hbefore
  · exact hresult settled hok
  · exact h.returned ended hbefore settled hok

theorem Evidenced.failed (h : Evidenced s) (id : Nat) (later : Bool) (error : SettlementError) :
    Evidenced (s.finish id later (.error error)) :=
  h.finish id fun settled hok => by cases hok

/-- A settlement found done is one whose intent is credited. -/
theorem credited_of_check {transferId : String} {now : Nat} {intent : Option PaymentIntent}
    {settled : Settled} (h : checkIntent transferId now intent = .ok (some settled)) :
    ∃ row, intent = some row ∧ row.status = .credited := by
  cases intent with
  | none => cases h
  | some row =>
    simp only [checkIntent] at h
    split at h
    next hstatus => exact ⟨row, rfl, hstatus⟩
    next =>
      split at h
      · cases h
      · split at h <;> cases h

theorem evidenced_check (h : Evidenced s) (id : Nat) : Evidenced (s.check id) := by
  unfold Payment.check
  split
  next error _ => exact h.failed id s.posted error
  next settled hchecked =>
    apply h.finish id
    intro _ _
    obtain ⟨row, hrow, hcredited⟩ := credited_of_check hchecked
    exact h.credited row hrow hcredited
  next => exact h.setCall id fun hafter => absurd hafter Bool.false_ne_true
  next => exact h

theorem evidenced_start (h : Evidenced s) (tenantId : Int) (amountKobo : Nat) :
    Evidenced (s.start tenantId amountKobo) := by
  unfold Payment.start
  split
  next =>
    refine ⟨?_, h.calls, h.returned⟩
    intro row hrow hcredited
    cases hrow
    exact IntentStatus.noConfusion hcredited
  next => exact h

theorem evidenced_initialized (h : Evidenced s) (accepted : Bool) :
    Evidenced (s.initialized accepted) := by
  refine ⟨?_, h.calls, h.returned⟩
  intro row hrow hcredited
  obtain ⟨old, hold, rfl⟩ := map_eq_some_iff.mp hrow
  split at hcredited
  next =>
    cases accepted with
    | true | false => exact IntentStatus.noConfusion hcredited
  next => exact h.credited old hold hcredited

theorem evidenced_of_moved (h : Evidenced s) (hmoved : Moved s t) : Evidenced t := by
  cases hmoved with
  | start tenantId amountKobo => exact evidenced_start h tenantId amountKobo
  | initialized accepted => exact evidenced_initialized h accepted
  | check id => exact evidenced_check h id
  | phase id hphase => exact h.setCall id fun hafter => absurd hafter hphase
  | failed id error => exact h.failed id _ error
  | posted id intent phase | unanswered id error intent =>
    exact evidenced_of_posted (posted_post s intent)
  | complete id intent channel hphase =>
    apply evidenced_of_posted
    have hposted := h.calls id hphase
    unfold Payment.complete
    split <;> exact hposted
  | record id intent channel hphase =>
    apply evidenced_of_posted
    have hposted := h.calls id hphase
    unfold Payment.record
    split <;> exact hposted
  | otherTransfer transfer hother =>
    have honward := onward_of_moved (.otherTransfer transfer hother)
    exact ⟨fun row hrow hcredited => honward.posted (h.credited row hrow hcredited),
      fun id hafter => honward.posted (h.calls id hafter),
      fun ended hended settled hok => honward.posted (h.returned ended hended settled hok)⟩
  | tick ms => exact ⟨h.credited, h.calls, h.returned⟩

theorem evidenced_initial (sha256 : List UInt8 → List UInt8) (reference : String) :
    Evidenced (.initial sha256 reference) where
  credited row hrow := by cases hrow
  calls id hafter := by cases hafter
  returned ended hended := by cases hended

/-- A posted credit is the amount of the intent, which is not nothing. -/
theorem Booked.credit (h : Booked s) (hposted : s.posted) :
    ∃ row, s.intent = some row ∧ s.creditedKobo = row.amountKobo ∧ 0 < row.amountKobo := by
  obtain ⟨row, hrow, _⟩ := h.posted hposted
  obtain ⟨kobo, hkobo, rfl⟩ := h.amount row hrow
  have hcredited := h.credited row hrow
  rw [h.creditings, if_pos hposted, Nat.one_mul] at hcredited
  refine ⟨row, hrow, hcredited, ?_⟩
  unfold asAmount at hkobo
  split at hkobo
  next hamount => exact hamount.2
  next => cases hkobo

end Payments

/-! ### What an activation writes -/

section Desk

variable {s t : SignupDesk}

/-- `t` is `s` with a new subscription, in place of the tenant's current one. -/
structure Subscribed (s t : SignupDesk) (row : TenantSubscription) : Prop where
  payment : t.payment = s.payment
  requests : t.requests = s.requests
  outcomes : t.outcomes = s.outcomes
  subscriptions : t.subscriptions = (s.cancelCurrent row.tenantId).subscriptions ++ [row]
  id : row.id ∉ s.subscriptions.map TenantSubscription.id
  reference : providerKey row ∉ s.subscriptions.map providerKey
  entitlements : t.entitlements = s.entitlements ∨
    ∃ entitlement, entitlement.subscriptionId = row.id ∧
      t.entitlements = s.entitlements ++ [entitlement]

theorem ids_cancelCurrent (s : SignupDesk) (tenantId : Int) :
    (s.cancelCurrent tenantId).subscriptions.map TenantSubscription.id =
      s.subscriptions.map TenantSubscription.id :=
  map_updateWhere (f := fun sub : TenantSubscription => { sub with status := .cancelled }) (fun _ => rfl) _

theorem references_cancelCurrent (s : SignupDesk) (tenantId : Int) :
    (s.cancelCurrent tenantId).subscriptions.map providerKey = s.subscriptions.map providerKey :=
  map_updateWhere (f := fun sub : TenantSubscription => { sub with status := .cancelled }) (fun _ => rfl) _

/-- After the cancellation the tenant has no current subscription. -/
theorem not_current_of_cancelled {tenantId : Int} {sub : TenantSubscription}
    (h : sub ∈ (s.cancelCurrent tenantId).subscriptions) (htenant : sub.tenantId = tenantId) :
    sub.status.current = false := by
  unfold SignupDesk.cancelCurrent at h
  rcases mem_updateWhere.mp h with ⟨old, _, _, rfl⟩ | ⟨_, hnot⟩
  · rfl
  · simpa [htenant] using hnot

/-- Only the identifier and the reference stand in the way of a subscription
that replaces the current one. -/
theorem insertSubscription_eq_some (row : TenantSubscription) :
    (s.cancelCurrent row.tenantId).insertSubscription row = some t ↔
      (row.id ∉ s.subscriptions.map TenantSubscription.id ∧
        providerKey row ∉ s.subscriptions.map providerKey) ∧
        t = { s.cancelCurrent row.tenantId with
          subscriptions := (s.cancelCurrent row.tenantId).subscriptions ++ [row] } := by
  unfold SignupDesk.insertSubscription
  rw [insert_eq_some, ← ids_cancelCurrent s row.tenantId, ← references_cancelCurrent s row.tenantId]
  apply and_congr_left
  intro _
  constructor
  · intro hfree
    constructor
    · intro hid
      obtain ⟨sub, hsub, hsame⟩ := mem_map.mp hid
      have hclash := hfree sub hsub
      simp [hsame] at hclash
    · intro hreference
      obtain ⟨sub, hsub, hsame⟩ := mem_map.mp hreference
      have hclash := hfree sub hsub
      simp [hsame] at hclash
  · rintro ⟨hid, hreference⟩ sub hsub
    have hids : sub.id ≠ row.id := fun hsame => hid (mem_map.mpr ⟨sub, hsub, hsame⟩)
    have hreferences : providerKey sub ≠ providerKey row :=
      fun hsame => hreference (mem_map.mpr ⟨sub, hsub, hsame⟩)
    by_cases htenant : sub.tenantId = row.tenantId
    · simp [hids, hreferences, not_current_of_cancelled hsub htenant]
    · simp [hids, hreferences, htenant]

/-- The entitlement is the only thing that is granted. -/
theorem grantChecks_eq_some (row : BillingEntitlement) :
    s.grantChecks row = some t ↔
      (0 < row.totalUnits → ∀ other ∈ s.entitlements,
        other.id ≠ row.id ∧ other.sourceReference ≠ row.sourceReference) ∧
        t = { s with
          entitlements := s.entitlements ++ if 0 < row.totalUnits then [row] else [] } := by
  unfold SignupDesk.grantChecks
  split
  next hunits =>
    unfold SignupDesk.insertEntitlement
    rw [insert_eq_some]
    simp [hunits]
  next hunits =>
    rw [some.injEq, eq_comm]
    simp [hunits]

/-- The constraints let an activation through. -/
structure Admits (s : SignupDesk) (input : SignupInput) (plan : BillingPlan)
    (billingRef : Option String) (ids : ActivationIds) : Prop where
  subscription : ids.subscription ∉ s.subscriptions.map TenantSubscription.id
  reference : (plan.provider, input.providerRef billingRef) ∉ s.subscriptions.map providerKey
  entitlement : 0 < plan.includedChecks → ∀ other ∈ s.entitlements,
    other.id ≠ ids.entitlement ∧ other.sourceReference ≠ input.sourceReference
  signup : ∀ other ∈ s.signups, other.id ≠ ids.signup ∧
    signupKey other ≠ (input.tenantId, input.idempotencyKey)

variable {input : SignupInput} {plan : BillingPlan} {billingRef : Option String}
  {ids : ActivationIds}

/-- The desk after an activation. -/
def SignupDesk.activated (s : SignupDesk) (input : SignupInput) (plan : BillingPlan)
    (billingRef : Option String) (ids : ActivationIds) : SignupDesk :=
  { s with
    subscriptions := (s.cancelCurrent input.tenantId).subscriptions ++
      [SignupDesk.newSubscription input plan billingRef ids]
    entitlements := s.entitlements ++
      if 0 < plan.includedChecks then [SignupDesk.newEntitlement input plan ids] else []
    signups := s.signups ++ [SignupDesk.newSignup input billingRef ids] }

theorem activate_eq_some :
    s.activate input plan billingRef ids = some t ↔
      Admits s input plan billingRef ids ∧ t = s.activated input plan billingRef ids := by
  have hsubscribe (u : SignupDesk) := insertSubscription_eq_some (s := s) (t := u)
    (SignupDesk.newSubscription input plan billingRef ids)
  have htenant : (SignupDesk.newSubscription input plan billingRef ids).tenantId =
    input.tenantId := rfl
  unfold SignupDesk.activate SignupDesk.insertSignup
  simp only [htenant] at hsubscribe
  simp only [bind_eq_bind, bind_eq_some_iff, grantChecks_eq_some, insert_eq_some,
    hsubscribe]
  constructor
  · rintro ⟨_, ⟨⟨hid, hreference⟩, rfl⟩, _, ⟨hentitlement, rfl⟩, hsignup, rfl⟩
    refine ⟨⟨hid, hreference, hentitlement, ?_⟩, rfl⟩
    intro other hother
    have hfree := hsignup other hother
    simpa [SignupDesk.newSignup, signupKey] using hfree
  · rintro ⟨h, rfl⟩
    refine ⟨_, ⟨⟨h.subscription, h.reference⟩, rfl⟩, _, ⟨h.entitlement, rfl⟩, ?_, rfl⟩
    intro other hother
    have hfree := h.signup other hother
    simpa [SignupDesk.newSignup, signupKey] using hfree

theorem subscribed_activated (h : Admits s input plan billingRef ids) :
    Subscribed s (s.activated input plan billingRef ids)
      (SignupDesk.newSubscription input plan billingRef ids) where
  payment := rfl
  requests := rfl
  outcomes := rfl
  subscriptions := rfl
  id := h.subscription
  reference := h.reference
  entitlements := by
    unfold SignupDesk.activated
    split
    · exact .inr ⟨_, rfl, rfl⟩
    · exact .inl (append_nil _)

theorem subscribed_of_activateManualContract {tenantId : Int}
    {planCode authorityReference periodStart : String}
    (h : s.activateManualContract tenantId planCode authorityReference periodStart ids = some t) :
    ∃ row, row.provider = .manualContract ∧ Subscribed s t row := by
  unfold SignupDesk.activateManualContract at h
  obtain ⟨plan, _, h⟩ := bind_eq_some_iff.mp h
  obtain ⟨subscribed, hsubscribed, hgranted⟩ := bind_eq_some_iff.mp h
  let row : TenantSubscription :=
    { id := ids.subscription
      tenantId
      planCode
      provider := .manualContract
      providerSubscriptionRef := authorityReference
      status := .active }
  obtain ⟨⟨hid, hreference⟩, rfl⟩ := (insertSubscription_eq_some row).mp hsubscribed
  obtain ⟨_, rfl⟩ := (grantChecks_eq_some _).mp hgranted
  refine ⟨row, rfl, rfl, rfl, rfl, rfl, hid, hreference, ?_⟩
  dsimp only
  split
  · exact .inr ⟨_, rfl, rfl⟩
  · exact .inl (append_nil _)

/-! ### What every run keeps -/

/-- A subscription has one identifier and one reference, and at most one
entitlement. -/
structure Keyed (s : SignupDesk) : Prop where
  ids : (s.subscriptions.map TenantSubscription.id).Nodup
  references : (s.subscriptions.map providerKey).Nodup
  entitlements : (s.entitlements.map BillingEntitlement.subscriptionId).Nodup
  known : ∀ entitlement ∈ s.entitlements,
    entitlement.subscriptionId ∈ s.subscriptions.map TenantSubscription.id

variable {row : TenantSubscription} {payment : Payment} {action : SignupAction}

theorem keyed_subscribed (h : Keyed s) (hrow : Subscribed s t row) : Keyed t := by
  have hids : t.subscriptions.map TenantSubscription.id =
      s.subscriptions.map TenantSubscription.id ++ [row.id] := by
    rw [hrow.subscriptions, map_append, ids_cancelCurrent]
    rfl
  have hreferences : t.subscriptions.map providerKey =
      s.subscriptions.map providerKey ++ [providerKey row] := by
    rw [hrow.subscriptions, map_append, references_cancelCurrent]
    rfl
  have hold : ∀ entitlement ∈ s.entitlements,
      entitlement.subscriptionId ∈ t.subscriptions.map TenantSubscription.id := by
    intro entitlement hentitlement
    rw [hids]
    exact mem_append_left _ (h.known entitlement hentitlement)
  have hnew : row.id ∈ t.subscriptions.map TenantSubscription.id := by
    rw [hids]
    exact mem_concat_self
  refine ⟨?_, ?_, ?_, ?_⟩
  · rw [hids]
    exact nodup_append_fresh h.ids hrow.id
  · rw [hreferences]
    exact nodup_append_fresh h.references hrow.reference
  · rcases hrow.entitlements with hsame | ⟨entitlement, hsubscription, happended⟩
    · rw [hsame]
      exact h.entitlements
    · rw [happended, map_append]
      apply nodup_append_fresh h.entitlements
      rw [hsubscription]
      intro hmem
      obtain ⟨other, hother, hsame⟩ := mem_map.mp hmem
      exact hrow.id (hsame ▸ h.known other hother)
  · rcases hrow.entitlements with hsame | ⟨entitlement, hsubscription, happended⟩
    · rw [hsame]
      exact hold
    · rw [happended]
      intro other hother
      rcases mem_concat.mp hother with hbefore | hsingle
      · exact hold other hbefore
      · rw [hsingle, hsubscription]
        exact hnew

/-- A request activates a paid plan under the reference only after the credit. -/
def SignupPhase.sound (payment : Payment) : SignupPhase → Prop
  | .binding _ plan _ | .settling _ plan _ | .awaiting _ plan _ _ => 0 < plan.priceKobo
  | .activating _ plan none => plan.priceKobo = 0
  | .activating _ plan (some billingRef) =>
    0 < plan.priceKobo ∧ (billingRef = payment.reference → payment.posted)
  | .ready | .replaying _ | .planning _ | .failing _ _ _ | .rereading _ | .over _ => True

/-- The key of a subscription that the payment pays for. -/
def SignupDesk.paidKey (s : SignupDesk) : SubscriptionProvider × String :=
  (.paystack, s.payment.reference)

/-- A subscription has been activated under the reference. -/
def Paid (s : SignupDesk) : Prop := s.paidKey ∈ s.subscriptions.map providerKey

theorem paid_congr (hsubscriptions : t.subscriptions = s.subscriptions)
    (hreference : t.payment.reference = s.payment.reference) : Paid t ↔ Paid s := by
  unfold Paid SignupDesk.paidKey
  rw [hsubscriptions, hreference]

structure Granting (s : SignupDesk) : Prop where
  booked : Booked s.payment
  evidenced : Evidenced s.payment
  keyed : Keyed s
  outcomes : ∀ call settled, s.outcomes call = some (.ok settled) → s.payment.posted
  requests : ∀ request, (s.requests request).sound s.payment
  subscriptions : Paid s → s.payment.posted

theorem SignupPhase.sound.onward {payment' : Payment} {phase : SignupPhase}
    (h : phase.sound payment) (honward : Onward payment payment') : phase.sound payment' := by
  cases phase with
  | activating input plan billingRef =>
    cases billingRef with
    | none => exact h
    | some billingRef =>
      refine ⟨h.1, fun href => honward.posted (h.2 ?_)⟩
      rw [href, honward.reference]
  | binding _ _ _ | settling _ _ _ | awaiting _ _ _ _ => exact h
  | _ => trivial

variable {result : Except SettlementError Settled}

theorem sound_settled {paymentReference : String} (hprice : 0 < plan.priceKobo)
    (hposted : ∀ settled, result = .ok settled → paymentReference = payment.reference →
      payment.posted) : (SignupPhase.settled input plan paymentReference result).sound payment := by
  cases result with
  | ok settled => exact ⟨hprice, hposted settled rfl⟩
  | error error => trivial

theorem Granting.setRequest (h : Granting s) (request : Nat) {phase : SignupPhase}
    (hphase : phase.sound s.payment) : Granting (s.setRequest request phase) where
  booked := h.booked
  evidenced := h.evidenced
  keyed := ⟨h.keyed.ids, h.keyed.references, h.keyed.entitlements, h.keyed.known⟩
  outcomes := h.outcomes
  requests other := by
    by_cases hother : other = request
    · subst hother
      simp only [SignupDesk.setRequest, update_self]
      exact hphase
    · simp only [SignupDesk.setRequest, update_of_ne hother]
      exact h.requests other
  subscriptions := h.subscriptions

/-- The payment moves on and the tables stay. -/
theorem Granting.withPayment (h : Granting s) (hbooked : Booked payment)
    (hevidenced : Evidenced payment) (honward : Onward s.payment payment)
    {outcomes : Nat → Option (Except SettlementError Settled)}
    (houtcomes : ∀ call settled, outcomes call = some (.ok settled) → payment.posted) :
    Granting { s with payment, outcomes } where
  booked := hbooked
  evidenced := hevidenced
  keyed := ⟨h.keyed.ids, h.keyed.references, h.keyed.entitlements, h.keyed.known⟩
  outcomes := houtcomes
  requests request := (h.requests request).onward honward
  subscriptions hpaid := by
    apply honward.posted
    have hsame := paid_congr (t := { s with payment, outcomes }) (s := s) rfl honward.reference
    exact h.subscriptions (hsame.mp hpaid)

/-- A result is what a call of the payment has ended with. -/
theorem outcomes_advance {call : Option Nat} {other : Nat}
    (h : (s.advance payment call).outcomes other = some result) :
    s.outcomes other = some result ∨ ∃ ended ∈ payment.ended, ended.result = result := by
  cases call with
  | none => exact .inl h
  | some id =>
    cases hreturned : SignupDesk.returned s.payment payment with
    | none =>
      simp only [SignupDesk.advance, hreturned] at h
      exact .inl h
    | some last =>
      simp only [SignupDesk.advance, hreturned] at h
      by_cases hother : other = id
      · subst hother
        rw [update_self] at h
        cases h
        unfold SignupDesk.returned at hreturned
        split at hreturned
        · cases hreturned
        · obtain ⟨ended, hended, hresult⟩ := map_eq_some_iff.mp hreturned
          exact .inr ⟨ended, mem_of_mem_head? hended, hresult⟩
      · rw [update_of_ne hother] at h
        exact .inl h

theorem granting_advance (h : Granting s) {action : SettlementAction}
    (hstep : settlementStep s.payment action = some payment) (call : Option Nat) :
    Granting (s.advance payment call) := by
  have hmoved := moved_of_step hstep
  have honward := onward_of_moved hmoved
  have hevidenced := evidenced_of_moved h.evidenced hmoved
  apply h.withPayment (booked_step h.booked hstep) hevidenced honward
  intro other settled houtcome
  rcases outcomes_advance houtcome with hold | ⟨ended, hended, hresult⟩
  · exact honward.posted (h.outcomes other settled hold)
  · exact hevidenced.returned ended hended settled hresult

theorem paid_subscribed (hrow : Subscribed s t row) :
    Paid t ↔ Paid s ∨ providerKey row = s.paidKey := by
  unfold Paid SignupDesk.paidKey
  rw [hrow.payment, hrow.subscriptions, map_append, references_cancelCurrent, mem_append,
    map_singleton, mem_singleton, eq_comm (b := providerKey row)]

theorem granting_subscribed (h : Granting s) (hrow : Subscribed s t row)
    (hposted : providerKey row = s.paidKey → s.payment.posted) :
    Granting t where
  booked := hrow.payment ▸ h.booked
  evidenced := hrow.payment ▸ h.evidenced
  keyed := keyed_subscribed h.keyed hrow
  outcomes := by
    rw [hrow.payment, hrow.outcomes]
    exact h.outcomes
  requests := by
    rw [hrow.payment, hrow.requests]
    exact h.requests
  subscriptions hpaid := by
    rw [hrow.payment]
    rcases (paid_subscribed hrow).mp hpaid with hbefore | hsame
    · exact h.subscriptions hbefore
    · exact hposted hsame

/-- No activation under the payment's reference goes through. -/
def OnlyPrepaid (s : SignupDesk) : SignupAction → Prop
  | .activate request ids outcome => ∀ input plan,
      s.requests request = .activating input plan (some s.payment.reference) →
        outcome = .committed ∨ outcome = .unanswered →
          ¬ Admits s input plan (some s.payment.reference) ids
  | _ => True

/-- What a step writes. -/
inductive Stepped (s : SignupDesk) : SignupAction → SignupDesk → Prop where
  | start (tenantId amountKobo purpose) :
      Stepped s (.start tenantId amountKobo purpose) (s.start tenantId amountKobo purpose)
  | upsertPlan (plan : BillingPlan) : Stepped s (.upsertPlan plan) (s.upsertPlan plan)
  | advanced {action : SignupAction} {step payment} (call)
      (hstep : settlementStep s.payment step = some payment) (honly : OnlyPrepaid s action) :
      Stepped s action (s.advance payment call)
  | awaited {action : SignupAction} {step payment} (call) (request) {phase : SignupPhase}
      (hstep : settlementStep s.payment step = some payment)
      (hphase : Granting s → phase.sound payment) (honly : OnlyPrepaid s action) :
      Stepped s action ((s.advance payment call).setRequest request phase)
  | moved {action : SignupAction} (request) {phase : SignupPhase}
      (hphase : Granting s → phase.sound s.payment) (honly : OnlyPrepaid s action) :
      Stepped s action (s.setRequest request phase)
  | recorded (request id stored) (input : SignupInput) (paymentReference) {phase : SignupPhase}
      (hphase : phase.sound s.payment) :
      Stepped s (.recordFailure request id stored)
        ((s.recordFailure input paymentReference id).setRequest request phase)
  | contract {tenantId planCode authorityReference periodStart} {ids : ActivationIds}
      {t : SignupDesk} {row : TenantSubscription} (hprovider : row.provider = .manualContract)
      (hrow : Subscribed s t row) :
      Stepped s (.activateManualContract tenantId planCode authorityReference periodStart ids) t
  | activated (request outcome) {input : SignupInput} {plan : BillingPlan}
      {billingRef : Option String} {ids : ActivationIds} {phase : SignupPhase}
      (hrequest : s.requests request = .activating input plan billingRef)
      (houtcome : outcome = .committed ∨ outcome = .unanswered)
      (hadmits : Admits s input plan billingRef ids) (hphase : phase.sound s.payment) :
      Stepped s (.activate request ids outcome)
        ((s.activated input plan billingRef ids).setRequest request phase)

theorem onlyPrepaid_of_not {request : Nat} {outcome : CommitOutcome}
    (hrequest : s.requests request = .activating input plan billingRef)
    (h : outcome = .committed ∨ outcome = .unanswered → ¬ Admits s input plan billingRef ids) :
    OnlyPrepaid s (.activate request ids outcome) := by
  intro input' plan' hactivating houtcome
  rw [hrequest] at hactivating
  obtain ⟨rfl, rfl, rfl⟩ := SignupPhase.activating.inj hactivating
  exact h houtcome

theorem sound_signup (payment : Payment) (s : SignupDesk) (input : SignupInput) :
    (s.signup input).sound payment := by
  unfold SignupDesk.signup
  split
  · trivial
  · split <;> trivial

theorem sound_readPlan (payment : Payment) (s : SignupDesk) (input : SignupInput) :
    (s.readPlan input).sound payment := by
  unfold SignupDesk.readPlan
  split
  next => trivial
  next plan _ =>
    split
    next hprice =>
      split
      · trivial
      · exact hprice
    next hprice => exact Nat.eq_zero_of_not_pos hprice

theorem stepped_of_step (hstep : signupStep s action = some t) : Stepped s action t := by
  cases action with
  | start tenantId amountKobo purpose =>
    cases hstep
    exact .start tenantId amountKobo purpose
  | settlement action =>
    have hadvanced : ∃ payment, settlementStep s.payment action = some payment ∧
        s.advance payment action.call? = t := by
      cases action with
      | start tenantId amountKobo => cases hstep
      | _ => exact map_eq_some_iff.mp hstep
    obtain ⟨payment, hpayment, rfl⟩ := hadvanced
    exact .advanced _ hpayment trivial
  | upsertPlan plan =>
    cases hstep
    exact .upsertPlan plan
  | activateManualContract tenantId planCode authorityReference periodStart ids =>
    obtain ⟨row, hprovider, hrow⟩ := subscribed_of_activateManualContract hstep
    exact .contract hprovider hrow
  | signup request input =>
    simp only [signupStep] at hstep
    split at hstep
    · cases hstep
      exact .moved request (fun _ => sound_signup _ s input) trivial
    · cases hstep
  | replay request =>
    simp only [signupStep] at hstep
    split at hstep
    · cases hstep
      exact .moved request (fun _ => trivial) trivial
    · cases hstep
  | readPlan request =>
    simp only [signupStep] at hstep
    split at hstep
    next input _ =>
      cases hstep
      exact .moved request (fun _ => sound_readPlan _ s input) trivial
    next => cases hstep
  | bindIntent request elsewhere =>
    simp only [signupStep] at hstep
    split at hstep
    next input plan paymentReference hrequest =>
      split at hstep
      · cases hstep
        exact .moved request (fun _ => trivial) trivial
      · cases hstep
        refine .moved request (fun h => ?_) trivial
        have hsound := h.requests request
        rw [hrequest] at hsound
        exact hsound
    next => cases hstep
  | settle request call =>
    simp only [signupStep] at hstep
    split at hstep
    next input plan paymentReference hrequest =>
      split at hstep
      · obtain ⟨payment, hpayment, rfl⟩ := map_eq_some_iff.mp hstep
        refine .awaited _ request hpayment (fun h => ?_) trivial
        have hsound := h.requests request
        rw [hrequest] at hsound
        exact hsound
      · cases hstep
    next => cases hstep
  | settleElsewhere request result =>
    simp only [signupStep] at hstep
    split at hstep
    next input plan paymentReference hrequest =>
      split at hstep
      next => cases hstep
      next helsewhere =>
        cases hstep
        refine .moved request (fun h => ?_) trivial
        have hsound := h.requests request
        rw [hrequest] at hsound
        exact sound_settled hsound fun _ _ href => absurd href helsewhere
    next => cases hstep
  | resume request =>
    simp only [signupStep] at hstep
    split at hstep
    next input plan paymentReference call hrequest =>
      obtain ⟨result, hresult, rfl⟩ := map_eq_some_iff.mp hstep
      refine .moved request (fun h => ?_) trivial
      have hsound := h.requests request
      rw [hrequest] at hsound
      apply sound_settled hsound
      intro settled hok _
      exact h.outcomes call settled (hok ▸ hresult)
    next => cases hstep
  | recordFailure request id stored =>
    simp only [signupStep] at hstep
    split at hstep
    next input paymentReference error _ =>
      cases hstep
      cases stored with
      | true => exact .recorded request id true input paymentReference trivial
      | false => exact .moved request (fun _ => trivial) trivial
    next => cases hstep
  | activate request ids outcome =>
    simp only [signupStep] at hstep
    split at hstep
    next input plan billingRef hrequest =>
      cases hactivate : s.activate input plan billingRef ids with
      | none =>
        have hnot : ¬ Admits s input plan billingRef ids := by
          intro hadmits
          rw [activate_eq_some.mpr ⟨hadmits, rfl⟩] at hactivate
          cases hactivate
        have honly : OnlyPrepaid s (.activate request ids outcome) :=
          onlyPrepaid_of_not hrequest fun _ => hnot
        cases outcome <;> rw [hactivate] at hstep <;> obtain rfl := some.inj hstep <;>
          exact .moved request (fun _ => trivial) honly
      | some activated =>
        obtain ⟨hadmits, rfl⟩ := activate_eq_some.mp hactivate
        rw [hactivate] at hstep
        cases outcome with
        | committed =>
          cases hstep
          exact .activated request _ hrequest (.inl rfl) hadmits trivial
        | unanswered =>
          cases hstep
          exact .activated request _ hrequest (.inr rfl) hadmits trivial
        | raced | failed =>
          cases hstep
          exact .moved request (fun _ => trivial) (onlyPrepaid_of_not hrequest (by simp))
    next => cases hstep
  | reread request =>
    simp only [signupStep] at hstep
    split at hstep
    · split at hstep
      · cases hstep
        exact .moved request (fun _ => trivial) trivial
      · cases hstep
        exact .moved request (fun _ => trivial) trivial
    · cases hstep
  | crash request =>
    simp only [signupStep] at hstep
    split at hstep
    next call _ =>
      cases hstep
      have hcrash : settlementStep s.payment (.crash call) =
        some (s.payment.setPhase call .over) := rfl
      exact .awaited none request hcrash (fun _ => trivial) trivial
    next => cases hstep
    next =>
      cases hstep
      exact .moved request (fun _ => trivial) trivial

/-- A paid plan names its payment: the synthetic reference of a free one is not
taken for the payment's. -/
theorem paidKey_newSubscription {request : Nat} (h : Granting s)
    (hrequest : s.requests request = .activating input plan billingRef) :
    providerKey (SignupDesk.newSubscription input plan billingRef ids) = s.paidKey ↔
      billingRef = some s.payment.reference := by
  have hsound := h.requests request
  rw [hrequest] at hsound
  cases billingRef with
  | none =>
    have hprice : plan.priceKobo = 0 := hsound
    simp [providerKey, SignupDesk.newSubscription, SignupDesk.paidKey, BillingPlan.provider, hprice]
  | some billingRef =>
    have hprice : 0 < plan.priceKobo := hsound.1
    simp [providerKey, SignupDesk.newSubscription, SignupDesk.paidKey, BillingPlan.provider, hprice,
      SignupInput.providerRef]

theorem granting_stepped (h : Granting s) (hstep : Stepped s action t) : Granting t := by
  cases hstep with
  | start tenantId amountKobo purpose =>
    have hmoved : Moved s.payment (s.payment.start tenantId amountKobo) := .start _ _
    have honward := onward_of_moved hmoved
    have hpayment := h.withPayment (booked_start h.booked tenantId amountKobo)
      (evidenced_of_moved h.evidenced hmoved) honward
      fun call settled hok => honward.posted (h.outcomes call settled hok)
    exact ⟨hpayment.booked, hpayment.evidenced, ⟨h.keyed.ids, h.keyed.references,
      h.keyed.entitlements, h.keyed.known⟩, hpayment.outcomes, hpayment.requests,
      hpayment.subscriptions⟩
  | upsertPlan plan =>
    exact ⟨h.booked, h.evidenced, ⟨h.keyed.ids, h.keyed.references, h.keyed.entitlements,
      h.keyed.known⟩, h.outcomes, h.requests, h.subscriptions⟩
  | advanced call hpayment honly => exact granting_advance h hpayment call
  | awaited call request hpayment hphase honly =>
    exact (granting_advance h hpayment call).setRequest request (hphase h)
  | moved request hphase honly => exact h.setRequest request (hphase h)
  | recorded request id stored input paymentReference hphase =>
    apply Granting.setRequest
    · unfold SignupDesk.recordFailure
      split
      · exact h
      · exact ⟨h.booked, h.evidenced, ⟨h.keyed.ids, h.keyed.references, h.keyed.entitlements,
          h.keyed.known⟩, h.outcomes, h.requests, h.subscriptions⟩
    · unfold SignupDesk.recordFailure
      split <;> exact hphase
  | contract hprovider hrow =>
    apply granting_subscribed h hrow
    intro hsame
    have hpaystack := congrArg Prod.fst hsame
    exact SubscriptionProvider.noConfusion (hprovider.symm.trans hpaystack)
  | activated request outcome hrequest houtcome hadmits hphase =>
    have hactivated := granting_subscribed h (subscribed_activated hadmits) (by
      intro hsame
      obtain rfl := (paidKey_newSubscription h hrequest).mp hsame
      have hsound := h.requests request
      rw [hrequest] at hsound
      exact hsound.2 rfl)
    exact hactivated.setRequest request hphase

/-- A step activates a subscription under the reference exactly where an
activation goes through. -/
theorem unpaid_stepped_iff (h : Granting s) (hunpaid : ¬ Paid s) (hstep : Stepped s action t) :
    ¬ Paid t ↔ OnlyPrepaid s action := by
  cases hstep with
  | start tenantId amountKobo purpose =>
    have honward := onward_of_moved (Moved.start (s := s.payment) tenantId amountKobo)
    have hsame := paid_congr (t := s.start tenantId amountKobo purpose) (s := s) rfl
      honward.reference
    exact iff_of_true (fun hpaid => hunpaid (hsame.mp hpaid)) trivial
  | upsertPlan plan => exact iff_of_true hunpaid trivial
  | advanced call hpayment honly | awaited call request hpayment hphase honly =>
    have honward := onward_of_moved (moved_of_step hpayment)
    have hsame := paid_congr (t := s.advance _ call) (s := s) rfl honward.reference
    exact iff_of_true (fun hpaid => hunpaid (hsame.mp hpaid)) honly
  | moved request hphase honly => exact iff_of_true hunpaid honly
  | recorded request id stored input paymentReference hphase =>
    refine iff_of_true ?_ trivial
    unfold SignupDesk.recordFailure
    split <;> exact hunpaid
  | contract hprovider hrow =>
    refine iff_of_true ?_ trivial
    rw [paid_subscribed hrow]
    rintro (hpaid | hsame)
    · exact hunpaid hpaid
    · have hpaystack := congrArg Prod.fst hsame
      exact SubscriptionProvider.noConfusion (hprovider.symm.trans hpaystack)
  | activated request outcome hrequest houtcome hadmits hphase =>
    have hpaid := paid_subscribed (subscribed_activated hadmits)
    rw [paidKey_newSubscription h hrequest, or_iff_right hunpaid] at hpaid
    change ¬ Paid (s.activated _ _ _ _) ↔ _
    rw [hpaid]
    constructor
    · intro hother input' plan' hactivating _
      rw [hrequest] at hactivating
      obtain ⟨_, _, rfl⟩ := SignupPhase.activating.inj hactivating
      exact absurd rfl hother
    · rintro honly rfl
      exact honly _ _ hrequest houtcome hadmits

theorem granting_initial (sha256 : List UInt8 → List UInt8) (reference : String)
    (plans : List BillingPlan) : Granting (.initial sha256 reference plans) where
  booked := booked_initial sha256 reference
  evidenced := evidenced_initial sha256 reference
  keyed := ⟨nodup_nil, nodup_nil, nodup_nil, fun entitlement h => by cases h⟩
  outcomes call settled hok := by cases hok
  requests request := trivial
  subscriptions hpaid := by cases hpaid

/-! ### One subscription, and the balance besides -/

/-- The payment activates at most one subscription with its entitlement. -/
structure SubscribedOnce (s : SignupDesk) : Prop where
  subscription : (s.subscriptions.map providerKey).count s.paidKey ≤ 1
  entitlement : ∀ sub ∈ s.subscriptions, providerKey sub = s.paidKey →
    (s.entitlements.map BillingEntitlement.subscriptionId).count sub.id ≤ 1

/-- The value of a settled payment is granted, as a subscription or as prepaid
balance and not as both. -/
structure GrantedOnce (s : SignupDesk) : Prop extends SubscribedOnce s where
  granted : ∀ call settled, s.outcomes call = some (.ok settled) →
    Paid s ∨ 0 < s.payment.creditedKobo
  prepaid : Paid s → s.payment.creditedKobo = 0

theorem subscribedOnce_of_granting (h : Granting s) : SubscribedOnce s where
  subscription := nodup_iff_count_le_one.mp h.keyed.references _
  entitlement _ _ _ := nodup_iff_count_le_one.mp h.keyed.entitlements _

/-- A subscription under the reference comes with the credit of its price. -/
theorem grantedOnce_iff_unpaid (h : Granting s) : GrantedOnce s ↔ ¬ Paid s := by
  constructor
  · intro hgranted hpaid
    obtain ⟨row, _, hcredited, hpositive⟩ := h.booked.credit (h.subscriptions hpaid)
    have hzero := hgranted.prepaid hpaid
    omega
  · intro hunpaid
    refine ⟨subscribedOnce_of_granting h, ?_, fun hpaid => absurd hpaid hunpaid⟩
    intro call settled hok
    obtain ⟨row, _, hcredited, hpositive⟩ := h.booked.credit (h.outcomes call settled hok)
    right
    omega

end Desk

/-- The payment activates at most one subscription along every run, and its value
is granted once exactly where no activation under its reference goes through:
an activated subscription has raised the prepaid balance as well. -/
theorem granted_once_iff (sha256 : List UInt8 → List UInt8) (reference : String)
    (plans : List BillingPlan) (labels : List SignupAction) :
    Always signupStep SubscribedOnce (.initial sha256 reference plans) labels ∧
      (Always signupStep GrantedOnce (.initial sha256 reference plans) labels ↔
        Meets signupStep OnlyPrepaid (.initial sha256 reference plans) labels) := by
  have hgranting : ∀ s a t, Granting s → signupStep s a = some t → Granting t :=
    fun s a t hs hstep => granting_stepped hs (stepped_of_step hstep)
  have hinitial := granting_initial sha256 reference plans
  constructor
  · exact (always_of_step labels hgranting hinitial).mono fun s hs => subscribedOnce_of_granting hs
  · apply always_iff_meets labels hgranting
    · intro s a t hs honce hstep
      rw [grantedOnce_iff_unpaid hs] at honce
      rw [grantedOnce_iff_unpaid (hgranting s a t hs hstep)]
      exact unpaid_stepped_iff hs honce (stepped_of_step hstep)
    · exact hinitial
    · rw [grantedOnce_iff_unpaid hinitial]
      intro hpaid
      cases hpaid

/-- A signup for a paid plan that nothing goes wrong with. -/
theorem subscription_raises_balance :
    ¬ ∀ (sha256 : List UInt8 → List UInt8) (reference : String) (plans : List BillingPlan)
        (labels : List SignupAction),
      Always signupStep GrantedOnce (.initial sha256 reference plans) labels := by
  intro h
  let reference := "BIS-TOP-ABCDEF0123456789WXYZ0123"
  let labels : List SignupAction :=
    [.start 1 2500000 (some .subscriptionInvoice), .settlement (.initialized true),
      .signup 0 ⟨1, "pro_monthly", "signup-key-0001", some reference⟩, .readPlan 0,
      .bindIntent 0 none, .settle 0 0,
      .settlement (.verify 0
        (.transaction ⟨"success", 2500000, some "NGN", some "card", reference⟩)),
      .settlement (.ensureAccounts 0 .accepted), .settlement (.post 0 .accepted true),
      .settlement (.complete 0), .settlement (.record 0), .resume 0,
      .activate 0 ⟨1, 1, 1⟩ .committed]
  have hrun : (run signupStep (.initial (fun _ => []) reference [⟨"pro_monthly", 2500000, 40, true⟩])
      labels).map (fun s => (s.subscriptions.map providerKey, s.payment.reference,
        s.payment.creditedKobo)) = some ([(.paystack, reference)], reference, 2500000) := by
    decide
  obtain ⟨s, hs, hobserved⟩ := map_eq_some_iff.mp hrun
  simp only [Prod.mk.injEq] at hobserved
  obtain ⟨hsubscriptions, hreference, hcredited⟩ := hobserved
  have hzero := ((h _ _ _ labels).finish hs).prepaid (by
    unfold Paid SignupDesk.paidKey
    rw [hsubscriptions, hreference]
    exact mem_singleton.mpr rfl)
  omega

/-- Subscriptions and settlements follow the posting. -/
theorem posting_first (sha256 : List UInt8 → List UInt8) (reference : String)
    (plans : List BillingPlan) (labels : List SignupAction) :
    Always signupStep Granting (.initial sha256 reference plans) labels :=
  always_of_step labels (fun _ _ _ h ht => granting_stepped h (stepped_of_step ht))
    (granting_initial ..)

end Bis.Settlement
