import Bis.Settlement.Webhook

/-!
Self-service signup for a plan. `signup` looks its idempotency key up, reads the
plan, binds the payment intent to the tenant and the purpose, waits for
`settlePaystackPayment`, and activates the plan in one transaction: the current
subscription is cancelled, the new one inserted, with its entitlement and the
record of the signup. Each of these is a step of its own, and a request may die
between any two of them.

A desk interleaves any number of requests with the settlement of one provider
reference, so the calls that webhooks and top-up verifications make for that
reference are among the calls of its `payment`. What the database and the
provider hold for other references is an input. Left out: the billing periods,
what has been used of an entitlement, the audit log and the published event.
-/

namespace Bis.Settlement

open Bis.Relation Bis.Transition

inductive Purpose where
  | prepaidCredit | subscriptionInvoice
  deriving DecidableEq

/-- A row of `billing_plans`. -/
structure BillingPlan where
  planCode : String
  (priceKobo includedChecks : Nat)
  active : Bool

inductive SignupStatus where
  | active | paymentFailed | cancelled

/-- A row of `plan_signups`. -/
structure PlanSignup where
  id : Nat
  tenantId : Int
  planCode : String
  status : SignupStatus
  billingRef : Option String
  idempotencyKey : String

inductive SubscriptionProvider where
  | paystack | manualContract
  deriving DecidableEq

inductive SubscriptionStatus where
  | pending | active | pastDue | cancelling | cancelled | suspended

/-- The statuses a tenant may have one subscription in. -/
def SubscriptionStatus.current : SubscriptionStatus → Bool
  | .pending | .active | .pastDue | .cancelling => true
  | .cancelled | .suspended => false

/-- A row of `tenant_subscriptions`. -/
structure TenantSubscription where
  id : Nat
  tenantId : Int
  planCode : String
  provider : SubscriptionProvider
  providerSubscriptionRef : String
  status : SubscriptionStatus

/-- A row of `billing_entitlements`. -/
structure BillingEntitlement where
  id : Nat
  tenantId : Int
  (subscriptionId totalUnits : Nat)
  sourceReference : String

/-- The input of `signup`, with the tenant of its context. -/
structure SignupInput where
  tenantId : Int
  (planCode idempotencyKey : String)
  paymentReference : Option String

inductive SignupError where
  | invalidInput | tenantRequired | planNotFound | referenceRequired | intentNotFound
  | intentForeign | amountMismatch
  | settlement (error : SettlementError)
  | activationFailed

/-- `PLAN_CODE`. -/
def isPlanCode (text : String) : Bool :=
  match text.toList with
  | [] => false
  | first :: rest =>
    first.isLower && decide (2 ≤ rest.length) && decide (rest.length ≤ 63) &&
      rest.all fun c => c.isLower || c.isDigit || c == '_'

/-- `PAYMENT_REFERENCE`. -/
def isPaymentReference (text : String) : Bool :=
  "BIS-TOP-".toList.isPrefixOf text.toList && text.toList.length == 32 &&
    (text.toList.drop 8).all fun c => c.isUpper || c.isDigit

/-- The input schema and `requireTenant`. -/
def SignupInput.check (input : SignupInput) : Except SignupError Unit :=
  if ¬ isPlanCode input.planCode ∨ utf16Length input.idempotencyKey < 8 ∨
      128 < utf16Length input.idempotencyKey ∨
      ¬ input.paymentReference.all isPaymentReference then .error .invalidInput
  else if input.tenantId ≤ 0 then .error .tenantRequired
  else .ok ()

/-- What the binding of a payment reads of the intent. -/
structure IntentBinding where
  tenantId : Int
  purpose : Purpose
  amountKobo : Nat

def checkBinding (input : SignupInput) (plan : BillingPlan) :
    Option IntentBinding → Except SignupError Unit
  | none => .error .intentNotFound
  | some intent =>
    if intent.tenantId ≠ input.tenantId ∨ intent.purpose ≠ .subscriptionInvoice then
      .error .intentForeign
    else if intent.amountKobo ≠ plan.priceKobo then .error .amountMismatch
    else .ok ()

inductive SignupResult where
  | returned (signup : PlanSignup) (subscriptionId : Option Nat) (idempotent : Bool)
  | failed (error : SignupError)
  | died

inductive SignupPhase where
  | ready
  | replaying (prior : PlanSignup)
  | planning (input : SignupInput)
  | binding (input : SignupInput) (plan : BillingPlan) (paymentReference : String)
  | settling (input : SignupInput) (plan : BillingPlan) (paymentReference : String)
  /-- The request waits for a call of `settlePaystackPayment`. -/
  | awaiting (input : SignupInput) (plan : BillingPlan) (paymentReference : String) (call : Nat)
  | failing (input : SignupInput) (paymentReference : String) (error : SettlementError)
  | activating (input : SignupInput) (plan : BillingPlan) (billingRef : Option String)
  | rereading (input : SignupInput)
  | over (result : SignupResult)

/-- The identifiers an activation draws. -/
structure ActivationIds where
  (signup subscription entitlement : Nat)

/-- How a transaction ends whose statements meet the constraints. The answer to a
commit may be lost; `raced` is a unique constraint that another open transaction
gets in the way of. -/
inductive CommitOutcome where
  | committed | unanswered | raced | failed

structure SignupDesk where
  payment : Payment
  /-- The purpose of the payment's intent. -/
  purpose : Purpose
  plans : List BillingPlan
  signups : List PlanSignup
  subscriptions : List TenantSubscription
  entitlements : List BillingEntitlement
  requests : Nat → SignupPhase
  /-- What the calls of `settlePaystackPayment` have returned. -/
  outcomes : Nat → Option (Except SettlementError Settled)

def signupKey (row : PlanSignup) : Int × String := (row.tenantId, row.idempotencyKey)

def providerKey (row : TenantSubscription) : SubscriptionProvider × String :=
  (row.provider, row.providerSubscriptionRef)

/-- `providerRef`. -/
def SignupInput.providerRef (input : SignupInput) (billingRef : Option String) : String :=
  billingRef.getD ("self-serve-free:" ++ toString input.tenantId ++ ":" ++ input.idempotencyKey)

def SignupInput.sourceReference (input : SignupInput) : String :=
  "self-serve-signup:" ++ toString input.tenantId ++ ":" ++ input.idempotencyKey

def BillingPlan.provider (plan : BillingPlan) : SubscriptionProvider :=
  if 0 < plan.priceKobo then .paystack else .manualContract

namespace SignupDesk

def initial (sha256 : List UInt8 → List UInt8) (reference : String) (plans : List BillingPlan) :
    SignupDesk :=
  { payment := .initial sha256 reference
    purpose := .prepaidCredit
    plans
    signups := []
    subscriptions := []
    entitlements := []
    requests := fun _ => .ready
    outcomes := fun _ => none }

def setRequest (s : SignupDesk) (request : Nat) (phase : SignupPhase) : SignupDesk :=
  { s with requests := Function.update s.requests request phase }

/-- The result of the call that has ended since. -/
def returned (before after : Payment) : Option (Except SettlementError Settled) :=
  if after.ended.length = before.ended.length then none else after.ended.head?.map Ended.result

/-- The payment moves on; a call that returns leaves its result. -/
def advance (s : SignupDesk) (payment : Payment) (call : Option Nat) : SignupDesk :=
  { s with
    payment
    outcomes :=
      match call, returned s.payment payment with
      | some id, some result => Function.update s.outcomes id (some result)
      | _, _ => s.outcomes }

/-- `startPaystackTopup`, which takes the purpose of the intent. -/
def start (s : SignupDesk) (tenantId : Int) (amountKobo : Nat) (purpose : Option Purpose) :
    SignupDesk :=
  { s with
    payment := s.payment.start tenantId amountKobo
    purpose := if s.payment.intent = none then purpose.getD .prepaidCredit else s.purpose }

/-- `upsertPlan`. -/
def upsertPlan (s : SignupDesk) (plan : BillingPlan) : SignupDesk :=
  { s with
    plans := { plan with active := true } ::
      s.plans.filter fun other => other.planCode != plan.planCode }

/-- The active plan with a code; any other number of rows than one is an error. -/
def activePlan (s : SignupDesk) (planCode : String) : Option BillingPlan :=
  match s.plans.filter fun plan => plan.planCode == planCode && plan.active with
  | [plan] => some plan
  | _ => none

def priorSignup (s : SignupDesk) (input : SignupInput) : Option PlanSignup :=
  match s.signups.filter fun row =>
    row.tenantId == input.tenantId && row.idempotencyKey == input.idempotencyKey with
  | [row] => some row
  | _ => none

/-- The subscription a replay of an active signup returns. -/
def replayedSubscription (s : SignupDesk) (prior : PlanSignup) : Option Nat :=
  match prior.status, prior.billingRef with
  | .active, some billingRef =>
    (s.subscriptions.find? fun sub =>
      sub.tenantId == prior.tenantId && sub.providerSubscriptionRef == billingRef).map
      TenantSubscription.id
  | _, _ => none

def intentFor (s : SignupDesk) (reference : String) (elsewhere : Option IntentBinding) :
    Option IntentBinding :=
  if reference = s.payment.reference then
    s.payment.intent.map fun intent => ⟨intent.tenantId, s.purpose, intent.amountKobo⟩
  else elsewhere

/-- The entry of `signup`, with the lookup of the idempotency key. -/
def signup (s : SignupDesk) (input : SignupInput) : SignupPhase :=
  match input.check with
  | .error error => .over (.failed error)
  | .ok () =>
    match s.priorSignup input with
    | some prior => .replaying prior
    | none => .planning input

def readPlan (s : SignupDesk) (input : SignupInput) : SignupPhase :=
  match s.activePlan input.planCode with
  | none => .over (.failed .planNotFound)
  | some plan =>
    if 0 < plan.priceKobo then
      match input.paymentReference with
      | none => .over (.failed .referenceRequired)
      | some paymentReference => .binding input plan paymentReference
    else .activating input plan none

/-- The insert of a failed attempt, which keeps a row that is there. -/
def recordFailure (s : SignupDesk) (input : SignupInput) (paymentReference : String) (id : Nat) :
    SignupDesk :=
  if s.signups.any fun row => row.id == id ||
      row.tenantId == input.tenantId && row.idempotencyKey == input.idempotencyKey then s
  else
    { s with
      signups := s.signups ++
        [{ id
           tenantId := input.tenantId
           planCode := input.planCode
           status := .paymentFailed
           billingRef := some paymentReference
           idempotencyKey := input.idempotencyKey }] }

def cancelCurrent (s : SignupDesk) (tenantId : Int) : SignupDesk :=
  { s with
    subscriptions := updateWhere (fun sub => sub.tenantId == tenantId && sub.status.current)
      (fun sub => { sub with status := .cancelled }) s.subscriptions }

/-- An insert; `none` is a violated unique constraint. -/
def insertSubscription (s : SignupDesk) (row : TenantSubscription) : Option SignupDesk :=
  if s.subscriptions.any fun other =>
      other.id == row.id || providerKey other == providerKey row ||
        (other.tenantId == row.tenantId && other.status.current && row.status.current) then none
  else some { s with subscriptions := s.subscriptions ++ [row] }

def insertEntitlement (s : SignupDesk) (row : BillingEntitlement) : Option SignupDesk :=
  if s.entitlements.any fun other =>
      other.id == row.id || other.sourceReference == row.sourceReference then none
  else some { s with entitlements := s.entitlements ++ [row] }

/-- A plan without included checks comes without an entitlement. -/
def grantChecks (s : SignupDesk) (row : BillingEntitlement) : Option SignupDesk :=
  if 0 < row.totalUnits then s.insertEntitlement row else some s

def insertSignup (s : SignupDesk) (row : PlanSignup) : Option SignupDesk :=
  if s.signups.any fun other => other.id == row.id || signupKey other == signupKey row then none
  else some { s with signups := s.signups ++ [row] }

def newSubscription (input : SignupInput) (plan : BillingPlan) (billingRef : Option String)
    (ids : ActivationIds) : TenantSubscription :=
  { id := ids.subscription
    tenantId := input.tenantId
    planCode := plan.planCode
    provider := plan.provider
    providerSubscriptionRef := input.providerRef billingRef
    status := .active }

def newEntitlement (input : SignupInput) (plan : BillingPlan) (ids : ActivationIds) :
    BillingEntitlement :=
  { id := ids.entitlement
    tenantId := input.tenantId
    subscriptionId := ids.subscription
    totalUnits := plan.includedChecks
    sourceReference := input.sourceReference }

def newSignup (input : SignupInput) (billingRef : Option String) (ids : ActivationIds) :
    PlanSignup :=
  { id := ids.signup
    tenantId := input.tenantId
    planCode := input.planCode
    status := .active
    billingRef := some (input.providerRef billingRef)
    idempotencyKey := input.idempotencyKey }

/-- The activation transaction; `none` is a violated unique constraint. -/
def activate (s : SignupDesk) (input : SignupInput) (plan : BillingPlan)
    (billingRef : Option String) (ids : ActivationIds) : Option SignupDesk := do
  let subscribed ← (s.cancelCurrent input.tenantId).insertSubscription
    (newSubscription input plan billingRef ids)
  let entitled ← subscribed.grantChecks (newEntitlement input plan ids)
  entitled.insertSignup (newSignup input billingRef ids)

/-- `activateManualContract`, the other writer of subscriptions. -/
def activateManualContract (s : SignupDesk) (tenantId : Int)
    (planCode authorityReference periodStart : String) (ids : ActivationIds) :
    Option SignupDesk := do
  let plan ← s.activePlan planCode
  let subscribed ← (s.cancelCurrent tenantId).insertSubscription
    { id := ids.subscription
      tenantId
      planCode
      provider := .manualContract
      providerSubscriptionRef := authorityReference
      status := .active }
  subscribed.grantChecks
    { id := ids.entitlement
      tenantId
      subscriptionId := ids.subscription
      totalUnits := plan.includedChecks
      sourceReference := "manual-contract:" ++ authorityReference ++ ":" ++ periodStart }

end SignupDesk

inductive SignupAction where
  | start (tenantId : Int) (amountKobo : Nat) (purpose : Option Purpose)
  /-- A step of a call for the reference, also of one that a webhook makes. -/
  | settlement (action : SettlementAction)
  | upsertPlan (plan : BillingPlan)
  | activateManualContract (tenantId : Int) (planCode authorityReference periodStart : String)
      (ids : ActivationIds)
  | signup (request : Nat) (input : SignupInput)
  | replay (request : Nat)
  | readPlan (request : Nat)
  | bindIntent (request : Nat) (elsewhere : Option IntentBinding)
  | settle (request call : Nat)
  | settleElsewhere (request : Nat) (result : Except SettlementError Settled)
  | resume (request : Nat)
  | recordFailure (request id : Nat) (stored : Bool)
  | activate (request : Nat) (ids : ActivationIds) (outcome : CommitOutcome)
  | reread (request : Nat)
  | crash (request : Nat)

def SettlementAction.call? : SettlementAction → Option Nat
  | .check call | .verify call _ | .ensureAccounts call _ | .post call _ _ | .complete call
  | .record call | .crash call => some call
  | .start _ _ | .initialized _ | .otherTransfer _ | .tick _ => none

/-- What a request does with the result of the settlement. -/
def SignupPhase.settled (input : SignupInput) (plan : BillingPlan) (paymentReference : String) :
    Except SettlementError Settled → SignupPhase
  | .ok _ => .activating input plan (some paymentReference)
  | .error error => .failing input paymentReference error

def signupStep : Step SignupDesk SignupAction
  | s, .start tenantId amountKobo purpose => some (s.start tenantId amountKobo purpose)
  | _, .settlement (.start _ _) => none
  | s, .settlement action =>
    (settlementStep s.payment action).map fun payment => s.advance payment action.call?
  | s, .upsertPlan plan => some (s.upsertPlan plan)
  | s, .activateManualContract tenantId planCode authorityReference periodStart ids =>
    s.activateManualContract tenantId planCode authorityReference periodStart ids
  | s, .signup request input =>
    match s.requests request with
    | .ready => some (s.setRequest request (s.signup input))
    | _ => none
  | s, .replay request =>
    match s.requests request with
    | .replaying prior =>
      some (s.setRequest request (.over (.returned prior (s.replayedSubscription prior) true)))
    | _ => none
  | s, .readPlan request =>
    match s.requests request with
    | .planning input => some (s.setRequest request (s.readPlan input))
    | _ => none
  | s, .bindIntent request elsewhere =>
    match s.requests request with
    | .binding input plan paymentReference =>
      match checkBinding input plan (s.intentFor paymentReference elsewhere) with
      | .error error => some (s.setRequest request (.over (.failed error)))
      | .ok () => some (s.setRequest request (.settling input plan paymentReference))
    | _ => none
  | s, .settle request call =>
    match s.requests request with
    | .settling input plan paymentReference =>
      if paymentReference = s.payment.reference then
        (settlementStep s.payment (.check call)).map fun payment =>
          (s.advance payment (some call)).setRequest request
            (.awaiting input plan paymentReference call)
      else none
    | _ => none
  | s, .settleElsewhere request result =>
    match s.requests request with
    | .settling input plan paymentReference =>
      if paymentReference = s.payment.reference then none
      else some (s.setRequest request (.settled input plan paymentReference result))
    | _ => none
  | s, .resume request =>
    match s.requests request with
    | .awaiting input plan paymentReference call =>
      (s.outcomes call).map fun result =>
        s.setRequest request (.settled input plan paymentReference result)
    | _ => none
  | s, .recordFailure request id stored =>
    match s.requests request with
    | .failing input paymentReference error =>
      let recorded := if stored then s.recordFailure input paymentReference id else s
      some (recorded.setRequest request (.over (.failed (.settlement error))))
    | _ => none
  | s, .activate request ids outcome =>
    match s.requests request with
    | .activating input plan billingRef =>
      match outcome, s.activate input plan billingRef ids with
      | .failed, _ => some (s.setRequest request (.over (.failed .activationFailed)))
      | .raced, _ | _, none => some (s.setRequest request (.rereading input))
      | .unanswered, some activated =>
        some (activated.setRequest request (.over (.failed .activationFailed)))
      | .committed, some activated =>
        let signup := SignupDesk.newSignup input billingRef ids
        some (activated.setRequest request
          (.over (.returned signup (some ids.subscription) false)))
    | _ => none
  | s, .reread request =>
    match s.requests request with
    | .rereading input =>
      match s.priorSignup input with
      | some winner => some (s.setRequest request (.over (.returned winner none true)))
      | none => some (s.setRequest request (.over (.failed .activationFailed)))
    | _ => none
  | s, .crash request =>
    match s.requests request with
    | .awaiting _ _ _ call =>
      some ({ s with payment := s.payment.setPhase call .over }.setRequest request (.over .died))
    | .over _ => none
    | _ => some (s.setRequest request (.over .died))

end Bis.Settlement
