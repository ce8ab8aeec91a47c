import Bis.Transition.Unwinding
import Bis.Velocity.Windows
import Mathlib.Algebra.Order.BigOperators.Group.List

/-!
What one tenant's events make the engine report while other tenants use it.
The windows are keyed by account and length, so the events on an account
decide what is reported about it, whoever sent them. A tenant is isolated
exactly when no other tenant's event carries one of his account identifiers.
-/

namespace Bis.Velocity

open Bis.Transition List Function

/-- The identifier drawn for the alert is left out. -/
def VelocityBreach.withoutAlertId (breach : VelocityBreach) : VelocityBreach :=
  { breach with alertId := "" }

/-- `process` as an answering machine. -/
def alert : Answering VelocityEngine Delivery (List VelocityBreach) := fun engine delivery =>
  ((engine.process delivery.event delivery.alertIds).1,
    (engine.process delivery.event delivery.alertIds).2.map VelocityBreach.withoutAlertId)

/-- The event of a delivery where it is the tenant's own. -/
def ownEvent (tenant : String) (delivery : Delivery) : Option PaymentEvent :=
  if delivery.event.tenantId = tenant then some delivery.event else none

/-- The breaches reported for each event of the tenant. -/
def reports (tenant : String) (engine : VelocityEngine) (deliveries : List Delivery) :
    List (List VelocityBreach) :=
  answers alert (ownEvent tenant) engine deliveries

/-- The tenant's events are `own`, in this order, and the events of other
tenants are on `foreign` accounts. -/
structure Traffic (tenant : String) (foreign : Set String) (own : List PaymentEvent)
    (deliveries : List Delivery) : Prop where
  own : deliveries.filterMap (ownEvent tenant) = own
  foreign : ∀ delivery ∈ deliveries, delivery.event.tenantId ≠ tenant →
    delivery.event.accountId ∈ foreign

/-- What is reported for `own` does not depend on the other tenants. -/
def TenantIsolated (engine : VelocityEngine) (tenant : String) (foreign : Set String)
    (own : List PaymentEvent) : Prop :=
  ∀ xs ys, Traffic tenant foreign own xs → Traffic tenant foreign own ys →
    reports tenant engine xs = reports tenant engine ys

/-! ### A pass stays on the account of its event -/

section Pass

variable {event : PaymentEvent} {accounts : Set String}

/-- The alert identifiers reach nothing else. -/
theorem processRules_withoutAlertId (event : PaymentEvent) (alertIds : VelocityRule → String)
    (rules : List VelocityRule) (windows : Windows) :
    ((processRules event alertIds rules windows).1,
        (processRules event alertIds rules windows).2.map VelocityBreach.withoutAlertId) =
      processRules event (fun _ => "") rules windows := by
  induction rules generalizing windows with
  | nil => rfl
  | cons rule rest ih =>
    simp only [processRules]
    split
    · have hevaluate : ∀ window, (evaluate event (alertIds rule) rule window).map
          VelocityBreach.withoutAlertId = evaluate event "" rule window := by
        intro window
        simp only [evaluate]
        split
        · rfl
        · rfl
      have hnext := ih (update windows (rule.key event)
        (some (slide windows event rule)))
      rw [← hnext, ← hevaluate, map_append, Option.toList_map]
    · exact ih windows

theorem processRules_other {key : WindowKey} (alertIds : VelocityRule → String)
    (rules : List VelocityRule) (windows : Windows) (hkey : event.accountId ≠ key.1) :
    (processRules event alertIds rules windows).1 key = windows key := by
  induction rules generalizing windows with
  | nil => rfl
  | cons rule rest ih =>
    simp only [processRules]
    split
    · have hne : key ≠ rule.key event := fun h => hkey (congrArg Prod.fst h).symm
      rw [ih, update_of_ne hne]
    · exact ih windows

/-- The windows answer alike on some accounts. -/
def SameOn (accounts : Set String) (windows windows' : Windows) : Prop :=
  ∀ key : WindowKey, key.1 ∈ accounts → windows key = windows' key

theorem SameOn.processRules {windows windows' : Windows} (alertIds : VelocityRule → String)
    (rules : List VelocityRule) (h : SameOn accounts windows windows')
    (hevent : event.accountId ∈ accounts) :
    (processRules event alertIds rules windows).2 = (processRules event alertIds rules windows').2 ∧
      SameOn accounts (processRules event alertIds rules windows).1
        (processRules event alertIds rules windows').1 := by
  induction rules generalizing windows windows' with
  | nil => exact ⟨rfl, h⟩
  | cons rule rest ih =>
    simp only [Velocity.processRules]
    split
    · have hslide : slide windows event rule = slide windows' event rule := by
        simp only [slide, windowAt, h (rule.key event) hevent]
      have hupdate : SameOn accounts
          (update windows (rule.key event) (some (slide windows event rule)))
          (update windows' (rule.key event) (some (slide windows' event rule))) := by
        intro key hkey
        rcases eq_or_ne key (rule.key event) with rfl | hne
        · simp only [update_self, hslide]
        · rw [update_of_ne hne, update_of_ne hne]
          exact h key hkey
      obtain ⟨hbreaches, hwindows⟩ := ih hupdate
      exact ⟨by rw [hbreaches, hslide], hwindows⟩
    · exact ih h

end Pass

/-! ### Tenants that share no account -/

/-- The engines have the same rules and the same windows on some accounts. -/
structure AgreeOn (accounts : Set String) (engine engine' : VelocityEngine) : Prop where
  rules : engine.rules = engine'.rules
  windows : SameOn accounts engine.windows engine'.windows

variable {accounts : Set String} {engine engine' : VelocityEngine} {delivery : Delivery}
  {event : PaymentEvent} {sender : String}

theorem AgreeOn.symm (h : AgreeOn accounts engine engine') : AgreeOn accounts engine' engine :=
  ⟨h.rules.symm, fun key hkey => (h.windows key hkey).symm⟩

theorem alert_eq (engine : VelocityEngine) (delivery : Delivery) :
    alert engine delivery =
      ({ engine with
          windows := (processRules delivery.event (fun _ => "") engine.rules engine.windows).1 },
        (processRules delivery.event (fun _ => "") engine.rules engine.windows).2) := by
  have h := processRules_withoutAlertId delivery.event delivery.alertIds engine.rules engine.windows
  rw [← h]
  rfl

theorem AgreeOn.alert_hidden (h : AgreeOn accounts engine engine')
    (hother : delivery.event.accountId ∉ accounts) :
    AgreeOn accounts (alert engine delivery).1 engine' := by
  refine ⟨h.rules, ?_⟩
  intro key hkey
  have hne : delivery.event.accountId ≠ key.1 := fun heq => hother (heq ▸ hkey)
  rw [alert_eq]
  exact (processRules_other _ _ _ hne).trans (h.windows key hkey)

theorem AgreeOn.alert_visible {delivery' : Delivery} (h : AgreeOn accounts engine engine')
    (hsame : delivery.event = delivery'.event) (hevent : delivery.event.accountId ∈ accounts) :
    (alert engine delivery).2 = (alert engine' delivery').2 ∧
      AgreeOn accounts (alert engine delivery).1 (alert engine' delivery').1 := by
  obtain ⟨hbreaches, hwindows⟩ := h.windows.processRules (fun _ => "") engine.rules hevent
  rw [alert_eq, alert_eq, ← hsame, ← h.rules]
  exact ⟨hbreaches, rfl, hwindows⟩

theorem ownEvent_eq_some_iff {tenant : String} :
    ownEvent tenant delivery = some event ↔
      delivery.event.tenantId = tenant ∧ delivery.event = event := by
  simp [ownEvent]

theorem ownEvent_eq_none_iff {tenant : String} :
    ownEvent tenant delivery = none ↔ delivery.event.tenantId ≠ tenant := by
  simp [ownEvent]

variable {tenant : String} {foreign : Set String} {own : List PaymentEvent}

theorem Traffic.mem_own {deliveries : List Delivery} (h : Traffic tenant foreign own deliveries)
    (hmem : delivery ∈ deliveries) (htenant : delivery.event.tenantId = tenant) :
    delivery.event ∈ own := by
  rw [← h.own]
  exact mem_filterMap.mpr ⟨delivery, hmem, ownEvent_eq_some_iff.mpr ⟨htenant, rfl⟩⟩

/-- On accounts of his own a tenant sees nothing of the others. -/
theorem isolated_of_separate (engine : VelocityEngine)
    (hseparate : ∀ event ∈ own, event.accountId ∉ foreign) :
    TenantIsolated engine tenant foreign own := by
  intro xs ys hxs hys
  have hplaced : ∀ zs, Traffic tenant foreign own zs → ∀ delivery ∈ zs,
      (delivery.event.tenantId = tenant ↔ delivery.event.accountId ∈ foreignᶜ) := by
    intro zs hzs delivery hmem
    constructor
    · intro htenant
      exact hseparate _ (hzs.mem_own hmem htenant)
    · intro haccount
      by_contra htenant
      exact haccount (hzs.foreign delivery hmem htenant)
  apply answers_eq_of_unwinding (AgreeOn foreignᶜ) (fun _ _ h => h.symm) _ _
    (hplaced xs hxs) (hplaced ys hys) (hxs.own.trans hys.own.symm)
  · exact ⟨rfl, fun _ _ => rfl⟩
  · intro e e' delivery hdelivery hview h
    apply h.alert_hidden
    rw [← hdelivery]
    exact ownEvent_eq_none_iff.mp hview
  · intro e e' delivery delivery' event hdelivery _ hview hview' h
    obtain ⟨htenant, hevent⟩ := ownEvent_eq_some_iff.mp hview
    have hevent' := (ownEvent_eq_some_iff.mp hview').2
    exact h.alert_visible (hevent.trans hevent'.symm) (hdelivery.mp htenant)

/-! ### Tenants that share an account -/

section Shared

variable {event : PaymentEvent}

/-- How many entries of one instant stand in a window. -/
def entriesAt (windows : Windows) (now : Int) (key : WindowKey) : Nat :=
  (windowAt windows key).timestamps.count now

theorem evictLoop_count {cutoff now : Int} (hcutoff : cutoff ≤ now) (timestamps : List Int)
    (amounts : List Int64) (crossBorder : List Bool) :
    (evictLoop cutoff timestamps amounts crossBorder).timestamps.count now =
      timestamps.count now := by
  induction timestamps generalizing amounts crossBorder with
  | nil => rfl
  | cons ts rest ih =>
    simp only [evictLoop]
    split
    · have hne : ts ≠ now := by omega
      rw [ih, count_cons_of_ne hne]
    · rfl

/-- A window that reaches back keeps what is as new as the event. -/
theorem slide_count (event : PaymentEvent) (windows : Windows) (rule : VelocityRule)
    (hspan : 0 ≤ rule.windowSecs.toInt64.toInt) :
    (slide windows event rule).timestamps.count event.timestamp =
      entriesAt windows event.timestamp (rule.key event) + 1 := by
  have hcutoff : windowStart event.timestamp rule.windowSecs ≤ event.timestamp := by
    unfold windowStart
    omega
  simp only [slide, SlidingWindow.push, SlidingWindow.evictStale, entriesAt]
  rw [count_append, evictLoop_count hcutoff, count_singleton_self]

theorem processRules_entriesAt (event : PaymentEvent) (alertIds : VelocityRule → String)
    (rules : List VelocityRule) (windows : Windows) (key : WindowKey)
    (hspan : ∀ rule ∈ rules, 0 ≤ rule.windowSecs.toInt64.toInt) :
    entriesAt (processRules event alertIds rules windows).1 event.timestamp key =
      entriesAt windows event.timestamp key + passes rules event key := by
  induction rules generalizing windows with
  | nil => rfl
  | cons rule rest ih =>
    have hrest := fun windows' => ih windows' fun r hr => hspan r (mem_cons_of_mem _ hr)
    simp only [processRules]
    split
    next happlies =>
      rw [hrest]
      rcases eq_or_ne (rule.key event) key with rfl | hkey
      · have hpasses : passes (rule :: rest) event (rule.key event) =
            passes rest event (rule.key event) + 1 := by
          simp [passes, happlies]
        have hslide := slide_count event windows rule (hspan rule mem_cons_self)
        have hupdate : entriesAt (update windows (rule.key event)
            (some (slide windows event rule))) event.timestamp (rule.key event) =
            (slide windows event rule).timestamps.count event.timestamp := by
          simp only [entriesAt, windowAt, update_self, Option.getD_some]
        omega
      · have hpasses : passes (rule :: rest) event key = passes rest event key := by
          simp [passes, hkey]
        have hupdate : entriesAt (update windows (rule.key event)
            (some (slide windows event rule))) event.timestamp key =
            entriesAt windows event.timestamp key := by
          simp only [entriesAt, windowAt, update_of_ne hkey.symm]
        omega
    next happlies =>
      have hpasses : passes (rule :: rest) event key = passes rest event key := by
        simp [passes, happlies]
      rw [hrest, hpasses]

/-- A count rule whose window already holds more entries of the event's instant
than its limit reports at least as many. -/
theorem exists_breach {rules : List VelocityRule} {rule : VelocityRule} {windows : Windows}
    {limit n : Nat} (alertIds : VelocityRule → String) (hrule : rule ∈ rules)
    (hspan : ∀ rule ∈ rules, 0 ≤ rule.windowSecs.toInt64.toInt)
    (hkind : rule.crossBorderOnly = false) (hlimit : rule.countLimit = some limit)
    (hn : limit ≤ n) (hentries : n ≤ entriesAt windows event.timestamp (rule.key event)) :
    ∃ breach ∈ (processRules event alertIds rules windows).2, n < breach.txCount := by
  obtain ⟨done, rest, rfl⟩ := append_of_mem hrule
  have hdone := processRules_entriesAt event alertIds done windows (rule.key event)
    fun r hr => hspan r (mem_append_left _ hr)
  have hslide := slide_count event (processRules event alertIds done windows).1 rule
    (hspan rule hrule)
  rw [processRules_append]
  generalize (processRules event alertIds done windows).1 = before at hdone hslide
  have hcount : n < (slide before event rule).count rule.crossBorderOnly := by
    have hle := count_le_length (a := event.timestamp)
      (l := (slide before event rule).timestamps)
    simp only [SlidingWindow.count, hkind, Bool.false_eq_true, if_false]
    omega
  have happlies : rule.applies event := by simp [VelocityRule.applies, hkind]
  have hexceeds : rule.countLimit.any (fun limit =>
      decide (limit < (slide before event rule).count rule.crossBorderOnly)) := by
    rw [hlimit]
    simpa using lt_of_le_of_lt hn hcount
  simp only [processRules, happlies, if_true, evaluate, hexceeds, Bool.true_or, mem_append,
    Option.mem_toList]
  refine ⟨_, Or.inr (Or.inl rfl), hcount⟩

end Shared

def quiet (event : PaymentEvent) : Delivery := ⟨event, fun _ => ""⟩

/-- A domestic event of no value, on the account and at the instant of another. -/
def shadow (sender : String) (event : PaymentEvent) : PaymentEvent :=
  { txRef := "", accountId := event.accountId, amountKobo := 0, isCrossBorder := none
    tenantId := sender, timestamp := event.timestamp }

theorem rules_stateAfter (engine : VelocityEngine) (deliveries : List Delivery) :
    (stateAfter alert engine deliveries).rules = engine.rules := by
  induction deliveries generalizing engine with
  | nil => rfl
  | cons delivery rest ih => exact ih _

theorem entriesAt_shadows {rule : VelocityRule} (engine : VelocityEngine) (sender : String)
    (event : PaymentEvent) (n : Nat) (hrule : rule ∈ engine.rules)
    (hspan : ∀ rule ∈ engine.rules, 0 ≤ rule.windowSecs.toInt64.toInt)
    (hkind : rule.crossBorderOnly = false) :
    (stateAfter alert engine (List.replicate n (quiet (shadow sender event)))).rules =
        engine.rules ∧
      n ≤ entriesAt (stateAfter alert engine
        (List.replicate n (quiet (shadow sender event)))).windows event.timestamp
        (rule.key event) := by
  have hpasses : 0 < passes engine.rules (shadow sender event) (rule.key event) := by
    apply countP_pos_iff.mpr
    refine ⟨rule, hrule, ?_⟩
    simp [VelocityRule.applies, VelocityRule.key, hkind, shadow]
  induction n with
  | zero => exact ⟨rfl, Nat.zero_le _⟩
  | succ n ih =>
    obtain ⟨hrules, hentries⟩ := ih
    rw [replicate_succ', stateAfter_append, stateAfter_cons, stateAfter_nil, alert_eq]
    refine ⟨hrules, ?_⟩
    have hpush := processRules_entriesAt (shadow sender event) (fun _ => "")
      (stateAfter alert engine (List.replicate n (quiet (shadow sender event)))).rules
      (stateAfter alert engine (List.replicate n (quiet (shadow sender event)))).windows
      (rule.key event) (hrules ▸ hspan)
    rw [hrules] at hpush ⊢
    simp only [quiet, shadow] at hpush hentries hpasses ⊢
    omega

theorem filterMap_quiet (hown : ∀ event ∈ own, event.tenantId = tenant) :
    (own.map quiet).filterMap (ownEvent tenant) = own := by
  rw [filterMap_map]
  refine (filterMap_congr ?_).trans filterMap_some
  intro event hevent
  exact ownEvent_eq_some_iff.mpr ⟨hown event hevent, rfl⟩

theorem filterMap_shadows (event : PaymentEvent) (n : Nat) (hsender : sender ≠ tenant) :
    (List.replicate n (quiet (shadow sender event))).filterMap (ownEvent tenant) = [] := by
  apply filterMap_eq_nil_iff.mpr
  intro delivery hmem
  rw [eq_of_mem_replicate hmem]
  exact ownEvent_eq_none_iff.mpr hsender

theorem traffic_quiet (hown : ∀ event ∈ own, event.tenantId = tenant) :
    Traffic tenant foreign own (own.map quiet) := by
  refine ⟨filterMap_quiet hown, ?_⟩
  intro delivery hmem hother
  obtain ⟨event, hevent, rfl⟩ := mem_map.mp hmem
  exact absurd (hown event hevent) hother

variable {before after : List PaymentEvent}

theorem traffic_shadowed (event : PaymentEvent) (n : Nat) (hsender : sender ≠ tenant)
    (hshared : event.accountId ∈ foreign) (hown : ∀ e ∈ before ++ after, e.tenantId = tenant) :
    Traffic tenant foreign (before ++ after) (before.map quiet ++
      (List.replicate n (quiet (shadow sender event)) ++ after.map quiet)) := by
  have hbefore : ∀ e ∈ before, e.tenantId = tenant := fun e he =>
    hown e (mem_append_left _ he)
  have hafter : ∀ e ∈ after, e.tenantId = tenant := fun e he =>
    hown e (mem_append_right _ he)
  constructor
  · rw [filterMap_append, filterMap_append, filterMap_quiet hbefore,
      filterMap_shadows event n hsender, filterMap_quiet hafter, nil_append]
  · intro delivery hmem hother
    rcases mem_append.mp hmem with hmem | hmem
    · exact (traffic_quiet hbefore).foreign delivery hmem hother
    · rcases mem_append.mp hmem with hmem | hmem
      · rw [eq_of_mem_replicate hmem]
        exact hshared
      · exact (traffic_quiet hafter).foreign delivery hmem hother

/-- An isolated tenant's event is answered alike with and without shadows. -/
theorem TenantIsolated.alert_shadowed (n : Nat) (hsender : sender ≠ tenant)
    (hown : ∀ e ∈ before ++ event :: after, e.tenantId = tenant)
    (hshared : event.accountId ∈ foreign)
    (h : TenantIsolated engine tenant foreign (before ++ event :: after)) :
    (alert (stateAfter alert engine (before.map quiet)) (quiet event)).2 =
      (alert (stateAfter alert (stateAfter alert engine (before.map quiet))
        (List.replicate n (quiet (shadow sender event)))) (quiet event)).2 := by
  have hsame := h _ _ (traffic_quiet hown) (traffic_shadowed event n hsender hshared hown)
  have hview : ownEvent tenant (quiet event) = some event := by
    apply ownEvent_eq_some_iff.mpr
    exact ⟨hown event (mem_append_right _ mem_cons_self), rfl⟩
  have hhidden : ∀ s, answers alert (ownEvent tenant) s
      (List.replicate n (quiet (shadow sender event))) = [] := by
    intro s
    apply answers_eq_nil
    exact filterMap_eq_nil_iff.mp (filterMap_shadows event n hsender)
  simp only [reports, map_append, map_cons, answers_append, hhidden, nil_append]
    at hsame
  have hlater := append_cancel_left hsame
  rw [answers_of_visible _ _ hview, answers_of_visible _ _ hview] at hlater
  exact (List.cons.inj hlater).1

/-- Where an engine counts every event, a tenant is not isolated on an account
that another tenant's events may carry. -/
theorem not_isolated_of_shared {rule : VelocityRule} {limit : Nat} (hrule : rule ∈ engine.rules)
    (hspan : ∀ rule ∈ engine.rules, 0 ≤ rule.windowSecs.toInt64.toInt)
    (hkind : rule.crossBorderOnly = false) (hlimit : rule.countLimit = some limit)
    (hown : ∀ event ∈ own, event.tenantId = tenant) (hevent : event ∈ own)
    (hshared : event.accountId ∈ foreign) : ¬ TenantIsolated engine tenant foreign own := by
  obtain ⟨sender, hsender⟩ : ∃ sender : String, sender ≠ tenant := by
    refine ⟨tenant ++ "-", ?_⟩
    intro h
    simpa using congrArg String.length h
  obtain ⟨before, after, rfl⟩ := append_of_mem hevent
  intro hisolated
  have hanswer := fun n => hisolated.alert_shadowed n hsender hown hshared
  have hrules := rules_stateAfter engine (before.map quiet)
  generalize stateAfter alert engine (before.map quiet) = reached at hanswer hrules
  -- More shadows than any count that is reported without them.
  let n := limit + ((alert reached (quiet event)).2.map VelocityBreach.txCount).sum
  obtain ⟨hkept, hentries⟩ := entriesAt_shadows reached sender event n (hrules ▸ hrule)
    (hrules ▸ hspan) hkind
  rw [← hkept] at hrules
  obtain ⟨breach, hbreach, hcount⟩ := exists_breach (fun _ => "") (hrules ▸ hrule)
    (hrules ▸ hspan) hkind hlimit (Nat.le_add_right _ _) hentries
  have hmem : breach ∈ (alert reached (quiet event)).2 := by
    rw [hanswer n, alert_eq]
    exact hbreach
  have hle := single_le_sum (fun _ _ => Nat.zero_le _) _
    (mem_map_of_mem (f := VelocityBreach.txCount) hmem)
  omega

/-- A tenant is isolated, whatever rules the engine has and in the service as
it is deployed, exactly when no other tenant's event carries one of his
account identifiers. -/
theorem tenant_isolated_tfae (tenant : String) (foreign : Set String) (own : List PaymentEvent)
    (hown : ∀ event ∈ own, event.tenantId = tenant) :
    [∀ engine, TenantIsolated engine tenant foreign own,
      TenantIsolated (.new defaultRules) tenant foreign own,
      ∀ event ∈ own, event.accountId ∉ foreign].TFAE := by
  tfae_have 1 → 2 := fun h => h _
  tfae_have 2 → 3 := by
    intro hisolated event hevent hshared
    have hspan : ∀ rule ∈ defaultRules, 0 ≤ rule.windowSecs.toInt64.toInt := by decide
    have hcounts : count1Min ∈ defaultRules := mem_cons_self
    exact not_isolated_of_shared hcounts hspan rfl rfl hown hevent hshared hisolated
  tfae_have 3 → 1 := fun h engine => isolated_of_separate engine h
  tfae_finish

/-- A small payment on account `ACC-001`. -/
def smallPayment (tenantId : String) (second : Int) : PaymentEvent :=
  { txRef := "TXN-1", accountId := "ACC-001", amountKobo := 10000, isCrossBorder := some false
    tenantId, timestamp := second * 10 ^ 9 }

theorem tenant_isolated_from_other_account :
    TenantIsolated (.new defaultRules) "tenant-002" {"ACC-002"} [smallPayment "tenant-002" 5] := by
  have hown : ∀ event ∈ [smallPayment "tenant-002" 5], event.tenantId = "tenant-002" := by
    decide
  have hseparate : ∀ event ∈ [smallPayment "tenant-002" 5],
      event.accountId ∉ ({"ACC-002"} : Set String) := by
    simp [smallPayment]
  exact ((tenant_isolated_tfae "tenant-002" {"ACC-002"} _ hown).out 1 2).mpr hseparate

/-- Five payments of one tenant within a minute turn the first payment of
another on the same account into a breach. -/
theorem foreign_payments_raise_breach :
    ¬ ∀ (tenant : String) (xs ys : List Delivery),
      xs.filterMap (ownEvent tenant) = ys.filterMap (ownEvent tenant) →
        reports tenant (.new defaultRules) xs = reports tenant (.new defaultRules) ys := by
  intro h
  have hreports := h "tenant-002"
    (([0, 1, 2, 3, 4].map fun second => quiet (smallPayment "tenant-001" second)) ++
      [quiet (smallPayment "tenant-002" 5)])
    [quiet (smallPayment "tenant-002" 5)] (by decide)
  revert hreports
  decide

end Bis.Velocity
