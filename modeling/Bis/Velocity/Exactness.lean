import Bis.Velocity.Windows

/-!
When the default rules report what they are documented to report. Three of
them share the one-hour window of an account and each pushes the event into
it, so the hour is counted two or three times over. The windows of a minute
and of a day belong to one rule each and count exactly, up to the wrap of the
`i64` sum.
-/

namespace Bis.Velocity

open Bis.Window Bis.Number Bis.Transition List

/-- The events a rule is about when `event` is processed, each of them once. -/
def counted (rule : VelocityRule) (event : PaymentEvent) (events : List PaymentEvent) :
    List PaymentEvent :=
  events.filter fun e => decide (e.accountId = event.accountId) &&
    decide (windowStart event.timestamp rule.windowSecs ≤ e.timestamp) &&
    decide (e.timestamp ≤ event.timestamp) && (!rule.crossBorderOnly || e.crossBorder)

def exactCount (rule : VelocityRule) (history : List PaymentEvent) (event : PaymentEvent) : Nat :=
  (counted rule event (history ++ [event])).length

def exactTotal (rule : VelocityRule) (history : List PaymentEvent) (event : PaymentEvent) : Int :=
  ((counted rule event (history ++ [event])).map fun e => e.amountKobo.toInt).sum

/-- A count or a sum is above the rule's limit. -/
def VelocityRule.exceededBy (rule : VelocityRule) (count : Nat) (total : Int) : Prop :=
  (rule.countLimit.any fun limit => decide (limit < count)) ∨
    (rule.amountLimitKobo.any fun limit => decide (limit.toInt < total))

instance (rule : VelocityRule) (count : Nat) (total : Int) :
    Decidable (rule.exceededBy count total) :=
  inferInstanceAs (Decidable (_ ∨ _))

/-- The breaches of an event name the rule exactly when the events the rule is
about exceed it, and they carry the exact count and sum. -/
def ReportsExactly (rule : VelocityRule) (history : List PaymentEvent) (event : PaymentEvent)
    (breaches : List VelocityBreach) : Prop :=
  ((∃ breach ∈ breaches, breach.ruleName = rule.name) ↔
    rule.exceededBy (exactCount rule history event) (exactTotal rule history event)) ∧
  ∀ breach ∈ breaches, breach.ruleName = rule.name →
    breach.txCount = exactCount rule history event ∧
      breach.totalAmountKobo.toInt = exactTotal rule history event

instance (rule : VelocityRule) (history : List PaymentEvent) (event : PaymentEvent)
    (breaches : List VelocityBreach) : Decidable (ReportsExactly rule history event breaches) :=
  inferInstanceAs (Decidable (_ ∧ _))

section Pass

variable {event : PaymentEvent} {history : List PaymentEvent}

theorem sum_window {M : Type*} [AddCommMonoid M] (g : Entry → M) (rules : List VelocityRule)
    (rule : VelocityRule) (horder : ∀ e ∈ history, e.timestamp ≤ event.timestamp) :
    ((SlidingWindow.relevant rule.crossBorderOnly (recent Entry.timestamp
      (windowStart event.timestamp rule.windowSecs)
      (logged rules history (rule.key event)))).map g).sum =
    ((counted rule event history).map fun e =>
      passes rules e (rule.key event) • g e.entry).sum := by
  induction history with
  | nil => rfl
  | cons e rest ih =>
    have hrest := ih fun e he => horder e (mem_cons_of_mem _ he)
    have hnow : e.timestamp ≤ event.timestamp := horder e mem_cons_self
    have hlog : logged rules (e :: rest) (rule.key event) =
        List.replicate (passes rules e (rule.key event)) e.entry ++
          logged rules rest (rule.key event) := rfl
    have hother : e.accountId ≠ event.accountId → passes rules e (rule.key event) = 0 := by
      intro haccount
      apply countP_eq_zero.mpr
      intro r _
      simp [VelocityRule.key, haccount]
    rw [hlog, recent_append]
    simp only [SlidingWindow.relevant, filter_append, map_append, sum_append]
      at hrest ⊢
    rw [hrest]
    simp only [recent, filter_replicate, counted, filter_cons]
    rcases eq_or_ne e.accountId event.accountId with haccount | haccount
    · rcases lt_or_ge e.timestamp (windowStart event.timestamp rule.windowSecs) with he | he
      · simp [haccount, PaymentEvent.entry, not_le.mpr he]
      · cases hkind : (!rule.crossBorderOnly || e.crossBorder) with
        | true | false => simp [haccount, hnow, PaymentEvent.entry, he, hkind]
    · simp [hother haccount, haccount]

/-- What a rule sees when it is evaluated: the entries its log left in the
window, the event once for every earlier pass of the same window, and the
event itself. -/
def passCount (rules done : List VelocityRule) (rule : VelocityRule)
    (history : List PaymentEvent) (event : PaymentEvent) : Nat :=
  ((counted rule event history).map fun e => passes rules e (rule.key event)).sum +
    (passes done event (rule.key event) + 1)

def passTotal (rules done : List VelocityRule) (rule : VelocityRule)
    (history : List PaymentEvent) (event : PaymentEvent) : Int :=
  ((counted rule event history).map fun e =>
      (passes rules e (rule.key event) : Int) * e.amountKobo.toInt).sum +
    (passes done event (rule.key event) + 1) * event.amountKobo.toInt

theorem counted_last {rule : VelocityRule} (hspan : 0 ≤ rule.windowSecs.toInt64.toInt) :
    counted rule event (history ++ [event]) =
      counted rule event history ++ if rule.applies event then [event] else [] := by
  have hstart : windowStart event.timestamp rule.windowSecs ≤ event.timestamp := by
    unfold windowStart
    omega
  have happlies : (!rule.crossBorderOnly || event.crossBorder) = rule.applies event := by
    simp [VelocityRule.applies]
  simp [counted, filter_append, hstart, happlies, filter_cons]

theorem evaluate_eq (alertId : String) (rule : VelocityRule) (entries : List Entry) :
    evaluate event alertId rule (.ofEntries entries) =
      if rule.exceededBy (SlidingWindow.relevant rule.crossBorderOnly entries).length
        (wrapI64 ((SlidingWindow.relevant rule.crossBorderOnly entries).map
          fun e => e.amountKobo.toInt).sum) then
        some
          { alertId
            accountId := event.accountId
            tenantId := event.tenantId
            ruleName := rule.name
            riskLevel := rule.riskLevel
            windowSecs := rule.windowSecs
            txCount := (SlidingWindow.relevant rule.crossBorderOnly entries).length
            totalAmountKobo := (SlidingWindow.ofEntries entries).totalAmount rule.crossBorderOnly
            triggeringTxRef := event.txRef
            detectedAt := event.timestamp }
      else none := by
  simp only [evaluate, VelocityRule.exceededBy, SlidingWindow.count_ofEntries,
    ← SlidingWindow.totalAmount_ofEntries, Int64.lt_iff_toInt_lt, Bool.or_eq_true]

variable {rules rest : List VelocityRule} {rule : VelocityRule} {s : Processing}
  {delivery : Delivery} (done : List VelocityRule)

/-- The entries the pass of a rule is evaluated on. -/
theorem slide_of_upToDate (hs : UpToDate rules s) (horder : InOrder s delivery) :
    slide (processRules delivery.event delivery.alertIds done s.engine.windows).1
      delivery.event rule =
    .ofEntries (recent Entry.timestamp
      (windowStart delivery.event.timestamp rule.windowSecs)
      (logged rules s.history (rule.key delivery.event) ++
        List.replicate (passes done delivery.event (rule.key delivery.event))
          delivery.event.entry) ++ [delivery.event.entry]) := by
  have htracks := hs.tracks delivery.event.timestamp horder
  exact (htracks.processRules delivery.alertIds done).slide_eq rule

theorem relevant_pass {M : Type*} [AddCommMonoid M] (g : Entry → M)
    (rules done : List VelocityRule)
    (happlies : rule.applies event) (hspan : 0 ≤ rule.windowSecs.toInt64.toInt)
    (horder : ∀ e ∈ history, e.timestamp ≤ event.timestamp) :
    ((SlidingWindow.relevant rule.crossBorderOnly (recent Entry.timestamp
      (windowStart event.timestamp rule.windowSecs)
      (logged rules history (rule.key event) ++
        List.replicate (passes done event (rule.key event)) event.entry) ++
      [event.entry])).map g).sum =
    ((counted rule event history).map fun e => passes rules e (rule.key event) • g e.entry).sum +
      (passes done event (rule.key event) + 1) • g event.entry := by
  have hstart : windowStart event.timestamp rule.windowSecs ≤ event.timestamp := by
    unfold windowStart
    omega
  have hkind : (!rule.crossBorderOnly || event.crossBorder) = true := by
    simpa [VelocityRule.applies] using happlies
  have hown : ∀ n, SlidingWindow.relevant rule.crossBorderOnly (recent Entry.timestamp
      (windowStart event.timestamp rule.windowSecs) (List.replicate n event.entry)) =
      List.replicate n event.entry := by
    intro n
    simp [SlidingWindow.relevant, recent, PaymentEvent.entry, hstart, hkind]
  have hlast : SlidingWindow.relevant rule.crossBorderOnly [event.entry] = [event.entry] := by
    simp [SlidingWindow.relevant, PaymentEvent.entry, hkind]
  have happend : ∀ first second, SlidingWindow.relevant rule.crossBorderOnly (first ++ second) =
      SlidingWindow.relevant rule.crossBorderOnly first ++
        SlidingWindow.relevant rule.crossBorderOnly second :=
    fun first second => filter_append first second
  rw [happend, recent_append, happend, hown, hlast]
  simp only [map_append, sum_append, map_replicate, sum_replicate,
    map_cons, map_nil, sum_cons, sum_nil, add_zero]
  rw [sum_window g rules rule horder, succ_nsmul, add_assoc]

/-- The pass of a rule on a window reports what the multiplied counts say. -/
theorem evaluate_of_upToDate (hs : UpToDate rules s) (horder : InOrder s delivery)
    (hspan : 0 ≤ rule.windowSecs.toInt64.toInt) (happlies : rule.applies delivery.event)
    (alertId : String) :
    ∃ breach : VelocityBreach,
      breach.ruleName = rule.name ∧
      breach.txCount = passCount rules done rule s.history delivery.event ∧
      breach.totalAmountKobo.toInt =
        wrapI64 (passTotal rules done rule s.history delivery.event) ∧
      evaluate delivery.event alertId rule
        (slide (processRules delivery.event delivery.alertIds done s.engine.windows).1
          delivery.event rule) =
      if rule.exceededBy (passCount rules done rule s.history delivery.event)
        (wrapI64 (passTotal rules done rule s.history delivery.event)) then some breach
      else none := by
  rw [slide_of_upToDate done hs horder, evaluate_eq]
  have hcount := relevant_pass (fun _ => (1 : Nat)) rules done happlies hspan horder
  have htotal := relevant_pass (fun e => e.amountKobo.toInt) rules done happlies hspan
    horder
  simp only [map_const', sum_replicate, nsmul_eq_mul, Nat.cast_id, mul_one]
    at hcount
  simp only [nsmul_eq_mul, Nat.cast_add, Nat.cast_one] at htotal
  rw [hcount, htotal]
  refine ⟨_, rfl, rfl, ?_, rfl⟩
  rw [SlidingWindow.totalAmount_ofEntries, htotal]
  rfl

/-- What exactness of one rule amounts to, for an event the rule applies to. -/
theorem reportsExactly_iff_of_applies (hs : UpToDate rules s) (horder : InOrder s delivery)
    (hnames : (rules.map VelocityRule.name).Nodup) (hrules : rules = done ++ rule :: rest)
    (hspan : 0 ≤ rule.windowSecs.toInt64.toInt) (happlies : rule.applies delivery.event) :
    ReportsExactly rule s.history delivery.event (s.breaches delivery) ↔
      (rule.exceededBy (passCount rules done rule s.history delivery.event)
          (wrapI64 (passTotal rules done rule s.history delivery.event)) ↔
        rule.exceededBy (exactCount rule s.history delivery.event)
          (exactTotal rule s.history delivery.event)) ∧
      (rule.exceededBy (passCount rules done rule s.history delivery.event)
          (wrapI64 (passTotal rules done rule s.history delivery.event)) →
        passCount rules done rule s.history delivery.event =
            exactCount rule s.history delivery.event ∧
          wrapI64 (passTotal rules done rule s.history delivery.event) =
            exactTotal rule s.history delivery.event) := by
  obtain ⟨breach, hname, hcount, htotal, hevaluate⟩ :=
    evaluate_of_upToDate done hs horder hspan happlies (delivery.alertIds rule)
  have hmem : ∀ b : VelocityBreach, b.ruleName = rule.name →
      (b ∈ s.breaches delivery ↔
        rule.exceededBy (passCount rules done rule s.history delivery.event)
          (wrapI64 (passTotal rules done rule s.history delivery.event)) ∧ b = breach) := by
    intro b hb
    have hbreaches : s.breaches delivery = (processRules delivery.event delivery.alertIds
        (done ++ rule :: rest) s.engine.windows).2 := by
      rw [← hrules, ← hs.sameRules]
      rfl
    rw [hbreaches, mem_processRules_iff (hrules ▸ hnames) hb, hevaluate]
    simp [happlies, eq_comm]
  unfold ReportsExactly
  rw [← hcount, ← htotal] at hmem ⊢
  constructor
  · rintro ⟨hiff, hvalues⟩
    constructor
    · rw [← hiff]
      constructor
      · intro hexceeded
        exact ⟨breach, (hmem breach hname).mpr ⟨hexceeded, rfl⟩, hname⟩
      · rintro ⟨b, hb, hbname⟩
        exact ((hmem b hbname).mp hb).1
    · intro hexceeded
      exact hvalues breach ((hmem breach hname).mpr ⟨hexceeded, rfl⟩) hname
  · rintro ⟨hiff, hvalues⟩
    constructor
    · rw [← hiff]
      constructor
      · rintro ⟨b, hb, hbname⟩
        exact ((hmem b hbname).mp hb).1
      · intro hexceeded
        exact ⟨breach, (hmem breach hname).mpr ⟨hexceeded, rfl⟩, hname⟩
    · intro b hb hbname
      obtain ⟨hexceeded, rfl⟩ := (hmem b hbname).mp hb
      exact hvalues hexceeded

/-- A rule the loop skips reports nothing. -/
theorem reportsExactly_iff_of_skipped (hs : UpToDate rules s)
    (hnames : (rules.map VelocityRule.name).Nodup) (hrules : rules = done ++ rule :: rest)
    (hskipped : ¬ rule.applies delivery.event) :
    ReportsExactly rule s.history delivery.event (s.breaches delivery) ↔
      ¬ rule.exceededBy (exactCount rule s.history delivery.event)
        (exactTotal rule s.history delivery.event) := by
  have hnone : ∀ b ∈ s.breaches delivery, b.ruleName ≠ rule.name := by
    intro b hb hbname
    have hbreaches : s.breaches delivery = (processRules delivery.event delivery.alertIds
        (done ++ rule :: rest) s.engine.windows).2 := by
      rw [← hrules, ← hs.sameRules]
      rfl
    rw [hbreaches, mem_processRules_iff (hrules ▸ hnames) hbname] at hb
    exact hskipped hb.1
  constructor
  · rintro ⟨hiff, _⟩ hexceeded
    obtain ⟨b, hb, hbname⟩ := hiff.mpr hexceeded
    exact hnone b hb hbname
  · intro hexceeded
    refine ⟨⟨?_, fun h => absurd h hexceeded⟩, fun b hb hbname => absurd hbname (hnone b hb)⟩
    rintro ⟨b, hb, hbname⟩
    exact absurd hbname (hnone b hb)

end Pass

/-! ### The default rules -/

/-- How often an event is pushed into the one-hour window of its account. -/
def hourCopies (event : PaymentEvent) : Nat := if event.crossBorder then 3 else 2

theorem passes_defaultRules {e event : PaymentEvent} (haccount : e.accountId = event.accountId) :
    passes defaultRules e (count1Min.key event) = 1 ∧
      passes defaultRules e (count1Hour.key event) = hourCopies e ∧
      passes defaultRules e (amount24HourNgn.key event) = 1 := by
  cases hkind : e.crossBorder <;>
    simp [passes, defaultRules, VelocityRule.applies, VelocityRule.key, count1Min, count1Hour,
      amount1HourNgn, amount24HourNgn, crossBorder1Hour, hourCopies, haccount, hkind]

theorem account_of_counted {rule : VelocityRule} {e event : PaymentEvent}
    {history : List PaymentEvent} (h : e ∈ counted rule event history) :
    e.accountId = event.accountId := by
  simp only [counted, mem_filter, Bool.and_eq_true, decide_eq_true_eq] at h
  exact h.2.1.1.1

/-- The events of the last hour, the last minute and the last day, and the
cross-border ones of the last hour, before `event` itself. -/
def lastHour (history : List PaymentEvent) (event : PaymentEvent) : List PaymentEvent :=
  counted count1Hour event history

def crossBorderLastHour (history : List PaymentEvent) (event : PaymentEvent) :
    List PaymentEvent :=
  counted crossBorder1Hour event history

/-- When every default rule is exact for the next event. `COUNT_1HOUR` and
`AMOUNT_1HOUR_NGN` may not fire at all, since an alert of theirs always
carries multiplied figures, and no cross-border event may follow another
within the hour. The other two clauses keep the `i64` sums in range. -/
def ExactlyWhen (history : List PaymentEvent) (event : PaymentEvent) : Prop :=
  ((lastHour history event).map hourCopies).sum + 1 ≤ 20 ∧
  (wrapI64 (((lastHour history event).map fun e => (hourCopies e : Int) * e.amountKobo.toInt).sum +
        2 * event.amountKobo.toInt) ≤ 500000000 ∧
      exactTotal amount1HourNgn history event ≤ 500000000) ∧
  (crossBorderLastHour history event).length ≤ (if event.crossBorder then 0 else 3) ∧
  (5 < exactCount count1Min history event → FitsI64 (exactTotal count1Min history event)) ∧
  (2000000000 < wrapI64 (exactTotal amount24HourNgn history event) ↔
    2000000000 < exactTotal amount24HourNgn history event) ∧
  (2000000000 < wrapI64 (exactTotal amount24HourNgn history event) →
    FitsI64 (exactTotal amount24HourNgn history event))

instance (history : List PaymentEvent) (event : PaymentEvent) :
    Decidable (ExactlyWhen history event) :=
  inferInstanceAs (Decidable (_ ∧ _ ∧ _ ∧ _ ∧ _ ∧ _))

section DefaultRules

variable {s : Processing} {delivery : Delivery} {history : List PaymentEvent}
  {event : PaymentEvent} (count : Nat) (total : Int)

@[simp]
theorem exceededBy_count1Min : count1Min.exceededBy count total ↔ 5 < count := by
  simp [VelocityRule.exceededBy, count1Min]

@[simp]
theorem exceededBy_count1Hour : count1Hour.exceededBy count total ↔ 20 < count := by
  simp [VelocityRule.exceededBy, count1Hour]

@[simp]
theorem exceededBy_amount1HourNgn : amount1HourNgn.exceededBy count total ↔ 500000000 < total := by
  have hlimit : (500000000 : Int64).toInt = 500000000 := by decide
  simp [VelocityRule.exceededBy, amount1HourNgn, hlimit]

@[simp]
theorem exceededBy_amount24HourNgn :
    amount24HourNgn.exceededBy count total ↔ 2000000000 < total := by
  have hlimit : (2000000000 : Int64).toInt = 2000000000 := by decide
  simp [VelocityRule.exceededBy, amount24HourNgn, hlimit]

@[simp]
theorem exceededBy_crossBorder1Hour : crossBorder1Hour.exceededBy count total ↔ 3 < count := by
  simp [VelocityRule.exceededBy, crossBorder1Hour]

variable {count total}

/-- A window that one rule owns holds every event once. -/
theorem pass_of_own_window (rules done : List VelocityRule) (rule : VelocityRule)
    (history : List PaymentEvent) (event : PaymentEvent)
    (hspan : 0 ≤ rule.windowSecs.toInt64.toInt) (happlies : rule.applies event)
    (hdone : passes done event (rule.key event) = 0)
    (hown : ∀ e ∈ counted rule event history, passes rules e (rule.key event) = 1) :
    passCount rules done rule history event = exactCount rule history event ∧
      passTotal rules done rule history event = exactTotal rule history event := by
  have hcounts : (counted rule event history).map (fun e => passes rules e (rule.key event)) =
      (counted rule event history).map fun _ => 1 :=
    map_congr_left hown
  have htotals : ((counted rule event history).map fun e =>
      (passes rules e (rule.key event) : Int) * e.amountKobo.toInt) =
      (counted rule event history).map fun e => e.amountKobo.toInt := by
    apply map_congr_left
    intro e he
    rw [hown e he]
    simp
  constructor
  · unfold passCount exactCount
    rw [hcounts, hdone, counted_last hspan, if_pos happlies]
    simp
  · unfold passTotal exactTotal
    rw [htotals, hdone, counted_last hspan, if_pos happlies]
    simp

theorem reportsExactly_count1Min (hs : UpToDate defaultRules s) (horder : InOrder s delivery) :
    ReportsExactly count1Min s.history delivery.event (s.breaches delivery) ↔
      (5 < exactCount count1Min s.history delivery.event →
        FitsI64 (exactTotal count1Min s.history delivery.event)) := by
  obtain ⟨hcount, htotal⟩ := pass_of_own_window defaultRules [] count1Min s.history
    delivery.event (by decide) rfl rfl
    fun e he => (passes_defaultRules (account_of_counted he)).1
  rw [reportsExactly_iff_of_applies [] hs horder (by decide) rfl (by decide) rfl,
    hcount, htotal]
  simp [wrapI64_eq_self_iff]

theorem reportsExactly_amount24HourNgn (hs : UpToDate defaultRules s)
    (horder : InOrder s delivery) :
    ReportsExactly amount24HourNgn s.history delivery.event (s.breaches delivery) ↔
      (2000000000 < wrapI64 (exactTotal amount24HourNgn s.history delivery.event) ↔
        2000000000 < exactTotal amount24HourNgn s.history delivery.event) ∧
      (2000000000 < wrapI64 (exactTotal amount24HourNgn s.history delivery.event) →
        FitsI64 (exactTotal amount24HourNgn s.history delivery.event)) := by
  have hdone : passes [count1Min, count1Hour, amount1HourNgn] delivery.event
      (amount24HourNgn.key delivery.event) = 0 := by
    simp [passes, VelocityRule.key, count1Min, count1Hour, amount1HourNgn, amount24HourNgn]
  obtain ⟨hcount, htotal⟩ := pass_of_own_window defaultRules _ amount24HourNgn s.history
    delivery.event (by decide) rfl
    hdone fun e he => (passes_defaultRules (account_of_counted he)).2.2
  rw [reportsExactly_iff_of_applies [count1Min, count1Hour, amount1HourNgn] hs horder
    (by decide) rfl (by decide) rfl, hcount, htotal]
  simp [wrapI64_eq_self_iff]

/-- A rule on the hour sees every earlier event of the account at least twice. -/
theorem passCount_hour (rule : VelocityRule) (done : List VelocityRule)
    (hrule : rule.key event = count1Hour.key event) :
    passCount defaultRules done rule history event =
      ((counted rule event history).map hourCopies).sum +
        (passes done event (count1Hour.key event) + 1) := by
  unfold passCount
  rw [hrule]
  congr 2
  apply map_congr_left
  intro e he
  exact (passes_defaultRules (account_of_counted he)).2.1

theorem passTotal_hour (rule : VelocityRule) (done : List VelocityRule)
    (hrule : rule.key event = count1Hour.key event) :
    passTotal defaultRules done rule history event =
      ((counted rule event history).map fun e =>
        (hourCopies e : Int) * e.amountKobo.toInt).sum +
        (passes done event (count1Hour.key event) + 1) * event.amountKobo.toInt := by
  unfold passTotal
  rw [hrule]
  congr 2
  apply map_congr_left
  intro e he
  rw [(passes_defaultRules (account_of_counted he)).2.1]

theorem length_le_sum_hourCopies (events : List PaymentEvent) :
    2 * events.length ≤ (events.map hourCopies).sum := by
  induction events with
  | nil => simp
  | cons e rest ih =>
    have he : 2 ≤ hourCopies e := by
      unfold hourCopies
      split <;> omega
    simp only [length_cons, map_cons, sum_cons]
    omega

theorem passes_before_hour (event : PaymentEvent) :
    passes [count1Min] event (count1Hour.key event) = 0 ∧
      passes [count1Min, count1Hour] event (count1Hour.key event) = 1 ∧
      passes [count1Min, count1Hour, amount1HourNgn, amount24HourNgn] event
        (count1Hour.key event) = 2 := by
  simp [passes, VelocityRule.applies, VelocityRule.key, count1Min, count1Hour, amount1HourNgn,
    amount24HourNgn]

theorem counted_amount1HourNgn :
    counted amount1HourNgn event history = lastHour history event := rfl

theorem reportsExactly_count1Hour (hs : UpToDate defaultRules s) (horder : InOrder s delivery) :
    ReportsExactly count1Hour s.history delivery.event (s.breaches delivery) ↔
      ((lastHour s.history delivery.event).map hourCopies).sum + 1 ≤ 20 := by
  have hcount : passCount defaultRules [count1Min] count1Hour s.history delivery.event =
      ((lastHour s.history delivery.event).map hourCopies).sum + 1 := by
    rw [passCount_hour count1Hour [count1Min] rfl, (passes_before_hour _).1]
    rfl
  have hexact : exactCount count1Hour s.history delivery.event =
      (lastHour s.history delivery.event).length + 1 := by
    unfold exactCount
    rw [counted_last (by decide)]
    simp [VelocityRule.applies, count1Hour, lastHour]
  have hcopies := length_le_sum_hourCopies (lastHour s.history delivery.event)
  rw [reportsExactly_iff_of_applies [count1Min] hs horder (by decide) rfl
    (by decide) rfl, hcount, hexact]
  simp only [exceededBy_count1Hour]
  constructor
  · rintro ⟨hiff, hvalues⟩
    by_contra hover
    have hsame := (hvalues (by omega)).1
    omega
  · intro hle
    constructor
    · omega
    · omega

theorem reportsExactly_amount1HourNgn (hs : UpToDate defaultRules s)
    (horder : InOrder s delivery) :
    ReportsExactly amount1HourNgn s.history delivery.event (s.breaches delivery) ↔
      wrapI64 (((lastHour s.history delivery.event).map fun e =>
          (hourCopies e : Int) * e.amountKobo.toInt).sum +
            2 * delivery.event.amountKobo.toInt) ≤ 500000000 ∧
        exactTotal amount1HourNgn s.history delivery.event ≤ 500000000 := by
  have hcount : passCount defaultRules [count1Min, count1Hour] amount1HourNgn s.history
      delivery.event = ((lastHour s.history delivery.event).map hourCopies).sum + 2 := by
    rw [passCount_hour amount1HourNgn [count1Min, count1Hour] rfl, (passes_before_hour _).2.1]
    rfl
  have htotal : passTotal defaultRules [count1Min, count1Hour] amount1HourNgn s.history
      delivery.event = ((lastHour s.history delivery.event).map fun e =>
        (hourCopies e : Int) * e.amountKobo.toInt).sum +
          2 * delivery.event.amountKobo.toInt := by
    rw [passTotal_hour amount1HourNgn [count1Min, count1Hour] rfl, (passes_before_hour _).2.1]
    rfl
  have hexact : exactCount amount1HourNgn s.history delivery.event =
      (lastHour s.history delivery.event).length + 1 := by
    unfold exactCount
    rw [counted_last (by decide), counted_amount1HourNgn]
    simp [VelocityRule.applies, amount1HourNgn]
  have hcopies := length_le_sum_hourCopies (lastHour s.history delivery.event)
  rw [reportsExactly_iff_of_applies [count1Min, count1Hour] hs horder (by decide) rfl
    (by decide) rfl, hcount, htotal, hexact]
  simp only [exceededBy_amount1HourNgn]
  constructor
  · rintro ⟨hiff, hvalues⟩
    by_contra hover
    have hsame := (hvalues (by omega)).1
    omega
  · rintro ⟨hle, hexactLe⟩
    constructor
    · omega
    · omega

theorem crossBorder_of_counted {e : PaymentEvent}
    (h : e ∈ crossBorderLastHour history event) : e.crossBorder = true := by
  simp only [crossBorderLastHour, counted, mem_filter, Bool.and_eq_true] at h
  simpa [crossBorder1Hour] using h.2.2

theorem sum_hourCopies_crossBorder :
    ((crossBorderLastHour history event).map hourCopies).sum =
      3 * (crossBorderLastHour history event).length := by
  have hcopies : (crossBorderLastHour history event).map hourCopies =
      (crossBorderLastHour history event).map fun _ => 3 := by
    apply map_congr_left
    intro e he
    simp [hourCopies, crossBorder_of_counted he]
  rw [hcopies]
  simp [Nat.mul_comm]

theorem reportsExactly_crossBorder1Hour (hs : UpToDate defaultRules s)
    (horder : InOrder s delivery) :
    ReportsExactly crossBorder1Hour s.history delivery.event (s.breaches delivery) ↔
      (crossBorderLastHour s.history delivery.event).length ≤
        if delivery.event.crossBorder then 0 else 3 := by
  have hrules : defaultRules = [count1Min, count1Hour, amount1HourNgn, amount24HourNgn] ++
      crossBorder1Hour :: [] := rfl
  cases hkind : delivery.event.crossBorder with
  | true =>
    have happlies : crossBorder1Hour.applies delivery.event = true := by
      simp [VelocityRule.applies, hkind]
    have hcount : passCount defaultRules [count1Min, count1Hour, amount1HourNgn,
        amount24HourNgn] crossBorder1Hour s.history delivery.event =
        3 * (crossBorderLastHour s.history delivery.event).length + 3 := by
      rw [passCount_hour crossBorder1Hour _ rfl, ← sum_hourCopies_crossBorder,
        (passes_before_hour _).2.2]
      rfl
    have hexact : exactCount crossBorder1Hour s.history delivery.event =
        (crossBorderLastHour s.history delivery.event).length + 1 := by
      unfold exactCount
      rw [counted_last (by decide), if_pos happlies, length_append]
      rfl
    rw [reportsExactly_iff_of_applies _ hs horder (by decide) hrules (by decide) happlies,
      hcount, hexact]
    simp only [exceededBy_crossBorder1Hour, if_true]
    constructor
    · rintro ⟨hiff, hvalues⟩
      by_contra hover
      have hsame := (hvalues (by omega)).1
      omega
    · intro hle
      constructor
      · omega
      · omega
  | false =>
    have hskipped : ¬ crossBorder1Hour.applies delivery.event = true := by
      simp [VelocityRule.applies, hkind, crossBorder1Hour]
    have hexact : exactCount crossBorder1Hour s.history delivery.event =
        (crossBorderLastHour s.history delivery.event).length := by
      unfold exactCount
      rw [counted_last (by decide), if_neg hskipped, append_nil]
      rfl
    rw [reportsExactly_iff_of_skipped _ hs (by decide) hrules hskipped, hexact]
    simp

end DefaultRules

/-- Every default rule reports the delivery exactly. -/
def AllExact (s : Processing) (delivery : Delivery) : Prop :=
  ∀ rule ∈ defaultRules, ReportsExactly rule s.history delivery.event (s.breaches delivery)

instance (s : Processing) (delivery : Delivery) : Decidable (AllExact s delivery) :=
  inferInstanceAs (Decidable (∀ rule ∈ defaultRules, _))

theorem allExact_iff {s : Processing} {delivery : Delivery} (hs : UpToDate defaultRules s)
    (horder : InOrder s delivery) :
    AllExact s delivery ↔ ExactlyWhen s.history delivery.event := by
  have hall : AllExact s delivery ↔
      ReportsExactly count1Min s.history delivery.event (s.breaches delivery) ∧
      ReportsExactly count1Hour s.history delivery.event (s.breaches delivery) ∧
      ReportsExactly amount1HourNgn s.history delivery.event (s.breaches delivery) ∧
      ReportsExactly amount24HourNgn s.history delivery.event (s.breaches delivery) ∧
      ReportsExactly crossBorder1Hour s.history delivery.event (s.breaches delivery) := by
    simp [AllExact, defaultRules]
  rw [hall, reportsExactly_count1Min hs horder, reportsExactly_count1Hour hs horder,
    reportsExactly_amount1HourNgn hs horder, reportsExactly_amount24HourNgn hs horder,
    reportsExactly_crossBorder1Hour hs horder]
  unfold ExactlyWhen
  constructor
  · rintro ⟨hminute, hhour, hamount, hday, hcross⟩
    exact ⟨hhour, hamount, hcross, hminute, hday⟩
  · rintro ⟨hhour, hamount, hcross, hminute, hday⟩
    exact ⟨hminute, hhour, hamount, hday, hcross⟩

/-- For events in the order of their timestamps the engine with the default
rules reports exactly what happened if and only if every event meets
`ExactlyWhen` against the events before it. -/
theorem default_rules_exact_iff (deliveries : List Delivery)
    (horder : (deliveries.map fun d => d.event.timestamp).Pairwise (· ≤ ·)) :
    Meets feed AllExact (.start defaultRules) deliveries ↔
      Meets feed (fun s delivery => ExactlyWhen s.history delivery.event)
        (.start defaultRules) deliveries := by
  have hinOrder : Meets feed InOrder (.start defaultRules) deliveries := by
    apply inOrder_of_pairwise
    rw [show Processing.history (.start defaultRules) = [] from rfl, nil_append,
      map_map]
    exact horder
  exact meets_iff_meets (fun s a t hs ha h => upToDate_feed hs ha h)
    (fun s a t hs ha _ => allExact_iff hs ha) (upToDate_start defaultRules) hinOrder

/-- One event a second on one account, 1000 kobo each. -/
def everySecond (isCrossBorder : Option Bool) (n : Nat) : List Delivery :=
  (List.range n).map fun i =>
    { event :=
        { txRef := "TXN", accountId := "ACC-001", amountKobo := 1000, isCrossBorder
          tenantId := "tenant-001", timestamp := (i : Int) * 10 ^ 9 }
      alertIds := fun rule => rule.name }

/-- The second cross-border event within the hour is reported as the sixth. -/
theorem second_crossBorder_event_reported :
    ¬ ∀ deliveries : List Delivery,
      (deliveries.map fun d => d.event.timestamp).Pairwise (· ≤ ·) →
      Meets feed AllExact (.start defaultRules) deliveries := by
  intro h
  have horder : ((everySecond (some true) 2).map fun d => d.event.timestamp).Pairwise
      (· ≤ ·) := by
    decide
  have hnot : ¬ Meets feed AllExact (.start defaultRules) (everySecond (some true) 2) := by
    decide
  exact hnot (h _ horder)

theorem domestic_minute_reported_exactly :
    Meets feed AllExact (.start defaultRules) (everySecond none 8) :=
  (default_rules_exact_iff _ (by decide)).mpr (by decide)

end Bis.Velocity
