import Bis.Window.Recent
import Mathlib.Algebra.Group.Int.Defs

/-!
The velocity engine: every rule looks at a sliding window of the payment
events of one account, and the windows are kept in a map that all rules share.
A window is three parallel deques. Instants are nanoseconds, amounts are `i64`
and their sum wraps as it does in a release build. The identifier drawn for an
alert is an argument.

`event_type`, `currency` and `rail` of an event are read by no function here.
-/

namespace Bis.Velocity

open List

structure PaymentEvent where
  (txRef accountId : String)
  amountKobo : Int64
  isCrossBorder : Option Bool
  tenantId : String
  timestamp : Int
  deriving DecidableEq

/-- `event.is_cross_border.unwrap_or(false)`. -/
def PaymentEvent.crossBorder (event : PaymentEvent) : Bool := event.isCrossBorder.getD false

structure VelocityRule where
  name : String
  windowSecs : UInt64
  countLimit : Option Nat
  amountLimitKobo : Option Int64
  crossBorderOnly : Bool
  riskLevel : String

def count1Min : VelocityRule :=
  { name := "COUNT_1MIN", windowSecs := 60, countLimit := some 5, amountLimitKobo := none
    crossBorderOnly := false, riskLevel := "high" }

def count1Hour : VelocityRule :=
  { name := "COUNT_1HOUR", windowSecs := 3600, countLimit := some 20, amountLimitKobo := none
    crossBorderOnly := false, riskLevel := "medium" }

def amount1HourNgn : VelocityRule :=
  { name := "AMOUNT_1HOUR_NGN", windowSecs := 3600, countLimit := none
    amountLimitKobo := some 500000000, crossBorderOnly := false, riskLevel := "high" }

def amount24HourNgn : VelocityRule :=
  { name := "AMOUNT_24HOUR_NGN", windowSecs := 86400, countLimit := none
    amountLimitKobo := some 2000000000, crossBorderOnly := false, riskLevel := "critical" }

def crossBorder1Hour : VelocityRule :=
  { name := "CROSS_BORDER_1HOUR", windowSecs := 3600, countLimit := some 3
    amountLimitKobo := none, crossBorderOnly := true, riskLevel := "high" }

def defaultRules : List VelocityRule :=
  [count1Min, count1Hour, amount1HourNgn, amount24HourNgn, crossBorder1Hour]

/-- `now - chrono::Duration::seconds(window_secs as i64)`. -/
def windowStart (now : Int) (windowSecs : UInt64) : Int :=
  now - windowSecs.toInt64.toInt * 10 ^ 9

structure SlidingWindow where
  timestamps : List Int := []
  amounts : List Int64 := []
  crossBorder : List Bool := []

/-- The loop of `evict_stale`; the three deques are popped together. -/
def evictLoop (cutoff : Int) : List Int → List Int64 → List Bool → SlidingWindow
  | [], amounts, crossBorder => ⟨[], amounts, crossBorder⟩
  | ts :: timestamps, amounts, crossBorder =>
    if ts < cutoff then evictLoop cutoff timestamps amounts.tail crossBorder.tail
    else ⟨ts :: timestamps, amounts, crossBorder⟩

def SlidingWindow.evictStale (window : SlidingWindow) (now : Int) (windowSecs : UInt64) :
    SlidingWindow :=
  evictLoop (windowStart now windowSecs) window.timestamps window.amounts window.crossBorder

def SlidingWindow.push (window : SlidingWindow) (ts : Int) (amountKobo : Int64)
    (isCrossBorder : Bool) : SlidingWindow :=
  { timestamps := window.timestamps ++ [ts]
    amounts := window.amounts ++ [amountKobo]
    crossBorder := window.crossBorder ++ [isCrossBorder] }

def SlidingWindow.count (window : SlidingWindow) (crossBorderOnly : Bool) : Nat :=
  if crossBorderOnly then (window.crossBorder.filter fun cb => cb).length
  else window.timestamps.length

def SlidingWindow.totalAmount (window : SlidingWindow) (crossBorderOnly : Bool) : Int64 :=
  (((window.amounts.zip window.crossBorder).filter fun x => !crossBorderOnly || x.2).map
    fun x => x.1).sum

structure VelocityBreach where
  (alertId accountId tenantId ruleName riskLevel : String)
  windowSecs : UInt64
  txCount : Nat
  totalAmountKobo : Int64
  triggeringTxRef : String
  detectedAt : Int
  deriving DecidableEq

abbrev WindowKey := String × UInt64

abbrev Windows := WindowKey → Option SlidingWindow

structure VelocityEngine where
  rules : List VelocityRule
  windows : Windows

def VelocityEngine.new (rules : List VelocityRule) : VelocityEngine :=
  { rules, windows := fun _ => none }

/-- `windows.entry(key).or_default()`. -/
def windowAt (windows : Windows) (key : WindowKey) : SlidingWindow := (windows key).getD {}

/-- The loop does not `continue` past this rule. -/
def VelocityRule.applies (rule : VelocityRule) (event : PaymentEvent) : Bool :=
  !(rule.crossBorderOnly && !event.crossBorder)

def VelocityRule.key (rule : VelocityRule) (event : PaymentEvent) : WindowKey :=
  (event.accountId, rule.windowSecs)

/-- The window a rule is evaluated on: stale entries evicted, the event added. -/
def slide (windows : Windows) (event : PaymentEvent) (rule : VelocityRule) : SlidingWindow :=
  ((windowAt windows (rule.key event)).evictStale event.timestamp rule.windowSecs).push
    event.timestamp event.amountKobo event.crossBorder

def evaluate (event : PaymentEvent) (alertId : String) (rule : VelocityRule)
    (window : SlidingWindow) : Option VelocityBreach :=
  let count := window.count rule.crossBorderOnly
  let total := window.totalAmount rule.crossBorderOnly
  let countBreach := rule.countLimit.any fun limit => decide (limit < count)
  let amountBreach := rule.amountLimitKobo.any fun limit => decide (limit < total)
  if countBreach || amountBreach then
    some
      { alertId
        accountId := event.accountId
        tenantId := event.tenantId
        ruleName := rule.name
        riskLevel := rule.riskLevel
        windowSecs := rule.windowSecs
        txCount := count
        totalAmountKobo := total
        triggeringTxRef := event.txRef
        detectedAt := event.timestamp }
  else none

/-- The loop of `process` over the rules. -/
def processRules (event : PaymentEvent) (alertIds : VelocityRule → String) :
    List VelocityRule → Windows → Windows × List VelocityBreach
  | [], windows => (windows, [])
  | rule :: rest, windows =>
    if rule.applies event then
      let window := slide windows event rule
      let later := processRules event alertIds rest
        (Function.update windows (rule.key event) (some window))
      (later.1, (evaluate event (alertIds rule) rule window).toList ++ later.2)
    else processRules event alertIds rest windows

def VelocityEngine.process (engine : VelocityEngine) (event : PaymentEvent)
    (alertIds : VelocityRule → String) : VelocityEngine × List VelocityBreach :=
  let result := processRules event alertIds engine.rules engine.windows
  ({ engine with windows := result.1 }, result.2)

/-! ### What the loop over the rules reports -/

variable {event : PaymentEvent} {alertIds : VelocityRule → String}

theorem processRules_append (first second : List VelocityRule) (windows : Windows) :
    processRules event alertIds (first ++ second) windows =
      ((processRules event alertIds second (processRules event alertIds first windows).1).1,
        (processRules event alertIds first windows).2 ++
          (processRules event alertIds second (processRules event alertIds first windows).1).2) := by
  induction first generalizing windows with
  | nil => rfl
  | cons rule rest ih =>
    rw [cons_append]
    simp only [processRules]
    split
    · rw [ih]
      simp only [append_assoc]
    · exact ih windows

variable {breach : VelocityBreach}

theorem ruleName_of_evaluate {alertId : String} {rule : VelocityRule} {window : SlidingWindow}
    (h : evaluate event alertId rule window = some breach) : breach.ruleName = rule.name := by
  simp only [evaluate] at h
  split at h
  · cases h
    rfl
  · cases h

theorem ruleName_mem_of_processRules {rules : List VelocityRule} {windows : Windows}
    (h : breach ∈ (processRules event alertIds rules windows).2) :
    breach.ruleName ∈ rules.map VelocityRule.name := by
  induction rules generalizing windows with
  | nil => cases h
  | cons rule rest ih =>
    rw [map_cons]
    simp only [processRules] at h
    split at h
    · rcases mem_append.mp h with h | h
      · rw [ruleName_of_evaluate (Option.mem_toList.mp h)]
        exact mem_cons_self
      · exact mem_cons_of_mem _ (ih h)
    · exact mem_cons_of_mem _ (ih h)

/-- Where rule names are distinct, the breaches that carry a rule's name are
those of its own pass, made on the windows the earlier passes left. -/
theorem mem_processRules_iff {done rest : List VelocityRule} {rule : VelocityRule}
    {windows : Windows} (hnames : ((done ++ rule :: rest).map VelocityRule.name).Nodup)
    (hname : breach.ruleName = rule.name) :
    breach ∈ (processRules event alertIds (done ++ rule :: rest) windows).2 ↔
      rule.applies event ∧ evaluate event (alertIds rule) rule
        (slide (processRules event alertIds done windows).1 event rule) = some breach := by
  rw [map_append, map_cons] at hnames
  obtain ⟨_, hrest, hdone⟩ := nodup_append.mp hnames
  have hnotDone : breach ∉ (processRules event alertIds done windows).2 := by
    intro h
    have hmem := ruleName_mem_of_processRules h
    exact hdone _ hmem _ mem_cons_self hname
  have hnotRest : ∀ windows', breach ∉ (processRules event alertIds rest windows').2 := by
    intro windows' h
    have hmem := ruleName_mem_of_processRules h
    rw [hname] at hmem
    exact (nodup_cons.mp hrest).1 hmem
  rw [processRules_append]
  simp only [mem_append, hnotDone, false_or, processRules]
  split
  next happlies =>
    simp only [mem_append, hnotRest, or_false, Option.mem_toList, happlies, true_and]
  next happlies =>
    simp [hnotRest, happlies]

end Bis.Velocity
