import Bis.Number.Machine
import Bis.Transition.Run
import Bis.Velocity.Engine
import Mathlib.Algebra.BigOperators.Group.List.Basic

/-!
What the shared windows hold. All rules with one window length push into the
same window, so an event stands in it once for every rule of that length it
passes. `logged` is that multiset, and the windows answer every later query as
the log does.
-/

namespace Bis.Velocity

open Bis.Window Bis.Number Bis.Transition List

/-- What one push adds to the three deques of a window. -/
structure Entry where
  timestamp : Int
  amountKobo : Int64
  crossBorder : Bool

def PaymentEvent.entry (event : PaymentEvent) : Entry :=
  ⟨event.timestamp, event.amountKobo, event.crossBorder⟩

namespace SlidingWindow

def ofEntries (entries : List Entry) : SlidingWindow :=
  { timestamps := entries.map Entry.timestamp
    amounts := entries.map Entry.amountKobo
    crossBorder := entries.map Entry.crossBorder }

/-- The entries `count` and `total_amount` look at. -/
def relevant (crossBorderOnly : Bool) (entries : List Entry) : List Entry :=
  entries.filter fun e => !crossBorderOnly || e.crossBorder

theorem evictStale_ofEntries (entries : List Entry) (now : Int) (windowSecs : UInt64) :
    (ofEntries entries).evictStale now windowSecs =
      ofEntries (evict Entry.timestamp (windowStart now windowSecs) entries) := by
  simp only [evictStale, ofEntries]
  induction entries with
  | nil => rfl
  | cons e rest ih =>
    simp only [map_cons, evictLoop, tail_cons]
    rcases lt_or_ge e.timestamp (windowStart now windowSecs) with he | he
    · have hpop : evict Entry.timestamp (windowStart now windowSecs) (e :: rest) =
          evict Entry.timestamp (windowStart now windowSecs) rest := by
        simp [evict, he]
      rw [if_pos he, hpop]
      exact ih
    · have hkeep : evict Entry.timestamp (windowStart now windowSecs) (e :: rest) = e :: rest := by
        simp [evict, he]
      rw [if_neg (not_lt.mpr he), hkeep]
      rfl

theorem push_ofEntries (entries : List Entry) (event : PaymentEvent) :
    (ofEntries entries).push event.timestamp event.amountKobo event.crossBorder =
      ofEntries (entries ++ [event.entry]) := by
  simp [push, ofEntries, PaymentEvent.entry]

theorem count_ofEntries (entries : List Entry) (crossBorderOnly : Bool) :
    (ofEntries entries).count crossBorderOnly = (relevant crossBorderOnly entries).length := by
  cases crossBorderOnly with
  | false => simp [count, ofEntries, relevant]
  | true =>
    simp only [count, ofEntries, relevant, if_true]
    rw [filter_map, length_map]
    rfl

theorem toInt_sum (amounts : List Int64) :
    amounts.sum.toInt = wrapI64 (amounts.map Int64.toInt).sum := by
  induction amounts with
  | nil => rfl
  | cons amount rest ih =>
    rw [sum_cons, Int64.toInt_add, ih, map_cons, sum_cons]
    exact Int.add_bmod_bmod

theorem totalAmount_ofEntries (entries : List Entry) (crossBorderOnly : Bool) :
    ((ofEntries entries).totalAmount crossBorderOnly).toInt =
      wrapI64 ((relevant crossBorderOnly entries).map fun e => e.amountKobo.toInt).sum := by
  have hzip : (entries.map Entry.amountKobo).zip (entries.map Entry.crossBorder) =
      entries.map fun e => (e.amountKobo, e.crossBorder) :=
    zip_map'
  simp only [totalAmount, ofEntries, relevant]
  rw [toInt_sum, hzip, filter_map, map_map, map_map]
  rfl

end SlidingWindow

/-- How often the loop over the rules pushes an event into the window at `key`. -/
def passes (rules : List VelocityRule) (event : PaymentEvent) (key : WindowKey) : Nat :=
  rules.countP fun rule => rule.applies event && rule.key event == key

/-- Everything a history has pushed into the window at `key`. -/
def logged (rules : List VelocityRule) (history : List PaymentEvent) (key : WindowKey) :
    List Entry :=
  history.flatMap fun event => List.replicate (passes rules event key) event.entry

theorem logged_append (rules : List VelocityRule) (history : List PaymentEvent)
    (event : PaymentEvent) (key : WindowKey) :
    logged rules (history ++ [event]) key =
      logged rules history key ++ List.replicate (passes rules event key) event.entry := by
  simp [logged]

/-- Every window answers the queries from `now` on as its log does. -/
def Tracks (now : Int) (windows : Windows) (logs : WindowKey → List Entry) : Prop :=
  ∀ key, ∃ entries, windowAt windows key = .ofEntries entries ∧
    Represents Entry.timestamp (windowStart now key.2) now entries (logs key)

section Passes

variable {event : PaymentEvent} {windows : Windows}
  {logs : WindowKey → List Entry}

theorem Tracks.advance {now later : Int} (h : Tracks now windows logs) (hlater : now ≤ later) :
    Tracks later windows logs := by
  intro key
  obtain ⟨entries, hwindow, hentries⟩ := h key
  refine ⟨entries, hwindow, hentries.advance ?_ hlater⟩
  unfold windowStart
  omega

/-- The window of a rule holds the recent part of its log and the event. -/
theorem Tracks.slide_eq (h : Tracks event.timestamp windows logs) (rule : VelocityRule) :
    slide windows event rule =
      .ofEntries (recent Entry.timestamp (windowStart event.timestamp rule.windowSecs)
        (logs (rule.key event)) ++ [event.entry]) := by
  obtain ⟨entries, hwindow, hentries⟩ := h (rule.key event)
  have hevict := hentries.evict_eq (le_refl _)
  simp only [slide, hwindow, SlidingWindow.evictStale_ofEntries, SlidingWindow.push_ofEntries]
  rw [show windowStart event.timestamp rule.windowSecs =
    windowStart event.timestamp (rule.key event).2 from rfl, hevict]

theorem Tracks.pass (h : Tracks event.timestamp windows logs) (rule : VelocityRule) :
    Tracks event.timestamp
      (Function.update windows (rule.key event) (some (slide windows event rule)))
      (fun key => logs key ++ if rule.key event = key then [event.entry] else []) := by
  intro key
  obtain ⟨entries, hwindow, hentries⟩ := h key
  rcases eq_or_ne (rule.key event) key with rfl | hkey
  · refine ⟨evict Entry.timestamp (windowStart event.timestamp rule.windowSecs) entries ++
      [event.entry], ?_, ?_⟩
    · simp only [windowAt, Function.update_self, Option.getD_some, slide]
      rw [show (windows (rule.key event)).getD {} = .ofEntries entries from hwindow,
        SlidingWindow.evictStale_ofEntries, SlidingWindow.push_ofEntries]
    · simp only [if_true]
      exact (hentries.evict (le_refl _)).push rfl
  · refine ⟨entries, ?_, ?_⟩
    · rw [← hwindow]
      unfold windowAt
      rw [Function.update_of_ne hkey.symm]
    · simp only [if_neg hkey, append_nil]
      exact hentries

/-- After the passes of `rules` every window also holds the event once for
each rule that pushed into it. -/
theorem Tracks.processRules (alertIds : VelocityRule → String) (rules : List VelocityRule)
    (h : Tracks event.timestamp windows logs) :
    Tracks event.timestamp (processRules event alertIds rules windows).1
      (fun key => logs key ++ List.replicate (passes rules event key) event.entry) := by
  induction rules generalizing windows logs with
  | nil => simpa [Velocity.processRules, passes] using h
  | cons rule rest ih =>
    simp only [Velocity.processRules]
    split
    next happlies =>
      have hnext := ih (h.pass rule)
      convert hnext using 2 with key
      rcases eq_or_ne (rule.key event) key with hkey | hkey
      · have hpasses : passes (rule :: rest) event key = passes rest event key + 1 := by
          simp [passes, happlies, hkey]
        rw [hpasses, if_pos hkey, append_assoc, replicate_succ]
        rfl
      · have hpasses : passes (rule :: rest) event key = passes rest event key := by
          simp [passes, hkey]
        rw [hpasses, if_neg hkey, append_nil]
    next happlies =>
      have hnext := ih h
      have hpasses : ∀ key, passes (rule :: rest) event key = passes rest event key := by
        intro key
        simp [passes, happlies]
      simpa only [hpasses] using hnext

end Passes

/-! ### Runs of the engine -/

/-- One payment event as it reaches the engine, with the identifiers drawn for
the alerts it may raise. -/
structure Delivery where
  event : PaymentEvent
  alertIds : VelocityRule → String

/-- The engine with the events it has processed. -/
structure Processing where
  engine : VelocityEngine
  history : List PaymentEvent

def Processing.start (rules : List VelocityRule) : Processing := ⟨.new rules, []⟩

def Processing.breaches (s : Processing) (delivery : Delivery) : List VelocityBreach :=
  (s.engine.process delivery.event delivery.alertIds).2

def feed : Step Processing Delivery := fun s delivery =>
  some ⟨(s.engine.process delivery.event delivery.alertIds).1, s.history ++ [delivery.event]⟩

/-- The event is not older than any event before it. -/
def InOrder (s : Processing) (delivery : Delivery) : Prop :=
  ∀ earlier ∈ s.history, earlier.timestamp ≤ delivery.event.timestamp

/-- The engine's windows are those of its history, from the newest event on. -/
structure UpToDate (rules : List VelocityRule) (s : Processing) : Prop where
  sameRules : s.engine.rules = rules
  tracks : ∀ now, (∀ event ∈ s.history, event.timestamp ≤ now) →
    Tracks now s.engine.windows (logged rules s.history)

theorem upToDate_start (rules : List VelocityRule) : UpToDate rules (.start rules) where
  sameRules := rfl
  tracks _ _ _ := ⟨[], rfl, Represents.empty _ _ _⟩

theorem upToDate_feed {rules : List VelocityRule} {s t : Processing} {delivery : Delivery}
    (hs : UpToDate rules s) (horder : InOrder s delivery) (h : feed s delivery = some t) :
    UpToDate rules t := by
  cases h
  constructor
  · exact hs.sameRules
  · intro now hnow
    have hlast : delivery.event.timestamp ≤ now := by
      apply hnow
      exact mem_append_right _ mem_cons_self
    have htracks := hs.tracks delivery.event.timestamp horder
    have hnext := (htracks.processRules delivery.alertIds rules).advance hlast
    have hlog := funext (logged_append rules s.history delivery.event)
    simp only [VelocityEngine.process, hs.sameRules]
    rw [hlog]
    exact hnext

theorem inOrder_of_pairwise {s : Processing} {deliveries : List Delivery}
    (h : ((s.history ++ deliveries.map Delivery.event).map PaymentEvent.timestamp).Pairwise
      (· ≤ ·)) :
    Meets feed InOrder s deliveries := by
  induction deliveries generalizing s with
  | nil => trivial
  | cons delivery rest ih =>
    intro t ht
    cases ht
    constructor
    · intro earlier hearlier
      rw [map_append] at h
      apply (pairwise_append.mp h).2.2
      · exact mem_map_of_mem hearlier
      · exact mem_cons_self
    · apply ih
      simpa [append_assoc] using h

end Bis.Velocity
