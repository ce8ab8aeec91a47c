import Bis.Velocity.Windows

/-!
The collection of stale windows between the events. It evicts every window with
the longest window of the rules, and what it evicts no later event would have
counted, as long as the cast to `i64` keeps the longest window the longest.

`fits` says whether chrono represents the seconds of a window and the instant
that lies so many seconds earlier; it panics otherwise, before a window is touched.
-/

namespace Bis.Velocity

open Bis.Window Bis.Number List Function Option

/-- `max().unwrap_or(86400)`. -/
def maxWindow (rules : List VelocityRule) : UInt64 :=
  (rules.map VelocityRule.windowSecs).max?.getD 86400

/-- The closure given to `retain`, on every window there is. -/
def retainFresh (now : Int) (windowSecs : UInt64) (windows : Windows) : Windows := fun key =>
  (windows key).bind fun window =>
    let window := window.evictStale now windowSecs
    if window.timestamps.isEmpty then none else some window

/-- A panic ends the task that collects, and the engine stays as it was. -/
def VelocityEngine.gc (fits : Int → UInt64 → Bool) (engine : VelocityEngine) (now : Int) :
    VelocityEngine :=
  if fits now (maxWindow engine.rules) then
    { engine with windows := retainFresh now (maxWindow engine.rules) engine.windows }
  else engine

inductive Call where
  | process (delivery : Delivery)
  | gc (now : Int)

def Call.isProcess : Call → Bool
  | .process _ => true
  | .gc _ => false

/-- A rule that the event meets has a window chrono does not represent. -/
def panics (fits : Int → UInt64 → Bool) (rules : List VelocityRule) (event : PaymentEvent) : Bool :=
  rules.any fun rule => rule.applies event && !fits event.timestamp rule.windowSecs

/-- What `process` reports, call after call, until it panics. -/
def reported (fits : Int → UInt64 → Bool) : VelocityEngine → List Call →
    List (List VelocityBreach)
  | _, [] => []
  | engine, .gc now :: rest => reported fits (engine.gc fits now) rest
  | engine, .process delivery :: rest =>
    if panics fits engine.rules delivery.event then []
    else
      let result := engine.process delivery.event delivery.alertIds
      result.2 :: reported fits result.1 rest

/-- The clock of a collection is not later than the events that follow. -/
def ClockBefore : Call → Call → Prop
  | .gc now, .process delivery => now ≤ delivery.event.timestamp
  | _, _ => True

/-- The longest window is still the longest as an `i64`. -/
def CastKeepsMax (rules : List VelocityRule) : Prop :=
  ∀ rule ∈ rules, rule.windowSecs.toInt64.toInt ≤ (maxWindow rules).toInt64.toInt

/-! ### What is forgotten is not missed -/

/-- The windows of the rules answer alike at the given instants. -/
def SameAt (rules : List VelocityRule) (instants : Int → Prop) (windows windows' : Windows) : Prop :=
  ∀ key : WindowKey, (∃ rule ∈ rules, rule.windowSecs = key.2) →
    ∃ entries entries', windowAt windows key = .ofEntries entries ∧
      windowAt windows' key = .ofEntries entries' ∧
      ∀ t, instants t → evict Entry.timestamp (windowStart t key.2) entries =
        evict Entry.timestamp (windowStart t key.2) entries'

section Simulation

variable {rules : List VelocityRule} {instants : Int → Prop} {windows windows' : Windows}

theorem sameAt_new (rules : List VelocityRule) (instants : Int → Prop) :
    SameAt rules instants (fun _ => none) (fun _ => none) := by
  intro key _
  exact ⟨[], [], rfl, rfl, fun _ _ => rfl⟩

theorem SameAt.mono {later : Int → Prop} (h : SameAt rules instants windows windows')
    (hlater : ∀ t, later t → instants t) : SameAt rules later windows windows' := by
  intro key hkey
  obtain ⟨entries, entries', hwindow, hwindow', hsame⟩ := h key hkey
  exact ⟨entries, entries', hwindow, hwindow', fun t ht => hsame t (hlater t ht)⟩

variable {event : PaymentEvent}

theorem SameAt.slide_eq {rule : VelocityRule} (h : SameAt rules instants windows windows')
    (hevent : instants event.timestamp) (hrule : rule ∈ rules) :
    slide windows event rule = slide windows' event rule := by
  obtain ⟨entries, entries', hwindow, hwindow', hsame⟩ := h (rule.key event) ⟨rule, hrule, rfl⟩
  have hevict : evict Entry.timestamp (windowStart event.timestamp rule.windowSecs) entries =
      evict Entry.timestamp (windowStart event.timestamp rule.windowSecs) entries' :=
    hsame event.timestamp hevent
  simp only [slide, hwindow, hwindow', SlidingWindow.evictStale_ofEntries, hevict]

/-- A pass leaves the same window on both sides. -/
theorem SameAt.pass {rule : VelocityRule} (h : SameAt rules instants windows windows')
    (hevent : instants event.timestamp) (hrule : rule ∈ rules) :
    SameAt rules instants
      (update windows (rule.key event) (some (slide windows event rule)))
      (update windows' (rule.key event) (some (slide windows' event rule))) := by
  intro key hkey
  rcases eq_or_ne key (rule.key event) with rfl | hne
  · obtain ⟨entries, _, hwindow, _, _⟩ := h (rule.key event) hkey
    have hslide : slide windows event rule =
        .ofEntries (evict Entry.timestamp (windowStart event.timestamp rule.windowSecs) entries ++
          [event.entry]) := by
      simp only [slide, hwindow, SlidingWindow.evictStale_ofEntries, SlidingWindow.push_ofEntries]
    have hupdated : ∀ windows : Windows, windowAt (update windows (rule.key event)
        (some (slide windows event rule))) (rule.key event) = slide windows event rule := by
      intro windows
      rw [windowAt, update_self, getD_some]
    refine ⟨_, _, (hupdated windows).trans hslide, ?_, fun _ _ => rfl⟩
    rw [hupdated, ← h.slide_eq hevent hrule, hslide]
  · obtain ⟨entries, entries', hwindow, hwindow', hsame⟩ := h key hkey
    refine ⟨entries, entries', ?_, ?_, hsame⟩
    · rw [← hwindow, windowAt, windowAt, update_of_ne hne]
    · rw [← hwindow', windowAt, windowAt, update_of_ne hne]

theorem SameAt.processRules {alertIds : VelocityRule → String} {passed : List VelocityRule}
    (h : SameAt rules instants windows windows') (hevent : instants event.timestamp)
    (hpassed : ∀ rule ∈ passed, rule ∈ rules) :
    (processRules event alertIds passed windows).2 =
        (processRules event alertIds passed windows').2 ∧
      SameAt rules instants (processRules event alertIds passed windows).1
        (processRules event alertIds passed windows').1 := by
  induction passed generalizing windows windows' with
  | nil => exact ⟨rfl, h⟩
  | cons rule rest ih =>
    obtain ⟨hrule, hrest⟩ := forall_mem_cons.mp hpassed
    simp only [Velocity.processRules]
    split
    · obtain ⟨hbreaches, hwindows⟩ := ih (h.pass hevent hrule) hrest
      exact ⟨by rw [hbreaches, h.slide_eq hevent hrule], hwindows⟩
    · exact ih h hrest

theorem windowAt_retainFresh {entries : List Entry} {key : WindowKey} {now : Int}
    {windowSecs : UInt64} (hwindow : windowAt windows key = .ofEntries entries) :
    windowAt (retainFresh now windowSecs windows) key =
      .ofEntries (evict Entry.timestamp (windowStart now windowSecs) entries) := by
  rw [← SlidingWindow.evictStale_ofEntries, ← hwindow]
  unfold windowAt retainFresh
  cases hkey : windows key with
  | none => rfl
  | some window =>
    have hentries : window = .ofEntries entries := by
      rw [← hwindow, windowAt, hkey, getD_some]
    simp only [bind_some, getD_some]
    split
    next hempty =>
      -- a window of entries that has no timestamps has nothing else either
      rw [hentries, SlidingWindow.evictStale_ofEntries] at hempty ⊢
      generalize evict Entry.timestamp (windowStart now windowSecs) entries = kept at hempty ⊢
      have hkept : kept = [] := by simpa [SlidingWindow.ofEntries] using hempty
      rw [hkept]
      rfl
    · rfl

/-- Collecting up to an instant changes no later answer. -/
theorem SameAt.retainFresh {now : Int} (h : SameAt rules instants windows windows')
    (hcast : CastKeepsMax rules) (hnow : ∀ t, instants t → now ≤ t) :
    SameAt rules instants (retainFresh now (maxWindow rules) windows) windows' := by
  intro key hkey
  obtain ⟨entries, entries', hwindow, hwindow', hsame⟩ := h key hkey
  obtain ⟨rule, hrule, hsecs⟩ := hkey
  refine ⟨_, entries', windowAt_retainFresh hwindow, hwindow', ?_⟩
  intro t ht
  have hlonger := hcast rule hrule
  have hearlier : windowStart now (maxWindow rules) ≤ windowStart t key.2 := by
    have hclock := hnow t ht
    rw [hsecs] at hlonger
    unfold windowStart
    omega
  rw [evict_evict hearlier]
  exact hsame t ht

/-- The instants of the events among the calls. -/
def EventAt (calls : List Call) (t : Int) : Prop :=
  ∃ delivery, .process delivery ∈ calls ∧ t = delivery.event.timestamp

/-- Two engines that answer alike at the instants to come report the same, if
only the first is collected. -/
theorem reported_eq {fits : Int → UInt64 → Bool} {engine engine' : VelocityEngine}
    {calls : List Call} (hrules : engine.rules = rules) (hrules' : engine'.rules = rules)
    (hcast : CastKeepsMax rules) (hclock : calls.Pairwise ClockBefore)
    (hsame : SameAt rules (EventAt calls) engine.windows engine'.windows) :
    reported fits engine calls = reported fits engine' (calls.filter Call.isProcess) := by
  induction calls generalizing engine engine' with
  | nil => rfl
  | cons call rest ih =>
    obtain ⟨hfirst, hrest⟩ := pairwise_cons.mp hclock
    have hremain : ∀ t, EventAt rest t → EventAt (call :: rest) t := by
      rintro t ⟨delivery, hmem, ht⟩
      exact ⟨delivery, mem_cons_of_mem _ hmem, ht⟩
    cases call with
    | gc now =>
      rw [filter_cons_of_neg (by simp [Call.isProcess]), reported, VelocityEngine.gc]
      split
      · rw [hrules]
        apply ih rfl hrules' hrest
        apply (hsame.mono hremain).retainFresh hcast
        rintro t ⟨delivery, hmem, rfl⟩
        exact hfirst _ hmem
      · exact ih hrules hrules' hrest (hsame.mono hremain)
    | process delivery =>
      rw [filter_cons_of_pos rfl]
      simp only [reported, VelocityEngine.process, hrules, hrules']
      split
      · rfl
      · obtain ⟨hbreaches, hwindows⟩ := hsame.processRules ⟨delivery, mem_cons_self, rfl⟩
          fun _ hrule => hrule
        rw [hbreaches]
        congr 1
        exact ih rfl rfl hrest (hwindows.mono hremain)

end Simulation

theorem windowSecs_le_maxWindow {rules : List VelocityRule} {rule : VelocityRule}
    (h : rule ∈ rules) :
    rule.windowSecs.toNat ≤ (maxWindow rules).toNat ∧
      ∃ longest ∈ rules, maxWindow rules = longest.windowSecs := by
  have : Std.LawfulOrderMax UInt64 := by
    apply Std.LawfulOrderMax.of_max_le_iff
    · intro a b c
      change (if a ≤ b then b else a) ≤ c ↔ a ≤ c ∧ b ≤ c
      simp only [UInt64.le_iff_toNat_le]
      split <;> omega
    · intro a b
      change (if a ≤ b then b else a) = a ∨ (if a ≤ b then b else a) = b
      split <;> simp
  have hmem : rule.windowSecs ∈ rules.map VelocityRule.windowSecs := mem_map_of_mem h
  obtain ⟨longest, hlongest⟩ := isSome_iff_exists.mp (isSome_max?_of_mem hmem)
  have hmax : maxWindow rules = longest := by rw [maxWindow, hlongest, getD_some]
  obtain ⟨hin, hge⟩ := max?_eq_some_iff.mp hlongest
  obtain ⟨other, hother, hsecs⟩ := mem_map.mp hin
  rw [hmax]
  exact ⟨UInt64.le_iff_toNat_le.mp (hge _ hmem), other, hother, hsecs.symm⟩

/-- Windows that are not negative as an `i64` keep their order in the cast. -/
theorem castKeepsMax_of_nonneg {rules : List VelocityRule}
    (h : ∀ rule ∈ rules, 0 ≤ rule.windowSecs.toInt64.toInt) : CastKeepsMax rules := by
  intro rule hrule
  obtain ⟨hle, longest, hmem, hlongest⟩ := windowSecs_le_maxWindow hrule
  rw [hlongest] at hle ⊢
  rw [toInt_toInt64_of_nonneg (h rule hrule), toInt_toInt64_of_nonneg (h longest hmem)]
  omega

/-- Collecting changes no breach, if the longest window stays the longest in the
cast. The order of the events among each other plays no part. -/
theorem reported_without_gc (fits : Int → UInt64 → Bool) (rules : List VelocityRule)
    (calls : List Call) (hclock : calls.Pairwise ClockBefore) (hcast : CastKeepsMax rules) :
    reported fits (.new rules) calls = reported fits (.new rules) (calls.filter Call.isProcess) :=
  reported_eq rfl rfl hcast hclock (sameAt_new rules _)

/-- Payments of 100 naira in one second. -/
def smallCall : Call :=
  .process ⟨⟨"TX", "ACC-001", 10000, none, "tenant-001", 1781611200000000000⟩, fun _ => "alert"⟩

/-- Five of them, a collection in the same second, and one more. -/
def collectedBetween : List Call :=
  List.replicate 5 smallCall ++ [.gc 1781611200000000000, smallCall]

theorem collectedBetween_pairwise : collectedBetween.Pairwise ClockBefore := by
  simp [collectedBetween, smallCall, List.replicate, ClockBefore]

theorem default_reported_without_gc :
    collectedBetween.Pairwise ClockBefore ∧ CastKeepsMax defaultRules ∧
      reported (fun _ _ => true) (.new defaultRules) collectedBetween =
        reported (fun _ _ => true) (.new defaultRules) (collectedBetween.filter Call.isProcess) := by
  have hcast : CastKeepsMax defaultRules := castKeepsMax_of_nonneg (by decide)
  exact ⟨collectedBetween_pairwise, hcast,
    reported_without_gc _ _ _ collectedBetween_pairwise hcast⟩

/-- A rule over all time, next to the one over a minute. -/
def rulesWithoutEnd : List VelocityRule :=
  [count1Min, { name := "COUNT_EVER", windowSecs := 18446744073709551615, countLimit := some 1000
                amountLimitKobo := none, crossBorderOnly := false, riskLevel := "low" }]

theorem sixth_payment_unreported :
    collectedBetween.Pairwise ClockBefore ∧
      (reported (fun _ _ => true) (.new rulesWithoutEnd) collectedBetween).map List.length =
        [0, 0, 0, 0, 0, 0] ∧
      (reported (fun _ _ => true) (.new rulesWithoutEnd)
        (collectedBetween.filter Call.isProcess)).map List.length = [0, 0, 0, 0, 0, 1] :=
  ⟨collectedBetween_pairwise, by decide, by decide⟩

end Bis.Velocity
