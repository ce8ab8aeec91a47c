import Bis.Transition.Run
import Mathlib.Data.List.Nodup

/-!
The circuit breaker in front of the provider of phone records. A lookup passes `allow`,
calls the provider and then passes `report`, which does not know the call that it speaks
for. So a call from before the circuit opened that reports late closes the circuit, opens it
anew or ends the probe. Where no call but the probe reports while the circuit is open, the
breaker keeps its promise.
-/

namespace Bis.Gateway

open Bis.Transition List

/-! ### The breaker -/

structure PhoneCircuitBreaker where
  failures : Nat
  openUntil : Option Nat
  halfOpen : Bool
  (threshold cooldown : Nat)

/-- Times are in nanoseconds. -/
def newPhoneCircuitBreaker (threshold cooldown : Int) : PhoneCircuitBreaker where
  failures := 0
  openUntil := none
  halfOpen := false
  threshold := if threshold ≤ 0 then 3 else threshold.toNat
  cooldown := if cooldown ≤ 0 then 30000000000 else cooldown.toNat

def PhoneCircuitBreaker.allow (b : PhoneCircuitBreaker) (now : Nat) :
    Bool × PhoneCircuitBreaker :=
  match b.openUntil with
  | none => (true, b)
  | some openUntil =>
    if now < openUntil then (false, b)
    else if b.halfOpen then (false, b)
    else (true, { b with halfOpen := true })

def PhoneCircuitBreaker.report (b : PhoneCircuitBreaker) (now : Nat) (failed : Bool) :
    PhoneCircuitBreaker :=
  if failed = false then { b with failures := 0, openUntil := none, halfOpen := false }
  else if b.halfOpen then
    { b with halfOpen := false, openUntil := some (now + b.cooldown), failures := b.threshold }
  else
    { b with
      failures := b.failures + 1
      openUntil := if b.threshold ≤ b.failures + 1 then some (now + b.cooldown) else b.openUntil }

/-! ### Lookups -/

/-- A call to the provider; a probe is one that was let through an open circuit. -/
structure ProviderCall where
  id : Nat
  probe : Bool

/-- The failures that were reported since the last success, and when the last of them that
came to the threshold was reported, are history that the breaker does not read. -/
structure Lookups where
  breaker : PhoneCircuitBreaker
  now : Nat
  calls : List ProviderCall
  streak : Nat
  trippedAt : Option Nat

inductive LookupStep where
  | allow (id now : Nat)
  | report (id now : Nat) (failed : Bool)

def Lookups.allow (s : Lookups) (id now : Nat) : Lookups :=
  let (allowed, breaker) := s.breaker.allow now
  let call := ⟨id, s.breaker.openUntil.isSome⟩
  { s with breaker, now, calls := if allowed then call :: s.calls else s.calls }

def Lookups.report (s : Lookups) (id now : Nat) (failed : Bool) : Lookups where
  breaker := s.breaker.report now failed
  now
  calls := s.calls.filter fun call => call.id != id
  streak := if failed then s.streak + 1 else 0
  trippedAt :=
    if failed ∧ s.breaker.threshold ≤ s.streak + 1 then some now else s.trippedAt

def lookupStep : Step Lookups LookupStep
  | s, .allow id now =>
    if s.now ≤ now ∧ id ∉ s.calls.map ProviderCall.id then some (s.allow id now) else none
  | s, .report id now failed =>
    if s.now ≤ now ∧ id ∈ s.calls.map ProviderCall.id then some (s.report id now failed)
    else none

def Lookups.start (threshold cooldown : Int) : Lookups :=
  ⟨newPhoneCircuitBreaker threshold cooldown, 0, [], 0, none⟩

/-! ### The law -/

/-- No call goes through between the last failure that came to the threshold and the end of
the cooldown, nor a second one through an open circuit, and no call but the probe changes
whether the circuit is open or probed. -/
def Lawful (s : Lookups) : LookupStep → Prop
  | .allow _ now => (s.breaker.allow now).1 = true →
    (∀ trippedAt ∈ s.trippedAt, trippedAt + s.breaker.cooldown ≤ now) ∧
      (s.breaker.openUntil ≠ none → ∀ call ∈ s.calls, call.probe = false)
  | .report id now failed => ∀ call ∈ s.calls, call.id = id → call.probe = false →
    s.breaker.openUntil ≠ none →
      (s.breaker.report now failed).openUntil = s.breaker.openUntil ∧
        (s.breaker.report now failed).halfOpen = s.breaker.halfOpen

def OneProbe (s : Lookups) : Prop := s.calls.countP ProviderCall.probe ≤ 1

/-- While the circuit is open, no call reports but the probe. -/
def Prompt (s : Lookups) : LookupStep → Prop
  | .allow _ _ => True
  | .report id _ _ => ∀ call ∈ s.calls, call.id = id → call.probe = false →
    s.breaker.openUntil = none

structure Guarded (s : Lookups) : Prop where
  ids : (s.calls.map ProviderCall.id).Nodup
  probes : s.calls.countP ProviderCall.probe = if s.breaker.halfOpen then 1 else 0
  closed : s.breaker.openUntil = none →
    s.breaker.halfOpen = false ∧ s.breaker.failures = s.streak
  probed : s.breaker.halfOpen = true → ∀ openUntil ∈ s.breaker.openUntil, openUntil ≤ s.now
  served : ∀ trippedAt ∈ s.trippedAt, trippedAt + s.breaker.cooldown ≤ s.now ∨
    ∃ openUntil ∈ s.breaker.openUntil, trippedAt + s.breaker.cooldown ≤ openUntil

theorem countP_report {calls : List ProviderCall} {call : ProviderCall}
    (hids : (calls.map ProviderCall.id).Nodup) (h : call ∈ calls) :
    calls.countP ProviderCall.probe =
      (calls.filter fun other => other.id != call.id).countP ProviderCall.probe +
        if call.probe then 1 else 0 := by
  obtain ⟨front, back, rfl⟩ := append_of_mem h
  rw [map_append, map_cons, nodup_middle, nodup_cons] at hids
  have hother : ∀ other ∈ front ++ back, (other.id != call.id) = true := by
    intro other hmem
    rw [bne_iff_ne]
    intro heq
    exact hids.1 (heq ▸ map_append ▸ mem_map_of_mem hmem)
  have hfront : front.filter (fun other => other.id != call.id) = front :=
    filter_eq_self.mpr fun other hmem => hother other (mem_append_left _ hmem)
  have hback : back.filter (fun other => other.id != call.id) = back :=
    filter_eq_self.mpr fun other hmem => hother other (mem_append_right _ hmem)
  rw [filter_append, filter_cons_of_neg (by simp), hfront, hback, countP_append,
    countP_append, countP_cons, Nat.add_assoc]

variable {s : Lookups}

theorem allow_cases (b : PhoneCircuitBreaker) (now : Nat) :
    (b.openUntil = none ∧ b.allow now = (true, b)) ∨
      (b.openUntil ≠ none ∧ b.allow now = (false, b)) ∨
      ∃ openUntil, b.openUntil = some openUntil ∧ openUntil ≤ now ∧ b.halfOpen = false ∧
        b.allow now = (true, { b with halfOpen := true }) := by
  unfold PhoneCircuitBreaker.allow
  cases hopen : b.openUntil with
  | none => exact Or.inl ⟨rfl, rfl⟩
  | some openUntil =>
    dsimp only
    by_cases hcool : now < openUntil
    · exact Or.inr (Or.inl ⟨nofun, if_pos hcool⟩)
    · rw [if_neg hcool]
      cases hhalf : b.halfOpen with
      | true => exact Or.inr (Or.inl ⟨nofun, rfl⟩)
      | false => exact Or.inr (Or.inr ⟨openUntil, rfl, Nat.le_of_not_lt hcool, rfl, rfl⟩)

theorem Guarded.waited (h : Guarded s) {now : Nat} (hnow : s.now ≤ now) :
    ∀ trippedAt ∈ s.trippedAt, trippedAt + s.breaker.cooldown ≤ now ∨
      ∃ openUntil ∈ s.breaker.openUntil, trippedAt + s.breaker.cooldown ≤ openUntil :=
  fun trippedAt htripped => (h.served trippedAt htripped).imp_left fun hle => Nat.le_trans hle hnow

theorem Guarded.allow (h : Guarded s) {id now : Nat} (hnow : s.now ≤ now)
    (hid : id ∉ s.calls.map ProviderCall.id) : Guarded (s.allow id now) := by
  have hprobed : s.breaker.halfOpen = true → ∀ openUntil ∈ s.breaker.openUntil,
      openUntil ≤ now := fun hhalf openUntil hopen => Nat.le_trans (h.probed hhalf openUntil hopen) hnow
  unfold Lookups.allow
  rcases allow_cases s.breaker now with
    ⟨hopen, hallow⟩ | ⟨_, hallow⟩ | ⟨openUntil, hopen, hover, hhalf, hallow⟩
  · rw [hallow]
    refine ⟨nodup_cons.mpr ⟨hid, h.ids⟩, ?_, h.closed, hprobed, h.waited hnow⟩
    simpa [hopen] using h.probes
  · rw [hallow]
    exact ⟨h.ids, h.probes, h.closed, hprobed, h.waited hnow⟩
  · rw [hallow]
    refine ⟨nodup_cons.mpr ⟨hid, h.ids⟩, ?_, fun hnone => ?_, fun _ other hother => ?_,
      h.waited hnow⟩
    · have hnone := h.probes
      rw [hhalf] at hnone
      simp only [hopen, Option.isSome_some, if_true, countP_cons, hnone, Bool.false_eq_true,
        if_false]
    · exact absurd (hopen.symm.trans hnone) nofun
    · obtain rfl : openUntil = other := Option.some.inj (hopen.symm.trans hother)
      exact hover

theorem Guarded.report (h : Guarded s) {id now : Nat} (hnow : s.now ≤ now) {failed : Bool}
    (hid : id ∈ s.calls.map ProviderCall.id) (hprompt : Prompt s (.report id now failed)) :
    Guarded (s.report id now failed) := by
  obtain ⟨call, hcall, rfl⟩ := mem_map.mp hid
  have hcount := countP_report h.ids hcall
  have hids : ((s.calls.filter fun other => other.id != call.id).map ProviderCall.id).Nodup :=
    h.ids.sublist (filter_sublist.map _)
  rw [h.probes] at hcount
  cases hprobe : call.probe with
  | true =>
    rw [hprobe] at hcount
    have hhalf : s.breaker.halfOpen = true := by
      cases hhalf : s.breaker.halfOpen with
      | true => rfl
      | false => simp [hhalf] at hcount
    have hnone : (s.calls.filter fun other => other.id != call.id).countP ProviderCall.probe = 0 := by
      simpa [hhalf] using hcount.symm
    have hover : ∀ trippedAt ∈ s.trippedAt, trippedAt + s.breaker.cooldown ≤ now := by
      intro trippedAt htripped
      rcases h.waited hnow trippedAt htripped with hle | ⟨openUntil, hopen, hle⟩
      · exact hle
      · exact Nat.le_trans hle (Nat.le_trans (h.probed hhalf openUntil hopen) hnow)
    cases failed with
    | false =>
      refine ⟨hids, hnone, fun _ => ⟨rfl, rfl⟩, nofun, fun trippedAt htripped => Or.inl ?_⟩
      exact hover trippedAt (by simpa [Lookups.report] using htripped)
    | true =>
      have hreport : s.breaker.report now true = { s.breaker with
          halfOpen := false
          openUntil := some (now + s.breaker.cooldown)
          failures := s.breaker.threshold } := by
        rw [PhoneCircuitBreaker.report, if_neg nofun, if_pos hhalf]
      unfold Lookups.report
      rw [hreport]
      refine ⟨hids, hnone, nofun, nofun, fun trippedAt htripped => Or.inr ⟨_, rfl, ?_⟩⟩
      dsimp only at htripped ⊢
      split at htripped
      · cases htripped
        exact Nat.le_refl _
      · exact Nat.le_trans (hover trippedAt htripped) (Nat.le_add_right _ _)
  | false =>
    have hopen := hprompt call hcall rfl hprobe
    obtain ⟨hhalf, hfailures⟩ := h.closed hopen
    have hnone : (s.calls.filter fun other => other.id != call.id).countP ProviderCall.probe = 0 := by
      simpa [hprobe, hhalf] using hcount.symm
    have hover : ∀ trippedAt ∈ s.trippedAt, trippedAt + s.breaker.cooldown ≤ now := by
      intro trippedAt htripped
      rcases h.waited hnow trippedAt htripped with hle | ⟨openUntil, hother, _⟩
      · exact hle
      · exact absurd (hopen.symm.trans hother) nofun
    cases failed with
    | false =>
      refine ⟨hids, hnone, fun _ => ⟨rfl, rfl⟩, nofun, fun trippedAt htripped => Or.inl ?_⟩
      exact hover trippedAt (by simpa [Lookups.report] using htripped)
    | true =>
      have hreport : s.breaker.report now true = { s.breaker with
          failures := s.streak + 1
          openUntil :=
            if s.breaker.threshold ≤ s.streak + 1 then some (now + s.breaker.cooldown)
            else none } := by
        rw [PhoneCircuitBreaker.report, if_neg nofun, if_neg (by simp [hhalf]), hfailures, hopen]
      unfold Lookups.report
      rw [hreport]
      by_cases htrips : s.breaker.threshold ≤ s.streak + 1
      · simp only [htrips, if_true, and_self]
        refine ⟨hids, by simpa [hhalf] using hnone, nofun, fun hyes => ?_, ?_⟩
        · exact absurd (hhalf.symm.trans hyes) nofun
        · intro trippedAt htripped
          cases htripped
          exact Or.inr ⟨_, rfl, Nat.le_refl _⟩
      · simp only [htrips, if_false, and_false]
        refine ⟨hids, by simpa [hhalf] using hnone, fun _ => ⟨hhalf, rfl⟩, nofun, ?_⟩
        exact fun trippedAt htripped => Or.inl (hover trippedAt htripped)

theorem guarded_step {t : Lookups} {a : LookupStep} (h : Guarded s) (hprompt : Prompt s a)
    (hstep : lookupStep s a = some t) : Guarded t := by
  cases a with
  | allow id now =>
    simp only [lookupStep] at hstep
    split at hstep
    next henabled =>
      cases hstep
      exact h.allow henabled.1 henabled.2
    next => cases hstep
  | report id now failed =>
    simp only [lookupStep] at hstep
    split at hstep
    next henabled =>
      cases hstep
      exact h.report henabled.1 henabled.2 hprompt
    next => cases hstep

theorem guarded_start (threshold cooldown : Int) : Guarded (Lookups.start threshold cooldown) :=
  ⟨nodup_nil, rfl, fun _ => ⟨rfl, rfl⟩, nofun, nofun⟩

theorem Guarded.oneProbe (h : Guarded s) : OneProbe s := by
  unfold OneProbe
  rw [h.probes]
  split <;> simp

theorem Guarded.lawful (h : Guarded s) {t : Lookups} {a : LookupStep} (hprompt : Prompt s a)
    (hstep : lookupStep s a = some t) : Lawful s a := by
  cases a with
  | allow id now =>
    simp only [lookupStep] at hstep
    split at hstep
    next henabled =>
      intro hallowed
      rcases allow_cases s.breaker now with
        ⟨hopen, hallow⟩ | ⟨_, hallow⟩ | ⟨openUntil, hopen, hover, hhalf, hallow⟩
      · refine ⟨fun trippedAt htripped => ?_, fun hne => absurd hopen hne⟩
        rcases h.waited henabled.1 trippedAt htripped with hle | ⟨openUntil, hother, _⟩
        · exact hle
        · exact absurd (hopen.symm.trans hother) nofun
      · rw [hallow] at hallowed
        cases hallowed
      · refine ⟨fun trippedAt htripped => ?_, fun _ => ?_⟩
        · rcases h.waited henabled.1 trippedAt htripped with hle | ⟨other, hother, hle⟩
          · exact hle
          · obtain rfl : openUntil = other := Option.some.inj (hopen.symm.trans hother)
            exact Nat.le_trans hle hover
        · have hnone := h.probes
          rw [hhalf] at hnone
          simpa using countP_eq_zero.mp hnone
    next => cases hstep
  | report id now failed =>
    intro call hcall hid hprobe hopen
    exact absurd (hprompt call hcall hid hprobe) hopen

/-- Where no call but the probe reports while the circuit is open, the breaker keeps its
promise at every step. -/
theorem breaker_lawful (threshold cooldown : Int) (labels : List LookupStep)
    (h : Meets lookupStep Prompt (Lookups.start threshold cooldown) labels) :
    Meets lookupStep Lawful (Lookups.start threshold cooldown) labels ∧
      Always lookupStep OneProbe (Lookups.start threshold cooldown) labels := by
  have hkeeps : ∀ s a t, Guarded s → Prompt s a → lookupStep s a = some t → Guarded t :=
    fun _ _ _ h hprompt hstep => guarded_step h hprompt hstep
  have hstart := guarded_start threshold cooldown
  have hlawful := meets_iff_meets (D := fun _ _ => True) hkeeps
    (fun _ _ _ h hprompt hstep => iff_true_intro (h.lawful hprompt hstep)) hstart h
  exact ⟨hlawful.mpr (Meets.of_forall fun _ _ _ => trivial),
    (always_of_meets hkeeps hstart h).mono fun _ h => h.oneProbe⟩

/-! Two failures open a circuit whose threshold is two; a third call was let through before. -/

def twoFailures : List LookupStep :=
  [.allow 0 0, .allow 1 0, .allow 2 0, .report 1 1 true, .report 2 1 true]

/-- Two failures in turn open the circuit; a call in the cooldown is turned down, and the probe
behind it closes the circuit. -/
def probedCircuit : List LookupStep :=
  [.allow 0 0, .report 0 1 true, .allow 1 1, .report 1 2 true, .allow 2 5, .allow 3 12,
    .report 3 13 false]

theorem probedCircuit_lawful :
    Meets lookupStep Lawful (Lookups.start 2 10) probedCircuit ∧
      Always lookupStep OneProbe (Lookups.start 2 10) probedCircuit := by
  refine breaker_lawful 2 10 _ <| .cons rfl trivial <| .cons rfl (fun _ _ _ _ => rfl) <|
    .cons rfl trivial <| .cons rfl (fun _ _ _ _ => rfl) <| .cons rfl trivial <|
    .cons rfl trivial <| .cons rfl ?_ trivial
  intro call hcall _ hprobe
  cases mem_singleton.mp hcall
  cases hprobe

/-- The third call succeeds, and a call goes through in the cooldown. -/
theorem late_success_closes : ¬ ∀ (threshold cooldown : Int) (labels : List LookupStep),
    Meets lookupStep Lawful (Lookups.start threshold cooldown) labels := by
  intro h
  have hmeets := h 2 10 ((twoFailures ++ [.report 0 2 false]) ++ [.allow 3 3])
  have hlast := (hmeets.append (t := _) rfl) _ rfl
  exact absurd ((hlast.1 rfl).1 1 rfl) (by decide)

end Bis.Gateway
