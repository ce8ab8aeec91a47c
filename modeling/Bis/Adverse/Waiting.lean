import Bis.Adverse.Steps
import Mathlib.Algebra.GroupWithZero.Nat

/-!
The waiting period of one case under any number of dispute holds. A pause keeps the
instant, and the resume turns what was left of the wait into whole seconds, rounded
to the nearest. So each stretch of waiting before a pause is charged in whole
seconds, rounded with a half down, and what the charges take too much is never
waited. The last part of a millisecond is not waited either, for instants are
compared as dates.
-/

namespace Bis.Adverse

variable {row : AdverseCase} {since : Nat} {holds : List Hold}

structure Hold where
  (pausedAt resumedAt : Nat)

/-- What the two steps of a hold write to the case. -/
def AdverseCase.hold (row : AdverseCase) (h : Hold) : AdverseCase :=
  (Write.continueWaiting h.resumedAt).apply ((Write.pause h.pausedAt).apply row)

def AdverseCase.heldThrough (row : AdverseCase) (holds : List Hold) : AdverseCase :=
  holds.foldl AdverseCase.hold row

/-- The holds follow each other, and each pause comes while the case waits. -/
def WithinWait : AdverseCase → Nat → List Hold → Prop
  | _, _, [] => True
  | row, since, h :: rest =>
    since ≤ h.pausedAt ∧ (∀ e ∈ row.finalNoticeEligibleAt, h.pausedAt ≤ e) ∧
      h.pausedAt ≤ h.resumedAt ∧ WithinWait (row.hold h) h.resumedAt rest

instance decidableWithinWait : (row : AdverseCase) → (since : Nat) → (holds : List Hold) →
    Decidable (WithinWait row since holds)
  | _, _, [] => isTrue trivial
  | row, _, h :: rest =>
    let _ := decidableWithinWait (row.hold h) h.resumedAt rest
    inferInstanceAs (Decidable (_ ∧ _))

/-- How long the case has waited before each of the pauses. -/
def stretches : Nat → List Hold → List Nat
  | _, [] => []
  | since, h :: rest => (h.pausedAt - since) :: stretches h.resumedAt rest

/-- Since when the case waits after the holds. -/
def waitsSince : Nat → List Hold → Nat
  | since, [] => since
  | _, h :: rest => waitsSince h.resumedAt rest

/-- The un-paused time up to an instant after the holds. -/
def unpaused (since : Nat) (holds : List Hold) (now : Nat) : Nat :=
  (stretches since holds).sum + (now - waitsSince since holds)

/-- What a stretch counts for: whole seconds, with a half rounded down. -/
def charge (stretch : Nat) : Nat := (stretch + 499999) / 1000000 * 1000000

def charged (since : Nat) (holds : List Hold) : Nat := ((stretches since holds).map charge).sum

theorem charged_nil (since : Nat) : charged since [] = 0 := rfl

theorem charged_cons (since : Nat) (h : Hold) (rest : List Hold) :
    charged since (h :: rest) = charge (h.pausedAt - since) + charged h.resumedAt rest := by
  simp [charged, stretches]

/-- One hold takes the charge of the stretch before it off a whole number of
seconds. -/
theorem hold_charges {seconds : Nat} {h : Hold}
    (he : row.finalNoticeEligibleAt = some (since + seconds * 1000000))
    (hsince : since ≤ h.pausedAt) (hwithin : h.pausedAt ≤ since + seconds * 1000000) :
    ∃ left, seconds * 1000000 = left * 1000000 + charge (h.pausedAt - since) ∧
      (row.hold h).finalNoticeEligibleAt = some (h.resumedAt + left * 1000000) := by
  have hremaining : ((Write.pause h.pausedAt).apply row).remainingSeconds =
      AdverseCase.roundSeconds (since + seconds * 1000000 - h.pausedAt) := by
    simp [AdverseCase.remainingSeconds, Write.apply, AdverseCase.pause, he]
  refine ⟨AdverseCase.roundSeconds (since + seconds * 1000000 - h.pausedAt), ?_, ?_⟩
  · unfold AdverseCase.roundSeconds charge
    omega
  · rw [← hremaining]
    rfl

/-- After all holds the period less the charges is left. -/
theorem heldThrough_eligible {seconds : Nat}
    (he : row.finalNoticeEligibleAt = some (since + seconds * 1000000))
    (hwithin : WithinWait row since holds) :
    ∃ left, seconds * 1000000 = left * 1000000 + charged since holds ∧
      (row.heldThrough holds).finalNoticeEligibleAt =
        some (waitsSince since holds + left * 1000000) := by
  induction holds generalizing row since seconds with
  | nil =>
    refine ⟨seconds, by rw [charged_nil, Nat.add_zero], ?_⟩
    rw [waitsSince]
    exact he
  | cons h rest ih =>
    obtain ⟨hsince, hbefore, -, hrest⟩ := hwithin
    have hreached := hbefore _ (Option.mem_def.mpr he)
    obtain ⟨left, hleft, heligible⟩ := hold_charges he hsince hreached
    obtain ⟨last, hlast, hfinal⟩ := ih heligible hrest
    refine ⟨last, ?_, ?_⟩
    · rw [hleft, hlast, charged_cons, Nat.add_assoc, Nat.add_comm (charged h.resumedAt rest)]
    · rw [waitsSince]
      exact hfinal

/-- A case has waited for its period at each instant at which the check of the
final notice passes exactly when the charges, with the part of a millisecond in
which its wait began or went on, are no more than the stretches they are for. -/
theorem waited_full_period_iff (row : AdverseCase) (startedAt : Nat) (holds : List Hold)
    (hwithin : WithinWait (row.startWaiting startedAt) startedAt holds) :
    (∀ e ∈ ((row.startWaiting startedAt).heldThrough holds).finalNoticeEligibleAt, ∀ now,
        waitsSince startedAt holds ≤ now → Tables.eligible e now →
          daysToMicroseconds row.waitingPeriodDays ≤ unpaused startedAt holds now) ↔
      charged startedAt holds + min (waitsSince startedAt holds % 1000)
          (daysToMicroseconds row.waitingPeriodDays - charged startedAt holds) ≤
        (stretches startedAt holds).sum := by
  have hperiod : daysToMicroseconds row.waitingPeriodDays =
      (row.waitingPeriodDays * 86400) * 1000000 := by
    unfold daysToMicroseconds
    omega
  have hstart : (row.startWaiting startedAt).finalNoticeEligibleAt =
      some (startedAt + (row.waitingPeriodDays * 86400) * 1000000) := by
    rw [← hperiod]
    rfl
  obtain ⟨left, hleft, heligible⟩ := heldThrough_eligible hstart hwithin
  rw [hperiod, hleft, heligible]
  unfold unpaused Tables.eligible
  generalize waitsSince startedAt holds = last
  generalize charged startedAt holds = taken
  generalize (stretches startedAt holds).sum = total
  constructor
  · intro h
    have hfirst := h _ rfl (max last ((last + left * 1000000) / 1000 * 1000)) (le_max_left _ _)
      (by simp only [decide_eq_true_eq]; omega)
    omega
  · intro h e he now hlast hcheck
    cases he
    simp only [decide_eq_true_eq] at hcheck
    omega

def fiveDays : AdverseCase :=
  { caseRef := "BIS-AA-1", tenantId := 7, screeningOrderId := 1, candidateId := 9
    status := .preNoticeQueued, waitingPeriodDays := 5, finalNoticeEligibleAt := none
    pausedFromStatus := none, pausedAt := none }

/-- Held after three seconds and again after less than a half of one. -/
theorem five_days_waited :
    WithinWait (fiveDays.startWaiting 0) 0 [⟨3000000, 9000000⟩, ⟨9400000, 9400000⟩] ∧
      ∀ e ∈ ((fiveDays.startWaiting 0).heldThrough
          [⟨3000000, 9000000⟩, ⟨9400000, 9400000⟩]).finalNoticeEligibleAt,
        ∀ now, 9400000 ≤ now → Tables.eligible e now →
          daysToMicroseconds 5 ≤ unpaused 0 [⟨3000000, 9000000⟩, ⟨9400000, 9400000⟩] now :=
  ⟨by decide, (waited_full_period_iff fiveDays 0 _ (by decide)).mpr (by decide)⟩

/-- Held once after 0.6 s: a whole second is charged, and 0.4 s are not waited. -/
theorem five_days_cut_short :
    WithinWait (fiveDays.startWaiting 0) 0 [⟨600000, 600000⟩] ∧
      ¬ ∀ e ∈ ((fiveDays.startWaiting 0).heldThrough [⟨600000, 600000⟩]).finalNoticeEligibleAt,
        ∀ now, 600000 ≤ now → Tables.eligible e now →
          daysToMicroseconds 5 ≤ unpaused 0 [⟨600000, 600000⟩] now := by
  refine ⟨by decide, ?_⟩
  intro h
  have hshort := h 431999600000 (by decide) 431999600000 (by decide) (by decide)
  exact absurd hshort (by decide)

end Bis.Adverse
