import Bis.Transition.Run
import Mathlib.Data.List.Chain

/-!
Requests that set the status of an AML alert, a SWIFT message or a regulatory report.
`review` and `updateCompliance` read the row, check the move and then write whatever the row
has become; `transition` writes only over the status that it has read, but says nothing
when the write hits no row; `resolveAlert` checks nothing. Where no status changes between a
read and its write, and alerts are resolved only from a status that allows it, the statuses
of every row follow its table.
-/

namespace Bis.Compliance

open Bis.Transition

/-! ### Statuses -/

inductive StatusTable where
  | amlAlerts | swiftMessages | regulatoryReports
  deriving DecidableEq

inductive Status where
  | «open» | underReview | escalated | cleared | filed | falsePositive
  | pending | blocked
  | draft | generated | reviewed | submitted | acknowledged | rejected
  deriving DecidableEq

def legalTransitions : StatusTable → Status → List Status
  | .amlAlerts, .«open» => [.underReview, .escalated, .cleared, .falsePositive]
  | .amlAlerts, .underReview => [.escalated, .cleared, .filed, .falsePositive]
  | .amlAlerts, .escalated => [.cleared, .filed]
  | .swiftMessages, .pending => [.cleared, .blocked, .escalated]
  | .swiftMessages, .escalated => [.cleared, .blocked]
  | .regulatoryReports, .draft => [.generated]
  | .regulatoryReports, .generated => [.reviewed]
  | .regulatoryReports, .reviewed => [.submitted]
  | .regulatoryReports, .submitted => [.acknowledged, .rejected]
  | .regulatoryReports, .rejected => [.draft]
  | _, _ => []

inductive Procedure where
  | review | resolveAlert | updateCompliance | transition
  deriving DecidableEq

def Procedure.table : Procedure → StatusTable
  | .review | .resolveAlert => .amlAlerts
  | .updateCompliance => .swiftMessages
  | .transition => .regulatoryReports

/-- The statuses that the input may name. -/
def Procedure.accepted : Procedure → List Status
  | .review => [.underReview, .escalated, .cleared, .filed, .falsePositive]
  | .resolveAlert => [.escalated, .cleared, .filed, .falsePositive]
  | .updateCompliance => [.pending, .cleared, .blocked, .escalated]
  | .transition => [.draft, .generated, .reviewed, .submitted, .acknowledged, .rejected]

structure StatusRow where
  tenantId : Option Nat
  status : Status

structure StatusRequest where
  procedure : Procedure
  id : Nat
  tenantId : Option Nat
  status : Status

def StatusRequest.key (request : StatusRequest) : StatusTable × Nat :=
  (request.procedure.table, request.id)

/-- Without a tenant an alert of any tenant is seen, and no row of the other tables. -/
def StatusRequest.sees (request : StatusRequest) (row : StatusRow) : Bool :=
  match request.tenantId with
  | some tenantId => row.tenantId == some tenantId
  | none => request.procedure.table == .amlAlerts

def StatusRequest.legalFrom (request : StatusRequest) (status : Status) : Prop :=
  request.status ∈ legalTransitions request.procedure.table status

instance (request : StatusRequest) (status : Status) : Decidable (request.legalFrom status) :=
  inferInstanceAs (Decidable (_ ∈ _))

/-! ### Requests -/

/-- A request that has returned keeps the status that its write has replaced, if it has
written. -/
inductive StatusPhase where
  | idle
  | checked (request : StatusRequest) (seen : Status)
  | returned (request : StatusRequest) (replaced : Option Status)
  | failed

/-- The statuses that a row has taken, the latest first, are history. -/
structure StatusDesk where
  rows : StatusTable × Nat → Option StatusRow
  taken : StatusTable × Nat → List Status
  phases : Nat → StatusPhase

/-- A request that is refused before it reads changes nothing and is no step. -/
inductive StatusStep where
  | read (call : Nat) (request : StatusRequest)
  | write (call : Nat)
  | resolve (call : Nat) (request : StatusRequest)

def StatusDesk.visible (s : StatusDesk) (request : StatusRequest) : Option StatusRow :=
  (s.rows request.key).filter request.sees

def StatusDesk.finish (s : StatusDesk) (call : Nat) (phase : StatusPhase) : StatusDesk :=
  { s with phases := Function.update s.phases call phase }

def StatusDesk.update (s : StatusDesk) (call : Nat) (request : StatusRequest)
    (row : StatusRow) : StatusDesk where
  rows := Function.update s.rows request.key (some { row with status := request.status })
  taken := Function.update s.taken request.key (request.status :: s.taken request.key)
  phases := Function.update s.phases call (.returned request (some row.status))

def StatusDesk.read (s : StatusDesk) (call : Nat) (request : StatusRequest) : StatusDesk :=
  match s.visible request with
  | some row =>
    s.finish call (if request.legalFrom row.status then .checked request row.status else .failed)
  | none => s.finish call .failed

/-- `review` reads its result and throws when there is none. -/
def StatusDesk.write (s : StatusDesk) (call : Nat) (request : StatusRequest) (seen : Status) :
    StatusDesk :=
  match s.visible request with
  | some row =>
    if request.procedure = .transition ∧ row.status ≠ seen then
      s.finish call (.returned request none)
    else s.update call request row
  | none =>
    s.finish call (if request.procedure = .review then .failed else .returned request none)

def StatusDesk.resolve (s : StatusDesk) (call : Nat) (request : StatusRequest) : StatusDesk :=
  match s.visible request with
  | some row => s.update call request row
  | none => s.finish call .failed

def statusStep : Step StatusDesk StatusStep
  | s, .read call request =>
    match s.phases call with
    | .idle =>
      if request.procedure ≠ .resolveAlert ∧ request.status ∈ request.procedure.accepted then
        some (s.read call request)
      else none
    | _ => none
  | s, .write call =>
    match s.phases call with
    | .checked request seen => some (s.write call request seen)
    | _ => none
  | s, .resolve call request =>
    match s.phases call with
    | .idle =>
      if request.procedure = .resolveAlert ∧ request.status ∈ request.procedure.accepted then
        some (s.resolve call request)
      else none
    | _ => none

def StatusDesk.start (rows : StatusTable × Nat → Option StatusRow) : StatusDesk :=
  ⟨rows, fun key => ((rows key).map StatusRow.status).toList, fun _ => .idle⟩

/-! ### The law -/

/-- The statuses of every row follow its table, and a request that has returned has made
one such move. -/
structure Sound (s : StatusDesk) : Prop where
  path : ∀ key, (s.taken key).IsChain fun new old => new ∈ legalTransitions key.1 old
  returned : ∀ call request replaced, s.phases call = .returned request replaced →
    ∃ old, replaced = some old ∧ request.legalFrom old

/-- The status is as it was read; an alert is resolved from a status that allows it. -/
def Undisturbed (s : StatusDesk) : StatusStep → Prop
  | .read _ _ => True
  | .write call => ∀ request seen, s.phases call = .checked request seen →
    ∀ row ∈ s.rows request.key, row.status = seen
  | .resolve _ request => ∀ row ∈ s.visible request, request.legalFrom row.status

structure Checked (s : StatusDesk) : Prop extends Sound s where
  checked : ∀ call request seen, s.phases call = .checked request seen →
    request.legalFrom seen ∧ ∃ row, s.visible request = some row
  latest : ∀ key, (s.taken key).head? = (s.rows key).map StatusRow.status

variable {s t : StatusDesk} {call : Nat} {request : StatusRequest}

theorem Checked.finish (h : Checked s) {phase : StatusPhase}
    (hchecked : ∀ request seen, phase = .checked request seen →
      request.legalFrom seen ∧ ∃ row, s.visible request = some row)
    (hreturned : ∀ request replaced, phase ≠ .returned request replaced) :
    Checked (s.finish call phase) where
  path := h.path
  returned other request replaced hphase := by
    by_cases hcall : other = call
    · subst hcall
      exact absurd ((Function.update_self ..).symm.trans hphase) (hreturned request replaced)
    · exact h.returned other request replaced ((Function.update_of_ne hcall ..).symm.trans hphase)
  checked other request seen hphase := by
    by_cases hcall : other = call
    · subst hcall
      exact hchecked request seen ((Function.update_self ..).symm.trans hphase)
    · exact h.checked other request seen ((Function.update_of_ne hcall ..).symm.trans hphase)
  latest := h.latest

theorem visible_iff {row : StatusRow} :
    s.visible request = some row ↔ s.rows request.key = some row ∧ request.sees row = true :=
  Option.filter_eq_some_iff

theorem Checked.update (h : Checked s) {row : StatusRow} (hrow : s.visible request = some row)
    (hlegal : request.legalFrom row.status) : Checked (s.update call request row) where
  path key := by
    by_cases hkey : key = request.key
    · subst hkey
      unfold StatusDesk.update
      dsimp only
      rw [Function.update_self]
      refine List.isChain_cons.mpr ⟨fun old hold => ?_, h.path request.key⟩
      rw [h.latest, (visible_iff.mp hrow).1] at hold
      cases hold
      exact hlegal
    · unfold StatusDesk.update
      dsimp only
      rw [Function.update_of_ne hkey]
      exact h.path key
  returned other request' replaced hphase := by
    by_cases hcall : other = call
    · subst hcall
      cases (Function.update_self ..).symm.trans hphase
      exact ⟨row.status, rfl, hlegal⟩
    · exact h.returned other request' replaced ((Function.update_of_ne hcall ..).symm.trans hphase)
  checked other request' seen hphase := by
    have hcall : other ≠ call := by
      rintro rfl
      cases (Function.update_self ..).symm.trans hphase
    obtain ⟨hfrom, row', hvisible⟩ :=
      h.checked other request' seen ((Function.update_of_ne hcall ..).symm.trans hphase)
    obtain ⟨hrow', hsees⟩ := visible_iff.mp hvisible
    refine ⟨hfrom, ?_⟩
    by_cases hkey : request'.key = request.key
    · have hsame : row' = row := by
        rw [hkey, (visible_iff.mp hrow).1] at hrow'
        exact (Option.some.inj hrow').symm
      subst hsame
      exact ⟨_, visible_iff.mpr ⟨(congrArg _ hkey).trans (Function.update_self ..), hsees⟩⟩
    · exact ⟨row', visible_iff.mpr ⟨(Function.update_of_ne hkey ..).trans hrow', hsees⟩⟩
  latest key := by
    by_cases hkey : key = request.key
    · subst hkey
      simp [StatusDesk.update]
    · simp [StatusDesk.update, Function.update_of_ne hkey, h.latest]

theorem Checked.step (h : Checked s) {a : StatusStep} (hundisturbed : Undisturbed s a)
    (hstep : statusStep s a = some t) : Checked t := by
  cases a with
  | read call request =>
    simp only [statusStep] at hstep
    split at hstep
    next =>
      split at hstep
      next =>
        cases hstep
        unfold StatusDesk.read
        split
        next row hrow =>
          refine h.finish (fun request' seen hphase => ?_) fun request' replaced => ?_
          · split at hphase
            next hlegal =>
              cases hphase
              exact ⟨hlegal, row, hrow⟩
            next => cases hphase
          · split <;> exact fun h => nomatch h
        next => exact h.finish (fun _ _ h => nomatch h) fun _ _ h => nomatch h
      next => cases hstep
    next => cases hstep
  | write call =>
    simp only [statusStep] at hstep
    split at hstep
    next request seen hphase =>
      cases hstep
      obtain ⟨hfrom, row, hrow⟩ := h.checked call request seen hphase
      have hseen := hundisturbed request seen hphase row (visible_iff.mp hrow).1
      simp only [StatusDesk.write, hrow, hseen, ne_eq, not_true, and_false, if_false]
      exact h.update hrow (hseen ▸ hfrom)
    next => cases hstep
  | resolve call request =>
    simp only [statusStep] at hstep
    split at hstep
    next =>
      split at hstep
      next =>
        cases hstep
        unfold StatusDesk.resolve
        split
        next row hrow => exact h.update hrow (hundisturbed row hrow)
        next => exact h.finish (fun _ _ h => nomatch h) fun _ _ h => nomatch h
      next => cases hstep
    next => cases hstep

theorem checked_start (rows : StatusTable × Nat → Option StatusRow) :
    Checked (StatusDesk.start rows) where
  path key := by
    change List.IsChain _ ((rows key).map StatusRow.status).toList
    cases rows key <;> simp
  returned _ _ _ h := nomatch h
  checked _ _ _ h := nomatch h
  latest key := by
    change ((rows key).map StatusRow.status).toList.head? = (rows key).map StatusRow.status
    cases rows key <;> rfl

/-- Where no status changes between a read and its write, statuses follow their tables. -/
theorem statuses_sound (rows : StatusTable × Nat → Option StatusRow) (labels : List StatusStep)
    (h : Meets statusStep Undisturbed (StatusDesk.start rows) labels) :
    Always statusStep Sound (StatusDesk.start rows) labels :=
  (always_of_meets (fun _ _ _ hchecked hundisturbed hstep => hchecked.step hundisturbed hstep)
    (checked_start rows) h).mono fun _ hchecked => hchecked.toSound

/-! Two officers review the same alert. -/

def underReviewAlert : StatusTable × Nat → Option StatusRow := fun key =>
  if key = (.amlAlerts, 1) then some ⟨none, .underReview⟩ else none

def reviewAs (status : Status) : StatusRequest := ⟨.review, 1, none, status⟩

/-- The second officer reads what the first one has written. -/
theorem reviews_in_turn_sound :
    Always statusStep Sound (StatusDesk.start underReviewAlert)
      [.read 0 (reviewAs .escalated), .write 0, .read 1 (reviewAs .filed), .write 1] := by
  refine statuses_sound underReviewAlert _ ?_
  refine .cons rfl trivial (.cons rfl ?_ (.cons rfl trivial (.cons rfl ?_ trivial)))
  · intro request seen hphase row hrow
    cases hphase
    cases hrow
    rfl
  · intro request seen hphase row hrow
    cases hphase
    cases hrow
    rfl

/-- The alert is filed and then escalated. -/
theorem filed_overwritten : ¬ ∀ (rows : StatusTable × Nat → Option StatusRow)
    (labels : List StatusStep), Always statusStep Sound (StatusDesk.start rows) labels := by
  intro h
  obtain ⟨finish, hrun, htaken⟩ : ∃ finish, run statusStep (StatusDesk.start underReviewAlert)
      [.read 0 (reviewAs .filed), .read 1 (reviewAs .escalated), .write 0, .write 1] =
        some finish ∧ finish.taken (.amlAlerts, 1) = [.escalated, .filed, .underReview] :=
    ⟨_, rfl, rfl⟩
  have hpath := ((h _ _).finish hrun).path (.amlAlerts, 1)
  rw [htaken] at hpath
  exact absurd (List.isChain_cons_cons.mp hpath).1 (by decide)

end Bis.Compliance
