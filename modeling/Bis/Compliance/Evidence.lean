import Bis.Transition.Run
import Mathlib.Data.List.Chain

/-!
Requests on one item of evidence. A transfer reads the item, extends its chain of custody and
writes the chain back where the status is still the one that it has read. A verification
compares two hashes when it has both. The last action is the status of the item in every run;
where each transfer writes over the chain that it has read, the chain grows by its entry.
-/

namespace Bis.Compliance

open Bis.Transition

/-! ### Items -/

inductive EvidenceStatus where
  | collected | inTransit | secured | analyzed | submitted | returned | destroyed
  deriving DecidableEq

structure CustodyEntry where
  timestamp : Nat
  action : EvidenceStatus
  «by» : Nat
  byName : Option String
  notes : String

structure EvidenceItem where
  tenantId : Option Nat
  status : EvidenceStatus
  fileHash : Option String
  chainOfCustody : List CustodyEntry
  integrityVerified : Bool
  (integrityVerifiedAt integrityVerifiedBy : Option Nat)

structure EvidenceUser where
  id : Nat
  name : Option String
  tenantId : Option Nat

def initialCustody (user : EvidenceUser) (now : Nat) : CustodyEntry :=
  ⟨now, .collected, user.id, user.name, "Initial collection"⟩

/-- The tenant is not among the values that are inserted. -/
def EvidenceItem.create (user : EvidenceUser) (fileHash : Option String) (now : Nat) :
    EvidenceItem :=
  ⟨none, .collected, fileHash, [initialCustody user now], false, none, none⟩

/-- A user without a tenant is refused. -/
def EvidenceItem.isSeenBy (item : EvidenceItem) (user : EvidenceUser) : Bool :=
  user.tenantId.isSome && item.tenantId == user.tenantId

structure CustodyTransfer where
  user : EvidenceUser
  toStatus : EvidenceStatus
  notes : Option String

def CustodyTransfer.newEntry (request : CustodyTransfer) (now : Nat) : CustodyEntry :=
  ⟨now, request.toStatus, request.user.id, request.user.name, request.notes.getD ""⟩

structure IntegrityCheck where
  user : EvidenceUser
  computedHash : Option String

/-- A missing hash and an empty one count as equal to any. -/
def hashMatch (computedHash fileHash : Option String) : Bool :=
  computedHash.getD "" == "" || fileHash.getD "" == "" || computedHash == fileHash

/-! ### Requests -/

inductive EvidencePhase where
  | idle
  | transferring (request : CustodyTransfer) (current : EvidenceItem)
  | verifying (request : IntegrityCheck) (item : EvidenceItem)
  | returned
  | failed

/-- The entries of the transfers that have returned the item, all the chains that it has had,
the latest first, and the two hashes of the last verification are history. -/
structure EvidenceDesk where
  item : EvidenceItem
  phases : Nat → EvidencePhase
  returned : List CustodyEntry
  chains : List (List CustodyEntry)
  hashes : Option (Option String × Option String)

inductive EvidenceStep where
  | transferCustody (call : Nat) (request : CustodyTransfer)
  | writeTransfer (call now : Nat)
  | verifyIntegrity (call : Nat) (request : IntegrityCheck)
  | writeVerification (call now : Nat)

def EvidenceDesk.setPhase (s : EvidenceDesk) (call : Nat) (phase : EvidencePhase) :
    EvidenceDesk :=
  { s with phases := Function.update s.phases call phase }

def EvidenceDesk.writeTransfer (s : EvidenceDesk) (request : CustodyTransfer)
    (current : EvidenceItem) (now : Nat) : EvidenceDesk :=
  if s.item.isSeenBy request.user ∧ s.item.status = current.status then
    let newEntry := request.newEntry now
    let chain := current.chainOfCustody ++ [newEntry]
    { s with
      item := { s.item with status := request.toStatus, chainOfCustody := chain }
      returned := s.returned ++ [newEntry]
      chains := chain :: s.chains }
  else s

def EvidenceDesk.writeVerification (s : EvidenceDesk) (request : IntegrityCheck)
    (item : EvidenceItem) (now : Nat) : EvidenceDesk :=
  if s.item.isSeenBy request.user then
    { s with
      item := { s.item with
        integrityVerified := hashMatch request.computedHash item.fileHash
        integrityVerifiedAt := some now
        integrityVerifiedBy := some request.user.id }
      hashes := some (request.computedHash, item.fileHash) }
  else s

def evidenceStep : Step EvidenceDesk EvidenceStep
  | s, .transferCustody call request =>
    match s.phases call with
    | .idle =>
      if request.toStatus = .collected then none
      else
        some (s.setPhase call
          (if s.item.isSeenBy request.user then .transferring request s.item else .failed))
    | _ => none
  | s, .writeTransfer call now =>
    match s.phases call with
    | .transferring request current =>
      some ((s.writeTransfer request current now).setPhase call .returned)
    | _ => none
  | s, .verifyIntegrity call request =>
    match s.phases call with
    | .idle =>
      some (s.setPhase call
        (if s.item.isSeenBy request.user then .verifying request s.item else .failed))
    | _ => none
  | s, .writeVerification call now =>
    match s.phases call with
    | .verifying request item =>
      some ((s.writeVerification request item now).setPhase call .returned)
    | _ => none

/-- The item as it is collected, in a tenant or in none. -/
def EvidenceDesk.start (user : EvidenceUser) (fileHash : Option String) (now : Nat)
    (tenantId : Option Nat) : EvidenceDesk where
  item := { EvidenceItem.create user fileHash now with tenantId }
  phases := fun _ => .idle
  returned := []
  chains := [[initialCustody user now]]
  hashes := none

/-! ### The law -/

/-- The collection and, in their order, entries of transfers that have returned the item. -/
def Records (first : CustodyEntry) (s : EvidenceDesk) (chain : List CustodyEntry) : Prop :=
  ∃ entries, chain = first :: entries ∧ entries.Sublist s.returned

structure Recorded (first : CustodyEntry) (s : EvidenceDesk) : Prop where
  records : Records first s s.item.chainOfCustody
  last : s.item.chainOfCustody.getLast?.map CustodyEntry.action = some s.item.status
  verified : s.item.integrityVerified = true →
    ∃ hashes, s.hashes = some hashes ∧
      (hashes.1.getD "" = "" ∨ hashes.2.getD "" = "" ∨ hashes.1 = hashes.2)

/-- Every chain extends the one before it, and no transfer is missing. -/
structure AppendOnly (first : CustodyEntry) (s : EvidenceDesk) : Prop where
  complete : s.item.chainOfCustody = first :: s.returned
  grows : s.chains.IsChain fun new old => old <+: new
  latest : s.chains.head? = some s.item.chainOfCustody

/-- A transfer writes over the chain that it has read. -/
def Unraced (s : EvidenceDesk) : EvidenceStep → Prop
  | .writeTransfer call _ => ∀ request current, s.phases call = .transferring request current →
    s.item.status = current.status → s.item.chainOfCustody = current.chainOfCustody
  | _ => True

/-- Nothing is transferred that is destroyed, or verified without both hashes. -/
structure Guarded (first : CustodyEntry) (s : EvidenceDesk) : Prop
    extends Recorded first s, AppendOnly first s where
  final : (s.returned.map CustodyEntry.action).IsChain fun action _ => action ≠ .destroyed
  compared : s.item.integrityVerified = true →
    ∃ hash, hash ≠ "" ∧ s.hashes = some (some hash, some hash)

structure Held (first : CustodyEntry) (s : EvidenceDesk) : Prop extends Recorded first s where
  read : ∀ call request current, s.phases call = .transferring request current →
    Records first s current.chainOfCustody

variable {first : CustodyEntry} {s t : EvidenceDesk} {call now : Nat}

theorem Held.setPhase (h : Held first s) {phase : EvidencePhase}
    (hread : ∀ request current, phase = .transferring request current →
      Records first s current.chainOfCustody) : Held first (s.setPhase call phase) where
  toRecorded := ⟨h.records, h.last, h.verified⟩
  read other request current hphase := by
    by_cases hcall : other = call
    · subst hcall
      exact hread request current ((Function.update_self ..).symm.trans hphase)
    · exact h.read other request current ((Function.update_of_ne hcall ..).symm.trans hphase)

theorem Held.writeTransfer (h : Held first s) {request : CustodyTransfer}
    {current : EvidenceItem} (hread : Records first s current.chainOfCustody) :
    Held first (s.writeTransfer request current now) := by
  unfold EvidenceDesk.writeTransfer
  split
  next =>
    obtain ⟨entries, hchain, hentries⟩ := hread
    refine ⟨⟨⟨entries ++ [request.newEntry now], ?_, hentries.append_right _⟩, ?_, h.verified⟩, ?_⟩
    · rw [hchain]
      rfl
    · simp [CustodyTransfer.newEntry]
    · intro call request' current' hphase
      obtain ⟨entries', hchain', hentries'⟩ := h.read call request' current' hphase
      exact ⟨entries', hchain', hentries'.trans (List.sublist_append_left ..)⟩
  next => exact h

theorem Held.writeVerification (h : Held first s) {request : IntegrityCheck}
    {item : EvidenceItem} : Held first (s.writeVerification request item now) := by
  unfold EvidenceDesk.writeVerification
  split
  next =>
    refine ⟨⟨h.records, h.last, fun hverified => ⟨_, rfl, ?_⟩⟩, h.read⟩
    simpa [hashMatch, or_assoc] using hverified
  next => exact h

variable {a : EvidenceStep}

/-- What a step can do. -/
theorem evidenceStep_cases (hstep : evidenceStep s a = some t) :
    (∃ call phase, t = s.setPhase call phase ∧
      ∀ request current, phase = .transferring request current → current = s.item) ∨
    (∃ call now request current, a = .writeTransfer call now ∧
      s.phases call = .transferring request current ∧
      t = (s.writeTransfer request current now).setPhase call .returned) ∨
    ∃ call now request item, t = (s.writeVerification request item now).setPhase call .returned := by
  cases a with
  | transferCustody call request =>
    simp only [evidenceStep] at hstep
    split at hstep
    next =>
      split at hstep
      next => cases hstep
      next =>
        refine .inl ⟨call, _, (Option.some.inj hstep).symm, fun request' current hphase => ?_⟩
        split at hphase
        next =>
          cases hphase
          rfl
        next => cases hphase
    next => cases hstep
  | writeTransfer call now =>
    simp only [evidenceStep] at hstep
    split at hstep
    next request current hphase =>
      exact .inr (.inl ⟨call, now, request, current, rfl, hphase, (Option.some.inj hstep).symm⟩)
    next => cases hstep
  | verifyIntegrity call request =>
    simp only [evidenceStep] at hstep
    split at hstep
    next =>
      refine .inl ⟨call, _, (Option.some.inj hstep).symm, fun request' current hphase => ?_⟩
      split at hphase <;> cases hphase
    next => cases hstep
  | writeVerification call now =>
    simp only [evidenceStep] at hstep
    split at hstep
    next request item _ =>
      exact .inr (.inr ⟨call, now, request, item, (Option.some.inj hstep).symm⟩)
    next => cases hstep

theorem Held.step (h : Held first s) (hstep : evidenceStep s a = some t) : Held first t := by
  rcases evidenceStep_cases hstep with ⟨call, phase, rfl, hread⟩ |
    ⟨call, now, request, current, rfl, hphase, rfl⟩ | ⟨call, now, request, item, rfl⟩
  · exact h.setPhase fun request current hphase => hread request current hphase ▸ h.records
  · have hwrite : Held first (s.writeTransfer request current now) :=
      h.writeTransfer (h.read call request current hphase)
    exact hwrite.setPhase fun _ _ hreturned => nomatch hreturned
  · exact h.writeVerification.setPhase fun _ _ hreturned => nomatch hreturned

theorem AppendOnly.step (h : AppendOnly first s) (hunraced : Unraced s a)
    (hstep : evidenceStep s a = some t) : AppendOnly first t := by
  rcases evidenceStep_cases hstep with ⟨call, phase, rfl, _⟩ |
    ⟨call, now, request, current, rfl, hphase, rfl⟩ | ⟨call, now, request, item, rfl⟩
  · exact ⟨h.complete, h.grows, h.latest⟩
  · unfold EvidenceDesk.writeTransfer
    split
    next hseen =>
      have hchain := hunraced request current hphase hseen.2
      refine ⟨?_, List.isChain_cons.mpr ⟨fun old hold => ?_, h.grows⟩, rfl⟩
      · exact congrArg (· ++ [request.newEntry now]) (hchain.symm.trans h.complete)
      · cases h.latest.symm.trans hold
        exact ⟨_, congrArg (· ++ [request.newEntry now]) hchain⟩
    next => exact ⟨h.complete, h.grows, h.latest⟩
  · unfold EvidenceDesk.writeVerification
    split <;> exact ⟨h.complete, h.grows, h.latest⟩

/-- What holds in every run, and in one whose transfers write over the chain they have read. -/
theorem custody_recorded (user : EvidenceUser) (fileHash : Option String) (now : Nat)
    (tenantId : Option Nat) (labels : List EvidenceStep) :
    Always evidenceStep (Recorded (initialCustody user now))
        (EvidenceDesk.start user fileHash now tenantId) labels ∧
      (Meets evidenceStep Unraced (EvidenceDesk.start user fileHash now tenantId) labels →
        Always evidenceStep (AppendOnly (initialCustody user now))
          (EvidenceDesk.start user fileHash now tenantId) labels) := by
  constructor
  · apply Always.mono (fun _ => Held.toRecorded)
    apply always_of_step labels fun _ _ _ h => h.step
    refine ⟨⟨⟨[], rfl, List.nil_sublist _⟩, rfl, fun hverified => ?_⟩, fun _ _ _ hphase => ?_⟩
    · cases hverified
    · cases hphase
  · exact always_of_meets (fun _ _ _ h => h.step) ⟨rfl, List.isChain_singleton _, rfl⟩

/-! An item is destroyed and then returned. -/

def custodian : EvidenceUser := ⟨1, none, some 1⟩

theorem destroyed_returned : ¬ ∀ (user : EvidenceUser) (fileHash : Option String) (now : Nat)
    (tenantId : Option Nat) (labels : List EvidenceStep),
    Always evidenceStep (Guarded (initialCustody user now))
      (EvidenceDesk.start user fileHash now tenantId) labels := by
  intro h
  obtain ⟨finish, hrun, hreturned⟩ : ∃ finish,
      run evidenceStep (EvidenceDesk.start custodian none 0 (some 1))
        [.transferCustody 0 ⟨custodian, .destroyed, none⟩, .writeTransfer 0 1,
          .transferCustody 1 ⟨custodian, .returned, none⟩, .writeTransfer 1 2] = some finish ∧
      finish.returned.map CustodyEntry.action = [.destroyed, .returned] := ⟨_, rfl, rfl⟩
  have hfinal := ((h _ _ _ _ _).finish hrun).final
  rw [hreturned] at hfinal
  exact absurd (List.isChain_cons_cons.mp hfinal).1 (by decide)

end Bis.Compliance
