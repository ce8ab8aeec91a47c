import Bis.Payments.Dispatch
import Bis.Payments.Monitoring

/-!
How often a payment is dispatched, and what becomes of a claimed item. A worker
that claims rows has to account for each of them: by a workflow, or by an attempt
more on the row. The lease of a row is what ties the two together, so as long as
leases are only given up by the workers that hold them, every row is in one
worker's hands and its attempts count its dispatches.
-/

namespace Bis.Payments

open Bis.Relation Bis.Transition Function List

/-- The row whose start has not been recorded yet. -/
def Dispatcher.inFlight : Dispatcher → Option Lease
  | .idle | .claiming | .handling _ => none
  | .started lease _ | .failed lease _ => some lease

/-- The register, and how often every outbox row has been dispatched since it was
queued. -/
structure Attempted where
  register : Register
  tries : Nat → Nat

namespace Attempted

def initial : Attempted :=
  { register := .initial
    tries := fun _ => 0 }

def outbox (s : Attempted) : List OutboxRow := s.register.db.outbox

def phases (s : Attempted) : Nat → Dispatcher := s.register.payments.dispatchers

/-- A dispatch is counted, and an approved retry starts the count again. -/
def triesAfter (s : Attempted) : RegisterAction → Nat → Nat
  | .payment (.dispatch worker _) =>
    match s.phases worker with
    | .handling (lease :: _) =>
      if lease.item.isDispatchable then
        update s.tries lease.item.id (s.tries lease.item.id + 1)
      else s.tries
    | _ => s.tries
  | .payment (.resolveCase transactionId tenantId actorId .approvedRetry) =>
    match s.register.db.lockClaimedCase transactionId tenantId actorId with
    | some c => update s.tries c.outboxId 0
    | none => s.tries
  | _ => s.tries

end Attempted

def attemptStep : Step Attempted RegisterAction
  | s, action =>
    (registerStep s.register action).map fun register =>
      { register
        tries := s.triesAfter action }

/-- Every row is dispatched at most ten times, and one that has used its attempts
is not dispatched again. -/
structure Bounded (s : Attempted) : Prop where
  tries : ∀ row ∈ s.outbox, s.tries row.id ≤ maxAttempts
  attempts : ∀ row ∈ s.outbox, row.attempts ≤ maxAttempts
  exhausted : ∀ row ∈ s.outbox, row.attempts = maxAttempts → ¬ row.active

/-- Every claimed item that leaves a worker's hands has a workflow, or an attempt
more than before. -/
def Handles (s : Attempted) (action : RegisterAction) : Prop :=
  ∀ t, attemptStep s action = some t → ∀ worker, ∀ lease ∈ (s.phases worker).held,
    lease ∈ (t.phases worker).held ∨
      ∃ row ∈ s.outbox, ∃ row' ∈ t.outbox, row.id = lease.item.id ∧ row'.id = lease.item.id ∧
        (row'.status = .workflowStarted ∨ row.attempts < row'.attempts)

/-- The steps in which workers account for what they hold: none of them dies, no
lease of a living worker expires, and a payment that is escalated is pending. -/
def Accounts (s : Attempted) : RegisterAction → Prop
  | .payment (.expireLeases _) =>
    ∀ row ∈ s.outbox, row.status = .leased →
      (row.leasedAt.any fun at_ => decide (at_ + leaseTimeoutMs < s.register.payments.clock)) →
        ∀ worker, ∀ lease ∈ (s.phases worker).held, lease.item.id ≠ row.id
  | .payment (.dispatch worker _) =>
    ∀ lease rest, s.phases worker = .handling (lease :: rest) → ¬ lease.item.isDispatchable →
      s.register.db.transactions.any lease.item.pendingTransaction
  | .payment (.handleFailure worker _) =>
    ∀ lease rest, s.phases worker = .failed lease rest →
      maxAttempts ≤ lease.item.attempts + 1 →
        s.register.db.transactions.any lease.item.pendingTransaction
  | .payment (.crash worker) => (s.phases worker).held = []
  | _ => True

/-! ### Who holds what -/

/-- Every claimed row is leased and in one worker's hands, and every leased row in some
worker's. -/
structure Custody (rows : List OutboxRow) (phases : Nat → Dispatcher) (tries : Nat → Nat) :
    Prop where
  ids : (rows.map OutboxRow.id).Nodup
  owned : ∀ worker, ∀ lease ∈ (phases worker).held,
    ∃ row ∈ rows, row.id = lease.item.id ∧ row.status = .leased ∧ row.attempts = lease.item.attempts
  grasped : ∀ row ∈ rows, row.status = .leased →
    ∃ worker, ∃ lease ∈ (phases worker).held, lease.item.id = row.id
  apart : ∀ worker other, ∀ lease ∈ (phases worker).held, ∀ lease' ∈ (phases other).held,
    lease.item.id = lease'.item.id → worker = other
  distinct : ∀ worker, ((phases worker).held.map fun lease => lease.item.id).Nodup
  attempts : ∀ row ∈ rows, row.attempts ≤ maxAttempts ∧ (row.active → row.attempts < maxAttempts)
  counted : ∀ row ∈ rows, tries row.id ≤ row.attempts ∨
    (tries row.id ≤ row.attempts + 1 ∧
      ∃ worker lease, (phases worker).inFlight = some lease ∧ lease.item.id = row.id)
  untried : ∀ id, id ∉ rows.map OutboxRow.id → tries id = 0

/-- What a worker lets go of is accounted for. -/
def LetsGo (rows rows' : List OutboxRow) (phases phases' : Nat → Dispatcher) : Prop :=
  ∀ worker, ∀ lease ∈ (phases worker).held, lease ∈ (phases' worker).held ∨
    ∃ row ∈ rows, ∃ row' ∈ rows', row.id = lease.item.id ∧ row'.id = lease.item.id ∧
      (row'.status = .workflowStarted ∨ row.attempts < row'.attempts)

/-- `f` accounts for a row that a worker holds; one that is queued again has attempts left,
and is not due before `clock`. -/
structure Settles (clock : Nat) (item : PaymentOutboxRow) (f : OutboxRow → OutboxRow) : Prop where
  id : ∀ row, (f row).id = row.id
  attempts : ∀ row, (f row).attempts = item.attempts + 1
  status : ∀ row, (f row).status ≠ .leased
  again : ∀ row, (f row).status = .queued →
    item.attempts + 1 < maxAttempts ∧ clock ≤ (f row).nextAttemptAt

/-- `leases` are the queued rows `chosen`, and `f` leases a row. -/
structure Leases (rows chosen : List OutboxRow) (leases : List Lease)
    (f : OutboxRow → OutboxRow) : Prop where
  queued : ∀ row ∈ chosen, row ∈ rows ∧ row.status = .queued
  nodup : (chosen.map OutboxRow.id).Nodup
  items : leases.map (fun lease => (lease.item.id, lease.item.attempts)) =
    chosen.map fun row => (row.id, row.attempts)
  leased : ∀ row, (f row).id = row.id ∧ (f row).attempts = row.attempts ∧ (f row).status = .leased

/-- `p` selects rows in dead letter, and `f` queues them anew. -/
structure Retries (clock : Nat) (p : OutboxRow → Bool) (f : OutboxRow → OutboxRow) : Prop where
  dead : ∀ row, p row → row.status = .deadLetter
  id : ∀ row, (f row).id = row.id
  queued : ∀ row, (f row).status = .queued
  attempts : ∀ row, (f row).attempts = 0
  later : ∀ row, clock ≤ (f row).nextAttemptAt

/-- What a step does to the rows, and to the hands they are in. -/
inductive Deals (clock : Nat) (rows : List OutboxRow) (phases : Nat → Dispatcher)
    (tries : Nat → Nat) : List OutboxRow → (Nat → Dispatcher) → (Nat → Nat) → Prop
  | keep {phases' : Nat → Dispatcher} (hheld : ∀ worker, (phases' worker).held = (phases worker).held)
      (hflight : ∀ worker, (phases' worker).inFlight = (phases worker).inFlight) :
      Deals clock rows phases tries rows phases' tries
  | queue {row : OutboxRow} (hid : row.id = (rows.map OutboxRow.id).foldr max 0 + 1)
      (hqueued : row.status = .queued) (hattempts : row.attempts = 0)
      (hlater : clock ≤ row.nextAttemptAt) :
      Deals clock rows phases tries (rows ++ [row]) phases tries
  | dispatch {worker : Nat} {phase : Dispatcher} {lease : Lease} {rest : List Lease}
      (hphase : phases worker = .handling (lease :: rest)) (hheld : phase.held = lease :: rest)
      (hflight : phase.inFlight = some lease) :
      Deals clock rows phases tries rows (update phases worker phase)
        (update tries lease.item.id (tries lease.item.id + 1))
  | account {worker : Nat} {lease : Lease} {rest : List Lease} {f : OutboxRow → OutboxRow}
      (hheld : (phases worker).held = lease :: rest)
      (hsettles : Settles clock lease.item f) :
      Deals clock rows phases tries (updateWhere (holdsLease lease.item) f rows)
        (update phases worker (.handling rest)) tries
  | claim {worker : Nat} {chosen : List OutboxRow} {leases : List Lease}
      {f : OutboxRow → OutboxRow} (hempty : (phases worker).held = [])
      (hleases : Leases rows chosen leases f) :
      Deals clock rows phases tries
        (updateWhere (fun row => chosen.any fun claimed => claimed.id == row.id) f rows)
        (update phases worker (.handling leases)) tries
  | retry {p : OutboxRow → Bool} {f : OutboxRow → OutboxRow} {tries' : Nat → Nat}
      (hretries : Retries clock p f) (hcount : ∀ row, p row → tries' row.id = 0)
      (hless : ∀ id, tries' id ≤ tries id) :
      Deals clock rows phases tries (updateWhere p f rows) phases tries'

/-- Only the first item can be in flight. -/
theorem head_of_inFlight {phase : Dispatcher} {lease : Lease} (h : phase.inFlight = some lease) :
    phase.held.head? = some lease := by
  cases phase with
  | idle | claiming | handling leases => cases h
  | started first rest | failed first rest => exact h

theorem held_of_inFlight {phase : Dispatcher} {lease : Lease} (h : phase.inFlight = some lease) :
    lease ∈ phase.held :=
  mem_of_head? (head_of_inFlight h)

section Custody

variable {rows rows' : List OutboxRow} {phases phases' : Nat → Dispatcher} {tries tries' : Nat → Nat}

variable {row : OutboxRow} {worker : Nat} {phase : Dispatcher} {lease : Lease} {rest : List Lease}
  {f : OutboxRow → OutboxRow} {clock : Nat}

/-- A row that no worker holds has had no more dispatches than attempts. -/
theorem Custody.tries_le (h : Custody rows phases tries) (hrow : row ∈ rows)
    (hfree : ∀ worker, ∀ lease, (phases worker).inFlight = some lease → lease.item.id ≠ row.id) :
    tries row.id ≤ row.attempts := by
  rcases h.counted row hrow with hle | ⟨_, worker, lease, hflight, hid⟩
  · exact hle
  · exact (hfree worker lease hflight hid).elim

theorem Custody.bounded (h : Custody rows phases tries) (hrow : row ∈ rows) :
    tries row.id ≤ maxAttempts := by
  obtain ⟨hle, hactive⟩ := h.attempts row hrow
  rcases h.counted row hrow with hcount | ⟨hcount, worker, lease, hflight, hid⟩
  · exact hcount.trans hle
  · obtain ⟨held, hheld, hkey, hleased, _⟩ := h.owned worker lease (held_of_inFlight hflight)
    obtain rfl := inj_on_of_nodup_map h.ids hheld hrow (hkey.trans hid)
    have hfewer := hactive (.inr hleased)
    omega

/-- The same rows stay in the same hands. -/
theorem Custody.hold (h : Custody rows phases tries)
    (hheld : ∀ worker, (phases' worker).held = (phases worker).held)
    (hcounted : ∀ row ∈ rows, tries' row.id ≤ row.attempts ∨ (tries' row.id ≤ row.attempts + 1 ∧
      ∃ worker lease, (phases' worker).inFlight = some lease ∧ lease.item.id = row.id))
    (huntried : ∀ id, id ∉ rows.map OutboxRow.id → tries' id = 0) :
    Custody rows phases' tries' where
  ids := h.ids
  owned := by simpa only [hheld] using h.owned
  grasped := by simpa only [hheld] using h.grasped
  apart := by simpa only [hheld] using h.apart
  distinct := by simpa only [hheld] using h.distinct
  attempts := h.attempts
  counted := hcounted
  untried := huntried

/-- A new row under a fresh key. -/
theorem Custody.append (h : Custody rows phases tries)
    (hid : row.id = (rows.map OutboxRow.id).foldr max 0 + 1) (hqueued : row.status = .queued)
    (hattempts : row.attempts = 0) : Custody (rows ++ [row]) phases tries := by
  have hfresh : row.id ∉ rows.map OutboxRow.id := by
    rw [hid]
    exact fresh_not_mem _
  refine ⟨?_, ?_, ?_, h.apart, h.distinct, ?_, ?_, ?_⟩
  · rw [map_append]
    exact nodup_append_fresh h.ids hfresh
  · intro worker lease hlease
    obtain ⟨old, hold, hkey⟩ := h.owned worker lease hlease
    exact ⟨old, mem_append_left _ hold, hkey⟩
  · intro other hother hleased
    rcases mem_concat.mp hother with hold | rfl
    · exact h.grasped other hold hleased
    · rw [hqueued] at hleased
      cases hleased
  · intro other hother
    rcases mem_concat.mp hother with hold | rfl
    · exact h.attempts other hold
    · rw [hattempts]
      exact ⟨Nat.zero_le _, fun _ => by decide⟩
  · intro other hother
    rcases mem_concat.mp hother with hold | rfl
    · exact h.counted other hold
    · left
      rw [h.untried _ hfresh]
      exact Nat.zero_le _
  · intro id hnot
    apply h.untried
    intro hmem
    apply hnot
    rw [map_append]
    exact mem_append_left _ hmem

/-- A worker dispatches the first of its items. -/
theorem Custody.dispatch (h : Custody rows phases tries)
    (hphase : phases worker = .handling (lease :: rest)) (hheld : phase.held = lease :: rest)
    (hflight : phase.inFlight = some lease) :
    Custody rows (update phases worker phase)
      (update tries lease.item.id (tries lease.item.id + 1)) := by
  have hlease : lease ∈ (phases worker).held := by
    rw [hphase]
    exact mem_cons_self
  obtain ⟨held, hmem, hkey, _, _⟩ := h.owned worker lease hlease
  apply h.hold
  · refine (forall_update_iff phases fun w phase => phase.held = (phases w).held).mpr
      ⟨?_, fun _ _ => rfl⟩
    rw [hheld, hphase]
    rfl
  · intro row hrow
    by_cases hrowid : row.id = lease.item.id
    · right
      -- No other dispatch of the row is in flight: the row is in this worker's hands.
      have hle : tries row.id ≤ row.attempts := by
        apply h.tries_le hrow
        intro other lease' hflight' hid'
        have hsame := h.apart other worker lease' (held_of_inFlight hflight') lease hlease
          (hid'.trans hrowid)
        rw [hsame, hphase] at hflight'
        cases hflight'
      refine ⟨?_, worker, lease, ?_, hrowid.symm⟩
      · rw [← hrowid, update_self]
        omega
      · rw [update_self]
        exact hflight
    · rw [update_of_ne hrowid]
      rcases h.counted row hrow with hle | ⟨hle, other, lease', hflight', hid'⟩
      · exact .inl hle
      · refine .inr ⟨hle, other, lease', ?_, hid'⟩
        have hne : other ≠ worker := by
          rintro rfl
          rw [hphase] at hflight'
          cases hflight'
        rw [update_of_ne hne]
        exact hflight'
  · intro id hnot
    have hne : id ≠ lease.item.id := by
      rintro rfl
      exact hnot (mem_map.mpr ⟨held, hmem, hkey⟩)
    rw [update_of_ne hne]
    exact h.untried id hnot

/-- Rows that are in no worker's hands any more are updated; their count may start again. -/
theorem Custody.shrink (h : Custody rows phases tries) {p : OutboxRow → Bool}
    (hid : ∀ row, (f row).id = row.id) (hstatus : ∀ row, (f row).status ≠ .leased)
    (hsub : ∀ worker, (phases' worker).held.Sublist (phases worker).held)
    (hfree : ∀ row ∈ rows, p row → ∀ worker, ∀ lease ∈ (phases' worker).held,
      lease.item.id ≠ row.id)
    (hgone : ∀ worker, ∀ lease ∈ (phases worker).held, lease ∈ (phases' worker).held ∨
      ∃ row ∈ rows, p row ∧ row.id = lease.item.id)
    (hflight : ∀ worker lease, (phases worker).inFlight = some lease →
      (phases' worker).inFlight = some lease ∨ ∃ row ∈ rows, p row ∧ row.id = lease.item.id)
    (hattempts : ∀ row ∈ rows, p row →
      (f row).attempts ≤ maxAttempts ∧ ((f row).active → (f row).attempts < maxAttempts))
    (hcount : ∀ row ∈ rows, p row → tries' row.id ≤ (f row).attempts)
    (hless : ∀ id, tries' id ≤ tries id) : Custody (updateWhere p f rows) phases' tries' := by
  refine ⟨?_, ?_, ?_, ?_, ?_, ?_, ?_, ?_⟩
  · rw [map_updateWhere hid]
    exact h.ids
  · intro worker lease hlease
    obtain ⟨row, hrow, hkey, hrest⟩ := h.owned worker lease ((hsub worker).subset hlease)
    refine ⟨row, mem_updateWhere_of_not hrow ?_, hkey, hrest⟩
    exact fun hp => hfree row hrow hp worker lease hlease hkey.symm
  · intro row hrow hleased
    rcases mem_updateWhere.mp hrow with ⟨old, _, _, rfl⟩ | ⟨hold, hnot⟩
    · exact absurd hleased (hstatus old)
    · obtain ⟨worker, lease, hlease, hkey⟩ := h.grasped row hold hleased
      rcases hgone worker lease hlease with hkept | ⟨other, hother, hp, hkey'⟩
      · exact ⟨worker, lease, hkept, hkey⟩
      · obtain rfl := inj_on_of_nodup_map h.ids hother hold (hkey'.trans hkey)
        exact absurd hp hnot
  · intro worker other lease hlease lease' hlease'
    exact h.apart worker other lease ((hsub worker).subset hlease) lease'
      ((hsub other).subset hlease')
  · exact fun worker => ((hsub worker).map _).nodup (h.distinct worker)
  · intro row hrow
    rcases mem_updateWhere.mp hrow with ⟨old, hold, hp, rfl⟩ | ⟨hold, _⟩
    · exact hattempts old hold hp
    · exact h.attempts row hold
  · intro row hrow
    rcases mem_updateWhere.mp hrow with ⟨old, hold, hp, rfl⟩ | ⟨hold, hnot⟩
    · left
      rw [hid]
      exact hcount old hold hp
    · rcases h.counted row hold with hle | ⟨hle, worker, lease, hin, hkey⟩
      · exact .inl ((hless row.id).trans hle)
      · rcases hflight worker lease hin with hin' | ⟨other, hother, hp, hkey'⟩
        · exact .inr ⟨(hless row.id).trans hle, worker, lease, hin', hkey⟩
        · obtain rfl := inj_on_of_nodup_map h.ids hother hold (hkey'.trans hkey)
          exact absurd hp hnot
  · intro id hnot
    rw [map_updateWhere hid] at hnot
    have hzero := h.untried id hnot
    have hle := hless id
    omega

/-- A worker accounts for the first of its items. -/
theorem Custody.account (h : Custody rows phases tries) (hheld : (phases worker).held = lease :: rest)
    (hsettles : Settles clock lease.item f) :
    Custody (updateWhere (holdsLease lease.item) f rows)
        (update phases worker (.handling rest)) tries ∧
      LetsGo rows (updateWhere (holdsLease lease.item) f rows) phases
        (update phases worker (.handling rest)) := by
  have hlease : lease ∈ (phases worker).held := by
    rw [hheld]
    exact mem_cons_self
  obtain ⟨row, hrow, hkey, hleased, hsame⟩ := h.owned worker lease hlease
  have hholds : holdsLease lease.item row = true := by simp [holdsLease, hkey, hleased]
  have hgone : ∀ other, ∀ lease' ∈ (phases other).held,
      lease' ∈ (update phases worker (.handling rest) other).held ∨ lease' = lease := by
    intro other lease' hlease'
    rcases eq_or_ne other worker with rfl | hne
    · rw [update_self]
      rw [hheld] at hlease'
      exact (mem_cons.mp hlease').symm
    · rw [update_of_ne hne]
      exact .inl hlease'
  constructor
  · apply h.shrink hsettles.id hsettles.status
    · refine (forall_update_iff phases fun w phase =>
        phase.held.Sublist (phases w).held).mpr ⟨?_, fun _ _ => Sublist.refl _⟩
      rw [hheld]
      exact sublist_cons_self lease rest
    · -- What is still held is another row than the one accounted for.
      intro old _ hp other lease' hlease' hclash
      have hid := hclash.trans (leased_of_holdsLease hp).1
      rcases eq_or_ne other worker with rfl | hne
      · rw [update_self] at hlease'
        have hdistinct := h.distinct other
        rw [hheld, map_cons, nodup_cons] at hdistinct
        exact hdistinct.1 (mem_map.mpr ⟨lease', hlease', hid⟩)
      · rw [update_of_ne hne] at hlease'
        exact hne (h.apart other worker lease' hlease' lease hlease hid)
    · intro other lease' hlease'
      refine (hgone other lease' hlease').imp_right ?_
      rintro rfl
      exact ⟨row, hrow, hholds, hkey⟩
    · intro other lease' hin
      rcases eq_or_ne other worker with rfl | hne
      · have hhead := head_of_inFlight hin
        rw [hheld] at hhead
        obtain rfl := Option.some.inj hhead
        exact .inr ⟨row, hrow, hholds, hkey⟩
      · rw [update_of_ne hne]
        exact .inl hin
    · intro old _ _
      have hfewer := (h.attempts row hrow).2 (.inr hleased)
      rw [hsettles.attempts]
      refine ⟨by omega, ?_⟩
      rintro (hqueued | hleased')
      · exact (hsettles.again old hqueued).1
      · exact absurd hleased' (hsettles.status old)
    · intro old hold hp
      obtain rfl := inj_on_of_nodup_map h.ids hold hrow
        ((leased_of_holdsLease hp).1.trans hkey.symm)
      rw [hsettles.attempts, ← hsame]
      rcases h.counted old hold with hle | ⟨hle, _⟩
      · omega
      · exact hle
    · exact fun _ => Nat.le_refl _
  · intro other lease' hlease'
    refine (hgone other lease' hlease').imp_right ?_
    rintro rfl
    refine ⟨row, hrow, f row, mem_updateWhere.mpr (.inl ⟨row, hrow, hholds, rfl⟩), hkey,
      (hsettles.id row).trans hkey, .inr ?_⟩
    rw [hsettles.attempts, hsame]
    exact Nat.lt_succ_self _

/-- A worker with empty hands claims queued rows. -/
theorem Custody.claim (h : Custody rows phases tries) {chosen : List OutboxRow}
    {leases : List Lease} (hempty : (phases worker).held = [])
    (hleases : Leases rows chosen leases f) :
    Custody (updateWhere (fun row => chosen.any fun claimed => claimed.id == row.id) f rows)
      (update phases worker (.handling leases)) tries := by
  have hpicked : ∀ row ∈ rows, (chosen.any fun claimed => claimed.id == row.id) = true →
      row ∈ chosen := by
    intro row hrow hp
    obtain ⟨claimed, hclaimed, hid⟩ := any_eq_true.mp hp
    obtain rfl := inj_on_of_nodup_map h.ids (hleases.queued claimed hclaimed).1 hrow
      (eq_of_beq hid)
    exact hclaimed
  have hitem : ∀ lease ∈ leases, ∃ row ∈ chosen,
      row.id = lease.item.id ∧ row.attempts = lease.item.attempts := by
    intro lease hmem
    have hpair := mem_map_of_mem (f := fun lease : Lease =>
      (lease.item.id, lease.item.attempts)) hmem
    rw [hleases.items] at hpair
    obtain ⟨row, hrow, heq⟩ := mem_map.mp hpair
    exact ⟨row, hrow, congrArg Prod.fst heq, congrArg Prod.snd heq⟩
  -- A row another worker holds is leased, so it is none of the claimed ones.
  have hapart : ∀ other, ∀ lease ∈ (phases other).held, ∀ row ∈ chosen, row.id ≠ lease.item.id := by
    intro other lease hmem row hrow hclash
    obtain ⟨held, hheld, hkey, hleased, _⟩ := h.owned other lease hmem
    obtain ⟨hin, hqueued⟩ := hleases.queued row hrow
    obtain rfl := inj_on_of_nodup_map h.ids hheld hin (hkey.trans hclash.symm)
    rw [hleased] at hqueued
    cases hqueued
  have hne : ∀ {other lease}, lease ∈ (phases other).held → other ≠ worker := by
    rintro other lease hmem rfl
    rw [hempty] at hmem
    cases hmem
  have hids : leases.map (fun lease => lease.item.id) = chosen.map OutboxRow.id := by
    have hfst := congrArg (List.map Prod.fst) hleases.items
    simpa only [map_map, comp_def] using hfst
  refine ⟨?_, ?_, ?_, ?_, ?_, ?_, ?_, ?_⟩
  · rw [map_updateWhere fun row => (hleases.leased row).1]
    exact h.ids
  · intro other lease hmem
    rcases eq_or_ne other worker with rfl | hother
    · rw [update_self] at hmem
      obtain ⟨row, hrow, hkey, hsame⟩ := hitem lease hmem
      obtain ⟨hid, hattempts, hstatus⟩ := hleases.leased row
      refine ⟨f row, mem_updateWhere.mpr (.inl ⟨row, (hleases.queued row hrow).1, ?_, rfl⟩),
        hid.trans hkey, hstatus, hattempts.trans hsame⟩
      exact any_eq_true.mpr ⟨row, hrow, beq_self_eq_true _⟩
    · rw [update_of_ne hother] at hmem
      obtain ⟨row, hrow, hkey, hrest⟩ := h.owned other lease hmem
      refine ⟨row, mem_updateWhere_of_not hrow ?_, hkey, hrest⟩
      intro hp
      exact hapart other lease hmem row (hpicked row hrow hp) hkey
  · intro row hrow hleased
    rcases mem_updateWhere.mp hrow with ⟨old, hold, hp, rfl⟩ | ⟨hold, _⟩
    · have hmem := mem_map_of_mem (f := OutboxRow.id) (hpicked old hold hp)
      rw [← hids] at hmem
      obtain ⟨lease, hlease, hid⟩ := mem_map.mp hmem
      refine ⟨worker, lease, ?_, hid.trans (hleases.leased old).1.symm⟩
      rw [update_self]
      exact hlease
    · obtain ⟨other, lease, hlease, hid⟩ := h.grasped row hold hleased
      refine ⟨other, lease, ?_, hid⟩
      rwa [update_of_ne (hne hlease)]
  · intro first second lease hmem lease' hmem' hclash
    rcases eq_or_ne first worker with rfl | hfirst
    · rcases eq_or_ne second first with rfl | hsecond
      · rfl
      · rw [update_self] at hmem
        rw [update_of_ne hsecond] at hmem'
        obtain ⟨row, hrow, hkey, _⟩ := hitem lease hmem
        exact (hapart second lease' hmem' row hrow (hkey.trans hclash)).elim
    · rw [update_of_ne hfirst] at hmem
      rcases eq_or_ne second worker with rfl | hsecond
      · rw [update_self] at hmem'
        obtain ⟨row, hrow, hkey, _⟩ := hitem lease' hmem'
        exact (hapart first lease hmem row hrow (hkey.trans hclash.symm)).elim
      · rw [update_of_ne hsecond] at hmem'
        exact h.apart first second lease hmem lease' hmem' hclash
  · refine (forall_update_iff phases fun _ phase =>
      (phase.held.map fun lease => lease.item.id).Nodup).mpr ⟨?_, fun other _ => h.distinct other⟩
    rw [Dispatcher.held, hids]
    exact hleases.nodup
  · intro row hrow
    rcases mem_updateWhere.mp hrow with ⟨old, hold, hp, rfl⟩ | ⟨hold, _⟩
    · obtain ⟨hle, hactive⟩ := h.attempts old hold
      rw [(hleases.leased old).2.1]
      exact ⟨hle, fun _ => hactive (.inl (hleases.queued old (hpicked old hold hp)).2)⟩
    · exact h.attempts row hold
  · intro row hrow
    rcases mem_updateWhere.mp hrow with ⟨old, hold, hp, rfl⟩ | ⟨hold, _⟩
    · left
      rw [(hleases.leased old).1, (hleases.leased old).2.1]
      apply h.tries_le hold
      intro other lease hflight hkey
      exact hapart other lease (held_of_inFlight hflight) old (hpicked old hold hp) hkey.symm
    · refine (h.counted row hold).imp_right ?_
      rintro ⟨hle, other, lease, hflight, hkey⟩
      refine ⟨hle, other, lease, ?_, hkey⟩
      rwa [update_of_ne (hne (held_of_inFlight hflight))]
  · intro id hnot
    rw [map_updateWhere fun row => (hleases.leased row).1] at hnot
    exact h.untried id hnot

/-- Custody is kept, and nothing is let go of unaccounted. -/
theorem custody_of_deals (h : Custody rows phases tries)
    (hdeals : Deals clock rows phases tries rows' phases' tries') :
    Custody rows' phases' tries' ∧ LetsGo rows rows' phases phases' := by
  cases hdeals with
  | keep hheld hflight =>
    refine ⟨h.hold hheld ?_ h.untried, fun worker lease hlease => .inl ?_⟩
    · simpa only [hflight] using h.counted
    · rwa [hheld]
  | queue hid hqueued hattempts _ =>
    exact ⟨h.append hid hqueued hattempts, fun _ _ hlease => .inl hlease⟩
  | @dispatch worker phase lease rest hphase hheld hflight =>
    refine ⟨h.dispatch hphase hheld hflight, fun other lease' hlease' => .inl ?_⟩
    rcases eq_or_ne other worker with rfl | hne
    · rw [update_self, hheld]
      rwa [hphase] at hlease'
    · rwa [update_of_ne hne]
  | account hheld hsettles => exact h.account hheld hsettles
  | @claim worker _ _ _ hempty hleases =>
    refine ⟨h.claim hempty hleases, fun other lease hlease => .inl ?_⟩
    have hne : other ≠ worker := by
      rintro rfl
      rw [hempty] at hlease
      cases hlease
    rwa [update_of_ne hne]
  | retry hretries hcount hless =>
    refine ⟨?_, fun _ _ hlease => .inl hlease⟩
    apply h.shrink hretries.id
    · intro row hleased
      rw [hretries.queued] at hleased
      cases hleased
    · exact fun _ => Sublist.refl _
    · intro row hrow hp worker lease hlease hclash
      obtain ⟨held, hheld, hkey, hleased, _⟩ := h.owned worker lease hlease
      obtain rfl := inj_on_of_nodup_map h.ids hheld hrow (hkey.trans hclash)
      rw [hretries.dead held hp] at hleased
      cases hleased
    · exact fun _ _ hlease => .inl hlease
    · exact fun _ _ hin => .inl hin
    · intro row _ _
      rw [hretries.attempts]
      exact ⟨Nat.zero_le _, fun _ => by decide⟩
    · intro row _ hp
      rw [hcount row hp]
      exact Nat.zero_le _
    · exact hless

end Custody

/-! ### The steps -/

section Steps

variable {s : System} {db : Database} {phases : Nat → Dispatcher} {tries : Nat → Nat}

variable {worker : Nat} {lease : Lease} {rest : List Lease}

/-- The escalation of an item whose row is leased and whose transaction is
pending goes through. -/
theorem escalateNext_of_pending (h : Custody s.db.outbox s.dispatchers tries)
    (hheld : (s.dispatchers worker).held = lease :: rest)
    (hpending : s.db.transactions.any lease.item.pendingTransaction) (errorCode : String) :
    (s.escalateNext worker lease.item errorCode rest).db.outbox =
        (s.db.deadLetter lease.item errorCode).outbox ∧
      (s.escalateNext worker lease.item errorCode rest).dispatchers =
        update s.dispatchers worker (.handling rest) := by
  have hmem : lease ∈ (s.dispatchers worker).held := by
    rw [hheld]
    exact mem_cons_self
  obtain ⟨row, hrow, hkey, hleased, _⟩ := h.owned worker lease hmem
  have hholds : s.db.outbox.any (holdsLease lease.item) = true := by
    refine any_eq_true.mpr ⟨row, hrow, ?_⟩
    simp [holdsLease, hkey, hleased]
  have hescalate : s.db.escalate lease.item errorCode =
      some ((s.db.deadLetter lease.item errorCode).setUnderReview lease.item.pendingTransaction) := by
    unfold Database.escalate
    rw [if_pos (by simp [hholds, hpending])]
  unfold System.escalateNext
  rw [hescalate]
  exact ⟨(setUnderReview_tables _ _).2, rfl⟩

/-- An item that is escalated is accounted for. -/
theorem deals_escalateNext (h : Custody s.db.outbox s.dispatchers tries)
    (hheld : (s.dispatchers worker).held = lease :: rest)
    (hpending : s.db.transactions.any lease.item.pendingTransaction) (errorCode : String) :
    Deals s.clock s.db.outbox s.dispatchers tries
      (s.escalateNext worker lease.item errorCode rest).db.outbox
      (s.escalateNext worker lease.item errorCode rest).dispatchers tries := by
  obtain ⟨houtbox, hphases⟩ := escalateNext_of_pending h hheld hpending errorCode
  rw [houtbox, hphases]
  apply Deals.account hheld
  exact ⟨fun _ => rfl, fun _ => rfl, fun _ => nofun, fun _ => nofun⟩

theorem deals_initiateTransfer (input : TransferInput) (now : Nat) :
    Deals now db.outbox phases tries (db.initiateTransfer input now).outbox phases tries := by
  have hkeep : Deals now db.outbox phases tries db.outbox phases tries :=
    .keep (fun _ => rfl) fun _ => rfl
  unfold Database.initiateTransfer
  split
  next => exact hkeep
  next tenantId _ =>
    split
    next => exact hkeep
    next =>
      unfold Database.insertIntent
      dsimp only
      split
      next => exact hkeep
      next => exact .queue rfl rfl rfl (Nat.le_refl _)

theorem leases_claim (h : (db.outbox.map OutboxRow.id).Nodup) (now limit : Nat)
    (locked : List Nat) :
    Leases db.outbox (db.candidates now limit locked)
      ((db.claim now limit locked).2.map fun item =>
        ⟨item, item.transaction.map Transaction.status⟩)
      fun row => { row with status := .leased, leasedAt := some now } where
  queued row hrow := queued_of_candidate hrow
  nodup := by
    unfold Database.candidates
    refine Nodup.sublist ((take_sublist _ _).map _) ?_
    refine ((perm_insertionSort _ _).map _).nodup_iff.mpr ?_
    exact Nodup.sublist (filter_sublist.map _) h
  items := by
    simp only [Database.claim, map_map]
    rfl
  leased row := ⟨rfl, rfl, rfl⟩

/-- Where no lease in a worker's hands has expired, none has. -/
theorem outbox_expireLeases (h : Custody db.outbox phases tries) {now : Nat}
    (hfree : ∀ row ∈ db.outbox, row.status = .leased →
      (row.leasedAt.any fun at_ => decide (at_ + leaseTimeoutMs < now)) →
        ∀ worker, ∀ lease ∈ (phases worker).held, lease.item.id ≠ row.id) :
    (db.expireLeases now).outbox = db.outbox := by
  apply updateWhere_eq_self
  intro row hrow hp
  obtain ⟨hleased, hlate⟩ := Bool.and_eq_true_iff.mp hp
  have hstatus : row.status = .leased := eq_of_beq hleased
  obtain ⟨worker, lease, hlease, hkey⟩ := h.grasped row hrow hstatus
  exact hfree row hrow hstatus hlate worker lease hlease hkey

end Steps

def Attempted.Custody (s : Attempted) : Prop := Payments.Custody s.outbox s.phases s.tries

def Attempted.clock (s : Attempted) : Nat := s.register.payments.clock

/-- The steps of the register, as `Deals`. -/
def Attempted.Deals (s t : Attempted) : Prop :=
  Payments.Deals s.clock s.outbox s.phases s.tries t.outbox t.phases t.tries

section Register

variable {s t : Attempted} {action : Action}

theorem deals_resolveCase (s : Attempted) (transactionId : Nat) (tenantId : Int) (actorId : Nat)
    (resolution : Resolution) :
    Deals s.clock s.outbox s.phases s.tries
      (s.register.db.resolveCase transactionId tenantId actorId resolution s.clock).outbox s.phases
      (s.triesAfter (.payment (.resolveCase transactionId tenantId actorId resolution))) := by
  have hkeep : Deals s.clock s.outbox s.phases s.tries s.outbox s.phases s.tries :=
    .keep (fun _ => rfl) fun _ => rfl
  unfold Database.resolveCase
  cases hlock : s.register.db.lockClaimedCase transactionId tenantId actorId with
  | none =>
    cases resolution with
    | approvedRetry =>
      simp only [Attempted.triesAfter, hlock]
      exact hkeep
    | confirmedSettled | confirmedNotSettled | compensationRequired => exact hkeep
  | some c =>
    cases resolution with
    | approvedRetry =>
      simp only [Attempted.triesAfter, hlock]
      apply Deals.retry
      · refine ⟨?_, fun _ => rfl, fun _ => rfl, fun _ => rfl, fun _ => Nat.le_refl _⟩
        intro row hp
        exact eq_of_beq (Bool.and_eq_true_iff.mp hp).2
      · intro row hp
        simp only [Bool.and_eq_true, beq_iff_eq] at hp
        rw [hp.1.1.1, update_self]
      · exact (forall_update_iff s.tries fun id count => count ≤ s.tries id).mpr
          ⟨Nat.zero_le _, fun _ _ => Nat.le_refl _⟩
    | confirmedSettled | confirmedNotSettled | compensationRequired => exact hkeep

/-- A worker that goes on with what it has. -/
theorem deals_setDispatcher {rows : List OutboxRow} {phases : Nat → Dispatcher}
    {tries : Nat → Nat} {worker clock : Nat} {phase : Dispatcher}
    (hheld : phase.held = (phases worker).held)
    (hflight : phase.inFlight = (phases worker).inFlight) :
    Deals clock rows phases tries rows (update phases worker phase) tries :=
  .keep ((forall_update_iff phases fun w phase => phase.held = (phases w).held).mpr
      ⟨hheld, fun _ _ => rfl⟩)
    ((forall_update_iff phases fun w phase => phase.inFlight = (phases w).inFlight).mpr
      ⟨hflight, fun _ _ => rfl⟩)

/-- A step of the payments deals with the rows. -/
theorem deals_payment (h : s.Custody) (hcond : Accounts s (.payment action)) {payments : System}
    (hstep : paymentStep s.register.payments action = some payments) :
    Deals s.clock s.outbox s.phases s.tries payments.db.outbox payments.dispatchers
      (s.triesAfter (.payment action)) := by
  have hkeep : Deals s.clock s.outbox s.phases s.tries s.outbox s.phases s.tries :=
    .keep (fun _ => rfl) fun _ => rfl
  cases systemTakes_of_step hstep with
  | initiateTransfer input => exact deals_initiateTransfer input _
  | @expireLeases worker hphase =>
    have houtbox : (s.register.db.expireLeases s.clock).outbox = s.outbox :=
      outbox_expireLeases h hcond
    change Deals _ _ _ _ (s.register.db.expireLeases s.clock).outbox _ _
    rw [houtbox]
    exact deals_setDispatcher (congrArg Dispatcher.held hphase).symm
      (congrArg Dispatcher.inFlight hphase).symm
  | @claim worker hphase limit locked =>
    exact .claim (congrArg Dispatcher.held hphase) (leases_claim h.ids _ limit locked)
  | @dispatched worker lease rest hphase hdispatchable started =>
    have hhandling : s.phases worker = .handling (lease :: rest) := hphase
    have htries : s.triesAfter (.payment (.dispatch worker started)) =
        update s.tries lease.item.id (s.tries lease.item.id + 1) := by
      simp only [Attempted.triesAfter, hhandling, hdispatchable, if_true]
    rw [htries]
    apply Deals.dispatch hhandling
    · cases started <;> rfl
    · cases started <;> rfl
  | @rejected worker lease rest hphase hinvalid started =>
    have hhandling : s.phases worker = .handling (lease :: rest) := hphase
    have htries : s.triesAfter (.payment (.dispatch worker started)) = s.tries := by
      simp [Attempted.triesAfter, hhandling, hinvalid]
    rw [htries]
    apply deals_escalateNext h (congrArg Dispatcher.held hphase)
    exact hcond lease rest hhandling hinvalid
  | @stored worker lease rest hphase =>
    apply Deals.account (congrArg Dispatcher.held hphase)
    exact ⟨fun _ => rfl, fun _ => rfl, fun _ => nofun, fun _ => nofun⟩
  | notStored hphase | finishCycle hphase =>
    exact deals_setDispatcher (congrArg Dispatcher.held hphase).symm
      (congrArg Dispatcher.inFlight hphase).symm
  | @exhausted worker lease rest hphase hlast jitter =>
    apply deals_escalateNext h (congrArg Dispatcher.held hphase)
    exact hcond lease rest hphase hlast
  | @requeued worker lease rest hphase hlast jitter =>
    apply Deals.account (congrArg Dispatcher.held hphase)
    refine ⟨fun _ => rfl, fun _ => rfl, fun _ => nofun, fun _ _ => ⟨Nat.lt_of_not_le hlast, ?_⟩⟩
    change s.clock ≤ s.clock + _ + jitter
    omega
  | crash worker =>
    have hempty : (s.phases worker).held = [] := hcond
    have hflight : (s.phases worker).inFlight = none := by
      cases hin : (s.phases worker).inFlight with
      | none => rfl
      | some lease =>
        have hmem := held_of_inFlight hin
        rw [hempty] at hmem
        cases hmem
    refine deals_setDispatcher ?_ ?_
    · exact hempty.symm
    · exact hflight.symm
  | freezeAccount | claimCase | tick => exact hkeep
  | resolveCase transactionId tenantId actorId resolution =>
    exact deals_resolveCase s transactionId tenantId actorId resolution

theorem outbox_setStatus (db : Database) (p : Transaction → Bool) (status : TransactionStatus) :
    (db.setStatus p status).outbox = db.outbox := by
  unfold Database.setStatus
  split
  next => exact (setUnderReview_tables db p).2
  next => rfl

/-- The outbox belongs to the payment subsystem. -/
structure Untouched (s t : Register) : Prop where
  outbox : t.db.outbox = s.db.outbox
  dispatchers : t.payments.dispatchers = s.payments.dispatchers
  clock : t.payments.clock = s.payments.clock

theorem untouched_insert (s : Register) (input : NewTransaction) (status : TransactionStatus)
    (settled : Bool) : Untouched s (s.insert input status settled) := by
  unfold Register.insert
  cases hinsert : s.db.insertTransaction input status with
  | none => exact ⟨rfl, rfl, rfl⟩
  | some db =>
    unfold Database.insertTransaction at hinsert
    split at hinsert
    · cases hinsert
    · cases hinsert
      exact ⟨rfl, rfl, rfl⟩

theorem outbox_of_reverse {s : Register} {db : Database} {call : ReversalCall}
    (h : s.db.reverse call.tx call.txRef call.tenantId s.payments.clock = some db) :
    db.outbox = s.db.outbox := by
  unfold Database.reverse at h
  dsimp only at h
  split at h
  · cases h
  · cases h
    rfl

theorem untouched_of_registerStep {s t : Register} {action : RegisterAction}
    (hother : ∀ payment, action ≠ .payment payment) (hstep : registerStep s action = some t) :
    Untouched s t := by
  cases registerTakes_of_step hstep with
  | payment hpayments => exact (hother _ rfl).elim
  | created input score => exact untouched_insert s input _ false
  | notCreated | notRecorded | readUpdate | emptyUpdate | notCleared | readReversal
  | notReversed => exact ⟨rfl, rfl, rfl⟩
  | recorded input score => exact untouched_insert s input _ true
  | storeStablecoin input confirmed => exact untouched_insert s input _ confirmed
  | updated hstatus updates => exact ⟨outbox_setStatus s.db _ _, rfl, rfl⟩
  | flagForReview id tenantId => exact ⟨outbox_setStatus s.db _ .underReview, rfl, rfl⟩
  | flag id tenantId => exact ⟨outbox_setStatus s.db _ .flagged, rfl, rfl⟩
  | cleared hany clears => exact ⟨outbox_setStatus s.db _ .completed, rfl, rfl⟩
  | reversed hreverse reversals => exact ⟨outbox_of_reverse hreverse, rfl, rfl⟩

/-- A step of the register deals with the rows. -/
theorem deals_step (h : s.Custody) {action : RegisterAction} (hcond : Accounts s action)
    (hstep : attemptStep s action = some t) : s.Deals t := by
  obtain ⟨register, hregister, rfl⟩ := Option.map_eq_some_iff.mp hstep
  by_cases hpayment : ∃ payment, action = .payment payment
  · obtain ⟨payment, rfl⟩ := hpayment
    obtain ⟨payments, hpayments, rfl⟩ := Option.map_eq_some_iff.mp hregister
    exact deals_payment h hcond hpayments
  · have hother : ∀ payment, action ≠ .payment payment :=
      fun payment heq => hpayment ⟨payment, heq⟩
    have huntouched := untouched_of_registerStep hother hregister
    have htries : s.triesAfter action = s.tries := by
      cases action with
      | payment payment => exact (hother payment rfl).elim
      | _ => rfl
    unfold Attempted.Deals
    simp only [Attempted.outbox, Attempted.phases, htries, huntouched.outbox,
      huntouched.dispatchers]
    exact .keep (fun _ => rfl) fun _ => rfl

theorem custody_step (h : s.Custody) {action : RegisterAction} (hcond : Accounts s action)
    (hstep : attemptStep s action = some t) :
    t.Custody ∧ LetsGo s.outbox t.outbox s.phases t.phases :=
  custody_of_deals h (deals_step h hcond hstep)

theorem custody_initial : Attempted.initial.Custody where
  ids := nodup_nil
  owned worker lease hlease := by
    cases hlease
  grasped row hrow := by
    cases hrow
  apart worker other lease hlease := by
    cases hlease
  distinct worker := nodup_nil
  attempts row hrow := by
    cases hrow
  counted row hrow := by
    cases hrow
  untried id _ := rfl

theorem bounded_of_custody (h : s.Custody) : Bounded s where
  tries row hrow := Custody.bounded h hrow
  attempts row hrow := (h.attempts row hrow).1
  exhausted row hrow hexhausted hactive := by
    have hfewer := (h.attempts row hrow).2 hactive
    omega

end Register

end Bis.Payments
