import Bis.Payments.Attempts
import Bis.Relation.Batch
import Mathlib.Data.Prod.Lex

/-!
What becomes of a queued payment. A row waits until it is due, then for a claim that takes it,
then for the worker that holds it. Of the rows before it in the order of the claims a batch
takes away some, and none comes back before it; a worker lets go of its items after so many
steps; and each time round an attempt is counted. So where each of these turns comes again and
again, every row ends with a workflow or in dead letter.
-/

namespace Bis.Payments

open Bis.Relation Bis.Transition Function List

/-- The row has a workflow, or is in dead letter. -/
def Ended (id : Nat) (s : Attempted) : Prop :=
  ∃ row ∈ s.outbox, row.id = id ∧ (row.status = .workflowStarted ∨ row.status = .deadLetter)

def Passes : RegisterAction → Prop
  | .payment (.tick ms) => 0 < ms
  | _ => False

/-- A claim that does not find the row locked. -/
def Claims (id : Nat) : RegisterAction → Prop
  | .payment (.claim _ _ locked) => id ∉ locked
  | _ => False

def Works (worker : Nat) : RegisterAction → Prop
  | .payment (.dispatch other _) | .payment (.recordStarted other _)
  | .payment (.handleFailure other _) => other = worker
  | _ => False

/-- The workers account for what they hold and go on with it, time passes, and no row is
locked at every claim. -/
structure Fair {s : Attempted} (r : Endless attemptStep s) : Prop where
  accounts : ∀ n, Accounts (r.state n) (r.label n)
  passes : ∀ n, ∃ m, n ≤ m ∧ Passes (r.label m)
  claims : ∀ n id, ∃ m, n ≤ m ∧ Claims id (r.label m)
  works : ∀ n worker, ((r.state n).phases worker).held ≠ [] →
    ∃ m, n ≤ m ∧ Works worker (r.label m)

def idling (phases : Nat → Dispatcher) (clock : Nat) : Attempted :=
  { Attempted.initial with
    register.payments :=
      { System.initial [] with
        dispatchers := phases
        clock } }

/-- A worker that looks for rows for ever, and finds none. -/
def looking (n : Nat) : Attempted :=
  idling (update (fun _ => .idle) 0
    (match n % 4 with
    | 1 => .claiming
    | 2 => .handling []
    | _ => .idle)) (n / 4)

def look (n : Nat) : Action :=
  match n % 4 with
  | 0 => .expireLeases 0
  | 1 => .claim 0 25 []
  | 2 => .finishCycle 0
  | _ => .tick 1

theorem looking_step (n : Nat) :
    attemptStep (looking n) (.payment (look n)) = some (looking (n + 1)) := by
  have hphase : n % 4 = 0 ∧ (n + 1) % 4 = 1 ∧ (n + 1) / 4 = n / 4 ∨
      n % 4 = 1 ∧ (n + 1) % 4 = 2 ∧ (n + 1) / 4 = n / 4 ∨
      n % 4 = 2 ∧ (n + 1) % 4 = 3 ∧ (n + 1) / 4 = n / 4 ∨
      n % 4 = 3 ∧ (n + 1) % 4 = 0 ∧ (n + 1) / 4 = n / 4 + 1 := by
    omega
  have hnext (phase phase' : Dispatcher) :=
    congrArg (fun phases => some (idling phases (n / 4)))
      (update_idem (a := 0) phase phase' fun _ => .idle)
  unfold looking look
  rcases hphase with ⟨h, h', h''⟩ | ⟨h, h', h''⟩ | ⟨h, h', h''⟩ | ⟨h, h', h''⟩
  all_goals rw [h, h', h'']
  · exact hnext .idle .claiming
  · exact hnext .claiming (.handling [])
  · exact hnext (.handling []) .idle
  · rfl

/-- There are fair runs. -/
theorem fair_looking : ∃ r : Endless attemptStep .initial, Fair r := by
  have hlook (n j : Nat) (h : j < 4) : (4 * n + j) % 4 = j := by omega
  have hheld : ∀ n worker, ((looking n).phases worker).held = [] := by
    intro n
    refine (forall_update_iff _ fun _ phase => Dispatcher.held phase = []).mpr ⟨?_, fun _ _ => rfl⟩
    split <;> rfl
  refine ⟨⟨looking, fun n => .payment (look n), ?_, looking_step⟩, ?_, ?_, ?_, ?_⟩
  · exact congrArg (fun phases => idling phases 0) (update_eq_self 0 _)
  · intro n
    dsimp only [look]
    split
    next => exact fun row hrow => by cases hrow
    all_goals trivial
  · refine fun n => ⟨4 * n + 3, by omega, ?_⟩
    dsimp only [look]
    rw [hlook n 3 (by decide)]
    exact Nat.one_pos
  · refine fun n id => ⟨4 * n + 1, by omega, ?_⟩
    dsimp only [look]
    rw [hlook n 1 (by decide)]
    exact not_mem_nil
  · exact fun n worker hne => absurd (hheld n worker) hne

/-! ### Rows before a row -/

section Rows

variable {rows rows' : List OutboxRow} {phases phases' : Nat → Dispatcher}
  {tries tries' : Nat → Nat} {row : OutboxRow} {clock : Nat}

/-- A queued row that comes no later than `row` in the order of the claims. -/
def precedes (row other : OutboxRow) : Bool :=
  other.status == .queued && decide (claimOrder other row)

def upTo (row : OutboxRow) (rows : List OutboxRow) : Nat :=
  rows.countP (precedes row)

theorem not_precedes {other : OutboxRow} (hdue : row.nextAttemptAt < clock)
    (hlater : other.status = .queued → clock ≤ other.nextAttemptAt) : ¬ precedes row other := by
  intro hprecedes
  obtain ⟨hqueued, horder⟩ := Bool.and_eq_true_iff.mp hprecedes
  have hlate := hlater (eq_of_beq hqueued)
  have hbefore := of_decide_eq_true horder
  unfold claimOrder at hbefore
  omega

/-- Nothing comes before a row that is due. -/
theorem upTo_le (hdeals : Deals clock rows phases tries rows' phases' tries')
    (hdue : row.nextAttemptAt < clock) : upTo row rows' ≤ upTo row rows := by
  cases hdeals with
  | keep | dispatch => exact Nat.le_refl _
  | queue _ _ _ hlater =>
    unfold upTo
    rw [countP_append, countP_singleton, if_neg (not_precedes hdue fun _ => hlater)]
    exact Nat.le_refl _
  | account _ hsettles =>
    refine countP_updateWhere_le fun other _ _ => not_precedes hdue ?_
    exact fun hqueued => (hsettles.again other hqueued).2
  | claim _ hleases =>
    refine countP_updateWhere_le fun other _ _ => not_precedes hdue ?_
    rw [(hleases.leased other).2.2]
    exact nofun
  | retry hretries =>
    exact countP_updateWhere_le fun other _ _ => not_precedes hdue fun _ => hretries.later other

/-- A queued row stays as it is or is claimed. -/
theorem queued_of_deals (hdeals : Deals clock rows phases tries rows' phases' tries')
    (hrow : row ∈ rows) (hqueued : row.status = .queued) :
    row ∈ rows' ∨
      ∃ row' ∈ rows', row'.id = row.id ∧ row'.status = .leased ∧ row'.attempts = row.attempts := by
  cases hdeals with
  | keep | dispatch => exact .inl hrow
  | queue => exact .inl (mem_append_left _ hrow)
  | account =>
    refine .inl (mem_updateWhere_of_not hrow fun hp => ?_)
    exact absurd hqueued ((leased_of_holdsLease hp).2 ▸ nofun)
  | @claim _ chosen _ f _ hleases =>
    by_cases hp : (chosen.any fun claimed => claimed.id == row.id) = true
    · obtain ⟨hid, hattempts, hleased⟩ := hleases.leased row
      exact .inr ⟨f row, mem_updateWhere.mpr (.inl ⟨row, hrow, hp, rfl⟩), hid, hleased, hattempts⟩
    · exact .inl (mem_updateWhere_of_not hrow hp)
  | retry hretries =>
    refine .inl (mem_updateWhere_of_not hrow fun hp => ?_)
    exact absurd hqueued (hretries.dead row hp ▸ nofun)

instance : Std.Total claimOrder where
  total a b := by
    unfold claimOrder
    omega

instance : IsTrans OutboxRow claimOrder where
  trans a b c hab hbc := by
    unfold claimOrder at *
    omega

/-- A claim that passes over a due row takes some of those before it. -/
theorem upTo_claim {db : Database} (hrow : row ∈ db.outbox) (hqueued : row.status = .queued)
    {now limit : Nat} {locked : List Nat} (hdue : row.nextAttemptAt ≤ now)
    (hlocked : row.id ∉ locked) (hnot : row ∉ db.candidates now limit locked) :
    upTo row (db.claim now limit locked).1.outbox < upTo row db.outbox := by
  let taken (other : OutboxRow) : Bool :=
    (db.candidates now limit locked).any fun claimed => claimed.id == other.id
  have hmem : row ∈ db.outbox.filter fun row => row.status == .queued &&
      decide (row.nextAttemptAt ≤ now) && !locked.contains row.id := by
    refine mem_filter.mpr ⟨hrow, ?_⟩
    simp [hqueued, hdue, hlocked]
  obtain ⟨hfull, hbefore⟩ := before_of_passedOver hmem hnot
  have hall : ∀ other ∈ db.candidates now limit locked,
      precedes row other = true ∧ taken other = true := by
    intro other hother
    have horder := hbefore other hother
    have hstatus := (queued_of_candidate hother).2
    exact ⟨by simp [precedes, hstatus, horder],
      any_eq_true.mpr ⟨other, hother, beq_self_eq_true _⟩⟩
  have hsub : (db.candidates now limit locked).Subperm db.outbox :=
    (firstBy_subperm _ _).trans filter_sublist.subperm
  have hpicked := countP_without_picked hsub hall
  have hle : (db.claim now limit locked).1.outbox.countP (precedes row) ≤
      db.outbox.countP fun other => precedes row other && !taken other := by
    simp only [Database.claim, Database.updateOutbox, updateWhere]
    rw [countP_map]
    apply countP_mono_left
    intro other _ hp
    rw [comp_apply] at hp
    split at hp
    next => cases hp
    next hkept =>
      rw [hp, Bool.true_and, Bool.not_eq_true']
      exact Bool.eq_false_iff.mpr hkept
  change (db.candidates now limit locked).length = max 1 _ at hfull
  unfold upTo
  omega

end Rows

/-! ### Steps of a worker -/

/-- The steps until a worker has let go of its items. -/
def Dispatcher.rank : Dispatcher → Nat
  | .idle | .claiming => 0
  | .handling leases => 3 * leases.length
  | .started _ rest => 3 * rest.length + 2
  | .failed _ rest => 3 * rest.length + 1

section Steps

variable {s t : System} {action : Action} {worker other : Nat} {phase : Dispatcher}

theorem held_of_rank (h : phase.rank = 0) : phase.held = [] := by
  cases phase with
  | idle => rfl
  | claiming => rfl
  | handling leases =>
    apply eq_nil_of_length_eq_zero
    change 3 * leases.length = 0 at h
    change leases.length = 0
    omega
  | started | failed => cases h

/-- A worker with items is a step further, or where it was. -/
def Falls (s t : System) (action : Action) (worker : Nat) : Prop :=
  (t.dispatchers worker).rank < (s.dispatchers worker).rank ∨
    (t.dispatchers worker = s.dispatchers worker ∧ ¬ Works worker (.payment action))

/-- One worker changes its phase. -/
theorem falls_of_set (hphases : t.dispatchers = update s.dispatchers other phase)
    (hworks : ∀ worker, Works worker (.payment action) → other = worker)
    (hheld : (s.dispatchers worker).held ≠ [])
    (hfewer : (s.dispatchers other).held ≠ [] → phase.rank < (s.dispatchers other).rank) :
    Falls s t action worker := by
  unfold Falls
  rw [hphases]
  rcases eq_or_ne worker other with rfl | hne
  · rw [update_self]
    exact .inl (hfewer hheld)
  · rw [update_of_ne hne]
    exact .inr ⟨rfl, fun hw => hne (hworks worker hw).symm⟩

theorem escalateNext_phase (s : System) (worker : Nat) (item : PaymentOutboxRow)
    (errorCode : String) (rest : List Lease) :
    ∃ phase, (s.escalateNext worker item errorCode rest).dispatchers =
      update s.dispatchers worker phase ∧ phase.rank ≤ 3 * rest.length := by
  unfold System.escalateNext
  split
  next db _ => exact ⟨.handling rest, rfl, Nat.le_refl _⟩
  next => exact ⟨.idle, rfl, Nat.zero_le _⟩

theorem falls_of_step (hstep : paymentStep s action = some t)
    (hheld : (s.dispatchers worker).held ≠ []) : Falls s t action worker := by
  cases systemTakes_of_step hstep with
  | expireLeases hphase | claim hphase limit locked | finishCycle hphase =>
    refine falls_of_set rfl (fun _ => False.elim) hheld fun hne => absurd ?_ hne
    exact congrArg Dispatcher.held hphase
  | crash other =>
    refine falls_of_set rfl (fun _ => False.elim) hheld fun hne => Nat.pos_of_ne_zero ?_
    exact fun hzero => hne (held_of_rank hzero)
  | dispatched hphase _ started =>
    refine falls_of_set rfl (fun _ => id) hheld fun _ => ?_
    rw [hphase]
    cases started with
    | true => exact Nat.lt_succ_self _
    | false => exact Nat.lt_succ_of_lt (Nat.lt_succ_self _)
  | stored hphase =>
    refine falls_of_set rfl (fun _ => id) hheld fun _ => ?_
    rw [hphase]
    exact Nat.lt_add_of_pos_right (by decide)
  | notStored hphase | requeued hphase =>
    refine falls_of_set rfl (fun _ => id) hheld fun _ => ?_
    rw [hphase]
    exact Nat.lt_succ_self _
  | rejected hphase =>
    obtain ⟨phase, hphases, hrank⟩ := escalateNext_phase s _ _ _ _
    refine falls_of_set hphases (fun _ => id) hheld fun _ => Nat.lt_of_le_of_lt hrank ?_
    rw [hphase]
    exact Nat.lt_add_of_pos_right (by decide)
  | exhausted hphase =>
    obtain ⟨phase, hphases, hrank⟩ := escalateNext_phase s _ _ _ _
    refine falls_of_set hphases (fun _ => id) hheld fun _ => Nat.lt_of_le_of_lt hrank ?_
    rw [hphase]
    exact Nat.lt_succ_self _
  | initiateTransfer | freezeAccount | claimCase | resolveCase | tick => exact .inr ⟨rfl, id⟩

end Steps

/-! ### Turns -/

/-- What a row waits for. -/
inductive Turn where
  | time | claim
  | work (worker : Nat)

def Gives (id : Nat) : Turn → RegisterAction → Prop
  | .time => Passes
  | .claim => Claims id
  | .work worker => Works worker

/-- The attempts left, the turns until the next one, and the steps until it is its turn. -/
def distance (attempts turns steps : Nat) : ℕ ×ₗ ℕ ×ₗ ℕ :=
  toLex (maxAttempts - attempts, toLex (turns, steps))

inductive Awaits (id : Nat) (s : Attempted) : Turn → ℕ ×ₗ ℕ ×ₗ ℕ → Prop
  | time {row : OutboxRow} (hrow : row ∈ s.outbox) (hid : row.id = id)
      (hqueued : row.status = .queued) (hlater : s.clock ≤ row.nextAttemptAt) :
      Awaits id s .time (distance row.attempts 2 (row.nextAttemptAt + 1 - s.clock))
  | claim {row : OutboxRow} (hrow : row ∈ s.outbox) (hid : row.id = id)
      (hqueued : row.status = .queued) (hdue : row.nextAttemptAt < s.clock) :
      Awaits id s .claim (distance row.attempts 1 (upTo row s.outbox))
  | work {worker : Nat} {lease : Lease} (hlease : lease ∈ (s.phases worker).held)
      (hid : lease.item.id = id) :
      Awaits id s (.work worker) (distance lease.item.attempts 0 (s.phases worker).rank)

theorem distance_lt_iff {n m a b c d : Nat} :
    distance n a b < distance m c d ↔ maxAttempts - n < maxAttempts - m ∨
      (maxAttempts - n = maxAttempts - m ∧ (a < c ∨ (a = c ∧ b < d))) := by
  simp [distance, Prod.Lex.toLex_lt_toLex]

section Turns

variable {s t : Attempted} {action : RegisterAction} {row : OutboxRow} {worker id : Nat}

/-- A row has ended or waits for a turn; a leased one waits for its worker. -/
theorem awaits_of_row (h : s.Custody) (hrow : row ∈ s.outbox) :
    Ended row.id s ∨ ∃ turn turns steps, Awaits row.id s turn (distance row.attempts turns steps) ∧
      (row.status = .leased → turns = 0) := by
  cases hstatus : row.status with
  | queued =>
    right
    by_cases hlater : s.clock ≤ row.nextAttemptAt
    · exact ⟨.time, 2, _, .time hrow rfl hstatus hlater, nofun⟩
    · exact ⟨.claim, 1, _, .claim hrow rfl hstatus (Nat.lt_of_not_le hlater), nofun⟩
  | leased =>
    right
    obtain ⟨worker, lease, hlease, hkey⟩ := h.grasped row hrow hstatus
    obtain ⟨held, hheld, hkey', _, hsame⟩ := h.owned worker lease hlease
    obtain rfl := inj_on_of_nodup_map h.ids hheld hrow (hkey'.trans hkey)
    rw [hsame]
    exact ⟨.work worker, 0, _, .work hlease hkey, fun _ => rfl⟩
  | workflowStarted => exact .inl ⟨row, hrow, rfl, .inl hstatus⟩
  | deadLetter => exact .inl ⟨row, hrow, rfl, .inr hstatus⟩

theorem clock_of_payment {s t : System} {action : Action} (h : paymentStep s action = some t) :
    s.clock ≤ t.clock ∧ (Passes (.payment action) → s.clock < t.clock) := by
  have hescalate : ∀ worker item errorCode rest,
      (s.escalateNext worker item errorCode rest).clock = s.clock := by
    intro worker item errorCode rest
    unfold System.escalateNext
    split
    next => rfl
    next => rfl
  cases systemTakes_of_step h with
  | rejected | exhausted => exact ⟨(hescalate _ _ _ _).ge, False.elim⟩
  | tick ms => exact ⟨Nat.le_add_right _ _, Nat.lt_add_of_pos_right⟩
  | _ => exact ⟨Nat.le_refl _, False.elim⟩

/-- The clock and the workers in a step of the register. -/
theorem turn_of_step (hstep : attemptStep s action = some t) :
    (s.clock ≤ t.clock ∧ (Passes action → s.clock < t.clock)) ∧
      ∀ worker, (s.phases worker).held ≠ [] →
        (t.phases worker).rank < (s.phases worker).rank ∨
          (t.phases worker = s.phases worker ∧ ¬ Works worker action) := by
  obtain ⟨register, hregister, rfl⟩ := Option.map_eq_some_iff.mp hstep
  by_cases hpayment : ∃ payment, action = .payment payment
  · obtain ⟨payment, rfl⟩ := hpayment
    obtain ⟨payments, hpayments, rfl⟩ := Option.map_eq_some_iff.mp hregister
    exact ⟨clock_of_payment hpayments, fun worker => falls_of_step hpayments⟩
  · have hother : ∀ payment, action ≠ .payment payment :=
      fun payment heq => hpayment ⟨payment, heq⟩
    have huntouched := untouched_of_registerStep hother hregister
    have hnone : ¬ Passes action ∧ ∀ worker, ¬ Works worker action := by
      cases action with
      | payment payment => exact (hother payment rfl).elim
      | _ => exact ⟨id, fun _ => id⟩
    exact ⟨⟨huntouched.clock.ge, fun hp => absurd hp hnone.1⟩,
      fun worker _ => .inr ⟨congrFun huntouched.dispatchers worker, hnone.2 worker⟩⟩

/-- A due row that is still queued after a claim has fewer rows before it. -/
theorem upTo_lt_of_claims (hclaims : Claims row.id action) (hstep : attemptStep s action = some t)
    (hids : (t.outbox.map OutboxRow.id).Nodup) (hrow : row ∈ s.outbox)
    (hqueued : row.status = .queued) (hdue : row.nextAttemptAt < s.clock)
    (hkept : row ∈ t.outbox) : upTo row t.outbox < upTo row s.outbox := by
  unfold Claims at hclaims
  split at hclaims
  next worker limit locked =>
    obtain ⟨register, hregister, rfl⟩ := Option.map_eq_some_iff.mp hstep
    obtain ⟨payments, hpayments, rfl⟩ := Option.map_eq_some_iff.mp hregister
    cases systemTakes_of_step hpayments with
    | claim hphase =>
      apply upTo_claim hrow hqueued (Nat.le_of_lt hdue) hclaims
      intro hmem
      have htaken : { row with status := .leased, leasedAt := some s.clock } ∈
          (s.register.db.claim s.clock limit locked).1.outbox := by
        refine mem_updateWhere.mpr (.inl ⟨row, hrow, ?_, rfl⟩)
        exact any_eq_true.mpr ⟨row, hmem, beq_self_eq_true _⟩
      have heq := inj_on_of_nodup_map hids hkept htaken rfl
      rw [heq] at hqueued
      cases hqueued
  next => cases hclaims

/-- A queued row stays as it is, or is nearer to its end. -/
theorem queued_step (hdeals : s.Deals t) (hcustody : t.Custody) (hrow : row ∈ s.outbox)
    (hqueued : row.status = .queued) {turns steps : Nat} (hturns : 0 < turns) :
    row ∈ t.outbox ∨ Ended row.id t ∨
      ∃ turn d, d < distance row.attempts turns steps ∧ Awaits row.id t turn d := by
  refine (queued_of_deals hdeals hrow hqueued).imp_right ?_
  rintro ⟨row', hrow', hid, hleased, hattempts⟩
  rw [← hid]
  refine (awaits_of_row hcustody hrow').imp_right ?_
  rintro ⟨turn, turns', steps', hawaits, hzero⟩
  refine ⟨turn, _, distance_lt_iff.mpr (.inr ⟨?_, .inl ?_⟩), hawaits⟩
  · rw [hattempts]
  · rw [hzero hleased]
    exact hturns

/-- A step ends the row, or brings it nearer to its end, or it was not its turn. -/
theorem awaits_step (h : s.Custody) (hcond : Accounts s action)
    (hstep : attemptStep s action = some t) {turn : Turn} {d : ℕ ×ₗ ℕ ×ₗ ℕ}
    (hawaits : Awaits id s turn d) :
    Ended id t ∨ (∃ turn' d', d' < d ∧ Awaits id t turn' d') ∨
      (Awaits id t turn d ∧ ¬ Gives id turn action) := by
  obtain ⟨hcustody, hletsGo⟩ := custody_step h hcond hstep
  have hdeals := deals_step h hcond hstep
  obtain ⟨⟨hclock, hpasses⟩, hfalls⟩ := turn_of_step hstep
  cases hawaits with
  | @time row hrow hid hqueued hlater =>
    subst hid
    rcases queued_step hdeals hcustody hrow hqueued (Nat.succ_pos 1) with hkept | hnearer
    · right
      by_cases hnow : t.clock ≤ row.nextAttemptAt
      · by_cases hsame : t.clock = s.clock
        · refine .inr ⟨hsame ▸ .time hkept rfl hqueued hnow, fun hp => ?_⟩
          have hlt := hpasses hp
          omega
        · refine .inl ⟨.time, _, distance_lt_iff.mpr (.inr ⟨rfl, .inr ⟨rfl, ?_⟩⟩),
            .time hkept rfl hqueued hnow⟩
          omega
      · exact .inl ⟨.claim, _, distance_lt_iff.mpr (.inr ⟨rfl, .inl (Nat.lt_succ_self 1)⟩),
          .claim hkept rfl hqueued (Nat.lt_of_not_le hnow)⟩
    · exact hnearer.imp_right .inl
  | @claim row hrow hid hqueued hdue =>
    subst hid
    rcases queued_step hdeals hcustody hrow hqueued Nat.zero_lt_one with hkept | hnearer
    · right
      have hstill : Awaits row.id t .claim (distance row.attempts 1 (upTo row t.outbox)) :=
        .claim hkept rfl hqueued (Nat.lt_of_lt_of_le hdue hclock)
      rcases (upTo_le hdeals hdue).lt_or_eq with hlt | heq
      · exact .inl ⟨.claim, _, distance_lt_iff.mpr (.inr ⟨rfl, .inr ⟨rfl, hlt⟩⟩), hstill⟩
      · refine .inr ⟨heq ▸ hstill, fun hclaims => ?_⟩
        have hlt := upTo_lt_of_claims hclaims hstep hcustody.ids hrow hqueued hdue hkept
        omega
    · exact hnearer.imp_right .inl
  | @work worker lease hlease hid =>
    subst hid
    rcases hletsGo worker lease hlease with hkept | ⟨row, hrow, row', hrow', hkey, hkey', hprogress⟩
    · right
      have hstill := Awaits.work hkept rfl
      rcases hfalls worker (ne_nil_of_mem hlease) with hlt | ⟨hsame, hnot⟩
      · exact .inl ⟨.work worker, _, distance_lt_iff.mpr (.inr ⟨rfl, .inr ⟨rfl, hlt⟩⟩), hstill⟩
      · rw [hsame] at hstill
        exact .inr ⟨hstill, hnot⟩
    · rcases hprogress with hstarted | hmore
      · exact .inl ⟨row', hrow', hkey', .inl hstarted⟩
      · rw [← hkey']
        refine (awaits_of_row hcustody hrow').imp_right ?_
        rintro ⟨turn, turns, steps, hawaits, _⟩
        refine .inl ⟨turn, _, distance_lt_iff.mpr (.inl ?_), hawaits⟩
        obtain ⟨held, hheld, hid, _, hattempts⟩ := h.owned worker lease hlease
        obtain rfl := inj_on_of_nodup_map h.ids hheld hrow (hid.trans hkey.symm)
        have hmax := (hcustody.attempts row' hrow').1
        omega

/-- In a fair run every row ends. -/
theorem ended_of_fair (h : s.Custody) (r : Endless attemptStep s) (hfair : Fair r)
    (hrow : row ∈ s.outbox) : ∃ n, Ended row.id (r.state n) := by
  have hcustody : ∀ n, (r.state n).Custody := by
    apply r.invariant _ h hfair.accounts
    exact fun s a t hs hcond hstep => (custody_step hs hcond hstep).1
  have hstart : row ∈ (r.state 0).outbox := by
    rw [r.starts]
    exact hrow
  rcases awaits_of_row (hcustody 0) hstart with hended | ⟨turn, turns, steps, hawaits, _⟩
  · exact ⟨0, hended⟩
  · have hgives : ∀ n turn d, Awaits row.id (r.state n) turn d →
        ∃ m, n ≤ m ∧ Gives row.id turn (r.label m) := by
      intro n turn d hat
      cases hat with
      | time => exact hfair.passes n
      | claim => exact hfair.claims n row.id
      | work hlease => exact hfair.works n _ (ne_nil_of_mem hlease)
    refine r.reaches wellFounded_lt ?_ hgives hawaits
    exact fun n turn d hat => awaits_step (hcustody n) (hfair.accounts n) (r.steps n) hat

end Turns

/-- Along every run in which the workers account for what they hold, no row is
dispatched more than ten times, and no claimed item is dropped; where from then on they also
go on with it, time passes and no row is always locked, every row ends with a workflow or in
dead letter. -/
theorem items_handled (labels : List RegisterAction)
    (h : Meets attemptStep Accounts .initial labels) :
    Always attemptStep Bounded .initial labels ∧ Meets attemptStep Handles .initial labels ∧
      ∀ s, run attemptStep .initial labels = some s → ∀ r : Endless attemptStep s, Fair r →
        ∀ row ∈ s.outbox, ∃ n, Ended row.id (r.state n) := by
  have hcustody : ∀ s a t, s.Custody → Accounts s a → attemptStep s a = some t → t.Custody :=
    fun s a t hs hcond hstep => (custody_step hs hcond hstep).1
  have halways := always_of_meets hcustody custody_initial h
  refine ⟨halways.mono fun s hs => bounded_of_custody hs, ?_, ?_⟩
  · apply meets_of_invariant hcustody _ custody_initial h
    intro s a hs hcond t hstep
    exact (custody_step hs hcond hstep).2
  · intro s hs r hfair row hrow
    exact ended_of_fair (halways.finish hs) r hfair hrow

/-- What a worker holds, and how far the rows are. -/
def Attempted.progress (s : Attempted) (worker : Nat) : List Nat × List (Nat × OutboxStatus × Nat) :=
  ((s.phases worker).held.map fun lease => lease.item.id,
    s.outbox.map fun row => (row.id, row.status, row.attempts))

/-- The first claimed item cannot be escalated, because its account was frozen;
the second one is dropped with it. -/
theorem failed_escalation_drops_items :
    ¬ ∀ labels, Always attemptStep Bounded .initial labels ∧
      Meets attemptStep Handles .initial labels := by
  intro h
  let before : List RegisterAction :=
    [.payment (.initiateTransfer unnamedTransfer), .payment (.initiateTransfer sampleTransfer),
      .payment (.freezeAccount "ACC-2"), .payment (.expireLeases 0), .payment (.claim 0 25 [])]
  let escalation : RegisterAction := .payment (.dispatch 0 false)
  have hbefore : (run attemptStep .initial before).map (fun s => s.progress 0) =
      some ([1, 2], [(1, .leased, 0), (2, .leased, 0)]) := by
    decide
  have hafter : (run attemptStep .initial (before ++ [escalation])).map (fun s => s.progress 0) =
      some ([], [(1, .leased, 0), (2, .leased, 0)]) := by
    decide
  obtain ⟨t, ht, hfinish⟩ := Option.map_eq_some_iff.mp hafter
  obtain ⟨s, hs, hrest⟩ := (run_append_iff _ _ _ _).mp ht
  obtain ⟨s', hs', hstart⟩ := Option.map_eq_some_iff.mp hbefore
  obtain rfl : s = s' := Option.some.inj (hs.symm.trans hs')
  obtain ⟨t', hstep, hdone⟩ := (run_cons_iff _ _ _ _).mp hrest
  obtain rfl : t' = t := Option.some.inj hdone
  obtain ⟨hhandles, _⟩ := ((h (before ++ [escalation])).2.append hs) t' hstep
  have hheld : (s.phases 0).held.map (fun lease => lease.item.id) = [1, 2] :=
    congrArg Prod.fst hstart
  have hlost : (t'.phases 0).held.map (fun lease => lease.item.id) = [] :=
    congrArg Prod.fst hfinish
  have hrows : s.outbox.map (fun row => (row.id, row.status, row.attempts)) =
      [(1, .leased, 0), (2, .leased, 0)] := congrArg Prod.snd hstart
  have hrows' : t'.outbox.map (fun row => (row.id, row.status, row.attempts)) =
      [(1, .leased, 0), (2, .leased, 0)] := congrArg Prod.snd hfinish
  obtain ⟨lease, hlease, _⟩ : ∃ lease ∈ (s.phases 0).held, lease.item.id = 2 := by
    apply mem_map.mp
    rw [hheld]
    decide
  rcases hhandles t' hstep 0 lease hlease with hkept | ⟨row, hrow, row', hrow', _, _, hprogress⟩
  · rw [map_eq_nil_iff.mp hlost] at hkept
    cases hkept
  · have hleased := mem_map_of_mem (f := fun row : OutboxRow =>
      (row.id, row.status, row.attempts)) hrow
    have hleased' := mem_map_of_mem (f := fun row : OutboxRow =>
      (row.id, row.status, row.attempts)) hrow'
    rw [hrows] at hleased
    rw [hrows'] at hleased'
    simp only [mem_cons, Prod.mk.injEq, not_mem_nil, or_false] at hleased hleased'
    rcases hprogress with hstarted | hmore
    · rw [hstarted] at hleased'
      simp at hleased'
    · omega

/-- `Accounts` where no lease can have expired and nothing has to be escalated. -/
def plainlyAccounts (s : Attempted) : RegisterAction → Bool
  | .payment (.expireLeases _) => s.outbox.all fun row => row.status != .leased
  | .payment (.dispatch worker _) =>
    (s.phases worker).held.all fun lease => lease.item.isDispatchable
  | .payment (.handleFailure worker _) =>
    (s.phases worker).held.all fun lease => decide (lease.item.attempts + 1 < maxAttempts)
  | .payment (.crash worker) => (s.phases worker).held.isEmpty
  | _ => true

theorem accounts_of_plainlyAccounts {s : Attempted} {action : RegisterAction}
    (h : plainlyAccounts s action) : Accounts s action := by
  cases action with
  | payment action =>
    cases action with
    | expireLeases worker =>
      intro row hrow hleased
      have hnot := all_eq_true.mp h row hrow
      simp [hleased] at hnot
    | dispatch worker started =>
      intro lease rest hhandling hnot
      have hall := all_eq_true.mp h lease
      rw [hhandling] at hall
      exact (hnot (hall mem_cons_self)).elim
    | handleFailure worker jitter =>
      intro lease rest hfailed hlast
      have hall := all_eq_true.mp h lease
      rw [hfailed] at hall
      have hfewer := of_decide_eq_true (hall mem_cons_self)
      omega
    | crash worker => exact List.isEmpty_iff.mp h
    | _ => trivial
  | _ => trivial

/-- The first start fails, the second one is recorded. -/
theorem retried_item_handled :
    let labels : List RegisterAction :=
      [.payment (.initiateTransfer sampleTransfer), .payment (.expireLeases 0),
        .payment (.claim 0 25 []), .payment (.dispatch 0 false), .payment (.handleFailure 0 7),
        .payment (.finishCycle 0), .payment (.tick 1100), .payment (.expireLeases 1),
        .payment (.claim 1 25 []), .payment (.dispatch 1 true), .payment (.recordStarted 1 true)]
    Always attemptStep Bounded .initial labels ∧ Meets attemptStep Handles .initial labels ∧
      ∀ s, run attemptStep .initial labels = some s → ∀ r : Endless attemptStep s, Fair r →
        ∀ row ∈ s.outbox, ∃ n, Ended row.id (r.state n) := by
  intro labels
  have hplain : Meets attemptStep (fun s action => plainlyAccounts s action) .initial labels := by
    decide
  exact items_handled labels (hplain.mono fun s action => accounts_of_plainlyAccounts)

end Bis.Payments
