import Bis.Aml.Screening
import Bis.Transition.Run
import Mathlib.Data.List.Perm.Basic
import Mathlib.Algebra.GroupWithZero.Nat

/-!
The dead-letter queue of the AML engine: a buffer in memory behind a lock, and one task
that replays what it drained from it, entry by entry, while screenings go on to enqueue.
What the lock covers is one step; a failed entry is counted before the lock is taken.

The identifier and the time of an entry, and the answer to a replay, come from outside.
-/

namespace Bis.Aml

open Bis.Transition List

def dlqCapacity : Nat := 1000

def maxRetries : UInt32 := 3

structure DlqEntry where
  id : String
  request : TransactionScreenRequest
  errorMessage : String
  retryCount : UInt32
  (firstFailedAt lastAttemptedAt : Nat)
  permanentFailure : Bool

def DlqEntry.new (id : String) (request : TransactionScreenRequest) (errorMessage : String)
    (now : Nat) : DlqEntry where
  id
  request
  errorMessage
  retryCount := 0
  firstFailedAt := now
  lastAttemptedAt := now
  permanentFailure := false

/-- The entry that `re_enqueue_failed` makes of one whose replay failed. -/
def DlqEntry.retried (entry : DlqEntry) (error : String) (now : Nat) : DlqEntry :=
  { entry with
    retryCount := entry.retryCount + 1
    lastAttemptedAt := now
    errorMessage := error
    permanentFailure := entry.permanentFailure || maxRetries ≤ entry.retryCount + 1 }

structure DlqStats where
  pending : Nat
  (totalEnqueued totalReplayed totalDropped totalPermanentFailures : UInt64)

/-- The queue, oldest entry first, and its counters. -/
structure AmlDlq where
  queue : List DlqEntry
  (totalEnqueued totalReplayed totalDropped totalPermanentFailures : UInt64)

namespace AmlDlq

def new : AmlDlq := ⟨[], 0, 0, 0, 0⟩

/-- Behind a full queue the oldest entry makes room. -/
def push (dlq : AmlDlq) (entry : DlqEntry) : AmlDlq :=
  if dlqCapacity ≤ dlq.queue.length then
    { dlq with queue := dlq.queue.tail ++ [entry], totalDropped := dlq.totalDropped + 1 }
  else { dlq with queue := dlq.queue ++ [entry] }

def enqueue (dlq : AmlDlq) (id : String) (request : TransactionScreenRequest) (error : String)
    (now : Nat) : AmlDlq :=
  let pushed := dlq.push (.new id request error now)
  { pushed with totalEnqueued := pushed.totalEnqueued + 1 }

def stats (dlq : AmlDlq) : DlqStats where
  pending := dlq.queue.length
  totalEnqueued := dlq.totalEnqueued
  totalReplayed := dlq.totalReplayed
  totalDropped := dlq.totalDropped
  totalPermanentFailures := dlq.totalPermanentFailures

def retryable (entry : DlqEntry) : Bool := !entry.permanentFailure && entry.retryCount < maxRetries

def drainForReplay (dlq : AmlDlq) : List DlqEntry × AmlDlq :=
  (dlq.queue.filter retryable,
    { dlq with
      queue := dlq.queue.filter fun e => e.permanentFailure || maxRetries ≤ e.retryCount })

/-- What a failure counts before it takes the lock. -/
def countFailure (dlq : AmlDlq) (retried : DlqEntry) : AmlDlq :=
  if maxRetries ≤ retried.retryCount then
    { dlq with totalPermanentFailures := dlq.totalPermanentFailures + 1 }
  else dlq

end AmlDlq

/-! ### The replay task -/

structure ReplayTask where
  /-- An entry on its way back into the queue. -/
  failed : Option DlqEntry
  /-- What is left of the drained entries. -/
  entries : List DlqEntry

/-- What is being replayed. -/
def ReplayTask.held (task : ReplayTask) : List DlqEntry := task.failed.toList ++ task.entries

@[simp]
theorem ReplayTask.held_none (entries : List DlqEntry) :
    (⟨none, entries⟩ : ReplayTask).held = entries := rfl

@[simp]
theorem ReplayTask.held_some (entry : DlqEntry) (entries : List DlqEntry) :
    (⟨some entry, entries⟩ : ReplayTask).held = entry :: entries := rfl

structure DlqSystem where
  dlq : AmlDlq
  task : ReplayTask

def DlqSystem.new : DlqSystem := ⟨.new, ⟨none, []⟩⟩

inductive DlqLabel where
  | enqueue (id : String) (request : TransactionScreenRequest) (error : String) (now : Nat)
  | tick
  | replayed
  | failed (error : String) (now : Nat)
  | reEnqueue

def dlqStep : Step DlqSystem DlqLabel
  | s, .enqueue id request error now => some { s with dlq := s.dlq.enqueue id request error now }
  | s, .tick =>
    match s.task with
    | ⟨none, []⟩ => some ⟨s.dlq.drainForReplay.2, ⟨none, s.dlq.drainForReplay.1⟩⟩
    | _ => none
  | s, .replayed =>
    match s.task with
    | ⟨none, _ :: rest⟩ =>
      some ⟨{ s.dlq with totalReplayed := s.dlq.totalReplayed + 1 }, ⟨none, rest⟩⟩
    | _ => none
  | s, .failed error now =>
    match s.task with
    | ⟨none, entry :: rest⟩ =>
      let retried := entry.retried error now
      some ⟨s.dlq.countFailure retried, ⟨some retried, rest⟩⟩
    | _ => none
  | s, .reEnqueue =>
    match s.task with
    | ⟨some entry, rest⟩ => some ⟨s.dlq.push entry, ⟨none, rest⟩⟩
    | _ => none

/-! ### The books of a run -/

/-- The identifiers of the entries that were enqueued, posted by the task, replayed
with success, and evicted. -/
structure DlqBooks where
  (enqueued posted replayed dropped : List String)

def DlqBooks.empty : DlqBooks := ⟨[], [], [], []⟩

/-- The identifiers of entries. -/
def ids (entries : List DlqEntry) : List String := entries.map DlqEntry.id

/-- What a push evicts. -/
def AmlDlq.evicted (dlq : AmlDlq) : List DlqEntry :=
  if dlqCapacity ≤ dlq.queue.length then dlq.queue.take 1 else []

def DlqBooks.record (books : DlqBooks) (s : DlqSystem) : DlqLabel → DlqBooks
  | .enqueue id _ _ _ =>
    { books with
      enqueued := id :: books.enqueued
      dropped := ids s.dlq.evicted ++ books.dropped }
  | .tick => books
  | .replayed =>
    { books with
      posted := ids (s.task.entries.take 1) ++ books.posted
      replayed := ids (s.task.entries.take 1) ++ books.replayed }
  | .failed _ _ =>
    { books with posted := ids (s.task.entries.take 1) ++ books.posted }
  | .reEnqueue => { books with dropped := ids s.dlq.evicted ++ books.dropped }

/-- A step with its entry in the books. -/
def bookedStep : Step (DlqSystem × DlqBooks) DlqLabel
  | (s, books), label => (dlqStep s label).map fun t => (t, books.record s label)

/-- What holds of the queue at any time: no entry is lost or counted twice, the queue is
within its capacity, and no entry is posted more often than it may be. -/
structure Lawful (state : DlqSystem × DlqBooks) : Prop where
  conserved : state.2.enqueued.Perm
    (ids state.1.dlq.queue ++ ids state.1.task.held ++ state.2.replayed ++ state.2.dropped)
  balance : state.1.dlq.totalEnqueued =
    .ofNat (state.1.dlq.stats.pending + state.1.task.held.length) +
      state.1.dlq.totalReplayed + state.1.dlq.totalDropped
  capacity : state.1.dlq.queue.length ≤ dlqCapacity
  attempts : ∀ id, state.2.posted.count id ≤ maxRetries.toNat * state.2.enqueued.count id

/-! ### Moves between the queue and the task -/

theorem AmlDlq.evicted_push (dlq : AmlDlq) (entry : DlqEntry) :
    dlq.evicted ++ (dlq.push entry).queue = dlq.queue ++ [entry] := by
  unfold AmlDlq.evicted AmlDlq.push
  split
  next hfull =>
    cases hqueue : dlq.queue with
    | nil =>
      rw [hqueue] at hfull
      exact absurd hfull (by decide)
    | cons first rest => rfl
  next => rfl

theorem AmlDlq.push_totalDropped (dlq : AmlDlq) (entry : DlqEntry) :
    (dlq.push entry).totalDropped = dlq.totalDropped + .ofNat dlq.evicted.length := by
  unfold AmlDlq.evicted AmlDlq.push
  split
  next hfull =>
    have hone : (dlq.queue.take 1).length = 1 := by
      rw [length_take]
      exact Nat.min_eq_left (Nat.le_trans (by decide) hfull)
    rw [hone]
    rfl
  next => simp

theorem AmlDlq.push_length {dlq : AmlDlq} (h : dlq.queue.length ≤ dlqCapacity)
    (entry : DlqEntry) : (dlq.push entry).queue.length ≤ dlqCapacity := by
  unfold AmlDlq.push
  split
  next hfull =>
    have hpos : 0 < dlqCapacity := by decide
    simp only [length_append, length_tail, length_singleton]
    omega
  next =>
    simp only [length_append, length_singleton]
    omega

/-- What is drained and what stays are the queue. -/
theorem AmlDlq.drain_perm (dlq : AmlDlq) :
    (dlq.drainForReplay.1 ++ dlq.drainForReplay.2.queue).Perm dlq.queue := by
  have hkept : (fun e : DlqEntry => e.permanentFailure || maxRetries ≤ e.retryCount) =
      fun e => !AmlDlq.retryable e := by
    funext e
    simp [AmlDlq.retryable, Bool.not_and, ← decide_not]
  simp only [AmlDlq.drainForReplay, hkept]
  exact filter_append_perm AmlDlq.retryable dlq.queue

/-- How often an entry may still be posted, if it is the one asked about. -/
def allowance (id : String) (entry : DlqEntry) : Nat :=
  if entry.id = id then maxRetries.toNat - entry.retryCount.toNat else 0

def allowances (id : String) (entries : List DlqEntry) : Nat :=
  (entries.map (allowance id)).sum

theorem allowances_append (id : String) (a b : List DlqEntry) :
    allowances id (a ++ b) = allowances id a + allowances id b := by
  simp [allowances]

theorem allowances_cons (id : String) (entry : DlqEntry) (rest : List DlqEntry) :
    allowances id (entry :: rest) = allowance id entry + allowances id rest := by
  simp [allowances]

theorem allowances_perm (id : String) {a b : List DlqEntry} (h : a.Perm b) :
    allowances id a = allowances id b :=
  (h.map (allowance id)).sum_nat

@[simp]
theorem ids_nil : ids [] = [] := rfl

theorem count_ids_cons (id : String) (entry : DlqEntry) (rest : List DlqEntry) :
    (ids (entry :: rest)).count id = [entry.id].count id + (ids rest).count id := by
  simp [ids, count_cons, Nat.add_comm]

theorem ids_append (a b : List DlqEntry) : ids (a ++ b) = ids a ++ ids b := by simp [ids]

theorem AmlDlq.push_count (dlq : AmlDlq) (entry : DlqEntry) (id : String) :
    (ids dlq.evicted).count id + (ids (dlq.push entry).queue).count id =
      (ids dlq.queue).count id + [entry.id].count id := by
  rw [← count_append, ← ids_append, dlq.evicted_push, ids_append, count_append]
  rfl

theorem AmlDlq.push_allowances (dlq : AmlDlq) (entry : DlqEntry) (id : String) :
    allowances id dlq.evicted + allowances id (dlq.push entry).queue =
      allowances id dlq.queue + allowance id entry := by
  rw [← allowances_append, dlq.evicted_push, allowances_append]
  simp [allowances]

@[simp]
theorem AmlDlq.push_totalReplayed (dlq : AmlDlq) (entry : DlqEntry) :
    (dlq.push entry).totalReplayed = dlq.totalReplayed := by
  unfold AmlDlq.push
  split <;> rfl

@[simp]
theorem AmlDlq.push_totalEnqueued (dlq : AmlDlq) (entry : DlqEntry) :
    (dlq.push entry).totalEnqueued = dlq.totalEnqueued := by
  unfold AmlDlq.push
  split <;> rfl

/-- A failure takes one attempt off the allowance. -/
theorem allowance_retried {entry : DlqEntry} (error : String) (now : Nat) (id : String)
    (h : entry.retryCount < maxRetries) :
    allowance id (entry.retried error now) + [entry.id].count id = allowance id entry := by
  have hless : entry.retryCount.toNat < maxRetries.toNat := UInt32.lt_iff_toNat_lt.mp h
  have hthree : maxRetries.toNat = 3 := rfl
  have hretried : (entry.retried error now).retryCount.toNat = entry.retryCount.toNat + 1 := by
    have hsum : (entry.retried error now).retryCount = entry.retryCount + 1 := rfl
    rw [hsum, UInt32.toNat_add]
    exact Nat.mod_eq_of_lt (Nat.lt_of_le_of_lt hless (by decide))
  have hid : (entry.retried error now).id = entry.id := rfl
  by_cases hsame : entry.id = id
  · simp only [allowance, hid, hsame, if_pos, hretried, count_singleton_self]
    omega
  · have hcount : [entry.id].count id = 0 := count_eq_zero.mpr (by simp [Ne.symm hsame])
    rw [allowance, allowance, hid, if_neg hsame, if_neg hsame, hcount]

theorem allowance_pos {entry : DlqEntry} (id : String) (h : entry.retryCount < maxRetries) :
    [entry.id].count id ≤ allowance id entry := by
  rw [← allowance_retried "" 0 id h]
  exact Nat.le_add_left _ _

/-- The books of a state, for each identifier. An entry that waits to be posted has an
attempt left, and those that were made and those that are left fit the allowance. -/
structure Booked (state : DlqSystem × DlqBooks) : Prop where
  conserved : ∀ id, state.2.enqueued.count id =
    (ids state.1.dlq.queue).count id + (ids state.1.task.held).count id +
      state.2.replayed.count id + state.2.dropped.count id
  enqueued : state.1.dlq.totalEnqueued = .ofNat state.2.enqueued.length
  replayed : state.1.dlq.totalReplayed = .ofNat state.2.replayed.length
  dropped : state.1.dlq.totalDropped = .ofNat state.2.dropped.length
  capacity : state.1.dlq.queue.length ≤ dlqCapacity
  retryable : ∀ entry ∈ state.1.task.entries, entry.retryCount < maxRetries
  attempts : ∀ id, state.2.posted.count id +
      (allowances id state.1.dlq.queue + allowances id state.1.task.held) ≤
    maxRetries.toNat * state.2.enqueued.count id

theorem Booked.lawful {state : DlqSystem × DlqBooks} (h : Booked state) : Lawful state := by
  have hperm : state.2.enqueued.Perm
      (ids state.1.dlq.queue ++ ids state.1.task.held ++ state.2.replayed ++ state.2.dropped) := by
    rw [perm_iff_count]
    intro id
    simp only [count_append]
    exact h.conserved id
  refine ⟨hperm, ?_, h.capacity, fun id => Nat.le_trans (Nat.le_add_right _ _) (h.attempts id)⟩
  have hlength := hperm.length_eq
  simp only [ids, length_append, length_map] at hlength
  rw [h.enqueued, h.replayed, h.dropped, hlength]
  simp [AmlDlq.stats, UInt64.ofNat_add]

section

variable {s : DlqSystem} {books : DlqBooks}

theorem enqueue_booked (h : Booked (s, books)) (id : String) (request : TransactionScreenRequest)
    (error : String) (now : Nat) :
    Booked ({ s with dlq := s.dlq.enqueue id request error now },
      books.record s (.enqueue id request error now)) := by
  have hid : (DlqEntry.new id request error now).id = id := rfl
  refine ⟨?_, ?_, ?_, ?_, AmlDlq.push_length h.capacity _, h.retryable, ?_⟩
  · intro other
    have hbefore := h.conserved other
    have hpush := s.dlq.push_count (.new id request error now) other
    rw [hid, count_singleton] at hpush
    simp only [DlqBooks.record, AmlDlq.enqueue, count_append, count_cons] at hbefore ⊢
    omega
  · have hbefore := h.enqueued
    simp only [DlqBooks.record, AmlDlq.enqueue, AmlDlq.push_totalEnqueued, length_cons,
      UInt64.ofNat_add] at hbefore ⊢
    rw [hbefore]
    rfl
  · exact (s.dlq.push_totalReplayed _).trans h.replayed
  · have hbefore := h.dropped
    simp only [DlqBooks.record, AmlDlq.enqueue, AmlDlq.push_totalDropped, ids, length_append,
      length_map, UInt64.ofNat_add] at hbefore ⊢
    rw [hbefore, UInt64.add_comm]
  · intro other
    have hbefore := h.attempts other
    have hpush := s.dlq.push_allowances (.new id request error now) other
    have hnew : allowance other (.new id request error now) =
        maxRetries.toNat * if id == other then 1 else 0 := by
      by_cases hsame : id = other
      · simp [allowance, hsame, DlqEntry.new]
      · simp [allowance, hid, hsame]
    simp only [DlqBooks.record, AmlDlq.enqueue, count_cons] at hbefore ⊢
    rw [Nat.mul_add, ← hnew]
    omega

end

section

variable {dlq : AmlDlq} {entry : DlqEntry} {rest : List DlqEntry} {books : DlqBooks}

/-- The task takes the entries that may be replayed. -/
theorem drain_booked (h : Booked (⟨dlq, ⟨none, []⟩⟩, books)) :
    Booked (⟨dlq.drainForReplay.2, ⟨none, dlq.drainForReplay.1⟩⟩, books) := by
  have hperm := dlq.drain_perm
  refine ⟨?_, h.enqueued, h.replayed, h.dropped, ?_, ?_, ?_⟩
  · intro id
    have hbefore := h.conserved id
    have hcount := (hperm.map DlqEntry.id).count_eq id
    rw [map_append, count_append] at hcount
    simp only [ReplayTask.held_none, ids, map_nil, count_nil] at hbefore ⊢
    omega
  · have hlength := hperm.length_eq
    have hcapacity := h.capacity
    rw [length_append] at hlength
    dsimp only at hcapacity ⊢
    omega
  · intro entry hentry
    have hretryable := (mem_filter.mp hentry).2
    simp only [AmlDlq.retryable, Bool.and_eq_true, decide_eq_true_iff] at hretryable
    exact hretryable.2
  · intro id
    have hbefore := h.attempts id
    have hallowed := allowances_perm id hperm
    rw [allowances_append] at hallowed
    simp only [ReplayTask.held_none] at hbefore ⊢
    omega

/-- The first drained entry was replayed. -/
theorem replayed_booked (h : Booked (⟨dlq, ⟨none, entry :: rest⟩⟩, books)) :
    Booked (⟨{ dlq with totalReplayed := dlq.totalReplayed + 1 }, ⟨none, rest⟩⟩,
      { books with
        posted := ids [entry] ++ books.posted
        replayed := ids [entry] ++ books.replayed }) := by
  refine ⟨?_, h.enqueued, ?_, h.dropped, h.capacity, ?_, ?_⟩
  · intro id
    have hbefore := h.conserved id
    simp only [ReplayTask.held_none, count_ids_cons, count_append, ids_nil,
      count_nil] at hbefore ⊢
    omega
  · have hbefore := h.replayed
    simp only [ids, map_cons, map_nil, cons_append, nil_append,
      length_cons, UInt64.ofNat_add] at hbefore ⊢
    rw [hbefore]
    rfl
  · intro other hother
    exact h.retryable other (mem_cons_of_mem entry hother)
  · intro id
    have hbefore := h.attempts id
    have hpos := allowance_pos id (h.retryable entry mem_cons_self)
    simp only [ReplayTask.held_none, allowances_cons, count_ids_cons, count_append, ids_nil,
      count_nil] at hbefore ⊢
    omega

theorem countFailure_queue (dlq : AmlDlq) (retried : DlqEntry) :
    (dlq.countFailure retried).queue = dlq.queue ∧
      (dlq.countFailure retried).totalEnqueued = dlq.totalEnqueued ∧
      (dlq.countFailure retried).totalReplayed = dlq.totalReplayed ∧
      (dlq.countFailure retried).totalDropped = dlq.totalDropped := by
  unfold AmlDlq.countFailure
  split <;> exact ⟨rfl, rfl, rfl, rfl⟩

/-- Its replay failed: it has one attempt less. -/
theorem failed_booked (h : Booked (⟨dlq, ⟨none, entry :: rest⟩⟩, books)) (error : String)
    (now : Nat) :
    Booked (⟨dlq.countFailure (entry.retried error now),
        ⟨some (entry.retried error now), rest⟩⟩,
      { books with posted := ids [entry] ++ books.posted }) := by
  obtain ⟨hqueue, henqueued, hreplayed, hdropped⟩ :=
    countFailure_queue dlq (entry.retried error now)
  have hid : (entry.retried error now).id = entry.id := rfl
  refine ⟨?_, henqueued.trans h.enqueued, hreplayed.trans h.replayed,
    hdropped.trans h.dropped, ?_, ?_, ?_⟩
  · intro id
    have hbefore := h.conserved id
    simp only [ReplayTask.held_none, ReplayTask.held_some, count_ids_cons, hqueue,
      hid] at hbefore ⊢
    exact hbefore
  · exact Nat.le_trans (Nat.le_of_eq (congrArg List.length hqueue)) h.capacity
  · intro other hother
    exact h.retryable other (mem_cons_of_mem entry hother)
  · intro id
    have hbefore := h.attempts id
    have hless := allowance_retried error now id (h.retryable entry mem_cons_self)
    simp only [ReplayTask.held_none, ReplayTask.held_some, allowances_cons, count_ids_cons,
      count_append, ids_nil, count_nil, hqueue] at hbefore ⊢
    omega

/-- It goes back into the queue. -/
theorem reEnqueue_booked (h : Booked (⟨dlq, ⟨some entry, rest⟩⟩, books)) :
    Booked (⟨dlq.push entry, ⟨none, rest⟩⟩,
      { books with dropped := ids dlq.evicted ++ books.dropped }) := by
  refine ⟨?_, (dlq.push_totalEnqueued entry).trans h.enqueued,
    (dlq.push_totalReplayed entry).trans h.replayed, ?_, AmlDlq.push_length h.capacity entry,
    h.retryable, ?_⟩
  · intro id
    have hbefore := h.conserved id
    have hpush := dlq.push_count entry id
    simp only [ReplayTask.held_none, ReplayTask.held_some, count_ids_cons,
      count_append] at hbefore ⊢
    omega
  · have hbefore := h.dropped
    simp only [AmlDlq.push_totalDropped, ids, length_append, length_map,
      UInt64.ofNat_add] at hbefore ⊢
    rw [hbefore, UInt64.add_comm]
  · intro id
    have hbefore := h.attempts id
    have hpush := dlq.push_allowances entry id
    simp only [ReplayTask.held_none, ReplayTask.held_some, allowances_cons] at hbefore ⊢
    omega

end

/-- No step loses an entry, overfills the queue or spends more than the allowance. -/
theorem booked_of_step {state after : DlqSystem × DlqBooks} {label : DlqLabel}
    (h : Booked state) (hstep : bookedStep state label = some after) : Booked after := by
  obtain ⟨⟨dlq, task⟩, books⟩ := state
  obtain ⟨t, ht, rfl⟩ := Option.map_eq_some_iff.mp hstep
  cases label with
  | enqueue id request error now =>
    cases ht
    exact enqueue_booked h id request error now
  | tick =>
    simp only [dlqStep] at ht
    split at ht
    · cases ht
      exact drain_booked h
    · cases ht
  | replayed =>
    simp only [dlqStep] at ht
    split at ht
    · cases ht
      exact replayed_booked h
    · cases ht
  | failed error now =>
    simp only [dlqStep] at ht
    split at ht
    · cases ht
      exact failed_booked h error now
    · cases ht
  | reEnqueue =>
    simp only [dlqStep] at ht
    split at ht
    · cases ht
      exact reEnqueue_booked h
    · cases ht

theorem booked_new : Booked (.new, .empty) := by
  refine ⟨fun _ => rfl, rfl, rfl, rfl, Nat.zero_le _, ?_, fun _ => Nat.le_refl _⟩
  intro entry hentry
  cases hentry

/-- The books change nothing about a run. -/
theorem run_booked (s : DlqSystem) (books : DlqBooks) (labels : List DlqLabel) :
    (run bookedStep (s, books) labels).map Prod.fst = run dlqStep s labels := by
  induction labels generalizing s books with
  | nil => rfl
  | cons label rest ih =>
    rw [run, run, bookedStep]
    cases dlqStep s label with
    | none => rfl
    | some t => exact ih t _

/-- In every run, with any answers to the replays and any enqueues among them. -/
theorem dlq_always_lawful (labels : List DlqLabel) :
    Always bookedStep Lawful (.new, .empty) labels ∧
      (run bookedStep (.new, .empty) labels).map Prod.fst = run dlqStep .new labels :=
  ⟨(always_of_step labels (fun _ _ _ h hstep => booked_of_step h hstep) booked_new).mono
    fun _ h => h.lawful, run_booked .new .empty labels⟩

end Bis.Aml
