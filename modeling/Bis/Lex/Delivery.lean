import Bis.Lex.Intake

/-!
What becomes of an accepted submission. It stays in the queue until BIS has received it
or the worker has failed with it five times; and what the handler does not hand over
itself is received once more at most than there were receipts that the service did not
learn of or did not store.
-/

namespace Bis.Lex

open Bis.Relation Bis.Transition List

/-! ### What is promised -/

namespace System

def Waiting (s : System) (submission : Nat) : Prop :=
  ∃ row ∈ s.rows, row.submission = submission ∧ row.inQueue = true

/-- The worker has failed with it too often. -/
def GivenUp (s : System) (submission : Nat) : Prop :=
  ∃ row ∈ s.rows, row.submission = submission ∧ row.status = .failed ∧
    maxSyncAttempts ≤ row.syncAttempts

end System

def QueuedUntilReceived (s : System) : Prop :=
  ∀ n ∈ s.accepted, n ∈ s.received ∨ s.Waiting n

def ReceivedOnce (s : System) : Prop := ∀ n ∈ s.accepted, s.received.count n ≤ 1

/-- What the code does by design. A row leaves the queue when BIS has received its
submission, or after the last attempt. -/
structure Synced (s : System) : Prop where
  queued : ∀ n ∈ s.accepted, n ∈ s.received ∨ s.Waiting n ∨ s.GivenUp n
  rows : ∀ row ∈ s.rows, row.status = .synced → row.submission ∈ s.received
  once : ∀ n, n ∉ s.handedOver → s.received.count n ≤ s.unrecorded.count n + 1

/-! ### The rows that the worker has read -/

def Worker.subs : Worker → List QueuedSubmission
  | .idle => []
  | .pass subs => subs
  | .noting sub _ subs => sub :: subs

/-- Each is of a row that waits still, no two of one row. -/
structure Linked (rows : List Row) (subs : List QueuedSubmission) : Prop where
  nodup : (subs.map QueuedSubmission.id).Nodup
  row : ∀ sub ∈ subs, ∃ row ∈ rows, row.id = sub.id ∧ row.submission = sub.submission ∧
    row.inQueue = true

theorem linked_nil (rows : List Row) : Linked rows [] := by
  refine ⟨nodup_nil, ?_⟩
  intro sub hsub
  cases hsub

variable {rows rows' : List Row} {result : Except String String}

theorem linked_getQueued (hids : (rows.map Row.id).Nodup) (limit : Nat) :
    Linked rows (getQueued rows limit) := by
  have hperm : ((rows.filter Row.inQueue).insertionSort
      fun a b => a.createdAt ≤ b.createdAt).Perm (rows.filter Row.inQueue) :=
    perm_insertionSort _ _
  constructor
  · unfold getQueued
    rw [map_map]
    change (List.map Row.id _).Nodup
    apply List.Nodup.sublist ((take_sublist _ _).map Row.id)
    rw [(hperm.map Row.id).nodup_iff]
    exact hids.sublist (filter_sublist.map Row.id)
  · intro sub hsub
    obtain ⟨row, hrow, rfl⟩ := mem_map.mp hsub
    obtain ⟨hmem, hqueue⟩ := mem_filter.mp (hperm.mem_iff.mp (mem_of_mem_take hrow))
    exact ⟨row, hmem, rfl, rfl, hqueue⟩

theorem Linked.mono {subs : List QueuedSubmission} (h : Linked rows subs)
    (hrows : ∀ row ∈ rows, row ∈ rows') : Linked rows' subs where
  nodup := h.nodup
  row := by
    intro sub hsub
    obtain ⟨row, hrow, hfields⟩ := h.row sub hsub
    exact ⟨row, hrows row hrow, hfields⟩

variable {sub : QueuedSubmission} {rest : List QueuedSubmission} {call : Call} {worker : Worker}

/-- A row is marked, and the worker goes on to the others. -/
theorem Linked.marked (h : Linked rows (sub :: rest)) {row row' : Row} (hid : row.id = sub.id)
    (hmarked : Replaced Row.id row row' rows rows') : Linked rows' rest := by
  obtain ⟨hfresh, hrest⟩ := nodup_cons.mp h.nodup
  refine ⟨hrest, ?_⟩
  intro other hother
  obtain ⟨old, hold, holdId, hfields⟩ := h.row other (mem_cons_of_mem _ hother)
  refine ⟨old, hmarked.mem_iff.mpr (.inr ⟨hold, ?_⟩), holdId, hfields⟩
  intro hsame
  apply hfresh
  rw [← hid, ← hsame, holdId]
  exact mem_map_of_mem hother

/-! ### The invariant -/

def Call.isDelivered (call : Call) : Prop := ∃ localRef bisRef, call.stage = .delivered localRef bisRef

/-- The row has been synced with the submission. -/
def Row.settles (row : Row) (n : Nat) : Bool := row.submission == n && row.status == .synced

structure Row.Honest (row : Row) (received : List Nat) : Prop where
  synced : row.status = .synced → row.submission ∈ received
  failed : row.status = .failed → maxSyncAttempts ≤ row.syncAttempts

/-- The submissions, the rows and the calls each have a number of their own. -/
structure Numbered (s : System) : Prop where
  calls : (s.calls.map Call.submission).Nodup
  callNew : ∀ call ∈ s.calls, call.submission < s.nextSubmission
  rowNew : ∀ row ∈ s.rows, row.submission < s.nextSubmission
  apart : ∀ call ∈ s.calls, ∀ row ∈ s.rows, row.submission ≠ call.submission
  ids : (s.rows.map Row.id).Nodup
  idNew : ∀ row ∈ s.rows, row.id < s.nextId
  submissions : (s.rows.map Row.submission).Nodup

structure Sound (s : System) : Prop where
  numbered : Numbered s
  linked : Linked s.rows s.worker.subs
  honest : ∀ row ∈ s.rows, row.Honest s.received
  delivered : ∀ call ∈ s.calls, call.isDelivered →
    call.submission ∈ s.handedOver ∧ call.submission ∈ s.received
  hand : ∀ n ∈ s.worker.hand, n ∈ s.received
  kept : ∀ n ∈ s.accepted, n ∈ s.received ∨ ∃ row ∈ s.rows, row.submission = n
  counted : ∀ n, n ∉ s.handedOver → s.received.count n ≤
    s.unrecorded.count n + s.worker.hand.count n + s.rows.countP fun row => row.settles n

variable {s t : System}

theorem sound_empty : Sound .empty := by
  refine ⟨⟨nodup_nil, ?_, ?_, ?_, nodup_nil, ?_, nodup_nil⟩, linked_nil _,
    ?_, ?_, ?_, ?_, fun n _ => Nat.zero_le _⟩
  all_goals
    intro x hx
    cases hx

/-- Only the calls change. -/
theorem Sound.withCalls (h : Sound s) (pins : PinSystem) (rateLimits : String → Nat → Nat)
    {calls : List Call} {next : Nat} (hnext : s.nextSubmission ≤ next)
    (hnodup : (calls.map Call.submission).Nodup)
    (hnew : ∀ call ∈ calls, call.submission < next)
    (hapart : ∀ call ∈ calls, ∀ row ∈ s.rows, row.submission ≠ call.submission)
    (hdelivered : ∀ call ∈ calls, call.isDelivered →
      call.submission ∈ s.handedOver ∧ call.submission ∈ s.received) :
    Sound { s with pins, rateLimits, nextSubmission := next, calls } where
  numbered :=
    { calls := hnodup
      callNew := hnew
      rowNew := fun row hrow => Nat.lt_of_lt_of_le (h.numbered.rowNew row hrow) hnext
      apart := hapart
      ids := h.numbered.ids
      idNew := h.numbered.idNew
      submissions := h.numbered.submissions }
  linked := h.linked
  honest := h.honest
  delivered := hdelivered
  hand := h.hand
  kept := h.kept
  counted := h.counted

/-- A call goes on. -/
theorem Sound.goOn (h : Sound s) (hcall : call ∈ s.calls) {stage : Stage}
    (hdelivered : Call.isDelivered { call with stage } → call.submission ∈ s.handedOver ∧
      call.submission ∈ s.received) : Sound (s.goOn call stage) := by
  have hmem {other : Call} (hother : other ∈ (s.goOn call stage).calls) :
      other = { call with stage } ∨ other ∈ s.calls := mem_upsert hother
  refine h.withCalls s.pins s.rateLimits (Nat.le_refl _) (nodup_upsert h.numbered.calls) ?_ ?_ ?_
  · intro other hother
    rcases hmem hother with rfl | hold
    · exact h.numbered.callNew call hcall
    · exact h.numbered.callNew other hold
  · intro other hother
    rcases hmem hother with rfl | hold
    · exact h.numbered.apart call hcall
    · exact h.numbered.apart other hold
  · intro other hother hdel
    rcases hmem hother with rfl | hold
    · exact hdelivered hdel
    · exact h.delivered other hold hdel

/-- A call comes back. -/
theorem Sound.finish (h : Sound s) (rateLimits : String → Nat → Nat) (n : Nat) :
    Sound { s with rateLimits, calls := s.finish n } := by
  have hmem {call : Call} (hcall : call ∈ s.finish n) : call ∈ s.calls :=
    (mem_filter.mp hcall).1
  refine h.withCalls s.pins rateLimits (Nat.le_refl _)
    (h.numbered.calls.sublist (filter_sublist.map Call.submission)) ?_ ?_ ?_
  · exact fun call hcall => h.numbered.callNew call (hmem hcall)
  · exact fun call hcall => h.numbered.apart call (hmem hcall)
  · exact fun call hcall => h.delivered call (hmem hcall)

theorem lookup_call {n : Nat} (hnodup : (s.calls.map Call.submission).Nodup)
    (hfind : lookup Call.submission n s.calls = some call) : call ∈ s.calls ∧ call.submission = n :=
  (lookup_eq_some_iff hnodup).mp hfind

/-! ### What BIS receives -/

theorem Row.Honest.mono {row : Row} {received received' : List Nat} (h : row.Honest received)
    (hreceived : ∀ n ∈ received, n ∈ received') : row.Honest received' where
  synced := fun hstatus => hreceived _ (h.synced hstatus)
  failed := h.failed

/-- BIS receives a submission: what the service knows of it then is in one of three places. -/
theorem Sound.receive (h : Sound s) (n : Nat) {unrecorded handedOver : List Nat}
    (hhanded : ∀ m, m ∉ handedOver → m ∉ s.handedOver)
    (hhandedOver : ∀ m ∈ s.handedOver, m ∈ handedOver) (hsubs : Linked s.rows worker.subs)
    (hhand : ∀ m ∈ worker.hand, m ∈ s.received ∨ m = n)
    (hcount : ∀ m, m ∉ handedOver → [n].count m + s.unrecorded.count m + s.worker.hand.count m ≤
      unrecorded.count m + worker.hand.count m) :
    Sound { s with received := s.received ++ [n], unrecorded, handedOver, worker } where
  numbered := ⟨h.numbered.calls, h.numbered.callNew, h.numbered.rowNew, h.numbered.apart,
    h.numbered.ids, h.numbered.idNew, h.numbered.submissions⟩
  linked := hsubs
  honest := fun row hrow => (h.honest row hrow).mono fun m hm => mem_append_left _ hm
  delivered := by
    intro call hcall hdel
    obtain ⟨hover, hreceived⟩ := h.delivered call hcall hdel
    exact ⟨hhandedOver _ hover, mem_append_left _ hreceived⟩
  hand := by
    intro m hm
    rcases hhand m hm with hold | rfl
    · exact mem_append_left _ hold
    · exact mem_concat_self
  kept := fun m hm => (h.kept m hm).imp (mem_append_left _) id
  counted := by
    intro m hm
    have hold := h.counted m (hhanded m hm)
    have hnew := hcount m hm
    change (s.received ++ [n]).count m ≤ unrecorded.count m +
      worker.hand.count m + s.rows.countP fun row => row.settles m
    rw [count_append]
    omega

theorem Sound.handOver (h : Sound s) (n : Nat) :
    Sound { s with received := s.received ++ [n], handedOver := s.handedOver ++ [n] } := by
  apply h.receive n
  · exact fun m hm hold => hm (mem_append_left _ hold)
  · exact fun m hm => mem_append_left _ hm
  · exact h.linked
  · exact fun m hm => .inl (h.hand m hm)
  · intro m hm
    have hne : n ≠ m := by
      rintro rfl
      exact hm mem_concat_self
    rw [count_cons_of_ne hne, count_nil]
    exact Nat.le_of_eq (by rw [Nat.zero_add])

theorem Sound.receiveUnrecorded (h : Sound s) (n : Nat) : Sound (s.receiveUnrecorded n) := by
  apply h.receive n (fun m hm => hm) (fun m hm => hm) h.linked fun m hm => .inl (h.hand m hm)
  intro m _
  rw [count_append, Nat.add_comm ([n].count m)]

/-! ### The handlers -/

theorem Sound.limit (h : Sound s) (lib : Library) (hcall : call ∈ s.calls) (now refAt : Nat)
    (db : LimitCarried) : Sound (s.limit lib call now refAt db) := by
  unfold System.limit
  dsimp only
  generalize checkRateLimit (s.rateLimits call.content.submitterId (now / (24 * hour)))
    call.channel.maxPerDay db = limit
  split
  next =>
    have hlimits := h.withCalls s.pins (Function.update s.rateLimits call.content.submitterId
      (Function.update (s.rateLimits call.content.submitterId) (now / (24 * hour)) limit.count))
      (Nat.le_refl _) h.numbered.calls h.numbered.callNew h.numbered.apart h.delivered
    refine hlimits.goOn hcall ?_
    rintro ⟨localRef, bisRef, hstage⟩
    dsimp only at hstage
    split at hstage <;> cases hstage
  next => exact h.finish _ _

theorem Sound.send (h : Sound s) (hcall : call ∈ s.calls) (localRef : String) (answer : Answer) :
    Sound (s.send call localRef answer) := by
  cases answer with
  | ok bisRef =>
    refine (h.handOver call.submission).goOn hcall fun _ => ⟨?_, ?_⟩
    · exact mem_concat_self
    · exact mem_concat_self
  | refused errMsg =>
    refine h.goOn hcall ?_
    rintro ⟨localRef', bisRef, hstage⟩
    cases hstage
  | lost errMsg =>
    refine (h.receiveUnrecorded call.submission).goOn hcall ?_
    rintro ⟨localRef', bisRef, hstage⟩
    cases hstage

/-- The call has ended; it is accepted if it has handed over. -/
theorem Sound.ended (h : Sound s) {accepted : List Nat}
    (haccepted : ∀ n ∈ accepted, n ∈ s.accepted ∨ n ∈ s.received) :
    Sound { s with calls := s.finish call.submission, accepted } := by
  have hend := h.finish s.rateLimits call.submission
  refine ⟨⟨hend.numbered.calls, hend.numbered.callNew, hend.numbered.rowNew, hend.numbered.apart,
    hend.numbered.ids, hend.numbered.idNew, hend.numbered.submissions⟩, hend.linked, hend.honest,
    hend.delivered, hend.hand, ?_, hend.counted⟩
  intro n hn
  rcases haccepted n hn with hold | hreceived
  · exact h.kept n hold
  · exact .inl hreceived

/-- A row for a call that has ended. -/
theorem Sound.inserted (h : Sound s) (hcall : call ∈ s.calls) {localRef : String} {now : Nat}
    {done : Bool} {after : System}
    (hinsert : System.insert { s with calls := s.finish call.submission, accepted := s.accepted ++
      [call.submission] } call localRef now done = some after) : Sound after := by
  unfold System.insert at hinsert
  split at hinsert
  next => cases hinsert
  next =>
    cases hinsert
    have hold {other : Call} (hother : other ∈ s.finish call.submission) :
        other ∈ s.calls ∧ other.submission ≠ call.submission := by
      obtain ⟨hmem, hne⟩ := mem_filter.mp hother
      exact ⟨hmem, by simpa using hne⟩
    have hend := h.finish s.rateLimits call.submission
    refine ⟨⟨hend.numbered.calls, hend.numbered.callNew, ?_, ?_, ?_, ?_, ?_⟩, ?_, ?_,
      hend.delivered, h.hand, ?_, ?_⟩
    · intro row hrow
      rcases mem_concat.mp hrow with hrow | rfl
      · exact h.numbered.rowNew row hrow
      · exact h.numbered.callNew call hcall
    · intro other hother row hrow
      obtain ⟨hmem, hne⟩ := hold hother
      rcases mem_concat.mp hrow with hrow | rfl
      · exact h.numbered.apart other hmem row hrow
      · exact hne.symm
    · change ((s.rows ++ [_]).map Row.id).Nodup
      rw [map_append]
      apply nodup_append_fresh h.numbered.ids
      intro hid
      obtain ⟨row, hrow, heq⟩ := mem_map.mp hid
      exact absurd (h.numbered.idNew row hrow) (by rw [heq]; exact Nat.lt_irrefl _)
    · intro row hrow
      rcases mem_concat.mp hrow with hrow | rfl
      · exact Nat.lt_succ_of_lt (h.numbered.idNew row hrow)
      · exact Nat.lt_succ_self _
    · change ((s.rows ++ [_]).map Row.submission).Nodup
      rw [map_append]
      apply nodup_append_fresh h.numbered.submissions
      intro hsub
      obtain ⟨row, hrow, heq⟩ := mem_map.mp hsub
      exact h.numbered.apart call hcall row hrow heq
    · exact h.linked.mono fun row hrow => mem_append_left _ hrow
    · intro row hrow
      rcases mem_concat.mp hrow with hrow | rfl
      · exact h.honest row hrow
      · refine ⟨?_, ?_⟩
        · intro hstatus
          cases hstatus
        · intro hstatus
          cases hstatus
    · intro n hn
      rcases mem_concat.mp hn with hn | rfl
      · refine (h.kept n hn).imp id ?_
        rintro ⟨row, hrow, hsub⟩
        exact ⟨row, mem_append_left _ hrow, hsub⟩
      · exact .inr ⟨_, mem_concat_self, rfl⟩
    · intro n hn
      refine Nat.le_trans (h.counted n hn) (Nat.add_le_add_left ?_ _)
      change _ ≤ (s.rows ++ [_]).countP fun row : Row => row.settles n
      rw [countP_append]
      exact Nat.le_add_right _ _

theorem Sound.enqueue (h : Sound s) (hcall : call ∈ s.calls) {now : Nat} {done : Bool}
    (ht : s.enqueue call now done = some t) : Sound t := by
  unfold System.enqueue at ht
  dsimp only at ht
  split at ht
  next localRef hstage =>
    cases ht
    cases hinsert : System.insert
        { s with calls := s.finish call.submission, accepted := s.accepted ++ [call.submission] }
        call localRef now done with
    | none => exact h.finish s.rateLimits call.submission
    | some after => exact h.inserted hcall hinsert
  next localRef bisRef hstage =>
    cases ht
    cases hinsert : System.insert
        { s with calls := s.finish call.submission, accepted := s.accepted ++ [call.submission] }
        call localRef now done with
    | none =>
      refine h.ended ?_
      intro n hn
      rcases mem_concat.mp hn with hn | rfl
      · exact .inl hn
      · exact .inr (h.delivered call hcall ⟨localRef, bisRef, hstage⟩).2
    | some after => exact h.inserted hcall hinsert
  next => cases ht

/-! ### The worker -/

theorem Linked.tail {rows : List Row} {sub : QueuedSubmission} {rest : List QueuedSubmission}
    (h : Linked rows (sub :: rest)) : Linked rows rest where
  nodup := (nodup_cons.mp h.nodup).2
  row := fun other hother => h.row other (mem_cons_of_mem _ hother)

theorem not_settles {row : Row} (hqueue : row.inQueue = true) (n : Nat) : row.settles n = false := by
  unfold Row.settles
  cases hstatus : row.status with
  | synced =>
    unfold Row.inQueue at hqueue
    rw [hstatus] at hqueue
    cases hqueue
  | _ => exact Bool.and_false _

/-- Only the worker changes, with nothing in its hand before and after. -/
theorem Sound.withWorker (h : Sound s) (hlinked : Linked s.rows worker.subs)
    (hbefore : s.worker.hand = []) (hafter : worker.hand = []) :
    Sound { s with worker } where
  numbered := ⟨h.numbered.calls, h.numbered.callNew, h.numbered.rowNew, h.numbered.apart,
    h.numbered.ids, h.numbered.idNew, h.numbered.submissions⟩
  linked := hlinked
  honest := h.honest
  delivered := h.delivered
  hand := by
    intro n hn
    rw [hafter] at hn
    cases hn
  kept := h.kept
  counted := by
    intro n hn
    have hold := h.counted n hn
    rw [hbefore] at hold
    rw [hafter]
    exact hold

theorem Sound.sync (h : Sound s) (hworker : s.worker = .pass (sub :: rest)) (answer : Answer) :
    Sound (s.sync sub rest answer) := by
  have hhand : s.worker.hand = [] := by rw [hworker]; rfl
  have hlinked : Linked s.rows (Worker.noting sub answer.result rest).subs := by
    have hold := h.linked
    rw [hworker] at hold
    exact hold
  cases answer with
  | ok bisRef =>
    change Sound { s with
      received := s.received ++ [sub.submission]
      worker := .noting sub (.ok bisRef) rest }
    apply h.receive sub.submission (fun m hm => hm) (fun m hm => hm) hlinked
    · intro m hm
      exact .inr (mem_singleton.mp hm)
    · intro m _
      change _ ≤ s.unrecorded.count m + [sub.submission].count m
      rw [hhand, count_nil, Nat.add_zero, Nat.add_comm]
  | refused errMsg => exact h.withWorker hlinked hhand rfl
  | lost errMsg =>
    change Sound { s with
      received := s.received ++ [sub.submission]
      unrecorded := s.unrecorded ++ [sub.submission]
      worker := .noting sub (.error errMsg) rest }
    apply h.receive sub.submission (fun m hm => hm) (fun m hm => hm) hlinked
    · intro m hm
      cases hm
    · intro m _
      rw [hhand, count_append, Nat.add_comm ([sub.submission].count m)]
      exact Nat.le_refl _

/-- The worker has marked the row of what it has in hand. -/
theorem Sound.marked (h : Sound s) (hworker : s.worker = .noting sub result rest) {f : Row → Row}
    (hid : ∀ row, (f row).id = row.id) (hsubmission : ∀ row, (f row).submission = row.submission)
    (hhonest : ∀ row, row.submission = sub.submission → (f row).Honest s.received)
    (hcount : ∀ row n, row.submission = sub.submission → s.worker.hand.count n ≤ ((f row).settles
      n).toNat) :
    Sound { s with
      rows := updateWhere (fun row => row.id == sub.id) f s.rows
      worker := .pass rest } := by
  have hlinked : Linked s.rows (sub :: rest) := by
    have hold := h.linked
    rw [hworker] at hold
    exact hold
  obtain ⟨row, hrow, hrowId, hrowSub, hqueue⟩ := hlinked.row sub mem_cons_self
  have hmarked := @replaced_updateWhere _ _ _ Row.id s.rows h.numbered.ids
    (fun row => row.id == sub.id) f row hrow (beq_iff_eq.mpr hrowId)
    (fun other _ hother => (beq_iff_eq.mp hother).trans hrowId.symm) (hid row)
  have hmem {other : Row} (hother : other ∈ updateWhere (fun row => row.id == sub.id) f s.rows) :
      other = f row ∨ other ∈ s.rows := (hmarked.mem_iff.mp hother).imp id And.left
  have hids : (updateWhere (fun row => row.id == sub.id) f s.rows).map Row.id =
      s.rows.map Row.id := map_updateWhere hid s.rows
  have hsubs : (updateWhere (fun row => row.id == sub.id) f s.rows).map Row.submission =
      s.rows.map Row.submission := map_updateWhere hsubmission s.rows
  refine ⟨⟨h.numbered.calls, h.numbered.callNew, ?_, ?_, ?_, ?_, ?_⟩,
    hlinked.marked hrowId hmarked, ?_, h.delivered, ?_, ?_, ?_⟩
  · intro other hother
    rcases hmem hother with rfl | hold
    · rw [hsubmission]
      exact h.numbered.rowNew row hrow
    · exact h.numbered.rowNew other hold
  · intro call hcall other hother
    rcases hmem hother with rfl | hold
    · rw [hsubmission]
      exact h.numbered.apart call hcall row hrow
    · exact h.numbered.apart call hcall other hold
  · rw [hids]
    exact h.numbered.ids
  · intro other hother
    rcases hmem hother with rfl | hold
    · rw [hid]
      exact h.numbered.idNew row hrow
    · exact h.numbered.idNew other hold
  · rw [hsubs]
    exact h.numbered.submissions
  · intro other hother
    rcases hmem hother with rfl | hold
    · exact hhonest row hrowSub
    · exact h.honest other hold
  · intro n hn
    cases hn
  · intro n hn
    refine (h.kept n hn).imp id ?_
    rintro ⟨old, hold, holdSub⟩
    have hin : n ∈ (updateWhere (fun row => row.id == sub.id) f s.rows).map Row.submission := by
      rw [hsubs, ← holdSub]
      exact mem_map_of_mem hold
    exact mem_map.mp hin
  · intro n hn
    have hold := h.counted n hn
    have hsettled := hmarked.countP h.numbered.ids fun row : Row => row.settles n
    rw [not_settles hqueue] at hsettled
    have hnew := hcount row n hrowSub
    change s.received.count n ≤ s.unrecorded.count n + 0 +
      (updateWhere (fun row => row.id == sub.id) f s.rows).countP fun row => row.settles n
    rw [Bool.toNat_false] at hsettled
    omega

/-- What the worker has in hand is not stored. -/
theorem Sound.forget (h : Sound s) {calls : List Call} (hcalls : calls = s.calls ∨ calls = [])
    (hlinked : Linked s.rows worker.subs) (hafter : worker.hand = []) :
    Sound { s with calls, worker, unrecorded := s.unrecorded ++ s.worker.hand } := by
  have hmem {call : Call} (hcall : call ∈ calls) : call ∈ s.calls := by
    rcases hcalls with rfl | rfl
    · exact hcall
    · cases hcall
  have hnodup : (calls.map Call.submission).Nodup := by
    rcases hcalls with rfl | rfl
    · exact h.numbered.calls
    · exact nodup_nil
  refine ⟨⟨hnodup, fun call hcall => h.numbered.callNew call (hmem hcall), h.numbered.rowNew,
    fun call hcall => h.numbered.apart call (hmem hcall), h.numbered.ids, h.numbered.idNew,
    h.numbered.submissions⟩, hlinked, h.honest, fun call hcall => h.delivered call (hmem hcall),
    ?_, h.kept, ?_⟩
  · intro n hn
    rw [hafter] at hn
    cases hn
  · intro n hn
    have hold := h.counted n hn
    rw [hafter, count_append]
    exact hold

theorem Sound.note (h : Sound s) (hworker : s.worker = .noting sub result rest) (now : Nat)
    (done : Bool) : Sound { s.note sub now done result with worker := .pass rest } := by
  have hlinked : Linked s.rows rest := by
    have hold := h.linked
    rw [hworker] at hold
    exact hold.tail
  have hhand : ∀ bisRef, result = .ok bisRef → s.worker.hand = [sub.submission] := by
    intro bisRef hresult
    rw [hworker, hresult]; rfl
  have hempty : ∀ errMsg, result = .error errMsg → s.worker.hand = [] := by
    intro errMsg hresult
    rw [hworker, hresult]; rfl
  cases result with
  | ok bisRef =>
    have hin := hhand bisRef rfl
    cases done with
    | true =>
      change Sound { s with rows := markSynced s.rows sub.id bisRef now, worker := .pass rest }
      unfold markSynced
      apply h.marked hworker
      · exact fun _ => rfl
      · exact fun _ => rfl
      · intro row hsub
        refine ⟨?_, ?_⟩
        · intro _
          change row.submission ∈ s.received
          rw [hsub]
          exact h.hand _ (by rw [hin]; exact mem_singleton.mpr rfl)
        · intro hstatus
          cases hstatus
      · intro row n hsub
        rw [hin, ← hsub]
        change [row.submission].count n ≤ (row.submission == n && true).toNat
        rw [count_cons, count_nil, Bool.and_true]
        cases row.submission == n <;> decide
    | false =>
      have hforgot : Sound { s with
          calls := s.calls
          worker := .pass rest
          unrecorded := s.unrecorded ++ s.worker.hand } := h.forget (.inl rfl) hlinked rfl
      rw [hin] at hforgot
      exact hforgot
  | error errMsg =>
    have hnone := hempty errMsg rfl
    cases done with
    | true =>
      change Sound { s with
        rows := markFailed s.rows sub.id errMsg (sub.syncAttempts + 1)
        worker := .pass rest }
      unfold markFailed
      apply h.marked hworker
      · exact fun _ => rfl
      · exact fun _ => rfl
      · intro row _
        refine ⟨?_, ?_⟩
        · intro hstatus
          dsimp only at hstatus
          split at hstatus <;> cases hstatus
        · intro hstatus
          dsimp only at hstatus ⊢
          split at hstatus
          next hmax => exact hmax
          next => cases hstatus
      · intro row n _
        rw [hnone]
        exact Nat.zero_le _
    | false => exact h.withWorker hlinked hnone rfl

/-! ### Steps -/

theorem Sound.submit (h : Sound s) (pins : PinSystem) (channel : Channel) (content : Content)
    (valid : Bool) :
    Sound { s with
      pins
      nextSubmission := s.nextSubmission + 1
      calls := if valid then s.calls ++ [⟨s.nextSubmission, channel, content, .verified⟩]
        else s.calls } := by
  cases valid with
  | false =>
    exact h.withCalls pins s.rateLimits (Nat.le_succ _) h.numbered.calls
      (fun call hcall => Nat.lt_succ_of_lt (h.numbered.callNew call hcall)) h.numbered.apart
      h.delivered
  | true =>
    have hmem {call : Call}
        (hcall : call ∈ s.calls ++ [⟨s.nextSubmission, channel, content, .verified⟩]) :
        call ∈ s.calls ∨ call = ⟨s.nextSubmission, channel, content, .verified⟩ :=
      (mem_append.mp hcall).imp id mem_singleton.mp
    refine h.withCalls pins s.rateLimits (Nat.le_succ _) ?_ ?_ ?_ ?_
    · change ((s.calls ++ [_]).map Call.submission).Nodup
      rw [map_append]
      apply nodup_append_fresh h.numbered.calls
      intro hin
      obtain ⟨call, hcall, heq⟩ := mem_map.mp hin
      exact absurd (h.numbered.callNew call hcall) (by rw [heq]; exact Nat.lt_irrefl _)
    · intro call hcall
      rcases hmem hcall with hold | rfl
      · exact Nat.lt_succ_of_lt (h.numbered.callNew call hold)
      · exact Nat.lt_succ_self _
    · intro call hcall
      rcases hmem hcall with hold | rfl
      · exact h.numbered.apart call hold
      · exact fun row hrow => Nat.ne_of_lt (h.numbered.rowNew row hrow)
    · intro call hcall hdel
      rcases hmem hcall with hold | rfl
      · exact h.delivered call hold hdel
      · obtain ⟨localRef, bisRef, hstage⟩ := hdel
        cases hstage

theorem Sound.step {lib : Library} {a : Label} (h : Sound s) (ht : System.step lib s a = some t) :
    Sound t := by
  have hnodup := h.numbered.calls
  cases a with
  | pin label =>
    obtain ⟨pins, _, rfl⟩ := Option.map_eq_some_iff.mp ht
    exact h.withCalls pins s.rateLimits (Nat.le_refl _) hnodup h.numbered.callNew
      h.numbered.apart h.delivered
  | submit input now db =>
    simp only [System.step] at ht
    split at ht
    next =>
      cases ht
      exact h.submit _ _ _ _
    next => cases ht
  | limit submission now refAt db =>
    simp only [System.step] at ht
    split at ht
    next n channel content hfind =>
      obtain ⟨hcall, hn⟩ := lookup_call hnodup hfind
      obtain rfl : n = submission := hn
      cases ht
      exact h.limit lib hcall now refAt db
    next => cases ht
  | ping submission reachable =>
    simp only [System.step] at ht
    split at ht
    next n channel content localRef hfind =>
      obtain ⟨hcall, hn⟩ := lookup_call hnodup hfind
      obtain rfl : n = submission := hn
      cases ht
      refine h.goOn hcall ?_
      rintro ⟨localRef', bisRef, hstage⟩
      dsimp only at hstage
      split at hstage <;> cases hstage
    next => cases ht
  | send submission answer =>
    simp only [System.step] at ht
    split at ht
    next n channel content localRef hfind =>
      obtain ⟨hcall, hn⟩ := lookup_call hnodup hfind
      obtain rfl : n = submission := hn
      cases ht
      exact h.send hcall localRef answer
    next => cases ht
  | enqueue submission now done =>
    obtain ⟨call, hfind, ht⟩ := Option.bind_eq_some_iff.mp ht
    exact h.enqueue (lookup_call hnodup hfind).1 ht
  | tick =>
    simp only [System.step] at ht
    split at ht
    next hworker =>
      cases ht
      exact h.withWorker (linked_getQueued h.numbered.ids syncBatch)
        (by rw [hworker]; rfl) rfl
    next hworker =>
      cases ht
      exact h.withWorker (linked_getQueued h.numbered.ids syncBatch)
        (by rw [hworker]; rfl) rfl
    next => cases ht
  | sync answer =>
    simp only [System.step] at ht
    split at ht
    next sub rest hworker =>
      cases ht
      exact h.sync hworker answer
    next => cases ht
  | note now done =>
    simp only [System.step] at ht
    split at ht
    next sub result rest hworker =>
      cases ht
      exact h.note hworker now done
    next => cases ht
  | crash =>
    cases ht
    exact h.forget (.inr rfl) (linked_nil s.rows) rfl

/-! ### Runs -/

/-- A row that is synced is not in the hand of the worker too. -/
theorem Sound.settled_le (h : Sound s) (n : Nat) :
    s.worker.hand.count n + (s.rows.countP fun row => row.settles n) ≤ 1 := by
  have hrows : (s.rows.countP fun row => row.settles n) ≤ 1 := by
    have hle : (s.rows.countP fun row => row.settles n) ≤ (s.rows.map Row.submission).count n := by
      rw [count_eq_countP, countP_map]
      apply countP_mono_left
      intro row _ hsettles
      exact (Bool.and_eq_true_iff.mp hsettles).1
    exact Nat.le_trans hle (nodup_iff_count_le_one.mp h.numbered.submissions n)
  unfold Worker.hand
  split
  next sub bisRef rest hworker =>
    by_cases hn : sub.submission = n
    · have hlinked := h.linked
      rw [hworker] at hlinked
      obtain ⟨row, hrow, _, hsub, hqueue⟩ := hlinked.row sub mem_cons_self
      have hnone : (s.rows.countP fun row => row.settles n) = 0 := by
        rw [countP_eq_zero]
        intro other hother hsettles
        have hsame : other.submission = row.submission :=
          (beq_iff_eq.mp (Bool.and_eq_true_iff.mp hsettles).1).trans (hn.symm.trans hsub.symm)
        obtain rfl := inj_on_of_nodup_map h.numbered.submissions hother hrow hsame
        rw [not_settles hqueue] at hsettles
        cases hsettles
      rw [hnone]
      exact nodup_iff_count_le_one.mp (nodup_singleton _) n
    · rw [count_cons_of_ne hn, count_nil, Nat.zero_add]
      exact hrows
  next =>
    rw [count_nil, Nat.zero_add]
    exact hrows

theorem Sound.synced (h : Sound s) : Synced s where
  queued := by
    intro n hn
    rcases h.kept n hn with hreceived | ⟨row, hrow, hsub⟩
    · exact .inl hreceived
    · have honest := h.honest row hrow
      cases hstatus : row.status with
      | queued | retry =>
        exact .inr (.inl ⟨row, hrow, hsub, by rw [Row.inQueue, hstatus]; rfl⟩)
      | failed => exact .inr (.inr ⟨row, hrow, hsub, hstatus, honest.failed hstatus⟩)
      | synced =>
        rw [← hsub]
        exact .inl (honest.synced hstatus)
  rows := fun row hrow => (h.honest row hrow).synced
  once := by
    intro n hn
    have hcount := h.counted n hn
    have hsettled := h.settled_le n
    omega

/-- In every run an accepted submission stays in the queue until BIS has received it or the
worker has failed with it five times, and what its handler does not hand over is received
once more at most than it was received unrecorded. -/
theorem submissions_synced (lib : Library) (labels : List Label) :
    Always (System.step lib) Synced .empty labels :=
  (always_of_step labels (fun _ _ _ h ht => Sound.step h ht) sound_empty).mono
    fun _ h => h.synced

/-! ### One report -/

def report : Input :=
  .submit
    ⟨[("agencyCode", .string "NPF"), ("pin", .string "1234"), ("submitterId", .string "07")],
      by decide⟩

def library : Library := ⟨fun _ => "", String.toUpper⟩

/-- An officer reports with a fresh PIN. -/
def reportedRun : List Label :=
  [.pin (.issue "07" (pinHash library "07" "1234") "NPF" 0 true), .submit report 1 {},
   .limit 0 2 2 {}]

def failedAttempt : List Label := [.tick, .sync (.refused "BIS returned 500"), .note 4 true]

/-- After five refusals a submission is in the queue no longer; and where the answer of BIS
is lost, it is sent again. -/
theorem submission_broken :
    (¬ ∀ lib labels, Always (System.step lib) QueuedUntilReceived .empty labels) ∧
      ¬ ∀ lib labels, Always (System.step lib) ReceivedOnce .empty labels := by
  constructor
  · intro hall
    have hrun : (run (System.step library) .empty (reportedRun ++ [.ping 0 false, .enqueue 0 3 true]
        ++ (List.replicate 5 failedAttempt).flatten)).map
        (fun s => (s.accepted, s.received, s.rows.map Row.status)) = some ([0], [], [.failed]) := by
      decide
    obtain ⟨s, hs, hview⟩ := Option.map_eq_some_iff.mp hrun
    obtain ⟨haccepted, hview⟩ := Prod.mk.inj hview
    obtain ⟨hreceived, hstatus⟩ := Prod.mk.inj hview
    have hin : 0 ∈ s.accepted := by rw [haccepted]; exact mem_cons_self
    rcases (hall library _).finish hs 0 hin with h | ⟨row, hrow, _, hqueue⟩
    · rw [hreceived] at h
      cases h
    · obtain ⟨only, hrows, honly⟩ := map_eq_singleton_iff.mp hstatus
      rw [hrows] at hrow
      obtain rfl := mem_singleton.mp hrow
      rw [Row.inQueue, honly] at hqueue
      cases hqueue
  · intro hall
    have hrun : (run (System.step library) .empty (reportedRun ++
        [.ping 0 true, .send 0 (.lost "timeout"), .enqueue 0 3 true, .tick, .sync (.ok "B1")])).map
        (fun s => (s.accepted, s.received)) = some ([0], [0, 0]) := by
      decide
    obtain ⟨s, hs, hview⟩ := Option.map_eq_some_iff.mp hrun
    obtain ⟨haccepted, hreceived⟩ := Prod.mk.inj hview
    have honce := (hall library _).finish hs 0 (by rw [haccepted]; exact mem_cons_self)
    rw [hreceived] at honce
    revert honce
    decide

end Bis.Lex
