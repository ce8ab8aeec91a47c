import Bis.DeadLetter.Queue

/-!
When no accepted event is lost, and no pass of the replay tries a message twice. What a
pass has taken from a list is nowhere else until it is published or put back; and a
message that is put back is out of reach of the pass if enough others wait before it.
-/

namespace Bis.DeadLetter

open Bis.Relation Bis.Transition List Option

variable {s t : System}

/-! ### What is promised -/

namespace System

/-- At its topic or at the dead-letter topic of Kafka. -/
def OnKafka (s : System) (event : Nat) : Prop := ∃ r ∈ s.log, r.event = event

def Queued (s : System) (event : Nat) : Prop := ∃ message ∈ s.queued, message.event = event

/-- In the hand of a pass that is under way. -/
def Held (s : System) (event : Nat) : Prop :=
  ∃ pass ∈ s.pass, ∃ hand ∈ pass.hand, hand.message.event = event

end System

/-- Every accepted event is published, is in a dead-letter list, or is just being replayed. -/
def NoneLost (s : System) : Prop :=
  ∀ event ∈ s.accepted, s.OnKafka event ∨ s.Queued event ∨ s.Held event

/-- The pass under way has made at most one attempt for each message. -/
def OneAttempt (s : System) : Prop := ∀ pass ∈ s.pass, pass.attempted.Nodup

/-! ### When it is kept -/

/-- The message may be dropped: nobody was told that it is accepted, or Kafka has it. -/
def Spare (s : System) (message : DlqMessage) : Prop :=
  message.event ∈ s.accepted → s.OnKafka message.event

instance (s : System) (message : DlqMessage) : Decidable (Spare s message) :=
  inferInstanceAs (Decidable (_ → ∃ r ∈ s.log, _))

/-- At the moment of a crash, of a pop whose answer is lost, of a `LPUSH` that fails, or of
the third attempt, the message can be spared; and a message that is put back has as many
others before it as the pass still takes. -/
def KeepsMessages (s : System) : Label → Prop
  | .crash _ _ => ∀ pass ∈ s.pass, ∀ hand ∈ pass.hand, Spare s hand.message
  | .pop (.error true) =>
    ∀ pass ∈ s.pass, ∀ topic ∈ pass.topics.head?, ∀ message ∈ (s.queue topic).head?,
      Spare s message
  | .putBack outcome =>
    ∀ pass ∈ s.pass, ∀ hand ∈ pass.hand,
      if hand.message.attempts + 1 < dlqMaxRetries ∧ outcome.stored = true then
        passSize - pass.taken ≤ (s.queue hand.message.topic).length
      else Spare s hand.message
  | _ => True

instance (s : System) : DecidablePred (KeepsMessages s) := by
  intro a
  unfold KeepsMessages
  split <;> infer_instance

/-! ### Nothing is lost -/

variable {outcome : Outcome} {m message : DlqMessage} {pass : Pass} {topic : String}

theorem mem_record {r record : Record} (hr : r ∈ s.log) : r ∈ s.record outcome record := by
  unfold System.record
  split
  · exact mem_append_left _ hr
  · exact hr

theorem mem_record_self {record : Record} {outcome : Outcome} (hstored : outcome.stored = true) :
    record ∈ s.record outcome record := by
  rw [System.record, if_pos hstored]
  exact mem_concat_self

theorem mem_lpush (hm : m ∈ s.queued) : m ∈ s.lpush outcome message := by
  unfold System.lpush
  split
  · exact mem_append_left _ hm
  · exact hm

theorem mem_lpush_self (hstored : outcome.stored = true) : message ∈ s.lpush outcome message := by
  rw [System.lpush, if_pos hstored]
  exact mem_concat_self

/-- What a step has to say of each place where an event may be. -/
theorem NoneLost.frame (h : NoneLost s)
    (haccepted : ∀ event ∈ t.accepted, event ∈ s.accepted ∨ t.OnKafka event ∨ t.Queued event)
    (hkafka : ∀ r ∈ s.log, r ∈ t.log)
    (hqueued : ∀ m ∈ s.queued, m.event ∈ s.accepted →
      t.OnKafka m.event ∨ t.Queued m.event ∨ t.Held m.event)
    (hheld : ∀ event ∈ s.accepted, s.Held event →
      t.OnKafka event ∨ t.Queued event ∨ t.Held event) : NoneLost t := by
  intro event hevent
  rcases haccepted event hevent with hold | hk | hq
  · rcases h event hold with ⟨r, hr, rfl⟩ | ⟨m, hm, rfl⟩ | hh
    · exact .inl ⟨r, hkafka r hr, rfl⟩
    · exact hqueued m hm hold
    · exact hheld event hold hh
  · exact .inl hk
  · exact .inr (.inl hq)

theorem NoneLost.produce (h : NoneLost s) (call : Call) (topic : String) (outcome : Outcome)
    (next : CallStage) : NoneLost (s.produce call topic outcome next) := by
  unfold System.produce
  split
  next hok =>
    refine h.frame ?_ (fun r hr => mem_record hr) (fun m hm _ => .inr (.inl ⟨m, hm, rfl⟩))
      fun event _ hh => .inr (.inr hh)
    intro event hevent
    rcases mem_concat.mp hevent with hevent | rfl
    · exact .inl hevent
    · exact .inr (.inl ⟨_, mem_record_self (by rw [hok]; rfl), rfl⟩)
  next =>
    exact h.frame (fun event hevent => .inl hevent) (fun r hr => mem_record hr)
      (fun m hm _ => .inr (.inl ⟨m, hm, rfl⟩)) fun event _ hh => .inr (.inr hh)

theorem NoneLost.attempt (h : NoneLost s) (call : Call) (now : Nat) (outcome : Outcome) :
    NoneLost (s.attempt call now outcome) := by
  unfold System.attempt
  cases call.stage with
  | first => exact h.produce call call.topic outcome .second
  | second => exact h.produce call call.topic outcome .dlqTopic
  | dlqTopic => exact h.produce call (dlqTopicPrefix ++ call.topic) outcome (.redis 1)
  | redis attempts =>
    simp only
    split
    next =>
      refine h.frame ?_ (fun r hr => hr) (fun m hm _ => .inr (.inl ⟨m, mem_lpush hm, rfl⟩))
        fun event _ hh => .inr (.inr hh)
      intro event hevent
      change (event ∈ if outcome = .ok then s.accepted ++ [call.event] else s.accepted) at hevent
      split at hevent
      next hok =>
        rcases mem_concat.mp hevent with hevent | rfl
        · exact .inl hevent
        · exact .inr (.inr ⟨call.message attempts now, mem_lpush_self (by rw [hok]; rfl), rfl⟩)
      next => exact .inl hevent
    next => exact h

theorem not_held {event : Nat} (hhand : ∀ pass ∈ s.pass, pass.hand = none) : ¬ s.Held event := by
  rintro ⟨pass, hpass, hand, hmem, _⟩
  rw [hhand pass hpass] at hmem
  cases hmem

/-- Only the message in the hand of the pass is held. -/
theorem held_iff {hand : Hand} (hpass : s.pass = some pass) (hhand : pass.hand = some hand)
    {event : Nat} : s.Held event ↔ hand.message.event = event := by
  constructor
  · rintro ⟨pass', hpass', hand', hhand', hevent⟩
    obtain rfl := some.inj (hpass.symm.trans hpass')
    obtain rfl := some.inj (hhand.symm.trans hhand')
    exact hevent
  · intro hevent
    exact ⟨pass, hpass, hand, hhand, hevent⟩

theorem NoneLost.pop (h : NoneLost s) {rest : List String} (hpass : s.pass = some pass)
    (htopics : pass.topics = topic :: rest) (hhand : pass.hand = none) (outcome : Outcome)
    (hkeeps : KeepsMessages s (.pop outcome)) : NoneLost (s.pop pass topic outcome) := by
  have hnone (event : Nat) : ¬ s.Held event := by
    refine not_held ?_
    intro pass' hpass'
    obtain rfl := some.inj (hpass.symm.trans hpass')
    exact hhand
  cases outcome with
  | ok =>
    cases hqueue : s.queue topic with
    | nil =>
      simp only [System.pop, hqueue]
      exact h.frame (fun event hevent => .inl hevent) (fun r hr => hr)
        (fun m hm _ => .inr (.inl ⟨m, hm, rfl⟩)) fun event _ hh => absurd hh (hnone event)
    | cons message others =>
      simp only [System.pop, hqueue]
      refine h.frame (fun event hevent => .inl hevent) (fun r hr => hr) ?_
        fun event _ hh => absurd hh (hnone event)
      intro m hm _
      rcases (mem_eraseP hqueue).mp hm with rfl | hm
      · exact .inr (.inr ⟨_, rfl, _, rfl, rfl⟩)
      · exact .inr (.inl ⟨m, hm, rfl⟩)
  | error removed =>
    simp only [System.pop]
    refine h.frame (fun event hevent => .inl hevent) (fun r hr => hr) ?_
      fun event _ hh => absurd hh (hnone event)
    intro m hm haccepted
    cases removed with
    | false => exact .inr (.inl ⟨m, hm, rfl⟩)
    | true =>
      cases hqueue : s.queue topic with
      | nil =>
        have hnot : ∀ m ∈ s.queued, ¬ (m.topic == topic) = true :=
          filter_eq_nil_iff.mp hqueue
        refine .inr (.inl ⟨m, ?_, rfl⟩)
        change m ∈ s.rpop topic
        rw [System.rpop, eraseP_of_forall_not hnot]
        exact hm
      | cons message others =>
        rcases (mem_eraseP hqueue).mp hm with rfl | hm
        · have hspare := hkeeps pass hpass topic (by rw [htopics]; rfl) m (by rw [hqueue]; rfl)
          exact .inl (hspare haccepted)
        · exact .inr (.inl ⟨m, hm, rfl⟩)

theorem NoneLost.replay (h : NoneLost s) (hpass : s.pass = some pass)
    (hhand : pass.hand = some (.taken message)) (outcome : Outcome) :
    NoneLost (s.replay pass message outcome) := by
  refine h.frame (fun event hevent => .inl hevent) (fun r hr => mem_record hr)
    (fun m hm _ => .inr (.inl ⟨m, hm, rfl⟩)) ?_
  intro event _ hh
  obtain rfl := (held_iff hpass hhand).mp hh
  cases outcome with
  | ok =>
    have hmem := @mem_record_self s ⟨message.event, message.topic, message.payload⟩ .ok rfl
    exact .inl ⟨_, hmem, rfl⟩
  | error stored => exact .inr (.inr ⟨_, rfl, .failed message, rfl, rfl⟩)

theorem NoneLost.putBack (h : NoneLost s) (hpass : s.pass = some pass)
    (hhand : pass.hand = some (.failed message)) (outcome : Outcome)
    (hkeeps : KeepsMessages s (.putBack outcome)) : NoneLost (s.putBack pass message outcome) := by
  have hcase := hkeeps pass hpass (.failed message) hhand
  refine h.frame (fun event hevent => .inl hevent) (fun r hr => hr) ?_ ?_
  · intro m hm _
    refine .inr (.inl ⟨m, ?_, rfl⟩)
    unfold System.putBack
    simp only
    split
    · exact mem_lpush hm
    · exact hm
  · intro event haccepted hh
    obtain rfl := (held_iff hpass hhand).mp hh
    split at hcase
    next hback =>
      refine .inr (.inl ⟨{ message with attempts := message.attempts + 1 }, ?_, rfl⟩)
      unfold System.putBack
      simp only [if_pos (show message.attempts + 1 < dlqMaxRetries from hback.1)]
      exact mem_lpush_self hback.2
    next => exact .inl (hcase haccepted)

/-! ### One attempt in a pass -/

/-- The messages that a pass may still take are ones that it has not tried. -/
structure PassOk (s : System) (pass : Pass) : Prop where
  topics : pass.topics.Nodup
  below : ∀ event ∈ pass.attempted, event < s.nextEvent
  calls : ∀ call ∈ s.calls, call.event ∉ pass.attempted
  once : pass.attempted.Nodup
  ahead : ∀ topic ∈ pass.topics.head?, ∀ m ∈ (s.queue topic).take (passSize - pass.taken),
    m.event ∉ pass.attempted
  later : ∀ topic ∈ pass.topics.tail, ∀ m ∈ s.queue topic, m.event ∉ pass.attempted
  hand : ∀ hand ∈ pass.hand, hand.message.event < s.nextEvent ∧
    (∀ m ∈ s.queued, m.event ≠ hand.message.event) ∧
    (∀ call ∈ s.calls, call.event ≠ hand.message.event) ∧
    pass.topics.head? = some hand.message.topic
  taken : ∀ message, pass.hand = some (.taken message) → message.event ∉ pass.attempted

structure Orderly (s : System) : Prop where
  events : (s.queued.map DlqMessage.event).Nodup
  below : ∀ m ∈ s.queued, m.event < s.nextEvent
  callEvents : (s.calls.map Call.event).Nodup
  callsBelow : ∀ call ∈ s.calls, call.event < s.nextEvent
  callsFresh : ∀ call ∈ s.calls, ∀ m ∈ s.queued, m.event ≠ call.event
  pass : ∀ pass ∈ s.pass, PassOk s pass
  room : ∀ pass ∈ s.pass, pass.hand = none → pass.taken < passSize

/-- A pass that goes on with its next topic has not tried any message of the topics left. -/
theorem PassOk.nextTopic_of_subset (h : PassOk s pass) {queued : List DlqMessage}
    (hsub : ∀ m ∈ queued, m ∈ s.queued) : PassOk { s with queued } pass.nextTopic := by
  have hold {topic : String} {m : DlqMessage}
      (hm : m ∈ ({ s with queued } : System).queue topic) : m ∈ s.queue topic := by
    obtain ⟨hmem, hkey⟩ := mem_filter.mp hm
    exact mem_filter.mpr ⟨hsub m hmem, hkey⟩
  refine ⟨h.topics.sublist (tail_sublist _), h.below, h.calls, h.once, ?_, ?_, ?_, ?_⟩
  · intro topic htopic m hm
    exact h.later topic (mem_of_mem_head? htopic) m (hold (mem_of_mem_take hm))
  · intro topic htopic m hm
    exact h.later topic (mem_of_mem_tail htopic) m (hold hm)
  · intro hand hhand
    cases hhand
  · intro message hmessage
    cases hmessage

theorem PassOk.settle (h : PassOk s pass) : PassOk s pass.settle := by
  unfold Pass.settle
  split
  next =>
    refine ⟨h.topics, h.below, h.calls, h.once, h.ahead, h.later, ?_, ?_⟩
    · intro hand hhand
      cases hhand
    · intro message hmessage
      cases hmessage
  next => exact h.nextTopic_of_subset fun m hm => hm

/-- A pass depends on what its lists have, on the events that are new, and on the calls. -/
theorem PassOk.frame (h : PassOk s pass) (hnext : s.nextEvent ≤ t.nextEvent)
    (hcalls : ∀ call ∈ t.calls, (∃ old ∈ s.calls, old.event = call.event) ∨ call.event =
      s.nextEvent)
    (hqueued : ∀ m ∈ t.queued, m ∈ s.queued ∨ (m.event ∉ pass.attempted ∧ ∀ hand ∈ pass.hand,
      m.event ≠ hand.message.event))
    (htake : ∀ topic n, ∀ m ∈ (t.queue topic).take n, m ∈ (s.queue topic).take n ∨ m.event ∉
      pass.attempted) : PassOk t pass := by
  have hfreshCall (event : Nat) (hlt : event < s.nextEvent)
      (hold : ∀ call ∈ s.calls, call.event ≠ event) (call : Call) (hcall : call ∈ t.calls) :
      call.event ≠ event := by
    rcases hcalls call hcall with ⟨old, hmem, hsame⟩ | hnew
    · exact hsame ▸ hold old hmem
    · omega
  refine ⟨h.topics, ?_, ?_, h.once, ?_, ?_, ?_, h.taken⟩
  · exact fun event hevent => Nat.lt_of_lt_of_le (h.below event hevent) hnext
  · intro call hcall hattempted
    refine hfreshCall call.event (h.below _ hattempted) ?_ call hcall rfl
    intro old hold hsame
    exact h.calls old hold (hsame ▸ hattempted)
  · intro topic htopic m hm
    rcases htake topic _ m hm with hold | hnot
    · exact h.ahead topic htopic m hold
    · exact hnot
  · intro topic htopic m hm hattempted
    obtain ⟨hmem, hkey⟩ := mem_filter.mp hm
    rcases hqueued m hmem with hold | ⟨hnot, _⟩
    · exact h.later topic htopic m (mem_filter.mpr ⟨hold, hkey⟩) hattempted
    · exact hnot hattempted
  · intro hand hhand
    obtain ⟨hlt, hnot, hcall, htopic⟩ := h.hand hand hhand
    refine ⟨Nat.lt_of_lt_of_le hlt hnext, ?_, ?_, htopic⟩
    · intro m hm
      rcases hqueued m hm with hold | ⟨_, hne⟩
      · exact hnot m hold
      · exact hne hand hhand
    · exact hfreshCall _ hlt hcall

/-- What a call adds to a list is new to the pass. -/
theorem take_lpush {n : Nat} (ht : t.queued = s.lpush outcome message)
    (hm : m ∈ (t.queue topic).take n) : m ∈ (s.queue topic).take n ∨ m = message := by
  unfold System.queue at hm ⊢
  rw [ht] at hm
  unfold System.lpush at hm
  split at hm
  next =>
    rw [filter_append, take_append] at hm
    rcases mem_append.mp hm with hm | hm
    · exact .inl hm
    · have hmem := (mem_filter.mp (mem_of_mem_take hm)).1
      exact .inr (mem_singleton.mp hmem)
  next => exact .inl hm

theorem nextTopic_room (pass : Pass) : pass.nextTopic.taken < passSize := by
  change 0 < passSize
  decide

theorem settle_room (pass : Pass) : pass.settle.taken < passSize := by
  unfold Pass.settle
  split
  next hroom => exact hroom
  next => exact nextTopic_room pass

/-- The lists and the pass are as before, and the calls at most have other stages. -/
theorem Orderly.calls (h : Orderly s) (hnext : t.nextEvent = s.nextEvent)
    (hqueued : t.queued = s.queued) (hpass : t.pass = s.pass)
    (hcalls : (t.calls.map Call.event).Sublist (s.calls.map Call.event)) : Orderly t := by
  have hold (call : Call) (hcall : call ∈ t.calls) : ∃ old ∈ s.calls, old.event = call.event :=
    mem_map.mp (hcalls.subset (mem_map_of_mem hcall))
  refine ⟨hqueued ▸ h.events, ?_, h.callEvents.sublist hcalls, ?_, ?_, ?_, hpass ▸ h.room⟩
  · rw [hqueued, hnext]
    exact h.below
  · intro call hcall
    obtain ⟨old, hmem, hsame⟩ := hold call hcall
    rw [← hsame, hnext]
    exact h.callsBelow old hmem
  · rw [hqueued]
    intro call hcall m hm
    obtain ⟨old, hmem, hsame⟩ := hold call hcall
    exact hsame ▸ h.callsFresh old hmem m hm
  · intro pass hmem
    refine (h.pass pass (hpass ▸ hmem)).frame (Nat.le_of_eq hnext.symm) ?_ ?_ ?_
    · exact fun call hcall => .inl (hold call hcall)
    · rw [hqueued]
      exact fun m hm => .inl hm
    · unfold System.queue
      rw [hqueued]
      exact fun topic n m hm => .inl hm

theorem Orderly.publish (h : Orderly s) (topic payload : String) (stage : CallStage) :
    Orderly { s with
      nextEvent := s.nextEvent + 1
      calls := s.calls ++ [⟨s.nextEvent, topic, payload, stage⟩] } := by
  refine ⟨h.events, ?_, ?_, ?_, ?_, ?_, h.room⟩
  · exact fun m hm => Nat.lt_succ_of_lt (h.below m hm)
  · rw [map_append]
    refine nodup_append_fresh h.callEvents ?_
    intro hmem
    obtain ⟨call, hcall, hsame⟩ := mem_map.mp hmem
    have hlt := h.callsBelow call hcall
    change call.event = s.nextEvent at hsame
    omega
  · intro call hcall
    rcases mem_concat.mp hcall with hcall | rfl
    · exact Nat.lt_succ_of_lt (h.callsBelow call hcall)
    · exact Nat.lt_succ_self _
  · intro call hcall m hm
    rcases mem_concat.mp hcall with hcall | rfl
    · exact h.callsFresh call hcall m hm
    · exact Nat.ne_of_lt (h.below m hm)
  · intro pass hpass
    refine (h.pass pass hpass).frame (Nat.le_succ _) ?_ (fun m hm => .inl hm)
      fun topic n m hm => .inl hm
    intro call hcall
    rcases mem_concat.mp hcall with hcall | rfl
    · exact .inl ⟨call, hcall, rfl⟩
    · exact .inr rfl

theorem Orderly.produce (h : Orderly s) {call : Call} (hcall : call ∈ s.calls) (topic : String)
    (outcome : Outcome) (next : CallStage) : Orderly (s.produce call topic outcome next) := by
  unfold System.produce
  split
  next =>
    refine h.calls rfl rfl rfl ?_
    exact filter_sublist.map _
  next =>
    refine h.calls rfl rfl rfl ?_
    have hsame := @map_upsert _ _ _ Call.event { call with stage := next } call s.calls hcall rfl
    exact hsame ▸ List.Sublist.refl _

theorem mem_of_lpush (hm : m ∈ s.lpush outcome message) : m ∈ s.queued ∨ m = message := by
  unfold System.lpush at hm
  split at hm
  next =>
    rcases mem_concat.mp hm with hm | hm
    · exact .inl hm
    · exact .inr hm
  next => exact .inl hm

theorem lpush_nodup (outcome : Outcome) (h : (s.queued.map DlqMessage.event).Nodup)
    (hfresh : ∀ m ∈ s.queued, m.event ≠ message.event) :
    ((s.lpush outcome message).map DlqMessage.event).Nodup := by
  unfold System.lpush
  split
  next =>
    rw [map_append]
    refine nodup_append_fresh h ?_
    intro hmem
    obtain ⟨m, hm, hsame⟩ := mem_map.mp hmem
    exact hfresh m hm hsame
  next => exact h

theorem Orderly.attempt (h : Orderly s) {call : Call} (hcall : call ∈ s.calls) (now : Nat)
    (outcome : Outcome) : Orderly (s.attempt call now outcome) := by
  unfold System.attempt
  cases call.stage with
  | first => exact h.produce hcall call.topic outcome .second
  | second => exact h.produce hcall call.topic outcome .dlqTopic
  | dlqTopic => exact h.produce hcall (dlqTopicPrefix ++ call.topic) outcome (.redis 1)
  | redis attempts =>
    simp only
    split
    next =>
      have hfresh := h.callsFresh call hcall
      have hother (c : Call) (hc : c ∈ s.calls.filter fun c => c.event != call.event) :
          c ∈ s.calls ∧ c.event ≠ call.event := by
        simpa using hc
      refine ⟨lpush_nodup outcome h.events hfresh, ?_,
        h.callEvents.sublist (filter_sublist.map _), ?_, ?_, ?_, h.room⟩
      · intro m hm
        rcases mem_of_lpush hm with hm | rfl
        · exact h.below m hm
        · exact h.callsBelow call hcall
      · exact fun c hc => h.callsBelow c (hother c hc).1
      · intro c hc m hm
        rcases mem_of_lpush hm with hm | rfl
        · exact h.callsFresh c (hother c hc).1 m hm
        · exact (hother c hc).2.symm
      · intro pass hpass
        have hok := h.pass pass hpass
        have hnew := hok.calls call hcall
        refine hok.frame (Nat.le_refl _) (fun c hc => .inl ⟨c, (hother c hc).1, rfl⟩) ?_ ?_
        · intro m hm
          rcases mem_of_lpush hm with hm | rfl
          · exact .inl hm
          · exact .inr ⟨hnew, fun hand hhand => (hok.hand hand hhand).2.2.1 call hcall⟩
        · intro topic n m hm
          rcases take_lpush rfl hm with hold | rfl
          · exact .inl hold
          · exact .inr hnew
    next =>
      refine h.calls rfl rfl rfl ?_
      exact filter_sublist.map _

theorem mem_rpop (hm : m ∈ s.rpop topic) : m ∈ s.queued :=
  eraseP_subset hm

/-- The lists lose the next message of a topic at most, and the pass is `pass`. -/
theorem Orderly.popped {pass : Pass} {topic : String} {queued : List DlqMessage} (h : Orderly s)
    (hqueued : queued = s.queued ∨ queued = s.rpop topic)
    (hok : PassOk { s with queued } pass) (hroom : pass.hand = none → pass.taken < passSize) :
    Orderly { s with queued, pass := some pass } := by
  have hsub : queued.Sublist s.queued := by
    rcases hqueued with rfl | rfl
    · exact List.Sublist.refl _
    · exact eraseP_sublist
  refine ⟨h.events.sublist (hsub.map _), fun m hm => h.below m (hsub.subset hm), h.callEvents,
    h.callsBelow, fun call hcall m hm => h.callsFresh call hcall m (hsub.subset hm), ?_, ?_⟩
  · intro pass' hpass'
    cases hpass'
    exact ⟨hok.topics, hok.below, hok.calls, hok.once, hok.ahead, hok.later, hok.hand, hok.taken⟩
  · intro pass' hpass'
    cases hpass'
    exact hroom

theorem Orderly.pop (h : Orderly s) {rest : List String} (hpass : s.pass = some pass)
    (htopics : pass.topics = topic :: rest) (hhand : pass.hand = none) (outcome : Outcome) :
    Orderly (s.pop pass topic outcome) := by
  have hok := h.pass pass hpass
  cases outcome with
  | error removed =>
    simp only [System.pop]
    have hqueued : (if removed then s.rpop topic else s.queued) = s.queued ∨
        (if removed then s.rpop topic else s.queued) = s.rpop topic := by
      cases removed with
      | true => exact .inr rfl
      | false => exact .inl rfl
    refine h.popped hqueued (hok.nextTopic_of_subset ?_) fun _ => nextTopic_room pass
    intro m hm
    split at hm
    next => exact mem_rpop hm
    next => exact hm
  | ok =>
    cases hqueue : s.queue topic with
    | nil =>
      simp only [System.pop, hqueue]
      exact @Orderly.popped s pass.nextTopic topic s.queued h (.inl rfl)
        (hok.nextTopic_of_subset fun m hm => hm) fun _ => nextTopic_room pass
    | cons message others =>
      simp only [System.pop, hqueue]
      have hhead : pass.topics.head? = some topic := by rw [htopics]; rfl
      obtain ⟨before, after, hrows, herase, _, hkey, _⟩ := eraseP_split hqueue
      have hmem : message ∈ s.queued := by
        rw [hrows]
        exact mem_append_cons_self
      have hpopped : (s.rpop topic).filter (fun m => m.topic == topic) = others :=
        filter_eraseP hqueue
      have hroom := h.room pass hpass hhand
      refine h.popped (.inr rfl) ⟨hok.topics, hok.below, hok.calls, hok.once, ?_, ?_, ?_, ?_⟩ ?_
      · intro topic' htopic' m hm
        obtain rfl : topic = topic' := some.inj (hhead.symm.trans htopic')
        change m ∈ ((s.rpop topic).filter fun m => m.topic == topic).take _ at hm
        rw [hpopped] at hm
        refine hok.ahead topic hhead m ?_
        rw [hqueue]
        obtain ⟨n, hn⟩ : ∃ n, passSize - pass.taken = n + 1 :=
          ⟨passSize - pass.taken - 1, by omega⟩
        rw [hn, take_succ_cons]
        have hless : passSize - (pass.taken + 1) = n := by omega
        exact mem_cons_of_mem _ (hless ▸ hm)
      · intro topic' htopic' m hm
        obtain ⟨hm, hkey'⟩ := mem_filter.mp hm
        exact hok.later topic' htopic' m (mem_filter.mpr ⟨mem_rpop hm, hkey'⟩)
      · intro hand hmemHand
        cases hmemHand
        refine ⟨h.below message hmem, ?_, ?_, ?_⟩
        · intro m hm hsame
          have hnodup := h.events
          rw [hrows, map_append, map_cons] at hnodup
          change m ∈ s.queued.eraseP _ at hm
          rw [herase] at hm
          have hnot := (nodup_middle.mp hnodup)
          refine (nodup_cons.mp hnot).1 ?_
          rw [← map_append]
          exact mem_map.mpr ⟨m, hm, hsame⟩
        · intro call hcall hsame
          exact h.callsFresh call hcall message hmem hsame.symm
        · exact hhead.trans (congrArg some (beq_iff_eq.mp hkey).symm)
      · intro message' hmessage'
        obtain rfl : message = message' := Hand.taken.inj (some.inj hmessage')
        refine hok.ahead topic hhead message ?_
        rw [hqueue]
        obtain ⟨n, hn⟩ : ∃ n, passSize - pass.taken = n + 1 :=
          ⟨passSize - pass.taken - 1, by omega⟩
        rw [hn, take_succ_cons]
        exact mem_cons_self
      · intro hnone
        cases hnone

theorem Orderly.replay (h : Orderly s) (hpass : s.pass = some pass)
    (hhand : pass.hand = some (.taken message)) (outcome : Outcome) :
    Orderly (s.replay pass message outcome) := by
  have hok := h.pass pass hpass
  obtain ⟨hlt, hqueued, hcalls, htopic⟩ := hok.hand _ hhand
  have hnot := hok.taken message hhand
  have htried : PassOk s { pass with
      attempted := pass.attempted ++ [message.event], hand := some (.failed message) } := by
    have hmem {event : Nat} (hevent : event ∈ pass.attempted ++ [message.event]) :
        event ∈ pass.attempted ∨ event = message.event := by
      simpa using hevent
    refine ⟨hok.topics, ?_, ?_, nodup_append_fresh hok.once hnot, ?_, ?_, ?_, ?_⟩
    · intro event hevent
      rcases hmem hevent with hevent | rfl
      · exact hok.below event hevent
      · exact hlt
    · intro call hcall hevent
      rcases hmem hevent with hevent | hsame
      · exact hok.calls call hcall hevent
      · exact hcalls call hcall hsame
    · intro topic htopic' m hm hevent
      rcases hmem hevent with hevent | hsame
      · exact hok.ahead topic htopic' m hm hevent
      · exact hqueued m (mem_filter.mp (mem_of_mem_take hm)).1 hsame
    · intro topic htopic' m hm hevent
      rcases hmem hevent with hevent | hsame
      · exact hok.later topic htopic' m hm hevent
      · exact hqueued m (mem_filter.mp hm).1 hsame
    · intro hand hmemHand
      cases hmemHand
      exact ⟨hlt, hqueued, hcalls, htopic⟩
    · intro message' hmessage'
      cases hmessage'
  refine ⟨h.events, h.below, h.callEvents, h.callsBelow, h.callsFresh, ?_, ?_⟩
  · intro pass' hpass'
    cases hpass'
    have hframe {p : Pass} (hp : PassOk s p) : PassOk (s.replay pass message outcome) p :=
      ⟨hp.topics, hp.below, hp.calls, hp.once, hp.ahead, hp.later, hp.hand, hp.taken⟩
    split
    next => exact hframe htried.settle
    next => exact hframe htried
  · intro pass' hpass' hnone
    cases hpass'
    split
    next => exact settle_room _
    next hfailed =>
      rw [if_neg hfailed] at hnone
      cases hnone

theorem Orderly.putBack (h : Orderly s) (hpass : s.pass = some pass)
    (hhand : pass.hand = some (.failed message)) (outcome : Outcome)
    (hkeeps : KeepsMessages s (.putBack outcome)) : Orderly (s.putBack pass message outcome) := by
  have hok := h.pass pass hpass
  have hcase := hkeeps pass hpass _ hhand
  obtain ⟨hlt, hqueued, hcalls, htopic⟩ := hok.hand _ hhand
  have hsettled : pass.settle = ({ pass with hand := none } : Pass).settle := rfl
  have hfree : PassOk s { pass with hand := none } := by
    refine ⟨hok.topics, hok.below, hok.calls, hok.once, hok.ahead, hok.later, ?_, ?_⟩
    · intro hand hmem
      cases hmem
    · intro message' hmessage'
      cases hmessage'
  have hroom (pass' : Pass) (hpass' : pass' ∈ some pass.settle) (_ : pass'.hand = none) :
      pass'.taken < passSize := by
    cases hpass'
    exact settle_room pass
  by_cases hback : message.attempts + 1 < dlqMaxRetries ∧ outcome.stored = true
  · have hreach : passSize - pass.taken ≤ (s.queue message.topic).length :=
      (if_pos hback).mp hcase
    have hlpush : (s.putBack pass message outcome).queued =
        s.queued ++ [{ message with attempts := message.attempts + 1 }] := by
      simp only [System.putBack, if_pos hback.1, System.lpush, if_pos hback.2]
    have hmem {m : DlqMessage} (hm : m ∈ (s.putBack pass message outcome).queued) :
        m ∈ s.queued ∨ m = { message with attempts := message.attempts + 1 } := by
      rw [hlpush] at hm
      exact (mem_append.mp hm).imp id mem_singleton.mp
    refine ⟨?_, ?_, h.callEvents, h.callsBelow, ?_, ?_, hroom⟩
    · rw [hlpush, map_append]
      refine nodup_append_fresh h.events ?_
      intro hold
      obtain ⟨m, hm, hsame⟩ := mem_map.mp hold
      exact hqueued m hm hsame
    · intro m hm
      rcases hmem hm with hm | rfl
      · exact h.below m hm
      · exact hlt
    · intro call hcall m hm
      rcases hmem hm with hm | rfl
      · exact h.callsFresh call hcall m hm
      · exact (hcalls call hcall).symm
    · intro pass' hpass'
      cases hpass'
      rw [hsettled]
      refine PassOk.settle ⟨hok.topics, hok.below, hok.calls, hok.once, ?_, ?_, ?_, hfree.taken⟩
      · intro topic htopic' m hm
        obtain rfl : message.topic = topic := some.inj (htopic.symm.trans htopic')
        refine hok.ahead message.topic htopic m ?_
        -- As many others as the pass still takes stand before the message.
        unfold System.queue at hm hreach ⊢
        rw [hlpush, filter_append, take_append_of_le_length hreach] at hm
        exact hm
      · intro topic htopic' m hm
        obtain ⟨hmemq, hkey⟩ := mem_filter.mp hm
        rcases hmem hmemq with hmemq | rfl
        · exact hok.later topic htopic' m (mem_filter.mpr ⟨hmemq, hkey⟩)
        · have hhead : topic = message.topic := (beq_iff_eq.mp hkey).symm
          cases htopics : pass.topics with
          | nil =>
            rw [htopics] at htopic
            cases htopic
          | cons first rest =>
            have hnodup := hok.topics
            rw [htopics] at htopic htopic' hnodup
            cases htopic
            exact absurd (hhead ▸ htopic') (nodup_cons.mp hnodup).1
      · intro hand hmemHand
        cases hmemHand
  · have hsame : (s.putBack pass message outcome).queued = s.queued := by
      simp only [System.putBack, System.lpush]
      split
      next hfew =>
        rw [if_neg fun hstored => hback ⟨hfew, hstored⟩]
      next => rfl
    refine ⟨hsame ▸ h.events, hsame ▸ h.below, h.callEvents, h.callsBelow, ?_, ?_, hroom⟩
    · rw [hsame]
      exact h.callsFresh
    · intro pass' hpass'
      cases hpass'
      rw [hsettled]
      refine PassOk.settle (hfree.frame (Nat.le_refl _) (fun call hcall => .inl ⟨call, hcall, rfl⟩)
        ?_ ?_)
      · rw [hsame]
        exact fun m hm => .inl hm
      · unfold System.queue
        rw [hsame]
        exact fun topic n m hm => .inl hm

/-! ### Steps -/

structure Sound (s : System) : Prop where
  noneLost : NoneLost s
  orderly : Orderly s

theorem Orderly.withoutPass (h : Orderly s) (kafka redis : Bool) {calls : List Call}
    (hcalls : calls = s.calls ∨ calls = []) :
    Orderly { s with kafka, redis, calls, pass := none } := by
  have hsub : (calls.map Call.event).Sublist (s.calls.map Call.event) := by
    rcases hcalls with rfl | rfl
    · exact List.Sublist.refl _
    · exact nil_sublist _
  have hold (call : Call) (hcall : call ∈ calls) : call ∈ s.calls := by
    rcases hcalls with rfl | rfl
    · exact hcall
    · cases hcall
  refine ⟨h.events, h.below, h.callEvents.sublist hsub,
    fun call hcall => h.callsBelow call (hold call hcall),
    fun call hcall => h.callsFresh call (hold call hcall), ?_, ?_⟩
  · intro pass hpass
    cases hpass
  · intro pass hpass
    cases hpass

theorem Sound.step {label : Label} (h : Sound s) (hkeeps : KeepsMessages s label)
    (ht : s.step label = some t) : Sound t := by
  cases label with
  | publish topic payload =>
    cases ht
    exact ⟨h.noneLost, h.orderly.publish topic payload _⟩
  | attempt event now outcome =>
    obtain ⟨call, hcall, rfl⟩ := map_eq_some_iff.mp ht
    have hmem := mem_of_find?_eq_some hcall
    exact ⟨h.noneLost.attempt call now outcome, h.orderly.attempt hmem now outcome⟩
  | startPass =>
    simp only [System.step] at ht
    split at ht
    next hready =>
      cases ht
      simp only [Bool.and_eq_true, isNone_iff_eq_none] at hready
      have hnone (event : Nat) : ¬ s.Held event := by
        refine not_held ?_
        rw [hready.2]
        intro pass hpass
        cases hpass
      refine ⟨h.noneLost.frame (fun event hevent => .inl hevent) (fun r hr => hr)
        (fun m hm _ => .inr (.inl ⟨m, hm, rfl⟩)) fun event _ hh => absurd hh (hnone event), ?_⟩
      obtain ⟨hevents, hbelow, hcallEvents, hcallsBelow, hfresh, _, _⟩ := h.orderly
      refine ⟨hevents, hbelow, hcallEvents, hcallsBelow, hfresh, ?_, ?_⟩
      · intro pass hpass
        cases hpass
        refine ⟨by decide, ?_, ?_, nodup_nil, ?_, ?_, ?_, ?_⟩
        · intro event hevent
          cases hevent
        · intro call hcall hevent
          cases hevent
        · intro topic htopic m hm hevent
          cases hevent
        · intro topic htopic m hm hevent
          cases hevent
        · intro hand hhand
          cases hhand
        · intro message hmessage
          cases hmessage
      · intro pass hpass _
        cases hpass
        exact nextTopic_room .start
    next => cases ht
  | pop outcome =>
    simp only [System.step] at ht
    split at ht
    next topic rest taken attempted hpass =>
      cases ht
      exact ⟨h.noneLost.pop hpass rfl rfl outcome hkeeps, h.orderly.pop hpass rfl rfl outcome⟩
    next => cases ht
  | replay outcome =>
    simp only [System.step] at ht
    split at ht
    next topics taken message attempted hpass =>
      cases ht
      exact ⟨h.noneLost.replay hpass rfl outcome, h.orderly.replay hpass rfl outcome⟩
    next => cases ht
  | putBack outcome =>
    simp only [System.step] at ht
    split at ht
    next topics taken message attempted hpass =>
      cases ht
      exact ⟨h.noneLost.putBack hpass rfl outcome hkeeps,
        h.orderly.putBack hpass rfl outcome hkeeps⟩
    next => cases ht
  | endPass =>
    simp only [System.step] at ht
    split at ht
    next taken attempted hpass =>
      cases ht
      have hnone (event : Nat) : ¬ s.Held event := by
        refine not_held ?_
        intro pass' hpass'
        obtain rfl := some.inj (hpass.symm.trans hpass')
        rfl
      refine ⟨h.noneLost.frame (fun event hevent => .inl hevent) (fun r hr => hr)
        (fun m hm _ => .inr (.inl ⟨m, hm, rfl⟩)) fun event _ hh => absurd hh (hnone event), ?_⟩
      exact h.orderly.withoutPass s.kafka s.redis (.inl rfl)
    next => cases ht
  | crash kafka redis =>
    cases ht
    refine ⟨h.noneLost.frame (fun event hevent => .inl hevent) (fun r hr => hr)
      (fun m hm _ => .inr (.inl ⟨m, hm, rfl⟩)) ?_, h.orderly.withoutPass kafka redis (.inr rfl)⟩
    rintro event haccepted ⟨pass, hpass, hand, hhand, rfl⟩
    exact .inl (hkeeps pass hpass hand hhand haccepted)

theorem sound_empty (kafka redis : Bool) : Sound (.empty kafka redis) := by
  refine ⟨?_, nodup_nil, ?_, nodup_nil, ?_, ?_, ?_, ?_⟩
  all_goals
    intro x hx
    cases hx

/-! ### Runs -/

/-- In a run in which whatever the replay drops can be spared, and what it puts back is
out of its reach, no accepted event is lost and no pass tries a message twice. -/
theorem messages_kept (kafka redis : Bool) (labels : List Label)
    (hkeeps : Meets System.step KeepsMessages (.empty kafka redis) labels) :
    Always System.step (fun s => NoneLost s ∧ OneAttempt s) (.empty kafka redis) labels := by
  refine (always_of_meets (fun s a t h hkeeps ht => Sound.step h hkeeps ht)
    (sound_empty kafka redis) hkeeps).mono ?_
  intro s h
  exact ⟨h.noneLost, fun pass hpass => (h.orderly.pass pass hpass).once⟩

/-! ### One event in the list -/

/-- Kafka is down, so the event goes to Redis, and a pass takes it. -/
def takenRun : List Label :=
  [.publish "bis.gateway.nin_lookup" "nin", .attempt 0 1 (.error false),
   .attempt 0 1 (.error false), .attempt 0 1 (.error false), .attempt 0 1 .ok, .startPass, .pop .ok]

theorem replayed_kept :
    Always System.step (fun s => NoneLost s ∧ OneAttempt s) (.empty true true)
      (takenRun ++ [.replay .ok, .pop .ok]) :=
  messages_kept true true _ (by decide)

/-- A crash loses the message that the pass has taken. And one that is put back into a
short list is tried again in the same pass. -/
theorem message_broken :
    (¬ ∀ kafka redis labels, Always System.step NoneLost (.empty kafka redis) labels) ∧
      ¬ ∀ kafka redis labels, Always System.step OneAttempt (.empty kafka redis) labels := by
  constructor
  · intro hall
    have hrun : (run System.step (.empty true true) (takenRun ++ [.crash true true])).map
        (fun s => (s.accepted, s.log, s.queued, s.pass)) = some ([0], [], [], none) := by
      decide
    obtain ⟨s, hs, hview⟩ := map_eq_some_iff.mp hrun
    obtain ⟨haccepted, hview⟩ := Prod.mk.inj hview
    obtain ⟨hlog, hview⟩ := Prod.mk.inj hview
    obtain ⟨hqueued, hpass⟩ := Prod.mk.inj hview
    rcases (hall true true _).finish hs 0 (by rw [haccepted]; exact mem_cons_self) with
      ⟨r, hr, _⟩ | ⟨m, hm, _⟩ | ⟨pass, hmem, _⟩
    · rw [hlog] at hr
      cases hr
    · rw [hqueued] at hm
      cases hm
    · rw [hpass] at hmem
      cases hmem
  · intro hall
    have hrun : (run System.step (.empty true true)
        (takenRun ++ [.replay (.error false), .putBack .ok, .pop .ok, .replay (.error false)])).map
        (fun s => s.pass.map Pass.attempted) = some (some [0, 0]) := by
      decide
    obtain ⟨s, hs, hview⟩ := map_eq_some_iff.mp hrun
    obtain ⟨pass, hpass, hattempted⟩ := map_eq_some_iff.mp hview
    have honce := (hall true true _).finish hs pass hpass
    rw [hattempted] at honce
    revert honce
    decide

end Bis.DeadLetter
