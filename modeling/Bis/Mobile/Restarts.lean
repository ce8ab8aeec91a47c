import Bis.Mobile.DrainSafety

/-!
The app may be killed between any two steps of its queue. What it had loaded is
gone then; the two stored lists are what the next start finds. A drain takes
operations out of the stored queue only with its last write, and a retry puts its
operation into the queue before it takes it out of the dead-letter list.
-/

namespace Bis.Mobile

open Bis.Transition List Function

inductive AppStep where
  | act (action : Action)
  | clearDeadLetter
  | restart

/-- The process is gone and a new one starts. -/
def Device.restart (s : Device) : Device :=
  { s with calls := fun _ => .idle, drain := .idle, lastDrain := none }

def appStep : Step Device AppStep
  | s, .act action => deviceStep s action
  | s, .clearDeadLetter => some (s.saveDead [])
  | s, .restart => some s.restart

/-- The operation that the executor works on. -/
def Drain.executing : Drain → Option String
  | .execute _ op => some op.id
  | _ => none

/-- No operation is given to the executor that it has executed before. -/
def ExecutesOnce (s : Device) : Prop := ∀ id ∈ s.drain.executing, id ∉ s.trace.executed

/-- A restart finds no operation in both lists. -/
def RestartsApart (s : Device) : AppStep → Prop
  | .restart => ∀ id ∈ ids s.queue, id ∉ ids s.dead
  | _ => True

/-! ### Where a kill does no harm -/

/-- How many operations the drain has executed or dead-lettered. All of them
are still in the stored queue. -/
def Drain.finished : Drain → Nat
  | .idle | .load => 0
  | .loop progress | .execute progress _ | .deadLoad progress _ | .deadSave progress _ _ _ =>
    progress.result.succeeded + progress.result.deadLettered

/-- A retry stands between its two writes: the operation is in the queue again
and not yet out of the dead-letter list. -/
def MovedBy (s : Device) (call : Nat) (id : String) : Prop :=
  ∃ dead deadVersion, s.calls call = .retrySaveDead id dead deadVersion

def Moving (s : Device) (id : String) : Prop := ∃ call, MovedBy s call id

/-- What a call writes back does not contradict what happened since it read:
into the queue, unless a drain is going to replace it, no operation twice, none
that was executed and none of the dead-letter list but the one it moves; into the
dead-letter list none that was executed, is queued or is being drained. -/
def WritesClean (s : Device) (call : Nat) : Prop :=
  match s.save (.storage call) with
  | none => True
  | some (.queue stored _) =>
    s.drain.finished = 0 →
      (ids stored).Nodup ∧ ∀ id ∈ ids stored, id ∉ s.trace.executed ∧
        (id ∈ ids s.dead → Moving s id ∨
          ∃ op dead deadVersion queue version,
            s.calls call = .retrySaveQueue op dead deadVersion queue version ∧ op.id = id)
  | some (.dead stored) =>
    ∀ id ∈ ids stored, (∃ other, other ≠ call ∧ MovedBy s other id) ∨
      (id ∉ s.trace.executed ∧ id ∉ s.drain.carried ∧
        (s.drain.finished = 0 → id ∉ ids s.queue))

/-- The app is killed only while no drain has finished an operation that is
still stored and no retry stands between its writes; calls that overlap write
nothing back that has left the list since they read it. -/
def Cleanly (s : Device) : AppStep → Prop
  | .restart => s.drain.finished = 0 ∧ ∀ id, ¬Moving s id
  | .act (.storage call) => WritesClean s call
  | .act .drainStorage =>
    ∀ progress op dead deadVersion, s.drain = .deadSave progress op dead deadVersion →
      ∀ id ∈ ids dead, Moving s id ∨ (id ∉ s.trace.executed ∧ id ∉ s.drain.carried)
  | _ => True

/-! ### The invariant -/

structure Apart (s : Device) : Prop where
  dead : ∀ id ∈ ids s.dead, ¬Moving s id →
    id ∉ s.trace.executed ∧ id ∉ s.drain.carried ∧ (s.drain.finished = 0 → id ∉ ids s.queue)
  queue : s.drain.finished = 0 →
    (ids s.queue).Nodup ∧ ∀ id ∈ ids s.queue, id ∉ s.trace.executed
  carried : s.drain.carried.Nodup ∧ ∀ id ∈ s.drain.carried, id ∉ s.trace.executed

theorem apart_initial : Apart (.initial [] []) where
  dead id hid := by cases hid
  queue _ := ⟨nodup_nil, fun id hid => by cases hid⟩
  carried := ⟨nodup_nil, fun id hid => by cases hid⟩

variable {s t : Device} {dead : List QueuedOperation} {call : Nat} {phase : Call} {id : String}

theorem Apart.executesOnce (h : Apart s) : ExecutesOnce s := by
  intro id hid
  refine h.carried.2 id ?_
  cases hdrain : s.drain with
  | execute progress op =>
    rw [hdrain] at hid
    cases hid
    exact mem_cons_self
  | idle | load | loop | deadLoad | deadSave =>
    rw [hdrain] at hid
    cases hid

theorem Apart.restartsApart {a : AppStep} (h : Apart s) (hclean : Cleanly s a) :
    RestartsApart s a := by
  cases a with
  | act | clearDeadLetter => trivial
  | restart =>
    obtain ⟨hnone, hmoving⟩ := hclean
    intro id hqueue hdead
    exact (h.dead id hdead (hmoving id)).2.2 hnone hqueue

theorem perm_carried (todo remaining : List QueuedOperation) (op : QueuedOperation) :
    (ids todo ++ ids (remaining ++ [op])).Perm (op.id :: (ids todo ++ ids remaining)) := by
  have hids : ids (remaining ++ [op]) = ids remaining ++ [op.id] := map_append
  rw [hids, ← append_assoc]
  exact perm_append_singleton _ _

/-- A step that leaves the lists alone, moves what the drain carries about and
finishes nothing. -/
theorem Apart.of_frame (h : Apart s) (hqueue : t.queue = s.queue) (hdead : t.dead = s.dead)
    (hexecuted : t.trace.executed = s.trace.executed)
    (hcarried : t.drain.carried.Perm s.drain.carried)
    (hnone : t.drain.finished = 0 → s.drain.finished = 0)
    (hmoving : ∀ id, Moving s id → Moving t id) : Apart t := by
  constructor
  · intro id hid hnot
    rw [hdead] at hid
    obtain ⟨hrun, hheld, hstored⟩ := h.dead id hid (mt (hmoving id) hnot)
    rw [hexecuted, hqueue]
    exact ⟨hrun, fun hin => hheld (hcarried.mem_iff.mp hin), fun ht => hstored (hnone ht)⟩
  · intro ht
    rw [hexecuted, hqueue]
    exact h.queue (hnone ht)
  · rw [hexecuted]
    refine ⟨hcarried.nodup_iff.mpr h.carried.1, ?_⟩
    intro id hid
    exact h.carried.2 id (hcarried.mem_iff.mp hid)

/-! ### What a step finishes -/

theorem finished_of_drainNextStep {now : Nat} (h : drainNextStep s now = some t) :
    t.drain.finished = s.drain.finished := by
  unfold drainNextStep at h
  split at h
  next hdrain =>
    rw [hdrain]
    split at h
    · exact Option.some.inj h ▸ rfl
    · split at h
      · exact Option.some.inj h ▸ rfl
      · exact Option.some.inj h ▸ rfl
  next => cases h

theorem finished_of_drainExecuteStep {error : Option String} (h : drainExecuteStep s error = some
    t) :
    t.drain.finished = s.drain.finished + if error = none then 1 else 0 := by
  unfold drainExecuteStep at h
  split at h
  next progress _ hdrain =>
    cases h
    rw [hdrain, if_pos rfl]
    exact Nat.add_right_comm progress.result.succeeded 1 progress.result.deadLettered
  next hdrain =>
    cases h
    rw [hdrain]
    rfl
  next => cases h

theorem finished_of_deadSave {progress : Progress} {op : QueuedOperation} {deadVersion : Nat}
    (hdrain : s.drain = .deadSave progress op dead deadVersion) (h : drainStorageStep s = some t) :
    t.drain.finished ≠ 0 := by
  simp only [drainStorageStep, hdrain] at h
  cases h
  exact Nat.succ_ne_zero _

/-! ### Steps -/

theorem moving_of_setCall (hcalls : t.calls = update s.calls call phase)
    (hcall : ∀ other dead deadVersion, s.calls call ≠ .retrySaveDead other dead deadVersion)
    (h : Moving s id) : Moving t id := by
  obtain ⟨other, dead, deadVersion, hother⟩ := h
  have hne : other ≠ call := by
    rintro rfl
    exact hcall _ _ _ hother
  refine ⟨other, dead, deadVersion, ?_⟩
  rw [hcalls, update_of_ne hne, hother]

/-- A call comes to stand elsewhere without a write. -/
theorem Apart.of_setCall {phase' : Call} (h : Apart s) (hcall : s.calls call = phase)
    (hphase : ∀ other dead deadVersion, phase ≠ .retrySaveDead other dead deadVersion) :
    Apart (s.setCall call phase') := by
  refine h.of_frame rfl rfl rfl (List.Perm.refl _) (fun ht => ht) ?_
  intro id hmoving
  exact moving_of_setCall rfl (fun _ _ _ => hcall ▸ hphase _ _ _) hmoving

theorem Apart.of_queueSave {removing : List String} (h : Apart s) (hclean : WritesClean s call)
    (hsave : s.save (.storage call) = some (.queue t.queue removing)) (hdead : t.dead = s.dead)
    (hexecuted : t.trace.executed = s.trace.executed) (hdrain : t.drain = s.drain)
    (hcalls : t.calls = update s.calls call phase)
    (hcall : ∀ other dead deadVersion, s.calls call ≠ .retrySaveDead other dead deadVersion)
    (hretry : ∀ op dead deadVersion queue version, s.calls call = .retrySaveQueue op dead
      deadVersion queue version → MovedBy t call op.id) : Apart t := by
  have hmoving : ∀ id, Moving s id → Moving t id := fun id => moving_of_setCall hcalls hcall
  simp only [WritesClean, hsave] at hclean
  constructor
  · intro id hid hnot
    rw [hdead] at hid
    obtain ⟨hrun, hheld, -⟩ := h.dead id hid (mt (hmoving id) hnot)
    rw [hexecuted, hdrain]
    refine ⟨hrun, hheld, ?_⟩
    intro hnone hin
    rcases ((hclean hnone).2 id hin).2 hid with hother | ⟨op, _, _, _, _, hphase, rfl⟩
    · exact hnot (hmoving id hother)
    · exact hnot ⟨call, hretry _ _ _ _ _ hphase⟩
  · intro hnone
    rw [hdrain] at hnone
    rw [hexecuted]
    exact ⟨(hclean hnone).1, fun id hid => ((hclean hnone).2 id hid).1⟩
  · rw [hexecuted, hdrain]
    exact h.carried

theorem Apart.of_deadSave {deadVersion : Nat} (h : Apart s) (hclean : WritesClean s call)
    (hcall : s.calls call = .retrySaveDead id dead deadVersion) :
    Apart ((s.saveDead (dead.filter fun op => op.id != id)).setCall call phase) := by
  simp only [WritesClean, Device.save, hcall] at hclean
  refine ⟨?_, h.queue, h.carried⟩
  intro other hother hnot
  rcases hclean other hother with ⟨call', hne, dead', deadVersion', hmoved⟩ | happart
  · refine absurd ⟨call', dead', deadVersion', ?_⟩ hnot
    exact (update_of_ne hne _ _).trans hmoved
  · exact happart

/-- The drain dead-letters an operation that it carries. -/
theorem Apart.of_deadLettered {op : QueuedOperation} (h : Apart s)
    (hcarried : s.drain.carried = op.id :: t.drain.carried)
    (hclean : ∀ id ∈ ids dead, Moving s id ∨ (id ∉ s.trace.executed ∧ id ∉ s.drain.carried))
    (hdead : t.dead = dead ++ [op]) (hexecuted : t.trace.executed = s.trace.executed)
    (hcalls : t.calls = s.calls) (hfinished : t.drain.finished ≠ 0) : Apart t := by
  have hheld := h.carried
  rw [hcarried, nodup_cons] at hheld
  constructor
  · intro id hid hnot
    have hapart : id ∉ s.trace.executed ∧ id ∉ t.drain.carried := by
      simp only [hdead, ids, map_append, map_cons, map_nil, mem_append,
        mem_singleton] at hid
      rcases hid with hid | rfl
      · rcases hclean id hid with hmoving | ⟨hrun, hin⟩
        · obtain ⟨call, dead', deadVersion', hmoved⟩ := hmoving
          exact absurd ⟨call, dead', deadVersion', by rw [hcalls, hmoved]⟩ hnot
        · rw [hcarried] at hin
          exact ⟨hrun, fun hlater => hin (mem_cons_of_mem _ hlater)⟩
      · exact ⟨hheld.2 _ mem_cons_self, hheld.1.1⟩
    rw [hexecuted]
    exact ⟨hapart.1, hapart.2, fun hnone => absurd hnone hfinished⟩
  · exact fun hnone => absurd hnone hfinished
  · rw [hexecuted]
    exact ⟨hheld.1.2, fun id hid => hheld.2 id (mem_cons_of_mem _ hid)⟩

/-- The drain executes an operation that it carries. -/
theorem Apart.of_executed (h : Apart s) (hcarried : s.drain.carried = id :: t.drain.carried)
    (hdead : t.dead = s.dead) (hexecuted : t.trace.executed = id :: s.trace.executed)
    (hcalls : t.calls = s.calls) (hfinished : t.drain.finished ≠ 0) : Apart t := by
  have hheld := h.carried
  rw [hcarried, nodup_cons] at hheld
  constructor
  · intro other hother hnot
    have hmoving : ¬Moving s other := by
      rintro ⟨call, dead, deadVersion, hmoved⟩
      exact hnot ⟨call, dead, deadVersion, by rw [hcalls, hmoved]⟩
    obtain ⟨hrun, hin, -⟩ := h.dead other (hdead ▸ hother) hmoving
    rw [hcarried, mem_cons, not_or] at hin
    rw [hexecuted, mem_cons, not_or]
    exact ⟨⟨hin.1, hrun⟩, hin.2, fun hnone => absurd hnone hfinished⟩
  · exact fun hnone => absurd hnone hfinished
  · refine ⟨hheld.1.2, ?_⟩
    intro other hother
    rw [hexecuted, mem_cons, not_or]
    refine ⟨?_, hheld.2 other (mem_cons_of_mem _ hother)⟩
    rintro rfl
    exact hheld.1.1 hother

theorem Apart.of_drainLoad (h : Apart s) (hdrain : s.drain = .load) (version : Nat) :
    Apart (s.recordLoad.setDrain (.loop ⟨version, sortByPriority s.queue, [], {}⟩)) := by
  have hnone : s.drain.finished = 0 := by rw [hdrain]; rfl
  have hperm : (ids (sortByPriority s.queue) ++ []).Perm (ids s.queue) := by
    rw [append_nil]
    exact (perm_insertionSort comesBefore s.queue).map QueuedOperation.id
  refine ⟨?_, fun _ => h.queue hnone, ?_⟩
  · intro id hid hnot
    obtain ⟨hrun, -, hstored⟩ := h.dead id hid hnot
    exact ⟨hrun, fun hin => hstored hnone (hperm.mem_iff.mp hin), fun _ => hstored hnone⟩
  · refine ⟨hperm.nodup_iff.mpr (h.queue hnone).1, ?_⟩
    intro id hid
    exact (h.queue hnone).2 id (hperm.mem_iff.mp hid)

theorem Apart.of_drainSave {progress : Progress} (h : Apart s) (hdrain : s.drain = .loop progress)
    (htodo : progress.todo = []) (hqueue : t.queue = progress.remaining) (hdead : t.dead = s.dead)
    (hexecuted : t.trace.executed = s.trace.executed) (hcalls : t.calls = s.calls)
    (hidle : t.drain = .idle) : Apart t := by
  have hcarried : s.drain.carried = ids progress.remaining := by
    rw [hdrain, Drain.carried, Progress.carried, htodo]
    rfl
  have hheld := h.carried
  rw [hcarried] at hheld
  constructor
  · intro id hid hnot
    have hmoving : ¬Moving s id := by
      rintro ⟨call, dead, deadVersion, hmoved⟩
      exact hnot ⟨call, dead, deadVersion, by rw [hcalls, hmoved]⟩
    obtain ⟨hrun, hin, -⟩ := h.dead id (hdead ▸ hid) hmoving
    rw [hcarried] at hin
    rw [hexecuted, hqueue, hidle]
    exact ⟨hrun, not_mem_nil, fun _ => hin⟩
  · intro _
    rw [hexecuted, hqueue]
    exact hheld
  · rw [hidle]
    exact ⟨nodup_nil, fun id hid => by cases hid⟩

theorem apart_of_moves {action : Action} (h : Apart s) (hclean : Cleanly s (.act action))
    (hstep : deviceStep s action = some t) : Apart t := by
  have hsame : ∀ id, Moving s id → Moving s id := fun _ hmoving => hmoving
  cases moves_of_step hstep with
  | request hcall => exact h.of_setCall hcall nofun
  | enqueueLoad hcall | removeLoad hcall | retryLoadDead hcall _ | retryLoadQueue hcall =>
    exact h.of_setCall hcall nofun
  | notFound hcall =>
    rcases hcall with hcall | hcall
    · exact h.of_setCall hcall nofun
    · exact h.of_setCall hcall nofun
  | enqueueSave hcall | removeSave hcall | clearSave hcall =>
    refine h.of_queueSave hclean (by simp only [Device.save, hcall]; rfl) rfl rfl rfl rfl ?_ ?_
    · intros
      simp [hcall]
    · intros
      simp_all
  | retrySaveQueue hcall =>
    refine h.of_queueSave hclean (by simp only [Device.save, hcall]; rfl) rfl rfl rfl rfl ?_ ?_
    · intros
      simp [hcall]
    · intro op dead deadVersion queue version hphase
      rw [hcall] at hphase
      cases hphase
      exact ⟨_, _, update_self ..⟩
  | retrySaveDead hcall => exact h.of_deadSave hclean hcall
  | drain hdrain =>
    refine h.of_frame rfl rfl rfl ?_ ?_ hsame
    · rw [hdrain]
      exact List.Perm.refl _
    · rw [hdrain]
      exact fun _ => rfl
  | drainAgain => exact h.of_frame rfl rfl rfl (List.Perm.refl _) (fun ht => ht) hsame
  | drainLoad hdrain => exact h.of_drainLoad hdrain _
  | drainSave hdrain => exact h.of_drainSave hdrain rfl rfl rfl rfl rfl rfl
  | deadLoad hdrain =>
    refine h.of_frame rfl rfl rfl ?_ ?_ hsame
    · rw [hdrain]
      exact List.Perm.refl _
    · rw [hdrain]
      exact fun ht => ht
  | deadSave hdrain =>
    refine h.of_deadLettered ?_ (hclean _ _ _ _ hdrain) rfl rfl rfl
      (finished_of_deadSave hdrain hstep)
    rw [hdrain]
    rfl
  | skip hdrain =>
    refine h.of_frame rfl rfl rfl ?_ (fun ht => (finished_of_drainNextStep hstep).symm.trans ht)
      hsame
    rw [hdrain]
    exact perm_carried _ _ _
  | exceeded hdrain =>
    refine h.of_frame rfl rfl rfl ?_ (fun ht => (finished_of_drainNextStep hstep).symm.trans ht)
      hsame
    rw [hdrain]
    exact List.Perm.refl _
  | attempt hdrain hid =>
    refine h.of_frame rfl rfl rfl ?_ (fun ht => (finished_of_drainNextStep hstep).symm.trans ht)
      hsame
    rw [hdrain]
    change (_ :: _).Perm (_ :: _)
    rw [hid]
    exact List.Perm.refl _
  | executed hdrain =>
    refine h.of_executed ?_ rfl rfl rfl ?_
    · rw [hdrain]
      rfl
    · rw [finished_of_drainExecuteStep hstep]
      exact Nat.succ_ne_zero _
  | failed hdrain hid =>
    refine h.of_frame rfl rfl rfl ?_
      (fun ht => (finished_of_drainExecuteStep hstep).symm.trans ht) hsame
    rw [hdrain]
    refine (perm_carried _ _ _).trans ?_
    rw [hid]
    exact List.Perm.refl _

theorem apart_of_step (s : Device) (a : AppStep) (t : Device) (h : Apart s) (hclean : Cleanly s a)
    (hstep : appStep s a = some t) : Apart t := by
  cases a with
  | act action => exact apart_of_moves h hclean hstep
  | clearDeadLetter =>
    cases hstep
    exact ⟨fun id hid => (not_mem_nil hid).elim, h.queue, h.carried⟩
  | restart =>
    cases hstep
    obtain ⟨hnone, hmoving⟩ := hclean
    refine ⟨?_, fun _ => h.queue hnone, nodup_nil, fun id hid => ?_⟩
    · intro id hid _
      obtain ⟨hrun, -, hstored⟩ := h.dead id hid (hmoving id)
      exact ⟨hrun, not_mem_nil, fun _ => hstored hnone⟩
    · cases hid

/-- In a run that is killed and interleaved cleanly, nothing is executed again,
and what a restart finds is in one list only. -/
theorem executed_once_across_restarts (labels : List AppStep)
    (h : Meets appStep Cleanly (.initial [] []) labels) :
    Always appStep ExecutesOnce (.initial [] []) labels ∧
      Meets appStep RestartsApart (.initial [] []) labels := by
  constructor
  · exact (always_of_meets apart_of_step apart_initial h).mono fun _ => Apart.executesOnce
  · exact meets_of_invariant apart_of_step (fun _ _ => Apart.restartsApart) apart_initial h

/-- The operation "a" is queued and a drain loads the queue. -/
def queuedAndLoaded (maxAttempts : Option Nat) : List AppStep :=
  [.act (.request 0 (.enqueue "a" 0 none maxAttempts)), .act (.storage 0), .act (.storage 0),
    .act .drain, .act .drainStorage]

/-- A restart after the drain has stored what remains. -/
theorem restart_after_drain_executes_once :
    let labels := queuedAndLoaded none ++
      [.act (.drainNext 1), .act (.drainExecute none), .act .drainStorage, .restart, .act .drain,
        .act .drainStorage]
    Always appStep ExecutesOnce (.initial [] []) labels ∧
      Meets appStep RestartsApart (.initial [] []) labels := by
  refine executed_once_across_restarts _ ?_
  refine .cons rfl trivial (.cons rfl trivial (.cons rfl ?_ (.cons rfl trivial ?_)))
  · intro _
    exact ⟨nodup_singleton _, fun id _ => ⟨not_mem_nil, fun hdead => by cases hdead⟩⟩
  refine .cons rfl nofun (.cons rfl trivial (.cons rfl trivial (.cons rfl nofun ?_)))
  refine .cons rfl ⟨rfl, ?_⟩ (.cons rfl trivial (.cons rfl nofun trivial))
  rintro id ⟨call, dead, deadVersion, hmoved⟩
  rcases eq_or_ne call 0 with rfl | hne
  · cases hmoved
  · have hidle := hmoved.symm.trans (((update_of_ne hne _ _).trans
      (update_of_ne hne _ _)).trans (update_of_ne hne _ _))
    cases hidle

/-- The app is killed after the executor's answer, and after a drain has
dead-lettered an operation whose one attempt had failed. -/
theorem killed_before_last_write :
    (¬ ∀ labels, Always appStep ExecutesOnce (.initial [] []) labels) ∧
      ¬ ∀ labels, Meets appStep RestartsApart (.initial [] []) labels := by
  constructor
  · intro h
    have hrun : (run appStep (.initial [] []) (queuedAndLoaded none ++
        [.act (.drainNext 1), .act (.drainExecute none), .restart, .act .drain,
          .act .drainStorage, .act (.drainNext 2)])).map
        (fun s => (s.drain.executing, s.trace.executed)) = some (some "a", ["a"]) := by
      decide
    obtain ⟨s, hs, hvalues⟩ := Option.map_eq_some_iff.mp hrun
    obtain ⟨hexecuting, hexecuted⟩ := Prod.mk.inj hvalues
    refine (h _).finish hs "a" hexecuting ?_
    rw [hexecuted]
    exact mem_cons_self
  · intro h
    have hrun : (run appStep (.initial [] []) (queuedAndLoaded (some 1) ++
        [.act (.drainNext 1), .act (.drainExecute (some "offline")), .act .drainStorage,
          .act .drain, .act .drainStorage, .act (.drainNext 5000), .act .drainStorage,
          .act .drainStorage])).map
        (fun s => (ids s.queue, ids s.dead)) = some (["a"], ["a"]) := by
      decide
    obtain ⟨s, hs, hvalues⟩ := Option.map_eq_some_iff.mp hrun
    obtain ⟨hqueue, hdead⟩ := Prod.mk.inj hvalues
    obtain ⟨hapart, -⟩ := (h (_ ++ [.restart])).append hs _ rfl
    refine hapart "a" ?_ ?_
    · rw [hqueue]
      exact mem_cons_self
    · rw [hdead]
      exact mem_cons_self

end Bis.Mobile
