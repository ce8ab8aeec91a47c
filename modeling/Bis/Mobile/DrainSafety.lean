import Bis.Mobile.OfflineQueue

/-!
Whether queued operations survive the calls around a drain. Every writer saves
back a list it loaded earlier, so a write in between is lost. An operation is
safe exactly as long as no save leaves out a stored one, and that is so when
nothing was written between a load and the save that rests on it.
-/

namespace Bis.Mobile

open Bis.Transition List Function

/-- The operation does not depend on the dead-letter list. -/
def Held (s : Device) (id : String) : Prop :=
  id ∈ ids s.queue ∨ id ∈ s.trace.executed ∨ id ∈ s.trace.removed

/-- The operation is stored, was executed, or was removed by a call. -/
def Safe (s : Device) (id : String) : Prop := Held s id ∨ id ∈ ids s.dead

/-- No operation whose `enqueue` returned has disappeared, and no drain has
stored one that was removed while it ran. -/
def Preserved (s : Device) : Prop :=
  (∀ id ∈ s.trace.returned, Safe s id) ∧ s.trace.putBack = []

/-- What the next step is about to store. -/
inductive Save where
  | queue (stored : List QueuedOperation) (removing : List String)
  | dead (stored : List QueuedOperation)

def Device.save (s : Device) : Action → Option Save
  | .storage call =>
    match s.calls call with
    | .enqueueSave op queue _ => some (.queue (queue ++ [op]) [])
    | .removeSave id queue _ => some (.queue (queue.filter fun op => op.id != id) [id])
    | .clearSave => some (.queue [] (ids s.queue))
    | .retrySaveQueue op _ _ queue _ => some (.queue (queue ++ [op.retried]) [])
    | .retrySaveDead id dead _ => some (.dead (dead.filter fun op => op.id != id))
    | _ => none
  | .drainStorage =>
    match s.drain with
    | .loop ⟨_, [], remaining, _⟩ => some (.queue remaining [])
    | .deadSave _ op dead _ => some (.dead (dead ++ [op]))
    | _ => none
  | _ => none

/-- The operations a step of the drain puts into storage. -/
def Device.restores (s : Device) : Action → List String
  | .drainStorage =>
    match s.drain with
    | .loop ⟨_, [], remaining, _⟩ => ids remaining
    | .deadSave _ op _ _ => [op.id]
    | _ => []
  | _ => []

/-- The step stores no list that leaves out an operation of the list it
replaces, unless the operation is in the other list or was executed or
removed, and a drain stores nothing that was removed since it loaded. -/
def Keeping (s : Device) (action : Action) : Prop :=
  (match s.save action with
    | none => True
    | some (.queue stored removing) =>
      ∀ id ∈ s.trace.returned, id ∈ ids s.queue →
        id ∈ ids stored ∨ id ∈ removing ∨ id ∈ s.trace.executed ∨ id ∈ s.trace.removed ∨
          id ∈ ids s.dead
    | some (.dead stored) =>
      ∀ id ∈ s.trace.returned, id ∈ ids s.dead → id ∈ ids stored ∨ Held s id) ∧
  ∀ id ∈ s.restores action, id ∉ s.trace.removedSinceLoad

variable {s t : Device} {action : Action}

theorem recordPutBack_eq_nil_iff (h : s.trace.putBack = []) (stored : List String) :
    (s.recordPutBack stored).trace.putBack = [] ↔
      ∀ id ∈ stored, id ∉ s.trace.removedSinceLoad := by
  simp [Device.recordPutBack, h, filter_eq_nil_iff]

/-- A step that writes no list changes nothing `Preserved` is about. -/
theorem preserved_iff_of_noSave (hs : Preserved s) (hsave : s.save action = none)
    (hrestores : s.restores action = []) (hqueue : t.queue = s.queue) (hdead : t.dead = s.dead)
    (hreturned : t.trace.returned = s.trace.returned)
    (hexecuted : ∀ id ∈ s.trace.executed, id ∈ t.trace.executed)
    (hremoved : t.trace.removed = s.trace.removed) (hputBack : t.trace.putBack = s.trace.putBack) :
    Preserved t ↔ Keeping s action := by
  have hleft : Preserved t := by
    refine ⟨?_, hputBack.trans hs.2⟩
    intro id hid
    rw [hreturned] at hid
    simp only [Safe, Held, hqueue, hdead, hremoved]
    rcases hs.1 id hid with (h | h | h) | h
    · exact .inl (.inl h)
    · exact .inl (.inr (.inl (hexecuted id h)))
    · exact .inl (.inr (.inr h))
    · exact .inr h
  have hright : Keeping s action := by
    simp [Keeping, hsave, hrestores]
  exact iff_of_true hleft hright

theorem preserved_iff_of_queueSave (removing : List String) (hs : Preserved s)
    (hsave : s.save action = some (.queue t.queue removing)) (hdead : t.dead = s.dead)
    (hreturned : ∀ id, id ∈ t.trace.returned → id ∈ s.trace.returned ∨ id ∈ ids t.queue)
    (hkept : ∀ id ∈ s.trace.returned, id ∈ t.trace.returned)
    (hexecuted : t.trace.executed = s.trace.executed)
    (hremoved : t.trace.removed = removing ++ s.trace.removed)
    (hputBack : t.trace.putBack = [] ↔ ∀ id ∈ s.restores action, id ∉ s.trace.removedSinceLoad) :
    Preserved t ↔ Keeping s action := by
  unfold Preserved Keeping
  rw [hputBack, hsave]
  refine and_congr_left' ?_
  simp only [Safe, Held, hdead, hexecuted, hremoved, mem_append]
  constructor
  · intro h id hid hstored
    rcases h id (hkept id hid) with (h | h | h | h) | h
    · exact .inl h
    · exact .inr (.inr (.inl h))
    · exact .inr (.inl h)
    · exact .inr (.inr (.inr (.inl h)))
    · exact .inr (.inr (.inr (.inr h)))
  · intro h id hid
    rcases hreturned id hid with hold | hnew
    · rcases hs.1 id hold with (hsafe | hsafe | hsafe) | hsafe
      · rcases h id hold hsafe with h | h | h | h | h
        · exact .inl (.inl h)
        · exact .inl (.inr (.inr (.inl h)))
        · exact .inl (.inr (.inl h))
        · exact .inl (.inr (.inr (.inr h)))
        · exact .inr h
      · exact .inl (.inr (.inl hsafe))
      · exact .inl (.inr (.inr (.inr hsafe)))
      · exact .inr hsafe
    · exact .inl (.inl hnew)

theorem preserved_iff_of_deadSave (hs : Preserved s) (hsave : s.save action = some (.dead t.dead))
    (hqueue : t.queue = s.queue) (hreturned : t.trace.returned = s.trace.returned)
    (hexecuted : t.trace.executed = s.trace.executed) (hremoved : t.trace.removed = s.trace.removed)
    (hputBack : t.trace.putBack = [] ↔ ∀ id ∈ s.restores action, id ∉ s.trace.removedSinceLoad) :
    Preserved t ↔ Keeping s action := by
  have hheld : ∀ id, Held t id ↔ Held s id := by
    intro id
    simp only [Held, hqueue, hexecuted, hremoved]
  unfold Preserved Keeping
  rw [hputBack, hsave, hreturned]
  refine and_congr_left' ?_
  simp only [Safe, hheld]
  constructor
  · intro h id hid _
    exact (h id hid).symm
  · intro h id hid
    rcases hs.1 id hid with hsafe | hsafe
    · exact .inl hsafe
    · exact (h id hid hsafe).symm

/-- One step keeps the operations exactly when its save leaves none out. -/
theorem preserved_step_iff (hs : Preserved s) (h : deviceStep s action = some t) :
    Preserved t ↔ Keeping s action := by
  have hput := hs.2
  cases moves_of_step h with
  | request hcall => exact preserved_iff_of_noSave hs rfl rfl rfl rfl rfl (fun _ h => h) rfl rfl
  | enqueueLoad hcall | removeLoad hcall | retryLoadDead hcall _ | retryLoadQueue hcall =>
    exact preserved_iff_of_noSave hs (by simp [Device.save, hcall]) rfl rfl rfl rfl
      (fun _ h => h) rfl rfl
  | notFound hcall =>
    rcases hcall with hcall | hcall
    · exact preserved_iff_of_noSave hs (by simp [Device.save, hcall]) rfl rfl rfl rfl
        (fun _ h => h) rfl rfl
    · exact preserved_iff_of_noSave hs (by simp [Device.save, hcall]) rfl rfl rfl rfl
        (fun _ h => h) rfl rfl
  | enqueueSave hcall =>
    refine preserved_iff_of_queueSave [] hs (by simp only [Device.save, hcall]; rfl) rfl ?_ ?_
      rfl rfl ?_
    · intro id hid
      rcases mem_cons.mp hid with rfl | hid
      · exact .inr (by simp [ids, Device.setCall, Device.recordReturned, Device.saveQueue])
      · exact .inl hid
    · exact fun id hid => mem_cons_of_mem _ hid
    · simpa [Device.restores, Device.setCall, Device.recordReturned, Device.saveQueue] using hput
  | removeSave hcall =>
    refine preserved_iff_of_queueSave [_] hs (by simp only [Device.save, hcall]; rfl) rfl
      (fun _ hid => .inl hid) (fun _ hid => hid) rfl rfl ?_
    simpa [Device.restores, Device.setCall, Device.recordRemoved, Device.saveQueue] using hput
  | clearSave hcall =>
    refine preserved_iff_of_queueSave (ids s.queue) hs (by simp only [Device.save, hcall]; rfl) rfl
      (fun _ hid => .inl hid) (fun _ hid => hid) rfl rfl ?_
    simpa [Device.restores, Device.setCall, Device.recordRemoved, Device.saveQueue] using hput
  | retrySaveQueue hcall =>
    refine preserved_iff_of_queueSave [] hs (by simp only [Device.save, hcall]; rfl) rfl
      (fun _ hid => .inl hid) (fun _ hid => hid) rfl rfl ?_
    simpa [Device.restores, Device.setCall, Device.saveQueue] using hput
  | retrySaveDead hcall =>
    refine preserved_iff_of_deadSave hs (by simp only [Device.save, hcall]; rfl) rfl rfl rfl
      rfl ?_
    simpa [Device.restores, Device.setCall, Device.saveDead] using hput
  | drain hdrain => exact preserved_iff_of_noSave hs rfl rfl rfl rfl rfl (fun _ h => h) rfl rfl
  | drainAgain => exact preserved_iff_of_noSave hs rfl rfl rfl rfl rfl (fun _ h => h) rfl rfl
  | drainLoad hdrain =>
    exact preserved_iff_of_noSave hs (by simp [Device.save, hdrain])
      (by simp [Device.restores, hdrain]) rfl rfl rfl (fun _ h => h) rfl rfl
  | drainSave hdrain =>
    refine preserved_iff_of_queueSave [] hs (by simp only [Device.save, hdrain]; rfl) rfl
      (fun _ hid => .inl hid) (fun _ hid => hid) rfl rfl ?_
    simp only [Device.restores, hdrain]
    exact recordPutBack_eq_nil_iff (s := s.saveQueue _) hput _
  | deadLoad hdrain =>
    exact preserved_iff_of_noSave hs (by simp [Device.save, hdrain])
      (by simp [Device.restores, hdrain]) rfl rfl rfl (fun _ h => h) rfl rfl
  | deadSave hdrain =>
    refine preserved_iff_of_deadSave hs (by simp only [Device.save, hdrain]; rfl) rfl rfl rfl
      rfl ?_
    simp only [Device.restores, hdrain]
    exact recordPutBack_eq_nil_iff (s := s.saveDead _) hput _
  | skip _ | exceeded _ | attempt _ _ =>
    exact preserved_iff_of_noSave hs rfl rfl rfl rfl rfl (fun _ h => h) rfl rfl
  | executed hdrain =>
    exact preserved_iff_of_noSave hs rfl rfl rfl rfl rfl
      (fun _ h => mem_cons_of_mem _ h) rfl rfl
  | failed hdrain _ => exact preserved_iff_of_noSave hs rfl rfl rfl rfl rfl (fun _ h => h) rfl rfl

/-! ### Saves that rest on a current load -/

/-- A loaded list with the number of writes its key had seen: nothing newer
than `stored`, and `stored` itself if no write came after. -/
def Current (writes : Nat) (stored : List QueuedOperation) (version : Nat)
    (loaded : List QueuedOperation) : Prop :=
  version ≤ writes ∧ (version = writes → loaded = stored)

/-- No list is saved after another write of the same key since it was loaded.
What a drain dead-letters comes from the queue it loaded, so the queue may not
have been written either. -/
def Undisturbed (s : Device) : Action → Prop
  | .storage call =>
    match s.calls call with
    | .enqueueSave _ _ version | .removeSave _ _ version | .retrySaveQueue _ _ _ _ version =>
      version = s.trace.queueWrites
    | .retrySaveDead _ _ deadVersion => deadVersion = s.trace.deadWrites
    | _ => True
  | .drainStorage =>
    match s.drain with
    | .loop progress => progress.version = s.trace.queueWrites
    | .deadSave progress _ _ deadVersion =>
      progress.version = s.trace.queueWrites ∧ deadVersion = s.trace.deadWrites
    | _ => True
  | _ => True

/-- What a method call has loaded is no newer than what is stored; a retry that
is about to leave the dead-letter list has queued its operation. -/
def Call.Ok (s : Device) : Call → Prop
  | .enqueueSave _ queue version | .removeSave _ queue version =>
    Current s.trace.queueWrites s.queue version queue
  | .retryLoadQueue _ dead deadVersion => Current s.trace.deadWrites s.dead deadVersion dead
  | .retrySaveQueue _ dead deadVersion queue version =>
    Current s.trace.deadWrites s.dead deadVersion dead ∧
      Current s.trace.queueWrites s.queue version queue
  | .retrySaveDead id dead deadVersion =>
    Current s.trace.deadWrites s.dead deadVersion dead ∧
      (deadVersion = s.trace.deadWrites → Held s id)
  | _ => True

/-- The operations a drain still carries. -/
def Progress.carried (progress : Progress) : List String :=
  ids progress.todo ++ ids progress.remaining

def Drain.carried : Drain → List String
  | .idle | .load => []
  | .loop progress => progress.carried
  | .execute progress op | .deadLoad progress op | .deadSave progress op _ _ =>
    op.id :: progress.carried

def Drain.version? : Drain → Option Nat
  | .idle | .load => none
  | .loop progress | .execute progress _ | .deadLoad progress _ | .deadSave progress _ _ _ =>
    some progress.version

/-- The drain carries the operation or has executed it. -/
def Accounted (s : Device) (id : String) : Prop :=
  id ∈ s.drain.carried ∨ id ∈ s.trace.executed

/-- While nothing was written to the queue since the drain loaded it, the drain
accounts for every stored operation, or has dead-lettered it. -/
structure DrainOk (s : Device) : Prop where
  version_le : ∀ version ∈ s.drain.version?, version ≤ s.trace.queueWrites
  noneRemoved : s.trace.queueWrites ∈ s.drain.version? → s.trace.removedSinceLoad = []
  accounts : s.trace.queueWrites ∈ s.drain.version? →
    ∀ id ∈ ids s.queue, Accounted s id ∨ id ∈ ids s.dead
  deadCurrent : ∀ progress op dead deadVersion,
    s.drain = .deadSave progress op dead deadVersion →
      Current s.trace.deadWrites s.dead deadVersion dead

structure Consistent (s : Device) : Prop where
  preserved : Preserved s
  calls : ∀ call, (s.calls call).Ok s
  drain : DrainOk s
  /-- A retry that queued its operation before the drain loaded the queue. -/
  retried : ∀ call id dead, s.calls call = .retrySaveDead id dead s.trace.deadWrites →
    s.trace.queueWrites ∈ s.drain.version? → id ∈ ids s.queue → Accounted s id

theorem Consistent.ok_of_call {call : Nat} {phase : Call} (hs : Consistent s)
    (hcall : s.calls call = phase) : phase.Ok s := by
  rw [← hcall]
  exact hs.calls call

theorem consistent_initial (queue dead : List QueuedOperation) :
    Consistent (.initial queue dead) where
  preserved := by
    refine ⟨?_, rfl⟩
    intro id hid
    rcases mem_append.mp hid with hid | hid
    · exact .inl (.inl hid)
    · exact .inr hid
  calls call := trivial
  drain :=
    { version_le := by
        intro version hversion
        cases hversion
      noneRemoved := by
        intro hversion
        cases hversion
      accounts := by
        intro hversion
        cases hversion
      deadCurrent := by
        intro progress op dead deadVersion hdrain
        cases hdrain }
  retried call id dead hcall := by
    cases hcall

variable {ops : List QueuedOperation}

theorem mem_ids_filter {id : String} (other : String) (h : id ∈ ids ops) :
    id = other ∨ id ∈ ids (ops.filter fun op => op.id != other) := by
  obtain ⟨op, hop, rfl⟩ := mem_map.mp h
  rcases eq_or_ne op.id other with heq | hne
  · exact .inl heq
  · refine .inr (mem_map_of_mem ?_)
    exact mem_filter.mpr ⟨hop, bne_iff_ne.mpr hne⟩

theorem mem_ids_append {id : String} (op : QueuedOperation) (h : id ∈ ids ops) :
    id ∈ ids (ops ++ [op]) := by
  unfold ids at h ⊢
  rw [map_append]
  exact mem_append_left _ h

/-- An undisturbed save leaves nothing out. -/
theorem keeping_of_undisturbed (hs : Consistent s) (h : Undisturbed s action) :
    Keeping s action := by
  cases action with
  | request | drain | drainNext | drainExecute => simp [Keeping, Device.save, Device.restores]
  | storage call =>
    have hok := hs.calls call
    cases hcall : s.calls call with
    | enqueueSave op queue version =>
      simp only [Undisturbed, hcall] at h
      simp only [Call.Ok, hcall] at hok
      obtain rfl := hok.2 h
      simp only [Keeping, Device.save, hcall, Device.restores]
      refine ⟨fun id _ hid => .inl (mem_ids_append op hid), ?_⟩
      intro id hid
      cases hid
    | removeSave other queue version =>
      simp only [Undisturbed, hcall] at h
      simp only [Call.Ok, hcall] at hok
      obtain rfl := hok.2 h
      simp only [Keeping, Device.save, hcall, Device.restores]
      constructor
      · intro id _ hid
        rcases mem_ids_filter other hid with rfl | hid
        · exact .inr (.inl mem_cons_self)
        · exact .inl hid
      · intro id hid
        cases hid
    | clearSave =>
      simp only [Keeping, Device.save, hcall, Device.restores]
      refine ⟨fun id _ hid => .inr (.inl hid), ?_⟩
      intro id hid
      cases hid
    | retrySaveQueue op dead deadVersion queue version =>
      simp only [Undisturbed, hcall] at h
      simp only [Call.Ok, hcall] at hok
      obtain rfl := hok.2.2 h
      simp only [Keeping, Device.save, hcall, Device.restores]
      refine ⟨fun id _ hid => .inl (mem_ids_append _ hid), ?_⟩
      intro id hid
      cases hid
    | retrySaveDead other dead deadVersion =>
      simp only [Undisturbed, hcall] at h
      simp only [Call.Ok, hcall] at hok
      obtain ⟨⟨_, hdead⟩, hheld⟩ := hok
      obtain rfl := hdead h
      simp only [Keeping, Device.save, hcall, Device.restores]
      constructor
      · intro id _ hid
        rcases mem_ids_filter other hid with rfl | hid
        · exact .inr (hheld h)
        · exact .inl hid
      · intro id hid
        cases hid
    | idle | enqueueLoad op | removeLoad id | retryLoadDead id | returned reply =>
      simp [Keeping, Device.save, Device.restores, hcall]
    | retryLoadQueue op dead deadVersion =>
      simp [Keeping, Device.save, Device.restores, hcall]
  | drainStorage =>
    cases hdrain : s.drain with
    | idle | load => simp [Keeping, Device.save, Device.restores, hdrain]
    | execute progress op => simp [Keeping, Device.save, Device.restores, hdrain]
    | deadLoad progress op => simp [Keeping, Device.save, Device.restores, hdrain]
    | loop progress =>
      obtain ⟨version, todo, remaining, result⟩ := progress
      cases todo with
      | cons op todo => simp [Keeping, Device.save, Device.restores, hdrain]
      | nil =>
        simp only [Undisturbed, hdrain] at h
        have hversion : s.trace.queueWrites ∈ s.drain.version? := by
          simp [hdrain, Drain.version?, h]
        simp only [Keeping, Device.save, hdrain, Device.restores]
        constructor
        · intro id _ hid
          rcases hs.drain.accounts hversion id hid with (hcarried | hexecuted) | hdead
          · refine .inl ?_
            simpa [hdrain, Drain.carried, Progress.carried, ids] using hcarried
          · exact .inr (.inr (.inl hexecuted))
          · exact .inr (.inr (.inr (.inr hdead)))
        · rw [hs.drain.noneRemoved hversion]
          intro id _ hid
          cases hid
    | deadSave progress op dead deadVersion =>
      simp only [Undisturbed, hdrain] at h
      have hversion : s.trace.queueWrites ∈ s.drain.version? := by
        simp [hdrain, Drain.version?, h.1]
      obtain rfl := (hs.drain.deadCurrent _ _ _ _ hdrain).2 h.2
      simp only [Keeping, Device.save, hdrain, Device.restores]
      constructor
      · exact fun id _ hid => .inl (mem_ids_append op hid)
      · rw [hs.drain.noneRemoved hversion]
        intro id _ hid
        cases hid

/-! ### What a move changes -/

/-- Writes only add up, a list without a new write is the same list, and what
was executed or removed stays recorded. -/
structure Later (s t : Device) : Prop where
  queueWrites_le : s.trace.queueWrites ≤ t.trace.queueWrites
  deadWrites_le : s.trace.deadWrites ≤ t.trace.deadWrites
  sameQueue : t.trace.queueWrites = s.trace.queueWrites → t.queue = s.queue
  sameDead : t.trace.deadWrites = s.trace.deadWrites → t.dead = s.dead
  executed : ∀ id ∈ s.trace.executed, id ∈ t.trace.executed
  removed : ∀ id ∈ s.trace.removed, id ∈ t.trace.removed

theorem later_of_moves (h : Moves s action t) : Later s t := by
  cases h <;>
    refine ⟨?_, ?_, ?_, ?_, ?_, ?_⟩ <;>
    simp +contextual [Device.setCall, Device.setDrain, Device.saveQueue, Device.saveDead,
      Device.recordReturned, Device.recordExecuted, Device.recordRemoved, Device.recordLoad,
      Device.recordPutBack]

section Moves

variable {s t : Device} {action : Action}

theorem Current.later {writes writes' version : Nat} {stored stored' loaded : List QueuedOperation}
    (h : Current writes stored version loaded) (hle : writes ≤ writes')
    (hsame : writes' = writes → stored' = stored) : Current writes' stored' version loaded := by
  obtain ⟨hversion, hloaded⟩ := h
  refine ⟨hversion.trans hle, ?_⟩
  intro heq
  have hwrites : writes' = writes := by omega
  rw [hsame hwrites]
  exact hloaded (heq.trans hwrites)

theorem Call.Ok.later {call : Call} (h : call.Ok s) (hlater : Later s t)
    (hheld : ∀ id dead, call = .retrySaveDead id dead s.trace.deadWrites →
      Held s id → Held t id) : call.Ok t := by
  cases call with
  | enqueueSave op queue version => exact Current.later h hlater.queueWrites_le hlater.sameQueue
  | removeSave id queue version => exact Current.later h hlater.queueWrites_le hlater.sameQueue
  | retryLoadQueue op dead deadVersion =>
    exact Current.later h hlater.deadWrites_le hlater.sameDead
  | retrySaveQueue op dead deadVersion queue version =>
    exact ⟨Current.later h.1 hlater.deadWrites_le hlater.sameDead,
      Current.later h.2 hlater.queueWrites_le hlater.sameQueue⟩
  | retrySaveDead id dead deadVersion =>
    refine ⟨Current.later h.1 hlater.deadWrites_le hlater.sameDead, ?_⟩
    intro heq
    have hle := h.1.1
    have hversion : deadVersion = s.trace.deadWrites := by
      have := hlater.deadWrites_le
      omega
    subst hversion
    exact hheld id dead rfl (h.2 rfl)
  | idle | enqueueLoad op | removeLoad id | clearSave | retryLoadDead id | returned reply =>
    trivial

variable {id : String}

/-- An undisturbed step other than the drain's final save keeps what is held;
that save keeps what the drain accounts for. -/
theorem held_of_moves (hs : Consistent s) (hcond : Undisturbed s action) (h : Moves s action t)
    (hheld : Held s id)
    (haccounted : s.trace.queueWrites ∈ s.drain.version? → id ∈ ids s.queue → Accounted s id) :
    Held t id := by
  have hlater := later_of_moves h
  have hkept : (id ∈ ids s.queue → Held t id) → Held t id := by
    intro hqueue
    rcases hheld with hid | hid | hid
    · exact hqueue hid
    · exact .inr (.inl (hlater.executed id hid))
    · exact .inr (.inr (hlater.removed id hid))
  cases h with
  | enqueueSave hcall =>
    have hok := hs.ok_of_call hcall
    simp only [Undisturbed, hcall] at hcond
    obtain rfl := hok.2 hcond
    exact hkept fun hid => .inl (mem_ids_append _ hid)
  | @removeSave call other queue version hcall =>
    have hok := hs.ok_of_call hcall
    simp only [Undisturbed, hcall] at hcond
    obtain rfl := hok.2 hcond
    apply hkept
    intro hid
    rcases mem_ids_filter other hid with rfl | hid
    · exact .inr (.inr mem_cons_self)
    · exact .inl hid
  | clearSave hcall => exact hkept fun hid => .inr (.inr (mem_append_left _ hid))
  | retrySaveQueue hcall =>
    have hok := hs.ok_of_call hcall
    simp only [Undisturbed, hcall] at hcond
    obtain rfl := hok.2.2 hcond
    exact hkept fun hid => .inl (mem_ids_append _ hid)
  | drainSave hdrain =>
    simp only [Undisturbed, hdrain] at hcond
    have hversion : s.trace.queueWrites ∈ s.drain.version? := by
      simp [hdrain, Drain.version?, hcond]
    apply hkept
    intro hid
    rcases haccounted hversion hid with hcarried | hexecuted
    · refine .inl ?_
      simpa [hdrain, Drain.carried, Progress.carried, ids, Device.setDrain, Device.saveQueue,
        Device.recordPutBack] using hcarried
    · exact .inr (.inl hexecuted)
  | request _ | enqueueLoad _ | removeLoad _ | retryLoadDead _ _ | notFound _ | retryLoadQueue _ =>
    exact hkept Or.inl
  | retrySaveDead _ => exact hkept Or.inl
  | drain _ | drainAgain | drainLoad _ | deadLoad _ | deadSave _ => exact hkept Or.inl
  | skip _ | exceeded _ | attempt _ _ | executed _ | failed _ _ => exact hkept Or.inl

/-- The call a step moves is well-formed where it arrives. -/
theorem calls_of_moves (hs : Consistent s) (hcond : Undisturbed s action) (h : Moves s action t) :
    ∀ call, (t.calls call).Ok t := by
  have hlater := later_of_moves h
  have hold : ∀ call, (s.calls call).Ok t := by
    intro call
    refine (hs.calls call).later hlater ?_
    intro id dead hcall hheld
    exact held_of_moves hs hcond h hheld (hs.retried call id dead hcall)
  have hmoved : ∀ (call : Nat) (phase : Call), phase.Ok t →
      ∀ other, (update s.calls call phase other).Ok t := by
    intro call phase hphase other
    rcases eq_or_ne other call with rfl | hne
    · rw [update_self]
      exact hphase
    · rw [update_of_ne hne]
      exact hold other
  cases h with
  | @request call request _ =>
    refine hmoved call _ ?_
    cases request <;> trivial
  | enqueueLoad _ => exact hmoved _ _ ⟨le_refl _, fun _ => rfl⟩
  | enqueueSave _ => exact hmoved _ _ trivial
  | removeLoad _ => exact hmoved _ _ ⟨le_refl _, fun _ => rfl⟩
  | removeSave _ => exact hmoved _ _ trivial
  | clearSave _ => exact hmoved _ _ trivial
  | retryLoadDead _ _ => exact hmoved _ _ ⟨le_refl _, fun _ => rfl⟩
  | notFound _ => exact hmoved _ _ trivial
  | retryLoadQueue hcall =>
    have hok := hs.ok_of_call hcall
    exact hmoved _ _ ⟨hok, le_refl _, fun _ => rfl⟩
  | retrySaveQueue hcall =>
    have hok := hs.ok_of_call hcall
    refine hmoved _ _ ⟨hok.1, fun _ => .inl ?_⟩
    simp [ids, Device.setCall, Device.saveQueue, QueuedOperation.retried]
  | retrySaveDead _ => exact hmoved _ _ trivial
  | drain _ | drainAgain | drainLoad _ | drainSave _ | deadLoad _ | deadSave _ => exact hold
  | skip _ | exceeded _ | attempt _ _ | executed _ | failed _ _ => exact hold

/-- While a drain rests on the current queue, a step either loaded it just now
or wrote nothing to it. -/
theorem running_of_moves (hs : DrainOk s) (h : Moves s action t)
    (hrunning : t.trace.queueWrites ∈ t.drain.version?) :
    (t.trace.removedSinceLoad = [] ∧ ∀ id ∈ ids t.queue, id ∈ t.drain.carried) ∨
      (t.trace.queueWrites = s.trace.queueWrites ∧
        s.trace.queueWrites ∈ s.drain.version? ∧
        t.trace.removedSinceLoad = s.trace.removedSinceLoad) := by
  cases h with
  | enqueueSave _ | removeSave _ | clearSave _ | retrySaveQueue _ =>
    exact absurd (hs.version_le _ hrunning) (Nat.not_succ_le_self _)
  | drainLoad hdrain =>
    refine .inl ⟨rfl, ?_⟩
    intro id hid
    refine mem_append_left _ ?_
    obtain ⟨op, hop, rfl⟩ := mem_map.mp hid
    exact mem_map_of_mem ((mem_insertionSort _).mpr hop)
  | drain hdrain => cases hrunning
  | drainSave hdrain => cases hrunning
  | request _ | enqueueLoad _ | removeLoad _ | retryLoadDead _ _ | notFound _ | retryLoadQueue _ =>
    exact .inr ⟨rfl, hrunning, rfl⟩
  | retrySaveDead _ | drainAgain => exact .inr ⟨rfl, hrunning, rfl⟩
  | deadLoad hdrain | deadSave hdrain | skip hdrain | exceeded hdrain | executed hdrain =>
    refine .inr ⟨rfl, ?_, rfl⟩
    rw [hdrain]
    exact hrunning
  | attempt hdrain _ | failed hdrain _ =>
    refine .inr ⟨rfl, ?_, rfl⟩
    rw [hdrain]
    exact hrunning

/-- A running drain drops an operation only into the dead-letter list. -/
theorem accounted_of_moves (h : Moves s action t)
    (hrunning : t.trace.queueWrites ∈ t.drain.version?) (hid : Accounted s id) :
    Accounted t id ∨ (id ∈ ids t.dead ∧ s.trace.deadWrites < t.trace.deadWrites) := by
  rcases hid with hid | hid
  · cases h with
    | drain hdrain => cases hrunning
    | drainSave hdrain => cases hrunning
    | drainLoad hdrain =>
      rw [hdrain] at hid
      cases hid
    | deadLoad hdrain =>
      rw [hdrain] at hid
      exact .inl (.inl hid)
    | deadSave hdrain =>
      rw [hdrain] at hid
      rcases mem_cons.mp hid with rfl | hid
      · exact .inr ⟨by simp [ids, Device.setDrain, Device.recordPutBack, Device.saveDead],
          Nat.lt_succ_self _⟩
      · exact .inl (.inl hid)
    | skip hdrain =>
      rw [hdrain] at hid
      simp only [Drain.carried, Progress.carried, ids, map_cons, cons_append,
        mem_cons, mem_append] at hid
      refine .inl (.inl ?_)
      simp only [Device.setDrain, Drain.carried, Progress.carried, ids, map_append,
        map_cons, map_nil, mem_append, mem_singleton]
      rcases hid with hid | hid | hid
      · exact .inr (.inr hid)
      · exact .inl hid
      · exact .inr (.inl hid)
    | exceeded hdrain =>
      rw [hdrain] at hid
      exact .inl (.inl hid)
    | attempt hdrain hop =>
      rw [hdrain] at hid
      refine .inl (.inl ?_)
      simp only [Device.setDrain, Drain.carried, hop]
      exact hid
    | executed hdrain =>
      rw [hdrain] at hid
      rcases mem_cons.mp hid with rfl | hid
      · exact .inl (.inr mem_cons_self)
      · exact .inl (.inl hid)
    | failed hdrain hop =>
      rw [hdrain] at hid
      simp only [Drain.carried, Progress.carried, ids, mem_cons, mem_append] at hid
      refine .inl (.inl ?_)
      simp only [Device.setDrain, Drain.carried, Progress.carried, ids, map_append,
        map_cons, map_nil, mem_append, mem_singleton, hop]
      rcases hid with hid | hid | hid
      · exact .inr (.inr hid)
      · exact .inl hid
      · exact .inr (.inl hid)
    | request _ | enqueueLoad _ | enqueueSave _ | removeLoad _ | removeSave _ | clearSave _ =>
      exact .inl (.inl hid)
    | retryLoadDead _ _ | notFound _ | retryLoadQueue _ | retrySaveQueue _ | retrySaveDead _ =>
      exact .inl (.inl hid)
    | drainAgain => exact .inl (.inl hid)
  · exact .inl (.inr ((later_of_moves h).executed id hid))

/-- Only a retry takes an operation off the dead-letter list. -/
theorem dead_of_moves (hs : Consistent s) (hcond : Undisturbed s action) (h : Moves s action t)
    (hid : id ∈ ids s.dead) :
    id ∈ ids t.dead ∨
      ∃ call dead, s.calls call = .retrySaveDead id dead s.trace.deadWrites := by
  cases h with
  | @retrySaveDead call other dead deadVersion hcall =>
    have hok := hs.ok_of_call hcall
    simp only [Undisturbed, hcall] at hcond
    obtain rfl := hok.1.2 hcond
    subst hcond
    rcases mem_ids_filter other hid with rfl | hid
    · exact .inr ⟨call, _, hcall⟩
    · exact .inl hid
  | deadSave hdrain =>
    simp only [Undisturbed, hdrain] at hcond
    obtain rfl := (hs.drain.deadCurrent _ _ _ _ hdrain).2 hcond.2
    exact .inl (mem_ids_append _ hid)
  | request _ | enqueueLoad _ | enqueueSave _ | removeLoad _ | removeSave _ | clearSave _ =>
    exact .inl hid
  | retryLoadDead _ _ | notFound _ | retryLoadQueue _ | retrySaveQueue _ => exact .inl hid
  | drain _ | drainAgain | drainLoad _ | drainSave _ | deadLoad _ => exact .inl hid
  | skip _ | exceeded _ | attempt _ _ | executed _ | failed _ _ => exact .inl hid

variable {dead : List QueuedOperation}

/-- A call comes to the end of a retry only by queueing its operation. -/
theorem retrying_of_moves (h : Moves s action t) {call : Nat} {deadVersion : Nat}
    (hcall : t.calls call = .retrySaveDead id dead deadVersion)
    (hwrites : t.trace.queueWrites = s.trace.queueWrites) :
    s.calls call = .retrySaveDead id dead deadVersion := by
  have hmoved : ∀ (moved : Nat) (phase : Call),
      (∀ dead', phase ≠ .retrySaveDead id dead' deadVersion) →
      update s.calls moved phase call = .retrySaveDead id dead deadVersion →
      s.calls call = .retrySaveDead id dead deadVersion := by
    intro moved phase hphase heq
    rcases eq_or_ne call moved with rfl | hne
    · rw [update_self] at heq
      exact absurd heq (hphase dead)
    · rwa [update_of_ne hne] at heq
  cases h with
  | @request _ request _ =>
    refine hmoved _ _ ?_ hcall
    cases request <;> exact fun _ => Call.noConfusion
  | retrySaveQueue _ => exact absurd hwrites (Nat.succ_ne_self _)
  | enqueueLoad _ | enqueueSave _ | removeLoad _ | removeSave _ | clearSave _ =>
    exact hmoved _ _ (fun _ => Call.noConfusion) hcall
  | retryLoadDead _ _ | notFound _ | retryLoadQueue _ | retrySaveDead _ =>
    exact hmoved _ _ (fun _ => Call.noConfusion) hcall
  | drain _ | drainAgain | drainLoad _ | drainSave _ | deadLoad _ | deadSave _ => exact hcall
  | skip _ | exceeded _ | attempt _ _ | executed _ | failed _ _ => exact hcall

theorem version_le_of_moves (hs : DrainOk s) (h : Moves s action t) :
    ∀ version ∈ t.drain.version?, version ≤ t.trace.queueWrites := by
  intro version hversion
  have hlater := (later_of_moves h).queueWrites_le
  have hold : version ∈ s.drain.version? → version ≤ t.trace.queueWrites :=
    fun hmem => (hs.version_le version hmem).trans hlater
  cases h with
  | drain hdrain => cases hversion
  | drainSave hdrain => cases hversion
  | drainLoad hdrain =>
    cases hversion
    exact le_refl _
  | deadLoad hdrain | deadSave hdrain | skip hdrain | exceeded hdrain | executed hdrain =>
    apply hold
    rw [hdrain]
    exact hversion
  | attempt hdrain _ | failed hdrain _ =>
    apply hold
    rw [hdrain]
    exact hversion
  | request _ | enqueueLoad _ | enqueueSave _ | removeLoad _ | removeSave _ | clearSave _ =>
    exact hold hversion
  | retryLoadDead _ _ | notFound _ | retryLoadQueue _ | retrySaveQueue _ | retrySaveDead _ =>
    exact hold hversion
  | drainAgain => exact hold hversion

theorem deadCurrent_of_moves (hs : DrainOk s) (h : Moves s action t) {progress : Progress}
    {op : QueuedOperation} {deadVersion : Nat}
    (hdrain : t.drain = .deadSave progress op dead deadVersion) :
    Current t.trace.deadWrites t.dead deadVersion dead := by
  have hlater := later_of_moves h
  have hold : s.drain = .deadSave progress op dead deadVersion →
      Current t.trace.deadWrites t.dead deadVersion dead := fun hdrain =>
    (hs.deadCurrent progress op dead deadVersion hdrain).later hlater.deadWrites_le hlater.sameDead
  cases h with
  | deadLoad _ =>
    obtain ⟨rfl, rfl, rfl, rfl⟩ := Drain.deadSave.inj hdrain
    exact ⟨le_refl _, fun _ => rfl⟩
  | drain _ | drainLoad _ | drainSave _ | deadSave _ => cases hdrain
  | skip _ | exceeded _ | attempt _ _ | executed _ | failed _ _ => cases hdrain
  | request _ | enqueueLoad _ | enqueueSave _ | removeLoad _ | removeSave _ | clearSave _ =>
    exact hold hdrain
  | retryLoadDead _ _ | notFound _ | retryLoadQueue _ | retrySaveQueue _ | retrySaveDead _ =>
    exact hold hdrain
  | drainAgain => exact hold hdrain

/-- An undisturbed step keeps the device consistent. -/
theorem consistent_step (hs : Consistent s) (hcond : Undisturbed s action)
    (h : deviceStep s action = some t) : Consistent t := by
  have hmoves := moves_of_step h
  constructor
  · exact (preserved_step_iff hs.preserved h).mpr (keeping_of_undisturbed hs hcond)
  · exact calls_of_moves hs hcond hmoves
  · constructor
    · exact version_le_of_moves hs.drain hmoves
    · intro hrunning
      rcases running_of_moves hs.drain hmoves hrunning with ⟨hnone, _⟩ | ⟨_, hold, hsame⟩
      · exact hnone
      · rw [hsame]
        exact hs.drain.noneRemoved hold
    · intro hrunning id hid
      rcases running_of_moves hs.drain hmoves hrunning with ⟨_, hcarried⟩ | ⟨hwrites, hold, _⟩
      · exact .inl (.inl (hcarried id hid))
      · rw [(later_of_moves hmoves).sameQueue hwrites] at hid
        have hacc : Accounted s id → Accounted t id ∨ id ∈ ids t.dead := by
          intro hacc
          rcases accounted_of_moves hmoves hrunning hacc with hacc | ⟨hdead, _⟩
          · exact .inl hacc
          · exact .inr hdead
        rcases hs.drain.accounts hold id hid with h | hdead
        · exact hacc h
        · rcases dead_of_moves hs hcond hmoves hdead with hdead | ⟨call, dead, hcall⟩
          · exact .inr hdead
          · exact hacc (hs.retried call id dead hcall hold hid)
    · intro progress op dead deadVersion hdrain
      exact deadCurrent_of_moves hs.drain hmoves hdrain
  · intro call id dead hcall hrunning hid
    rcases running_of_moves hs.drain hmoves hrunning with ⟨_, hcarried⟩ | ⟨hwrites, hold, _⟩
    · exact .inl (hcarried id hid)
    · have hcallOld := retrying_of_moves hmoves hcall hwrites
      have hversion : t.trace.deadWrites = s.trace.deadWrites :=
        le_antisymm (hs.ok_of_call hcallOld).1.1 (later_of_moves hmoves).deadWrites_le
      rw [hversion] at hcallOld
      rw [(later_of_moves hmoves).sameQueue hwrites] at hid
      rcases accounted_of_moves hmoves hrunning (hs.retried call id dead hcallOld hold hid) with
        hacc | ⟨_, hlt⟩
      · exact hacc
      · omega

end Moves

/-- Along every interleaving of method calls with drains, from any stored
lists, every returned operation stays stored, executed or removed and no drain
puts a removed one back exactly when no save leaves one out. That is so
whenever every save rests on a load after which nobody wrote that list. -/
theorem operations_preserved_iff (queue dead : List QueuedOperation) (labels : List Action) :
    (Always deviceStep Preserved (.initial queue dead) labels ↔
      Meets deviceStep Keeping (.initial queue dead) labels) ∧
    (Meets deviceStep Undisturbed (.initial queue dead) labels →
      Always deviceStep Preserved (.initial queue dead) labels) := by
  have hstart := consistent_initial queue dead
  constructor
  · exact always_iff_meets labels (fun _ _ _ _ _ => trivial)
      (fun _ _ _ _ hs h => preserved_step_iff hs h) trivial hstart.preserved
  · intro hmeets
    have hconsistent := always_of_meets (fun s a t hs hcond h => consistent_step hs hcond h)
      hstart hmeets
    exact hconsistent.mono fun s hs => hs.preserved

def sampleOperation (id : String) : QueuedOperation :=
  { id, priority := .normal, enqueuedAt := 0, attempts := 0, lastAttemptAt := none
    lastError := none, maxAttempts := 5 }

/-- An operation is queued between a drain's load and its final save. -/
def enqueueDuringDrain : List Action :=
  [.drain, .drainStorage, .request 0 (.enqueue "b" 1 none none), .storage 0, .storage 0,
    .drainNext 2, .drainExecute none, .drainStorage]

theorem enqueue_during_drain_lost :
    ¬ ∀ labels, Always deviceStep Preserved (.initial [sampleOperation "a"] []) labels := by
  intro h
  have hrun : (run deviceStep (.initial [sampleOperation "a"] []) enqueueDuringDrain).map
      (fun s => (s.trace.returned, ids s.queue ++ ids s.dead, s.trace.executed,
        s.trace.removed)) = some (["b", "a"], [], ["a"], []) := by
    decide
  obtain ⟨s, hs, hvalues⟩ := Option.map_eq_some_iff.mp hrun
  obtain ⟨hreturned, hstored, hexecuted, hremoved⟩ :
      s.trace.returned = ["b", "a"] ∧ ids s.queue ++ ids s.dead = [] ∧
        s.trace.executed = ["a"] ∧ s.trace.removed = [] := by
    simpa [Prod.ext_iff] using hvalues
  have hsafe : Safe s "b" := ((h enqueueDuringDrain).finish hs).1 "b" (by simp [hreturned])
  obtain ⟨hqueue, hdead⟩ := append_eq_nil_iff.mp hstored
  simp [Safe, Held, hqueue, hdead, hexecuted, hremoved] at hsafe

end Bis.Mobile
