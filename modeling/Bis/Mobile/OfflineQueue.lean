import Bis.Transition.Run
import Mathlib.Algebra.Group.Nat.Defs
import Mathlib.Data.List.Sort

/-!
The offline queue of the mobile app. Its two lists live in device storage and
every method reads and writes them in separate asynchronous steps, so a method
call is a small process and a run interleaves any number of calls with the
drain loop. Only `drain` is guarded, and only against itself.

`trace` is history that no method reads: how often each list was written and
which operations were returned by `enqueue`, executed or removed.

The type, payload and tenant of an operation are carried but never read here.
Instants are milliseconds; every `Date.now()` is a label argument.
-/

namespace Bis.Mobile

open Bis.Transition Option

inductive Priority where
  | critical | high | normal | low

/-- `PRIORITY_ORDER`. -/
def priorityOrder : Priority → Nat
  | .critical => 0
  | .high => 1
  | .normal => 2
  | .low => 3

structure QueuedOperation where
  id : String
  priority : Priority
  (enqueuedAt attempts : Nat)
  lastAttemptAt : Option Nat
  lastError : Option String
  maxAttempts : Nat

def defaultMaxAttempts : Nat := 5
def backoffBaseMs : Nat := 1000
def backoffMaxMs : Nat := 30000

def backoffMs (attempt : Nat) : Nat :=
  min (backoffBaseMs * 2 ^ (attempt - 1)) backoffMaxMs

/-- The comparison of `sortByPriority`. -/
def comesBefore (a b : QueuedOperation) : Prop :=
  priorityOrder a.priority < priorityOrder b.priority ∨
    (priorityOrder a.priority = priorityOrder b.priority ∧ a.enqueuedAt ≤ b.enqueuedAt)

instance : DecidableRel comesBefore := fun _ _ => inferInstanceAs (Decidable (_ ∨ _))

/-- A stable sort; `Array.prototype.sort` is stable. -/
def sortByPriority (ops : List QueuedOperation) : List QueuedOperation :=
  ops.insertionSort comesBefore

structure DrainResult where
  succeeded : Nat := 0
  failed : Nat := 0
  skipped : Nat := 0
  deadLettered : Nat := 0

inductive Request where
  | enqueue (uuid : String) (now : Nat) (priority : Option Priority) (maxAttempts : Option Nat)
  | remove (id : String)
  | clear
  | retryDeadLettered (id : String)

inductive Reply where
  | enqueued (op : QueuedOperation)
  | removed (found : Bool)
  | cleared
  | retried (found : Bool)

/-- Where a method call stands. A list a call has loaded is kept with the
number of writes its key had seen by then. -/
inductive Call where
  | idle
  | enqueueLoad (op : QueuedOperation)
  | enqueueSave (op : QueuedOperation) (queue : List QueuedOperation) (version : Nat)
  | removeLoad (id : String)
  | removeSave (id : String) (queue : List QueuedOperation) (version : Nat)
  | clearSave
  | retryLoadDead (id : String)
  | retryLoadQueue (op : QueuedOperation) (dead : List QueuedOperation) (deadVersion : Nat)
  | retrySaveQueue (op : QueuedOperation) (dead : List QueuedOperation) (deadVersion : Nat)
      (queue : List QueuedOperation) (version : Nat)
  | retrySaveDead (id : String) (dead : List QueuedOperation) (deadVersion : Nat)
  | returned (reply : Reply)

/-- The locals of a running drain. -/
structure Progress where
  version : Nat
  (todo remaining : List QueuedOperation)
  result : DrainResult

inductive Drain where
  | idle
  | load
  | loop (progress : Progress)
  | execute (progress : Progress) (updatedOp : QueuedOperation)
  | deadLoad (progress : Progress) (op : QueuedOperation)
  | deadSave (progress : Progress) (op : QueuedOperation) (dead : List QueuedOperation)
      (deadVersion : Nat)

structure Trace where
  queueWrites : Nat := 0
  deadWrites : Nat := 0
  returned : List String := []
  executed : List String := []
  removed : List String := []
  /-- What was removed or cleared since the current drain loaded the queue. -/
  removedSinceLoad : List String := []
  /-- What a drain stored although it had been removed while it ran. -/
  putBack : List String := []

structure Device where
  (queue dead : List QueuedOperation)
  calls : Nat → Call
  drain : Drain
  lastDrain : Option DrainResult
  trace : Trace

def ids (ops : List QueuedOperation) : List String := ops.map QueuedOperation.id

namespace Device

/-- A device whose storage holds the given lists. -/
def initial (queue dead : List QueuedOperation) : Device :=
  { queue, dead, calls := fun _ => .idle, drain := .idle, lastDrain := none
    trace := { returned := ids queue ++ ids dead } }

def setCall (s : Device) (call : Nat) (phase : Call) : Device :=
  { s with calls := Function.update s.calls call phase }

def setDrain (s : Device) (drain : Drain) : Device := { s with drain }

def saveQueue (s : Device) (queue : List QueuedOperation) : Device :=
  { s with queue, trace := { s.trace with queueWrites := s.trace.queueWrites + 1 } }

def saveDead (s : Device) (dead : List QueuedOperation) : Device :=
  { s with dead, trace := { s.trace with deadWrites := s.trace.deadWrites + 1 } }

def recordReturned (s : Device) (id : String) : Device :=
  { s with trace := { s.trace with returned := id :: s.trace.returned } }

def recordExecuted (s : Device) (id : String) : Device :=
  { s with trace := { s.trace with executed := id :: s.trace.executed } }

def recordRemoved (s : Device) (removed : List String) : Device :=
  { s with
    trace :=
      { s.trace with
        removed := removed ++ s.trace.removed
        removedSinceLoad := removed ++ s.trace.removedSinceLoad } }

def recordLoad (s : Device) : Device :=
  { s with trace := { s.trace with removedSinceLoad := [] } }

def recordPutBack (s : Device) (stored : List String) : Device :=
  { s with
    trace :=
      { s.trace with
        putBack := stored.filter (fun id => id ∈ s.trace.removedSinceLoad) ++ s.trace.putBack } }

end Device

/-- What a method call does before its first storage access. -/
def Request.start : Request → Call
  | .enqueue uuid now priority maxAttempts =>
    .enqueueLoad
      { id := uuid
        priority := priority.getD .normal
        enqueuedAt := now
        attempts := 0
        lastAttemptAt := none
        lastError := none
        maxAttempts := maxAttempts.getD defaultMaxAttempts }
  | .remove id => .removeLoad id
  | .clear => .clearSave
  | .retryDeadLettered id => .retryLoadDead id

/-- The operation `retryDeadLettered` queues again. -/
def QueuedOperation.retried (op : QueuedOperation) : QueuedOperation :=
  { op with
    attempts := 0
    lastAttemptAt := none
    lastError := none
    maxAttempts := op.maxAttempts + defaultMaxAttempts }

/-- The next storage access of a method call. -/
def storageStep (s : Device) (call : Nat) : Option Device :=
  match s.calls call with
  | .enqueueLoad op => some (s.setCall call (.enqueueSave op s.queue s.trace.queueWrites))
  | .enqueueSave op queue _ =>
    some (((s.saveQueue (queue ++ [op])).recordReturned op.id).setCall call
      (.returned (.enqueued op)))
  | .removeLoad id =>
    if (s.queue.filter fun op => op.id != id).length = s.queue.length then
      some (s.setCall call (.returned (.removed false)))
    else some (s.setCall call (.removeSave id s.queue s.trace.queueWrites))
  | .removeSave id queue _ =>
    some (((s.saveQueue (queue.filter fun op => op.id != id)).recordRemoved [id]).setCall call
      (.returned (.removed true)))
  | .clearSave =>
    some (((s.saveQueue []).recordRemoved (ids s.queue)).setCall call (.returned .cleared))
  | .retryLoadDead id =>
    match s.dead.find? fun op => op.id == id with
    | none => some (s.setCall call (.returned (.retried false)))
    | some op => some (s.setCall call (.retryLoadQueue op s.dead s.trace.deadWrites))
  | .retryLoadQueue op dead deadVersion =>
    some (s.setCall call (.retrySaveQueue op dead deadVersion s.queue s.trace.queueWrites))
  | .retrySaveQueue op dead deadVersion queue _ =>
    some ((s.saveQueue (queue ++ [op.retried])).setCall call
      (.retrySaveDead op.id dead deadVersion))
  | .retrySaveDead id dead _ =>
    some ((s.saveDead (dead.filter fun op => op.id != id)).setCall call
      (.returned (.retried true)))
  | .idle | .returned _ => none

/-- The next storage access of the drain. -/
def drainStorageStep (s : Device) : Option Device :=
  match s.drain with
  | .load =>
    some (s.recordLoad.setDrain
      (.loop ⟨s.trace.queueWrites, sortByPriority s.queue, [], {}⟩))
  | .loop ⟨_, [], remaining, result⟩ =>
    some { ((s.saveQueue remaining).recordPutBack (ids remaining)).setDrain .idle with
      lastDrain := some result }
  | .deadLoad progress op =>
    some (s.setDrain (.deadSave progress op s.dead s.trace.deadWrites))
  | .deadSave progress op dead _ =>
    some (((s.saveDead (dead ++ [op])).recordPutBack [op.id]).setDrain
      (.loop { progress with
        result := { progress.result with deadLettered := progress.result.deadLettered + 1 } }))
  | _ => none

/-- The operation is within its backoff window. -/
def QueuedOperation.backsOff (op : QueuedOperation) (now : Nat) : Bool :=
  match op.lastAttemptAt with
  | none => false
  | some lastAttempt =>
    decide (0 < op.attempts) &&
      decide ((now : Int) - lastAttempt < backoffMs op.attempts)

/-- The drain loop takes its next operation. -/
def drainNextStep (s : Device) (now : Nat) : Option Device :=
  match s.drain with
  | .loop ⟨version, op :: todo, remaining, result⟩ =>
    if op.backsOff now then
      some (s.setDrain (.loop ⟨version, todo, remaining ++ [op],
        { result with skipped := result.skipped + 1 }⟩))
    else if op.maxAttempts ≤ op.attempts then
      some (s.setDrain (.deadLoad ⟨version, todo, remaining, result⟩ op))
    else
      some (s.setDrain (.execute ⟨version, todo, remaining, result⟩
        { op with attempts := op.attempts + 1, lastAttemptAt := some now }))
  | _ => none

/-- The executor answers; `error` is the message of what it throws. -/
def drainExecuteStep (s : Device) (error : Option String) : Option Device :=
  match s.drain, error with
  | .execute progress updatedOp, none =>
    some ((s.recordExecuted updatedOp.id).setDrain (.loop { progress with
      result := { progress.result with succeeded := progress.result.succeeded + 1 } }))
  | .execute progress updatedOp, some message =>
    some (s.setDrain (.loop { progress with
      remaining := progress.remaining ++ [{ updatedOp with lastError := some message }]
      result := { progress.result with failed := progress.result.failed + 1 } }))
  | _, _ => none

inductive Action where
  | request (call : Nat) (request : Request)
  | storage (call : Nat)
  | drain
  | drainStorage
  | drainNext (now : Nat)
  | drainExecute (error : Option String)

def deviceStep : Step Device Action
  | s, .request call request =>
    match s.calls call with
    | .idle => some (s.setCall call request.start)
    | _ => none
  | s, .storage call => storageStep s call
  | s, .drain =>
    match s.drain with
    | .idle => some (s.setDrain .load)
    | _ => some { s with lastDrain := some {} }
  | s, .drainStorage => drainStorageStep s
  | s, .drainNext now => drainNextStep s now
  | s, .drainExecute error => drainExecuteStep s error

/-- The moves of a device, one for each point where a method or the drain can
stand. -/
inductive Moves (s : Device) : Action → Device → Prop where
  | request {call : Nat} {request : Request} :
      s.calls call = .idle → Moves s (.request call request) (s.setCall call request.start)
  | enqueueLoad {call : Nat} {op : QueuedOperation} :
      s.calls call = .enqueueLoad op →
      Moves s (.storage call) (s.setCall call (.enqueueSave op s.queue s.trace.queueWrites))
  | enqueueSave {call : Nat} {op : QueuedOperation} {queue : List QueuedOperation}
      {version : Nat} :
      s.calls call = .enqueueSave op queue version →
      Moves s (.storage call) (((s.saveQueue (queue ++ [op])).recordReturned op.id).setCall call
        (.returned (.enqueued op)))
  | removeLoad {call : Nat} {id : String} :
      s.calls call = .removeLoad id →
      Moves s (.storage call) (s.setCall call (.removeSave id s.queue s.trace.queueWrites))
  | removeSave {call : Nat} {id : String} {queue : List QueuedOperation} {version : Nat} :
      s.calls call = .removeSave id queue version →
      Moves s (.storage call)
        (((s.saveQueue (queue.filter fun op => op.id != id)).recordRemoved [id]).setCall call
          (.returned (.removed true)))
  | clearSave {call : Nat} :
      s.calls call = .clearSave →
      Moves s (.storage call)
        (((s.saveQueue []).recordRemoved (ids s.queue)).setCall call (.returned .cleared))
  | retryLoadDead {call : Nat} {id : String} {op : QueuedOperation} :
      s.calls call = .retryLoadDead id → op.id = id →
      Moves s (.storage call) (s.setCall call (.retryLoadQueue op s.dead s.trace.deadWrites))
  | notFound {call : Nat} {id : String} {reply : Reply} :
      s.calls call = .removeLoad id ∨ s.calls call = .retryLoadDead id →
      Moves s (.storage call) (s.setCall call (.returned reply))
  | retryLoadQueue {call : Nat} {op : QueuedOperation} {dead : List QueuedOperation}
      {deadVersion : Nat} :
      s.calls call = .retryLoadQueue op dead deadVersion →
      Moves s (.storage call)
        (s.setCall call (.retrySaveQueue op dead deadVersion s.queue s.trace.queueWrites))
  | retrySaveQueue {call : Nat} {op : QueuedOperation} {dead queue : List QueuedOperation}
      {deadVersion version : Nat} :
      s.calls call = .retrySaveQueue op dead deadVersion queue version →
      Moves s (.storage call) ((s.saveQueue (queue ++ [op.retried])).setCall call
        (.retrySaveDead op.id dead deadVersion))
  | retrySaveDead {call : Nat} {id : String} {dead : List QueuedOperation} {deadVersion : Nat} :
      s.calls call = .retrySaveDead id dead deadVersion →
      Moves s (.storage call) ((s.saveDead (dead.filter fun op => op.id != id)).setCall call
        (.returned (.retried true)))
  | drain : s.drain = .idle → Moves s .drain (s.setDrain .load)
  | drainAgain : Moves s .drain { s with lastDrain := some {} }
  | drainLoad :
      s.drain = .load →
      Moves s .drainStorage (s.recordLoad.setDrain
        (.loop ⟨s.trace.queueWrites, sortByPriority s.queue, [], {}⟩))
  | drainSave {version : Nat} {remaining : List QueuedOperation} {result : DrainResult} :
      s.drain = .loop ⟨version, [], remaining, result⟩ →
      Moves s .drainStorage
        { ((s.saveQueue remaining).recordPutBack (ids remaining)).setDrain .idle with
          lastDrain := some result }
  | deadLoad {progress : Progress} {op : QueuedOperation} :
      s.drain = .deadLoad progress op →
      Moves s .drainStorage (s.setDrain (.deadSave progress op s.dead s.trace.deadWrites))
  | deadSave {progress : Progress} {op : QueuedOperation} {dead : List QueuedOperation}
      {deadVersion : Nat} {result : DrainResult} :
      s.drain = .deadSave progress op dead deadVersion →
      Moves s .drainStorage (((s.saveDead (dead ++ [op])).recordPutBack [op.id]).setDrain
        (.loop { progress with result }))
  | skip {version now : Nat} {op : QueuedOperation} {todo remaining : List QueuedOperation}
      {result result' : DrainResult} :
      s.drain = .loop ⟨version, op :: todo, remaining, result⟩ →
      Moves s (.drainNext now)
        (s.setDrain (.loop ⟨version, todo, remaining ++ [op], result'⟩))
  | exceeded {version now : Nat} {op : QueuedOperation} {todo remaining : List QueuedOperation}
      {result : DrainResult} :
      s.drain = .loop ⟨version, op :: todo, remaining, result⟩ →
      Moves s (.drainNext now) (s.setDrain (.deadLoad ⟨version, todo, remaining, result⟩ op))
  | attempt {version now : Nat} {op updatedOp : QueuedOperation}
      {todo remaining : List QueuedOperation} {result : DrainResult} :
      s.drain = .loop ⟨version, op :: todo, remaining, result⟩ → updatedOp.id = op.id →
      Moves s (.drainNext now)
        (s.setDrain (.execute ⟨version, todo, remaining, result⟩ updatedOp))
  | executed {progress : Progress} {op : QueuedOperation} {result : DrainResult} :
      s.drain = .execute progress op →
      Moves s (.drainExecute none)
        ((s.recordExecuted op.id).setDrain (.loop { progress with result }))
  | failed {progress : Progress} {op op' : QueuedOperation} {message : String}
      {result : DrainResult} :
      s.drain = .execute progress op → op'.id = op.id →
      Moves s (.drainExecute (some message))
        (s.setDrain (.loop { progress with remaining := progress.remaining ++ [op'], result }))

variable {s t : Device}

theorem moves_of_storageStep {call : Nat} (h : storageStep s call = some t) :
    Moves s (.storage call) t := by
  unfold storageStep at h
  split at h
  next hcall => exact some.inj h ▸ .enqueueLoad hcall
  next hcall => exact some.inj h ▸ .enqueueSave hcall
  next hcall =>
    split at h
    · exact some.inj h ▸ .notFound (.inl hcall)
    · exact some.inj h ▸ .removeLoad hcall
  next hcall => exact some.inj h ▸ .removeSave hcall
  next hcall => exact some.inj h ▸ .clearSave hcall
  next hcall =>
    split at h
    next => exact some.inj h ▸ .notFound (.inr hcall)
    next hfind =>
      have hid := List.find?_some hfind
      exact some.inj h ▸ .retryLoadDead hcall (eq_of_beq hid)
  next hcall => exact some.inj h ▸ .retryLoadQueue hcall
  next hcall => exact some.inj h ▸ .retrySaveQueue hcall
  next hcall => exact some.inj h ▸ .retrySaveDead hcall
  next => cases h
  next => cases h

theorem moves_of_drainStorageStep (h : drainStorageStep s = some t) : Moves s .drainStorage t := by
  unfold drainStorageStep at h
  split at h
  next hdrain => exact some.inj h ▸ .drainLoad hdrain
  next hdrain => exact some.inj h ▸ .drainSave hdrain
  next hdrain => exact some.inj h ▸ .deadLoad hdrain
  next hdrain => exact some.inj h ▸ .deadSave hdrain
  next => cases h

theorem moves_of_drainNextStep {now : Nat} (h : drainNextStep s now = some t) :
    Moves s (.drainNext now) t := by
  unfold drainNextStep at h
  split at h
  next hdrain =>
    split at h
    · exact some.inj h ▸ .skip hdrain
    · split at h
      · exact some.inj h ▸ .exceeded hdrain
      · exact some.inj h ▸ .attempt hdrain rfl
  next => cases h

theorem moves_of_drainExecuteStep {error : Option String} (h : drainExecuteStep s error = some t) :
    Moves s (.drainExecute error) t := by
  unfold drainExecuteStep at h
  split at h
  next hdrain => exact some.inj h ▸ .executed hdrain
  next hdrain => exact some.inj h ▸ .failed hdrain rfl
  next => cases h

theorem moves_of_step {action : Action} (h : deviceStep s action = some t) : Moves s action t := by
  cases action with
  | request call request =>
    simp only [deviceStep] at h
    split at h
    next hcall => exact some.inj h ▸ .request hcall
    next => cases h
  | storage call => exact moves_of_storageStep h
  | drain =>
    simp only [deviceStep] at h
    split at h
    next hdrain => exact some.inj h ▸ .drain hdrain
    next => exact some.inj h ▸ .drainAgain
  | drainStorage => exact moves_of_drainStorageStep h
  | drainNext now => exact moves_of_drainNextStep h
  | drainExecute error => exact moves_of_drainExecuteStep h

end Bis.Mobile
