import Bis.Relation.Keyed
import Bis.Transition.Run
import Bis.Window.Limit

/-!
The stablecoin rate limiter. A request looks up the window of its account under the
lock of the map, and counts and records itself under the lock of the window, two steps
with anything between them. A pass of the collector holds the lock of the map and takes
the windows one by one. A window that is deleted from the map lives on with the requests
that hold it.

Times are in nanoseconds on the monotonic clock. What was recorded for a transfer and
what for a read is noted in the entries; the limiter does not see it.
-/

namespace Bis.Stablecoin

open Bis.Relation Bis.Transition Bis.Window

/-! ### Windows -/

structure StablecoinRLConfig where
  (transferRPM transferBurst readRPM : Nat)
  transferRPM_pos : 0 < transferRPM
  transferBurst_pos : 0 < transferBurst
  readRPM_pos : 0 < readRPM

def defaultConfig : StablecoinRLConfig := ⟨5, 2, 60, by decide, by decide, by decide⟩

def StablecoinRLConfig.limit (cfg : StablecoinRLConfig) : Nat := cfg.transferRPM + cfg.transferBurst

inductive RequestKind where
  | transfer | read
  deriving DecidableEq

structure Entry where
  time : Nat
  kind : RequestKind

def second : Nat := 1000000000

def minute : Nat := 60 * second

/-- `count` drops the entries before the cutoff and leaves the rest. -/
def counted (now : Nat) (timestamps : List Entry) : List Entry :=
  evict Entry.time (now - minute) timestamps

structure Decision where
  allowed : Bool
  (count retryAfter : Nat)

/-- `since` is the later reading of the clock that `time.Since` makes. -/
def allowTransfer (cfg : StablecoinRLConfig) (timestamps : List Entry) (now since : Nat) :
    Decision × List Entry :=
  let timestamps := counted now timestamps
  if cfg.limit ≤ timestamps.length then
    let first := (timestamps.head?.map Entry.time).getD since
    ({ allowed := false, count := timestamps.length
       retryAfter := max 1 (60 - (since - first) / second) },
      timestamps)
  else
    ({ allowed := true, count := timestamps.length + 1, retryAfter := 0 },
      timestamps ++ [⟨now, .transfer⟩])

def allowRead (cfg : StablecoinRLConfig) (timestamps : List Entry) (now : Nat) :
    Bool × List Entry :=
  let timestamps := counted now timestamps
  if cfg.readRPM ≤ timestamps.length then (false, timestamps)
  else (true, timestamps ++ [⟨now, .read⟩])

/-- The collector deletes a window that is empty or whose last entry is old. -/
def stale (now : Nat) (timestamps : List Entry) : Bool :=
  timestamps.getLast?.all fun entry => decide (entry.time < now - minute)

/-! ### The limiter -/

/-- A request that holds a window. -/
structure Request where
  id : Nat
  accountID : String
  kind : RequestKind
  window : Nat

structure Slot where
  accountID : String
  window : Nat
  deriving DecidableEq

/-- A pass of the collector, with the accounts that it has not come to. -/
structure Pass where
  now : Nat
  rest : List String

structure TransferVerdict where
  accountID : String
  verdict : Verdict

structure Limiter where
  clock : Nat
  windows : List Slot
  nextWindow : Nat
  timestamps : Nat → List Entry
  requests : List Request
  gc : Option Pass
  /-- Every transfer that was decided. -/
  transfers : List TransferVerdict

def Limiter.empty : Limiter := ⟨0, [], 0, fun _ => [], [], none, []⟩

inductive Label where
  | window (request : Nat) (accountID : String) (kind : RequestKind)
  | allow (request now since : Nat)
  | gcStart (now : Nat)
  | gcVisit (accountID : String)
  | gcEnd

namespace Limiter

def slot (s : Limiter) (accountID : String) : Option Slot :=
  lookup Slot.accountID accountID s.windows

/-- `window`: the one in the map, or a new one. -/
def window (s : Limiter) (request : Nat) (accountID : String) (kind : RequestKind) : Limiter :=
  match s.slot accountID with
  | some slot => { s with requests := s.requests ++ [⟨request, accountID, kind, slot.window⟩] }
  | none =>
    { s with
      windows := s.windows ++ [⟨accountID, s.nextWindow⟩]
      nextWindow := s.nextWindow + 1
      timestamps := Function.update s.timestamps s.nextWindow []
      requests := s.requests ++ [⟨request, accountID, kind, s.nextWindow⟩] }

/-- `AllowTransfer` and `AllowRead` once they hold the window. -/
def allow (cfg : StablecoinRLConfig) (s : Limiter) (request : Request) (now since : Nat) : Limiter :=
  let requests := s.requests.filter fun r => r.id != request.id
  match request.kind with
  | .transfer =>
    let (decision, timestamps) := allowTransfer cfg (s.timestamps request.window) now since
    { s with
      clock := now
      timestamps := Function.update s.timestamps request.window timestamps
      requests
      transfers := s.transfers ++ [⟨request.accountID, now, decision.allowed⟩] }
  | .read =>
    let (_, timestamps) := allowRead cfg (s.timestamps request.window) now
    { s with
      clock := now
      timestamps := Function.update s.timestamps request.window timestamps
      requests }

def gcVisit (s : Limiter) (pass : Pass) (accountID : String) : Limiter :=
  { s with
    gc := some { pass with rest := pass.rest.erase accountID }
    windows := s.windows.filter fun slot =>
      !(slot.accountID == accountID && stale pass.now (s.timestamps slot.window)) }

def step (cfg : StablecoinRLConfig) : Step Limiter Label
  | s, .window request accountID kind =>
    if s.gc.isSome || s.requests.any fun r => r.id == request then none
    else some (s.window request accountID kind)
  | s, .allow request now since =>
    if now < s.clock then none
    else (lookup Request.id request s.requests).map fun r => s.allow cfg r now since
  | s, .gcStart now =>
    if now < s.clock || s.gc.isSome then none
    else some { s with clock := now, gc := some ⟨now, s.windows.map Slot.accountID⟩ }
  | s, .gcVisit accountID =>
    match s.gc with
    | none => none
    | some pass => if accountID ∈ pass.rest then some (s.gcVisit pass accountID) else none
  | s, .gcEnd =>
    match s.gc with
    | none => none
    | some pass => if pass.rest = [] then some { s with gc := none } else none

end Limiter

end Bis.Stablecoin
