import Bis.Relation.Batch
import Bis.Relation.Keyed
import Bis.Rotation.Vault

/-!
The tables of a key rotation, and the transactions of the rotation worker that
lease a job. The count of attempts stands twice, with the job and with its entry
in the dispatch queue; a trigger on the jobs copies it into the queue.

`Except` carries what a statement is refused with, by a trigger or by a check. An
error anywhere in a transaction undoes all of it. Ids are numbers, instants are
microseconds of the database's clock. Left out are incidents, requesters and the
forensic events, which decide nothing here.
-/

namespace Bis.Rotation

open Bis.Relation

/-! ### Rows -/

inductive Mode where
  | transitRewrap | transitReencrypt | legacyCutover
  deriving DecidableEq

inductive JobState where
  | queued | leased | dryRunComplete | completed | failed | canceled
  deriving DecidableEq

def JobState.isOpen : JobState → Bool
  | .queued | .leased => true
  | _ => false

/-- How a job ends well. -/
inductive Outcome where
  | dryRunComplete | completed
  deriving DecidableEq

def Outcome.state : Outcome → JobState
  | .dryRunComplete => .dryRunComplete
  | .completed => .completed

structure RotationJob where
  id : Nat
  rotationRef : String
  tenantId : Int
  (sourceEncryptionKeyRegistryId targetEncryptionKeyRegistryId : Nat)
  (sourceBlindIndexKeyRegistryId targetBlindIndexKeyRegistryId : Option Nat)
  mode : Mode
  dryRun : Bool
  maxBatchSize : Nat

structure JobRow extends RotationJob where
  state : JobState
  attemptCount : Nat
  expectedCount : Option Nat
  (processedCount rotatedCount failedCount : Nat)
  lastErrorCode : Option String
  leasedAt : Option Nat

inductive DispatchState where
  | queued | leased | terminalizing | deadLetter
  deriving DecidableEq

def DispatchState.isOpen : DispatchState → Bool
  | .queued | .leased => true
  | .terminalizing | .deadLetter => false

structure Dispatch where
  rotationJobId : Nat
  rotationRef : String
  tenantId : Int
  state : DispatchState
  leasedAt : Option Nat
  (attemptCount createdAt : Nat)
  deadLetteredAt : Option Nat
  deadLetterReason : Option String

inductive ItemState where
  | planned | rotated | skipped | failed
  deriving DecidableEq

structure Item where
  (id rotationJobId envelopeId : Nat)
  subject : Subject
  state : ItemState
  errorCode : Option String

structure Envelope where
  id : Nat
  subject : Subject
  ciphertext : String
  sealing : Sealing
  keyRegistryId : Nat
  keyVersion : String
  retiredAt : Option Nat

def Envelope.active (e : Envelope) : Bool := e.retiredAt.isNone

structure BlindIndex where
  tenantId : Int
  subjectKind : SubjectKind
  subjectId : Int
  attributeName : BlindAttribute
  keyRegistryId : Nat
  index : PiiBlindIndex

/-- The two unique keys of the table. -/
def BlindIndex.clashes (a b : BlindIndex) : Bool :=
  a.tenantId == b.tenantId && a.attributeName == b.attributeName &&
    a.index.keyVersion == b.index.keyVersion &&
    ((a.subjectKind == b.subjectKind && a.subjectId == b.subjectId) ||
      a.index.normalizedHmac == b.index.normalizedHmac)

structure Tables where
  (registries blindRegistries : List Registry)
  envelopes : List Envelope
  blindIndexes : List BlindIndex
  jobs : List JobRow
  items : List Item
  dispatch : List Dispatch

/-! ### The dispatch queue -/

def leaseMicroseconds : Nat := 300 * 1000000
def dispatchMaxAttempts : Nat := 12
def dispatchAttemptsExhausted : String := "PII_ROTATION_ATTEMPTS_EXHAUSTED"

def expired (now : Nat) (leasedAt : Option Nat) : Bool :=
  leasedAt.any fun since => decide (since + leaseMicroseconds < now)

/-- The checks of the table. -/
def Dispatch.checked (d : Dispatch) : Bool :=
  decide (d.attemptCount ≤ 12) &&
    match d.state with
    | .queued | .leased => d.deadLetteredAt.isNone && d.deadLetterReason.isNone
    | .terminalizing =>
      d.leasedAt.isSome && d.deadLetteredAt.isNone &&
        d.deadLetterReason == some dispatchAttemptsExhausted
    | .deadLetter =>
      d.leasedAt.isNone && d.deadLetteredAt.isSome &&
        d.deadLetterReason == some dispatchAttemptsExhausted

/-- The trigger before an update of the queue. -/
def rejectTerminalMutation : DispatchState → DispatchState → Option String
  | .deadLetter, _ => some "terminal PII rotation dispatch records are immutable"
  | .terminalizing, .queued | .terminalizing, .leased =>
    some "terminalizing PII rotation dispatch may only become dead_letter"
  | .queued, .deadLetter => some "queued PII rotation dispatch may only be leased or terminalized"
  | .leased, .deadLetter => some "leased PII rotation dispatch must requeue, renew, or terminalize"
  | _, _ => none

def refusal (old new : Dispatch) : Option String :=
  (rejectTerminalMutation old.state new.state).or
    (if new.checked then none else some "pii_rotation_dispatch_queue check violated")

def updateDispatch (p : Dispatch → Bool) (f : Dispatch → Dispatch) (queue : List Dispatch) :
    Except String (List Dispatch) :=
  match queue.findSome? fun d => if p d then refusal d (f d) else none with
  | some message => .error message
  | none => .ok (updateWhere p f queue)

def insertDispatch (d : Dispatch) (queue : List Dispatch) : Except String (List Dispatch) :=
  if d.checked then .ok (queue ++ [d]) else .error "pii_rotation_dispatch_queue check violated"

/-! ### Jobs and their trigger -/

def JobRow.dispatchState (job : JobRow) : DispatchState :=
  if job.state = .queued then .queued else .leased

/-- The entry that the trigger writes for a job. -/
def JobRow.entry (job : JobRow) (now : Nat) : Dispatch where
  rotationJobId := job.id
  rotationRef := job.rotationRef
  tenantId := job.tenantId
  state := job.dispatchState
  leasedAt := job.leasedAt
  attemptCount := job.attemptCount
  createdAt := now
  deadLetteredAt := none
  deadLetterReason := none

/-- What the trigger overwrites in an entry that is there. -/
def JobRow.overwrite (job : JobRow) (d : Dispatch) : Dispatch :=
  { d with
    state := job.dispatchState
    leasedAt := job.leasedAt
    attemptCount := job.attemptCount
    deadLetteredAt := none
    deadLetterReason := none }

/-- `sync_pii_rotation_dispatch_queue` after an update of a job's state. -/
def syncDispatchQueue (now : Nat) (job : JobRow) (queue : List Dispatch) :
    Except String (List Dispatch) :=
  if job.state.isOpen then
    if queue.any fun d => d.rotationJobId == job.id then
      updateDispatch (fun d => d.rotationJobId == job.id) job.overwrite queue
    else insertDispatch (job.entry now) queue
  else .ok (queue.filter fun d => !(d.rotationJobId == job.id && d.state.isOpen))

namespace Tables

/-- `UPDATE pii_rotation_jobs SET state = … WHERE id = … AND …`, with the check of
the attempts and the trigger. -/
def updateJob (db : Tables) (now id : Nat) (p : JobRow → Bool) (f : JobRow → JobRow) :
    Except String Tables :=
  match db.jobs.find? fun job => job.id == id && p job with
  | none => .ok db
  | some job =>
    if 12 < (f job).attemptCount then .error "pii_rotation_jobs_attempt_count_check"
    else do
      let dispatch ← syncDispatchQueue now (f job) db.dispatch
      return { db with
        jobs := updateWhere (fun other => other.id == id && p other) f db.jobs
        dispatch }

/-- An update that does not name the state fires no trigger. -/
def countJob (db : Tables) (id : Nat) (f : JobRow → JobRow) : Tables :=
  { db with jobs := updateWhere (fun job => job.id == id) f db.jobs }

end Tables

/-! ### The lease of a job -/

structure DispatchRecord where
  rotationJobId : Nat
  rotationRef : String
  tenantId : Int
  state : DispatchState
  attemptCount : Nat

def Dispatch.record (d : Dispatch) (state : DispatchState) (attemptCount : Nat) :
    DispatchRecord where
  rotationJobId := d.rotationJobId
  rotationRef := d.rotationRef
  tenantId := d.tenantId
  state
  attemptCount

/-- Entries being terminalized first, then the oldest. -/
def Dispatch.before (a b : Dispatch) : Prop :=
  (a.state = .terminalizing ∧ b.state ≠ .terminalizing) ∨
    ((a.state = .terminalizing ↔ b.state = .terminalizing) ∧ a.createdAt ≤ b.createdAt)

instance : DecidableRel Dispatch.before := fun _ _ => inferInstanceAs (Decidable (_ ∨ _))

def JobRow.lapsed (now : Nat) (job : JobRow) : Bool :=
  job.state == .leased && expired now job.leasedAt

def JobRow.requeue (job : JobRow) : JobRow :=
  { job with
    state := .queued
    leasedAt := none
    lastErrorCode := job.lastErrorCode.or (some "PII_ROTATION_LEASE_EXPIRED") }

def JobRow.lease (now : Nat) (job : JobRow) : JobRow :=
  { job with state := .leased, leasedAt := some now, attemptCount := job.attemptCount + 1 }

def Dispatch.claimable (now : Nat) (rotationRef : Option String) (d : Dispatch) : Bool :=
  (d.state == .queued || (d.state == .terminalizing && expired now d.leasedAt)) &&
    rotationRef.all fun ref => d.rotationRef == ref

namespace Tables

/-- The first transaction of `leaseJob`. `locked` are the entries that other
transactions hold, which the selection skips. -/
def leaseDispatch (db : Tables) (now : Nat) (rotationRef : Option String) (locked : Nat → Bool) :
    Except String (Tables × Option DispatchRecord) := do
  let queue ← updateDispatch (fun d => d.state == .leased && expired now d.leasedAt)
    (fun d => { d with state := .queued, leasedAt := none }) db.dispatch
  let selected := firstBy Dispatch.before 1 <| queue.filter fun d =>
    d.claimable now rotationRef && !locked d.rotationJobId
  match selected.head? with
  | none => return ({ db with dispatch := queue }, none)
  | some d =>
    if d.state = .terminalizing then
      let renewed ← updateDispatch (fun e => e.rotationJobId == d.rotationJobId &&
          e.state == .terminalizing && e.deadLetterReason == some dispatchAttemptsExhausted)
        (fun e => { e with leasedAt := some now }) queue
      return ({ db with dispatch := renewed }, some (d.record .terminalizing d.attemptCount))
    else if dispatchMaxAttempts ≤ d.attemptCount then
      let terminalized ← updateDispatch (fun e => e.rotationJobId == d.rotationJobId &&
          e.state == .queued && decide (dispatchMaxAttempts ≤ e.attemptCount))
        (fun e => { e with
          state := .terminalizing
          leasedAt := some now
          deadLetterReason := some dispatchAttemptsExhausted }) queue
      return ({ db with dispatch := terminalized },
        some (d.record .terminalizing d.attemptCount))
    else
      let leased ← updateDispatch (fun e => e.rotationJobId == d.rotationJobId &&
          e.state == .queued && decide (e.attemptCount < dispatchMaxAttempts))
        (fun e => { e with
          state := .leased, leasedAt := some now, attemptCount := e.attemptCount + 1 }) queue
      return ({ db with dispatch := leased }, some (d.record .queued (d.attemptCount + 1)))

/-- The first transaction of `terminalizeDispatch`. -/
def failExhausted (db : Tables) (now : Nat) (d : DispatchRecord) : Except String Tables :=
  db.updateJob now d.rotationJobId (fun job => job.tenantId == d.tenantId && job.state.isOpen)
    fun job => { job with
      state := .failed
      failedCount := job.failedCount + 1
      lastErrorCode := some dispatchAttemptsExhausted
      leasedAt := none }

/-- The second one. -/
def deadLetter (db : Tables) (now : Nat) (d : DispatchRecord) : Except String Tables := do
  let dispatch ← updateDispatch (fun e => e.rotationJobId == d.rotationJobId &&
      e.state == .terminalizing && e.deadLetterReason == some dispatchAttemptsExhausted)
    (fun e => { e with state := .deadLetter, leasedAt := none, deadLetteredAt := some now })
    db.dispatch
  return { db with dispatch }

/-- The second transaction of `leaseJob`, as the tenant. -/
def handOver (db : Tables) (now : Nat) (d : DispatchRecord) :
    Except String (Tables × Option RotationJob) := do
  let requeued ← db.updateJob now d.rotationJobId
    (fun job => job.tenantId == d.tenantId && job.lapsed now) JobRow.requeue
  match requeued.jobs.find? fun job => job.id == d.rotationJobId &&
      (job.rotationRef == d.rotationRef && job.tenantId == d.tenantId && job.state == .queued) with
  | none => return (requeued, none)
  | some job =>
    let leased ← requeued.updateJob now job.id (fun _ => true) (JobRow.lease now)
    return (leased, some job.toRotationJob)

/-- What gives the entry back after an error in the second transaction. -/
def restore (db : Tables) (d : DispatchRecord) : Except String Tables := do
  let dispatch ← updateDispatch (fun e => e.rotationJobId == d.rotationJobId && e.state == .leased)
    (fun e => { e with state := .queued, leasedAt := none }) db.dispatch
  return { db with dispatch }

def markJobFailed (db : Tables) (now : Nat) (job : RotationJob) (code : String) :
    Except String Tables :=
  db.updateJob now job.id (fun row => row.state == .leased) fun row => { row with
    state := .failed, failedCount := row.failedCount + 1, lastErrorCode := some code }

def finishJob (db : Tables) (now : Nat) (job : RotationJob) (outcome : Outcome) (expected : Nat) :
    Except String Tables :=
  db.updateJob now job.id (fun row => row.state == .leased) fun row => { row with
    state := outcome.state
    processedCount := if outcome = .dryRunComplete then expected else row.processedCount
    leasedAt := none }

end Tables

end Bis.Rotation
