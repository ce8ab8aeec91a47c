import Bis.Rotation.Items
import Bis.Transition.Run

/-!
The rotation worker: any number of calls of `runPiiRotationWorker`, each a
process that stands before its next transaction, together with what else writes
the tables. A transaction is one step, except for the two that hold rows over
more than one statement: `nextItems` locks the batch until its commit, and
`rotateOne` locks an item with its envelope while it calls Vault. Statements that
would wait for such a row are not enabled until it is released.

A call that throws ends as one that crashes, after what it still writes.
-/

namespace Bis.Rotation

open Bis.Relation Bis.Transition

/-- Where a call stands. -/
inductive Stage where
  /-- Before the second transaction of `leaseJob`. -/
  | claimed (d : DispatchRecord)
  /-- After an error in it. -/
  | restoring (d : DispatchRecord)
  /-- Before the transactions of `terminalizeDispatch`. -/
  | exhausted (d : DispatchRecord)
  | recorded (d : DispatchRecord)
  | leased (job : RotationJob)
  | planned (job : RotationJob) (expected : Nat)
  /-- In the loop, with what is left of the batch. -/
  | looping (job : RotationJob) (expected : Nat) (batch : List PlannedItem)
  /-- In the transaction of `nextItems`. -/
  | claiming (job : RotationJob) (expected : Nat) (batch : List PlannedItem)
  /-- In the transaction of `rotateOne`. -/
  | rotating (job : RotationJob) (expected : Nat) (item : PlannedItem)
      (fresh : Option PlannedItem) (rest : List PlannedItem)
  | failing (job : RotationJob) (code : String)
  | finishing (job : RotationJob) (outcome : Outcome) (expected : Nat)
  | returned

/-- The items that are locked, with their envelopes. -/
def Stage.held : Stage → List PlannedItem
  | .claiming _ _ batch => batch
  | .rotating _ _ _ fresh _ => fresh.toList
  | _ => []

/-- What a call does next. -/
inductive Action where
  | terminalize (now : Nat)
  | deadLetter (now : Nat)
  | handOver (now : Nat)
  | handOverFails
  | restore
  | materialize (firstId : Nat)
  | planFails
  | proceed (confirmed : Bool)
  | nextItems
  | commitItems
  | beginItem
  | skip
  | rotate (now newId : Nat) (client : CryptoClient)
  | itemFails
  | markFailed (now : Nat)
  | finish (now : Nat)
  | crash

/-- After the plan: a dry run is over, anything else needs the confirmations of
the environment. -/
def Stage.afterPlan (job : RotationJob) (expected : Nat) (confirmed : Bool) : Stage :=
  if job.dryRun then .finishing job .dryRunComplete expected
  else if confirmed then .looping job expected []
  else .failing job "PII_ROTATION_CONFIRMATION_MISSING"

/-- An empty batch ends the loop. -/
def Stage.afterBatch (job : RotationJob) (expected : Nat) : List PlannedItem → Stage
  | [] => .finishing job .completed expected
  | batch => .claiming job expected batch

section Steps

variable {Payload : Type} (format : PayloadFormat Payload) (material : KeyMaterial)

/-- One step of a call. `locked` are the items that other calls hold, themselves
or by their envelopes. -/
def advance (locked : Nat → Nat → Bool) (db : Tables) : Stage → Action → Option (Tables × Stage)
  | .exhausted d, .terminalize now => do
    let failed ← (db.failExhausted now d).toOption
    some (failed, .recorded d)
  | .recorded d, .deadLetter now => do
    let dead ← (db.deadLetter now d).toOption
    some (dead, .returned)
  | .claimed d, .handOver now =>
    match db.handOver now d with
    | .ok (leased, some job) => some (leased, .leased job)
    | .ok (requeued, none) => some (requeued, .returned)
    | .error _ => some (db, .restoring d)
  | .claimed d, .handOverFails => some (db, .restoring d)
  | .restoring d, .restore => do
    let restored ← (db.restore d).toOption
    some (restored, .returned)
  | .leased job, .materialize firstId => do
    let (planned, expected) ← db.materializeItems job firstId
    some (planned, .planned job expected)
  | .leased job, .planFails => some (db, .failing job "PII_ROTATION_PLAN_FAILURE")
  | .planned job expected, .proceed confirmed => some (db, .afterPlan job expected confirmed)
  | .looping job expected [], .nextItems =>
    some (db, .afterBatch job expected
      (db.nextItems job fun item => locked item.id item.envelopeId))
  | .claiming job expected batch, .commitItems => some (db, .looping job expected batch)
  | .looping job expected (item :: rest), .beginItem =>
    match db.freshItem job item.id with
    | none => some (db, .rotating job expected item none rest)
    | some (row, fresh) =>
      if locked row.id row.envelopeId then none
      else some (db, .rotating job expected item (some fresh) rest)
  | .rotating job expected item fresh rest, .skip =>
    if item.changed fresh then some (db.skipItem item.id, .looping job expected rest) else none
  | .rotating job expected item (some fresh) rest, .rotate now newId client =>
    if item.changed (some fresh) then none
    else do
      let rotated ← db.rotateFresh format material client now newId job fresh
      some (rotated, .looping job expected rest)
  | .rotating job _ _ _ _, .itemFails => some (db, .failing job "PII_ROTATION_ITEM_FAILURE")
  | .failing job code, .markFailed now => do
    let failed ← (db.markJobFailed now job code).toOption
    some (failed, .returned)
  | .finishing job outcome expected, .finish now => do
    let finished ← (db.finishJob now job outcome expected).toOption
    some (finished, .returned)
  | _, .crash => some (db, .returned)
  | _, _ => none

structure Process where
  id : Nat
  stage : Stage

structure System where
  tables : Tables
  fleet : List Process
  /-- The jobs whose entries have been claimed, one for each claim. -/
  claims : List Nat

/-- Another transaction holds the item or its envelope. -/
def System.locked (s : System) (itemId envelopeId : Nat) : Bool :=
  s.fleet.any fun w => w.stage.held.any fun h => h.id == itemId || h.envelopeId == envelopeId

def stageAfterLease (d : DispatchRecord) : Stage :=
  if d.state = .terminalizing then .exhausted d else .claimed d

/-- What happens in the database, or in one of the calls. -/
inductive Label (Payload : Type) where
  | registerStagedVaultKey (tenantId : Int) (kind : RegistryKind) (id : Nat) (keyVersion : String)
      (externalKeyRef : TransitRef) (metadata : Nat)
  | activateStagedVaultKey (now : Nat) (tenantId : Int) (kind : RegistryKind) (id : Nat)
  | reportSuspectedCompromise (tenantId : Int) (encryptionIds blindIndexIds : List Nat)
  | createRotationJob (now : Nat) (job : RotationJob)
  | insertEnvelope (client : CryptoClient) (now id : Nat) (subject : Subject) (payload : Payload)
  /-- The first transaction of a new call. -/
  | leaseJob (process now : Nat) (rotationRef : Option String) (locked : Nat → Bool)
  | act (process : Nat) (action : Action)

def System.lease (s : System) (process now : Nat) (rotationRef : Option String)
    (locked : Nat → Bool) : Option System := do
  if s.fleet.any fun w => w.id == process then none
  else
    let (tables, leased) ← (s.tables.leaseDispatch now rotationRef locked).toOption
    match leased with
    | none => some { s with tables }
    | some d =>
      some
        { tables
          fleet := s.fleet ++ [⟨process, stageAfterLease d⟩]
          claims := if d.state = .queued then s.claims ++ [d.rotationJobId] else s.claims }

def System.act (s : System) (process : Nat) (action : Action) : Option System := do
  let w ← lookup Process.id process s.fleet
  let (tables, stage) ← advance format material s.locked s.tables w.stage action
  some { s with tables, fleet := upsert Process.id ⟨process, stage⟩ s.fleet }

def System.step (s : System) : Label Payload → Option System
  | .registerStagedVaultKey tenantId kind id keyVersion externalKeyRef metadata =>
    (s.tables.registerStagedVaultKey material tenantId kind id keyVersion externalKeyRef
      metadata).map fun tables => { s with tables }
  | .activateStagedVaultKey now tenantId kind id =>
    (s.tables.activateStagedVaultKey now tenantId kind id).map fun tables => { s with tables }
  | .reportSuspectedCompromise tenantId encryptionIds blindIndexIds =>
    (s.tables.reportSuspectedCompromise tenantId encryptionIds blindIndexIds).map
      fun tables => { s with tables }
  | .createRotationJob now job =>
    (s.tables.createRotationJob now job).map fun tables => { s with tables }
  | .insertEnvelope client now id subject payload =>
    (s.tables.insertEnvelope format material client now id subject payload).map
      fun tables => { s with tables }
  | .leaseJob process now rotationRef locked => s.lease process now rotationRef locked
  | .act process action => s.act format material process action

end Steps

/-! ### The start -/

/-- The tables of keys and envelopes as the migrations leave them, with what their
unique indexes, foreign keys and triggers guarantee. -/
structure Custody where
  (registries blindRegistries : List Registry)
  envelopes : List Envelope
  blindIndexes : List BlindIndex
  registryIds : (registries.map Registry.id).Nodup
  envelopeIds : (envelopes.map Envelope.id).Nodup
  oneActive : ((envelopes.filter Envelope.active).map Envelope.subject).Nodup
  registered : ∀ e ∈ envelopes, ∃ key ∈ registries, key.id = e.keyRegistryId ∧
    key.keyVersion = e.keyVersion ∧ e.sealing.fits key.custody = true

def Custody.start (c : Custody) : System where
  tables :=
    { registries := c.registries, blindRegistries := c.blindRegistries
      envelopes := c.envelopes, blindIndexes := c.blindIndexes
      jobs := [], items := [], dispatch := [] }
  fleet := []
  claims := []

end Bis.Rotation
