import Bis.Archive.Tables
import Bis.Transition.Run

/-!
Runs of the cold archive worker, cycle after cycle, with the warm archival and the writers
of transactions beside it. The advisory lock lets one worker run at a time. Each call to
the database or the object store is a step, which may fail, and may have been carried out
all the same; the worker may crash between any two.

What the worker has marked cold, and what recovery has released, is recorded beside the
tables.
-/

namespace Bis.Archive

open Bis.Relation Bis.Transition

/-- An `error` that is `done` has been carried out. -/
inductive Outcome where
  | ok
  | error (done : Bool)
  deriving DecidableEq

def Outcome.done : Outcome → Bool
  | .ok => true
  | .error done => done

inductive Stat where
  | found
  | missing
  | error
  deriving DecidableEq

structure ArchiveBatch where
  (id rowCount : Nat)
  deriving DecidableEq

structure StoredObject where
  batch : Nat
  records : List TransactionArchiveV1
  deriving DecidableEq

/-- Where `run` stands. -/
inductive Worker where
  | idle
  | recovering (batches : List Batch)
  | planned (batch : ArchiveBatch)
  | uploading (batch : ArchiveBatch)
  | written (batch : ArchiveBatch) (records : List TransactionArchiveV1)
  | uploaded (batch : ArchiveBatch) (records : List TransactionArchiveV1)
  | manifested (batch : ArchiveBatch) (records : List TransactionArchiveV1)
  | failing (batch : ArchiveBatch)
  deriving DecidableEq

/-- The rows that a batch has marked cold, as they were then. -/
structure Commit where
  batch : Nat
  rows : List Transaction

structure System where
  db : Database
  objects : List StoredObject
  manifests : List Nat
  worker : Worker
  /-- The rows that runs of `archiveToWarm` have read and not marked. -/
  warmRuns : List (List Nat)
  /-- The transfers that were found completed, to be reversed. -/
  reversals : List Transaction
  commits : List Commit
  released : List Nat

def System.empty : System := ⟨⟨[], [], [], 0, 0⟩, [], [], .idle, [], [], [], []⟩

inductive Label where
  | start
  /-- Recovery of the next batch: what the store answers, and whether the key has expired. -/
  | recover (stat : Stat) (expired : Bool) (outcome : Outcome)
  | plan (now : Nat) (skipped : List Nat) (outcome : Outcome)
  | markUploading (key : String) (expired : Bool) (outcome : Outcome)
  | writeParquet (done : Bool)
  | uploadFile (outcome : Outcome)
  | uploadManifest (outcome : Outcome)
  | commit (outcome : Outcome)
  | markFailed (done : Bool)
  | crash
  | insert (tenantId : Option Nat) (txRef type : String) (values : Values) (createdAt : Nat)
  | update (id : Nat) (values : Values)
  | freezeAccount (accountId : String)
  /-- `reverseTransfer` finds the transfer completed. -/
  | findReversal (tenantId : Option Nat) (txRef : String)
  | reverse (tenantId : Option Nat) (tx : Transaction) (reversalRef : String) (now : Nat)
  | selectWarm (now : Nat) (ids : List Nat)
  /-- A run of `archiveToWarm` marks its next rows. -/
  | markWarm (run : Nat) (done : Bool)

namespace System

def hasObject (s : System) (batch : Nat) : Bool := s.objects.any fun object => object.batch == batch

def hasManifest (s : System) (batch : Nat) : Bool := s.manifests.contains batch

/-- A statement on the database; without an `ok` the cycle ends. -/
def execute (s : System) (outcome : Outcome) (after : Option Database) (next : Worker) : System :=
  match after with
  | none => { s with worker := .idle }
  | some db =>
    { s with
      db := if outcome.done then db else s.db
      worker := if outcome = .ok then next else .idle }

/-- Recovery of one batch. -/
def recover (s : System) (batch : Batch) (rest : List Batch) (stat : Stat) (expired : Bool)
    (outcome : Outcome) : System :=
  let quarantine := s.execute outcome (s.db.quarantineBatch batch.id) (.recovering rest)
  let release := s.execute outcome (s.db.releaseUnuploadedBatch batch.id) (.recovering rest)
  let release :=
    if outcome.done && s.db.batchIn batch.id [.planned, .uploading] then
      { release with released := s.released ++ [batch.id] }
    else release
  if recoveryKeyDisposition batch.status batch.encryptionKeyId expired then quarantine
  else
    match batch.status, stat with
    | .planned, _ => release
    | .uploading, .missing => release
    | .uploading, .error => { s with worker := .idle }
    | .uploading, .found => quarantine
    | .verified, _ => quarantine
    | _, _ => { s with worker := .recovering rest }

/-- `requireNoInflightBatch` and `planBatch`. -/
def plan (config : Config) (s : System) (now : Nat) (skipped : List Nat) (outcome : Outcome) :
    System :=
  let chosen := s.db.candidates config now skipped
  if s.db.inFlight.isEmpty && !chosen.isEmpty then
    s.execute outcome (s.db.planBatch chosen) (.planned ⟨s.db.nextBatch, chosen.length⟩)
  else { s with worker := .idle }

/-- The object store takes an object under a new key. -/
def put (s : System) (outcome : Outcome) (batch : Nat) (records : List TransactionArchiveV1) :
    List StoredObject :=
  if outcome.done && !s.hasObject batch then s.objects ++ [⟨batch, records⟩] else s.objects

def uploadFile (s : System) (batch : ArchiveBatch) (records : List TransactionArchiveV1)
    (outcome : Outcome) : System :=
  { s with
    objects := s.put outcome batch.id records
    worker :=
      if outcome = .ok && !s.hasObject batch.id then .uploaded batch records else .failing batch }

def uploadManifest (s : System) (batch : ArchiveBatch) (records : List TransactionArchiveV1)
    (outcome : Outcome) : System :=
  { s with
    manifests :=
      if outcome.done && !s.hasManifest batch.id then s.manifests ++ [batch.id] else s.manifests
    worker :=
      if outcome = .ok && !s.hasManifest batch.id then .manifested batch records
      else .failing batch }

def commit (s : System) (batch : ArchiveBatch) (outcome : Outcome) : System :=
  match s.db.commitVerified batch.id batch.rowCount with
  | none => { s with worker := .failing batch }
  | some db =>
    if outcome.done then
      { s with
        db
        worker := if outcome = .ok then .idle else .failing batch
        commits := s.commits ++
          [⟨batch.id, s.db.transactions.filter (Database.isMarkedBy batch.id)⟩] }
    else { s with worker := .failing batch }

def ofTenant (tenantId : Option Nat) (tx : Transaction) : Bool :=
  tenantId.all fun tenant => tx.tenantId == some tenant

/-- The row that reverses a transfer. -/
def reversal (tx : Transaction) : Values where
  status := .completed
  amount := tx.values.amount
  currency := tx.values.currency
  originatorName := tx.values.beneficiaryName
  originatorAccount := tx.values.beneficiaryAccount
  beneficiaryName := tx.values.originatorName
  beneficiaryAccount := tx.values.originatorAccount
  amlScore := some 0

def isBlockedBy (accountId : String) (tx : Transaction) : Bool :=
  (tx.values.status == .pending || tx.values.status == .underReview) &&
    (tx.values.originatorAccount == some accountId ||
      tx.values.beneficiaryAccount == some accountId)

def isReversed (tenantId : Option Nat) (txRef : String) (tx : Transaction) : Bool :=
  tx.txRef == txRef && ofTenant tenantId tx

def step (config : Config) : Step System Label
  | s, .start =>
    if s.worker = .idle then some { s with worker := .recovering s.db.inFlight } else none
  | s, .recover stat expired outcome =>
    match s.worker with
    | .recovering (batch :: rest) =>
      if (stat = .found → s.hasObject batch.id) ∧ (stat = .missing → ¬ s.hasObject batch.id) then
        some (s.recover batch rest stat expired outcome)
      else none
    | _ => none
  | s, .plan now skipped outcome =>
    match s.worker with
    | .recovering [] => some (s.plan config now skipped outcome)
    | _ => none
  | s, .markUploading key expired outcome =>
    match s.worker with
    | .planned batch =>
      some
        (if expired then { s with worker := .idle }
        else s.execute outcome (s.db.markUploading batch.id key) (.uploading batch))
    | _ => none
  | s, .writeParquet done =>
    match s.worker with
    | .uploading batch =>
      let rows := s.db.readBatch batch.id
      some
        { s with
          worker :=
            if done && rows.length == batch.rowCount then
              .written batch (rows.map fun tx => tx.record config batch.id)
            else .failing batch }
    | _ => none
  | s, .uploadFile outcome =>
    match s.worker with
    | .written batch records => some (s.uploadFile batch records outcome)
    | _ => none
  | s, .uploadManifest outcome =>
    match s.worker with
    | .uploaded batch records => some (s.uploadManifest batch records outcome)
    | _ => none
  | s, .commit outcome =>
    match s.worker with
    | .manifested batch _ => some (s.commit batch outcome)
    | _ => none
  | s, .markFailed done =>
    match s.worker with
    | .failing batch =>
      some { s with db := if done then s.db.markFailed batch.id else s.db, worker := .idle }
    | _ => none
  | s, .crash => some { s with worker := .idle }
  | s, .insert tenantId txRef type values createdAt =>
    if s.db.transactions.any fun tx => tx.txRef == txRef then none
    else some { s with db := s.db.insertTransaction tenantId txRef type values createdAt }
  | s, .update id values =>
    some { s with db := s.db.updateValues (fun tx => tx.id == id) fun _ => values }
  | s, .freezeAccount accountId =>
    some { s with
      db := s.db.updateValues (isBlockedBy accountId) fun v => { v with status := .blocked } }
  | s, .findReversal tenantId txRef =>
    match s.db.transactions.find? (isReversed tenantId txRef) with
    | some tx =>
      if tx.values.status = .completed then some { s with reversals := s.reversals ++ [tx] }
      else none
    | none => none
  | s, .reverse tenantId tx reversalRef now =>
    if s.reversals.contains tx &&
        !s.db.transactions.any fun other => other.txRef == reversalRef then
      some { s with
        reversals := s.reversals.erase tx
        db := (s.db.updateValues (isReversed tenantId tx.txRef) fun v =>
          { v with status := .reversed }).insertTransaction tx.tenantId reversalRef tx.type
            (reversal tx) now }
    else none
  | s, .selectWarm now ids =>
    if ids.length ≤ warmLimit ∧ ids.Nodup ∧
        ∀ id ∈ ids, ∃ tx ∈ s.db.transactions, tx.id = id ∧ tx.isDue warmAgeDays now = true then
      some { s with warmRuns := s.warmRuns ++ [ids] }
    else none
  | s, .markWarm run done =>
    (s.warmRuns[run]?).map fun ids =>
      { s with
        db := if done then s.db.markWarm (ids.take warmChunk) else s.db
        warmRuns := s.warmRuns.set run (ids.drop warmChunk) }

end System

end Bis.Archive
