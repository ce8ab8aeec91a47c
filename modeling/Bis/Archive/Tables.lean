import Bis.Relation.Keyed
import Mathlib.Data.List.Sort
import Mathlib.Data.Rat.Defs

/-!
The tables of the cold archive: transactions, batches, and the items that say which
transactions a batch has. What the archive worker and the warm archival do to them is
here, statement by statement; a database transaction is one function, which is carried
out as a whole or not at all.

Identifiers of batches are numbers, the object and the manifest of a batch are named by it.
-/

namespace Bis.Archive

open Bis.Relation

inductive TxStatus where
  | pending
  | completed
  | failed
  | reversed
  | flagged
  | blocked
  | underReview
  deriving DecidableEq

inductive Tier where
  | warm
  | cold
  deriving DecidableEq

inductive BatchStatus where
  | planned
  | uploading
  | verified
  | committed
  | failed
  | quarantined
  deriving DecidableEq

/-- `archiveStatuses`; the warm archival has the same four. -/
def TxStatus.isTerminal : TxStatus → Bool
  | completed | failed | reversed | blocked => true
  | pending | flagged | underReview => false

/-- What can change about a transaction and goes into the archive. -/
structure Values where
  status : TxStatus
  amount : Rat
  (currency originatorName : String)
  originatorAccount : Option String
  beneficiaryName : String
  beneficiaryAccount : Option String
  amlScore : Option Rat
  deriving DecidableEq

structure Transaction where
  id : Nat
  tenantId : Option Nat
  (txRef type : String)
  values : Values
  createdAt : Nat
  archivedTier : Option Tier
  coldArchiveBatchId : Option Nat
  deriving DecidableEq

structure Batch where
  id : Nat
  status : BatchStatus
  rowCount : Nat
  encryptionKeyId : Option String
  deriving DecidableEq

structure Item where
  (batchId transactionId : Nat)
  deriving DecidableEq

/-- `numeric` is the cast from `real` to `numeric` of the database. -/
structure Config where
  (coldAgeDays batchSize : Nat)
  numeric : Rat → Rat

/-- In seconds. -/
def day : Nat := 86400

def warmAgeDays : Nat := 90
def warmLimit : Nat := 10000
def warmChunk : Nat := 1000

/-- A record of the Parquet file. -/
structure TransactionArchiveV1 where
  (archiveBatchId transactionId : Nat)
  tenantId : Option Nat
  (transactionRef transactionType : String)
  values : Values
  createdAt : Nat
  deriving DecidableEq

/-- The amounts as the query reads them. -/
def Values.cast (config : Config) (values : Values) : Values :=
  { values with
    amount := config.numeric values.amount
    amlScore := values.amlScore.map config.numeric }

def Transaction.record (config : Config) (tx : Transaction) (batch : Nat) :
    TransactionArchiveV1 where
  archiveBatchId := batch
  transactionId := tx.id
  tenantId := tx.tenantId
  transactionRef := tx.txRef
  transactionType := tx.type
  values := tx.values.cast config
  createdAt := tx.createdAt

structure Database where
  transactions : List Transaction
  batches : List Batch
  items : List Item
  (nextTransaction nextBatch : Nat)

def Transaction.isOwnedBy (tx : Transaction) (batch : Nat) : Bool :=
  tx.coldArchiveBatchId == some batch

/-- What both archivals look for, at their own ages. -/
def Transaction.isDue (tx : Transaction) (ageDays now : Nat) : Bool :=
  tx.values.status.isTerminal && decide (tx.createdAt + ageDays * day < now) &&
    tx.archivedTier.isNone

def Transaction.isCandidate (config : Config) (tx : Transaction) (now : Nat) : Bool :=
  tx.isDue config.coldAgeDays now && tx.coldArchiveBatchId.isNone

namespace Database

/-- The batch has one of the statuses that an update asks for. -/
def batchIn (db : Database) (batch : Nat) (allowed : List BatchStatus) : Bool :=
  db.batches.any fun b => b.id == batch && allowed.contains b.status

def updateBatch (db : Database) (batch : Nat) (f : Batch → Batch) : List Batch :=
  updateWhere (fun b => b.id == batch) f db.batches

def setStatus (db : Database) (batch : Nat) (status : BatchStatus) : Database :=
  { db with batches := db.updateBatch batch fun b => { b with status } }

/-! ### The worker -/

/-- The rows that others have locked are skipped. -/
def candidates (config : Config) (db : Database) (now : Nat) (skipped : List Nat) :
    List Transaction :=
  ((db.transactions.filter fun tx => tx.isCandidate config now && !skipped.contains tx.id)
    |>.insertionSort fun a b => a.id ≤ b.id).take config.batchSize

/-- A transaction can be in one batch only. -/
def clashes (db : Database) (chosen : List Transaction) : Bool :=
  chosen.any fun tx => db.items.any fun item => item.transactionId == tx.id

def isChosen (chosen : List Transaction) (tx : Transaction) : Bool :=
  chosen.any (fun c => c.id == tx.id) && tx.coldArchiveBatchId.isNone

/-- `planBatch` on the rows that it has selected. Its query binds an `int` as `$1::text`; that
the driver carries it out is assumed. -/
def planBatch (db : Database) (chosen : List Transaction) : Option Database :=
  if db.clashes chosen ||
      (db.transactions.countP fun tx => isChosen chosen tx) != chosen.length then none
  else some
    { db with
      batches := db.batches ++ [⟨db.nextBatch, .planned, chosen.length, none⟩]
      items := db.items ++ chosen.map fun tx => ⟨db.nextBatch, tx.id⟩
      transactions := updateWhere (isChosen chosen)
        (fun tx => { tx with coldArchiveBatchId := some db.nextBatch }) db.transactions
      nextBatch := db.nextBatch + 1 }

def markUploading (db : Database) (batch : Nat) (key : String) : Option Database :=
  if db.batchIn batch [.planned] then
    some
      { db with
        batches := db.updateBatch batch fun b =>
          { b with status := .uploading, encryptionKeyId := some key } }
  else none

/-- What `writeParquet` reads: the rows that are joined with an item of the batch. -/
def readBatch (db : Database) (batch : Nat) : List Transaction :=
  db.transactions.filter fun tx =>
    db.items.any fun item => item.batchId == batch && item.transactionId == tx.id

def isMarkedBy (batch : Nat) (tx : Transaction) : Bool :=
  tx.isOwnedBy batch && tx.archivedTier.isNone

/-- The two changes of status and the marks are one database transaction. -/
def commitVerified (db : Database) (batch rowCount : Nat) : Option Database :=
  if db.batchIn batch [.uploading] &&
      (db.transactions.countP fun tx => isMarkedBy batch tx) == rowCount then
    some
      { db.setStatus batch .committed with
        transactions := updateWhere (isMarkedBy batch)
          (fun tx => { tx with archivedTier := some .cold }) db.transactions }
  else none

/-- Never a committed one. -/
def markFailed (db : Database) (batch : Nat) : Database :=
  if db.batchIn batch [.committed] then db else db.setStatus batch .failed

/-! ### Recovery -/

/-- In the order in which they were made. -/
def inFlight (db : Database) : List Batch :=
  db.batches.filter fun b => [.planned, .uploading, .verified].contains b.status

def releaseUnuploadedBatch (db : Database) (batch : Nat) : Option Database :=
  if db.batchIn batch [.planned, .uploading] then
    some
      { db.setStatus batch .failed with
        transactions := updateWhere (isMarkedBy batch)
          (fun tx => { tx with coldArchiveBatchId := none }) db.transactions }
  else none

def quarantineBatch (db : Database) (batch : Nat) : Option Database :=
  if db.batchIn batch [.uploading, .verified] then some (db.setStatus batch .quarantined)
  else none

/-! ### Everyone else -/

def insertTransaction (db : Database) (tenantId : Option Nat) (txRef type : String)
    (values : Values) (createdAt : Nat) : Database :=
  { db with
    transactions := db.transactions ++
      [⟨db.nextTransaction, tenantId, txRef, type, values, createdAt, none, none⟩]
    nextTransaction := db.nextTransaction + 1 }

/-- An update of the columns that the archive copies. -/
def updateValues (db : Database) (p : Transaction → Bool) (f : Values → Values) : Database :=
  { db with
    transactions := updateWhere p (fun tx => { tx with values := f tx.values }) db.transactions }

/-- The last statement of `archiveToWarm`. -/
def markWarm (db : Database) (ids : List Nat) : Database :=
  { db with
    transactions := updateWhere (fun tx => ids.contains tx.id)
      (fun tx => { tx with archivedTier := some .warm }) db.transactions }

end Database

/-- Whether recovery leaves a batch alone because of its key. -/
def recoveryKeyDisposition (status : BatchStatus) (keyId : Option String) (expired : Bool) : Bool :=
  match status, keyId with
  | .planned, _ => false
  | _, none => true
  | _, some _ => expired

end Bis.Archive
