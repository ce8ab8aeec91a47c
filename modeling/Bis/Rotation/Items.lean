import Bis.Rotation.Tables

/-!
What the worker does with the items of a job, and what else writes the tables:
the key custody procedures, the creation of jobs, and the backfill of envelopes.
A call that throws is `none`, and its transaction is undone.

The items of a job and their envelopes belong to its tenant, so the row security
hides none of them. That the subject of a new envelope is still a row of its
tenant is not modelled; an insert may fail at any time.
-/

namespace Bis.Rotation

open Bis.Relation

/-! ### Keys and jobs -/

inductive RegistryKind where
  | encryption | blindIndex

def ninetyDays : Nat := 90 * 24 * 3600 * 1000000

def Registry.retire (now : Nat) (row : Registry) : Registry :=
  { row with status := .retiring, retiresAt := row.retiresAt.or (some (now + ninetyDays)) }

/-- The row with which a job starts. -/
def RotationJob.created (job : RotationJob) : JobRow where
  toRotationJob := job
  state := .queued
  attemptCount := 0
  expectedCount := none
  processedCount := 0
  rotatedCount := 0
  failedCount := 0
  lastErrorCode := none
  leasedAt := none

namespace Tables

def keys (db : Tables) : RegistryKind → List Registry
  | .encryption => db.registries
  | .blindIndex => db.blindRegistries

def setKeys (db : Tables) (rows : List Registry) : RegistryKind → Tables
  | .encryption => { db with registries := rows }
  | .blindIndex => { db with blindRegistries := rows }

/-- The row, as the tenant sees it. -/
def registryForUpdate (db : Tables) (tenantId : Int) (kind : RegistryKind) (id : Nat) :
    Option Registry :=
  (db.keys kind).find? fun row => row.id == id && row.tenantId == tenantId

/-- `metadata` is the latest version that Vault reports of the key. -/
def registerStagedVaultKey (db : Tables) (material : KeyMaterial) (tenantId : Int)
    (kind : RegistryKind) (id : Nat) (keyVersion : String) (externalKeyRef : TransitRef)
    (metadata : Nat) : Option Tables := do
  let _ ← parseVaultTransitRef material externalKeyRef
  let clash := (db.keys kind).any fun row =>
    row.id == id || (row.tenantId == tenantId && row.keyVersion == keyVersion)
  if clash || metadata == 0 then none
  else
    let row : Registry :=
      { id, tenantId, keyVersion, custody := .vaultTransit externalKeyRef metadata
        status := .staged, retiresAt := none }
    some (db.setKeys (db.keys kind ++ [row]) kind)

def activateStagedVaultKey (db : Tables) (now : Nat) (tenantId : Int) (kind : RegistryKind)
    (id : Nat) : Option Tables := do
  let row ← db.registryForUpdate tenantId kind id
  if row.status ≠ .staged ∨ row.custody.provider ≠ .vaultTransit then none
  else
    let retired := updateWhere (fun other => other.tenantId == tenantId && other.status == .active)
      (Registry.retire now) (db.keys kind)
    some (db.setKeys (updateWhere
      (fun other => other.id == id && other.tenantId == tenantId && other.status == .staged)
      (fun other => { other with status := .active }) retired) kind)

def markCompromised (tenantId : Int) (kind : RegistryKind) (db : Tables) (id : Nat) :
    Option Tables := do
  let row ← db.registryForUpdate tenantId kind id
  if row.status = .retired ∨ row.status = .compromised then none
  else some (db.setKeys (updateWhere (fun other => other.id == id && other.tenantId == tenantId)
    (fun other => { other with status := .compromised }) (db.keys kind)) kind)

def reportSuspectedCompromise (db : Tables) (tenantId : Int)
    (encryptionIds blindIndexIds : List Nat) : Option Tables := do
  let contained ← encryptionIds.foldlM (markCompromised tenantId .encryption) db
  blindIndexIds.foldlM (markCompromised tenantId .blindIndex) contained

def keyReady (row : Registry) : Bool :=
  row.status == .active && row.custody.provider == .vaultTransit

/-- Source and target of a rewrap are versions of one Transit key. -/
def sameTransitKey : KeyCustody → KeyCustody → Bool
  | .vaultTransit source _, .vaultTransit target _ => source == target
  | _, _ => false

/-- Where blind indexes are to be rotated too, their target is ready. -/
def blindIndexReady (db : Tables) (job : RotationJob) : Bool :=
  match job.sourceBlindIndexKeyRegistryId, job.targetBlindIndexKeyRegistryId with
  | some sourceId, some targetId =>
    (db.registryForUpdate job.tenantId .blindIndex sourceId).isSome &&
      (db.registryForUpdate job.tenantId .blindIndex targetId).any keyReady
  | none, none => true
  | _, _ => false

def modeFits (mode : Mode) (source target : Registry) : Bool :=
  match mode with
  | .transitRewrap => sameTransitKey source.custody target.custody
  | .transitReencrypt => true
  | .legacyCutover => source.custody.provider == .legacyLocalAes

/-- The unique keys of the table, one of them on the open jobs of a target. -/
def clashingJob (job : RotationJob) (other : JobRow) : Bool :=
  other.id == job.id || (other.rotationRef == job.rotationRef ||
    (other.state.isOpen && other.tenantId == job.tenantId &&
      other.targetEncryptionKeyRegistryId == job.targetEncryptionKeyRegistryId))

def createRotationJob (db : Tables) (now : Nat) (job : RotationJob) : Option Tables := do
  let source ← db.registryForUpdate job.tenantId .encryption job.sourceEncryptionKeyRegistryId
  let target ← db.registryForUpdate job.tenantId .encryption job.targetEncryptionKeyRegistryId
  let accepted := keyReady target && modeFits job.mode source target && db.blindIndexReady job &&
    job.sourceEncryptionKeyRegistryId != job.targetEncryptionKeyRegistryId &&
    decide (1 ≤ job.maxBatchSize ∧ job.maxBatchSize ≤ 200)
  if accepted && !db.jobs.any (clashingJob job) then
    some { db with
      jobs := db.jobs ++ [job.created]
      dispatch :=
        if db.dispatch.any fun d => d.rotationJobId == job.id then db.dispatch
        else db.dispatch ++ [job.created.entry now] }
  else none

/-! ### Envelopes -/

/-- The trigger before an insert into the envelopes. -/
def enforcePiiEnvelopeTenant (db : Tables) (row : Envelope) : Bool :=
  (lookup Registry.id row.keyRegistryId db.registries).any fun key =>
    key.tenantId == row.subject.tenantId && key.keyVersion == row.keyVersion &&
      row.sealing.fits key.custody && key.status == .active

def occupied (db : Tables) (subject : Subject) : Bool :=
  db.envelopes.any fun e => e.active && e.subject == subject

/-- An insert, with the unique index on the active envelopes. -/
def writeEnvelope (db : Tables) (row : Envelope) : Option Tables :=
  if db.enforcePiiEnvelopeTenant row && !(db.envelopes.any fun e => e.id == row.id) &&
      !db.occupied row.subject then
    some { db with envelopes := db.envelopes ++ [row] }
  else none

def retireEnvelope (db : Tables) (now id : Nat) : Tables :=
  { db with
    envelopes := updateWhere (fun e => e.id == id && e.active)
      (fun e => { e with retiredAt := some now }) db.envelopes }

/-- The trigger before an insert into the blind indexes. -/
def enforcePiiBlindIndexTenant (db : Tables) (row : BlindIndex) : Bool :=
  (lookup Registry.id row.keyRegistryId db.blindRegistries).any fun key =>
    key.tenantId == row.tenantId && key.keyVersion == row.index.keyVersion &&
      (Sealing.vaultTransit row.index.providerKeyVersion).fits key.custody && key.status == .active

/-- An insert `ON CONFLICT DO NOTHING`. -/
def writeBlindIndex (db : Tables) (row : BlindIndex) : Option Tables :=
  if db.enforcePiiBlindIndexTenant row then
    if db.blindIndexes.any (BlindIndex.clashes row) then some db
    else some { db with blindIndexes := db.blindIndexes ++ [row] }
  else none

def tenantRegistryById (rows : List Registry) (tenantId : Int) (id : Nat)
    (allowedStatuses : List KeyStatus) : Option TransitRegistry := do
  let row ← lookup Registry.id id rows
  let registry ← rowToRegistry row tenantId
  if allowedStatuses.contains registry.status then some registry else none

def activeTenantEncryptionRegistry (db : Tables) (now : Nat) (tenantId : Int) :
    Option TransitRegistry :=
  match db.registries.filter fun row => row.tenantId == tenantId && keyReady row &&
      row.retiresAt.all fun instant => decide (now < instant) with
  | [row] => rowToRegistry row tenantId
  | _ => none

section Crypto

variable {Payload : Type} (format : PayloadFormat Payload) (material : KeyMaterial)
  (client : CryptoClient)

/-- The backfill's insert, which an active envelope turns into nothing. -/
def insertEnvelope (db : Tables) (now id : Nat) (subject : Subject) (payload : Payload) :
    Option Tables := do
  let key ← db.activeTenantEncryptionRegistry now subject.tenantId
  let aad ← piiAad subject
  let encrypted ← encryptPiiEnvelope format material client key aad payload
  let row : Envelope :=
    { id, subject, ciphertext := encrypted.ciphertext
      sealing := .vaultTransit encrypted.providerKeyVersion
      keyRegistryId := key.id, keyVersion := encrypted.keyVersion, retiredAt := none }
  if db.occupied subject then return db else db.writeEnvelope row

end Crypto

/-! ### Planning -/

def unplanned (db : Tables) (job : RotationJob) (e : Envelope) : Bool :=
  e.subject.tenantId == job.tenantId && e.keyRegistryId == job.sourceEncryptionKeyRegistryId &&
    e.active && !(db.items.any fun i => i.rotationJobId == job.id && i.envelopeId == e.id)

def plannedRow (job : RotationJob) (id : Nat) (e : Envelope) : Item where
  id
  rotationJobId := job.id
  envelopeId := e.id
  subject := e.subject
  state := .planned
  errorCode := none

/-- `firstId` is where the sequence of the item ids stands. -/
def materializeItems (db : Tables) (job : RotationJob) (firstId : Nat) :
    Option (Tables × Nat) :=
  if db.items.any fun i => decide (firstId ≤ i.id) then none
  else
    let planned := (db.envelopes.filter (db.unplanned job)).mapIdx fun k e =>
      plannedRow job (firstId + k) e
    let items := db.items ++ planned
    let expected := items.countP fun i => i.rotationJobId == job.id
    let counted := ({ db with items }).countJob job.id fun row =>
      { row with expectedCount := some expected }
    some (counted, expected)

end Tables

/-- An item with what is read of its envelope. -/
structure PlannedItem where
  (id envelopeId : Nat)
  subject : Subject
  ciphertext : String
  sealing : Sealing
  keyVersion : String

def plannedItem (item : Item) (e : Envelope) : PlannedItem where
  id := item.id
  envelopeId := item.envelopeId
  subject := item.subject
  ciphertext := e.ciphertext
  sealing := e.sealing
  keyVersion := e.keyVersion

/-- The item is gone, or its envelope is sealed otherwise than when it was read. -/
def PlannedItem.changed (item : PlannedItem) (fresh : Option PlannedItem) : Bool :=
  match fresh with
  | none => true
  | some f => f.sealing.provider != item.sealing.provider || f.keyVersion != item.keyVersion

namespace Tables

/-- The items that `nextItems` selects among, before it skips locked rows. -/
def pending (db : Tables) (job : RotationJob) (item : Item) : Bool :=
  item.rotationJobId == job.id && item.state == .planned &&
    (lookup Envelope.id item.envelopeId db.envelopes).any Envelope.active

/-- The batch; rows that are locked are skipped. -/
def nextItems (db : Tables) (job : RotationJob) (locked : Item → Bool) : List PlannedItem :=
  (firstBy (fun a b => a.id ≤ b.id) job.maxBatchSize <|
    db.items.filter fun item => db.pending job item && !locked item).filterMap fun item =>
      (lookup Envelope.id item.envelopeId db.envelopes).map (plannedItem item)

/-- The item and its envelope, as `rotateOne` reads them again under a lock. -/
def freshItem (db : Tables) (job : RotationJob) (id : Nat) : Option (Item × PlannedItem) := do
  let item ← db.items.find? fun i =>
    i.id == id && (i.rotationJobId == job.id && i.state == .planned)
  let e ← lookup Envelope.id item.envelopeId db.envelopes
  some (item, plannedItem item e)

/-! ### Rotation of one item -/

def skipItem (db : Tables) (id : Nat) : Tables :=
  { db with
    items := updateWhere (fun i => i.id == id && i.state == .planned)
      (fun i => { i with state := .skipped, errorCode := some "PII_ROTATION_SOURCE_CHANGED" })
      db.items }

def sourceRegistry (db : Tables) (job : RotationJob) : Option Registry := do
  let row ← lookup Registry.id job.sourceEncryptionKeyRegistryId db.registries
  if row.tenantId = job.tenantId ∧ [.active, .retiring, .compromised].contains row.status then
    some row
  else none

def sourceBlindAttributes (db : Tables) (job : RotationJob) (item : PlannedItem) :
    List BlindAttribute :=
  match job.sourceBlindIndexKeyRegistryId with
  | none => []
  | some keyId =>
    ((db.blindIndexes.filter fun b => b.tenantId == item.subject.tenantId &&
      b.subjectKind == item.subject.subjectKind && b.subjectId == item.subject.subjectId &&
      b.keyRegistryId == keyId).map (·.attributeName)).eraseDups

/-- The source key is a version of the target's Transit key. -/
def sameReference (source : KeyCustody) (target : TransitRegistry) : Bool :=
  match source with
  | .vaultTransit reference _ => reference == target.externalKeyRef
  | .legacyLocalAes => false

section Crypto

variable {Payload : Type} (format : PayloadFormat Payload) (material : KeyMaterial)
  (client : CryptoClient)

def decryptForRotation (job : RotationJob) (source : Registry) (item : PlannedItem) :
    Option Payload :=
  match source.custody, item.sealing with
  | .legacyLocalAes, .legacyLocalAes nonce =>
    if job.mode = .legacyCutover then
      decryptLegacyPiiEnvelope format client item.subject item.keyVersion item.ciphertext nonce
    else none
  | .legacyLocalAes, .vaultTransit _ => none
  | .vaultTransit _ _, .legacyLocalAes _ => none
  | .vaultTransit reference providerKeyVersion, .vaultTransit _ =>
    if providerKeyVersion = 0 then none
    else do
      let aad ← piiAad item.subject
      decryptPiiEnvelope format material client source.keyVersion reference aad item.ciphertext
        item.keyVersion

/-- The new ciphertext with the version of the key, and the payload where it had
to be decrypted. -/
def reseal (job : RotationJob) (source : Registry) (target : TransitRegistry)
    (attributes : List BlindAttribute) (fresh : PlannedItem) :
    Option (String × Nat × Option Payload) := do
  let mustDecrypt := job.mode != .transitRewrap || !attributes.isEmpty ||
    !sameReference source.custody target
  let aad ← piiAad fresh.subject
  if !mustDecrypt && source.custody.provider == .vaultTransit &&
      fresh.sealing.provider == .vaultTransit then
    let (rewrapped, version) ← client.rewrap target.externalKeyRef.keyName aad fresh.ciphertext
    some (rewrapped, version, none)
  else
    let payload ← decryptForRotation format material client job source fresh
    let encrypted ← encryptPiiEnvelope format material client target aad payload
    some (encrypted.ciphertext, encrypted.providerKeyVersion, some payload)

/-- One turn of the loop over the attributes. -/
def indexAttribute (target : TransitRegistry) (fresh : PlannedItem) (payload : Payload)
    (db : Tables) (name : BlindAttribute) : Option Tables :=
  match (itemValue format payload name).bind normalize with
  | none => some db
  | some value => do
    let index ← piiBlindIndex material client target fresh.subject.tenantId name value
    db.writeBlindIndex
      { tenantId := fresh.subject.tenantId, subjectKind := fresh.subject.subjectKind
        subjectId := fresh.subject.subjectId, attributeName := name
        keyRegistryId := target.id, index }

def rotateBlindIndexes (db : Tables) (job : RotationJob) (source : Registry)
    (attributes : List BlindAttribute) (fresh : PlannedItem) (payload : Option Payload) :
    Option Tables :=
  match job.targetBlindIndexKeyRegistryId with
  | none => some db
  | some targetId => do
    let payload ← payload.or (decryptForRotation format material client job source fresh)
    let target ← tenantRegistryById db.blindRegistries job.tenantId targetId [.active]
    attributes.foldlM (indexAttribute format material client target fresh payload) db

/-- `rotateOne` from its locked read to the commit. -/
def rotateFresh (db : Tables) (now newId : Nat) (job : RotationJob) (fresh : PlannedItem) :
    Option Tables := do
  let source ← db.sourceRegistry job
  let target ← tenantRegistryById db.registries job.tenantId job.targetEncryptionKeyRegistryId
    [.active]
  let attributes := db.sourceBlindAttributes job fresh
  let (ciphertext, providerKeyVersion, payload) ←
    reseal format material client job source target attributes fresh
  let indexed ← db.rotateBlindIndexes format material client job source attributes fresh payload
  let sealed ← (indexed.retireEnvelope now fresh.envelopeId).writeEnvelope
    { id := newId, subject := fresh.subject, ciphertext
      sealing := .vaultTransit providerKeyVersion
      keyRegistryId := target.id, keyVersion := target.keyVersion, retiredAt := none }
  let done := { sealed with
    items := updateWhere (fun i => i.id == fresh.id)
      (fun i => { i with state := .rotated, errorCode := none }) sealed.items }
  some (done.countJob job.id fun row => { row with
    processedCount := row.processedCount + 1, rotatedCount := row.rotatedCount + 1 })

end Crypto

end Tables

end Bis.Rotation
