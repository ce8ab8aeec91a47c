import Bis.Archive.Ownership

/-!
What a committed batch stands for: its rows, and no others, are marked cold, and its object
and manifest are in the bucket. The worker's place in its cycle says what is in the bucket
already; recovery gives no batch back that has an object.

Only the warm archival disturbs this. Its last statement marks rows by identifier, and may
find one that has become cold since it was selected.
-/

namespace Bis.Archive

open Bis.Relation Bis.Transition List

structure Archived (s : System) : Prop where
  cold : ∀ tx ∈ s.db.transactions, tx.archivedTier = some .cold ↔
    ∃! b, b ∈ s.db.batches ∧ b.status = .committed ∧ tx.coldArchiveBatchId = some b.id ∧
      ⟨b.id, tx.id⟩ ∈ s.db.items
  rows : ∀ b ∈ s.db.batches, b.status = .committed →
    (s.db.items.countP fun item => item.batchId == b.id) = b.rowCount ∧
      ∀ item ∈ s.db.items, item.batchId = b.id →
        ∃ tx ∈ s.db.transactions, tx.id = item.transactionId ∧ tx.archivedTier = some .cold
  stored : ∀ b ∈ s.db.batches, b.status = .committed →
    s.hasObject b.id = true ∧ s.hasManifest b.id = true
  stays : ∀ b, (∃ c ∈ s.commits, c.batch = b) ↔ s.db.batchIn b [.committed] = true
  released : ∀ b ∈ s.released, s.hasObject b = false

/-- The step marks a cold row warm. -/
def System.relabels (s : System) : Label → Bool
  | .markWarm run true =>
    match s.warmRuns[run]? with
    | some ids => s.db.transactions.any fun tx =>
      (ids.take warmChunk).contains tx.id && tx.archivedTier == some .cold
    | none => false
  | _ => false

def ColdExact (db : Database) : Prop :=
  ∀ tx ∈ db.transactions, tx.archivedTier = some .cold ↔
    ∃ b, tx.coldArchiveBatchId = some b ∧ db.batchIn b [.committed] = true

/-- The batch that the worker has is this one in the table. -/
def System.knows (s : System) (batch : ArchiveBatch) : Prop :=
  ∀ b ∈ s.db.batches, b.id = batch.id → b.rowCount = batch.rowCount

/-- What the worker may rely on. -/
def System.isTied (s : System) : Worker → Prop
  | .idle | .failing _ => True
  | .recovering batches => ∀ b ∈ batches, b.status = .planned → s.hasObject b.id = false
  | .planned batch => s.knows batch
  | .uploading batch | .written batch _ =>
    s.knows batch ∧ s.db.batchIn batch.id [.uploading] = true
  | .uploaded batch _ =>
    s.knows batch ∧ s.db.batchIn batch.id [.uploading] = true ∧ s.hasObject batch.id = true
  | .manifested batch _ =>
    s.knows batch ∧ s.hasObject batch.id = true ∧ s.hasManifest batch.id = true

/-- The batches and the bucket. -/
structure Bucket (s : System) : Prop where
  known : ∀ object ∈ s.objects, object.batch < s.db.nextBatch
  fresh : ∀ b ∈ s.db.batches, b.status = .planned → s.hasObject b.id = false
  released : ∀ b ∈ s.released, s.db.batchIn b [.failed] = true ∧ s.hasObject b = false
  stored : ∀ b ∈ s.db.batches, b.status = .committed →
    s.hasObject b.id = true ∧ s.hasManifest b.id = true
  commits : ∀ b, (∃ c ∈ s.commits, c.batch = b) ↔ s.db.batchIn b [.committed] = true

structure Tied (s : System) : Prop where
  consistent : Consistent s.db
  bucket : Bucket s
  worker : s.isTied s.worker

variable {config : Config} {s t : System} {a : Label} {db : Database}

/-! ### Statuses -/

/-- A batch that is not the one of an update keeps its statuses; this one has the new one. -/
theorem batchIn_status {batch : Nat} {f : Batch → Batch} {status : BatchStatus}
    (hid : ∀ b, (f b).id = b.id) (hstatus : ∀ b, (f b).status = status) (other : Nat)
    (allowed : List BatchStatus) :
    Database.batchIn { db with batches := db.updateBatch batch f } other allowed = true ↔
      (other = batch ∧ status ∈ allowed ∧ ∃ b ∈ db.batches, b.id = batch) ∨
        (other ≠ batch ∧ db.batchIn other allowed = true) := by
  rw [batchIn_iff, batchIn_iff]
  constructor
  · rintro ⟨b, hb, hbid, hin⟩
    rcases mem_updateWhere.mp hb with ⟨old, hold, hsel, rfl⟩ | ⟨hold, hnot⟩
    · have hsel := beq_iff_eq.mp hsel
      exact .inl ⟨hbid.symm.trans ((hid old).trans hsel), hstatus old ▸ hin, old, hold, hsel⟩
    · exact .inr ⟨fun heq => hnot (beq_iff_eq.mpr (hbid.trans heq)), b, hold, hbid, hin⟩
  · rintro (⟨rfl, hin, b, hb, hbid⟩ | ⟨hne, b, hb, hbid, hin⟩)
    · refine ⟨f b, mem_updateWhere.mpr (.inl ⟨b, hb, beq_iff_eq.mpr hbid, rfl⟩), ?_, ?_⟩
      · exact (hid b).trans hbid
      · exact (hstatus b).symm ▸ hin
    · refine ⟨b, mem_updateWhere_of_not hb ?_, hbid, hin⟩
      exact fun heq => hne (hbid.symm.trans (beq_iff_eq.mp heq))

/-- One batch has one status. -/
theorem Consistent.batchIn_disjoint (h : Consistent db) {batch : Nat}
    {allowed other : List BatchStatus} (hin : db.batchIn batch allowed = true)
    (hdisjoint : ∀ status ∈ allowed, status ∉ other) : db.batchIn batch other = false := by
  apply Bool.eq_false_iff.mpr
  intro hother
  obtain ⟨b, hb, hid, hstatus⟩ := batchIn_iff.mp hin
  exact hdisjoint _ hstatus (h.status_of_batchIn hother hb hid)

theorem batchIn_append (b : Batch) (other : Nat) (allowed : List BatchStatus) :
    Database.batchIn { db with batches := db.batches ++ [b] } other allowed = true ↔
      db.batchIn other allowed = true ∨ (b.id = other ∧ b.status ∈ allowed) := by
  rw [batchIn_iff, batchIn_iff]
  constructor
  · rintro ⟨c, hc, hid, hstatus⟩
    rcases mem_concat.mp hc with hold | rfl
    · exact .inl ⟨c, hold, hid, hstatus⟩
    · exact .inr ⟨hid, hstatus⟩
  · rintro (⟨c, hc, hid, hstatus⟩ | ⟨hid, hstatus⟩)
    · exact ⟨c, mem_append_left _ hc, hid, hstatus⟩
    · exact ⟨b, mem_concat_self, hid, hstatus⟩

/-! ### The bucket -/

variable {batch b : Nat} {after : Database} {records : List TransactionArchiveV1}
  {outcome : Outcome}

theorem hasObject_iff : s.hasObject batch = true ↔ ∃ object ∈ s.objects, object.batch = batch := by
  simp [System.hasObject, any_eq_true]

theorem Bucket.no_next (h : Bucket s) : s.hasObject s.db.nextBatch = false := by
  apply Bool.eq_false_iff.mpr
  intro hin
  obtain ⟨object, hobject, heq⟩ := hasObject_iff.mp hin
  exact absurd (h.known object hobject) (heq ▸ Nat.lt_irrefl _)

/-- The writers of transactions are not concerned with batches, and the worker not by them. -/
theorem Bucket.same (h : Bucket s) (hbatches : t.db.batches = s.db.batches)
    (hnext : t.db.nextBatch = s.db.nextBatch) (hobjects : t.objects = s.objects)
    (hmanifests : t.manifests = s.manifests) (hreleased : t.released = s.released)
    (hcommits : t.commits = s.commits) : Bucket t := by
  have hin (b : Nat) (allowed : List BatchStatus) :
      t.db.batchIn b allowed = s.db.batchIn b allowed := by
    unfold Database.batchIn
    rw [hbatches]
  have hobject (b : Nat) : t.hasObject b = s.hasObject b := by
    unfold System.hasObject
    rw [hobjects]
  have hmanifest (b : Nat) : t.hasManifest b = s.hasManifest b := by
    unfold System.hasManifest
    rw [hmanifests]
  refine ⟨?_, ?_, ?_, ?_, ?_⟩
  · rw [hobjects, hnext]
    exact h.known
  · intro b hb hplanned
    rw [hobject]
    exact h.fresh b (hbatches ▸ hb) hplanned
  · intro b hb
    rw [hin, hobject]
    exact h.released b (hreleased ▸ hb)
  · intro b hb hcommitted
    rw [hobject, hmanifest]
    exact h.stored b (hbatches ▸ hb) hcommitted
  · intro b
    rw [hcommits, hin]
    exact h.commits b

/-- A batch that is not committed gets a status that is neither the first nor the last. -/
theorem Bucket.status (h : Bucket s) {f : Batch → Batch} {status : BatchStatus}
    (hid : ∀ b, (f b).id = b.id) (hstatus : ∀ b, (f b).status = status)
    (hnew : status ≠ .planned ∧ status ≠ .committed)
    (hold : s.db.batchIn batch [.committed] = false)
    (hfailed : batch ∈ s.released → status = .failed) (transactions : List Transaction)
    (worker : Worker) :
    Bucket { s with
      db := { s.db with transactions, batches := s.db.updateBatch batch f }, worker } := by
  have hmem {b : Batch} (hb : b ∈ s.db.updateBatch batch f)
      (hother : b.status ≠ status) : b ∈ s.db.batches := by
    rcases mem_updateWhere.mp hb with ⟨old, _, _, rfl⟩ | ⟨hb, _⟩
    · exact absurd (hstatus old) hother
    · exact hb
  have hin := @batchIn_status s.db batch f status hid hstatus
  refine ⟨h.known, ?_, ?_, ?_, ?_⟩
  · intro b hb hplanned
    exact h.fresh b (hmem hb (hplanned ▸ hnew.1.symm)) hplanned
  · intro b hb
    obtain ⟨hwas, hobject⟩ := h.released b hb
    refine ⟨(hin b [.failed]).mpr ?_, hobject⟩
    by_cases hbatch : b = batch
    · obtain ⟨old, hmemOld, holdId, _⟩ := batchIn_iff.mp hwas
      refine .inl ⟨hbatch, ?_, old, hmemOld, holdId.trans hbatch⟩
      exact mem_singleton.mpr (hfailed (hbatch ▸ hb))
    · exact .inr ⟨hbatch, hwas⟩
  · intro b hb hcommitted
    exact h.stored b (hmem hb (hcommitted ▸ hnew.2.symm)) hcommitted
  · intro b
    refine (h.commits b).trans (Iff.trans ?_ (hin b [.committed]).symm)
    constructor
    · intro hwas
      refine .inr ⟨?_, hwas⟩
      rintro rfl
      rw [hold] at hwas
      cases hwas
    · rintro (⟨_, hcommitted, _⟩ | ⟨_, hwas⟩)
      · exact absurd (mem_singleton.mp hcommitted) hnew.2
      · exact hwas

variable {chosen : List Transaction}

theorem Bucket.planBatch (h : Bucket s) (hplan : s.db.planBatch chosen = some after)
    (worker : Worker) : Bucket { s with db := after, worker } := by
  obtain ⟨_, _, rfl⟩ := planBatch_eq_some hplan
  have hin := @batchIn_append s.db ⟨s.db.nextBatch, .planned, chosen.length, none⟩
  have hold {b : Batch} (hb : b ∈ s.db.batches ++ [⟨s.db.nextBatch, .planned, chosen.length, none⟩])
      (hne : b.status ≠ .planned) : b ∈ s.db.batches := by
    rcases mem_concat.mp hb with hb | hnew
    · exact hb
    · rw [hnew] at hne
      exact absurd rfl hne
  refine ⟨?_, ?_, ?_, ?_, ?_⟩
  · exact fun object hobject => Nat.lt_succ_of_lt (h.known object hobject)
  · intro b hb hplanned
    rcases mem_concat.mp hb with hb | hnew
    · exact h.fresh b hb hplanned
    · rw [hnew]
      exact h.no_next
  · intro b hb
    obtain ⟨hwas, hobject⟩ := h.released b hb
    exact ⟨(hin b [.failed]).mpr (.inl hwas), hobject⟩
  · exact fun b hb hcommitted => h.stored b (hold hb fun hp => by rw [hp] at hcommitted; cases hcommitted) hcommitted
  · intro b
    refine (h.commits b).trans (Iff.trans ?_ (hin b [.committed]).symm)
    constructor
    · exact .inl
    · rintro (hwas | ⟨_, hcommitted⟩)
      · exact hwas
      · cases mem_singleton.mp hcommitted

/-- A batch is given back that has no object. -/
theorem Bucket.releaseUnuploadedBatch (h : Bucket s) (hconsistent : Consistent s.db)
    (hrelease : s.db.releaseUnuploadedBatch batch = some after)
    (hobject : s.hasObject batch = false) (worker : Worker) :
    Bucket { s with db := after, worker, released := s.released ++ [batch] } := by
  obtain ⟨hin, rfl⟩ := releaseUnuploadedBatch_eq_some hrelease
  have hstatus : Bucket { s with
      db := { s.db.setStatus batch .failed with
        transactions := updateWhere (Database.isMarkedBy batch)
          (fun tx => { tx with coldArchiveBatchId := none }) s.db.transactions }
      worker } := by
    apply h.status
    · exact fun _ => rfl
    · exact fun _ => rfl
    · exact ⟨by decide, by decide⟩
    · exact hconsistent.batchIn_disjoint hin (by decide)
    · exact fun _ => rfl
  refine ⟨hstatus.known, hstatus.fresh, ?_, hstatus.stored, hstatus.commits⟩
  intro b hb
  rcases mem_concat.mp hb with hb | rfl
  · exact hstatus.released b hb
  · refine ⟨?_, hobject⟩
    obtain ⟨c, hc, hid, _⟩ := batchIn_iff.mp hin
    apply (@batchIn_status s.db b (fun b => { b with status := .failed }) .failed
      (fun _ => rfl) (fun _ => rfl) _ _).mpr
    exact .inl ⟨rfl, mem_cons_self, c, hc, hid⟩

/-- The batch is committed with its object and its manifest. -/
theorem Bucket.commitVerified (h : Bucket s) {rowCount : Nat}
    (hcommit : s.db.commitVerified batch rowCount = some after) (hobject : s.hasObject batch = true)
    (hmanifest : s.hasManifest batch = true) (rows : List Transaction) (worker : Worker) :
    Bucket { s with db := after, worker, commits := s.commits ++ [⟨batch, rows⟩] } := by
  obtain ⟨huploading, _, rfl⟩ := commitVerified_eq_some hcommit
  have hin := @batchIn_status s.db batch (fun b => { b with status := .committed }) .committed
    (fun _ => rfl) (fun _ => rfl)
  have hthere : ∃ b ∈ s.db.batches, b.id = batch := by
    obtain ⟨b, hb, hid, _⟩ := batchIn_iff.mp huploading
    exact ⟨b, hb, hid⟩
  refine ⟨h.known, ?_, ?_, ?_, ?_⟩
  · intro b hb hplanned
    rcases mem_updateWhere.mp hb with ⟨old, _, _, rfl⟩ | ⟨hb, _⟩
    · cases hplanned
    · exact h.fresh b hb hplanned
  · intro b hb
    obtain ⟨hwas, hnone⟩ := h.released b hb
    refine ⟨(hin b [.failed]).mpr (.inr ⟨?_, hwas⟩), hnone⟩
    rintro rfl
    rw [hobject] at hnone
    cases hnone
  · intro b hb hcommitted
    rcases mem_updateWhere.mp hb with ⟨old, _, hsel, rfl⟩ | ⟨hb, _⟩
    · obtain rfl := beq_iff_eq.mp hsel
      exact ⟨hobject, hmanifest⟩
    · exact h.stored b hb hcommitted
  · intro b
    refine Iff.trans ?_ (hin b [.committed]).symm
    constructor
    · rintro ⟨c, hc, rfl⟩
      by_cases hbatch : c.batch = batch
      · exact .inl ⟨hbatch, mem_cons_self, hthere⟩
      · rcases mem_concat.mp hc with hc | rfl
        · exact .inr ⟨hbatch, (h.commits c.batch).mp ⟨c, hc, rfl⟩⟩
        · exact absurd rfl hbatch
    · rintro (⟨rfl, _⟩ | ⟨_, hwas⟩)
      · exact ⟨_, mem_concat_self, rfl⟩
      · obtain ⟨c, hc, hcb⟩ := (h.commits b).mpr hwas
        exact ⟨c, mem_append_left _ hc, hcb⟩

theorem put_cases (outcome : Outcome) (batch : Nat) (records : List TransactionArchiveV1) :
    s.put outcome batch records = s.objects ∨
      s.put outcome batch records = s.objects ++ [⟨batch, records⟩] := by
  unfold System.put
  split
  · exact .inr rfl
  · exact .inl rfl

/-- Only the batch can get an object. -/
theorem hasObject_uploadFile {batch : ArchiveBatch} (hne : b ≠ batch.id) :
    (s.uploadFile batch records outcome).hasObject b = s.hasObject b := by
  unfold System.uploadFile System.hasObject
  dsimp only
  rcases put_cases outcome batch.id records with hput | hput
  · rw [hput]
  · have hnot : (batch.id == b) = false := by simpa using hne.symm
    rw [hput, any_append, any_cons, any_nil, hnot, Bool.or_false, Bool.or_false]

theorem hasObject_uploadFile_of {batch : ArchiveBatch} (hobject : s.hasObject b = true) :
    (s.uploadFile batch records outcome).hasObject b = true := by
  obtain ⟨object, hmem, hb⟩ := hasObject_iff.mp hobject
  apply hasObject_iff.mpr
  refine ⟨object, ?_, hb⟩
  change object ∈ s.put outcome batch.id records
  rcases put_cases outcome batch.id records with hput | hput
  · rw [hput]
    exact hmem
  · rw [hput]
    exact mem_append_left _ hmem

theorem Bucket.uploadFile (h : Bucket s) (hconsistent : Consistent s.db) {batch : ArchiveBatch}
    (hin : s.db.batchIn batch.id [.uploading] = true) (records : List TransactionArchiveV1)
    (outcome : Outcome) : Bucket (s.uploadFile batch records outcome) := by
  obtain ⟨c, hc, hcid, hstatus⟩ := batchIn_iff.mp hin
  have hstatus := mem_singleton.mp hstatus
  refine ⟨?_, ?_, ?_, ?_, h.commits⟩
  · intro object hobject
    change object ∈ s.put outcome batch.id records at hobject
    rcases put_cases outcome batch.id records with hput | hput
    · exact h.known object (hput ▸ hobject)
    · rw [hput] at hobject
      rcases mem_concat.mp hobject with hobject | hnew
      · exact h.known object hobject
      · rw [hnew]
        exact hcid ▸ hconsistent.batchNew c hc
  · intro b hb hplanned
    rw [hasObject_uploadFile]
    · exact h.fresh b hb hplanned
    · intro heq
      rw [hconsistent.batch_eq hb hc (heq.trans hcid.symm), hstatus] at hplanned
      cases hplanned
  · intro b hb
    obtain ⟨hfailed, hobject⟩ := h.released b hb
    refine ⟨hfailed, ?_⟩
    rw [hasObject_uploadFile]
    · exact hobject
    · rintro rfl
      have hnot := hconsistent.status_of_batchIn hfailed hc hcid
      rw [hstatus] at hnot
      exact absurd (mem_singleton.mp hnot) (by decide)
  · intro b hb hcommitted
    obtain ⟨hobject, hmanifest⟩ := h.stored b hb hcommitted
    exact ⟨hasObject_uploadFile_of hobject, hmanifest⟩

theorem hasManifest_uploadManifest {batch : ArchiveBatch} (hmanifest : s.hasManifest b = true) :
    (s.uploadManifest batch records outcome).hasManifest b = true := by
  have hmem := contains_iff_mem.mp hmanifest
  apply contains_iff_mem.mpr
  unfold System.uploadManifest
  dsimp only
  split
  · exact mem_append_left _ hmem
  · exact hmem

theorem Bucket.uploadManifest (h : Bucket s) (batch : ArchiveBatch)
    (records : List TransactionArchiveV1) (outcome : Outcome) :
    Bucket (s.uploadManifest batch records outcome) := by
  refine ⟨h.known, h.fresh, h.released, ?_, h.commits⟩
  intro b hb hcommitted
  obtain ⟨hobject, hmanifest⟩ := h.stored b hb hcommitted
  exact ⟨hobject, hasManifest_uploadManifest hmanifest⟩

/-! ### The place of the worker -/

theorem isTied_congr (hbatches : t.db.batches = s.db.batches) (hobjects : t.objects = s.objects)
    (hmanifests : t.manifests = s.manifests) (worker : Worker) :
    t.isTied worker ↔ s.isTied worker := by
  cases worker <;>
    simp only [System.isTied, System.knows, System.hasObject, System.hasManifest,
      Database.batchIn, hbatches, hobjects, hmanifests]

/-- Nothing that the worker relies on has changed. -/
theorem Tied.same (h : Tied s) (hconsistent : Consistent t.db)
    (hbatches : t.db.batches = s.db.batches) (hnext : t.db.nextBatch = s.db.nextBatch)
    (hobjects : t.objects = s.objects) (hmanifests : t.manifests = s.manifests)
    (hworker : t.worker = s.worker) (hreleased : t.released = s.released)
    (hcommits : t.commits = s.commits) : Tied t := by
  refine ⟨hconsistent, ?_, ?_⟩
  · exact h.bucket.same hbatches hnext hobjects hmanifests hreleased hcommits
  · rw [hworker]
    exact (isTied_congr hbatches hobjects hmanifests s.worker).mpr h.worker

theorem Tied.move (h : Tied s) {worker : Worker} (hmove : Move config s a worker) :
    s.isTied worker := by
  have hworker := h.worker
  cases hmove with
  | stop => trivial
  | fail => trivial
  | start =>
    intro b hb hplanned
    exact h.bucket.fresh b (mem_filter.mp hb).1 hplanned
  | next batch rest hrecovering =>
    rw [hrecovering] at hworker
    exact fun b hb => hworker b (mem_cons_of_mem _ hb)
  | write batch _ huploading =>
    rw [huploading] at hworker
    exact hworker

theorem isReleased_cases {batch : Batch} {stat : Stat} {expired : Bool}
    (h : batch.isReleased stat expired = true) : batch.status = .planned ∨ stat = .missing := by
  rcases Bool.or_eq_true_iff.mp (Bool.and_eq_true_iff.mp h).2 with hplanned | huploading
  · exact .inl (beq_iff_eq.mp hplanned)
  · exact .inr (beq_iff_eq.mp (Bool.and_eq_true_iff.mp huploading).2)

/-- Recovery goes on after a batch. -/
theorem Tied.rest (h : Tied s) {batch : Batch} {rest : List Batch}
    (hrecovering : s.worker = .recovering (batch :: rest)) {worker : Worker}
    (hnext : worker = .idle ∨ worker = .recovering rest) (hobjects : t.objects = s.objects) :
    t.isTied worker := by
  rcases hnext with rfl | rfl
  · exact True.intro
  · intro b hb hplanned
    have hworker := h.worker
    rw [hrecovering] at hworker
    unfold System.hasObject
    rw [hobjects]
    exact hworker b (mem_cons_of_mem _ hb) hplanned

theorem Tied.step (h : Tied s) (ht : System.step config s a = some t) : Tied t := by
  have hconsistent := h.consistent.step ht
  have htied := h.worker
  cases step_effect ht with
  | moved worker hmove ht =>
    subst ht
    refine ⟨hconsistent, h.bucket.same rfl rfl rfl rfl rfl rfl, ?_⟩
    exact (isTied_congr rfl rfl rfl worker).mpr (h.move hmove)
  | stored batch records outcome hworker ht =>
    subst ht
    rw [hworker] at htied
    refine ⟨hconsistent, h.bucket.uploadFile h.consistent htied.2 records outcome, ?_⟩
    change System.isTied _ (if _ then _ else _)
    split
    next hcond =>
      refine ⟨htied.1, htied.2, ?_⟩
      obtain ⟨hok, hfree⟩ := Bool.and_eq_true_iff.mp hcond
      have hok := of_decide_eq_true hok
      have hput : s.put outcome batch.id records = s.objects ++ [⟨batch.id, records⟩] := by
        unfold System.put
        rw [hok, hfree]
        rfl
      apply hasObject_iff.mpr
      refine ⟨⟨batch.id, records⟩, ?_, rfl⟩
      change _ ∈ s.put outcome batch.id records
      rw [hput]
      exact mem_concat_self
    next => exact True.intro
  | manifested batch records outcome hworker ht =>
    subst ht
    rw [hworker] at htied
    refine ⟨hconsistent, h.bucket.uploadManifest batch records outcome, ?_⟩
    change System.isTied _ (if _ then _ else _)
    split
    next hcond =>
      refine ⟨htied.1, htied.2.2, ?_⟩
      obtain ⟨hok, hfree⟩ := Bool.and_eq_true_iff.mp hcond
      have hok := of_decide_eq_true hok
      apply contains_iff_mem.mpr
      unfold System.uploadManifest
      dsimp only
      rw [hok, hfree]
      exact mem_concat_self
    next => exact True.intro
  | noted warmRuns reversals ht | values p f _ ht
  | inserted tenantId txRef type values createdAt ht
  | reversed p f _ tenantId txRef type values createdAt reversals ht | warmed run ids _ _ _ ht =>
    subst ht
    exact h.same hconsistent rfl rfl rfl rfl rfl rfl rfl
  | planned now skipped worker db hworker hplan hnext ht =>
    subst ht
    refine ⟨hconsistent, h.bucket.planBatch hplan worker, ?_⟩
    obtain ⟨_, _, rfl⟩ := planBatch_eq_some hplan
    rcases hnext with rfl | rfl
    · exact True.intro
    · intro b hb hid
      rcases mem_concat.mp hb with hb | hnew
      · exact absurd hid (Nat.ne_of_lt (h.consistent.batchNew b hb))
      · rw [hnew]
  | uploading batch key worker db hworker hmark hnext ht =>
    subst ht
    rw [hworker] at htied
    obtain ⟨hplanned, rfl⟩ := markUploading_eq_some hmark
    refine ⟨hconsistent, ?_, ?_⟩
    · apply h.bucket.status
      · exact fun _ => rfl
      · exact fun _ => rfl
      · exact ⟨by decide, by decide⟩
      · exact h.consistent.batchIn_disjoint hplanned (by decide)
      · intro hreleased
        have hfailed := (h.bucket.released _ hreleased).1
        rw [h.consistent.batchIn_disjoint hplanned (by decide)] at hfailed
        cases hfailed
    · rcases hnext with rfl | rfl
      · exact True.intro
      · constructor
        · intro b hb hid
          rcases mem_updateWhere.mp hb with ⟨old, hold, _, rfl⟩ | ⟨hb, _⟩
          · exact htied old hold hid
          · exact htied b hb hid
        · obtain ⟨b, hb, hid, _⟩ := batchIn_iff.mp hplanned
          apply (@batchIn_status s.db batch.id
            (fun b => { b with status := .uploading, encryptionKeyId := some key }) .uploading
            (fun _ => rfl) (fun _ => rfl) _ _).mpr
          exact .inl ⟨rfl, mem_cons_self, b, hb, hid⟩
  | quarantined batch rest worker db hworker hquarantine hnext ht =>
    subst ht
    obtain ⟨hin, rfl⟩ := quarantineBatch_eq_some hquarantine
    refine ⟨hconsistent, ?_, h.rest hworker hnext rfl⟩
    apply h.bucket.status
    · exact fun _ => rfl
    · exact fun _ => rfl
    · exact ⟨by decide, by decide⟩
    · exact h.consistent.batchIn_disjoint hin (by decide)
    · intro hreleased
      have hfailed := (h.bucket.released _ hreleased).1
      rw [h.consistent.batchIn_disjoint hin (by decide)] at hfailed
      cases hfailed
  | released batch rest worker db stat expired outcome hlabel hstat hreleases _ hworker hrelease
      hnext ht =>
      subst ht
      have hobject : s.hasObject batch.id = false := by
        rw [hworker] at htied
        rcases isReleased_cases hreleases with hplanned | hmissing
        · exact htied batch mem_cons_self hplanned
        · exact hstat hmissing
      refine ⟨hconsistent, ?_, h.rest hworker hnext rfl⟩
      exact h.bucket.releaseUnuploadedBatch h.consistent hrelease hobject worker
  | committed batch records worker db hworker hcommit hnext ht =>
    subst ht
    rw [hworker] at htied
    refine ⟨hconsistent, ?_, ?_⟩
    · exact h.bucket.commitVerified hcommit htied.2.1 htied.2.2 _ worker
    · rcases hnext with rfl | rfl
      · exact True.intro
      · exact True.intro
  | failed batch _ _ ht =>
    subst ht
    refine ⟨hconsistent, ?_, trivial⟩
    unfold Database.markFailed
    split
    next => exact h.bucket.same rfl rfl rfl rfl rfl rfl
    next hin =>
      apply h.bucket.status
      · exact fun _ => rfl
      · exact fun _ => rfl
      · exact ⟨by decide, by decide⟩
      · exact Bool.eq_false_iff.mpr hin
      · exact fun _ => rfl

/-! ### The marks -/

theorem Consistent.owner_iff (h : Consistent db) {tx : Transaction} (htx : tx ∈ db.transactions) :
    (∃ b, tx.coldArchiveBatchId = some b ∧ db.batchIn b [.committed] = true) ↔
      ∃! b, b ∈ db.batches ∧ b.status = .committed ∧ tx.coldArchiveBatchId = some b.id ∧
        ⟨b.id, tx.id⟩ ∈ db.items := by
  constructor
  · rintro ⟨_, howner, hin⟩
    obtain ⟨b, hb, rfl, hstatus⟩ := batchIn_iff.mp hin
    refine ⟨b, ⟨hb, mem_singleton.mp hstatus, howner, h.owned tx htx b.id howner⟩, ?_⟩
    rintro c ⟨hc, _, hownerC, _⟩
    exact h.batch_eq hc hb (Option.some.inj (hownerC.symm.trans howner))
  · rintro ⟨b, ⟨hb, hstatus, howner, _⟩, _⟩
    exact ⟨b.id, howner, batchIn_iff.mpr ⟨b, hb, rfl, mem_singleton.mpr hstatus⟩⟩

theorem Tied.archived_iff (h : Tied s) : Archived s ↔ ColdExact s.db := by
  constructor
  · intro harchived tx htx
    exact (harchived.cold tx htx).trans (h.consistent.owner_iff htx).symm
  · intro hexact
    refine ⟨?_, ?_, h.bucket.stored, h.bucket.commits, fun b hb => (h.bucket.released b hb).2⟩
    · intro tx htx
      exact (hexact tx htx).trans (h.consistent.owner_iff htx)
    · intro b hb hcommitted
      refine ⟨h.consistent.itemCount b hb, ?_⟩
      intro item hitem hbatch
      have hkeeps : b.status.keepsRows = true := by rw [hcommitted]; rfl
      obtain ⟨tx, htx, hid, howner⟩ := h.consistent.item_exists hb hkeeps hitem hbatch
      refine ⟨tx, htx, hid, (hexact tx htx).mpr ⟨b.id, howner, ?_⟩⟩
      exact batchIn_iff.mpr ⟨b, hb, rfl, mem_singleton.mpr hcommitted⟩

/-- Marks and owners stay as they are, and so does what is committed. -/
theorem ColdExact.rewrite (h : ColdExact db)
    (htx : ∀ tx ∈ after.transactions, ∃ old ∈ db.transactions, old.archivedTier = tx.archivedTier ∧
      old.coldArchiveBatchId = tx.coldArchiveBatchId)
    (hin : ∀ b, after.batchIn b [.committed] = true ↔ db.batchIn b [.committed] = true) :
    ColdExact after := by
  intro tx hmem
  obtain ⟨old, hold, htier, howner⟩ := htx tx hmem
  rw [← htier, ← howner, h old hold]
  simp only [hin]

theorem ColdExact.updateValues (h : ColdExact db) (p : Transaction → Bool) (f : Values → Values) :
    ColdExact (db.updateValues p f) := by
  apply h.rewrite
  · intro tx htx
    rcases mem_updateWhere.mp htx with ⟨old, hold, _, rfl⟩ | ⟨hold, _⟩
    · exact ⟨old, hold, rfl, rfl⟩
    · exact ⟨tx, hold, rfl, rfl⟩
  · exact fun _ => Iff.rfl

theorem ColdExact.insertTransaction (h : ColdExact db) (tenantId : Option Nat)
    (txRef type : String) (values : Values) (createdAt : Nat) :
    ColdExact (db.insertTransaction tenantId txRef type values createdAt) := by
  intro tx htx
  rcases mem_concat.mp htx with hold | hnew
  · exact h tx hold
  · rw [hnew]
    constructor
    · intro htier
      cases htier
    · rintro ⟨b, howner, _⟩
      cases howner

/-- A batch that is not committed, and is not by this. -/
theorem committed_updateBatch {batch : Nat} {f : Batch → Batch} {status : BatchStatus}
    (hid : ∀ b, (f b).id = b.id) (hstatus : ∀ b, (f b).status = status)
    (hnew : status ≠ .committed) (hold : db.batchIn batch [.committed] = false) (b : Nat) :
    Database.batchIn { db with batches := db.updateBatch batch f } b [.committed] = true ↔
      db.batchIn b [.committed] = true := by
  rw [batchIn_status hid hstatus b [.committed]]
  constructor
  · rintro (⟨_, hcommitted, _⟩ | ⟨_, hin⟩)
    · exact absurd (mem_singleton.mp hcommitted) hnew
    · exact hin
  · intro hin
    refine .inr ⟨?_, hin⟩
    rintro rfl
    rw [hold] at hin
    cases hin

theorem ColdExact.updateBatch (h : ColdExact db) {f : Batch → Batch} {status : BatchStatus}
    (hid : ∀ b, (f b).id = b.id) (hstatus : ∀ b, (f b).status = status) (hnew : status ≠ .committed)
    (hold : db.batchIn batch [.committed] = false) :
    ColdExact { db with batches := db.updateBatch batch f } := by
  apply h.rewrite
  · exact fun tx htx => ⟨tx, htx, rfl, rfl⟩
  · exact committed_updateBatch hid hstatus hnew hold

theorem ColdExact.planBatch (h : ColdExact db) (hconsistent : Consistent db)
    (hchosen : ∀ tx ∈ chosen, tx ∈ db.transactions ∧ tx.archivedTier = none)
    (hplan : db.planBatch chosen = some after) : ColdExact after := by
  obtain ⟨_, _, rfl⟩ := planBatch_eq_some hplan
  have hin (b : Nat) := @batchIn_append db ⟨db.nextBatch, .planned, chosen.length, none⟩ b
    [.committed]
  intro tx htx
  change _ ↔ ∃ owner, _ ∧ Database.batchIn { db with batches := _ } owner _ = true
  simp only [hin]
  rcases mem_updateWhere.mp htx with ⟨old, hmem, hold, rfl⟩ | ⟨hold, _⟩
  · obtain ⟨⟨c, hc, hid⟩, _⟩ := isChosen_iff.mp hold
    obtain rfl := inj_on_of_nodup_map hconsistent.txIds (hchosen c hc).1 hmem hid
    have htier := (hchosen c hc).2
    constructor
    · intro hcold
      rw [htier] at hcold
      cases hcold
    · rintro ⟨b, howner, hin | ⟨_, hcommitted⟩⟩
      · cases howner
        obtain ⟨known, hknown, hid, _⟩ := batchIn_iff.mp hin
        exact absurd hid (Nat.ne_of_lt (hconsistent.batchNew known hknown))
      · cases mem_singleton.mp hcommitted
  · rw [h tx hold]
    constructor
    · rintro ⟨b, howner, hin⟩
      exact ⟨b, howner, .inl hin⟩
    · rintro ⟨b, howner, hin | ⟨_, hcommitted⟩⟩
      · exact ⟨b, howner, hin⟩
      · cases mem_singleton.mp hcommitted

/-- As many rows are marked as the batch owns. -/
theorem Consistent.isMarkedBy_of_owner (h : Consistent db) {batch rowCount : Nat}
    {after : Database} (hknows : ∀ b ∈ db.batches, b.id = batch → b.rowCount = rowCount)
    (hcommit : db.commitVerified batch rowCount = some after) {tx : Transaction}
    (htx : tx ∈ db.transactions) (howner : tx.coldArchiveBatchId = some batch) :
    Database.isMarkedBy batch tx = true := by
  obtain ⟨huploading, hcount, _⟩ := commitVerified_eq_some hcommit
  obtain ⟨b, hb, hbid, hstatus⟩ := batchIn_iff.mp huploading
  have howned := h.ownedCount b hb (by rw [mem_singleton.mp hstatus]; rfl)
  rw [hbid, hknows b hb hbid] at howned
  apply @of_countP_eq _ (Database.isMarkedBy batch) (fun tx => tx.isOwnedBy batch) _ ?_ ?_ _ htx
    (isOwnedBy_iff.mpr howner)
  · exact fun tx hmark => isOwnedBy_iff.mpr (isMarkedBy_iff.mp hmark).1
  · exact hcount.trans howned.symm

theorem ColdExact.commitVerified (h : ColdExact db) (hconsistent : Consistent db) {rowCount : Nat}
    (hknows : ∀ b ∈ db.batches, b.id = batch → b.rowCount = rowCount)
    (hcommit : db.commitVerified batch rowCount = some after) : ColdExact after := by
  have hmarked {tx : Transaction} := @Consistent.isMarkedBy_of_owner db hconsistent batch rowCount
    after hknows hcommit tx
  obtain ⟨huploading, _, rfl⟩ := commitVerified_eq_some hcommit
  obtain ⟨b, hb, hbid, _⟩ := batchIn_iff.mp huploading
  have hin := @batchIn_status db batch (fun b => { b with status := .committed }) .committed
    (fun _ => rfl) (fun _ => rfl)
  intro tx htx
  change _ ↔ ∃ owner, _ ∧ Database.batchIn { db with batches := _ } owner _ = true
  rcases mem_updateWhere.mp htx with ⟨old, _, hold, rfl⟩ | ⟨hold, hnot⟩
  · refine ⟨fun _ => ⟨batch, (isMarkedBy_iff.mp hold).1, ?_⟩, fun _ => rfl⟩
    exact (hin batch [.committed]).mpr (.inl ⟨rfl, mem_cons_self, b, hb, hbid⟩)
  · rw [h tx hold]
    constructor
    · rintro ⟨owner, howner, hcommitted⟩
      refine ⟨owner, howner, (hin owner [.committed]).mpr (.inr ⟨?_, hcommitted⟩)⟩
      rintro rfl
      exact hnot (hmarked hold howner)
    · rintro ⟨owner, howner, hcommitted⟩
      rcases (hin owner [.committed]).mp hcommitted with ⟨rfl, _⟩ | ⟨_, hcommitted⟩
      · exact absurd (hmarked hold howner) hnot
      · exact ⟨owner, howner, hcommitted⟩

theorem ColdExact.releaseUnuploadedBatch (h : ColdExact db) (hconsistent : Consistent db)
    (hrelease : db.releaseUnuploadedBatch batch = some after) : ColdExact after := by
  obtain ⟨hin, rfl⟩ := releaseUnuploadedBatch_eq_some hrelease
  have hnot := @Consistent.batchIn_disjoint db hconsistent batch _ [.committed] hin (by decide)
  have hsame (b : Nat) : (db.setStatus batch .failed).batchIn b [.committed] = true ↔ _ :=
    @committed_updateBatch db batch (fun b => { b with status := .failed }) .failed
      (fun _ => rfl) (fun _ => rfl) (by decide) hnot b
  intro tx htx
  change _ ↔ ∃ owner, _ ∧ (db.setStatus batch .failed).batchIn owner _ = true
  simp only [hsame]
  rcases mem_updateWhere.mp htx with ⟨old, _, hold, rfl⟩ | ⟨hold, _⟩
  · constructor
    · intro hcold
      rw [show old.archivedTier = none from (isMarkedBy_iff.mp hold).2] at hcold
      cases hcold
    · rintro ⟨owner, howner, _⟩
      cases howner
  · exact h tx hold

/-- A mark of rows that are not cold. -/
theorem ColdExact.markWarm (h : ColdExact db) {ids : List Nat}
    (hids : ∀ tx ∈ db.transactions, ids.contains tx.id = true → tx.archivedTier ≠ some .cold) :
    ColdExact (db.markWarm ids) := by
  intro tx htx
  rcases mem_updateWhere.mp htx with ⟨old, hmem, hold, rfl⟩ | ⟨hold, _⟩
  · constructor
    · intro hwarm
      cases hwarm
    · intro hcommitted
      exact absurd ((h old hmem).mpr hcommitted) (hids old hmem hold)
  · exact h tx hold

theorem ColdExact.step (h : ColdExact s.db) (htied : Tied s) (hkeeps : s.relabels a = false)
    (ht : System.step config s a = some t) : ColdExact t.db := by
  have hconsistent := htied.consistent
  cases step_effect ht with
  | moved _ _ ht | stored _ _ _ _ ht | manifested _ _ _ _ ht | noted _ _ ht => exact ht ▸ h
  | values p f _ ht => exact ht ▸ h.updateValues p f
  | inserted tenantId txRef type values createdAt ht =>
    exact ht ▸ h.insertTransaction tenantId txRef type values createdAt
  | reversed p f _ tenantId txRef type values createdAt _ ht =>
    exact ht ▸ (h.updateValues p f).insertTransaction tenantId txRef type values createdAt
  | planned now skipped _ _ _ hplan _ ht =>
    subst ht
    exact h.planBatch hconsistent (candidates_tier s.db config now skipped) hplan
  | uploading batch key _ _ _ hmark _ ht =>
    subst ht
    obtain ⟨hin, rfl⟩ := markUploading_eq_some hmark
    apply h.updateBatch
    · exact fun _ => rfl
    · exact fun _ => rfl
    · decide
    · exact hconsistent.batchIn_disjoint hin (by decide)
  | quarantined batch _ _ _ _ hquarantine _ ht =>
    subst ht
    obtain ⟨hin, rfl⟩ := quarantineBatch_eq_some hquarantine
    apply h.updateBatch
    · exact fun _ => rfl
    · exact fun _ => rfl
    · decide
    · exact hconsistent.batchIn_disjoint hin (by decide)
  | released _ _ _ _ _ _ _ _ _ _ _ _ hrelease _ ht =>
    exact ht ▸ h.releaseUnuploadedBatch hconsistent hrelease
  | committed batch records _ _ hworker hcommit _ ht =>
    subst ht
    have hknows := htied.worker
    rw [hworker] at hknows
    exact h.commitVerified hconsistent hknows.1 hcommit
  | failed batch _ _ ht =>
    subst ht
    change ColdExact (s.db.markFailed batch.id)
    unfold Database.markFailed
    split
    next => exact h
    next hin =>
      apply h.updateBatch
      · exact fun _ => rfl
      · exact fun _ => rfl
      · decide
      · exact Bool.eq_false_iff.mpr hin
  | warmed run ids hlabel hrun _ ht =>
    subst ht hlabel
    apply h.markWarm
    intro tx htx hid hcold
    simp only [System.relabels, hrun, any_eq_false] at hkeeps
    apply hkeeps tx htx
    rw [hid, hcold]
    rfl

theorem tied_empty : Tied System.empty := by
  refine ⟨consistent_empty, ⟨?_, ?_, ?_, ?_, ?_⟩, True.intro⟩
  · intro object hobject
    cases hobject
  · intro b hb
    cases hb
  · intro b hb
    cases hb
  · intro b hb
    cases hb
  · intro b
    constructor
    · rintro ⟨c, hc, _⟩
      cases hc
    · intro hin
      cases hin

/-- Until a batch is given back, it has the rows that it was planned with. -/
theorem always_rows_kept (config : Config) (labels : List Label) :
    Always (System.step config) (fun s => (s.db.items.map Item.transactionId).Nodup ∧
      ∀ b ∈ s.db.batches, b.status.keepsRows = true →
        (s.db.items.countP fun item => item.batchId == b.id) = b.rowCount ∧
        (s.db.transactions.countP fun tx => tx.isOwnedBy b.id) = b.rowCount ∧
        ∀ item ∈ s.db.items, item.batchId = b.id → ∃! tx, tx ∈ s.db.transactions ∧
          tx.id = item.transactionId ∧ tx.coldArchiveBatchId = some b.id) .empty labels := by
  refine (always_of_step labels (fun _ _ _ h ht => Tied.step h ht) tied_empty).mono ?_
  rintro s ⟨h, _, _⟩
  refine ⟨h.itemTx, ?_⟩
  intro b hb hkeeps
  refine ⟨h.itemCount b hb, h.ownedCount b hb hkeeps, ?_⟩
  intro item hitem hbatch
  obtain ⟨tx, htx, hid, howner⟩ := h.item_exists hb hkeeps hitem hbatch
  refine ⟨tx, ⟨htx, hid, howner⟩, ?_⟩
  rintro other ⟨hother, heq, _⟩
  exact inj_on_of_nodup_map h.txIds hother htx (heq.trans hid.symm)

/-- A step keeps the marks exactly when it does not mark a cold row warm. -/
theorem archived_step_iff (htied : Tied s) (harchived : Archived s)
    (ht : System.step config s a = some t) : Archived t ↔ s.relabels a = false := by
  have hexact := htied.archived_iff.mp harchived
  rw [(htied.step ht).archived_iff]
  constructor
  · intro hafter
    apply Bool.eq_false_iff.mpr
    intro hrelabels
    cases a with
    | markWarm run done =>
      cases done with
      | false => cases hrelabels
      | true =>
        simp only [System.step] at ht
        obtain ⟨ids, hrun, rfl⟩ := Option.map_eq_some_iff.mp ht
        simp only [System.relabels, hrun, any_eq_true] at hrelabels
        obtain ⟨tx, htx, hrow⟩ := hrelabels
        obtain ⟨hid, hcold⟩ := Bool.and_eq_true_iff.mp hrow
        have hcommitted := (hexact tx htx).mp (beq_iff_eq.mp hcold)
        have hmem : { tx with archivedTier := some .warm } ∈
            (s.db.markWarm (ids.take warmChunk)).transactions :=
          mem_updateWhere.mpr (.inl ⟨tx, htx, hid, rfl⟩)
        cases (hafter _ hmem).mpr hcommitted
    | _ => cases hrelabels
  · exact fun hkeeps => hexact.step htied hkeeps ht

/-- In the runs in which the warm archival marks no cold row, and only in these, what is
marked cold is what is committed, with its object and its manifest. -/
theorem always_archived_iff (config : Config) (labels : List Label) :
    Always (System.step config) Archived .empty labels ↔
      Meets (System.step config) (fun s a => s.relabels a = false) .empty labels := by
  apply always_iff_meets labels (fun _ _ _ h ht => Tied.step h ht) ?_ tied_empty
  · apply tied_empty.archived_iff.mpr
    intro tx htx
    cases htx
  · exact fun _ _ _ htied harchived ht => archived_step_iff htied harchived ht

/-- The warm archival selects a row, the worker archives it, and then it is marked warm. -/
theorem cold_relabelled : ¬ ∀ (config : Config) (labels : List Label),
    Always (System.step config) Archived .empty labels := by
  intro hall
  have hrun : (run (System.step yearly) .empty
      (planRun ++ archiveRun.dropLast ++
        [.selectWarm nextYear [0], .commit .ok, .markWarm 0 true])).map (fun s =>
          (s.db.transactions.map Transaction.archivedTier, s.db.items,
            s.db.batches.map Batch.id, s.db.batchIn 0 [.committed])) =
        some ([some .warm], [⟨0, 0⟩], [0], true) := by
    decide
  obtain ⟨s, hs, hview⟩ := Option.map_eq_some_iff.mp hrun
  obtain ⟨htiers, hview⟩ := Prod.mk.inj hview
  obtain ⟨hitems, hview⟩ := Prod.mk.inj hview
  obtain ⟨_, hin⟩ := Prod.mk.inj hview
  have harchived := (hall yearly _).finish hs
  obtain ⟨b, hb, hid, hstatus⟩ := batchIn_iff.mp hin
  obtain ⟨_, hrows⟩ := harchived.rows b hb (mem_singleton.mp hstatus)
  obtain ⟨tx, htx, _, hcold⟩ := hrows ⟨0, 0⟩ (hitems ▸ mem_cons_self) hid.symm
  have htier : tx.archivedTier ∈ s.db.transactions.map Transaction.archivedTier :=
    mem_map_of_mem htx
  rw [htiers, hcold] at htier
  cases mem_singleton.mp htier

end Bis.Archive
