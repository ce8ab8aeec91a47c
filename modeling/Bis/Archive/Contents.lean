import Bis.Archive.Committed

/-!
What the object of a committed batch says. The file is written from rows that are read
without a lock; the commit counts the rows and does not look at them. The copy is right when
nothing changes these rows while the worker has the file, and when the amounts survive the
cast to `numeric`.
-/

namespace Bis.Archive

open Bis.Relation Bis.Transition List

/-- The record that says what the row says. -/
def Transaction.copy (tx : Transaction) (batch : Nat) : TransactionArchiveV1 where
  archiveBatchId := batch
  transactionId := tx.id
  tenantId := tx.tenantId
  transactionRef := tx.txRef
  transactionType := tx.type
  values := tx.values
  createdAt := tx.createdAt

def System.objectsOf (s : System) (batch : Nat) : List StoredObject :=
  s.objects.filter fun object => object.batch == batch

/-- The one object of a batch has the rows as they were when they were marked. -/
def Current (s : System) : Prop :=
  ∀ c ∈ s.commits, s.objectsOf c.batch = [⟨c.batch, c.rows.map fun tx => tx.copy c.batch⟩]

instance (s : System) : Decidable (Current s) :=
  inferInstanceAs (Decidable (∀ c ∈ s.commits, _))

/-- The batch whose records the worker has. -/
def System.held (s : System) : Option Nat :=
  match s.worker with
  | .written batch _ | .uploaded batch _ | .manifested batch _ => some batch.id
  | _ => none

/-- The cast keeps the values that the file is written from. -/
def System.castsExactly (config : Config) (s : System) : Label → Bool
  | .writeParquet true =>
    match s.worker with
    | .uploading batch => (s.db.readBatch batch.id).all fun tx => tx.values.cast config == tx.values
    | _ => true
  | _ => true

/-- No writer changes the values of a row whose record the worker has. -/
def System.leavesHeld (s : System) (a : Label) : Bool :=
  match a.change, s.held with
  | some (p, f), some batch => (s.db.readBatch batch).all fun tx => !p tx || f tx.values == tx.values
  | _, _ => true

def System.keepsCopy (config : Config) (s : System) (a : Label) : Bool :=
  s.castsExactly config a && s.leavesHeld a

def System.copies (s : System) (batch : Nat) : List TransactionArchiveV1 :=
  (s.db.readBatch batch).map fun tx => tx.copy batch

/-- The file, and the object once it is stored, are what the rows of the batch say now. -/
def System.isCopied (s : System) : Worker → Prop
  | .written batch records => records = s.copies batch.id
  | .uploaded batch records | .manifested batch records =>
    records = s.copies batch.id ∧ s.objectsOf batch.id = [⟨batch.id, records⟩]
  | _ => True

variable {config : Config} {s t : System} {a : Label} {db : Database}

/-! ### The rows of a batch -/

variable {p : Transaction → Bool} {batch : Nat}

variable {f : Transaction → Transaction} {records : List TransactionArchiveV1}

/-- The rows of a batch are rewritten where they stand. -/
theorem readBatch_updateWhere (hid : ∀ tx, (f tx).id = tx.id) (batch : Nat) :
    Database.readBatch { db with transactions := updateWhere p f db.transactions } batch =
      updateWhere p f (db.readBatch batch) := by
  unfold Database.readBatch updateWhere
  rw [filter_map]
  congr 1
  apply filter_congr
  intro tx _
  change (db.items.any fun item => item.batchId == batch &&
    item.transactionId == (if p tx then f tx else tx).id) = _
  have hsame : (if p tx then f tx else tx).id = tx.id := by
    split
    · exact hid tx
    · rfl
  rw [hsame]

/-- A copy does not have the columns of the archive. -/
theorem copies_rewrite (htransactions : t.db.transactions = updateWhere p f s.db.transactions)
    (hitems : t.db.items = s.db.items) (hid : ∀ tx, (f tx).id = tx.id)
    (hcopy : ∀ tx ∈ s.db.readBatch batch, p tx = true → (f tx).copy batch = tx.copy batch) :
    t.copies batch = s.copies batch := by
  have hread : t.db.readBatch batch = updateWhere p f (s.db.readBatch batch) := by
    rw [← readBatch_updateWhere hid batch]
    unfold Database.readBatch
    rw [htransactions, hitems]
  unfold System.copies
  rw [hread]
  unfold updateWhere
  rw [map_map]
  apply map_congr_left
  intro tx htx
  change (if p tx then f tx else tx).copy batch = tx.copy batch
  split
  next hp => exact hcopy tx htx hp
  next => rfl

/-- A new transaction is in no batch. -/
theorem readBatch_insertTransaction (h : Consistent db) (tenantId : Option Nat)
    (txRef type : String) (values : Values) (createdAt : Nat) (batch : Nat) :
    (db.insertTransaction tenantId txRef type values createdAt).readBatch batch =
      db.readBatch batch := by
  unfold Database.insertTransaction Database.readBatch
  rw [filter_append]
  have hnone : (db.items.any fun item => item.batchId == batch &&
      item.transactionId == db.nextTransaction) = false := by
    apply any_eq_false.mpr
    intro item hitem hmatch
    have hid := beq_iff_eq.mp (Bool.and_eq_true_iff.mp hmatch).2
    exact absurd (h.itemKnown item hitem).1 (hid ▸ Nat.lt_irrefl _)
  rw [filter_cons_of_neg (by simpa using hnone), filter_nil, append_nil]

/-- The rows that a commit marks are the rows of the batch. -/
theorem Consistent.readBatch_eq (h : Consistent db) {rowCount : Nat} {after : Database}
    (hknows : ∀ b ∈ db.batches, b.id = batch → b.rowCount = rowCount)
    (hcommit : db.commitVerified batch rowCount = some after) :
    db.transactions.filter (Database.isMarkedBy batch) = db.readBatch batch := by
  obtain ⟨huploading, hcount, _⟩ := commitVerified_eq_some hcommit
  obtain ⟨b, hb, hbid, hstatus⟩ := batchIn_iff.mp huploading
  have hkeeps : b.status.keepsRows = true := by
    rw [mem_singleton.mp hstatus]
    rfl
  apply filter_congr
  intro tx htx
  rw [Bool.eq_iff_iff, any_eq_true]
  constructor
  · intro hmarked
    have hitem := h.owned tx htx batch (isMarkedBy_iff.mp hmarked).1
    exact ⟨_, hitem, by simp⟩
  · rintro ⟨item, hitem, hmatch⟩
    obtain ⟨hbatch, hid⟩ := Bool.and_eq_true_iff.mp hmatch
    have howner := h.itemOwned b hb hkeeps item hitem ((beq_iff_eq.mp hbatch).trans hbid.symm) tx
      htx (beq_iff_eq.mp hid).symm
    exact h.isMarkedBy_of_owner hknows hcommit htx (hbid ▸ howner)

/-! ### The file and the object -/

/-- Another step than the worker's leaves the rows of the file as they are. -/
theorem isCopied_of_held (h : s.isCopied s.worker) (hworker : t.worker = s.worker)
    (hcopies : ∀ batch, s.held = some batch → t.copies batch = s.copies batch)
    (hobjects : t.objects = s.objects) : t.isCopied t.worker := by
  rw [hworker]
  unfold System.held at hcopies
  cases hstage : s.worker with
  | written batch records =>
    rw [hstage] at h hcopies
    exact Eq.trans h (hcopies batch.id rfl).symm
  | uploaded batch records | manifested batch records =>
    rw [hstage] at h hcopies
    simp only [System.isCopied, System.objectsOf, hcopies batch.id rfl, hobjects]
    exact h
  | _ => exact True.intro

theorem objectsOf_eq_nil (h : s.hasObject batch = false) : s.objectsOf batch = [] := by
  unfold System.hasObject at h
  unfold System.objectsOf
  rw [filter_eq_nil_iff]
  exact any_eq_false.mp h

theorem hasObject_of_objectsOf {object : StoredObject} (h : s.objectsOf batch = [object]) :
    s.hasObject batch = true := by
  have hmem : object ∈ s.objectsOf batch := h ▸ mem_cons_self
  obtain ⟨hin, hbatch⟩ := mem_filter.mp hmem
  exact hasObject_iff.mpr ⟨object, hin, beq_iff_eq.mp hbatch⟩

/-- A batch that has an object keeps this one. -/
theorem objectsOf_uploadFile {batch : ArchiveBatch} {outcome : Outcome} {b : Nat}
    (hb : s.hasObject b = true) :
    (s.uploadFile batch records outcome).objectsOf b = s.objectsOf b := by
  change (s.put outcome batch.id records).filter _ = _
  unfold System.put
  split
  next hput =>
    have hne : batch.id ≠ b := by
      rintro rfl
      rw [hb] at hput
      cases (Bool.and_eq_true_iff.mp hput).2
    rw [filter_append, filter_cons_of_neg (by simpa using hne), filter_nil,
      append_nil]
    rfl
  next => rfl

theorem objectsOf_uploadFile_new {batch : ArchiveBatch} (hfree : s.hasObject batch.id = false) :
    (s.uploadFile batch records .ok).objectsOf batch.id = [⟨batch.id, records⟩] := by
  change (s.put .ok batch.id records).filter _ = _
  have hput : s.put .ok batch.id records = s.objects ++ [⟨batch.id, records⟩] := by
    unfold System.put
    rw [hfree]
    rfl
  have hnew : [(⟨batch.id, records⟩ : StoredObject)].filter (fun object => object.batch == batch.id) =
      [⟨batch.id, records⟩] := by simp
  rw [hput, filter_append, hnew]
  change s.objectsOf batch.id ++ _ = _
  rw [objectsOf_eq_nil hfree, nil_append]

structure Copied (s : System) : Prop where
  current : Current s
  worker : s.isCopied s.worker

theorem writeParquet_copies {batch : ArchiveBatch}
    (hcasts : s.castsExactly config (.writeParquet true) = true)
    (hworker : s.worker = .uploading batch) :
    ((s.db.readBatch batch.id).map fun tx => tx.record config batch.id) = s.copies batch.id := by
  simp only [System.castsExactly, hworker, all_eq_true] at hcasts
  apply map_congr_left
  intro tx htx
  unfold Transaction.record Transaction.copy
  rw [beq_iff_eq.mp (hcasts tx htx)]

theorem leavesHeld_of (hleaves : s.leavesHeld a = true) {f : Values → Values}
    (hchange : a.change = some (p, f)) (hheld : s.held = some batch) :
    ∀ tx ∈ s.db.readBatch batch, p tx = true → f tx.values = tx.values := by
  intro tx htx hp
  unfold System.leavesHeld at hleaves
  rw [hchange, hheld] at hleaves
  have hrow := all_eq_true.mp hleaves tx htx
  rw [hp] at hrow
  exact beq_iff_eq.mp hrow

/-- A writer that leaves the rows of the file as they are. -/
theorem copies_updateValues (hleaves : s.leavesHeld a = true) {f : Values → Values}
    (hchange : a.change = some (p, f)) (hheld : s.held = some batch) :
    System.copies { s with db := s.db.updateValues p f } batch = s.copies batch := by
  apply copies_rewrite
  · rfl
  · rfl
  · exact fun _ => rfl
  · intro tx htx hp
    have hvalues := leavesHeld_of hleaves hchange hheld tx htx hp
    unfold Transaction.copy
    dsimp only
    rw [hvalues]

theorem copies_insertTransaction (h : Consistent s.db) (tenantId : Option Nat)
    (txRef type : String) (values : Values) (createdAt batch : Nat) :
    System.copies { s with db := s.db.insertTransaction tenantId txRef type values createdAt } batch =
      s.copies batch := by
  unfold System.copies
  dsimp only
  rw [readBatch_insertTransaction h]

theorem Copied.step (h : Copied s) (htied : Tied s) (hkeeps : s.keepsCopy config a = true)
    (ht : System.step config s a = some t) : Copied t := by
  obtain ⟨hcasts, hleaves⟩ := Bool.and_eq_true_iff.mp hkeeps
  have hworker := h.worker
  cases step_effect ht with
  | moved worker hmove ht =>
    subst ht
    refine ⟨h.current, ?_⟩
    cases hmove with
    | write batch hlabel huploading =>
      subst hlabel
      exact writeParquet_copies hcasts huploading
    | _ => exact True.intro
  | stored batch records outcome hwritten ht =>
    subst ht
    rw [hwritten] at hworker
    constructor
    · intro c hc
      have hobject := h.current c hc
      rw [objectsOf_uploadFile (hasObject_of_objectsOf hobject)]
      exact hobject
    · change System.isCopied _ (if _ then _ else _)
      split
      next hcond =>
        obtain ⟨hok, hfree⟩ := Bool.and_eq_true_iff.mp hcond
        obtain rfl := of_decide_eq_true hok
        refine ⟨hworker, objectsOf_uploadFile_new ?_⟩
        simpa using hfree
      next => exact True.intro
  | manifested batch records outcome huploaded ht =>
    subst ht
    rw [huploaded] at hworker
    refine ⟨h.current, ?_⟩
    change System.isCopied _ (if _ then _ else _)
    split
    next => exact hworker
    next => exact True.intro
  | noted _ _ ht =>
    subst ht
    exact ⟨h.current, isCopied_of_held hworker rfl (fun _ _ => rfl) rfl⟩
  | values p f hchange ht =>
    subst ht
    refine ⟨h.current, isCopied_of_held hworker rfl ?_ rfl⟩
    exact fun batch hheld => copies_updateValues hleaves hchange hheld
  | inserted tenantId txRef type values createdAt ht =>
    subst ht
    refine ⟨h.current, isCopied_of_held hworker rfl ?_ rfl⟩
    exact fun batch _ => copies_insertTransaction htied.consistent _ _ _ _ _ batch
  | reversed p f hchange tenantId txRef type values createdAt reversals ht =>
    subst ht
    refine ⟨h.current, isCopied_of_held hworker rfl ?_ rfl⟩
    intro batch hheld
    have hupdated := copies_updateValues hleaves hchange hheld
    refine Eq.trans ?_ hupdated
    exact copies_insertTransaction (s := { s with db := s.db.updateValues p f })
      (htied.consistent.updateValues p f) _ _ _ _ _ batch
  | planned _ _ _ _ _ _ hnext ht | uploading _ _ _ _ _ _ hnext ht
  | quarantined _ _ _ _ _ _ hnext ht | released _ _ _ _ _ _ _ _ _ _ _ _ _ hnext ht =>
    subst ht
    refine ⟨h.current, ?_⟩
    rcases hnext with rfl | rfl
    · exact True.intro
    · exact True.intro
  | committed batch records worker db hmanifested hcommit hnext ht =>
    subst ht
    have hknows := htied.worker
    rw [hmanifested] at hworker hknows
    constructor
    · intro c hc
      rcases mem_concat.mp hc with hold | hnew
      · exact h.current c hold
      · rw [hnew]
        dsimp only
        rw [htied.consistent.readBatch_eq hknows.1 hcommit]
        obtain ⟨hrecords, hobject⟩ := hworker
        rw [hrecords] at hobject
        exact hobject
    · rcases hnext with rfl | rfl
      · exact True.intro
      · exact True.intro
  | failed _ _ _ ht =>
    subst ht
    exact ⟨h.current, True.intro⟩
  | warmed run ids _ _ _ ht =>
    subst ht
    refine ⟨h.current, isCopied_of_held hworker rfl ?_ rfl⟩
    intro batch _
    apply copies_rewrite
    · rfl
    · rfl
    · exact fun _ => rfl
    · exact fun _ _ _ => rfl

/-- When the amounts survive the cast, and nothing changes a row between the file and the
commit, the object of every committed batch has the rows as they were marked. -/
theorem always_current (config : Config) (labels : List Label)
    (hkeeps : Meets (System.step config) (fun s a => s.keepsCopy config a = true) .empty labels) :
    Always (System.step config) Current .empty labels := by
  have hstart : Tied System.empty ∧ Copied System.empty := by
    refine ⟨tied_empty, ?_, True.intro⟩
    intro c hc
    cases hc
  have hstep : ∀ u a v, (Tied u ∧ Copied u) → u.keepsCopy config a = true →
      System.step config u a = some v → Tied v ∧ Copied v :=
    fun _ _ _ h hkeeps ht => ⟨h.1.step ht, h.2.step h.1 hkeeps ht⟩
  exact (always_of_meets hstep hstart hkeeps).mono fun s h => h.2.current

/-! ### A year of one transaction -/

theorem current_archived :
    Always (System.step yearly) Current .empty (planRun ++ archiveRun) :=
  always_current yearly (planRun ++ archiveRun) (by decide)

/-- The unit of the last of six digits of an amount, which is at least `start`. -/
def digitUnit : Nat → Rat → Rat → Rat
  | 0, start, _ => start
  | fuel + 1, start, x => if x < 1000000 * start then start else digitUnit fuel (10 * start) x

/-- An amount from one up, with the six digits that the database keeps of a `real`. -/
def sixDigits (x : Rat) : Rat :=
  let unit := digitUnit 40 (1 / 100000) x
  unit * (x / unit + 1 / 2).floor

def dearRun : List Label :=
  [.insert none "T1" "transfer" { paid with amount := 1234567 } 0, .start,
    .plan nextYear [] .ok, .markUploading "key" false .ok]

/-- A transfer is reversed after the file is written; an amount has more than six digits. -/
theorem copy_outdated :
    (¬ ∀ (labels : List Label), Always (System.step yearly) Current .empty labels) ∧
    ¬ ∀ (labels : List Label),
      Always (System.step { yearly with numeric := sixDigits }) Current .empty labels := by
  constructor
  · intro hall
    have hrun : (run (System.step yearly) .empty
        (planRun ++ [.writeParquet true, .findReversal none "T1", .uploadFile .ok,
          .reverse none ⟨0, none, "T1", "transfer", paid, 0, none, some 0⟩ "REV-T1" nextYear,
          .uploadManifest .ok, .commit .ok])).map (fun s => decide (Current s)) = some false := by
      decide
    obtain ⟨s, hs, hview⟩ := Option.map_eq_some_iff.mp hrun
    exact of_decide_eq_false hview ((hall _).finish hs)
  · intro hall
    have hrun : (run (System.step { yearly with numeric := sixDigits }) .empty
        (dearRun ++ archiveRun)).map (fun s => decide (Current s)) = some false := by
      decide +kernel
    obtain ⟨s, hs, hview⟩ := Option.map_eq_some_iff.mp hrun
    exact of_decide_eq_false hview ((hall _).finish hs)

end Bis.Archive
