import Bis.Archive.Effects

/-!
Who owns a transaction that waits for the archive. The owner is a column of the
transaction, and an item of a batch, which is unique for the transaction. A batch that
becomes failed keeps its items, and only recovery clears the columns; so a batch must not
fail while it owns transactions, or these are never archived.
-/

namespace Bis.Archive

open Bis.Relation Bis.Transition List

/-- A batch that may still be archived. -/
def liveStatuses : List BatchStatus := [.planned, .uploading, .verified, .quarantined]

structure Planable (config : Config) (db : Database) : Prop where
  owned : ∀ tx ∈ db.transactions, ∀ now, tx.isDue config.coldAgeDays now = true →
    (∃ b, tx.coldArchiveBatchId = some b ∧ db.batchIn b liveStatuses = true) ∨
      (tx.coldArchiveBatchId = none ∧ ∀ item ∈ db.items, item.transactionId ≠ tx.id)
  plans : ∀ now skipped, (db.planBatch (db.candidates config now skipped)).isSome = true
  unfailed : ∀ tx ∈ db.transactions, tx.archivedTier = none → ∀ b,
    tx.coldArchiveBatchId = some b → db.batchIn b [.failed] = false

/-- The batch that a step turns failed. -/
def System.turnedFailed (s : System) : Label → Option Nat
  | .markFailed true =>
    match s.worker with
    | .failing batch => if s.db.batchIn batch.id [.committed] then none else some batch.id
    | _ => none
  | .recover stat expired outcome =>
    match s.worker with
    | .recovering (batch :: _) =>
      if batch.isReleased stat expired && outcome.done &&
          s.db.batchIn batch.id [.planned, .uploading] then some batch.id
      else none
    | _ => none
  | _ => none

/-- A batch that fails owns nothing that is not archived. -/
def System.failsEmpty (s : System) (a : Label) : Bool :=
  (s.turnedFailed a).all fun batch => s.db.transactions.all fun tx => !Database.isMarkedBy batch tx

/-- An item of a transaction that is not archived is one of the owner. -/
def Unstranded (db : Database) : Prop :=
  ∀ item ∈ db.items, ∀ tx ∈ db.transactions, tx.id = item.transactionId → tx.archivedTier = none →
    tx.coldArchiveBatchId = some item.batchId ∧ db.batchIn item.batchId liveStatuses = true

variable {config : Config} {s t : System} {a : Label} {db : Database}

variable {batch : Nat} {after : Database}

theorem failsEmpty_iff (hfailed : s.turnedFailed a = some batch) :
    s.failsEmpty a = true ↔
      ∀ tx ∈ s.db.transactions, ¬ Database.isMarkedBy batch tx = true := by
  rw [System.failsEmpty, hfailed, Option.all_some, all_eq_true]
  simp

/-- No item is added, and no transaction loses its owner. -/
theorem Unstranded.rewrite (h : Unstranded db) {transactions : List Transaction}
    {batches : List Batch}
    (htx : ∀ tx ∈ transactions, tx.archivedTier = none → ∀ item ∈ db.items,
      tx.id = item.transactionId → ∃ old ∈ db.transactions, old.id = tx.id ∧
        old.coldArchiveBatchId = tx.coldArchiveBatchId ∧ old.archivedTier = none)
    (hbatch : ∀ tx ∈ transactions, ∀ b, Database.isMarkedBy b tx = true →
      db.batchIn b liveStatuses = true →
        Database.batchIn { db with batches } b liveStatuses = true) :
    Unstranded { db with transactions, batches } := by
  intro item hitem tx hmem hid htier
  obtain ⟨old, hold, holdId, howner, holdTier⟩ := htx tx hmem htier item hitem hid
  obtain ⟨hown, hlive⟩ := h item hitem old hold (holdId.trans hid) holdTier
  have hown : tx.coldArchiveBatchId = some item.batchId := howner.symm.trans hown
  exact ⟨hown, hbatch tx hmem item.batchId (isMarkedBy_iff.mpr ⟨hown, htier⟩) hlive⟩

/-- A batch stays live when its status is changed to a live one, or another's is changed. -/
theorem batchIn_updateBatch {f : Batch → Batch} (hid : ∀ b, (f b).id = b.id) {other : Nat}
    (hlive : other = batch → ∀ b, (f b).status ∈ liveStatuses)
    (hin : db.batchIn other liveStatuses = true) :
    Database.batchIn { db with batches := db.updateBatch batch f } other liveStatuses = true := by
  obtain ⟨b, hb, hbid, hstatus⟩ := batchIn_iff.mp hin
  apply batchIn_iff.mpr
  by_cases hsame : b.id = batch
  · refine ⟨f b, mem_updateWhere.mpr (.inl ⟨b, hb, beq_iff_eq.mpr hsame, rfl⟩), ?_, ?_⟩
    · exact (hid b).trans hbid
    · exact hlive (hbid.symm.trans hsame) b
  · refine ⟨b, mem_updateWhere_of_not hb ?_, hbid, hstatus⟩
    exact fun heq => hsame (beq_iff_eq.mp heq)

/-- Only the columns of the archive copy change. -/
theorem Unstranded.updateValues (h : Unstranded db) (p : Transaction → Bool)
    (f : Values → Values) : Unstranded (db.updateValues p f) := by
  apply h.rewrite
  · intro tx htx htier _ _ _
    rcases mem_updateWhere.mp htx with ⟨old, hold, _, rfl⟩ | ⟨hold, _⟩
    · exact ⟨old, hold, rfl, rfl, htier⟩
    · exact ⟨tx, hold, rfl, rfl, htier⟩
  · exact fun _ _ _ _ hlive => hlive

theorem Unstranded.insertTransaction (h : Unstranded db) (hconsistent : Consistent db)
    (tenantId : Option Nat) (txRef type : String) (values : Values) (createdAt : Nat) :
    Unstranded (db.insertTransaction tenantId txRef type values createdAt) := by
  intro item hitem tx htx hid htier
  rcases mem_concat.mp htx with hold | hnew
  · exact h item hitem tx hold hid htier
  · rw [hnew] at hid
    exact absurd (hconsistent.itemKnown item hitem).1 (hid ▸ Nat.lt_irrefl _)

variable {chosen : List Transaction}

theorem Unstranded.planBatch (h : Unstranded db) (hconsistent : Consistent db)
    (hchosen : ∀ tx ∈ chosen, tx ∈ db.transactions ∧ tx.coldArchiveBatchId = none)
    (hplan : db.planBatch chosen = some after) : Unstranded after := by
  obtain ⟨hclash, _, rfl⟩ := planBatch_eq_some hplan
  have hclash := clashes_eq_false.mp hclash
  intro item hitem tx htx hid htier
  rcases mem_append.mp hitem with hitem | hnew
  · rcases mem_updateWhere.mp htx with ⟨old, _, hold, rfl⟩ | ⟨hold, _⟩
    · obtain ⟨⟨c, hc, hcid⟩, _⟩ := isChosen_iff.mp hold
      exact absurd (hid.symm.trans hcid.symm) (hclash c hc item hitem)
    · obtain ⟨howner, hlive⟩ := h item hitem tx hold hid htier
      obtain ⟨b, hb, hstatus⟩ := batchIn_iff.mp hlive
      exact ⟨howner, batchIn_iff.mpr ⟨b, mem_append_left _ hb, hstatus⟩⟩
  · obtain ⟨c, hc, rfl⟩ := mem_map.mp hnew
    refine ⟨?_, batchIn_iff.mpr ⟨_, mem_concat_self, rfl, ?_⟩⟩
    · rcases mem_updateWhere.mp htx with ⟨old, _, _, rfl⟩ | ⟨hold, hnot⟩
      · rfl
      · obtain rfl := inj_on_of_nodup_map hconsistent.txIds hold (hchosen c hc).1 hid
        exact absurd (isChosen_iff.mpr ⟨⟨tx, hc, rfl⟩, (hchosen tx hc).2⟩) hnot
    · exact mem_cons_self

/-- The batch has nothing that is not archived, so nothing is lost with it. -/
theorem Unstranded.fail (h : Unstranded db)
    (hempty : ∀ tx ∈ db.transactions, ¬ Database.isMarkedBy batch tx = true) :
    Unstranded (db.setStatus batch .failed) := by
  apply h.rewrite
  · exact fun tx htx htier _ _ _ => ⟨tx, htx, rfl, rfl, htier⟩
  · intro tx htx b hmarked hlive
    apply batchIn_updateBatch ?_ ?_ hlive
    · exact fun _ => rfl
    · intro heq
      exact absurd (heq ▸ hmarked) (hempty tx htx)

theorem Unstranded.setStatus (h : Unstranded db) (batch : Nat) {status : BatchStatus}
    (hlive : status ∈ liveStatuses) : Unstranded (db.setStatus batch status) := by
  apply h.rewrite
  · exact fun tx htx htier _ _ _ => ⟨tx, htx, rfl, rfl, htier⟩
  · intro _ _ _ _ hin
    apply batchIn_updateBatch ?_ ?_ hin
    · exact fun _ => rfl
    · exact fun _ _ => hlive

/-- What is owned by the batch is archived now. -/
theorem Unstranded.commitVerified (h : Unstranded db) {rowCount : Nat}
    (hcommit : db.commitVerified batch rowCount = some after) : Unstranded after := by
  obtain ⟨_, _, rfl⟩ := commitVerified_eq_some hcommit
  have hmem {tx : Transaction} (htx : tx ∈ updateWhere (Database.isMarkedBy batch)
      (fun tx => { tx with archivedTier := some .cold }) db.transactions)
      (htier : tx.archivedTier = none) :
      tx ∈ db.transactions ∧ ¬ Database.isMarkedBy batch tx = true := by
    rcases mem_updateWhere.mp htx with ⟨old, _, _, rfl⟩ | hold
    · cases htier
    · exact hold
  apply h.rewrite
  · exact fun tx htx htier _ _ _ => ⟨tx, (hmem htx htier).1, rfl, rfl, htier⟩
  · intro tx htx b hmarked hlive
    apply batchIn_updateBatch ?_ ?_ hlive
    · exact fun _ => rfl
    · intro heq
      exact absurd (heq ▸ hmarked) (hmem htx (isMarkedBy_iff.mp hmarked).2).2

theorem Unstranded.markWarm (h : Unstranded db) (ids : List Nat) : Unstranded (db.markWarm ids) := by
  apply h.rewrite
  · intro tx htx htier _ _ _
    rcases mem_updateWhere.mp htx with ⟨old, _, _, rfl⟩ | ⟨hold, _⟩
    · cases htier
    · exact ⟨tx, hold, rfl, rfl, htier⟩
  · exact fun _ _ _ _ hlive => hlive

theorem Unstranded.releaseUnuploadedBatch (h : Unstranded db)
    (hempty : ∀ tx ∈ db.transactions, ¬ Database.isMarkedBy batch tx = true)
    (hrelease : db.releaseUnuploadedBatch batch = some after) : Unstranded after := by
  obtain ⟨_, rfl⟩ := releaseUnuploadedBatch_eq_some hrelease
  have hsame : updateWhere (Database.isMarkedBy batch)
      (fun tx => { tx with coldArchiveBatchId := none }) db.transactions = db.transactions := by
    calc updateWhere (Database.isMarkedBy batch)
          (fun tx => { tx with coldArchiveBatchId := none }) db.transactions
        = db.transactions.map id :=
          map_congr_left fun tx htx => if_neg (hempty tx htx)
      _ = db.transactions := map_id _
  rw [hsame]
  exact h.fail hempty

theorem Unstranded.step (h : Unstranded s.db) (hconsistent : Consistent s.db)
    (hkeeps : s.failsEmpty a = true) (ht : System.step config s a = some t) :
    Unstranded t.db := by
  cases step_effect ht with
  | moved _ _ ht | stored _ _ _ _ ht | manifested _ _ _ _ ht | noted _ _ ht => exact ht ▸ h
  | values p f _ ht => exact ht ▸ h.updateValues p f
  | inserted tenantId txRef type values createdAt ht =>
    exact ht ▸ h.insertTransaction hconsistent tenantId txRef type values createdAt
  | reversed p f _ tenantId txRef type values createdAt _ ht =>
    exact ht ▸ (h.updateValues p f).insertTransaction (hconsistent.updateValues p f) tenantId
      txRef type values createdAt
  | planned now skipped _ _ _ hplan _ ht =>
    subst ht
    exact h.planBatch hconsistent (candidates_owner s.db config now skipped) hplan
  | uploading batch key _ _ _ hmark _ ht =>
    subst ht
    obtain ⟨_, rfl⟩ := markUploading_eq_some hmark
    apply h.rewrite
    · exact fun tx htx htier _ _ _ => ⟨tx, htx, rfl, rfl, htier⟩
    · intro _ _ _ _ hin
      apply batchIn_updateBatch ?_ ?_ hin
      · exact fun _ => rfl
      · exact fun _ _ => mem_cons_of_mem _ mem_cons_self
  | quarantined batch _ _ _ _ hquarantine _ ht =>
    subst ht
    obtain ⟨_, rfl⟩ := quarantineBatch_eq_some hquarantine
    exact h.setStatus batch.id (by decide)
  | released batch rest _ _ stat expired outcome hlabel _ hreleases hdone hworker hrelease _ ht =>
    subst ht
    have hfailed : s.turnedFailed a = some batch.id := by
      subst hlabel
      have hin := (releaseUnuploadedBatch_eq_some hrelease).1
      simp only [System.turnedFailed, hworker, hreleases, hdone, hin, Bool.and_self, if_true]
    exact h.releaseUnuploadedBatch ((failsEmpty_iff hfailed).mp hkeeps) hrelease
  | committed _ _ _ _ _ hcommit _ ht => exact ht ▸ h.commitVerified hcommit
  | failed batch hlabel hworker ht =>
    subst ht
    change Unstranded (s.db.markFailed batch.id)
    unfold Database.markFailed
    split
    next => exact h
    next hin =>
      have hfailed : s.turnedFailed a = some batch.id := by
        subst hlabel
        simp only [System.turnedFailed, hworker]
        exact if_neg hin
      exact h.fail ((failsEmpty_iff hfailed).mp hkeeps)
  | warmed _ ids _ _ _ ht => exact ht ▸ h.markWarm (ids.take warmChunk)

/-! ### What can be planned -/

/-- The rows that are chosen are all there, and have no owner. -/
theorem countP_isChosen (h : Consistent db) (hnodup : (chosen.map Transaction.id).Nodup)
    (hchosen : ∀ tx ∈ chosen, tx ∈ db.transactions ∧ tx.coldArchiveBatchId = none) :
    (db.transactions.countP fun tx => Database.isChosen chosen tx) = chosen.length := by
  have hperm : (db.transactions.filter fun tx => Database.isChosen chosen tx).Perm chosen := by
    apply (perm_ext_iff_of_nodup (h.txIds.of_map.filter _) hnodup.of_map).mpr
    intro tx
    rw [mem_filter, isChosen_iff]
    constructor
    · rintro ⟨htx, ⟨c, hc, hid⟩, _⟩
      exact inj_on_of_nodup_map h.txIds (hchosen c hc).1 htx hid ▸ hc
    · intro htx
      exact ⟨(hchosen tx htx).1, ⟨tx, htx, rfl⟩, (hchosen tx htx).2⟩
  rw [countP_eq_length_filter]
  exact hperm.length_eq

theorem Unstranded.planable (h : Unstranded db) (hconsistent : Consistent db) :
    Planable config db := by
  have hfree {tx : Transaction} (htx : tx ∈ db.transactions) (htier : tx.archivedTier = none)
      (howner : tx.coldArchiveBatchId = none) : ∀ item ∈ db.items, item.transactionId ≠ tx.id := by
    intro item hitem heq
    have hown := (h item hitem tx htx heq.symm htier).1
    rw [howner] at hown
    cases hown
  have hlive {tx : Transaction} (htx : tx ∈ db.transactions) (htier : tx.archivedTier = none)
      {b : Nat} (howner : tx.coldArchiveBatchId = some b) : db.batchIn b liveStatuses = true :=
    (h ⟨b, tx.id⟩ (hconsistent.owned tx htx b howner) tx htx rfl htier).2
  refine ⟨?_, ?_, ?_⟩
  · intro tx htx now hdue
    have htier : tx.archivedTier = none :=
      Option.isNone_iff_eq_none.mp (Bool.and_eq_true_iff.mp hdue).2
    cases howner : tx.coldArchiveBatchId with
    | none => exact .inr ⟨rfl, hfree htx htier howner⟩
    | some b => exact .inl ⟨b, rfl, hlive htx htier howner⟩
  · intro now skipped
    have hcount := countP_isChosen hconsistent (hconsistent.candidates_nodup config now skipped)
      (candidates_owner db config now skipped)
    have hclash : db.clashes (db.candidates config now skipped) = false := by
      apply clashes_eq_false.mpr
      intro tx htx
      obtain ⟨hmem, hcandidate⟩ := candidates_mem htx
      exact hfree hmem (isCandidate_tier hcandidate) (isCandidate_owner hcandidate)
    unfold Database.planBatch
    rw [hclash, hcount, bne_self_eq_false]
    rfl
  · intro tx htx htier b howner
    obtain ⟨live, hmem, hid, hstatus⟩ := batchIn_iff.mp (hlive htx htier howner)
    apply Bool.eq_false_iff.mpr
    intro hfailed
    have hnot := hconsistent.status_of_batchIn hfailed hmem hid
    rw [mem_singleton.mp hnot] at hstatus
    exact absurd hstatus (by decide)

/-- When no batch fails with transactions that are not archived, each of these stays in a
batch that may be archived, or can be planned. -/
theorem always_planable (config : Config) (labels : List Label)
    (hempty : Meets (System.step config) (fun s a => s.failsEmpty a = true) .empty labels) :
    Always (System.step config) (fun s => Planable config s.db) .empty labels := by
  have hstart : Consistent System.empty.db ∧ Unstranded System.empty.db := by
    refine ⟨consistent_empty, ?_⟩
    intro item hitem
    cases hitem
  have hinvariant := always_of_meets (fun s a t h hkeeps ht =>
    (⟨Consistent.step h.1 ht, Unstranded.step h.2 h.1 hkeeps ht⟩ :
      Consistent t.db ∧ Unstranded t.db)) hstart hempty
  exact hinvariant.mono fun s h => h.2.planable h.1

/-! ### Cycles with one transaction -/

def yearly : Config := ⟨365, 5000, id⟩

def paid : Values := ⟨.completed, 5000, "NGN", "A", none, "B", none, none⟩

/-- More than the cold age after the transaction. -/
def nextYear : Nat := 40000000

def planRun : List Label :=
  [.insert none "T1" "transfer" paid 0, .start, .plan nextYear [] .ok, .markUploading "key" false .ok]

def archiveRun : List Label :=
  [.writeParquet true, .uploadFile .ok, .uploadManifest .ok, .commit .ok]

theorem planable_archived :
    Always (System.step yearly) (fun s => Planable yearly s.db) .empty (planRun ++ archiveRun) :=
  always_planable yearly (planRun ++ archiveRun) (by decide)

/-- A file that cannot be written leaves its transactions with the failed batch; a crash
leaves an item that the next plan stumbles over. -/
theorem batch_stranded :
    (¬ ∀ (config : Config) (labels : List Label), Always (System.step config)
      (fun s => ∀ tx ∈ s.db.transactions, tx.archivedTier = none → ∀ b,
        tx.coldArchiveBatchId = some b → s.db.batchIn b [.failed] = false) .empty labels) ∧
    ¬ ∀ (config : Config) (labels : List Label), Always (System.step config)
      (fun s => ∀ now skipped, (s.db.planBatch (s.db.candidates config now skipped)).isSome = true)
        .empty labels := by
  constructor
  · intro hall
    have hrun : (run (System.step yearly) .empty
        (planRun ++ [.writeParquet false, .markFailed true])).map (fun s =>
          (s.db.transactions.any (Database.isMarkedBy 0), s.db.batchIn 0 [.failed])) =
            some (true, true) := by
      decide
    obtain ⟨s, hs, hview⟩ := Option.map_eq_some_iff.mp hrun
    obtain ⟨hmarked, hfailed⟩ := Prod.mk.inj hview
    obtain ⟨tx, htx, hmarked⟩ := any_eq_true.mp hmarked
    obtain ⟨howner, htier⟩ := isMarkedBy_iff.mp hmarked
    have hnot := (hall yearly _).finish hs tx htx htier 0 howner
    rw [hfailed] at hnot
    cases hnot
  · intro hall
    have hrun : (run (System.step yearly) .empty
        (planRun ++ [.crash, .start, .recover .missing false .ok])).map (fun s =>
          (s.db.planBatch (s.db.candidates yearly nextYear [])).isSome) = some false := by
      decide
    obtain ⟨s, hs, hview⟩ := Option.map_eq_some_iff.mp hrun
    have hplans := (hall yearly _).finish hs nextYear []
    rw [hview] at hplans
    cases hplans

end Bis.Archive
