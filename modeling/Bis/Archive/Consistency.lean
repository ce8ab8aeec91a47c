import Bis.Archive.Tables
import Mathlib.Data.List.Perm.Subperm

/-!
What every statement keeps about the tables: the keys are unique, an owner has an item for
what it owns, and a batch that has not been given back has as many transactions and items
as were planned.
-/

namespace Bis.Archive

open Bis.Relation List

/-- The batch has its rows, as long as they are not given back. -/
def BatchStatus.keepsRows : BatchStatus → Bool
  | .failed => false
  | _ => true

structure Consistent (db : Database) : Prop where
  txIds : (db.transactions.map Transaction.id).Nodup
  txNew : ∀ tx ∈ db.transactions, tx.id < db.nextTransaction
  batchIds : (db.batches.map Batch.id).Nodup
  batchNew : ∀ b ∈ db.batches, b.id < db.nextBatch
  itemTx : (db.items.map Item.transactionId).Nodup
  itemKnown : ∀ item ∈ db.items, item.transactionId < db.nextTransaction ∧
    ∃ b ∈ db.batches, b.id = item.batchId
  owned : ∀ tx ∈ db.transactions, ∀ b, tx.coldArchiveBatchId = some b → ⟨b, tx.id⟩ ∈ db.items
  itemCount : ∀ b ∈ db.batches, (db.items.countP fun item => item.batchId == b.id) = b.rowCount
  ownedCount : ∀ b ∈ db.batches, b.status.keepsRows = true →
    (db.transactions.countP fun tx => tx.isOwnedBy b.id) = b.rowCount
  itemOwned : ∀ b ∈ db.batches, b.status.keepsRows = true → ∀ item ∈ db.items,
    item.batchId = b.id → ∀ tx ∈ db.transactions, tx.id = item.transactionId →
      tx.coldArchiveBatchId = some b.id

theorem consistent_empty : Consistent ⟨[], [], [], 0, 0⟩ := by
  refine ⟨nodup_nil, ?_, nodup_nil, ?_, nodup_nil, ?_, ?_, ?_, ?_, ?_⟩
  all_goals
    intro x hx
    cases hx

variable {db after : Database}

variable {batch now : Nat} {allowed : List BatchStatus} {tx : Transaction} {config : Config}
  {chosen : List Transaction}

theorem batchIn_iff :
    db.batchIn batch allowed = true ↔ ∃ b ∈ db.batches, b.id = batch ∧ b.status ∈ allowed := by
  simp [Database.batchIn, any_eq_true]

theorem isOwnedBy_iff : tx.isOwnedBy batch = true ↔ tx.coldArchiveBatchId = some batch := beq_iff_eq

theorem isMarkedBy_iff :
    Database.isMarkedBy batch tx = true ↔
      tx.coldArchiveBatchId = some batch ∧ tx.archivedTier = none := by
  rw [Database.isMarkedBy, Bool.and_eq_true_iff, isOwnedBy_iff, Option.isNone_iff_eq_none]

/-- There is one batch with an identifier. -/
theorem Consistent.batch_eq (h : Consistent db) {b c : Batch} (hb : b ∈ db.batches)
    (hc : c ∈ db.batches) (hid : b.id = c.id) : b = c :=
  inj_on_of_nodup_map h.batchIds hb hc hid

/-- As many transactions as items are owned, so none of the items is of something else. -/
theorem Consistent.item_exists (h : Consistent db) {b : Batch} (hb : b ∈ db.batches)
    (hkeeps : b.status.keepsRows = true) {item : Item} (hitem : item ∈ db.items)
    (hbatch : item.batchId = b.id) :
    ∃ tx ∈ db.transactions, tx.id = item.transactionId ∧ tx.coldArchiveBatchId = some b.id := by
  let owned := db.transactions.filter fun tx => tx.isOwnedBy b.id
  let items := db.items.filter fun item => item.batchId == b.id
  have hnodup : (owned.map Transaction.id).Nodup :=
    h.txIds.sublist (filter_sublist.map Transaction.id)
  have hsubset : owned.map Transaction.id ⊆ items.map Item.transactionId := by
    intro id hid
    obtain ⟨tx, htx, rfl⟩ := mem_map.mp hid
    obtain ⟨hmem, howner⟩ := mem_filter.mp htx
    have hin := h.owned tx hmem b.id (isOwnedBy_iff.mp howner)
    exact mem_map.mpr ⟨⟨b.id, tx.id⟩, mem_filter.mpr ⟨hin, beq_self_eq_true _⟩, rfl⟩
  have hlength : (items.map Item.transactionId).length ≤ (owned.map Transaction.id).length := by
    rw [length_map, length_map, ← countP_eq_length_filter,
      ← countP_eq_length_filter, h.itemCount b hb, h.ownedCount b hb hkeeps]
  have hperm := (hnodup.subperm hsubset).perm_of_length_le hlength
  have hin : item.transactionId ∈ owned.map Transaction.id := by
    apply hperm.mem_iff.mpr
    exact mem_map.mpr ⟨item, mem_filter.mpr ⟨hitem, beq_iff_eq.mpr hbatch⟩, rfl⟩
  obtain ⟨tx, htx, hid⟩ := mem_map.mp hin
  obtain ⟨hmem, howner⟩ := mem_filter.mp htx
  exact ⟨tx, hmem, hid, isOwnedBy_iff.mp howner⟩

/-! ### Columns that nothing here is about -/

/-- Other columns than the owner are written. -/
theorem Consistent.rewriteTransactions (h : Consistent db) {p : Transaction → Bool}
    {f : Transaction → Transaction} (hid : ∀ tx, (f tx).id = tx.id)
    (howner : ∀ tx, (f tx).coldArchiveBatchId = tx.coldArchiveBatchId) :
    Consistent { db with transactions := updateWhere p f db.transactions } := by
  have hids : (updateWhere p f db.transactions).map Transaction.id =
      db.transactions.map Transaction.id := map_updateWhere hid _
  have hsame {tx : Transaction} (htx : tx ∈ updateWhere p f db.transactions) :
      ∃ old ∈ db.transactions, tx.id = old.id ∧
        tx.coldArchiveBatchId = old.coldArchiveBatchId := by
    rcases mem_updateWhere.mp htx with ⟨old, hold, _, rfl⟩ | ⟨hold, _⟩
    · exact ⟨old, hold, hid old, howner old⟩
    · exact ⟨tx, hold, rfl, rfl⟩
  have hcount (batch : Nat) : (updateWhere p f db.transactions).countP (·.isOwnedBy batch) =
      db.transactions.countP (·.isOwnedBy batch) := by
    unfold updateWhere
    rw [countP_map]
    apply countP_congr
    intro tx _
    change (if p tx then f tx else tx).isOwnedBy batch = true ↔ _
    split
    · rw [isOwnedBy_iff, isOwnedBy_iff, howner]
    · exact Iff.rfl
  refine ⟨?_, ?_, h.batchIds, h.batchNew, h.itemTx, h.itemKnown, ?_, h.itemCount, ?_, ?_⟩
  · rw [hids]
    exact h.txIds
  · intro tx htx
    obtain ⟨old, hold, heq, _⟩ := hsame htx
    rw [heq]
    exact h.txNew old hold
  · intro tx htx b hb
    obtain ⟨old, hold, heq, hown⟩ := hsame htx
    rw [heq]
    exact h.owned old hold b (hown.symm.trans hb)
  · intro b hb hkeeps
    exact (hcount b.id).trans (h.ownedCount b hb hkeeps)
  · intro b hb hkeeps item hitem hbatch tx htx htxId
    obtain ⟨old, hold, heq, hown⟩ := hsame htx
    rw [hown]
    exact h.itemOwned b hb hkeeps item hitem hbatch old hold (heq.symm.trans htxId)

/-- A batch changes its status, and keeps its rows if it kept them before. -/
theorem Consistent.rewriteBatch (h : Consistent db) (batch : Nat) {f : Batch → Batch}
    (hid : ∀ b, (f b).id = b.id) (hcount : ∀ b, (f b).rowCount = b.rowCount)
    (hkeeps : ∀ b ∈ db.batches, b.id = batch → (f b).status.keepsRows = true →
      b.status.keepsRows = true) :
    Consistent { db with batches := db.updateBatch batch f } := by
  have hids : (db.updateBatch batch f).map Batch.id = db.batches.map Batch.id :=
    map_updateWhere hid _
  have hsame {b : Batch} (hb : b ∈ db.updateBatch batch f) : ∃ old ∈ db.batches,
      b.id = old.id ∧ b.rowCount = old.rowCount ∧
        (b.status.keepsRows = true → old.status.keepsRows = true) := by
    rcases mem_updateWhere.mp hb with ⟨old, hold, hbatch, rfl⟩ | ⟨hold, _⟩
    · exact ⟨old, hold, hid old, hcount old, hkeeps old hold (beq_iff_eq.mp hbatch)⟩
    · exact ⟨b, hold, rfl, rfl, fun hk => hk⟩
  refine ⟨h.txIds, h.txNew, ?_, ?_, h.itemTx, ?_, h.owned, ?_, ?_, ?_⟩
  · exact hids ▸ h.batchIds
  · intro b hb
    obtain ⟨old, hold, heq, _⟩ := hsame hb
    rw [heq]
    exact h.batchNew old hold
  · intro item hitem
    obtain ⟨hnew, b, hb, hbatch⟩ := h.itemKnown item hitem
    have hin : item.batchId ∈ (db.updateBatch batch f).map Batch.id := by
      rw [hids, ← hbatch]
      exact mem_map_of_mem hb
    exact ⟨hnew, mem_map.mp hin⟩
  · intro b hb
    obtain ⟨old, hold, heq, hrows, _⟩ := hsame hb
    rw [heq, hrows]
    exact h.itemCount old hold
  · intro b hb hk
    obtain ⟨old, hold, heq, hrows, hkept⟩ := hsame hb
    rw [heq, hrows]
    exact h.ownedCount old hold (hkept hk)
  · intro b hb hk item hitem hbatch tx htx htxId
    obtain ⟨old, hold, heq, hrows, hkept⟩ := hsame hb
    rw [heq] at hbatch ⊢
    exact h.itemOwned old hold (hkept hk) item hitem hbatch tx htx htxId

theorem Consistent.insertTransaction (h : Consistent db) (tenantId : Option Nat)
    (txRef type : String) (values : Values) (createdAt : Nat) :
    Consistent (db.insertTransaction tenantId txRef type values createdAt) := by
  have hmem {tx : Transaction} (htx : tx ∈ db.transactions ++
      [⟨db.nextTransaction, tenantId, txRef, type, values, createdAt, none, none⟩]) :
      tx ∈ db.transactions ∨ (tx.id = db.nextTransaction ∧ tx.coldArchiveBatchId = none) := by
    rcases mem_concat.mp htx with hold | hnew
    · exact .inl hold
    · rw [hnew]
      exact .inr ⟨rfl, rfl⟩
  refine ⟨?_, ?_, h.batchIds, h.batchNew, h.itemTx, ?_, ?_, h.itemCount, ?_, ?_⟩
  · change ((db.transactions ++ [_]).map Transaction.id).Nodup
    rw [map_append]
    apply nodup_append_fresh h.txIds
    intro hin
    obtain ⟨tx, htx, heq⟩ := mem_map.mp hin
    exact absurd (h.txNew tx htx) (by rw [heq]; exact Nat.lt_irrefl _)
  · intro tx htx
    rcases hmem htx with hold | ⟨hid, _⟩
    · exact Nat.lt_succ_of_lt (h.txNew tx hold)
    · rw [hid]
      exact Nat.lt_succ_self _
  · intro item hitem
    obtain ⟨hnew, hbatch⟩ := h.itemKnown item hitem
    exact ⟨Nat.lt_succ_of_lt hnew, hbatch⟩
  · intro tx htx b hb
    rcases hmem htx with hold | ⟨_, hnone⟩
    · exact h.owned tx hold b hb
    · rw [hnone] at hb
      cases hb
  · intro b hb hkeeps
    change (db.transactions ++ [_]).countP _ = _
    rw [countP_append, h.ownedCount b hb hkeeps]
    rfl
  · intro b hb hkeeps item hitem hbatch tx htx htxId
    rcases hmem htx with hold | ⟨hid, _⟩
    · exact h.itemOwned b hb hkeeps item hitem hbatch tx hold htxId
    · exact absurd (h.itemKnown item hitem).1 (by rw [← htxId, hid]; exact Nat.lt_irrefl _)

/-! ### The statements of the worker -/

/-- An update that asks for statuses only finds the one batch. -/
theorem Consistent.status_of_batchIn (h : Consistent db) (hin : db.batchIn batch allowed = true)
    {b : Batch} (hb : b ∈ db.batches) (hid : b.id = batch) : b.status ∈ allowed := by
  obtain ⟨c, hc, hcid, hstatus⟩ := batchIn_iff.mp hin
  rw [h.batch_eq hb hc (hid.trans hcid.symm)]
  exact hstatus

theorem candidates_mem {skipped : List Nat} (htx : tx ∈ db.candidates config now skipped) :
    tx ∈ db.transactions ∧ tx.isCandidate config now = true := by
  obtain ⟨hmem, hcond⟩ :=
    mem_filter.mp ((mem_insertionSort _).mp (mem_of_mem_take htx))
  exact ⟨hmem, (Bool.and_eq_true_iff.mp hcond).1⟩

theorem Consistent.candidates_nodup (h : Consistent db) (config : Config) (now : Nat)
    (skipped : List Nat) : ((db.candidates config now skipped).map Transaction.id).Nodup := by
  apply List.Nodup.sublist ((take_sublist _ _).map Transaction.id)
  rw [((perm_insertionSort _ _).map Transaction.id).nodup_iff]
  exact h.txIds.sublist (filter_sublist.map Transaction.id)

theorem isCandidate_owner (h : tx.isCandidate config now = true) : tx.coldArchiveBatchId = none :=
  Option.isNone_iff_eq_none.mp (Bool.and_eq_true_iff.mp h).2

theorem isCandidate_tier (h : tx.isCandidate config now = true) : tx.archivedTier = none :=
  Option.isNone_iff_eq_none.mp (Bool.and_eq_true_iff.mp (Bool.and_eq_true_iff.mp h).1).2

theorem candidates_owner (db : Database) (config : Config) (now : Nat) (skipped : List Nat) :
    ∀ tx ∈ db.candidates config now skipped,
      tx ∈ db.transactions ∧ tx.coldArchiveBatchId = none := by
  intro tx htx
  obtain ⟨hmem, hcandidate⟩ := candidates_mem htx
  exact ⟨hmem, isCandidate_owner hcandidate⟩

theorem candidates_tier (db : Database) (config : Config) (now : Nat) (skipped : List Nat) :
    ∀ tx ∈ db.candidates config now skipped,
      tx ∈ db.transactions ∧ tx.archivedTier = none := by
  intro tx htx
  obtain ⟨hmem, hcandidate⟩ := candidates_mem htx
  exact ⟨hmem, isCandidate_tier hcandidate⟩

theorem clashes_eq_false :
    db.clashes chosen = false ↔
      ∀ tx ∈ chosen, ∀ item ∈ db.items, item.transactionId ≠ tx.id := by
  simp [Database.clashes, any_eq_false]

theorem planBatch_eq_some (h : db.planBatch chosen = some after) :
    db.clashes chosen = false ∧
      (db.transactions.countP fun tx => Database.isChosen chosen tx) = chosen.length ∧
      after =
        { db with
          batches := db.batches ++ [⟨db.nextBatch, .planned, chosen.length, none⟩]
          items := db.items ++ chosen.map fun tx => ⟨db.nextBatch, tx.id⟩
          transactions := updateWhere (Database.isChosen chosen)
            (fun tx => { tx with coldArchiveBatchId := some db.nextBatch }) db.transactions
          nextBatch := db.nextBatch + 1 } := by
  unfold Database.planBatch at h
  split at h
  next => cases h
  next hguard =>
    simp only [Bool.or_eq_true, bne_iff_ne, ne_eq, not_or, not_not, Bool.not_eq_true] at hguard
    exact ⟨hguard.1, hguard.2, (Option.some.inj h).symm⟩

theorem isChosen_iff :
    Database.isChosen chosen tx = true ↔
      (∃ c ∈ chosen, c.id = tx.id) ∧ tx.coldArchiveBatchId = none := by
  simp [Database.isChosen, any_eq_true]

/-- Nothing has the identifier of the next batch yet. -/
theorem Consistent.no_next (h : Consistent db) :
    (∀ item ∈ db.items, item.batchId ≠ db.nextBatch) ∧
      ∀ tx ∈ db.transactions, tx.coldArchiveBatchId ≠ some db.nextBatch := by
  have hitems : ∀ item ∈ db.items, item.batchId ≠ db.nextBatch := by
    intro item hitem heq
    obtain ⟨_, b, hb, hid⟩ := h.itemKnown item hitem
    exact absurd (h.batchNew b hb) (by rw [hid, heq]; exact Nat.lt_irrefl _)
  refine ⟨hitems, ?_⟩
  intro tx htx howner
  exact hitems _ (h.owned tx htx _ howner) rfl

theorem Consistent.planBatch (h : Consistent db) (hnodup : (chosen.map Transaction.id).Nodup)
    (hchosen : ∀ tx ∈ chosen, tx ∈ db.transactions ∧ tx.coldArchiveBatchId = none)
    (hplan : db.planBatch chosen = some after) : Consistent after := by
  obtain ⟨hclash, hcount, rfl⟩ := planBatch_eq_some hplan
  have hclash := clashes_eq_false.mp hclash
  obtain ⟨hnoItem, hnoOwner⟩ := h.no_next
  have hids : (updateWhere (Database.isChosen chosen)
      (fun tx => { tx with coldArchiveBatchId := some db.nextBatch }) db.transactions).map
        Transaction.id = db.transactions.map Transaction.id := by
    apply map_updateWhere
    exact fun _ => rfl
  have hmem {tx : Transaction} (htx : tx ∈ updateWhere (Database.isChosen chosen)
      (fun tx => { tx with coldArchiveBatchId := some db.nextBatch }) db.transactions) :
      (∃ c ∈ chosen, c.id = tx.id ∧ tx.coldArchiveBatchId = some db.nextBatch) ∨
        (tx ∈ db.transactions ∧ Database.isChosen chosen tx = false) := by
    rcases mem_updateWhere.mp htx with ⟨old, _, hold, rfl⟩ | ⟨hold, hnot⟩
    · obtain ⟨⟨c, hc, hid⟩, _⟩ := isChosen_iff.mp hold
      exact .inl ⟨c, hc, hid, rfl⟩
    · exact .inr ⟨hold, Bool.eq_false_iff.mpr hnot⟩
  have hbatch {b : Batch} (hb : b ∈ db.batches ++
      [⟨db.nextBatch, .planned, chosen.length, none⟩]) :
      (b ∈ db.batches ∧ b.id ≠ db.nextBatch) ∨
        b = ⟨db.nextBatch, .planned, chosen.length, none⟩ := by
    rcases mem_concat.mp hb with hold | hnew
    · exact .inl ⟨hold, Nat.ne_of_lt (h.batchNew b hold)⟩
    · exact .inr hnew
  refine ⟨?_, ?_, ?_, ?_, ?_, ?_, ?_, ?_, ?_, ?_⟩
  · exact hids ▸ h.txIds
  · intro tx htx
    rcases hmem htx with ⟨c, hc, hid, _⟩ | ⟨hold, _⟩
    · rw [← hid]
      exact h.txNew c (hchosen c hc).1
    · exact h.txNew tx hold
  · change ((db.batches ++ [_]).map Batch.id).Nodup
    rw [map_append]
    apply nodup_append_fresh h.batchIds
    intro hin
    obtain ⟨b, hb, heq⟩ := mem_map.mp hin
    exact absurd (h.batchNew b hb) (by rw [heq]; exact Nat.lt_irrefl _)
  · intro b hb
    rcases hbatch hb with ⟨hold, _⟩ | rfl
    · exact Nat.lt_succ_of_lt (h.batchNew b hold)
    · exact Nat.lt_succ_self _
  · change ((db.items ++ chosen.map _).map Item.transactionId).Nodup
    rw [map_append, map_map]
    refine nodup_append.mpr ⟨h.itemTx, hnodup, ?_⟩
    intro a ha b hb hab
    obtain ⟨item, hitem, rfl⟩ := mem_map.mp ha
    obtain ⟨tx, htx, rfl⟩ := mem_map.mp hb
    exact hclash tx htx item hitem hab
  · intro item hitem
    rcases mem_append.mp hitem with hold | hnew
    · obtain ⟨hlt, b, hb, hid⟩ := h.itemKnown item hold
      exact ⟨hlt, b, mem_append_left _ hb, hid⟩
    · obtain ⟨tx, htx, rfl⟩ := mem_map.mp hnew
      exact ⟨h.txNew tx (hchosen tx htx).1, _, mem_concat_self, rfl⟩
  · intro tx htx b howner
    rcases hmem htx with ⟨c, hc, hid, hnew⟩ | ⟨hold, _⟩
    · obtain rfl := Option.some.inj (hnew.symm.trans howner)
      rw [← hid]
      exact mem_append_right _ (mem_map.mpr ⟨c, hc, rfl⟩)
    · exact mem_append_left _ (h.owned tx hold b howner)
  · intro b hb
    change (db.items ++ chosen.map _).countP _ = _
    rw [countP_append, countP_map]
    rcases hbatch hb with ⟨hold, hne⟩ | rfl
    · have hnone : chosen.countP ((fun item : Item => item.batchId == b.id) ∘
          fun tx => ⟨db.nextBatch, tx.id⟩) = 0 := by
        rw [countP_eq_zero]
        intro tx _ heq
        exact hne (beq_iff_eq.mp heq).symm
      rw [hnone, h.itemCount b hold, Nat.add_zero]
    · have hnone : (db.items.countP fun item => item.batchId == db.nextBatch) = 0 := by
        rw [countP_eq_zero]
        intro item hitem heq
        exact hnoItem item hitem (beq_iff_eq.mp heq)
      have hall : chosen.countP ((fun item : Item => item.batchId == db.nextBatch) ∘
          fun tx => ⟨db.nextBatch, tx.id⟩) = chosen.length := by
        rw [countP_eq_length]
        intro tx _
        exact beq_self_eq_true _
      rw [hnone, hall, Nat.zero_add]
  · intro b hb hkeeps
    unfold updateWhere
    rw [countP_map]
    rcases hbatch hb with ⟨hold, hne⟩ | rfl
    · rw [← h.ownedCount b hold hkeeps]
      apply countP_congr
      intro tx htx
      change (if _ then _ else tx : Transaction).isOwnedBy b.id = true ↔ _
      split
      next hchosenTx =>
        rw [isOwnedBy_iff, isOwnedBy_iff, (isChosen_iff.mp hchosenTx).2]
        constructor
        · intro howner
          exact absurd (Option.some.inj howner).symm hne
        · intro howner
          cases howner
      next => exact Iff.rfl
    · rw [← hcount]
      apply countP_congr
      intro tx htx
      change (if _ then _ else tx : Transaction).isOwnedBy db.nextBatch = true ↔ _
      split
      next hchosenTx =>
        rw [isOwnedBy_iff]
        exact ⟨fun _ => hchosenTx, fun _ => rfl⟩
      next hnot =>
        rw [isOwnedBy_iff]
        exact ⟨fun howner => absurd howner (hnoOwner tx htx), fun hc => absurd hc hnot⟩
  · intro b hb hkeeps item hitem hitemBatch tx htx htxId
    rcases mem_append.mp hitem with holdItem | hnewItem
    · rcases hbatch hb with ⟨hold, hne⟩ | rfl
      · rcases hmem htx with ⟨c, hc, hid, _⟩ | ⟨holdTx, _⟩
        · exact absurd (htxId.symm.trans hid.symm) (hclash c hc item holdItem)
        · exact h.itemOwned b hold hkeeps item holdItem hitemBatch tx holdTx htxId
      · exact absurd hitemBatch (hnoItem item holdItem)
    · obtain ⟨c, hc, rfl⟩ := mem_map.mp hnewItem
      rw [← hitemBatch]
      rcases hmem htx with ⟨_, _, _, howner⟩ | ⟨holdTx, hnot⟩
      · exact howner
      · have hsame := inj_on_of_nodup_map h.txIds holdTx (hchosen c hc).1 htxId
        rw [hsame] at hnot
        have hin := isChosen_iff.mpr ⟨⟨c, hc, rfl⟩, (hchosen c hc).2⟩
        rw [hnot] at hin
        cases hin

theorem Consistent.setStatus (h : Consistent db) (hin : db.batchIn batch allowed = true)
    (hallowed : ∀ status ∈ allowed, status.keepsRows = true) (status : BatchStatus) :
    Consistent (db.setStatus batch status) := by
  apply h.rewriteBatch batch
  · exact fun _ => rfl
  · exact fun _ => rfl
  · intro b hb hid _
    exact hallowed _ (h.status_of_batchIn hin hb hid)

theorem markUploading_eq_some {key : String} (h : db.markUploading batch key = some after) :
    db.batchIn batch [.planned] = true ∧
      after = { db with batches := db.updateBatch batch fun b =>
        { b with status := .uploading, encryptionKeyId := some key } } := by
  unfold Database.markUploading at h
  split at h
  next hin => exact ⟨hin, (Option.some.inj h).symm⟩
  next => cases h

theorem Consistent.markUploading (h : Consistent db) {key : String}
    (hmark : db.markUploading batch key = some after) : Consistent after := by
  obtain ⟨hin, rfl⟩ := markUploading_eq_some hmark
  apply h.rewriteBatch batch
  · exact fun _ => rfl
  · exact fun _ => rfl
  · intro b hb hid _
    rw [mem_singleton.mp (h.status_of_batchIn hin hb hid)]
    rfl

theorem commitVerified_eq_some {rowCount : Nat} (h : db.commitVerified batch rowCount = some
    after) :
    db.batchIn batch [.uploading] = true ∧
      (db.transactions.countP fun tx => Database.isMarkedBy batch tx) = rowCount ∧
      after = { db.setStatus batch .committed with
        transactions := updateWhere (Database.isMarkedBy batch)
          (fun tx => { tx with archivedTier := some .cold }) db.transactions } := by
  unfold Database.commitVerified at h
  split at h
  next hguard =>
    obtain ⟨hin, hcount⟩ := Bool.and_eq_true_iff.mp hguard
    exact ⟨hin, beq_iff_eq.mp hcount, (Option.some.inj h).symm⟩
  next => cases h

theorem Consistent.commitVerified (h : Consistent db) {rowCount : Nat}
    (hcommit : db.commitVerified batch rowCount = some after) : Consistent after := by
  obtain ⟨hin, _, rfl⟩ := commitVerified_eq_some hcommit
  have hstatus : Consistent (db.setStatus batch .committed) := by
    apply h.setStatus hin
    intro status hmem
    rw [mem_singleton.mp hmem]
    rfl
  apply hstatus.rewriteTransactions
  · exact fun _ => rfl
  · exact fun _ => rfl

theorem Consistent.markFailed (h : Consistent db) (batch : Nat) :
    Consistent (db.markFailed batch) := by
  unfold Database.markFailed
  split
  next => exact h
  next =>
    apply h.rewriteBatch batch
    · exact fun _ => rfl
    · exact fun _ => rfl
    · intro b _ _ hkeeps
      cases hkeeps

theorem quarantineBatch_eq_some (h : db.quarantineBatch batch = some after) :
    db.batchIn batch [.uploading, .verified] = true ∧ after = db.setStatus batch .quarantined := by
  unfold Database.quarantineBatch at h
  split at h
  next hin => exact ⟨hin, (Option.some.inj h).symm⟩
  next => cases h

theorem Consistent.quarantineBatch (h : Consistent db)
    (hquarantine : db.quarantineBatch batch = some after) : Consistent after := by
  obtain ⟨hin, rfl⟩ := quarantineBatch_eq_some hquarantine
  exact h.setStatus hin (by decide) _

theorem releaseUnuploadedBatch_eq_some (h : db.releaseUnuploadedBatch batch = some after) :
    db.batchIn batch [.planned, .uploading] = true ∧
      after = { db.setStatus batch .failed with
        transactions := updateWhere (Database.isMarkedBy batch)
          (fun tx => { tx with coldArchiveBatchId := none }) db.transactions } := by
  unfold Database.releaseUnuploadedBatch at h
  split at h
  next hin => exact ⟨hin, (Option.some.inj h).symm⟩
  next => cases h

theorem Consistent.releaseUnuploadedBatch (h : Consistent db)
    (hrelease : db.releaseUnuploadedBatch batch = some after) : Consistent after := by
  obtain ⟨hin, rfl⟩ := releaseUnuploadedBatch_eq_some hrelease
  have hstatus : Consistent (db.setStatus batch .failed) := by
    exact h.setStatus hin (by decide) _
  have hids : (updateWhere (Database.isMarkedBy batch)
      (fun tx => { tx with coldArchiveBatchId := none }) db.transactions).map Transaction.id =
        db.transactions.map Transaction.id := by
    apply map_updateWhere
    exact fun _ => rfl
  have hmem {tx : Transaction} (htx : tx ∈ updateWhere (Database.isMarkedBy batch)
      (fun tx => { tx with coldArchiveBatchId := none }) db.transactions) :
      (tx.coldArchiveBatchId = none ∧
        ∃ old ∈ db.transactions, old.id = tx.id ∧ old.coldArchiveBatchId = some batch) ∨
          tx ∈ db.transactions := by
    rcases mem_updateWhere.mp htx with ⟨old, hold, hmarked, rfl⟩ | ⟨hold, _⟩
    · exact .inl ⟨rfl, old, hold, rfl, (isMarkedBy_iff.mp hmarked).1⟩
    · exact .inr hold
  -- A batch that keeps its rows is another one.
  have hother {b : Batch} (hb : b ∈ (db.setStatus batch .failed).batches)
      (hkeeps : b.status.keepsRows = true) : b.id ≠ batch := by
    rcases mem_updateWhere.mp hb with ⟨old, _, _, rfl⟩ | ⟨_, hnot⟩
    · cases hkeeps
    · intro hid
      exact hnot (beq_iff_eq.mpr hid)
  refine ⟨?_, ?_, hstatus.batchIds, hstatus.batchNew, h.itemTx, hstatus.itemKnown, ?_,
    hstatus.itemCount, ?_, ?_⟩
  · exact hids ▸ h.txIds
  · intro tx htx
    rcases hmem htx with ⟨_, old, hold, hid, _⟩ | hold
    · rw [← hid]
      exact h.txNew old hold
    · exact h.txNew tx hold
  · intro tx htx b howner
    rcases hmem htx with ⟨hnone, _⟩ | hold
    · rw [hnone] at howner
      cases howner
    · exact h.owned tx hold b howner
  · intro b hb hkeeps
    have hne := hother hb hkeeps
    rw [← hstatus.ownedCount b hb hkeeps]
    unfold updateWhere
    rw [countP_map]
    apply countP_congr
    intro tx _
    change (if _ then _ else tx : Transaction).isOwnedBy b.id = true ↔ _
    split
    next hmarked =>
      rw [isOwnedBy_iff, isOwnedBy_iff, (isMarkedBy_iff.mp hmarked).1]
      constructor
      · intro howner
        cases howner
      · intro howner
        exact absurd (Option.some.inj howner).symm hne
    next => exact Iff.rfl
  · intro b hb hkeeps item hitem hbatch tx htx htxId
    rcases hmem htx with ⟨_, old, hold, hid, howner⟩ | hold
    · have hnow := hstatus.itemOwned b hb hkeeps item hitem hbatch old hold (hid.trans htxId)
      rw [howner] at hnow
      exact absurd (Option.some.inj hnow).symm (hother hb hkeeps)
    · exact hstatus.itemOwned b hb hkeeps item hitem hbatch tx hold htxId

end Bis.Archive
