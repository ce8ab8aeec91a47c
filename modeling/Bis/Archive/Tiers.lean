import Bis.Archive.Committed

/-!
The warm archival and the cold archive on the same rows. The cold archive takes only rows
without a tier, so a row that has been marked warm is never archived cold; and the mark
finds the rows of planned batches, which then fail their count, and rows that are cold.
Everything goes well exactly when the marks come to nothing.
-/

namespace Bis.Archive

open Bis.Relation Bis.Transition List

def inFlightStatuses : List BatchStatus := [.planned, .uploading, .verified]

structure Composes (config : Config) (s : System) : Prop where
  selectable : ∀ tx ∈ s.db.transactions, ∀ now, tx.values.status.isTerminal = true →
    tx.createdAt + config.coldAgeDays * day < now →
      tx.archivedTier = some .cold ∨ tx.isDue config.coldAgeDays now = true
  cold : ∀ c ∈ s.commits, ∀ row ∈ c.rows, ∀ tx ∈ s.db.transactions, tx.id = row.id →
    tx.archivedTier = some .cold
  counts : ∀ b ∈ s.db.batches, b.status ∈ inFlightStatuses →
    (s.db.transactions.countP fun tx => Database.isMarkedBy b.id tx) = b.rowCount

/-- The mark of a row comes to nothing. -/
def Transaction.mayBeWarm (db : Database) (tx : Transaction) : Bool :=
  !tx.values.status.isTerminal && !(tx.archivedTier == some .cold) &&
    tx.coldArchiveBatchId.all fun b => !db.batchIn b inFlightStatuses

/-- Marks of the warm archival come to nothing, and a row that is warm does not become final. -/
def System.warmsIdly (s : System) (a : Label) : Bool :=
  (match a with
    | .markWarm run true =>
      (s.warmRuns[run]?).all fun ids => s.db.transactions.all fun tx =>
        !(ids.take warmChunk).contains tx.id || tx.mayBeWarm s.db
    | _ => true) &&
  a.change.all fun (p, f) => s.db.transactions.all fun tx =>
    !(p tx && tx.archivedTier == some .warm) || !(f tx.values).status.isTerminal

/-- A warm row is not final. -/
def Warmless (db : Database) : Prop :=
  ∀ tx ∈ db.transactions, tx.archivedTier = some .warm → tx.values.status.isTerminal = false

/-- What a batch in flight owns has no tier. -/
def FlightFree (db : Database) : Prop :=
  ∀ tx ∈ db.transactions, ∀ b, tx.coldArchiveBatchId = some b →
    db.batchIn b inFlightStatuses = true → tx.archivedTier = none

def ColdKept (s : System) : Prop :=
  ∀ c ∈ s.commits, ∀ row ∈ c.rows, ∀ tx ∈ s.db.transactions, tx.id = row.id →
    tx.archivedTier = some .cold

instance (s : System) : Decidable (ColdKept s) :=
  inferInstanceAs (Decidable (∀ c ∈ s.commits, ∀ row ∈ c.rows, ∀ tx ∈ s.db.transactions, _))

/-- Every cold row is on record. -/
structure Recorded (s : System) : Prop where
  tied : Tied s
  known : ∀ c ∈ s.commits, ∀ row ∈ c.rows, row.id < s.db.nextTransaction
  cold : ∀ tx ∈ s.db.transactions, tx.archivedTier = some .cold →
    ∃ c ∈ s.commits, ∃ row ∈ c.rows, row.id = tx.id

variable {config : Config} {s t : System} {a : Label} {db : Database}

theorem selectable_iff : (∀ tx ∈ db.transactions, ∀ now, tx.values.status.isTerminal = true →
      tx.createdAt + config.coldAgeDays * day < now →
        tx.archivedTier = some .cold ∨ tx.isDue config.coldAgeDays now = true) ↔ Warmless db := by
  constructor
  · intro h tx htx hwarm
    apply Bool.eq_false_iff.mpr
    intro hterminal
    rcases h tx htx _ hterminal (Nat.lt_succ_self _) with hcold | hdue
    · rw [hwarm] at hcold
      cases hcold
    · have hnone := (Bool.and_eq_true_iff.mp hdue).2
      rw [hwarm] at hnone
      cases hnone
  · intro h tx htx now hterminal hage
    cases htier : tx.archivedTier with
    | none =>
      refine .inr ?_
      rw [Transaction.isDue, hterminal, decide_eq_true hage, htier]
      rfl
    | some tier =>
      cases tier with
      | cold => exact .inl rfl
      | warm =>
        rw [h tx htx htier] at hterminal
        cases hterminal

theorem counts_iff (h : Consistent db) : (∀ b ∈ db.batches, b.status ∈ inFlightStatuses →
      (db.transactions.countP fun tx => Database.isMarkedBy b.id tx) = b.rowCount) ↔
    FlightFree db := by
  have hkeeps {b : Batch} (hstatus : b.status ∈ inFlightStatuses) : b.status.keepsRows = true := by
    simp only [inFlightStatuses, mem_cons, not_mem_nil, or_false] at hstatus
    rcases hstatus with hplanned | huploading | hverified
    · rw [hplanned]
      rfl
    · rw [huploading]
      rfl
    · rw [hverified]
      rfl
  constructor
  · intro hcounts tx htx batch howner hin
    obtain ⟨b, hb, rfl, hstatus⟩ := batchIn_iff.mp hin
    have hsame := (hcounts b hb hstatus).trans (h.ownedCount b hb (hkeeps hstatus)).symm
    have hmarked : Database.isMarkedBy b.id tx = true := by
      apply @of_countP_eq _ (Database.isMarkedBy b.id) (fun tx => tx.isOwnedBy b.id) _ ?_ hsame _
        htx (isOwnedBy_iff.mpr howner)
      exact fun tx hmark => isOwnedBy_iff.mpr (isMarkedBy_iff.mp hmark).1
    exact (isMarkedBy_iff.mp hmarked).2
  · intro hfree b hb hstatus
    rw [← h.ownedCount b hb (hkeeps hstatus)]
    apply countP_congr
    intro tx htx
    rw [isMarkedBy_iff, isOwnedBy_iff]
    constructor
    · exact fun hmarked => hmarked.1
    · intro howner
      exact ⟨howner, hfree tx htx b.id howner (batchIn_iff.mpr ⟨b, hb, rfl, hstatus⟩)⟩

theorem Recorded.composes_iff (h : Recorded s) :
    Composes config s ↔ Warmless s.db ∧ ColdKept s ∧ FlightFree s.db := by
  constructor
  · intro hs
    exact ⟨selectable_iff.mp hs.selectable, hs.cold, (counts_iff h.tied.consistent).mp hs.counts⟩
  · rintro ⟨hwarmless, hcold, hfree⟩
    exact ⟨selectable_iff.mpr hwarmless, hcold, (counts_iff h.tied.consistent).mpr hfree⟩

/-! ### Tiers -/

/-- The tiers stay as they are, and new rows have none. -/
def TiersKept (s : System) (a : Label) (t : System) : Prop :=
  ∀ tx ∈ t.db.transactions,
    (∃ old ∈ s.db.transactions, old.id = tx.id ∧ old.archivedTier = tx.archivedTier ∧
      (old.values = tx.values ∨
        ∃ p f, a.change = some (p, f) ∧ p old = true ∧ tx.values = f old.values)) ∨
    (tx.archivedTier = none ∧ tx.id = s.db.nextTransaction)

/-- What a step does to the tiers. -/
inductive TierEffect (s : System) (a : Label) (t : System) : Prop where
  | kept (hcommits : t.commits = s.commits)
      (hnext : s.db.nextTransaction ≤ t.db.nextTransaction) (htiers : TiersKept s a t)
  | committed (batch : Nat)
      (hcommits : t.commits = s.commits ++
        [⟨batch, s.db.transactions.filter (Database.isMarkedBy batch)⟩])
      (hnext : t.db.nextTransaction = s.db.nextTransaction)
      (htransactions : t.db.transactions = updateWhere (Database.isMarkedBy batch)
        (fun tx => { tx with archivedTier := some .cold }) s.db.transactions)
  | warmed (run : Nat) (ids : List Nat) (hlabel : a = .markWarm run true)
      (hrun : s.warmRuns[run]? = some ids) (hcommits : t.commits = s.commits)
      (hdb : t.db = s.db.markWarm (ids.take warmChunk))

variable {p : Transaction → Bool} {f : Values → Values} {tx : Transaction} {after : Database}

theorem tiersKept_updateWhere {f : Transaction → Transaction} (hid : ∀ tx, (f tx).id = tx.id)
    (htier : ∀ tx, (f tx).archivedTier = tx.archivedTier)
    (hvalues : ∀ tx, (f tx).values = tx.values)
    (htransactions : t.db.transactions = updateWhere p f s.db.transactions) : TiersKept s a t := by
  intro tx htx
  rw [htransactions] at htx
  rcases mem_updateWhere.mp htx with ⟨old, hold, _, rfl⟩ | ⟨hold, _⟩
  · exact .inl ⟨old, hold, (hid old).symm, (htier old).symm, .inl (hvalues old).symm⟩
  · exact .inl ⟨tx, hold, rfl, rfl, .inl rfl⟩

theorem tiersKept_same (htransactions : t.db.transactions = s.db.transactions) :
    TiersKept s a t := by
  intro tx htx
  exact .inl ⟨tx, htransactions ▸ htx, rfl, rfl, .inl rfl⟩

theorem tiersKept_values (hchange : a.change = some (p, f))
    (htx : tx ∈ (s.db.updateValues p f).transactions) :
    ∃ old ∈ s.db.transactions, old.id = tx.id ∧ old.archivedTier = tx.archivedTier ∧
      (old.values = tx.values ∨
        ∃ p f, a.change = some (p, f) ∧ p old = true ∧ tx.values = f old.values) := by
  rcases mem_updateWhere.mp htx with ⟨old, hold, hp, rfl⟩ | ⟨hold, _⟩
  · exact ⟨old, hold, rfl, rfl, .inr ⟨p, f, hchange, hp, rfl⟩⟩
  · exact ⟨tx, hold, rfl, rfl, .inl rfl⟩

theorem tier_effect (ht : System.step config s a = some t) : TierEffect s a t := by
  cases step_effect ht with
  | moved _ _ ht | stored _ _ _ _ ht | manifested _ _ _ _ ht | noted _ _ ht =>
    exact ht ▸ .kept rfl (Nat.le_refl _) (tiersKept_same rfl)
  | values p f hchange ht =>
    subst ht
    refine .kept rfl (Nat.le_refl _) ?_
    exact fun tx htx => .inl (tiersKept_values hchange htx)
  | inserted tenantId txRef type values createdAt ht =>
    subst ht
    refine .kept rfl (Nat.le_succ _) ?_
    intro tx htx
    rcases mem_concat.mp htx with hold | hnew
    · exact .inl ⟨tx, hold, rfl, rfl, .inl rfl⟩
    · rw [hnew]
      exact .inr ⟨rfl, rfl⟩
  | reversed p f hchange tenantId txRef type values createdAt _ ht =>
    subst ht
    refine .kept rfl (Nat.le_succ _) ?_
    intro tx htx
    rcases mem_concat.mp htx with hold | hnew
    · exact .inl (tiersKept_values hchange hold)
    · rw [hnew]
      exact .inr ⟨rfl, rfl⟩
  | planned _ _ _ _ _ hplan _ ht =>
    subst ht
    obtain ⟨_, _, rfl⟩ := planBatch_eq_some hplan
    refine .kept rfl (Nat.le_refl _) ?_
    apply tiersKept_updateWhere ?_ ?_ ?_ rfl
    · exact fun _ => rfl
    · exact fun _ => rfl
    · exact fun _ => rfl
  | uploading _ _ _ _ _ hmark _ ht =>
    subst ht
    obtain ⟨_, rfl⟩ := markUploading_eq_some hmark
    exact .kept rfl (Nat.le_refl _) (tiersKept_same rfl)
  | quarantined _ _ _ _ _ hquarantine _ ht =>
    subst ht
    obtain ⟨_, rfl⟩ := quarantineBatch_eq_some hquarantine
    exact .kept rfl (Nat.le_refl _) (tiersKept_same rfl)
  | released _ _ _ _ _ _ _ _ _ _ _ _ hrelease _ ht =>
    subst ht
    obtain ⟨_, rfl⟩ := releaseUnuploadedBatch_eq_some hrelease
    refine .kept rfl (Nat.le_refl _) ?_
    apply tiersKept_updateWhere ?_ ?_ ?_ rfl
    · exact fun _ => rfl
    · exact fun _ => rfl
    · exact fun _ => rfl
  | committed batch _ _ _ _ hcommit _ ht =>
    subst ht
    obtain ⟨_, _, rfl⟩ := commitVerified_eq_some hcommit
    exact .committed batch.id rfl rfl rfl
  | failed batch _ _ ht =>
    subst ht
    unfold Database.markFailed
    split
    next => exact .kept rfl (Nat.le_refl _) (tiersKept_same rfl)
    next => exact .kept rfl (Nat.le_refl _) (tiersKept_same rfl)
  | warmed run ids hlabel hrun _ ht =>
    subst ht
    exact .warmed run ids hlabel hrun rfl rfl

theorem Recorded.step (h : Recorded s) (ht : System.step config s a = some t) : Recorded t := by
  refine ⟨h.tied.step ht, ?_, ?_⟩
  · cases tier_effect ht with
    | kept hcommits hnext _ =>
      rw [hcommits]
      exact fun c hc row hrow => Nat.lt_of_lt_of_le (h.known c hc row hrow) hnext
    | committed batch hcommits hnext _ =>
      rw [hcommits, hnext]
      intro c hc row hrow
      rcases mem_concat.mp hc with hold | hnew
      · exact h.known c hold row hrow
      · rw [hnew] at hrow
        exact h.tied.consistent.txNew row (mem_filter.mp hrow).1
    | warmed _ _ _ _ hcommits hdb =>
      rw [hcommits, hdb]
      exact h.known
  · cases tier_effect ht with
    | kept hcommits _ htiers =>
      rw [hcommits]
      intro tx htx hcold
      rcases htiers tx htx with ⟨old, hold, hid, htier, _⟩ | ⟨hnone, _⟩
      · exact hid ▸ h.cold old hold (htier.trans hcold)
      · rw [hnone] at hcold
        cases hcold
    | committed batch hcommits _ htransactions =>
      rw [hcommits, htransactions]
      intro tx htx hcold
      rcases mem_updateWhere.mp htx with ⟨old, hmem, hold, rfl⟩ | ⟨hold, _⟩
      · exact ⟨_, mem_concat_self, old, mem_filter.mpr ⟨hmem, hold⟩, rfl⟩
      · obtain ⟨c, hc, hrow⟩ := h.cold tx hold hcold
        exact ⟨c, mem_append_left _ hc, hrow⟩
    | warmed _ ids _ _ hcommits hdb =>
      rw [hcommits, hdb]
      intro tx htx hcold
      rcases mem_updateWhere.mp htx with ⟨old, _, _, rfl⟩ | ⟨hold, _⟩
      · cases hcold
      · exact h.cold tx hold hcold

variable {run batch : Nat}

/-- What the condition says of a mark. -/
theorem mayBeWarm_of {ids : List Nat} (hrun : s.warmRuns[run]? = some ids) :
    s.warmsIdly (.markWarm run true) = true ↔ ∀ tx ∈ s.db.transactions,
      (ids.take warmChunk).contains tx.id = true → tx.mayBeWarm s.db = true := by
  simp only [System.warmsIdly, hrun, Label.change, Option.all_some, Option.all_none,
    Bool.and_true, all_eq_true, Bool.or_eq_true, Bool.not_eq_true', ← Bool.not_eq_true]
  exact forall_congr' fun tx => forall_congr' fun _ => imp_iff_not_or.symm

theorem mayBeWarm_iff : tx.mayBeWarm db = true ↔
    tx.values.status.isTerminal = false ∧ tx.archivedTier ≠ some .cold ∧
      ∀ b, tx.coldArchiveBatchId = some b → db.batchIn b inFlightStatuses = false := by
  cases howner : tx.coldArchiveBatchId with
  | none => simp [Transaction.mayBeWarm, howner]
  | some b => simp [Transaction.mayBeWarm, howner, and_assoc]

/-- What it says of a writer. -/
theorem not_terminal_of (hkeeps : s.warmsIdly a = true) (hchange : a.change = some (p, f))
    (htx : tx ∈ s.db.transactions) (hp : p tx = true) (hwarm : tx.archivedTier = some .warm) :
    (f tx.values).status.isTerminal = false := by
  have hrows := (Bool.and_eq_true_iff.mp hkeeps).2
  rw [hchange, Option.all_some] at hrows
  have hrow := all_eq_true.mp hrows tx htx
  rw [hp, hwarm] at hrow
  simpa using hrow

theorem Warmless.step (h : Warmless s.db) (hkeeps : s.warmsIdly a = true)
    (ht : System.step config s a = some t) : Warmless t.db := by
  cases tier_effect ht with
  | kept _ _ htiers =>
    intro tx htx hwarm
    rcases htiers tx htx with ⟨old, hold, _, htier, hvalues⟩ | ⟨hnone, _⟩
    · rcases hvalues with hsame | ⟨p, f, hchange, hp, hvalues⟩
      · exact hsame ▸ h old hold (htier.trans hwarm)
      · exact hvalues ▸ not_terminal_of hkeeps hchange hold hp (htier.trans hwarm)
    · rw [hnone] at hwarm
      cases hwarm
  | committed batch _ _ htransactions =>
    rw [Warmless, htransactions]
    intro tx htx hwarm
    rcases mem_updateWhere.mp htx with ⟨old, _, _, rfl⟩ | ⟨hold, _⟩
    · cases hwarm
    · exact h tx hold hwarm
  | warmed run ids hlabel hrun _ hdb =>
    subst hlabel
    rw [hdb]
    intro tx htx hwarm
    rcases mem_updateWhere.mp htx with ⟨old, hmem, hold, rfl⟩ | ⟨hold, _⟩
    · exact (mayBeWarm_iff.mp ((mayBeWarm_of hrun).mp hkeeps old hmem hold)).1
    · exact h tx hold hwarm

theorem ColdKept.step (h : ColdKept s) (hrecorded : Recorded s) (hkeeps : s.warmsIdly a = true)
    (ht : System.step config s a = some t) : ColdKept t := by
  cases tier_effect ht with
  | kept hcommits _ htiers =>
    intro c hc row hrow tx htx hid
    rw [hcommits] at hc
    rcases htiers tx htx with ⟨old, hold, holdId, htier, _⟩ | ⟨_, hnew⟩
    · exact htier ▸ h c hc row hrow old hold (holdId.trans hid)
    · have hlt := hrecorded.known c hc row hrow
      rw [← hid, hnew] at hlt
      exact absurd hlt (Nat.lt_irrefl _)
  | committed batch hcommits _ htransactions =>
    intro c hc row hrow tx htx hid
    rw [htransactions] at htx
    rcases mem_updateWhere.mp htx with ⟨old, _, _, rfl⟩ | ⟨hold, hnot⟩
    · rfl
    · rw [hcommits] at hc
      rcases mem_concat.mp hc with hc | hnew
      · exact h c hc row hrow tx hold hid
      · rw [hnew] at hrow
        obtain ⟨hmem, hmarked⟩ := mem_filter.mp hrow
        obtain rfl := inj_on_of_nodup_map hrecorded.tied.consistent.txIds hold hmem hid
        exact absurd hmarked hnot
  | warmed run ids hlabel hrun hcommits hdb =>
    subst hlabel
    intro c hc row hrow tx htx hid
    rw [hcommits] at hc
    rw [hdb] at htx
    rcases mem_updateWhere.mp htx with ⟨old, hmem, hold, rfl⟩ | ⟨hold, _⟩
    · have hmay := mayBeWarm_iff.mp ((mayBeWarm_of hrun).mp hkeeps old hmem hold)
      exact absurd (h c hc row hrow old hmem hid) hmay.2.1
    · exact h c hc row hrow tx hold hid

/-! ### Batches in flight -/

/-- Nobody gets a tier or another owner, and no batch begins. -/
theorem FlightFree.rewrite (h : FlightFree db)
    (htx : ∀ tx ∈ after.transactions, ∀ b, tx.coldArchiveBatchId = some b → ∃ old ∈ db.transactions,
      old.archivedTier = tx.archivedTier ∧ old.coldArchiveBatchId = some b)
    (hin : ∀ b, after.batchIn b inFlightStatuses = true → db.batchIn b inFlightStatuses = true) :
    FlightFree after := by
  intro tx hmem b howner hflight
  obtain ⟨old, hold, htier, holdOwner⟩ := htx tx hmem b howner
  exact htier ▸ h old hold b holdOwner (hin b hflight)

theorem inFlight_updateBatch {batch : Nat} {f : Batch → Batch} {status : BatchStatus}
    (hid : ∀ b, (f b).id = b.id) (hstatus : ∀ b, (f b).status = status)
    (hflight : status ∈ inFlightStatuses → db.batchIn batch inFlightStatuses = true) (b : Nat)
    (hin : Database.batchIn { db with batches := db.updateBatch batch f } b inFlightStatuses =
      true) : db.batchIn b inFlightStatuses = true := by
  rcases (batchIn_status hid hstatus b inFlightStatuses).mp hin with ⟨rfl, hmem, _⟩ | ⟨_, hwas⟩
  · exact hflight hmem
  · exact hwas

theorem FlightFree.updateBatch (h : FlightFree db) {f : Batch → Batch} {status : BatchStatus}
    (hid : ∀ b, (f b).id = b.id) (hstatus : ∀ b, (f b).status = status)
    (hflight : status ∈ inFlightStatuses → db.batchIn batch inFlightStatuses = true) :
    FlightFree { db with batches := db.updateBatch batch f } := by
  apply h.rewrite
  · exact fun tx htx b howner => ⟨tx, htx, rfl, howner⟩
  · exact inFlight_updateBatch hid hstatus hflight

theorem FlightFree.updateValues (h : FlightFree db) (p : Transaction → Bool)
    (f : Values → Values) : FlightFree (db.updateValues p f) := by
  apply h.rewrite
  · intro tx htx b howner
    rcases mem_updateWhere.mp htx with ⟨old, hold, _, rfl⟩ | ⟨hold, _⟩
    · exact ⟨old, hold, rfl, howner⟩
    · exact ⟨tx, hold, rfl, howner⟩
  · exact fun _ hin => hin

theorem FlightFree.insertTransaction (h : FlightFree db) (tenantId : Option Nat)
    (txRef type : String) (values : Values) (createdAt : Nat) :
    FlightFree (db.insertTransaction tenantId txRef type values createdAt) := by
  intro tx htx b howner hin
  rcases mem_concat.mp htx with hold | hnew
  · exact h tx hold b howner hin
  · rw [hnew]

theorem FlightFree.planBatch (h : FlightFree db) (hconsistent : Consistent db)
    {chosen : List Transaction}
    (hchosen : ∀ tx ∈ chosen, tx ∈ db.transactions ∧ tx.archivedTier = none)
    (hplan : db.planBatch chosen = some after) : FlightFree after := by
  obtain ⟨_, _, rfl⟩ := planBatch_eq_some hplan
  intro tx htx b howner hin
  rcases mem_updateWhere.mp htx with ⟨old, hmem, hold, rfl⟩ | ⟨hold, _⟩
  · obtain ⟨⟨c, hc, hid⟩, _⟩ := isChosen_iff.mp hold
    obtain rfl := inj_on_of_nodup_map hconsistent.txIds (hchosen c hc).1 hmem hid
    exact (hchosen c hc).2
  · rcases (@batchIn_append db _ b inFlightStatuses).mp hin with hwas | ⟨hnext, _⟩
    · exact h tx hold b howner hwas
    · obtain rfl : db.nextBatch = b := hnext
      exact absurd howner (hconsistent.no_next.2 tx hold)

theorem FlightFree.commitVerified (h : FlightFree db) {rowCount : Nat}
    (hcommit : db.commitVerified batch rowCount = some after) : FlightFree after := by
  obtain ⟨_, _, rfl⟩ := commitVerified_eq_some hcommit
  have hin := @batchIn_status db batch (fun b => { b with status := .committed }) .committed
    (fun _ => rfl) (fun _ => rfl)
  intro tx htx b howner hflight
  rcases (hin b inFlightStatuses).mp hflight with ⟨_, hmem, _⟩ | ⟨hne, hwas⟩
  · exact absurd hmem (by decide)
  · rcases mem_updateWhere.mp htx with ⟨old, _, hold, rfl⟩ | ⟨hold, _⟩
    · exact absurd (Option.some.inj ((isMarkedBy_iff.mp hold).1.symm.trans howner)).symm hne
    · exact h tx hold b howner hwas

theorem FlightFree.releaseUnuploadedBatch (h : FlightFree db)
    (hrelease : db.releaseUnuploadedBatch batch = some after) : FlightFree after := by
  obtain ⟨_, rfl⟩ := releaseUnuploadedBatch_eq_some hrelease
  apply h.rewrite
  · intro tx htx b howner
    rcases mem_updateWhere.mp htx with ⟨old, _, _, rfl⟩ | ⟨hold, _⟩
    · cases howner
    · exact ⟨tx, hold, rfl, howner⟩
  · apply @inFlight_updateBatch db _ (fun b => { b with status := .failed })
    · exact fun _ => rfl
    · exact fun _ => rfl
    · exact fun hmem => absurd hmem (by decide)

theorem FlightFree.step (h : FlightFree s.db) (hconsistent : Consistent s.db)
    (hkeeps : s.warmsIdly a = true) (ht : System.step config s a = some t) : FlightFree t.db := by
  cases step_effect ht with
  | moved _ _ ht | stored _ _ _ _ ht | manifested _ _ _ _ ht | noted _ _ ht => exact ht ▸ h
  | values p f _ ht => exact ht ▸ h.updateValues p f
  | inserted tenantId txRef type values createdAt ht =>
    exact ht ▸ h.insertTransaction tenantId txRef type values createdAt
  | reversed p f _ tenantId txRef type values createdAt _ ht =>
    exact ht ▸ (h.updateValues p f).insertTransaction tenantId txRef type values createdAt
  | planned now skipped _ _ _ hplan _ ht =>
    subst ht
    exact h.planBatch hconsistent (candidates_tier s.db config now skipped) hplan
  | uploading batch key _ _ _ hmark _ ht =>
    subst ht
    obtain ⟨hin, rfl⟩ := markUploading_eq_some hmark
    apply h.updateBatch
    · exact fun _ => rfl
    · exact fun _ => rfl
    · intro _
      obtain ⟨b, hb, hid, hstatus⟩ := batchIn_iff.mp hin
      refine batchIn_iff.mpr ⟨b, hb, hid, ?_⟩
      rw [mem_singleton.mp hstatus]
      exact mem_cons_self
  | quarantined batch _ _ _ _ hquarantine _ ht =>
    subst ht
    obtain ⟨_, rfl⟩ := quarantineBatch_eq_some hquarantine
    apply h.updateBatch
    · exact fun _ => rfl
    · exact fun _ => rfl
    · exact fun hmem => absurd hmem (by decide)
  | released _ _ _ _ _ _ _ _ _ _ _ _ hrelease _ ht => exact ht ▸ h.releaseUnuploadedBatch hrelease
  | committed _ _ _ _ _ hcommit _ ht => exact ht ▸ h.commitVerified hcommit
  | failed batch _ _ ht =>
    subst ht
    unfold Database.markFailed
    split
    next => exact h
    next =>
      apply h.updateBatch
      · exact fun _ => rfl
      · exact fun _ => rfl
      · exact fun hmem => absurd hmem (by decide)
  | warmed run ids hlabel hrun _ ht =>
    subst ht hlabel
    intro tx htx b howner hin
    rcases mem_updateWhere.mp htx with ⟨old, hmem, hold, rfl⟩ | ⟨hold, _⟩
    · have hmay := mayBeWarm_iff.mp ((mayBeWarm_of hrun).mp hkeeps old hmem hold)
      exact absurd hin (Bool.eq_false_iff.mp (hmay.2.2 b howner))
    · exact h tx hold b howner hin

/-! ### Exactly -/

/-- A row that a writer selects has what it wrote. -/
theorem change_step (hchange : a.change = some (p, f)) (ht : System.step config s a = some t)
    (htx : tx ∈ s.db.transactions) (hp : p tx = true) :
    { tx with values := f tx.values } ∈ t.db.transactions := by
  have hmem : { tx with values := f tx.values } ∈ (s.db.updateValues p f).transactions :=
    mem_updateWhere.mpr (.inl ⟨tx, htx, hp, rfl⟩)
  cases a with
  | update | freezeAccount =>
    cases hchange
    exact Option.some.inj ht ▸ hmem
  | reverse tenantId tx reversalRef now =>
    cases hchange
    simp only [System.step] at ht
    split at ht
    next => exact Option.some.inj ht ▸ mem_append_left _ hmem
    next => cases ht
  | _ => cases hchange

/-- A mark that is carried out, and leaves everything in order, came to nothing. -/
theorem mayBeWarm_of_composes (h : Recorded s)
    (ht : System.step config s (.markWarm run true) = some t) (hafter : Composes config t) :
    s.warmsIdly (.markWarm run true) = true := by
  have hrecorded := h.step ht
  simp only [System.step] at ht
  obtain ⟨ids, hrun, rfl⟩ := Option.map_eq_some_iff.mp ht
  obtain ⟨hwarmless, hcold, hfree⟩ := hrecorded.composes_iff.mp hafter
  apply (mayBeWarm_of hrun).mpr
  intro tx htx hid
  have hmem : { tx with archivedTier := some .warm } ∈
      (s.db.markWarm (ids.take warmChunk)).transactions :=
    mem_updateWhere.mpr (.inl ⟨tx, htx, hid, rfl⟩)
  apply mayBeWarm_iff.mpr
  refine ⟨?_, ?_, ?_⟩
  · exact hwarmless { tx with archivedTier := some .warm } hmem rfl
  · intro hwas
    obtain ⟨c, hc, row, hrow, hrowId⟩ := h.cold tx htx hwas
    cases hcold c hc row hrow _ hmem hrowId.symm
  · intro b howner
    apply Bool.eq_false_iff.mpr
    intro hflight
    cases hfree _ hmem b howner hflight

theorem composes_step_iff (h : Recorded s) (hbefore : Composes config s)
    (ht : System.step config s a = some t) : Composes config t ↔ s.warmsIdly a = true := by
  constructor
  · intro hafter
    have hwarmless := ((h.step ht).composes_iff.mp hafter).1
    apply Bool.and_eq_true_iff.mpr
    constructor
    · cases a with
      | markWarm run done =>
        cases done with
        | true => exact (Bool.and_eq_true_iff.mp (mayBeWarm_of_composes h ht hafter)).1
        | false => rfl
      | _ => rfl
    · cases hchange : a.change with
      | none => rfl
      | some change =>
        rw [Option.all_some, all_eq_true]
        intro tx htx
        cases hsel : change.1 tx && tx.archivedTier == some .warm with
        | false => rfl
        | true =>
          obtain ⟨hp, hwarm⟩ := Bool.and_eq_true_iff.mp hsel
          have hmem := change_step hchange ht htx hp
          have hnot : (change.2 tx.values).status.isTerminal = false :=
            hwarmless _ hmem (beq_iff_eq.mp hwarm)
          exact congrArg not hnot
  · intro hkeeps
    obtain ⟨hwarmless, hcold, hfree⟩ := h.composes_iff.mp hbefore
    exact (h.step ht).composes_iff.mpr ⟨hwarmless.step hkeeps ht, hcold.step h hkeeps ht,
      hfree.step h.tied.consistent hkeeps ht⟩

theorem recorded_empty : Recorded System.empty := by
  refine ⟨tied_empty, ?_, ?_⟩
  · intro c hc
    cases hc
  · intro tx htx
    cases htx

/-- The two archivals go together in a run exactly when every mark of the warm one comes to
nothing, and no warm row becomes final. -/
theorem always_composes_iff (config : Config) (labels : List Label) :
    Always (System.step config) (Composes config) .empty labels ↔
      Meets (System.step config) (fun s a => s.warmsIdly a = true) .empty labels := by
  apply always_iff_meets labels (fun _ _ _ h ht => Recorded.step h ht) ?_ recorded_empty
  · apply recorded_empty.composes_iff.mpr
    refine ⟨?_, ?_, ?_⟩
    · intro tx htx
      cases htx
    · intro c hc
      cases hc
    · intro tx htx
      cases htx
  · exact fun _ _ _ h hbefore ht => composes_step_iff h hbefore ht

/-- A row that is marked warm in time is never selected; a row is marked warm while its batch
is on its way, or after it is committed. -/
theorem tiers_clash :
    (¬ ∀ (config : Config) (labels : List Label), Always (System.step config)
      (fun s => ∀ tx ∈ s.db.transactions, ∀ now, tx.values.status.isTerminal = true →
        tx.createdAt + config.coldAgeDays * day < now →
          tx.archivedTier = some .cold ∨ tx.isDue config.coldAgeDays now = true) .empty labels) ∧
    (¬ ∀ (config : Config) (labels : List Label), Always (System.step config) ColdKept .empty
      labels) ∧
    ¬ ∀ (config : Config) (labels : List Label), Always (System.step config)
      (fun s => ∀ b ∈ s.db.batches, b.status ∈ inFlightStatuses →
        (s.db.transactions.countP fun tx => Database.isMarkedBy b.id tx) = b.rowCount) .empty
          labels := by
  refine ⟨?_, ?_, ?_⟩
  · intro hall
    have hrun : (run (System.step yearly) .empty
        [.insert none "T1" "transfer" paid 0, .selectWarm 8000000 [0], .markWarm 0 true]).map
          (fun s => s.db.transactions) =
        some [⟨0, none, "T1", "transfer", paid, 0, some .warm, none⟩] := by
      decide
    obtain ⟨s, hs, hview⟩ := Option.map_eq_some_iff.mp hrun
    have htx : (⟨0, none, "T1", "transfer", paid, 0, some .warm, none⟩ : Transaction) ∈
        s.db.transactions := hview ▸ mem_cons_self
    rcases (hall yearly _).finish hs _ htx nextYear rfl (by decide) with hcold | hdue
    · cases hcold
    · cases hdue
  · intro hall
    have hrun : (run (System.step yearly) .empty
        (planRun ++ archiveRun.dropLast ++
          [.selectWarm nextYear [0], .commit .ok, .markWarm 0 true])).map (fun s =>
            decide (ColdKept s)) = some false := by
      decide
    obtain ⟨s, hs, hview⟩ := Option.map_eq_some_iff.mp hrun
    exact of_decide_eq_false hview ((hall yearly _).finish hs)
  · intro hall
    have hrun : (run (System.step yearly) .empty
        (planRun ++ [.selectWarm nextYear [0], .markWarm 0 true])).map (fun s =>
          decide (∀ b ∈ s.db.batches, b.status ∈ inFlightStatuses →
            (s.db.transactions.countP fun tx => Database.isMarkedBy b.id tx) = b.rowCount)) =
        some false := by
      decide
    obtain ⟨s, hs, hview⟩ := Option.map_eq_some_iff.mp hrun
    exact of_decide_eq_false hview ((hall yearly _).finish hs)

end Bis.Archive
