import Bis.Relation.Matching
import Mathlib.Data.List.Induction

/-!
The reconciliation of the audit events with the ledger's transfers: one page of
either side, a map by reference of each, and a comparison of the two maps. A map
keeps the last entry of a reference only, and a page ends at the batch size.
-/

namespace Bis.TigerBeetle

open Bis.Relation List

/-- Instants are nanoseconds since the epoch. -/
structure BISAuditEvent where
  (id txRef : String)
  (amountKobo createdAt : Int)

structure TBTransfer where
  id : String
  amount : Int
  userData : String
  timestamp : Int

structure Config where
  maxTimestampDriftMs : Int
  batchSize : Nat

inductive DiscrepancyKind where
  | missingInTigerBeetle
  | phantomInTigerBeetle
  | amountMismatch
  | timestampDrift

structure Discrepancy where
  kind : DiscrepancyKind
  txRef : String
  bisAmount : Option Int := none
  tbAmount : Option Int := none
  bisTime : Option Int := none
  tbTimeMs : Option Int := none
  driftMs : Option Int := none

structure ReconciliationReport where
  (bisEventCount tbTransferCount : Nat)
  discrepancies : List Discrepancy

/-! ### The two sources -/

/-- What the sources hold, in the order in which they page it. -/
structure Books where
  bisEvents : List BISAuditEvent
  tbTransfers : List TBTransfer

def inWindow (start stop t : Int) : Bool := decide (start ≤ t ∧ t ≤ stop)

/-- `Format(time.RFC3339)` leaves out what is less than a second. -/
def wholeSecond (t : Int) : Int := t - t % 1000000000

def fetchBISEvents (cfg : Config) (books : Books) (start stop : Int) : List BISAuditEvent :=
  (books.bisEvents.filter fun e =>
    inWindow (wholeSecond start) (wholeSecond stop) e.createdAt).take cfg.batchSize

def fetchTBTransfers (cfg : Config) (books : Books) (start stop : Int) : List TBTransfer :=
  (books.tbTransfers.filter fun t => inWindow start stop t.timestamp).take cfg.batchSize

/-! ### The comparison -/

/-- An entry put into a map under its key. The order in which a map is walked is not
specified, and nothing below depends on it. -/
def setEntry {α : Type*} (key : α → String) (entries : List (String × α)) (a : α) :
    List (String × α) :=
  entries.filter (fun entry => entry.1 ≠ key a) ++ [(key a, a)]

def mapBy {α : Type*} (key : α → String) (entries : List α) : List (String × α) :=
  entries.foldl (setEntry key) []

def findKey {α : Type*} (k : String) (entries : List (String × α)) : Option α :=
  (entries.find? fun entry => entry.1 == k).map Prod.snd

/-- The drift in milliseconds. `UnixMilli` rounds down, the division by a million
towards zero. -/
def driftMs (bisEvent : BISAuditEvent) (tbTransfer : TBTransfer) : Int :=
  (tbTransfer.timestamp.tdiv 1000000 - bisEvent.createdAt / 1000000).natAbs

def compareEntry (cfg : Config) (tbMap : List (String × TBTransfer)) (txRef : String)
    (bisEvent : BISAuditEvent) : List Discrepancy :=
  match findKey txRef tbMap with
  | none => [{ kind := .missingInTigerBeetle, txRef := txRef, bisAmount := some bisEvent.amountKobo }]
  | some tbTransfer =>
    (if bisEvent.amountKobo ≠ tbTransfer.amount then
      [{ kind := .amountMismatch, txRef := txRef, bisAmount := some bisEvent.amountKobo,
         tbAmount := some tbTransfer.amount }]
    else []) ++
    (if cfg.maxTimestampDriftMs < driftMs bisEvent tbTransfer then
      [{ kind := .timestampDrift, txRef := txRef, bisTime := some bisEvent.createdAt,
         tbTimeMs := some (tbTransfer.timestamp.tdiv 1000000),
         driftMs := some (driftMs bisEvent tbTransfer) }]
    else [])

def crossReference (cfg : Config) (bisEvents : List BISAuditEvent) (tbTransfers : List TBTransfer) :
    List Discrepancy :=
  let bisMap := mapBy BISAuditEvent.txRef bisEvents
  let tbMap := mapBy TBTransfer.userData tbTransfers
  bisMap.flatMap (fun entry => compareEntry cfg tbMap entry.1 entry.2) ++
    tbMap.flatMap fun entry =>
      if (findKey entry.1 bisMap).isSome then []
      else [{ kind := .phantomInTigerBeetle, txRef := entry.1, tbAmount := some entry.2.amount }]

def reconcile (cfg : Config) (books : Books) (start stop : Int) : ReconciliationReport :=
  let bisEvents := fetchBISEvents cfg books start stop
  let tbTransfers := fetchTBTransfers cfg books start stop
  { bisEventCount := bisEvents.length
    tbTransferCount := tbTransfers.length
    discrepancies := crossReference cfg bisEvents tbTransfers }

/-! ### What it is for -/

/-- An event and a transfer of one reference and one amount that are close enough in time. -/
def Matches (cfg : Config) (bisEvent : BISAuditEvent) (tbTransfer : TBTransfer) : Prop :=
  bisEvent.txRef = tbTransfer.userData ∧ bisEvent.amountKobo = tbTransfer.amount ∧
    (tbTransfer.timestamp - bisEvent.createdAt).natAbs ≤ cfg.maxTimestampDriftMs * 1000000

/-- All of the window, whatever the page. -/
def Books.window (books : Books) (start stop : Int) : Books where
  bisEvents := books.bisEvents.filter fun e => inWindow start stop e.createdAt
  tbTransfers := books.tbTransfers.filter fun t => inWindow start stop t.timestamp

def Books.Agree (cfg : Config) (books : Books) : Prop :=
  Matched (Matches cfg) books.bisEvents books.tbTransfers

/-- The entries of one reference. -/
def Books.ofRef (books : Books) (txRef : String) : Books where
  bisEvents := under BISAuditEvent.txRef txRef books.bisEvents
  tbTransfers := under TBTransfer.userData txRef books.tbTransfers

/-- The report is clean exactly if the window agrees, and names every reference that does not. -/
def Truthful (cfg : Config) (books : Books) (start stop : Int) : Prop :=
  let discrepancies := (reconcile cfg books start stop).discrepancies
  let window := books.window start stop
  (discrepancies = [] ↔ window.Agree cfg) ∧
    (¬ window.Agree cfg → ∀ txRef, ¬ (window.ofRef txRef).Agree cfg →
      txRef ∈ discrepancies.map Discrepancy.txRef)

/-! ### Maps -/

section Maps

variable {α : Type*} {key : α → String}

theorem findKey_setEntry (entries : List (String × α)) (a : α) (k : String) :
    findKey k (setEntry key entries a) = if key a = k then some a else findKey k entries := by
  unfold findKey setEntry
  rw [find?_append, find?_filter]
  by_cases hk : key a = k
  · subst hk
    rw [if_pos rfl, find?_eq_none.mpr (by simp)]
    simp
  · have hsame : (fun entry : String × α =>
        decide (decide (entry.1 ≠ key a) = true ∧ (entry.1 == k) = true)) =
          fun entry => entry.1 == k := by
      funext entry
      by_cases hentry : entry.1 = k
      · simp [hentry, Ne.symm hk]
      · simp [hentry]
    rw [hsame, if_neg hk]
    simp [hk]

/-- A map holds the last entry of every key. -/
theorem findKey_mapBy (entries : List α) (k : String) :
    findKey k (mapBy key entries) = (under key k entries).getLast? := by
  induction entries using List.reverseRecOn with
  | nil => rfl
  | append_singleton entries a ih =>
    rw [mapBy, foldl_append, foldl_cons, foldl_nil, findKey_setEntry]
    change (if key a = k then some a else findKey k (mapBy key entries)) = _
    rw [ih, under, under, filter_append]
    by_cases hk : key a = k
    · simp [hk]
    · simp [hk]

theorem findKey_of_mem {entries : List α} {entry : String × α} (h : entry ∈ mapBy key entries) :
    findKey entry.1 (mapBy key entries) = some entry.2 := by
  induction entries using List.reverseRecOn with
  | nil => cases h
  | append_singleton entries a ih =>
    rw [mapBy, foldl_append, foldl_cons, foldl_nil] at h ⊢
    rw [findKey_setEntry]
    unfold setEntry at h
    rcases mem_append.mp h with hold | hnew
    · obtain ⟨hmem, hne⟩ := mem_filter.mp hold
      rw [if_neg (Ne.symm (by simpa using hne))]
      exact ih hmem
    · obtain rfl := mem_singleton.mp hnew
      exact if_pos rfl

theorem mem_of_findKey {entries : List (String × α)} {k : String} {a : α}
    (h : findKey k entries = some a) : (k, a) ∈ entries := by
  obtain ⟨entry, hfind, rfl⟩ := Option.map_eq_some_iff.mp h
  have hkey : entry.1 = k := by simpa using find?_some hfind
  subst hkey
  exact mem_of_find?_eq_some hfind

theorem exists_mem_mapBy {entries : List α} {P : String × α → Prop} :
    (∃ entry ∈ mapBy key entries, P entry) ↔
      ∃ k, ∃ a ∈ (under key k entries).getLast?, P (k, a) := by
  constructor
  · rintro ⟨⟨k, a⟩, hmem, hP⟩
    refine ⟨k, a, ?_, hP⟩
    rw [← findKey_mapBy]
    exact findKey_of_mem hmem
  · rintro ⟨k, a, hlast, hP⟩
    rw [← findKey_mapBy] at hlast
    exact ⟨(k, a), mem_of_findKey hlast, hP⟩

end Maps

/-! ### What the report names -/

/-- The last entries of a reference do not go together. -/
def Differ (cfg : Config) : Option BISAuditEvent → Option TBTransfer → Prop
  | none, none => False
  | some bisEvent, some tbTransfer =>
    bisEvent.amountKobo ≠ tbTransfer.amount ∨
      cfg.maxTimestampDriftMs < driftMs bisEvent tbTransfer
  | _, _ => True

def Books.LastDiffer (cfg : Config) (books : Books) : Prop :=
  Differ cfg books.bisEvents.getLast? books.tbTransfers.getLast?

/-- The first page of the window the sources are asked for. -/
def Books.page (cfg : Config) (books : Books) (start stop : Int) : Books where
  bisEvents := fetchBISEvents cfg books start stop
  tbTransfers := fetchTBTransfers cfg books start stop

variable {cfg : Config} {books : Books}

theorem exists_mem_compareEntry {tbMap : List (String × TBTransfer)} {txRef named : String}
    {bisEvent : BISAuditEvent} :
    (∃ d ∈ compareEntry cfg tbMap txRef bisEvent, d.txRef = named) ↔
      txRef = named ∧ Differ cfg (some bisEvent) (findKey txRef tbMap) := by
  unfold compareEntry
  cases findKey txRef tbMap with
  | none => simp [Differ]
  | some tbTransfer =>
    by_cases hamount : bisEvent.amountKobo = tbTransfer.amount <;>
      by_cases hdrift : cfg.maxTimestampDriftMs < driftMs bisEvent tbTransfer <;>
      simp [Differ, hamount, hdrift]

/-- The report names exactly the references whose last entries differ. -/
theorem mem_crossReference {bisEvents : List BISAuditEvent} {tbTransfers : List TBTransfer}
    {txRef : String} :
    txRef ∈ (crossReference cfg bisEvents tbTransfers).map Discrepancy.txRef ↔
      Differ cfg (under BISAuditEvent.txRef txRef bisEvents).getLast?
        (under TBTransfer.userData txRef tbTransfers).getLast? := by
  have hmissing : (∃ entry ∈ mapBy BISAuditEvent.txRef bisEvents,
      ∃ d ∈ compareEntry cfg (mapBy TBTransfer.userData tbTransfers) entry.1 entry.2,
        d.txRef = txRef) ↔
      ∃ e ∈ (under BISAuditEvent.txRef txRef bisEvents).getLast?,
        Differ cfg (some e) (under TBTransfer.userData txRef tbTransfers).getLast? := by
    simp only [exists_mem_compareEntry, exists_mem_mapBy, findKey_mapBy]
    constructor
    · rintro ⟨k, e, he, rfl, hdiffer⟩
      exact ⟨e, he, hdiffer⟩
    · rintro ⟨e, he, hdiffer⟩
      exact ⟨txRef, e, he, rfl, hdiffer⟩
  have hphantom : (∃ entry ∈ mapBy TBTransfer.userData tbTransfers,
      (findKey entry.1 (mapBy BISAuditEvent.txRef bisEvents)).isNone ∧ entry.1 = txRef) ↔
      (under BISAuditEvent.txRef txRef bisEvents).getLast? = none ∧
        (under TBTransfer.userData txRef tbTransfers).getLast?.isSome := by
    simp only [exists_mem_mapBy, findKey_mapBy, Option.isNone_iff_eq_none,
      Option.isSome_iff_exists]
    constructor
    · rintro ⟨k, t, ht, hnone, rfl⟩
      exact ⟨hnone, t, ht⟩
    · rintro ⟨hnone, t, ht⟩
      exact ⟨txRef, t, ht, hnone, rfl⟩
  have hnamed : txRef ∈ (crossReference cfg bisEvents tbTransfers).map Discrepancy.txRef ↔
      (∃ entry ∈ mapBy BISAuditEvent.txRef bisEvents,
        ∃ d ∈ compareEntry cfg (mapBy TBTransfer.userData tbTransfers) entry.1 entry.2,
          d.txRef = txRef) ∨
      ∃ entry ∈ mapBy TBTransfer.userData tbTransfers,
        (findKey entry.1 (mapBy BISAuditEvent.txRef bisEvents)).isNone ∧ entry.1 = txRef := by
    simp only [crossReference, map_append, mem_append, map_flatMap,
      mem_flatMap, mem_map]
    apply or_congr_right
    apply exists_congr
    intro entry
    cases findKey entry.1 (mapBy BISAuditEvent.txRef bisEvents) <;> simp
  rw [hnamed, hmissing, hphantom]
  cases (under BISAuditEvent.txRef txRef bisEvents).getLast? with
  | none =>
    cases (under TBTransfer.userData txRef tbTransfers).getLast? <;> simp [Differ]
  | some e => simp

theorem mem_reconcile {start stop : Int} {txRef : String} :
    txRef ∈ (reconcile cfg books start stop).discrepancies.map Discrepancy.txRef ↔
      ((books.page cfg start stop).ofRef txRef).LastDiffer cfg :=
  mem_crossReference

theorem reconcile_clean_iff {start stop : Int} :
    (reconcile cfg books start stop).discrepancies = [] ↔
      ∀ txRef, ¬ ((books.page cfg start stop).ofRef txRef).LastDiffer cfg := by
  simp only [← mem_reconcile]
  constructor
  · intro hclean txRef hmem
    rw [hclean] at hmem
    exact not_mem_nil hmem
  · intro hnone
    apply eq_nil_iff_forall_not_mem.mpr
    intro d hd
    exact hnone d.txRef (mem_map_of_mem hd)

/-- Books agree if they do for every reference. -/
theorem agree_iff_ofRef : books.Agree cfg ↔ ∀ txRef, (books.ofRef txRef).Agree cfg :=
  matched_iff_under fun _ _ hmatches => hmatches.1

/-- The report is right exactly if the last entries of a reference on the first page
tell whether all of its entries in the window agree. -/
theorem truthful_iff (cfg : Config) (books : Books) (start stop : Int) :
    Truthful cfg books start stop ↔
      (∀ txRef, ¬ ((books.window start stop).ofRef txRef).Agree cfg →
        ((books.page cfg start stop).ofRef txRef).LastDiffer cfg) ∧
      ((∀ txRef, ((books.window start stop).ofRef txRef).Agree cfg) →
        ∀ txRef, ¬ ((books.page cfg start stop).ofRef txRef).LastDiffer cfg) := by
  have hagree : (books.window start stop).Agree cfg ↔
      ∀ txRef, ((books.window start stop).ofRef txRef).Agree cfg := agree_iff_ofRef
  simp only [Truthful, mem_reconcile, reconcile_clean_iff, hagree]
  constructor
  · rintro ⟨hclean, hnamed⟩
    refine ⟨?_, hclean.mpr⟩
    intro txRef hdisagree
    apply hnamed _ txRef hdisagree
    intro hall
    exact hdisagree (hall txRef)
  · rintro ⟨hnamed, hquiet⟩
    refine ⟨⟨?_, hquiet⟩, fun _ => hnamed⟩
    intro hnone txRef
    by_contra hdisagree
    exact hnone txRef (hnamed txRef hdisagree)

/-- A transfer of 500 naira that was posted twice for one event. -/
def postedTwice : Books where
  bisEvents := [⟨"e1", "TX-1", 50000, 1700000000000000000⟩]
  tbTransfers := [⟨"t1", 50000, "TX-1", 1700000000000000000⟩,
    ⟨"t2", 50000, "TX-1", 1700000000000000000⟩]

theorem postedTwice_hidden :
    ¬ Truthful ⟨5000, 500⟩ postedTwice 1699999999000000000 1700000001000000000 := by
  rintro ⟨hclean, _⟩
  have hreport : (reconcile ⟨5000, 500⟩ postedTwice 1699999999000000000
      1700000001000000000).discrepancies = [] := by decide
  obtain ⟨paired, hperm, hall⟩ := hclean.mp hreport
  have hlength := hall.length_eq.trans hperm.length_eq
  revert hlength
  decide

end Bis.TigerBeetle
