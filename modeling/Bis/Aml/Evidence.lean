import Bis.Encoding.Chain
import Bis.TigerBeetle.Text

/-!
The evidence chain of the AML engine: how the hash of a record is computed and
how a chain is verified. The SHA-256 digest in hexadecimal is an argument.

The fields of a record that no hash covers (case, file name and size, media
type) are left out.
-/

namespace Bis.Aml

open Bis.Encoding
open Bis.TigerBeetle (utf8)

structure EvidenceItem where
  (id contentHash chainHash previousHash timestamp custodian action : String)

structure EvidenceChainVerification where
  isValid : Bool
  totalItems : Nat
  brokenAt : Option Nat
  (brokenItemId error : Option String)

/-- The text that `compute_chain_hash` hashes. -/
def chainData (previousHash contentHash timestamp custodian action : String) : String :=
  previousHash ++ contentHash ++ timestamp ++ custodian ++ action

section

variable (sha256Hex : List UInt8 → String)

def computeChainHash (previousHash contentHash timestamp custodian action : String) : String :=
  sha256Hex (utf8 (chainData previousHash contentHash timestamp custodian action))

def EvidenceItem.data (item : EvidenceItem) : String :=
  chainData item.previousHash item.contentHash item.timestamp item.custodian item.action

def EvidenceItem.expectedHash (item : EvidenceItem) : String :=
  computeChainHash sha256Hex item.previousHash item.contentHash item.timestamp item.custodian
    item.action

def brokenHash (total i : Nat) (item : EvidenceItem) (expected : String) :
    EvidenceChainVerification :=
  { isValid := false, totalItems := total, brokenAt := some i, brokenItemId := some item.id
    error := some ("Chain integrity broken at item " ++ toString i ++ " (" ++ item.id ++
      "): expected hash " ++ expected ++ ", got " ++ item.chainHash) }

def brokenLink (total i : Nat) (item : EvidenceItem) : EvidenceChainVerification :=
  { isValid := false, totalItems := total, brokenAt := some i, brokenItemId := some item.id
    error := some ("Chain linkage broken at item " ++ toString i ++ " (" ++ item.id ++
      "): previous_hash mismatch") }

def validChain (total : Nat) : EvidenceChainVerification :=
  { isValid := true, totalItems := total, brokenAt := none, brokenItemId := none, error := none }

/-- The loop of `verify_evidence_chain` from record `i` on, behind the record
that comes before it. -/
def verifyFrom (total : Nat) : Nat → Option EvidenceItem → List EvidenceItem →
    EvidenceChainVerification
  | _, _, [] => validChain total
  | i, previous, item :: rest =>
    if item.expectedHash sha256Hex ≠ item.chainHash then
      brokenHash total i item (item.expectedHash sha256Hex)
    else if previous.any fun before => item.previousHash != before.chainHash then
      brokenLink total i item
    else verifyFrom total (i + 1) (some item) rest

def verifyEvidenceChain (items : List EvidenceItem) : EvidenceChainVerification :=
  verifyFrom sha256Hex items.length 0 none items

/-! ### What is verified -/

/-- The record carries the hash of its own fields. -/
def EvidenceItem.Sound (item : EvidenceItem) : Prop := item.expectedHash sha256Hex = item.chainHash

end

abbrev EvidenceLinked (items : List EvidenceItem) : Prop :=
  Linked EvidenceItem.chainHash EvidenceItem.previousHash items

variable {sha256Hex : List UInt8 → String}

variable {total i : Nat} {previous : Option EvidenceItem} {items rest : List EvidenceItem}
  {item : EvidenceItem}

theorem verifyFrom_isValid :
    (verifyFrom sha256Hex total i previous items).isValid = true ↔
      (∀ item ∈ items, item.Sound sha256Hex) ∧ EvidenceLinked (previous.toList ++ items) := by
  induction items generalizing i previous with
  | nil => cases previous <;> simp [verifyFrom, validChain, EvidenceLinked, Linked]
  | cons item rest ih =>
    rw [verifyFrom]
    by_cases hsound : item.Sound sha256Hex
    · have hmatch : ¬item.expectedHash sha256Hex ≠ item.chainHash := not_not.mpr hsound
      rw [if_neg hmatch]
      cases previous with
      | none => simp [ih, hsound]
      | some before =>
        by_cases hlink : item.previousHash = before.chainHash
        · simp [ih, hsound, hlink, EvidenceLinked, Linked]
        · simp [hlink, brokenLink, EvidenceLinked, Linked]
    · have hbroken : item.expectedHash sha256Hex ≠ item.chainHash := hsound
      rw [if_pos hbroken]
      simp [brokenHash, hsound]

/-- A chain is accepted exactly if every record carries its hash and names the
hash of the record before it. The first record may name any hash. -/
theorem verifyEvidenceChain_isValid :
    (verifyEvidenceChain sha256Hex items).isValid = true ↔
      (∀ item ∈ items, item.Sound sha256Hex) ∧ EvidenceLinked items :=
  verifyFrom_isValid

/-! ### The first broken record -/

/-- The hash that a record has to name. The first record may name any. -/
def EvidenceItem.predecessorHash (previous : Option EvidenceItem) (item : EvidenceItem) :
    String :=
  match previous with
  | none => item.previousHash
  | some before => before.chainHash

/-- The stored hash is that of the record's own fields and its predecessor's hash,
which is the one it names. -/
structure EvidenceItem.Intact (sha256Hex : List UInt8 → String)
    (previous : Option EvidenceItem) (item : EvidenceItem) : Prop where
  names : item.previousHash = item.predecessorHash previous
  stored : item.chainHash = computeChainHash sha256Hex (item.predecessorHash previous)
    item.contentHash item.timestamp item.custodian item.action

/-- The record before the one at an index, of a list that comes behind `previous`. -/
def predecessor (previous : Option EvidenceItem) (items : List EvidenceItem) :
    Nat → Option EvidenceItem
  | 0 => previous
  | i + 1 => items[i]?

def IntactAt (sha256Hex : List UInt8 → String) (previous : Option EvidenceItem)
    (items : List EvidenceItem) (i : Nat) : Prop :=
  ∀ item, items[i]? = some item → item.Intact sha256Hex (predecessor previous items i)

/-- The first record that is not intact. -/
structure FirstBroken (sha256Hex : List UInt8 → String) (previous : Option EvidenceItem)
    (items : List EvidenceItem) (i : Nat) : Prop where
  broken : ¬IntactAt sha256Hex previous items i
  before : ∀ j < i, IntactAt sha256Hex previous items j

theorem FirstBroken.unique {j : Nat} (hi : FirstBroken sha256Hex previous items i)
    (hj : FirstBroken sha256Hex previous items j) : i = j := by
  rcases Nat.lt_trichotomy i j with hlt | heq | hlt
  · exact absurd (hj.before i hlt) hi.broken
  · exact heq
  · exact absurd (hi.before j hlt) hj.broken

theorem intactAt_zero :
    IntactAt sha256Hex previous (item :: rest) 0 ↔ item.Intact sha256Hex previous := by
  simp [IntactAt, predecessor]

theorem intactAt_succ :
    IntactAt sha256Hex previous (item :: rest) (i + 1) ↔
      IntactAt sha256Hex (some item) rest i := by
  cases i <;> simp [IntactAt, predecessor]

theorem FirstBroken.cons {previous : Option EvidenceItem} {item : EvidenceItem}
    {rest : List EvidenceItem} {i : Nat} (hitem : item.Intact sha256Hex previous)
    (h : FirstBroken sha256Hex (some item) rest i) :
    FirstBroken sha256Hex previous (item :: rest) (i + 1) := by
  refine ⟨mt intactAt_succ.mp h.broken, ?_⟩
  intro j hj
  cases j with
  | zero => exact intactAt_zero.mpr hitem
  | succ j => exact intactAt_succ.mpr (h.before j (Nat.lt_of_succ_lt_succ hj))

/-- An intact record passes both checks of the loop. -/
theorem verifyFrom_of_intact (h : item.Intact sha256Hex previous) :
    verifyFrom sha256Hex total i previous (item :: rest) =
      verifyFrom sha256Hex total (i + 1) (some item) rest := by
  have hexpected : item.expectedHash sha256Hex = item.chainHash := by
    rw [h.stored, ← h.names]
    rfl
  have hlink : ¬(previous.any fun before => item.previousHash != before.chainHash) = true := by
    cases previous with
    | none => simp
    | some before => simpa [EvidenceItem.predecessorHash] using h.names
  rw [verifyFrom, if_neg (not_not.mpr hexpected), if_neg hlink]

/-- Any other record stops it. -/
theorem verifyFrom_of_not_intact (h : ¬item.Intact sha256Hex previous) :
    (verifyFrom sha256Hex total i previous (item :: rest)).isValid = false ∧
      (verifyFrom sha256Hex total i previous (item :: rest)).brokenAt = some i := by
  rw [verifyFrom]
  split
  next => exact ⟨rfl, rfl⟩
  next hexpected =>
    rw [not_not] at hexpected
    split
    next => exact ⟨rfl, rfl⟩
    next hlink =>
      refine absurd ?_ h
      have hnames : item.previousHash = item.predecessorHash previous := by
        cases previous with
        | none => rfl
        | some before => simpa [EvidenceItem.predecessorHash] using hlink
      refine ⟨hnames, ?_⟩
      rw [← hnames, ← hexpected]
      rfl

/-- What the loop says of the records that are left, by induction on them. -/
theorem verifyFrom_outcome {total i : Nat} {previous : Option EvidenceItem}
    {items : List EvidenceItem} :
    ((∀ j, IntactAt sha256Hex previous items j) ∧
        (verifyFrom sha256Hex total i previous items).isValid = true ∧
        (verifyFrom sha256Hex total i previous items).brokenAt = none) ∨
      ∃ j, FirstBroken sha256Hex previous items j ∧
        (verifyFrom sha256Hex total i previous items).isValid = false ∧
        (verifyFrom sha256Hex total i previous items).brokenAt = some (i + j) := by
  induction items generalizing i previous with
  | nil => exact .inl ⟨by simp [IntactAt], rfl, rfl⟩
  | cons item rest ih =>
    by_cases hitem : item.Intact sha256Hex previous
    · rw [verifyFrom_of_intact hitem]
      rcases @ih (i + 1) (some item) with ⟨hall, hresult⟩ | ⟨j, hfirst, hvalid, hat⟩
      · refine .inl ⟨?_, hresult⟩
        intro j
        cases j with
        | zero => exact intactAt_zero.mpr hitem
        | succ j => exact intactAt_succ.mpr (hall j)
      · refine .inr ⟨j + 1, hfirst.cons hitem, hvalid, ?_⟩
        rw [hat, Nat.add_assoc, Nat.add_comm 1 j]
    · have hfirst : FirstBroken sha256Hex previous (item :: rest) 0 :=
        ⟨mt intactAt_zero.mp hitem, fun j hj => absurd hj (Nat.not_lt_zero j)⟩
      exact .inr ⟨0, hfirst, verifyFrom_of_not_intact hitem⟩

/-- The chain is valid exactly if all records are intact, and otherwise broken at
the first that is not. -/
theorem verifyEvidenceChain_first_broken (sha256Hex : List UInt8 → String)
    (items : List EvidenceItem) :
    ((verifyEvidenceChain sha256Hex items).isValid = true ↔
        ∀ i, IntactAt sha256Hex none items i) ∧
      ((verifyEvidenceChain sha256Hex items).isValid = false →
        ∃ i, (verifyEvidenceChain sha256Hex items).brokenAt = some i) ∧
      ∀ i, (verifyEvidenceChain sha256Hex items).brokenAt = some i ↔
        FirstBroken sha256Hex none items i := by
  unfold verifyEvidenceChain
  rcases @verifyFrom_outcome sha256Hex items.length 0 none items with
    ⟨hall, hvalid, hat⟩ | ⟨j, hfirst, hvalid, hat⟩
  · refine ⟨iff_of_true hvalid hall, ?_, ?_⟩
    · intro hinvalid
      rw [hvalid] at hinvalid
      cases hinvalid
    · intro i
      rw [hat]
      exact iff_of_false (by simp) fun hbroken => hbroken.broken (hall i)
  · rw [Nat.zero_add] at hat
    refine ⟨?_, fun _ => ⟨j, hat⟩, ?_⟩
    · rw [hvalid]
      exact iff_of_false Bool.false_ne_true fun hall => hfirst.broken (hall j)
    · intro i
      rw [hat, Option.some.injEq]
      constructor
      · rintro rfl
        exact hfirst
      · exact hfirst.unique

/-! ### Tampering -/

/-- The fields that a hash covers. -/
def EvidenceItem.hashed (item : EvidenceItem) : List String :=
  [item.previousHash, item.contentHash, item.timestamp, item.custodian, item.action]

/-- Field by field, two records take the same number of bytes. -/
def SameBorders (a b : EvidenceItem) : Prop :=
  a.previousHash.utf8ByteSize = b.previousHash.utf8ByteSize ∧
    a.contentHash.utf8ByteSize = b.contentHash.utf8ByteSize ∧
    a.timestamp.utf8ByteSize = b.timestamp.utf8ByteSize ∧
    a.custodian.utf8ByteSize = b.custodian.utf8ByteSize ∧
    a.action.utf8ByteSize = b.action.utf8ByteSize

/-- No two different texts that are hashed in the chains collide. -/
def NoCollision (sha256Hex : List UInt8 → String) (items items' : List EvidenceItem) : Prop :=
  ∀ a ∈ items, ∀ b ∈ items',
    sha256Hex (utf8 a.data) = sha256Hex (utf8 b.data) → utf8 a.data = utf8 b.data

theorem utf8_append (a b : String) : utf8 (a ++ b) = utf8 a ++ utf8 b := by
  simp [utf8, String.toByteArray_append]

theorem append_inj_of_size {a b c d : String} (hsize : a.utf8ByteSize = c.utf8ByteSize)
    (h : a ++ b = c ++ d) : a = c ∧ b = d := by
  have hbytes : utf8 a ++ utf8 b = utf8 c ++ utf8 d := by
    rw [← utf8_append, ← utf8_append, h]
  obtain ⟨hfirst, hrest⟩ := List.append_inj hbytes hsize
  exact ⟨Bis.TigerBeetle.utf8_injective hfirst, Bis.TigerBeetle.utf8_injective hrest⟩

/-- Where the borders lie, the text has one reading. -/
theorem hashed_eq_of_data_eq {a b : EvidenceItem} (hborders : SameBorders a b)
    (h : a.data = b.data) : a.hashed = b.hashed := by
  obtain ⟨hprevious, hcontent, htimestamp, hcustodian, haction⟩ := hborders
  simp only [EvidenceItem.data, chainData, String.append_assoc] at h
  obtain ⟨h1, h⟩ := append_inj_of_size hprevious h
  obtain ⟨h2, h⟩ := append_inj_of_size hcontent h
  obtain ⟨h3, h⟩ := append_inj_of_size htimestamp h
  obtain ⟨h4, h5⟩ := append_inj_of_size hcustodian h
  simp only [EvidenceItem.hashed, h1, h2, h3, h4, h5]

theorem sameBorders_of_hashed_eq {a b : EvidenceItem} (h : a.hashed = b.hashed) :
    SameBorders a b := by
  simp only [EvidenceItem.hashed, List.cons.injEq, and_true] at h
  obtain ⟨h1, h2, h3, h4, h5⟩ := h
  exact ⟨congrArg _ h1, congrArg _ h2, congrArg _ h3, congrArg _ h4, congrArg _ h5⟩

/-- Two accepted chains that end in one hash cover the same fields exactly if they
have as many records, with the borders between the fields at the same places. -/
theorem hashed_eq_iff_sameBorders {items items' : List EvidenceItem}
    (hitems : (verifyEvidenceChain sha256Hex items).isValid = true)
    (hitems' : (verifyEvidenceChain sha256Hex items').isValid = true)
    (hlast : items.getLast?.map EvidenceItem.chainHash =
      items'.getLast?.map EvidenceItem.chainHash)
    (hcollision : NoCollision sha256Hex items items') :
    items.map EvidenceItem.hashed = items'.map EvidenceItem.hashed ↔
      List.Forall₂ SameBorders items items' := by
  rw [verifyEvidenceChain_isValid] at hitems hitems'
  constructor
  · intro hsame
    have hpairs : List.Forall₂ (fun a b => a.hashed = b.hashed) items items' := by
      have hequal : List.Forall₂ (· = ·) (items.map EvidenceItem.hashed)
          (items'.map EvidenceItem.hashed) := by
        rw [hsame]
        exact List.forall₂_same.mpr fun _ _ => rfl
      exact List.forall₂_map_left_iff.mp (List.forall₂_map_right_iff.mp hequal)
    exact hpairs.imp fun a b h => sameBorders_of_hashed_eq h
  · intro hshape
    refine contents_eq_of_getLast_eq ?_ ?_ hitems.2 hitems'.2 hshape hlast
    · intro a ha b hb hborders hstored
      rw [← hitems.1 a ha, ← hitems'.1 b hb] at hstored
      have hdata := hcollision a ha b hb hstored
      exact hashed_eq_of_data_eq hborders (Bis.TigerBeetle.utf8_injective hdata)
    · intro a b hsame
      exact (List.cons.inj hsame).1

/-- A record, and the same text with the custodian made longer by what the action
lost. -/
def collectedItem : EvidenceItem :=
  { id := "E1", contentHash := "9f86d081", previousHash := "GENESIS"
    chainHash := "6eecee657b106a975c60622b89029728e2947987509bb47b1599ef2213b36fff"
    timestamp := "2024-03-01T10:00:00Z", custodian := "okoro", action := "collected" }

def shiftedItem : EvidenceItem :=
  { collectedItem with custodian := "okorocol", action := "lected" }

/-- The record that follows either of them. -/
def sealedItem : EvidenceItem :=
  { id := "E2", contentHash := "9f86d081", previousHash := collectedItem.chainHash
    chainHash := "c93e330730a2280d534ce417e14a261b08acfeb2597e0c93ffeea602ed08d8e2"
    timestamp := "2024-03-02T09:30:00Z", custodian := "okoro", action := "sealed" }

/-- The digests of the text that the first two records hash, and of that of the third. -/
def collectedDigest (text : List UInt8) : String :=
  if text.length = 49 then collectedItem.chainHash else sealedItem.chainHash

theorem collected_data_eq : collectedItem.data = shiftedItem.data := by decide

theorem collected_valid :
    (verifyEvidenceChain collectedDigest [collectedItem]).isValid = true ∧
      (verifyEvidenceChain collectedDigest [shiftedItem]).isValid = true := by
  constructor <;> decide

theorem collected_noCollision : NoCollision collectedDigest [collectedItem] [shiftedItem] := by
  intro a ha b hb _
  obtain rfl := List.mem_singleton.mp ha
  obtain rfl := List.mem_singleton.mp hb
  rw [collected_data_eq]

theorem shifted_hashed_eq_iff :
    ([collectedItem, sealedItem].map EvidenceItem.hashed =
        [shiftedItem, sealedItem].map EvidenceItem.hashed ↔
      List.Forall₂ SameBorders [collectedItem, sealedItem] [shiftedItem, sealedItem]) := by
  have hcollision : NoCollision collectedDigest [collectedItem, sealedItem]
      [shiftedItem, sealedItem] := by
    intro a ha b hb hsame
    rcases List.mem_pair.mp ha with rfl | rfl
    · rcases List.mem_pair.mp hb with rfl | rfl
      · rw [collected_data_eq]
      · exact absurd hsame (by decide)
    · rcases List.mem_pair.mp hb with rfl | rfl
      · exact absurd hsame (by decide)
      · rfl
  exact hashed_eq_iff_sameBorders (by decide) (by decide) rfl hcollision

theorem shifted_border_accepted :
    (verifyEvidenceChain collectedDigest [collectedItem]).isValid = true ∧
      (verifyEvidenceChain collectedDigest [shiftedItem]).isValid = true ∧
      [collectedItem].getLast?.map EvidenceItem.chainHash =
        [shiftedItem].getLast?.map EvidenceItem.chainHash ∧
      NoCollision collectedDigest [collectedItem] [shiftedItem] ∧
      [collectedItem].map EvidenceItem.hashed ≠ [shiftedItem].map EvidenceItem.hashed :=
  ⟨collected_valid.1, collected_valid.2, rfl, collected_noCollision, by decide⟩

end Bis.Aml
