import Bis.TigerBeetle.Text

/-!
The transfer ids of top-ups and metered debits. `deterministic_transfer_id`
hashes the operation, the tenant, the currency, the business reference and the
code, each behind its length, and nothing else of the request: the amount may
change under one id, the currency and the code may not.
-/

namespace Bis.TigerBeetle

open Bis.Encoding

/-- A string of the service: no allocation is larger than `isize::MAX` bytes. -/
structure RustString where
  text : String
  sized : (utf8 text).length < 2 ^ 63

theorem RustString.ext {a b : RustString} (h : a.text = b.text) : a = b := by
  cases a
  cases b
  simp only at h
  subst h
  rfl

inductive LedgerOperation where
  | topup | debit

def LedgerOperation.name : LedgerOperation → String
  | .topup => "topup"
  | .debit => "debit"

/-- `tier::TOPUP`. -/
def tierTopup : UInt64 := 100

/-- `TopupRequest` and `DebitRequest`, without the actor. -/
inductive TransferRequest where
  | topup (tenantId : Int32) (amountKobo : UInt64) (currency reference : RustString)
  | debit (tenantId : Int32) (amountKobo : UInt64) (currency : RustString) (tier : UInt64)
      (investigationRef : RustString)

namespace TransferRequest

def operation : TransferRequest → LedgerOperation
  | .topup _ _ _ _ => .topup
  | .debit _ _ _ _ _ => .debit

def tenantId : TransferRequest → Int32
  | .topup tenantId _ _ _ | .debit tenantId _ _ _ _ => tenantId

def amountKobo : TransferRequest → UInt64
  | .topup _ amountKobo _ _ | .debit _ amountKobo _ _ _ => amountKobo

def currency : TransferRequest → RustString
  | .topup _ _ currency _ | .debit _ _ currency _ _ => currency

def businessRef : TransferRequest → RustString
  | .topup _ _ _ reference => reference
  | .debit _ _ _ _ investigationRef => investigationRef

def code : TransferRequest → UInt64
  | .topup _ _ _ _ => tierTopup
  | .debit _ _ _ tier _ => tier

/-- The bytes that are hashed for a request. -/
def preimage (request : TransferRequest) : List UInt8 :=
  transferPreimage request.operation.name request.tenantId.toInt request.currency.text
    request.businessRef.text request.code.toNat

def transferId (sha256 : List UInt8 → List UInt8) (request : TransferRequest) : String :=
  deterministicTransferId sha256 request.operation.name request.tenantId.toInt
    request.currency.text request.businessRef.text request.code.toNat

/-- The transfer of `execute_topup` and of `execute_debit`. -/
def transfer (sha256 : List UInt8 → List UInt8) (request : TransferRequest) : Transfer :=
  let account := tenantAccountId (toString request.tenantId.toInt)
  match request.operation with
  | .topup =>
    { id := request.transferId sha256
      debitAccountId := accountFloat
      creditAccountId := account
      amount := request.amountKobo.toNat }
  | .debit =>
    { id := request.transferId sha256
      debitAccountId := account
      creditAccountId := accountRevenue
      amount := request.amountKobo.toNat }

/-- The components of the hash, as bytes. -/
def components (request : TransferRequest) : List (List UInt8) :=
  [utf8 request.operation.name, utf8 (toString request.tenantId.toInt),
    utf8 request.currency.text, utf8 request.businessRef.text, utf8 (toString request.code.toNat)]

end TransferRequest

/-- The requests agree in what the id is derived from. -/
structure SameIdentity (r r' : TransferRequest) : Prop where
  operation : r.operation = r'.operation
  tenantId : r.tenantId = r'.tenantId
  businessRef : r.businessRef = r'.businessRef
  currency : r.currency = r'.currency
  code : r.code = r'.code

variable {r r' : TransferRequest}

theorem preimage_eq (r : TransferRequest) :
    r.preimage = utf8 "bis-tigerbeetle-transfer-v1\x00" ++
      prefixed toBeBytes r.components := by
  unfold TransferRequest.preimage transferPreimage
  rfl

theorem natAbs_toInt_lt (n : Int32) : n.toInt.natAbs < 2 ^ 64 := by
  have hlow := n.le_toInt
  have hhigh := n.toInt_lt
  omega

theorem length_utf8_toString_lt {n : Int} (h : n.natAbs < 2 ^ 64) :
    (utf8 (toString n)).length < 2 ^ 64 := by
  have hbytes := length_utf8_le (toString n)
  have hcharacters := length_toString_int_le h
  omega

/-- Every component has a length that eight bytes hold. -/
theorem length_components_lt (r : TransferRequest) :
    ∀ component ∈ r.components, component.length < 2 ^ 64 := by
  intro component hcomponent
  simp only [TransferRequest.components, List.mem_cons, List.not_mem_nil, or_false] at hcomponent
  rcases hcomponent with rfl | rfl | rfl | rfl | rfl
  · have hname : r.operation.name.toList.length = 5 := by
      cases r.operation <;> rfl
    have hbytes := length_utf8_le r.operation.name
    omega
  · exact length_utf8_toString_lt (natAbs_toInt_lt r.tenantId)
  · have hsized := r.currency.sized
    omega
  · have hsized := r.businessRef.sized
    omega
  · have hcode := r.code.toNat_lt
    exact length_utf8_toString_lt (n := (r.code.toNat : Int)) (by omega)

theorem name_injective {a b : LedgerOperation} (h : a.name = b.name) : a = b := by
  cases a <;> cases b
  · rfl
  · exact absurd h (by decide)
  · exact absurd h (by decide)
  · rfl

/-- The bytes that are hashed agree exactly for requests of one identity. -/
theorem preimage_eq_iff : r.preimage = r'.preimage ↔ SameIdentity r r' := by
  constructor
  · intro h
    rw [preimage_eq, preimage_eq] at h
    have hlength : r.components.length = r'.components.length := rfl
    have hcomponents := prefixed_injective length_toBeBytes
      (fun _ _ hm hn hsame => toBeBytes_injective hm hn hsame) hlength (length_components_lt r)
      (length_components_lt r') (List.append_cancel_left h)
    simp only [TransferRequest.components, List.cons.injEq, and_true] at hcomponents
    obtain ⟨hoperation, htenant, hcurrency, hreference, hcode⟩ := hcomponents
    constructor
    · exact name_injective (utf8_injective hoperation)
    · exact Int32.toInt_inj.mp (toString_int_injective (utf8_injective htenant))
    · exact RustString.ext (utf8_injective hreference)
    · exact RustString.ext (utf8_injective hcurrency)
    · have htexts : toString (r.code.toNat : Int) = toString (r'.code.toNat : Int) :=
        utf8_injective hcode
      exact UInt64.toNat_inj.mp (Int.ofNat_inj.mp (toString_int_injective htexts))
  · intro h
    unfold TransferRequest.preimage
    rw [h.operation, h.tenantId, h.businessRef, h.currency, h.code]

/-- The ids of two requests agree under every hash exactly when the requests have
one identity: no id is made of the amount. -/
theorem transferId_eq_iff :
    (∀ sha256, r.transferId sha256 = r'.transferId sha256) ↔ SameIdentity r r' := by
  rw [← preimage_eq_iff]
  constructor
  · intro h
    by_contra hne
    have hids := h fun bytes => if bytes = r.preimage then [0] else [1]
    simp only [TransferRequest.transferId, deterministicTransferId] at hids
    change hexEncode ((if r.preimage = r.preimage then _ else _ : List UInt8).take 16) =
      hexEncode ((if r'.preimage = r.preimage then _ else _ : List UInt8).take 16) at hids
    rw [if_pos rfl, if_neg (Ne.symm hne)] at hids
    exact absurd (hexEncode_injective hids) (by decide)
  · intro h sha256
    exact congrArg (fun bytes => hexEncode ((sha256 bytes).take 16)) h

/-- Top-ups and debits of one operation, tenant, reference, currency and code have
one id whatever their amounts, so the ledger posts one of them, and requests that
differ in any of the five hash different bytes. -/
theorem transfer_identity (r r' : TransferRequest) :
    (SameIdentity r r' → ∀ sha256, r.transferId sha256 = r'.transferId sha256 ∧
        ∀ ledger : Ledger, (ledger.post (r.transfer sha256)).post (r'.transfer sha256) =
          ledger.post (r.transfer sha256)) ∧
      (¬ SameIdentity r r' → r.preimage ≠ r'.preimage) := by
  have hid (request : TransferRequest) (sha256 : List UInt8 → List UInt8) :
      (request.transfer sha256).id = request.transferId sha256 := by
    unfold TransferRequest.transfer
    cases request <;> rfl
  constructor
  · intro hsame sha256
    have hids := transferId_eq_iff.mpr hsame sha256
    refine ⟨hids, ?_⟩
    intro ledger
    apply post_post
    rw [hid, hid]
    exact hids
  · intro hdiffer hbytes
    exact hdiffer (preimage_eq_iff.mp hbytes)

/-- A debit and its retry on another tier have ids of their own. -/
theorem changed_tier_changes_id :
    ¬ ∀ (r r' : TransferRequest), r.operation = r'.operation → r.tenantId = r'.tenantId →
      r.businessRef = r'.businessRef → ∀ sha256, r.transferId sha256 = r'.transferId sha256 := by
  intro h
  let ngn : RustString := ⟨"NGN", by decide⟩
  let reference : RustString := ⟨"INV-001", by decide⟩
  have hids := h (.debit 42 150000 ngn 2 reference) (.debit 42 500000 ngn 3 reference) rfl rfl rfl
    fun bytes => bytes.drop (bytes.length - 1)
  exact absurd hids (by decide)

end Bis.TigerBeetle
