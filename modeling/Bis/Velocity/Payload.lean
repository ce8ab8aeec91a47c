import Bis.Velocity.Alert

/-!
The text of a breach read back into a breach, as its derived `Deserialize` reads
it. The text carries the instant in microseconds. How chrono reads the text of an
instant is an argument, as is the text it writes.
-/

namespace Bis.Velocity

open Bis.Json

/-- The derived `Deserialize`, in camel case. -/
def decodeBreach (parseInstant : String → Option Int) (members : List (String × Value)) :
    Except DecodeError VelocityBreach := do
  let alertId ← requiredField "alertId" rustString members
  let accountId ← requiredField "accountId" rustString members
  let tenantId ← requiredField "tenantId" rustString members
  let ruleName ← requiredField "ruleName" rustString members
  let riskLevel ← requiredField "riskLevel" rustString members
  let windowSecs ← requiredField "windowSecs" rustU64 members
  let txCount ← requiredField "txCount" rustU64 members
  let totalAmountKobo ← requiredField "totalAmountKobo" rustI64 members
  let triggeringTxRef ← requiredField "triggeringTxRef" rustString members
  let detectedAt ← requiredField "detectedAt" (fun v => (rustString v).bind parseInstant) members
  return {
    alertId, accountId, tenantId, ruleName, riskLevel, windowSecs, txCount := txCount.toNat
    totalAmountKobo, triggeringTxRef, detectedAt }

/-- The instant with what is less than a microsecond left out. -/
def wholeMicros (t : Int) : Int := t - t % 1000

/-- The text is a JSON object of the ten members, and they are those of the breach. -/
def ParsesBack (parseInstant : String → Option Int) (text : List Char) (breach : VelocityBreach) :
    Prop :=
  ∃ members, read none text = some (.object members) ∧ members.map Prod.fst = breachKeys ∧
    decodeBreach parseInstant members = .ok breach

section Text

variable {rfc3339Micros : Int → String} {parseInstant : String → Option Int}
  {breach : VelocityBreach}

theorem decodeBreach_breachMembers {t : Int} (hcount : breach.txCount < 2 ^ 64)
    (hinstant : parseInstant (rfc3339Micros breach.detectedAt) = some t) :
    decodeBreach parseInstant (breachMembers rfc3339Micros breach) =
      .ok { breach with detectedAt := t } := by
  have hfield : ∀ {β : Type} (field : String) (read : Value → Option β) (v : Value) (b : β),
      occurrences field (breachMembers rfc3339Micros breach) = [v] → read v = some b →
        requiredField field read (breachMembers rfc3339Micros breach) = .ok b :=
    fun _ _ _ _ hv hb => requiredField_of_occurrences hv hb
  have h1 := hfield "alertId" rustString (.string breach.alertId) breach.alertId
    (by simp [occurrences, breachMembers]) rfl
  have h2 := hfield "accountId" rustString (.string breach.accountId) breach.accountId
    (by simp [occurrences, breachMembers]) rfl
  have h3 := hfield "tenantId" rustString (.string breach.tenantId) breach.tenantId
    (by simp [occurrences, breachMembers]) rfl
  have h4 := hfield "ruleName" rustString (.string breach.ruleName) breach.ruleName
    (by simp [occurrences, breachMembers]) rfl
  have h5 := hfield "riskLevel" rustString (.string breach.riskLevel) breach.riskLevel
    (by simp [occurrences, breachMembers]) rfl
  have h6 := hfield "windowSecs" rustU64 _ _ (by simp [occurrences, breachMembers])
    (rustU64_ofNat breach.windowSecs.toNat_lt)
  have h7 := hfield "txCount" rustU64 _ _ (by simp [occurrences, breachMembers])
    (rustU64_ofNat hcount)
  have h8 := hfield "totalAmountKobo" rustI64 _ _ (by simp [occurrences, breachMembers])
    (rustI64_toInt breach.totalAmountKobo)
  have h9 := hfield "triggeringTxRef" rustString (.string breach.triggeringTxRef)
    breach.triggeringTxRef (by simp [occurrences, breachMembers]) rfl
  have h10 := hfield "detectedAt" (fun v => (rustString v).bind parseInstant)
    (.string (rfc3339Micros breach.detectedAt)) t (by simp [occurrences, breachMembers]) hinstant
  have htx : (UInt64.ofNat breach.txCount).toNat = breach.txCount :=
    UInt64.toNat_ofNat_of_lt' hcount
  simp only [decodeBreach, h1, h2, h3, h4, h5, h6, h7, h8, h9, h10, bind, Except.bind, pure,
    Except.pure, htx, UInt64.ofNat_toNat]

theorem parsesBack_gatewayText {t : Int} (hcount : breach.txCount < 2 ^ 64)
    (hinstant : parseInstant (rfc3339Micros breach.detectedAt) = some t) :
    ParsesBack parseInstant (gatewayText rfc3339Micros breach) { breach with detectedAt := t } := by
  refine ⟨breachMembers rfc3339Micros breach, ?_, rfl, decodeBreach_breachMembers hcount hinstant⟩
  rw [gatewayText_eq]
  exact read_render _

theorem ParsesBack.unique {text : List Char} {breach breach' : VelocityBreach}
    (h : ParsesBack parseInstant text breach) (h' : ParsesBack parseInstant text breach') :
    breach = breach' := by
  obtain ⟨members, hread, _, hdecode⟩ := h
  obtain ⟨members', hread', _, hdecode'⟩ := h'
  obtain rfl := Value.object.inj (Option.some.inj (hread.symm.trans hread'))
  exact Except.ok.inj (hdecode.symm.trans hdecode')

/-- A breach is sent exactly if its six fields are within their bound, and its
text keeps to the computed size and gives the breach back, to the microsecond. -/
theorem encodeGatewayBreach_spec (hcount : breach.txCount < 2 ^ 64)
    (hsize : (rfc3339Micros breach.detectedAt).utf8ByteSize ≤ 32)
    (hinstant : parseInstant (rfc3339Micros breach.detectedAt) =
      some (wholeMicros breach.detectedAt)) :
    ((∃ text, encodeGatewayBreach rfc3339Micros breach = some text) ↔ FieldsBounded breach) ∧
      ∀ text, encodeGatewayBreach rfc3339Micros breach = some text →
        byteLength text ≤ maxBoundGatewayJsonBytes ∧
          ParsesBack parseInstant text
            { breach with detectedAt := wholeMicros breach.detectedAt } := by
  have hlong : (rfc3339Micros breach.detectedAt).utf8ByteSize ≤ 64 := by omega
  obtain ⟨hsent, hrefused⟩ := encodeGatewayBreach_eq_ite hlong hcount
  have hsome : ∀ text, encodeGatewayBreach rfc3339Micros breach = some text →
      FieldsBounded breach := by
    intro text htext
    by_contra hfields
    rw [hrefused hfields] at htext
    exact Option.some_ne_none text htext.symm
  constructor
  · constructor
    · rintro ⟨text, htext⟩
      exact hsome text htext
    · intro hfields
      exact ⟨_, hsent hfields⟩
  · intro text htext
    have hfields := hsome text htext
    obtain rfl := Option.some.inj ((hsent hfields).symm.trans htext)
    constructor
    · have hsum := byteLength_gatewayText_le_sum rfc3339Micros hcount
      have hbound := sum_gatewayFields_le hfields
      simp only [maxBoundGatewayJsonBytes, maxGatewayFixedJsonBytes]
      omega
    · exact parsesBack_gatewayText hcount hinstant

end Text

/-- A breach detected 123456789 nanoseconds into a second. -/
def preciseBreach : VelocityBreach :=
  { alertId := "a-1", accountId := "ACC001", tenantId := "t1", ruleName := "COUNT_1MIN"
    riskLevel := "high", windowSecs := 60, txCount := 6, totalAmountKobo := 60000
    triggeringTxRef := "TX1", detectedAt := 1709287200123456789 }

/-- Chrono's text of the instant of that breach. -/
def preciseInstant (_ : Int) : String := "2024-03-01T10:00:00.123456Z"

def readPreciseInstant (text : String) : Option Int :=
  if text = "2024-03-01T10:00:00.123456Z" then some 1709287200123456000 else none

theorem preciseBreach_spec :
    ((∃ text, encodeGatewayBreach preciseInstant preciseBreach = some text) ↔
        FieldsBounded preciseBreach) ∧
      ∀ text, encodeGatewayBreach preciseInstant preciseBreach = some text →
        byteLength text ≤ maxBoundGatewayJsonBytes ∧
          ParsesBack readPreciseInstant text
            { preciseBreach with detectedAt := wholeMicros preciseBreach.detectedAt } :=
  encodeGatewayBreach_spec (by decide) (by decide) (by decide)

/-- The nanoseconds do not come back. -/
theorem preciseBreach_not_parsed_back :
    ∃ text, encodeGatewayBreach preciseInstant preciseBreach = some text ∧
      ¬ ParsesBack readPreciseInstant text preciseBreach := by
  have hfields : FieldsBounded preciseBreach := by
    simp only [FieldsBounded, gatewayFields, preciseBreach]
    decide
  have hsize : (preciseInstant preciseBreach.detectedAt).utf8ByteSize ≤ 64 := by decide
  have hsent := (encodeGatewayBreach_eq_ite hsize (by decide)).1 hfields
  have hparsed : ParsesBack readPreciseInstant (gatewayText preciseInstant preciseBreach)
      { preciseBreach with detectedAt := 1709287200123456000 } :=
    parsesBack_gatewayText (by decide) (by decide)
  refine ⟨_, hsent, ?_⟩
  intro hsame
  have hinstant := congrArg VelocityBreach.detectedAt (hparsed.unique hsame)
  revert hinstant
  decide

end Bis.Velocity
