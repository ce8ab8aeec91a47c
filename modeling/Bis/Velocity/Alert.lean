import Bis.Json.Escape
import Bis.Json.RoundTrip
import Bis.Json.Struct
import Bis.Velocity.Engine
import Mathlib.Algebra.GroupWithZero.Nat

/-!
A velocity breach on its way to the gateway: the JSON text the velocity service
writes by hand, and the struct and the handler the gateway reads it with. The
text of an instant is chrono's and is an argument.

The log line of the handler, its answer's body and the text of a decoding error
are left out.
-/

namespace Bis.Velocity

open Bis.Json List

/-! ### Velocity service -/

def maxGatewayBreachFieldBytes : Nat := 256
def maxGatewayBreachPayloadBytes : Nat := 16 * 1024
def gatewayVariableFieldCount : Nat := 6
def maxGatewayFixedJsonBytes : Nat := 512

def maxBoundGatewayJsonBytes : Nat :=
  maxGatewayFixedJsonBytes + gatewayVariableFieldCount * maxGatewayBreachFieldBytes * 6

/-- `char::is_control`. -/
def isControl (c : Char) : Bool := c.toNat < 0x20 || (0x7f ≤ c.toNat && c.toNat < 0xa0)

def pushCharacter (c : Char) : List Char :=
  match c with
  | '"' => ['\\', '"']
  | '\\' => ['\\', '\\']
  | '\x08' => ['\\', 'b']
  | '\x0c' => ['\\', 'f']
  | '\n' => ['\\', 'n']
  | '\r' => ['\\', 'r']
  | '\t' => ['\\', 't']
  | c => if isControl c then unitEscape c.toNat else [c]

def pushJsonString (output : List Char) (value : String) : List Char :=
  output ++ '"' :: (value.toList.flatMap pushCharacter ++ ['"'])

def pushJsonField (output : List Char) (name value : String) : List Char :=
  pushJsonString (output ++ '"' :: (name.toList ++ ['"', ':'])) value

def byteLength (text : List Char) : Nat := (text.map Char.utf8Size).sum

def gatewayFields (breach : VelocityBreach) : List String :=
  [breach.alertId, breach.accountId, breach.tenantId, breach.ruleName, breach.riskLevel,
    breach.triggeringTxRef]

/-- The string that `encode_gateway_breach` pushes together. -/
def gatewayText (rfc3339Micros : Int → String) (breach : VelocityBreach) : List Char :=
  let encoded := ['{']
  let encoded := pushJsonField encoded "alertId" breach.alertId ++ [',']
  let encoded := pushJsonField encoded "accountId" breach.accountId ++ [',']
  let encoded := pushJsonField encoded "tenantId" breach.tenantId ++ [',']
  let encoded := pushJsonField encoded "ruleName" breach.ruleName ++ [',']
  let encoded := pushJsonField encoded "riskLevel" breach.riskLevel ++ [',']
  let encoded := encoded ++ "\"windowSecs\":".toList ++ decimal breach.windowSecs.toNat ++
    ",\"txCount\":".toList ++ decimal breach.txCount ++
    ",\"totalAmountKobo\":".toList ++ decimal breach.totalAmountKobo.toInt ++ [',']
  let encoded := pushJsonField encoded "triggeringTxRef" breach.triggeringTxRef ++ [',']
  pushJsonField encoded "detectedAt" (rfc3339Micros breach.detectedAt) ++ ['}']

/-- The text sent for a breach; `none` refuses a breach that is too large. -/
def encodeGatewayBreach (rfc3339Micros : Int → String) (breach : VelocityBreach) :
    Option (List Char) :=
  if (∃ field ∈ gatewayFields breach, maxGatewayBreachFieldBytes < field.utf8ByteSize) ∨
      maxGatewayBreachPayloadBytes < maxBoundGatewayJsonBytes then none
  else if maxGatewayBreachPayloadBytes < byteLength (gatewayText rfc3339Micros breach) then none
  else some (gatewayText rfc3339Micros breach)

/-! ### Gateway -/

structure VelocityAlertRequest where
  (alertID accountID ruleName : String)
  (txCount totalKobo windowSec : Int)
  score : Rat
  (tenantID triggeredAt : String)

def VelocityAlertRequest.zero : VelocityAlertRequest :=
  { alertID := "", accountID := "", ruleName := "", txCount := 0, totalKobo := 0, windowSec := 0
    score := 0, tenantID := "", triggeredAt := "" }

def alertTags : List String :=
  ["alert_id", "account_id", "rule_name", "tx_count", "total_kobo", "window_sec", "score",
    "tenant_id", "triggered_at"]

def assignAlert (tag : String) (v : Value) (alert : VelocityAlertRequest) :
    Option VelocityAlertRequest :=
  match tag with
  | "alert_id" => (goString alert.alertID v).map fun x => { alert with alertID := x }
  | "account_id" => (goString alert.accountID v).map fun x => { alert with accountID := x }
  | "rule_name" => (goString alert.ruleName v).map fun x => { alert with ruleName := x }
  | "tx_count" => (goInt64 alert.txCount v).map fun x => { alert with txCount := x }
  | "total_kobo" => (goInt64 alert.totalKobo v).map fun x => { alert with totalKobo := x }
  | "window_sec" => (goInt64 alert.windowSec v).map fun x => { alert with windowSec := x }
  | "score" => (goFloat64 alert.score v).map fun x => { alert with score := x }
  | "tenant_id" => (goString alert.tenantID v).map fun x => { alert with tenantID := x }
  | "triggered_at" => (goString alert.triggeredAt v).map fun x => { alert with triggeredAt := x }
  | _ => some alert

def velocitySeverity (score : Rat) : String :=
  if 9 / 10 ≤ score then "critical"
  else if 7 / 10 ≤ score then "high"
  else if 5 / 10 ≤ score then "medium"
  else "low"

/-- `io.LimitReader`. -/
def limitReader : Nat → List Char → List Char
  | _, [] => []
  | limit, c :: rest =>
    if c.utf8Size ≤ limit then c :: limitReader (limit - c.utf8Size) rest else []

/-- What the handler publishes and what it forwards to the event processor. -/
structure AlertEvents where
  eventType : String
  published : VelocityAlertRequest
  (subjectRef severity : String)
  payload : VelocityAlertRequest
  source : String

structure HttpError where
  status : Nat
  code : String

/-- Go's decoder puts a replacement character where a surrogate has no partner. -/
def goLone : Option Char := some '\ufffd'

def decodeAlert (body : List Char) : Option VelocityAlertRequest :=
  (readFirst goLone body).bind fun p =>
    decodeStruct alertTags assignAlert VelocityAlertRequest.zero p.1

def handleVelocityAlert (method : String) (body : List Char) : Except HttpError AlertEvents :=
  if method ≠ "POST" then .error { status := 405, code := "METHOD_NOT_ALLOWED" }
  else
    match decodeAlert (limitReader (64 * 1024) body) with
    | none => .error { status := 400, code := "INVALID_BODY" }
    | some alert =>
      .ok
        { eventType := "VELOCITY_BREACH", published := alert, subjectRef := alert.accountID
          severity := velocitySeverity alert.score, payload := alert
          source := "fluvio-velocity" }

/-! ### The text -/

/-- What the service escapes is given back by every JSON reader. -/
def gatewayTable : EscapeTable :=
  EscapeTable.ofCoded isControl
    (fun c h => by
      simp only [isControl, Bool.or_eq_true, Bool.and_eq_true, decide_eq_true_eq] at h
      omega)
    (fun c h => by simp [isControl, h])

theorem pushCharacter_eq (c : Char) : pushCharacter c = gatewayTable.escape.write c := by
  change _ = gatewayTable.write c
  unfold pushCharacter EscapeTable.write gatewayTable EscapeTable.ofCoded
  split <;> try rfl
  next h1 h2 h3 h4 h5 h6 h7 =>
    have hletter : escapeLetter c = none := by
      unfold escapeLetter
      split <;> first | rfl | contradiction
    simp only [hletter]

def breachMembers (rfc3339Micros : Int → String) (breach : VelocityBreach) :
    List (String × Value) :=
  [("alertId", .string breach.alertId), ("accountId", .string breach.accountId),
    ("tenantId", .string breach.tenantId), ("ruleName", .string breach.ruleName),
    ("riskLevel", .string breach.riskLevel),
    ("windowSecs", .number (.ofInt breach.windowSecs.toNat)),
    ("txCount", .number (.ofInt breach.txCount)),
    ("totalAmountKobo", .number (.ofInt breach.totalAmountKobo.toInt)),
    ("triggeringTxRef", .string breach.triggeringTxRef),
    ("detectedAt", .string (rfc3339Micros breach.detectedAt))]

theorem pushJsonString_eq (output : List Char) (value : String) :
    pushJsonString output value = output ++ gatewayTable.escape.quoted value := by
  simp only [pushJsonString, Escape.quoted, funext pushCharacter_eq]

variable {name : String} {breach : VelocityBreach} {rfc3339Micros : Int → String}

/-- A name without a character to escape. -/
theorem quoted_name (h : ∀ c ∈ name.toList, pushCharacter c = [c]) :
    gatewayTable.escape.quoted name = '"' :: (name.toList ++ ['"']) := by
  have hsame : name.toList.flatMap gatewayTable.escape.write = name.toList := by
    rw [← funext pushCharacter_eq]
    generalize name.toList = characters at h
    induction characters with
    | nil => rfl
    | cons c rest ih =>
      rw [flatMap_cons, h c mem_cons_self,
        ih fun other hother => h other (mem_cons_of_mem _ hother)]
      rfl
  rw [Escape.quoted, hsame]

theorem pushJsonField_eq (output : List Char) (value : String)
    (h : ∀ c ∈ name.toList, pushCharacter c = [c]) :
    pushJsonField output name value = output ++ (gatewayTable.escape.quoted name ++
      ':' :: gatewayTable.escape.quoted value) := by
  rw [pushJsonField, pushJsonString_eq, quoted_name h]
  simp

def breachKeys : List String :=
  ["alertId", "accountId", "tenantId", "ruleName", "riskLevel", "windowSecs", "txCount",
    "totalAmountKobo", "triggeringTxRef", "detectedAt"]

theorem pushCharacter_of_mem_breachKeys (h : name ∈ breachKeys) :
    ∀ c ∈ name.toList, pushCharacter c = [c] := by
  have hall : ∀ name ∈ breachKeys, ∀ c ∈ name.toList, pushCharacter c = [c] := by
    simp [breachKeys, pushCharacter, isControl]
  exact hall name h

/-- The text is the JSON object of the fields, whatever the fields contain. -/
theorem gatewayText_eq (rfc3339Micros : Int → String) (breach : VelocityBreach) :
    gatewayText rfc3339Micros breach =
      render gatewayTable.escape (.object (breachMembers rfc3339Micros breach)) := by
  have hplain : ∀ name ∈ breachKeys, ∀ c ∈ name.toList, pushCharacter c = [c] :=
    fun name h => pushCharacter_of_mem_breachKeys h
  simp only [breachKeys, forall_mem_cons] at hplain
  obtain ⟨h1, h2, h3, h4, h5, h6, h7, h8, h9, h10, -⟩ := hplain
  simp only [gatewayText, breachMembers, render, renderMembers, pushJsonField_eq _ _ h1,
    pushJsonField_eq _ _ h2, pushJsonField_eq _ _ h3, pushJsonField_eq _ _ h4,
    pushJsonField_eq _ _ h5, quoted_name h6, quoted_name h7, quoted_name h8,
    pushJsonField_eq _ _ h9, pushJsonField_eq _ _ h10]
  simp [Number.ofInt]

/-! ### Its size -/

@[simp]
theorem byteLength_nil : byteLength [] = 0 := rfl

@[simp]
theorem byteLength_cons (c : Char) (text : List Char) :
    byteLength (c :: text) = c.utf8Size + byteLength text := by
  simp [byteLength]

@[simp]
theorem byteLength_append (first second : List Char) :
    byteLength (first ++ second) = byteLength first + byteLength second := by
  simp [byteLength]

theorem utf8ByteSize_ofList (characters : List Char) :
    (String.ofList characters).utf8ByteSize = byteLength characters := by
  induction characters with
  | nil => rfl
  | cons c rest ih =>
    have hcons : (String.ofList (c :: rest)).utf8ByteSize =
        c.utf8Size + (String.ofList rest).utf8ByteSize := by simp
    rw [hcons, ih, byteLength_cons]

theorem byteLength_toList (text : String) : byteLength text.toList = text.utf8ByteSize := by
  rw [← utf8ByteSize_ofList, String.ofList_toList]

theorem utf8Size_digitChar {d : Nat} (h : d < 16) : (Nat.digitChar d).utf8Size = 1 := by
  have hall : ∀ d : Fin 16, (Nat.digitChar d).utf8Size = 1 := by decide
  exact hall ⟨d, h⟩

/-- A byte is written in six at most. -/
theorem byteLength_pushCharacter_le (c : Char) : byteLength (pushCharacter c) ≤ 6 * c.utf8Size := by
  have hpos := c.utf8Size_pos
  unfold pushCharacter
  split
  case h_8 =>
    split
    · simp only [unitEscape, byteLength_cons, byteLength_nil,
        utf8Size_digitChar (Nat.mod_lt _ (by omega : 0 < 16))]
      have hslash : '\\'.utf8Size = 1 := by decide
      have hletter : 'u'.utf8Size = 1 := by decide
      omega
    · simp only [byteLength_cons, byteLength_nil]
      omega
  all_goals
    simp only [byteLength_cons, byteLength_nil]
    decide

theorem byteLength_flatMap_le (characters : List Char) :
    byteLength (characters.flatMap pushCharacter) ≤ 6 * byteLength characters := by
  induction characters with
  | nil => exact Nat.le_refl 0
  | cons c rest ih =>
    have hc := byteLength_pushCharacter_le c
    rw [flatMap_cons, byteLength_append, byteLength_cons]
    omega

/-- What one field adds to the text. -/
def fieldText (name value : String) : List Char := pushJsonField [] name value

theorem pushJsonField_eq_append (output : List Char) (name value : String) :
    pushJsonField output name value = output ++ fieldText name value := by
  simp [fieldText, pushJsonField, pushJsonString]

theorem byteLength_fieldText_le (name value : String) :
    byteLength (fieldText name value) ≤ name.utf8ByteSize + 6 * value.utf8ByteSize + 5 := by
  have hvalue := byteLength_flatMap_le value.toList
  have hquote : '"'.utf8Size = 1 := by decide
  have hcolon : ':'.utf8Size = 1 := by decide
  rw [byteLength_toList] at hvalue
  simp only [fieldText, pushJsonField, pushJsonString, byteLength_append, byteLength_cons,
    byteLength_nil, byteLength_toList]
  omega

theorem utf8Size_of_isDigit {c : Char} (h : c.isDigit = true) : c.utf8Size = 1 := by
  have hle : c.val ≤ '9'.val := by
    rw [Char.isDigit, Bool.and_eq_true, decide_eq_true_eq, decide_eq_true_eq] at h
    exact h.2
  exact if_pos (UInt32.le_trans hle (by decide))

theorem byteLength_decimal_le {n : Int} (h : n.natAbs < 2 ^ 64) : byteLength (decimal n) ≤ 21 := by
  have hdigits : ∀ text : List Char, (∀ c ∈ text, c.isDigit = true) →
      byteLength text = text.length := by
    intro text htext
    induction text with
    | nil => rfl
    | cons c rest ih =>
      rw [byteLength_cons, utf8Size_of_isDigit (htext c mem_cons_self),
        ih fun other hother => htext other (mem_cons_of_mem _ hother), length_cons]
      omega
  have hlength := length_decimal_le h
  have hminus : '-'.utf8Size = 1 := by decide
  have hmagnitude := hdigits _ (isDigit_digits (n := n.natAbs))
  unfold decimal at hlength ⊢
  split at hlength
  next hneg =>
    rw [if_pos hneg, byteLength_cons]
    rw [length_cons] at hlength
    omega
  next hnonneg =>
    rw [if_neg hnonneg]
    omega

/-- No request-derived field is over its bound. -/
def FieldsBounded (breach : VelocityBreach) : Prop :=
  ∀ field ∈ gatewayFields breach, field.utf8ByteSize ≤ maxGatewayBreachFieldBytes

/-- What the text takes beside the fields and the instant. -/
theorem byteLength_gatewayText_le_sum (rfc3339Micros : Int → String)
    (hcount : breach.txCount < 2 ^ 64) :
    byteLength (gatewayText rfc3339Micros breach) ≤
      6 * ((gatewayFields breach).map String.utf8ByteSize).sum +
        6 * (rfc3339Micros breach.detectedAt).utf8ByteSize + 216 := by
  have hwindow : byteLength (decimal breach.windowSecs.toNat) ≤ 21 :=
    byteLength_decimal_le (by have := breach.windowSecs.toNat_lt; omega)
  have htx : byteLength (decimal breach.txCount) ≤ 21 := byteLength_decimal_le (by omega)
  have htotal : byteLength (decimal breach.totalAmountKobo.toInt) ≤ 21 := by
    have hlow := breach.totalAmountKobo.le_toInt
    have hhigh := breach.totalAmountKobo.toInt_lt
    exact byteLength_decimal_le (by omega)
  have hopen : byteLength ['{'] = 1 := by decide
  have hclose : byteLength ['}'] = 1 := by decide
  have hcomma : byteLength [','] = 1 := by decide
  have hnames : "alertId".utf8ByteSize = 7 ∧ "accountId".utf8ByteSize = 9 ∧
      "tenantId".utf8ByteSize = 8 ∧ "ruleName".utf8ByteSize = 8 ∧ "riskLevel".utf8ByteSize = 9 ∧
      "triggeringTxRef".utf8ByteSize = 15 ∧ "detectedAt".utf8ByteSize = 10 ∧
      byteLength "\"windowSecs\":".toList = 13 ∧ byteLength ",\"txCount\":".toList = 11 ∧
      byteLength ",\"totalAmountKobo\":".toList = 19 := by decide
  obtain ⟨n1, n2, n3, n4, n5, n6, n7, n8, n9, n10⟩ := hnames
  have f1 := byteLength_fieldText_le "alertId" breach.alertId
  have f2 := byteLength_fieldText_le "accountId" breach.accountId
  have f3 := byteLength_fieldText_le "tenantId" breach.tenantId
  have f4 := byteLength_fieldText_le "ruleName" breach.ruleName
  have f5 := byteLength_fieldText_le "riskLevel" breach.riskLevel
  have f6 := byteLength_fieldText_le "triggeringTxRef" breach.triggeringTxRef
  have f7 := byteLength_fieldText_le "detectedAt" (rfc3339Micros breach.detectedAt)
  simp only [gatewayText, pushJsonField_eq_append, byteLength_append, gatewayFields,
    map_cons, map_nil, sum_cons, sum_nil]
  omega

theorem sum_gatewayFields_le (hfields : FieldsBounded breach) :
    ((gatewayFields breach).map String.utf8ByteSize).sum ≤
      gatewayVariableFieldCount * maxGatewayBreachFieldBytes := by
  simp only [FieldsBounded, gatewayFields, maxGatewayBreachFieldBytes, forall_mem_cons]
    at hfields
  obtain ⟨h1, h2, h3, h4, h5, h6, -⟩ := hfields
  simp only [gatewayFields, map_cons, map_nil, sum_cons, sum_nil,
    gatewayVariableFieldCount, maxGatewayBreachFieldBytes]
  omega

/-- The bound on the fields keeps the text within its buffer. -/
theorem byteLength_gatewayText_le (hinstant : (rfc3339Micros breach.detectedAt).utf8ByteSize ≤ 64)
    (hcount : breach.txCount < 2 ^ 64) (hfields : FieldsBounded breach) :
    byteLength (gatewayText rfc3339Micros breach) ≤ maxGatewayBreachPayloadBytes := by
  have hsum := byteLength_gatewayText_le_sum rfc3339Micros hcount
  have hbound := sum_gatewayFields_le hfields
  simp only [gatewayVariableFieldCount, maxGatewayBreachFieldBytes] at hbound
  simp only [maxGatewayBreachPayloadBytes]
  omega

/-- A breach is sent exactly when its fields are within their bound. -/
theorem encodeGatewayBreach_eq_ite (hinstant : (rfc3339Micros breach.detectedAt).utf8ByteSize ≤ 64)
    (hcount : breach.txCount < 2 ^ 64) :
    (FieldsBounded breach → encodeGatewayBreach rfc3339Micros breach =
        some (gatewayText rfc3339Micros breach)) ∧
      (¬FieldsBounded breach → encodeGatewayBreach rfc3339Micros breach = none) := by
  have hconstants : ¬maxGatewayBreachPayloadBytes < maxBoundGatewayJsonBytes := by decide
  constructor
  · intro hfields
    have hsize := byteLength_gatewayText_le hinstant hcount hfields
    have hsmall : ¬∃ field ∈ gatewayFields breach,
        maxGatewayBreachFieldBytes < field.utf8ByteSize := by
      rintro ⟨field, hmem, hlarge⟩
      have hbound := hfields field hmem
      omega
    rw [encodeGatewayBreach, if_neg (by simp [hsmall, hconstants]), if_neg (by omega)]
  · intro hfields
    have hlarge : ∃ field ∈ gatewayFields breach,
        maxGatewayBreachFieldBytes < field.utf8ByteSize := by
      simpa [FieldsBounded] using hfields
    rw [encodeGatewayBreach, if_pos (.inl hlarge)]

/-! ### What the gateway reads -/

theorem limitReader_of_le {text : List Char} {limit : Nat} (h : byteLength text ≤ limit) :
    limitReader limit text = text := by
  induction text generalizing limit with
  | nil => cases limit <;> rfl
  | cons c rest ih =>
    rw [byteLength_cons] at h
    rw [limitReader, if_pos (by omega), ih (by omega)]

/-- No name the velocity service writes is a tag of the struct, in any case. -/
theorem tagFor_breachKeys : ∀ key ∈ breachKeys, tagFor alertTags key = none := by decide

theorem decodeAlert_gatewayText (rfc3339Micros : Int → String) (breach : VelocityBreach) :
    decodeAlert (gatewayText rfc3339Micros breach) = some VelocityAlertRequest.zero := by
  rw [gatewayText_eq, decodeAlert, readFirst_render, Option.bind_some]
  exact decodeMembers_of_foreign _ tagFor_breachKeys

/-- The handler takes every breach for one and the same blank alert. -/
theorem handleVelocityAlert_gatewayText
    (hsize : byteLength (gatewayText rfc3339Micros breach) ≤ 64 * 1024) :
    handleVelocityAlert "POST" (gatewayText rfc3339Micros breach) =
      .ok
        { eventType := "VELOCITY_BREACH", published := VelocityAlertRequest.zero, subjectRef := ""
          severity := "low", payload := VelocityAlertRequest.zero, source := "fluvio-velocity" } := by
  have hlow : ¬ (9 / 10 : Rat) ≤ 0 ∧ ¬ (7 / 10 : Rat) ≤ 0 ∧ ¬ (5 / 10 : Rat) ≤ 0 := by
    decide +kernel
  have hseverity : velocitySeverity 0 = "low" := by simp [velocitySeverity, hlow]
  rw [handleVelocityAlert, if_neg (by simp), limitReader_of_le hsize, decodeAlert_gatewayText]
  simp only [VelocityAlertRequest.zero, hseverity]

/-- The gateway acts on the alert, account, rule, level, count, total and window
of the breach. -/
def AlertEvents.Agrees (events : AlertEvents) (breach : VelocityBreach) : Prop :=
  events.published.alertID = breach.alertId ∧ events.published.accountID = breach.accountId ∧
    events.published.ruleName = breach.ruleName ∧ events.severity = breach.riskLevel ∧
    events.published.txCount = breach.txCount ∧
    events.published.totalKobo = breach.totalAmountKobo.toInt ∧
    events.published.windowSec = breach.windowSecs.toNat

/-- What is sent for the breach is acted on as the breach it was. -/
def Recovered (rfc3339Micros : Int → String) (breach : VelocityBreach) : Prop :=
  ∀ text, encodeGatewayBreach rfc3339Micros breach = some text →
    ∃ events, handleVelocityAlert "POST" text = .ok events ∧ events.Agrees breach

/-- A breach all of whose values are the ones a field has that is never written. -/
def Blank (breach : VelocityBreach) : Prop :=
  breach.alertId = "" ∧ breach.accountId = "" ∧ breach.ruleName = "" ∧ breach.riskLevel = "low" ∧
    breach.txCount = 0 ∧ breach.totalAmountKobo = 0 ∧ breach.windowSecs = 0

theorem agrees_zero_iff {events : AlertEvents}
    (hpublished : events.published = VelocityAlertRequest.zero)
    (hseverity : events.severity = "low") : events.Agrees breach ↔ Blank breach := by
  have htotal : (0 : Int) = breach.totalAmountKobo.toInt ↔ breach.totalAmountKobo = 0 := by
    rw [← Int64.toInt_inj]
    exact eq_comm
  have hwindow : (0 : Int) = breach.windowSecs.toNat ↔ breach.windowSecs = 0 := by
    rw [← UInt64.toNat_inj]
    have hzero : (0 : UInt64).toNat = 0 := rfl
    omega
  have hcount : (0 : Int) = breach.txCount ↔ breach.txCount = 0 := by omega
  simp only [AlertEvents.Agrees, Blank, hpublished, hseverity, VelocityAlertRequest.zero, htotal,
    hwindow, hcount, eq_comm]

/-- The gateway recovers a breach only if there is nothing in it to recover. -/
theorem recovered_iff_blank {rfc3339Micros : Int → String} (breach : VelocityBreach)
    (hinstant : ∀ t, (rfc3339Micros t).utf8ByteSize ≤ 64) (hcount : breach.txCount < 2 ^ 64) :
    Recovered rfc3339Micros breach ↔ (FieldsBounded breach → Blank breach) := by
  obtain ⟨hsent, hrefused⟩ := encodeGatewayBreach_eq_ite (hinstant breach.detectedAt) hcount
  by_cases hfields : FieldsBounded breach
  · have hsize := byteLength_gatewayText_le (hinstant breach.detectedAt) hcount hfields
    have hhandled := handleVelocityAlert_gatewayText (Nat.le_trans hsize (by decide))
    constructor
    · intro h _
      obtain ⟨events, hevents, hagrees⟩ := h _ (hsent hfields)
      obtain rfl := Except.ok.inj (hhandled.symm.trans hevents)
      exact (agrees_zero_iff rfl rfl).mp hagrees
    · intro h text htext
      obtain rfl := Option.some.inj ((hsent hfields).symm.trans htext)
      exact ⟨_, hhandled, (agrees_zero_iff rfl rfl).mpr (h hfields)⟩
  · have hnone := hrefused hfields
    simp [Recovered, hnone, hfields]

/-- One payment above the day's limit: a critical breach of 25 million naira. -/
def largeTransferBreach : VelocityBreach :=
  { alertId := "a-1", accountId := "ACC001", tenantId := "t1", ruleName := "AMOUNT_24HOUR_NGN"
    riskLevel := "critical", windowSecs := 86400, txCount := 1, totalAmountKobo := 2500000000
    triggeringTxRef := "TX1", detectedAt := 1709287200000000000 }

/-- Chrono's text of the instant of that breach. -/
def largeTransferInstant (_ : Int) : String := "2024-03-01T10:00:00.000000Z"

theorem largeTransfer_recovered_iff :
    ((∀ t, (largeTransferInstant t).utf8ByteSize ≤ 64) ∧ largeTransferBreach.txCount < 2 ^ 64) ∧
      (Recovered largeTransferInstant largeTransferBreach ↔
        (FieldsBounded largeTransferBreach → Blank largeTransferBreach)) := by
  have hinstant : ∀ t, (largeTransferInstant t).utf8ByteSize ≤ 64 := by
    intro t
    unfold largeTransferInstant
    decide
  have hcount : largeTransferBreach.txCount < 2 ^ 64 := by decide
  exact ⟨⟨hinstant, hcount⟩, recovered_iff_blank largeTransferBreach hinstant hcount⟩

theorem largeTransfer_read_as_blank :
    ∃ text, encodeGatewayBreach largeTransferInstant largeTransferBreach = some text ∧
      (∃ events, handleVelocityAlert "POST" text = .ok events ∧ events.severity = "low" ∧
        events.published.alertID = "" ∧ events.published.totalKobo = 0) ∧
      ¬Recovered largeTransferInstant largeTransferBreach := by
  have hinstant : (largeTransferInstant largeTransferBreach.detectedAt).utf8ByteSize ≤ 64 := by
    decide
  have hfields : FieldsBounded largeTransferBreach := by
    simp only [FieldsBounded, gatewayFields, largeTransferBreach]
    decide
  have hsent := (encodeGatewayBreach_eq_ite hinstant (by decide)).1 hfields
  have hsize := byteLength_gatewayText_le hinstant (by decide) hfields
  have hhandled := handleVelocityAlert_gatewayText (Nat.le_trans hsize (by decide))
  refine ⟨_, hsent, ⟨_, hhandled, rfl, rfl, rfl⟩, ?_⟩
  intro h
  obtain ⟨events, hevents, hagrees⟩ := h _ hsent
  obtain rfl := Except.ok.inj (hhandled.symm.trans hevents)
  exact absurd hagrees.1 (by decide)

end Bis.Velocity
