import Bis.Calendar.Iso
import Bis.Encoding.Base64Url
import Bis.Json.Decimal
import Bis.Json.Escape
import Bis.Json.RoundTrip
import Bis.TigerBeetle.TransferId

/-!
The cursor of the PII forensic audit trail: a JSON payload in base64url, a dot
and the HMAC of the encoded payload under a key of the cursor keyring. An older
release signed with the audit secret; its cursors are still read.

Keys, lifetimes and the audit secret come from the environment and are parsed
anew on every use. One request sees one instant of the clock.
-/

namespace Bis.Pii

open Bis.Calendar Bis.Encoding Bis.Json Bis.Number Bis.Transition List
open Bis.TigerBeetle (length_utf8_le natAbs_toInt_lt utf8 utf8_injective)

/-! ### The runtime -/

def isHex64 (text : String) : Bool :=
  text.toList.length == 64 && text.toList.all fun c => c.isDigit || ('a' ≤ c && c ≤ 'f')

/-- What Node does and the code does not look into: the digest in hexadecimal,
the text of bytes that are not UTF-8, the date of a text that `toISOString` does
not write, and the number that is not written as an integer. -/
structure Node where
  hmacSha256 : List UInt8 → String → String
  hmacSha256_hex : ∀ key text, isHex64 (hmacSha256 key text) = true
  replacementText : List UInt8 → String
  otherDate : String → Option Int
  otherNumber : Number → Rat

variable (node : Node)

/-- White space and line terminators, as `trim` takes them off. -/
def isJsSpace (c : Char) : Bool :=
  let code := c.toNat
  (9 ≤ code && code ≤ 13) || (0x2000 ≤ code && code ≤ 0x200a) ||
    code ∈ [0x20, 0xa0, 0x1680, 0x2028, 0x2029, 0x202f, 0x205f, 0x3000, 0xfeff]

def jsTrim (text : List Char) : List Char :=
  ((text.dropWhile isJsSpace).reverse.dropWhile isJsSpace).reverse

/-- `length` counts code units of UTF-16. -/
def jsLength (text : List Char) : Nat :=
  (text.map fun c => if c.toNat < 0x10000 then 1 else 2).sum

/-- `Buffer.toString("utf8")`. -/
def Node.utf8Text (bytes : List UInt8) : String :=
  (String.fromUTF8? ⟨bytes.toArray⟩).getD (node.replacementText bytes)

/-- `new Date(text).getTime()`, unless it is not a number. -/
def Node.dateTime (text : String) : Option Int :=
  ((parseISOString text).map Int.ofNat).or (node.otherDate text)

/-- The binary64 number that a JSON number stands for. -/
def Node.numberValue (n : Number) : Rat :=
  match n.toInt? with
  | some i => roundToDouble i
  | none => node.otherNumber n

/-- `JSON.stringify` escapes what `serde_json` does. -/
def jsEscape : Escape := serdeTable.escape

def stringify (v : Value) : String := String.ofList (render jsEscape v)

/-- `JSON.parse`; a surrogate without its partner becomes a replacement character. -/
def parseJson (text : String) : Option Value := read (some '\ufffd') text.toList

/-- A property of a parsed object: of those with one name the last. -/
def property (members : List (String × Value)) (name : String) : Option Value :=
  members.reverse.lookup name

/-- The names that every object has without being given them. -/
def inheritedNames : List String :=
  ["constructor", "__defineGetter__", "__defineSetter__", "hasOwnProperty", "__lookupGetter__",
    "__lookupSetter__", "isPrototypeOf", "propertyIsEnumerable", "toString", "valueOf",
    "__proto__", "toLocaleString"]

/-! ### The environment -/

structure Env where
  (auditHmacSecret cursorTtlSeconds cursorKeyring cursorKeyExpiriesJson : Option String)
  cursorActiveKeyVersion : Option String

inductive ForensicError where
  | cursor
  | thrown (message : String)
  deriving DecidableEq

def trimmed (setting : Option String) : List Char := jsTrim (setting.getD "").toList

def auditSecret (env : Env) : Except ForensicError String :=
  let value := trimmed env.auditHmacSecret
  if value = [] then
    .error (.thrown "AUDIT_HMAC_SECRET is required for PII forensic audit events.")
  else .ok (String.ofList value)

def hmacHex (env : Env) (value : String) : Except ForensicError String := do
  let secret ← auditSecret env
  return node.hmacSha256 (utf8 secret) value

def cursorTtlSeconds (env : Env) : Except ForensicError Nat :=
  match env.cursorTtlSeconds with
  | none => .ok 900
  | some configured =>
    if jsTrim configured.toList = [] then .ok 900
    else if !isDigits configured.toList then
      .error (.thrown "BIS_PII_FORENSIC_CURSOR_TTL_SECONDS must be a whole number.")
    else
      let seconds := Nat.ofDigitChars 10 configured.toList 0
      if seconds < 60 ∨ 3600 < seconds then
        .error (.thrown "BIS_PII_FORENSIC_CURSOR_TTL_SECONDS must be between 60 and 3600.")
      else .ok seconds

/-- `/^[A-Za-z0-9_-]{1,64}$/` -/
def isKeyVersion (text : List Char) : Bool :=
  !text.isEmpty && text.length ≤ 64 && text.all isBase64UrlChar

/-- `/^[A-Za-z0-9_-]+={0,2}$/` -/
def isKeyText (text : List Char) : Bool :=
  let core := (text.reverse.dropWhile (· == '=')).reverse
  !core.isEmpty && core.all isBase64UrlChar && text.length ≤ core.length + 2

abbrev Keyring := List (String × List UInt8)

/-- One turn of the loop over the entries of the keyring. -/
def addKey (keys : Keyring) (entry : List Char) : Except ForensicError Keyring :=
  match entry.idxOf? ':' with
  | none => .error (.thrown "BIS_PII_FORENSIC_CURSOR_KEYRING has an invalid entry.")
  | some separator =>
    let version := jsTrim (entry.take separator)
    let encoded := jsTrim (entry.drop (separator + 1))
    if !isKeyVersion version || separator = 0 || encoded.isEmpty then
      .error (.thrown "BIS_PII_FORENSIC_CURSOR_KEYRING has an invalid entry.")
    else
      let key := base64UrlDecode encoded
      let known := (keys.lookup (String.ofList version)).isSome
      if key.length < 32 || !isKeyText encoded || known then
        .error (.thrown ("BIS_PII_FORENSIC_CURSOR_KEYRING must contain distinct base64url " ++
          "keys of at least 256 bits."))
      else .ok (keys ++ [(String.ofList version, key)])

def cursorKeyring (env : Env) : Except ForensicError Keyring :=
  let raw := trimmed env.cursorKeyring
  if raw = [] then
    .error (.thrown "BIS_PII_FORENSIC_CURSOR_KEYRING is required for signed forensic pagination.")
  else (raw.splitOn ',').foldlM addKey []

def invalidTimestamp : ForensicError :=
  .thrown "BIS_PII_FORENSIC_CURSOR_KEY_EXPIRIES_JSON has an invalid timestamp."

def cursorKeyExpiry (env : Env) (version : String) : Except ForensicError (Option Int) :=
  let raw := trimmed env.cursorKeyExpiriesJson
  if raw = [] then .ok none
  else
    match parseJson (String.ofList raw) with
    | none =>
      .error (.thrown "BIS_PII_FORENSIC_CURSOR_KEY_EXPIRIES_JSON must be valid JSON.")
    | some (.object members) =>
      match property members version with
      | some (.string text) =>
        match node.dateTime text with
        | some time => .ok (some time)
        | none => .error invalidTimestamp
      | some _ => .error invalidTimestamp
      | none => if version ∈ inheritedNames then .error invalidTimestamp else .ok none
    | some _ =>
      .error (.thrown "BIS_PII_FORENSIC_CURSOR_KEY_EXPIRIES_JSON must be an object.")

def expired (now : Nat) (expiry : Option Int) : Bool := expiry.any fun time => time ≤ (now : Int)

def activeCursorKey (env : Env) (now : Nat) : Except ForensicError (String × List UInt8) := do
  let version := String.ofList (trimmed env.cursorActiveKeyVersion)
  let keys ← cursorKeyring env
  match keys.lookup version with
  | none =>
    .error (.thrown ("BIS_PII_FORENSIC_CURSOR_ACTIVE_KEY_VERSION must select a configured " ++
      "cursor key."))
  | some key =>
    let expiry ← cursorKeyExpiry node env version
    if expired now expiry then
      .error (.thrown "The active forensic cursor signing key is expired.")
    else .ok (version, key)

/-! ### Cursors -/

/-- The bytes of two digests are equal if and only if their lower-case texts are. -/
def fixedTimeHexEqual (actual expected : String) : Bool :=
  isHex64 actual && isHex64 expected && actual == expected

def cursorDomain : String := "bis:forensic-cursor:v"

def cursorMessage (version : Nat) (encoded : String) : String :=
  cursorDomain ++ toString version ++ ":" ++ encoded

def cursorHmacHex (version : Nat) (key : List UInt8) (encoded : String) : String :=
  node.hmacSha256 key (cursorMessage version encoded)

/-- What `encodeForensicCursor` is given: `id` is what the driver made of the column. -/
structure CursorPosition where
  tenantId : Int32
  incidentRef : Option String
  createdAt : String
  id : Value

structure ForensicCursorPayload where
  version : Nat
  keyVersion : String
  tenantId : Int32
  incidentRef : Option String
  (createdAt id expiresAt : Int)

def refValue : Option String → Value
  | none => .null
  | some ref => .string ref

/-- The members of a payload; the older release named no key. -/
def cursorMembers (position : CursorPosition) (keyVersion : Option String) (expiresAt : String) :
    List (String × Value) :=
  [("tenantId", .number (.ofInt position.tenantId.toInt)),
    ("incidentRef", refValue position.incidentRef), ("createdAt", .string position.createdAt),
    ("id", position.id)] ++
  match keyVersion with
  | some keyVersion =>
    [("version", .number (.ofInt 3)), ("keyVersion", .string keyVersion),
      ("expiresAt", .string expiresAt)]
  | none => [("version", .number (.ofInt 2)), ("expiresAt", .string expiresAt)]

def encodePayload (members : List (String × Value)) : String :=
  String.ofList (base64UrlEncode (utf8 (stringify (.object members))))

def encodeForensicCursor (env : Env) (now : Nat) (position : CursorPosition) :
    Except ForensicError String := do
  let (version, key) ← activeCursorKey node env now
  let ttl ← cursorTtlSeconds env
  match toISOString (now + ttl * 1000) with
  | none => .error (.thrown "Invalid time value")
  | some expiresAt =>
    let encoded := encodePayload (cursorMembers position (some version) expiresAt)
    .ok (encoded ++ "." ++ cursorHmacHex node 3 key encoded)

def parseCursorPayload (encoded : List Char) : Except ForensicError (List (String × Value)) :=
  if 2048 < jsLength encoded then .error .cursor
  else
    match parseJson (node.utf8Text (base64UrlDecode encoded)) with
    | some (.object members) => .ok members
    | _ => .error .cursor

def isNumber (v : Option Value) (n : Rat) : Bool :=
  match v with
  | some (.number m) => node.numberValue m = n
  | _ => false

def isRef (v : Option Value) (ref : Option String) : Bool :=
  match v, ref with
  | some .null, none => true
  | some (.string text), some ref => text = ref
  | _, _ => false

/-- A text that is a date. -/
def dateProperty (v : Option Value) : Option Int :=
  match v with
  | some (.string text) => node.dateTime text
  | _ => none

/-- A positive safe integer. -/
def idProperty (v : Option Value) : Option Int :=
  match v with
  | some (.number m) =>
    let value := node.numberValue m
    if value.den = 1 ∧ isSafeInteger value.num ∧ 0 < value.num then some value.num else none
  | _ => none

/-- `assertCursorPayload`, and the fields that it has checked. -/
def assertCursorPayload (now : Nat) (members : List (String × Value))
    (tenantId : Int32) (incidentRef : Option String) : Except ForensicError (Int × Int × Int) :=
  if isNumber node (property members "tenantId") tenantId.toInt ∧
      isRef (property members "incidentRef") incidentRef then
    match dateProperty node (property members "createdAt"),
      dateProperty node (property members "expiresAt"), idProperty node (property members "id") with
    | some createdAt, some expiresAt, some id =>
      if expiresAt ≤ now then .error .cursor else .ok (createdAt, id, expiresAt)
    | _, _, _ => .error .cursor
  else .error .cursor

/-- The key that a payload names, unless it is unknown or past its own expiry. -/
def namedKey (env : Env) (now : Nat) (members : List (String × Value)) :
    Except ForensicError (String × List UInt8) :=
  match property members "keyVersion" with
  | some (.string keyVersion) =>
    if isKeyVersion keyVersion.toList then do
      let keys ← cursorKeyring env
      let expiry ← cursorKeyExpiry node env keyVersion
      match keys.lookup keyVersion with
      | some key => if expired now expiry then .error .cursor else .ok (keyVersion, key)
      | none => .error .cursor
    else .error .cursor
  | _ => .error .cursor

def checkCursor (valid : Bool) : Except ForensicError Unit :=
  if valid then .ok () else .error .cursor

/-- The end of both branches of `decodeForensicCursor`. -/
def checkedPayload (now : Nat) (members : List (String × Value)) (tenantId : Int32)
    (incidentRef : Option String) (version : Nat) (keyVersion mac expected : String) :
    Except ForensicError ForensicCursorPayload := do
  checkCursor (fixedTimeHexEqual mac expected)
  let (createdAt, id, expiresAt) ← assertCursorPayload node now members tenantId incidentRef
  return { version, keyVersion, tenantId, incidentRef, createdAt, id, expiresAt }

def decodeForensicCursor (env : Env) (now : Nat) (cursor : String) (tenantId : Int32)
    (incidentRef : Option String) : Except ForensicError ForensicCursorPayload :=
  match cursor.toList.splitOn '.' with
  | [encoded, mac] => do
    checkCursor (!encoded.isEmpty && !mac.isEmpty)
    let members ← parseCursorPayload node encoded
    if isNumber node (property members "version") 2 then do
      let expected ← hmacHex node env (cursorMessage 2 (String.ofList encoded))
      checkedPayload node now members tenantId incidentRef 2 "legacy_audit_hmac"
        (String.ofList mac) expected
    else do
      checkCursor (isNumber node (property members "version") 3)
      let (keyVersion, key) ← namedKey node env now members
      let expected := cursorHmacHex node 3 key (String.ofList encoded)
      checkedPayload node now members tenantId incidentRef 3 keyVersion (String.ofList mac)
        expected
  | _ => .error .cursor

/-! ### What is issued can be read -/

variable {node : Node}

theorem utf8Text_utf8 (text : String) : node.utf8Text (utf8 text) = text := by
  have hbytes : (⟨(utf8 text).toArray⟩ : ByteArray) = text.toByteArray := rfl
  have hread : String.fromUTF8? text.toByteArray = some text := by
    rw [String.fromUTF8?, dif_pos text.isValidUTF8]
    rfl
  rw [Node.utf8Text, hbytes, hread]
  rfl

theorem parseJson_stringify (v : Value) : parseJson (stringify v) = some v := by
  rw [parseJson, stringify, String.toList_ofList]
  exact read_render v

theorem parseCursorPayload_encode {members : List (String × Value)}
    (hlength : jsLength (encodePayload members).toList ≤ 2048) :
    parseCursorPayload node (encodePayload members).toList = .ok members := by
  have hdecode : base64UrlDecode (encodePayload members).toList =
      utf8 (stringify (.object members)) := by
    rw [encodePayload, String.toList_ofList, base64UrlDecode_encode]
  rw [parseCursorPayload, if_neg (by omega), hdecode, utf8Text_utf8, parseJson_stringify]

/-- An accepted text is short enough, so it is its own payload. -/
theorem parseCursorPayload_ok {members members' : List (String × Value)}
    (h : parseCursorPayload node (encodePayload members).toList = .ok members') :
    members' = members := by
  have hlength : jsLength (encodePayload members).toList ≤ 2048 := by
    by_contra hlong
    rw [parseCursorPayload, if_pos (by omega)] at h
    cases h
  rw [parseCursorPayload_encode hlength] at h
  exact (Except.ok.inj h).symm

theorem dot_notMem_encodePayload (members : List (String × Value)) :
    '.' ∉ (encodePayload members).toList := by
  rw [encodePayload, String.toList_ofList]
  intro hdot
  have hall := all_eq_true.mp (all_base64UrlEncode (utf8 (stringify (.object members))))
  exact absurd (hall '.' hdot) (by decide)

variable {text : String} {env : Env} {now : Nat} {tenantId : Int32} {keys : Keyring}
  {key : List UInt8} {incidentRef : Option String}

theorem dot_notMem_hex (h : isHex64 text = true) : '.' ∉ text.toList := by
  intro hdot
  have hall := all_eq_true.mp (Bool.and_eq_true_iff.mp h).2
  exact absurd (hall '.' hdot) (by decide)

theorem splitOn_cursor {encoded mac : List Char} (hencoded : '.' ∉ encoded) (hmac : '.' ∉ mac) :
    (encoded ++ '.' :: mac).splitOn '.' = [encoded, mac] := by
  rw [splitOn_append_cons_self_of_not_mem hencoded, splitOn_eq_singleton hmac]

/-- A cursor that has been given out: by this release under a key of the
keyring, or by the older one under the audit secret. -/
structure Issue where
  keyVersion : Option String
  key : List UInt8
  position : CursorPosition
  expiresAt : Nat
  expiresText : String
  written : toISOString expiresAt = some expiresText

def Issue.members (issue : Issue) : List (String × Value) :=
  cursorMembers issue.position issue.keyVersion issue.expiresText

def Issue.version (issue : Issue) : Nat :=
  match issue.keyVersion with
  | some _ => 3
  | none => 2

def Issue.encoded (issue : Issue) : String := encodePayload issue.members

def Issue.message (issue : Issue) : String := cursorMessage issue.version issue.encoded

def Issue.cursor (node : Node) (issue : Issue) : String :=
  issue.encoded ++ "." ++ node.hmacSha256 issue.key issue.message

variable {position : CursorPosition} {payload : ForensicCursorPayload}

/-- What is given out is signed with the active key and expires after the lifetime. -/
theorem encodeForensicCursor_ok {cursor : String}
    (h : encodeForensicCursor node env now position = .ok cursor) :
    ∃ (issue : Issue) (version : String) (ttl : Nat),
      activeCursorKey node env now = .ok (version, issue.key) ∧
      cursorTtlSeconds env = .ok ttl ∧ issue.expiresAt = now + ttl * 1000 ∧
      issue.keyVersion = some version ∧ issue.position = position ∧
      cursor = issue.cursor node := by
  unfold encodeForensicCursor at h
  obtain ⟨active, hactive, h⟩ := except_bind_ok h
  obtain ⟨ttl, httl, h⟩ := except_bind_ok h
  generalize htime : now + ttl * 1000 = time at h
  cases hiso : toISOString time with
  | none => rw [hiso] at h; cases h
  | some text =>
    rw [hiso] at h
    refine ⟨⟨some active.1, active.2, position, time, text, hiso⟩, active.1, ttl,
      hactive, httl, htime.symm, rfl, rfl, ?_⟩
    exact (Except.ok.inj h).symm

/-! ### What is checked -/

theorem property_tenantId (position : CursorPosition) (keyVersion : Option String)
    (expiresAt : String) :
    property (cursorMembers position keyVersion expiresAt) "tenantId" =
      some (.number (.ofInt position.tenantId.toInt)) := by
  cases keyVersion <;> rfl

theorem property_incidentRef (position : CursorPosition) (keyVersion : Option String)
    (expiresAt : String) :
    property (cursorMembers position keyVersion expiresAt) "incidentRef" =
      some (refValue position.incidentRef) := by
  cases keyVersion <;> rfl

theorem property_createdAt (position : CursorPosition) (keyVersion : Option String)
    (expiresAt : String) :
    property (cursorMembers position keyVersion expiresAt) "createdAt" =
      some (.string position.createdAt) := by
  cases keyVersion <;> rfl

theorem property_id (position : CursorPosition) (keyVersion : Option String)
    (expiresAt : String) :
    property (cursorMembers position keyVersion expiresAt) "id" = some position.id := by
  cases keyVersion <;> rfl

theorem property_expiresAt (position : CursorPosition) (keyVersion : Option String)
    (expiresAt : String) :
    property (cursorMembers position keyVersion expiresAt) "expiresAt" =
      some (.string expiresAt) := by
  cases keyVersion <;> rfl

theorem numberValue_ofInt {i : Int} (h : i.natAbs ≤ 2 ^ 53) : node.numberValue (.ofInt i) = i := by
  rw [Node.numberValue, Number.toInt?_ofInt]
  simp only [roundToDouble_of_small h]

theorem isNumber_ofInt {i j : Int} (h : i.natAbs ≤ 2 ^ 53) :
    isNumber node (some (.number (.ofInt i))) j = true ↔ i = j := by
  simp only [isNumber, numberValue_ofInt h, decide_eq_true_eq, Int.cast_inj]

theorem isRef_refValue {ref ref' : Option String} :
    isRef (some (refValue ref)) ref' = true ↔ ref = ref' := by
  cases ref <;> cases ref' <;> simp [isRef, refValue]

theorem dateTime_toISOString {time : Nat} (h : toISOString time = some text) :
    node.dateTime text = some (time : Int) := by
  rw [Node.dateTime, parseISOString_toISOString h]
  rfl

theorem natAbs_int32_le (n : Int32) : n.toInt.natAbs ≤ 2 ^ 53 := by
  have hlow := n.le_toInt
  have hhigh := n.toInt_lt
  omega

/-- The payload of a cursor passes for its own tenant and incident, before it
expires, and only if the reader takes its instant and its id for valid. -/
theorem assertCursorPayload_members {expiresAt : Nat} {keyVersion : Option String}
    {ref : Option String} {result : Int × Int × Int} (hiso : toISOString expiresAt = some text) :
    assertCursorPayload node now (cursorMembers position keyVersion text) tenantId ref =
        .ok result ↔
      position.tenantId = tenantId ∧ position.incidentRef = ref ∧ now < expiresAt ∧
        ∃ createdAt id, node.dateTime position.createdAt = some createdAt ∧
          idProperty node (some position.id) = some id ∧
          result = (createdAt, id, (expiresAt : Int)) := by
  have hown : (isNumber node (property (cursorMembers position keyVersion text) "tenantId")
      tenantId.toInt ∧ isRef (property (cursorMembers position keyVersion text) "incidentRef") ref) ↔
      position.tenantId = tenantId ∧ position.incidentRef = ref := by
    rw [property_tenantId, property_incidentRef, isRef_refValue,
      isNumber_ofInt (natAbs_int32_le position.tenantId), Int32.toInt_inj]
  have hexpires : dateProperty node (property (cursorMembers position keyVersion text)
      "expiresAt") = some (expiresAt : Int) := by
    rw [property_expiresAt]
    exact dateTime_toISOString hiso
  have hcreated : dateProperty node (property (cursorMembers position keyVersion text)
      "createdAt") = node.dateTime position.createdAt := by
    rw [property_createdAt]
    rfl
  unfold assertCursorPayload
  rw [hexpires, hcreated, property_id]
  split
  next hchecked =>
    obtain ⟨htenant, href⟩ := hown.mp hchecked
    cases node.dateTime position.createdAt with
    | none => simp
    | some createdAt =>
      cases idProperty node (some position.id) with
      | none => simp
      | some id =>
        by_cases hlate : (expiresAt : Int) ≤ now
        · simp only [if_pos hlate]
          constructor
          · intro h
            cases h
          · rintro ⟨_, _, hlive, _⟩
            omega
        · simp only [if_neg hlate, Except.ok.injEq, Option.some.injEq]
          constructor
          · rintro rfl
            exact ⟨htenant, href, by omega, createdAt, id, rfl, rfl, rfl⟩
          · rintro ⟨_, _, _, _, _, rfl, rfl, rfl⟩
            rfl
  next hunchecked =>
    constructor
    · intro h
      cases h
    · rintro ⟨htenant, href, _⟩
      exact absurd (hown.mpr ⟨htenant, href⟩) hunchecked

/-! ### Keys -/

theorem addKey_ok {keys' : Keyring} {entry : List Char} (h : addKey keys entry = .ok keys') :
    ∃ (version : List Char) (key : List UInt8), keys' = keys ++ [(String.ofList version, key)] ∧
      isKeyVersion version = true ∧ 32 ≤ key.length := by
  unfold addKey at h
  split at h
  · cases h
  next separator _ =>
    simp only at h
    split at h
    · cases h
    next hentry =>
      split at h
      · cases h
      next hkey =>
        simp only [Bool.or_eq_true, not_or, Bool.not_eq_true', Bool.not_eq_false,
          decide_eq_true_eq] at hentry hkey
        refine ⟨_, _, (Except.ok.inj h).symm, hentry.1.1, ?_⟩
        omega

theorem foldlM_addKey {entries : List (List Char)} {keys' : Keyring}
    (h : entries.foldlM addKey keys = .ok keys')
    (hkeys : ∀ entry ∈ keys, isKeyVersion entry.1.toList = true ∧ 32 ≤ entry.2.length) :
    ∀ entry ∈ keys', isKeyVersion entry.1.toList = true ∧ 32 ≤ entry.2.length := by
  induction entries generalizing keys with
  | nil =>
    cases h
    exact hkeys
  | cons entry rest ih =>
    rw [foldlM_cons] at h
    obtain ⟨next, hnext, h⟩ := except_bind_ok h
    obtain ⟨version, key, rfl, hversion, hlength⟩ := addKey_ok hnext
    refine ih h ?_
    intro entry' hmem
    rcases mem_append.mp hmem with hold | hnew
    · exact hkeys entry' hold
    · rw [mem_singleton.mp hnew, String.toList_ofList]
      exact ⟨hversion, hlength⟩

/-- Every key of the keyring has a version of the accepted form and 256 bits. -/
theorem cursorKeyring_ok (h : cursorKeyring env = .ok keys) :
    ∀ entry ∈ keys, isKeyVersion entry.1.toList = true ∧ 32 ≤ entry.2.length := by
  unfold cursorKeyring at h
  simp only at h
  split at h
  · cases h
  · exact foldlM_addKey h (by simp)

theorem mem_of_lookup {version : String} (h : keys.lookup version = some key) :
    (version, key) ∈ keys := by
  induction keys with
  | nil => cases h
  | cons entry rest ih =>
    rw [List.lookup_cons] at h
    split at h
    next heq =>
      cases h
      rw [eq_of_beq heq]
      exact mem_cons_self
    · exact mem_cons_of_mem entry (ih h)

/-- The keyring has the key under this version, and the key is not past its expiry. -/
def KeyInForce (node : Node) (env : Env) (now : Nat) (version : String) (key : List UInt8) :
    Prop :=
  ∃ keys expiry, cursorKeyring env = .ok keys ∧ keys.lookup version = some key ∧
    cursorKeyExpiry node env version = .ok expiry ∧ expired now expiry = false

theorem KeyInForce.isKeyVersion {version : String} (h : KeyInForce node env now version key) :
    isKeyVersion version.toList = true := by
  obtain ⟨keys, _, hkeys, hlookup, _, _⟩ := h
  exact (cursorKeyring_ok hkeys _ (mem_of_lookup hlookup)).1

theorem activeCursorKey_ok {version : String}
    (h : activeCursorKey node env now = .ok (version, key)) :
    version = String.ofList (trimmed env.cursorActiveKeyVersion) ∧
      KeyInForce node env now version key := by
  unfold activeCursorKey at h
  obtain ⟨keys, hkeys, h⟩ := except_bind_ok h
  split at h
  · cases h
  next key' hlookup =>
    obtain ⟨expiry, hexpiry, h⟩ := except_bind_ok h
    split at h
    · cases h
    next hlive =>
      cases h
      exact ⟨rfl, keys, expiry, hkeys, hlookup, hexpiry, Bool.eq_false_iff.mpr hlive⟩

theorem namedKey_ok {members : List (String × Value)} {version : String}
    (h : namedKey node env now members = .ok (version, key)) :
    property members "keyVersion" = some (.string version) ∧
      KeyInForce node env now version key := by
  unfold namedKey at h
  split at h
  next keyVersion hnamed =>
    split at h
    · obtain ⟨keys, hkeys, h⟩ := except_bind_ok h
      obtain ⟨expiry, hexpiry, h⟩ := except_bind_ok h
      split at h
      next key' hlookup =>
        split at h
        · cases h
        next hlive =>
          cases h
          exact ⟨hnamed, keys, expiry, hkeys, hlookup, hexpiry,
            Bool.eq_false_iff.mpr hlive⟩
      · cases h
    · cases h
  · cases h

theorem namedKey_inForce {members : List (String × Value)} {version : String}
    (hnamed : property members "keyVersion" = some (.string version))
    (h : KeyInForce node env now version key) :
    namedKey node env now members = .ok (version, key) := by
  have hversion := h.isKeyVersion
  obtain ⟨keys, expiry, hkeys, hlookup, hexpiry, hlive⟩ := h
  have hgate : ¬expired now expiry = true := Bool.eq_false_iff.mp hlive
  simp only [namedKey, hnamed, hversion, if_true, hkeys, hexpiry]
  change (match keys.lookup version with
    | some key =>
      if expired now expiry then (.error .cursor : Except ForensicError (String × List UInt8))
      else .ok (version, key)
    | none => .error .cursor) = _
  rw [hlookup]
  exact if_neg hgate

/-! ### Decoding -/

theorem toList_cursor (encoded mac : String) :
    (encoded ++ "." ++ mac).toList = encoded.toList ++ '.' :: mac.toList := by
  rw [String.toList_append, String.toList_append, append_assoc]
  rfl

theorem fixedTimeHexEqual_iff {actual expected : String} (h : isHex64 expected = true) :
    fixedTimeHexEqual actual expected = true ↔ actual = expected := by
  unfold fixedTimeHexEqual
  constructor
  · intro hequal
    exact eq_of_beq (Bool.and_eq_true_iff.mp hequal).2
  · rintro rfl
    simp [h]

/-- The key that is checked against a payload of this version. -/
inductive SignedWith (node : Node) (env : Env) (now : Nat) (members : List (String × Value)) :
    Nat → List UInt8 → Prop
  | legacy {secret : String} (hversion : isNumber node (property members "version") 2 = true)
      (hsecret : auditSecret env = .ok secret) : SignedWith node env now members 2 (utf8 secret)
  | keyring {version : String} {key : List UInt8}
      (hversion : isNumber node (property members "version") 3 = true)
      (hkey : namedKey node env now members = .ok (version, key)) :
      SignedWith node env now members 3 key

theorem ok_bind {α β : Type} (a : α) (f : α → Except ForensicError β) :
    (Except.ok a >>= f) = f a := rfl

theorem checkCursor_ok {valid : Bool} {u : Unit} (h : checkCursor valid = .ok u) :
    valid = true := by
  unfold checkCursor at h
  split at h
  · next hvalid => exact hvalid
  · cases h

theorem checkedPayload_ok {members : List (String × Value)} {version : Nat}
    {keyVersion mac expected : String}
    (h : checkedPayload node now members tenantId incidentRef version keyVersion mac expected = .ok
      payload) :
    mac = expected ∧ assertCursorPayload node now members tenantId incidentRef =
      .ok (payload.createdAt, payload.id, payload.expiresAt) := by
  unfold checkedPayload at h
  obtain ⟨_, hequal, h⟩ := except_bind_ok h
  obtain ⟨fields, hfields, h⟩ := except_bind_ok h
  cases h
  exact ⟨eq_of_beq (Bool.and_eq_true_iff.mp (checkCursor_ok hequal)).2, hfields⟩

/-- An accepted cursor is a payload under the digest of one of the server's keys. -/
theorem decodeForensicCursor_ok {cursor : String}
    (h : decodeForensicCursor node env now cursor tenantId incidentRef = .ok payload) :
    ∃ encoded members version key,
      cursor = encoded ++ "." ++ node.hmacSha256 key (cursorMessage version encoded) ∧
      parseCursorPayload node encoded.toList = .ok members ∧
      SignedWith node env now members version key ∧
      assertCursorPayload node now members tenantId incidentRef =
        .ok (payload.createdAt, payload.id, payload.expiresAt) := by
  unfold decodeForensicCursor at h
  split at h
  next encoded mac hsplit =>
    have hcursor : cursor = String.ofList encoded ++ "." ++ String.ofList mac := by
      have hjoin : ['.'].intercalate (cursor.toList.splitOn '.') = cursor.toList :=
        intercalate_splitOn '.'
      rw [hsplit] at hjoin
      apply String.toList_inj.mp
      rw [toList_cursor, String.toList_ofList, String.toList_ofList, ← hjoin]
      simp [List.intercalate]
    obtain ⟨_, _, h⟩ := except_bind_ok h
    obtain ⟨members, hmembers, h⟩ := except_bind_ok h
    refine ⟨String.ofList encoded, members, ?_⟩
    rw [String.toList_ofList, hcursor]
    split at h
    next hversion =>
      obtain ⟨expected, hexpected, h⟩ := except_bind_ok h
      obtain ⟨secret, hsecret, hdigest⟩ := except_bind_ok hexpected
      cases hdigest
      obtain ⟨hmac, hfields⟩ := checkedPayload_ok h
      exact ⟨2, utf8 secret, by rw [hmac], hmembers, .legacy hversion hsecret, hfields⟩
    · obtain ⟨_, hversion, h⟩ := except_bind_ok h
      obtain ⟨⟨keyVersion, key⟩, hkey, h⟩ := except_bind_ok h
      obtain ⟨hmac, hfields⟩ := checkedPayload_ok h
      refine ⟨3, key, ?_, hmembers, .keyring (checkCursor_ok hversion) hkey, hfields⟩
      rw [hmac, cursorHmacHex]
  · cases h

theorem isNumber_version (issue : Issue) (n : Rat) :
    isNumber node (property issue.members "version") n = true ↔ (issue.version : Rat) = n := by
  have hvalue : ∃ m : Int, property issue.members "version" = some (.number (.ofInt m)) ∧
      m.natAbs ≤ 2 ^ 53 ∧ (m : Rat) = issue.version := by
    obtain ⟨keyVersion, key, position, expiresAt, expiresText, written⟩ := issue
    cases keyVersion with
    | none => exact ⟨2, rfl, by omega, rfl⟩
    | some version => exact ⟨3, rfl, by omega, rfl⟩
  obtain ⟨m, hmember, hsmall, hm⟩ := hvalue
  simp only [hmember, isNumber, numberValue_ofInt hsmall, hm, decide_eq_true_eq]

theorem encodePayload_isEmpty (members : List (String × Value)) :
    (encodePayload members).toList.isEmpty = false := by
  rw [encodePayload, String.toList_ofList, isEmpty_eq_false_iff]
  intro hempty
  have hbytes := base64UrlDecode_encode (utf8 (stringify (.object members)))
  rw [hempty] at hbytes
  have htext : stringify (.object members) = "" := utf8_injective hbytes.symm
  have hrender : render jsEscape (.object members) = [] := by
    rw [← String.toList_ofList (l := render jsEscape (.object members))]
    exact congrArg String.toList htext
  cases members <;> simp [render] at hrender

theorem isEmpty_of_isHex64 (h : isHex64 text = true) : text.toList.isEmpty = false := by
  have hlength := eq_of_beq (Bool.and_eq_true_iff.mp h).1
  rw [isEmpty_eq_false_iff]
  intro hempty
  rw [hempty] at hlength
  cases hlength

/-- A cursor under a key in force is read if its payload passes the checks. -/
theorem decodeForensicCursor_issue {issue : Issue} {version : String}
    (hkeyVersion : issue.keyVersion = some version)
    (hkey : KeyInForce node env now version issue.key)
    (hlength : jsLength issue.encoded.toList ≤ 2048) {fields : Int × Int × Int}
    (hfields : assertCursorPayload node now issue.members tenantId incidentRef = .ok fields) :
    decodeForensicCursor node env now (issue.cursor node) tenantId incidentRef =
      .ok { version := 3, keyVersion := version, tenantId, incidentRef, createdAt := fields.1,
            id := fields.2.1, expiresAt := fields.2.2 } := by
  have hversion : issue.version = 3 := by rw [Issue.version, hkeyVersion]
  have hhex := node.hmacSha256_hex issue.key issue.message
  have hsplit : (issue.cursor node).toList.splitOn '.' =
      [issue.encoded.toList, (node.hmacSha256 issue.key issue.message).toList] := by
    rw [Issue.cursor, toList_cursor]
    exact splitOn_cursor (dot_notMem_encodePayload issue.members) (dot_notMem_hex hhex)
  have hmembers : parseCursorPayload node issue.encoded.toList = .ok issue.members :=
    parseCursorPayload_encode hlength
  have hlegacy : ¬isNumber node (property issue.members "version") 2 = true := by
    rw [isNumber_version issue 2, hversion]
    norm_num
  have hthree : isNumber node (property issue.members "version") 3 = true := by
    rw [isNumber_version issue 3, hversion]
    rfl
  have hnamed : property issue.members "keyVersion" = some (.string version) := by
    rw [Issue.members, hkeyVersion]
    rfl
  have hexpected : cursorHmacHex node 3 issue.key issue.encoded =
      node.hmacSha256 issue.key issue.message := by
    rw [cursorHmacHex, Issue.message, hversion]
  have hchecked : checkedPayload node now issue.members tenantId incidentRef 3 version
      (node.hmacSha256 issue.key issue.message) (node.hmacSha256 issue.key issue.message) =
      .ok { version := 3, keyVersion := version, tenantId, incidentRef, createdAt := fields.1,
            id := fields.2.1, expiresAt := fields.2.2 } := by
    have hequal := (fixedTimeHexEqual_iff hhex).mpr (rfl : node.hmacSha256 issue.key
      issue.message = node.hmacSha256 issue.key issue.message)
    rw [checkedPayload, checkCursor, if_pos hequal, hfields]
    rfl
  have hfilled : (!issue.encoded.toList.isEmpty &&
      !(node.hmacSha256 issue.key issue.message).toList.isEmpty) = true := by
    rw [Issue.encoded, encodePayload_isEmpty, isEmpty_of_isHex64 hhex]
    rfl
  unfold decodeForensicCursor
  rw [hsplit]
  simp only [checkCursor, hfilled, if_true, hmembers, ok_bind, if_neg hlegacy, hthree,
    namedKey_inForce hnamed hkey, String.ofList_toList, hexpected]
  exact hchecked

/-! ### The length of a cursor -/

/-- Characters that are written into a string as they are, one code unit each. -/
def isPlain (c : Char) : Bool := isBase64UrlChar c || isISOChar c

theorem jsEscape_plain {c : Char} (h : isPlain c = true) : jsEscape.write c = [c] := by
  have hcontrol : ¬c.toNat < 0x20 := by
    intro hsmall
    have hall : ∀ n : Fin 32, isPlain (Char.ofNat n.val) = false := by decide
    have hc := hall ⟨c.toNat, hsmall⟩
    rw [Char.ofNat_toNat, h] at hc
    cases hc
  have hletter : escapeLetter c = none := by
    unfold escapeLetter
    split <;> first | rfl | exact absurd h (by decide)
  have hcoded : serdeTable.coded c = false := decide_eq_false hcontrol
  change serdeTable.write c = [c]
  have hletter' : serdeTable.letter c = none := hletter
  rw [EscapeTable.write, hletter']
  simp only [hcoded, Bool.false_eq_true, if_false]

theorem length_quoted (h : text.toList.all isPlain = true) :
    (jsEscape.quoted text).length = text.toList.length + 2 := by
  have hbody : text.toList.flatMap jsEscape.write = text.toList := by
    have hall := all_eq_true.mp h
    generalize text.toList = characters at hall ⊢
    induction characters with
    | nil => rfl
    | cons c rest ih =>
      rw [flatMap_cons, jsEscape_plain (hall c mem_cons_self),
        ih fun d hd => hall d (mem_cons_of_mem c hd)]
      rfl
  rw [Escape.quoted, hbody]
  simp

def memberLength (m : String × Value) : Nat :=
  (jsEscape.quoted m.1).length + (render jsEscape m.2).length + 2

theorem length_renderMembers (members : List (String × Value)) :
    (renderMembers jsEscape members).length = (members.map memberLength).sum + 1 := by
  induction members with
  | nil => rfl
  | cons m rest ih =>
    simp only [renderMembers, length_cons, length_append, ih, map_cons,
      sum_cons, memberLength]
    omega

theorem length_render_object (m : String × Value) (rest : List (String × Value)) :
    (render jsEscape (.object (m :: rest))).length =
      ((m :: rest).map memberLength).sum + 1 := by
  simp only [render, length_cons, length_append, length_renderMembers, map_cons,
    sum_cons, memberLength]
  omega

theorem toNat_lt_of_isBase64UrlChar {c : Char} (h : isBase64UrlChar c = true) : c.toNat < 128 := by
  simp only [isBase64UrlChar, isAlphanum_eq, Bool.or_eq_true, Bool.and_eq_true, decide_eq_true_eq, beq_iff_eq,
    UInt32.le_iff_toNat_le] at h
  rcases h with (((⟨_, hle⟩ | ⟨_, hle⟩) | ⟨_, hle⟩) | rfl) | rfl
  · exact Nat.lt_of_le_of_lt hle (by decide)
  · exact Nat.lt_of_le_of_lt hle (by decide)
  · exact Nat.lt_of_le_of_lt hle (by decide)
  · decide
  · decide

theorem jsLength_base64Url {text : List Char} (h : text.all isBase64UrlChar = true) :
    jsLength text = text.length := by
  have hall := all_eq_true.mp h
  have hunits : text.map (fun c => if c.toNat < 0x10000 then 1 else 2) = text.map fun _ => 1 := by
    refine map_congr_left ?_
    intro c hc
    have hsmall := toNat_lt_of_isBase64UrlChar (hall c hc)
    exact if_pos (by omega)
  rw [jsLength, hunits, map_const', sum_replicate_nat, Nat.mul_one]

/-- Four bytes a character, and four characters for three bytes. -/
theorem jsLength_encodePayload {members : List (String × Value)}
    (h : (render jsEscape (.object members)).length ≤ 380) :
    jsLength (encodePayload members).toList ≤ 2048 := by
  have hbytes := length_utf8_le (stringify (.object members))
  have hencoded := length_base64UrlEncode (utf8 (stringify (.object members)))
  rw [stringify, String.toList_ofList] at hbytes
  rw [encodePayload, String.toList_ofList, jsLength_base64Url (all_base64UrlEncode _)]
  unfold stringify at hencoded ⊢
  omega

/-- What `readVerifiedPiiForensicEvents` puts into a cursor: an incident of the
form that the table checks, a written instant, and a number for the id. -/
structure CursorPosition.Written (position : CursorPosition) : Prop where
  ref : ∀ ref ∈ position.incidentRef, ref.toList.length ≤ 25 ∧ ref.toList.all isPlain = true
  createdAt : ∃ time, toISOString time = some position.createdAt
  id : ∃ id : Nat, position.id = .number (.ofInt id) ∧ 0 < id ∧ id ≤ 2 ^ 53 - 1

theorem all_isPlain_of_base64Url {text : List Char} (h : text.all isBase64UrlChar = true) :
    text.all isPlain = true := by
  rw [all_eq_true] at h ⊢
  intro c hc
  rw [isPlain, h c hc, Bool.true_or]

theorem all_isPlain_of_iso {text : List Char} (h : text.all isISOChar = true) :
    text.all isPlain = true := by
  rw [all_eq_true] at h ⊢
  intro c hc
  rw [isPlain, h c hc, Bool.or_true]

theorem length_render_ofInt {n : Int} (h : n.natAbs < 2 ^ 64) :
    (render jsEscape (.number (.ofInt n))).length ≤ 21 :=
  length_decimal_le h

/-- A cursor of a written position is short enough to be read. -/
theorem jsLength_issue {issue : Issue} {version : String}
    (hposition : issue.position.Written) (hkeyVersion : issue.keyVersion = some version)
    (hversion : isKeyVersion version.toList = true) : jsLength issue.encoded.toList ≤ 2048 := by
  obtain ⟨hplain, ⟨time, hcreated⟩, id, hid, _, hsafe⟩ := hposition
  obtain ⟨hcreatedLength, hcreatedPlain⟩ := toISOString_form hcreated
  obtain ⟨hexpiresLength, hexpiresPlain⟩ := toISOString_form issue.written
  simp only [isKeyVersion, Bool.and_eq_true, decide_eq_true_eq] at hversion
  have htenant : (render jsEscape (.number (.ofInt issue.position.tenantId.toInt))).length ≤ 21 :=
    length_render_ofInt (natAbs_toInt_lt issue.position.tenantId)
  have hnumber : (render jsEscape issue.position.id).length ≤ 21 := by
    rw [hid]
    exact length_render_ofInt (by omega)
  have href : (render jsEscape (refValue issue.position.incidentRef)).length ≤ 27 := by
    cases hrefs : issue.position.incidentRef with
    | none => exact (by decide : (4 : Nat) ≤ 27)
    | some ref =>
      obtain ⟨hlength, hform⟩ := hplain ref hrefs
      change (jsEscape.quoted ref).length ≤ 27
      rw [length_quoted hform]
      omega
  have hcreatedQuoted := length_quoted (all_isPlain_of_iso hcreatedPlain)
  have hexpiresQuoted := length_quoted (all_isPlain_of_iso hexpiresPlain)
  have hversionQuoted := length_quoted (all_isPlain_of_base64Url hversion.2)
  have hnames : (jsEscape.quoted "tenantId").length = 10 ∧
      (jsEscape.quoted "incidentRef").length = 13 ∧ (jsEscape.quoted "createdAt").length = 11 ∧
      (jsEscape.quoted "id").length = 4 ∧ (jsEscape.quoted "version").length = 9 ∧
      (jsEscape.quoted "keyVersion").length = 12 ∧ (jsEscape.quoted "expiresAt").length = 11 := by
    decide
  have hthree : (render jsEscape (.number (.ofInt 3))).length ≤ 21 :=
    length_render_ofInt (by omega)
  refine jsLength_encodePayload ?_
  rw [Issue.members, hkeyVersion]
  simp only [cursorMembers, cons_append, nil_append, length_render_object,
    map_cons, map_nil, sum_cons, sum_nil, memberLength, hnames]
  have hstring : ∀ text, (render jsEscape (.string text)).length =
      (jsEscape.quoted text).length := fun _ => rfl
  simp only [hstring, hcreatedQuoted, hexpiresQuoted, hversionQuoted]
  omega

end Bis.Pii
