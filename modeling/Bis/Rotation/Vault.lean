import Mathlib.Logic.Basic

/-!
The cryptography of an envelope, as the rotation worker calls it. Vault and the
legacy keyring are outside the repository: a client answers some calls and fails
others, and `CryptoClient.Faithful` says what an answer means against the key
material. A call that throws is `none`.

Byte strings are texts here. The columns of a key's and an envelope's provider
are one value, which has the shape that the tables check.
-/

namespace Bis.Rotation

inductive SubjectKind where
  | candidateProfile | criminalRecord
  deriving DecidableEq

def SubjectKind.text : SubjectKind → String
  | .candidateProfile => "candidate_profile"
  | .criminalRecord => "criminal_record"

inductive Purpose where
  | identity | contact | address | document | criminalRecord | providerPayload
  deriving DecidableEq

def Purpose.text : Purpose → String
  | .identity => "identity"
  | .contact => "contact"
  | .address => "address"
  | .document => "document"
  | .criminalRecord => "criminal_record"
  | .providerPayload => "provider_payload"

/-- The columns that an active envelope is unique in. -/
structure Subject where
  tenantId : Int
  subjectKind : SubjectKind
  subjectId : Int
  purpose : Purpose
  deriving DecidableEq

def Subject.binding (version : String) (s : Subject) : String :=
  s!"bis-pii-envelope:{version}|{s.tenantId}|{s.subjectKind.text}|{s.subjectId}|{s.purpose.text}"

/-- The format of the purpose is checked too; every purpose of the table has it. -/
def piiAad (s : Subject) : Option String :=
  if 1 ≤ s.tenantId ∧ 1 ≤ s.subjectId then some (s.binding "v2") else none

inductive BlindAttribute where
  | nin | bvn | passportNumber | email | phone
  deriving DecidableEq

def BlindAttribute.text : BlindAttribute → String
  | .nin => "nin"
  | .bvn => "bvn"
  | .passportNumber => "passport_number"
  | .email => "email"
  | .phone => "phone"

def piiBlindIndexContext (tenantId : Int) (name : BlindAttribute) : Option String :=
  if 1 ≤ tenantId then some s!"bis-pii-blind-index:v1|{tenantId}|{name.text}" else none

/-! ### Payloads -/

/-- The objects that `JSON.parse` gives, with the functions of the language on
them. -/
structure PayloadFormat (Payload : Type) where
  stringify : Payload → String
  /-- `none` where the text is no JSON object. -/
  parse : String → Option Payload
  parse_stringify : ∀ payload, parse (stringify payload) = some payload
  /-- The field of this name, where it is a string. -/
  textField : Payload → String → Option String

/-- The ASCII letters in the upper case of a character. -/
def upperLetters (c : Char) : List Char :=
  match c with
  | 'ß' => ['S', 'S']
  | 'ı' => ['I']
  | 'ŉ' => ['N']
  | 'ſ' => ['S']
  | 'ǰ' => ['J']
  | 'ẖ' => ['H']
  | 'ẗ' => ['T']
  | 'ẘ' => ['W']
  | 'ẙ' => ['Y']
  | 'ẚ' => ['A']
  | 'ﬀ' => ['F', 'F']
  | 'ﬁ' => ['F', 'I']
  | 'ﬂ' => ['F', 'L']
  | 'ﬃ' => ['F', 'F', 'I']
  | 'ﬄ' => ['F', 'F', 'L']
  | 'ﬅ' => ['S', 'T']
  | 'ﬆ' => ['S', 'T']
  | c => [c.toUpper]

def isNormalized (c : Char) : Bool :=
  c.isUpper || c.isDigit || ['@', '.', '+', '-'].contains c

/-- White space goes with everything else that is no letter, digit or sign. -/
def normalize (value : String) : Option String :=
  let kept := (value.toList.flatMap upperLetters).filter isNormalized
  if kept.isEmpty then none else some (String.ofList kept)

section Crypto

variable {Payload : Type} (format : PayloadFormat Payload)

def itemValue (payload : Payload) (name : BlindAttribute) : Option String :=
  match name with
  | .passportNumber => format.textField payload "passportNumber"
  | name => format.textField payload name.text

def encodedJson (payload : Payload) : Option String :=
  let encoded := format.stringify payload
  if encoded.utf8ByteSize = 0 ∨ 1000000 < encoded.utf8ByteSize then none else some encoded

end Crypto

/-! ### Keys -/

inductive Provider where
  | legacyLocalAes | vaultTransit
  deriving DecidableEq

/-- `vault-transit://<mount>/<keyName>`; the table checks that the name is the
provider's name of the key. -/
structure TransitRef where
  (mount keyName : String)
  deriving DecidableEq

inductive KeyCustody where
  | legacyLocalAes
  | vaultTransit (externalKeyRef : TransitRef) (providerKeyVersion : Nat)

def KeyCustody.provider : KeyCustody → Provider
  | .legacyLocalAes => .legacyLocalAes
  | .vaultTransit _ _ => .vaultTransit

inductive KeyStatus where
  | staged | active | retiring | retired | compromised
  deriving DecidableEq

structure Registry where
  id : Nat
  tenantId : Int
  keyVersion : String
  custody : KeyCustody
  status : KeyStatus
  retiresAt : Option Nat

/-- A registry row that `rowToRegistry` accepts. -/
structure TransitRegistry where
  id : Nat
  tenantId : Int
  keyVersion : String
  externalKeyRef : TransitRef
  providerKeyVersion : Nat
  status : KeyStatus

def rowToRegistry (row : Registry) (tenantId : Int) : Option TransitRegistry :=
  match row.custody with
  | .vaultTransit externalKeyRef providerKeyVersion =>
    if row.tenantId ≠ tenantId ∨ providerKeyVersion = 0 then none
    else some
      { id := row.id, tenantId := row.tenantId, keyVersion := row.keyVersion
        externalKeyRef, providerKeyVersion, status := row.status }
  | .legacyLocalAes => none

/-- How the ciphertext of an envelope is sealed. -/
inductive Sealing where
  | legacyLocalAes (nonce : String)
  | vaultTransit (providerKeyVersion : Nat)

def Sealing.provider : Sealing → Provider
  | .legacyLocalAes _ => .legacyLocalAes
  | .vaultTransit _ => .vaultTransit

/-- A ciphertext fits the key it is registered with. -/
def Sealing.fits : Sealing → KeyCustody → Bool
  | .legacyLocalAes _, .legacyLocalAes => true
  | .vaultTransit version, .vaultTransit _ providerKeyVersion => version == providerKeyVersion
  | _, _ => false

/-! ### Vault -/

/-- What the keys open, whoever asks and whenever. `mount` is the one that the
runtime is configured for. -/
structure KeyMaterial where
  mount : String
  transit : (keyName context ciphertext : String) → Option String
  legacy : (keyVersion nonce aad ciphertext : String) → Option String

/-- What is answered to a transaction. -/
structure CryptoClient where
  encrypt : (keyName context plaintext : String) → Option (String × Nat)
  decrypt : (keyName context ciphertext : String) → Option String
  rewrap : (keyName context ciphertext : String) → Option (String × Nat)
  hmac : (keyName context value : String) → Option (String × Nat)
  legacyDecrypt : (keyVersion nonce aad ciphertext : String) → Option String

/-- Vault decrypts what it encrypted, and so does the legacy keyring: an answer is
about the plaintext that the key opens. -/
structure CryptoClient.Faithful (keys : KeyMaterial) (client : CryptoClient) : Prop where
  encrypt : ∀ keyName context plaintext ciphertext version,
    client.encrypt keyName context plaintext = some (ciphertext, version) →
      keys.transit keyName context ciphertext = some plaintext
  decrypt : ∀ keyName context ciphertext plaintext,
    client.decrypt keyName context ciphertext = some plaintext →
      keys.transit keyName context ciphertext = some plaintext
  rewrap : ∀ keyName context ciphertext rewrapped version,
    client.rewrap keyName context ciphertext = some (rewrapped, version) →
      keys.transit keyName context rewrapped = keys.transit keyName context ciphertext
  legacyDecrypt : ∀ keyVersion nonce aad ciphertext plaintext,
    client.legacyDecrypt keyVersion nonce aad ciphertext = some plaintext →
      keys.legacy keyVersion nonce aad ciphertext = some plaintext

section Envelopes

variable {Payload : Type} (format : PayloadFormat Payload) (keys : KeyMaterial)

def parseVaultTransitRef (reference : TransitRef) : Option String :=
  if reference.mount = keys.mount then some reference.keyName else none

structure PiiEnvelope where
  (ciphertext keyVersion : String)
  providerKeyVersion : Nat

def encryptPiiEnvelope (client : CryptoClient) (key : TransitRegistry) (aad : String)
    (payload : Payload) : Option PiiEnvelope := do
  let encoded ← encodedJson format payload
  let keyName ← parseVaultTransitRef keys key.externalKeyRef
  let (ciphertext, version) ← client.encrypt keyName aad encoded
  if version = key.providerKeyVersion then
    some { ciphertext, keyVersion := key.keyVersion, providerKeyVersion := version }
  else none

def decryptPiiEnvelope (client : CryptoClient) (keyVersion : String) (externalKeyRef : TransitRef)
    (aad ciphertext ciphertextKeyVersion : String) : Option Payload := do
  if ciphertextKeyVersion ≠ keyVersion then none
  else
    let keyName ← parseVaultTransitRef keys externalKeyRef
    let decoded ← client.decrypt keyName aad ciphertext
    format.parse decoded

def decryptLegacyPiiEnvelope (client : CryptoClient) (subject : Subject)
    (keyVersion ciphertext nonce : String) : Option Payload := do
  let decoded ← client.legacyDecrypt keyVersion nonce (subject.binding "v1") ciphertext
  format.parse decoded

structure PiiBlindIndex where
  (normalizedHmac keyVersion : String)
  providerKeyVersion : Nat

def piiBlindIndex (client : CryptoClient) (key : TransitRegistry) (tenantId : Int)
    (name : BlindAttribute) (normalizedValue : String) : Option PiiBlindIndex := do
  if normalizedValue.isEmpty || 512 < normalizedValue.length then none
  else
    let keyName ← parseVaultTransitRef keys key.externalKeyRef
    let context ← piiBlindIndexContext tenantId name
    let (hmac, version) ← client.hmac keyName context normalizedValue
    if version = key.providerKeyVersion then
      some { normalizedHmac := hmac, keyVersion := key.keyVersion, providerKeyVersion := version }
    else none

/-- What an envelope holds, opened with the key it is registered with. -/
def openSealed (custody : KeyCustody) (keyVersion : String) (subject : Subject)
    (sealing : Sealing) (ciphertext : String) : Option Payload :=
  match custody, sealing with
  | .legacyLocalAes, .legacyLocalAes nonce =>
    (keys.legacy keyVersion nonce (subject.binding "v1") ciphertext).bind format.parse
  | .vaultTransit reference _, .vaultTransit _ => do
    let keyName ← parseVaultTransitRef keys reference
    let aad ← piiAad subject
    let decoded ← keys.transit keyName aad ciphertext
    format.parse decoded
  | _, _ => none

end Envelopes

end Bis.Rotation
