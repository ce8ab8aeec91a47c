import Bis.Json.RoundTrip
import Bis.Json.Escape
import Bis.Json.Struct
import Bis.Transition.Run

/-!
The Kafka schema registry: how a schema is parsed, compared with the latest
version of its subject and registered. The SHA-256 fingerprint of a text is an
argument. A subject without versions is one the registry does not hold.

Which of several offending fields an error names depends on the order of a hash
map; here it is the first. The lookups by version and by identifier are left out.
-/

namespace Bis.Kafka

open Bis.Json Bis.Transition Function

variable {α : Type*}

/-! ### Schemas -/

/-- A field as it is declared; `declared` is the `default` in the text, `null`
included. -/
structure AvroField where
  name : String
  fieldType : Value
  declared : Option Value
  doc : Option String

structure AvroSchema where
  (schemaType name : String)
  (namespaceName doc : Option String)
  fields : List AvroField

inductive CompatibilityMode where
  | backward
  | forward
  | full
  | none
  deriving DecidableEq

inductive SchemaError where
  | invalidJson (error : Option DecodeError)
  | incompatibleSchema (message : String)
  | subjectNotFound (subject : String)

/-- The field `default` of the parsed struct: serde takes `null` for absence. -/
def AvroField.default (f : AvroField) : Option Value :=
  match f.declared with
  | some .null => none
  | declared => declared

/-- A union whose first type is `null`. -/
def AvroField.nullable (f : AvroField) : Bool :=
  match f.fieldType with
  | .array (.string first :: _) => first == "null"
  | _ => false

def fieldHasDefault (f : AvroField) : Bool := f.default.isSome || f.nullable

def declaredDefault (members : List (String × Value)) : Except DecodeError (Option Value) :=
  match occurrences "default" members with
  | [] => .ok none
  | [v] => .ok (some v)
  | _ => .error (.duplicate "default")

/-- An element of a struct that is written as an array. -/
def element (field : String) (read : Value → Option α) (v : Value) : Except DecodeError α :=
  match read v with
  | some a => .ok a
  | none => .error (.invalid field)

def optionalString : Value → Option (Option String)
  | .null => some none
  | v => (rustString v).map some

/-- Serde also takes the fields of a struct in their order, without names. -/
def readField : Value → Except DecodeError AvroField
  | .object members => do
    let name ← requiredField "name" rustString members
    let fieldType ← requiredField "type" some members
    let declared ← declaredDefault members
    let doc ← optionalField "doc" rustString members
    return { name, fieldType, declared, doc }
  | .array [first, fieldType, declared, last] => do
    let name ← element "name" rustString first
    let doc ← element "doc" optionalString last
    return { name, fieldType, declared := some declared, doc }
  | _ => .error (.invalid "fields")

def readFields : Value → Option (List AvroField)
  | .array items => (items.mapM readField).toOption
  | _ => none

def readSchema : Value → Except DecodeError AvroSchema
  | .object members => do
    let schemaType ← requiredField "type" rustString members
    let name ← requiredField "name" rustString members
    let namespaceName ← optionalField "namespace" rustString members
    let doc ← optionalField "doc" rustString members
    let fields ← requiredField "fields" readFields members
    return { schemaType, name, namespaceName, doc, fields }
  | .array [first, second, third, fourth, last] => do
    let schemaType ← element "type" rustString first
    let name ← element "name" rustString second
    let namespaceName ← element "namespace" optionalString third
    let doc ← element "doc" optionalString fourth
    let fields ← element "fields" readFields last
    return { schemaType, name, namespaceName, doc, fields }
  | _ => .error (.invalid "schema")

/-- A text that is no JSON has no error of a field. -/
def parseAvroSchema (schemaJson : String) : Except SchemaError AvroSchema :=
  match read none schemaJson.toList with
  | none => .error (.invalidJson none)
  | some v =>
    match readSchema v with
    | .ok schema => .ok schema
    | .error error => .error (.invalidJson (some error))

theorem parseAvroSchema_render (v : Value) :
    parseAvroSchema (String.ofList (render serdeTable.escape v)) =
      match readSchema v with
      | .ok schema => .ok schema
      | .error error => .error (.invalidJson (some error)) := by
  rw [parseAvroSchema, String.toList_ofList, read_render]

/-- The field of a name in the map of the fields; of several the last. -/
def AvroSchema.fieldNamed (schema : AvroSchema) (name : String) : Option AvroField :=
  schema.fields.reverse.find? fun f => f.name == name

/-- The first field of one schema that the other lacks and that has no default. -/
def undefaulted (schema other : AvroSchema) : Option String :=
  (schema.fields.map AvroField.name).find? fun name =>
    (other.fieldNamed name).isNone && !(schema.fieldNamed name).any fieldHasDefault

def checkBackward (old new : AvroSchema) : Except SchemaError Unit :=
  match undefaulted old new with
  | some name =>
    .error (.incompatibleSchema ("BACKWARD: field '" ++ name ++
      "' removed from new schema but has no default in old schema"))
  | none =>
    match undefaulted new old with
    | some name =>
      .error (.incompatibleSchema ("BACKWARD: new field '" ++ name ++
        "' has no default value — cannot read old data"))
    | none => .ok ()

def checkForward (old new : AvroSchema) : Except SchemaError Unit :=
  match undefaulted new old with
  | some name =>
    .error (.incompatibleSchema ("FORWARD: new field '" ++ name ++
      "' has no default — old readers cannot skip it"))
  | none =>
    match undefaulted old new with
    | some name =>
      .error (.incompatibleSchema ("FORWARD: field '" ++ name ++
        "' removed from new schema but old readers expect it (no default)"))
    | none => .ok ()

def checkCompatibility (old new : AvroSchema) : CompatibilityMode → Except SchemaError Unit
  | .none => .ok ()
  | .backward => checkBackward old new
  | .forward => checkForward old new
  | .full => do
    checkBackward old new
    checkForward old new

/-! ### The registry -/

structure SchemaVersion where
  (id version : UInt32)
  (subject schemaJson fingerprint : String)

structure SchemaRegistry where
  subjects : String → List SchemaVersion
  compatibility : String → Option CompatibilityMode
  nextId : UInt32
  defaultCompatibility : CompatibilityMode

namespace SchemaRegistry

def new : SchemaRegistry :=
  { subjects := fun _ => [], compatibility := fun _ => none, nextId := 1
    defaultCompatibility := .backward }

def setCompatibility (r : SchemaRegistry) (subject : String) (mode : CompatibilityMode) :
    SchemaRegistry :=
  { r with compatibility := update r.compatibility subject (some mode) }

def getCompatibility (r : SchemaRegistry) (subject : String) : CompatibilityMode :=
  (r.compatibility subject).getD r.defaultCompatibility

/-- The comparison with the latest version, if there is one. -/
def checkLatest (r : SchemaRegistry) (subject : String) (parsed : AvroSchema) :
    Except SchemaError Unit :=
  match (r.subjects subject).getLast? with
  | none => .ok ()
  | some latest => do
    let latestParsed ← parseAvroSchema latest.schemaJson
    checkCompatibility latestParsed parsed (r.getCompatibility subject)

def push (r : SchemaRegistry) (subject schemaJson fingerprint : String) : SchemaRegistry :=
  { r with
    nextId := r.nextId + 1
    subjects := update r.subjects subject
      (r.subjects subject ++
        [{ id := r.nextId, version := UInt32.ofNat (r.subjects subject).length + 1, subject
           schemaJson, fingerprint }]) }

def register (fingerprint : String → String) (r : SchemaRegistry) (subject schemaJson : String) :
    Except SchemaError (UInt32 × SchemaRegistry) := do
  let parsed ← parseAvroSchema schemaJson
  match (r.subjects subject).find? fun v => v.fingerprint == fingerprint schemaJson with
  | some existing => .ok (existing.id, r)
  | none => do
    r.checkLatest subject parsed
    .ok (r.nextId, r.push subject schemaJson (fingerprint schemaJson))

def deleteSubject (r : SchemaRegistry) (subject : String) :
    Except SchemaError (List UInt32 × SchemaRegistry) :=
  if r.subjects subject = [] then .error (.subjectNotFound subject)
  else
    .ok ((r.subjects subject).map SchemaVersion.version,
      { r with
        subjects := update r.subjects subject []
        compatibility := update r.compatibility subject none })

end SchemaRegistry

inductive RegistryStep where
  | register (subject schemaJson : String)
  | setCompatibility (subject : String) (mode : CompatibilityMode)
  | deleteSubject (subject : String)

section

variable (fingerprint : String → String)

/-- A request that is refused leaves the registry as it was. -/
def registryStep : Step SchemaRegistry RegistryStep
  | r, .register subject schemaJson =>
    match r.register fingerprint subject schemaJson with
    | .ok (_, r') => some r'
    | .error _ => some r
  | r, .setCompatibility subject mode => some (r.setCompatibility subject mode)
  | r, .deleteSubject subject =>
    match r.deleteSubject subject with
    | .ok (_, r') => some r'
    | .error _ => some r

/-- The registration is answered with a version that was not there before. -/
def NewVersion (r : SchemaRegistry) (subject schemaJson : String) : Prop :=
  ∃ id r', r.register fingerprint subject schemaJson = .ok (id, r') ∧
    (r'.subjects subject).length = (r.subjects subject).length + 1

end

/-! ### Records -/

/-- The fields of a record as they were written: their types and their bytes. -/
abbrev Record := String → Option (Value × List UInt8)

def ConformsTo (record : Record) (writer : AvroSchema) : Prop :=
  ∀ name, (record name).map Prod.fst = (writer.fieldNamed name).map AvroField.fieldType

/-- Every field of the reader is written in the record, in the reader's type, or
has a declared default to stand in for it. -/
def DecodedBy (record : Record) (reader : AvroSchema) : Prop :=
  ∀ name f, reader.fieldNamed name = some f →
    (∃ bytes, record name = some (f.fieldType, bytes)) ∨ f.declared.isSome

/-- What one schema writes, the other reads. -/
def Readable (writer reader : AvroSchema) : Prop :=
  ∀ record, ConformsTo record writer → DecodedBy record reader

/-- Whatever registration is accepted, the schema that must read the other's
records does. -/
def Evolves (fingerprint : String → String) (r : SchemaRegistry) : RegistryStep → Prop
  | .register subject schemaJson =>
    NewVersion fingerprint r subject schemaJson → ∀ latest old new,
      (r.subjects subject).getLast? = some latest →
      parseAvroSchema latest.schemaJson = .ok old → parseAvroSchema schemaJson = .ok new →
        (r.getCompatibility subject = .backward ∨ r.getCompatibility subject = .full →
          Readable old new) ∧
        (r.getCompatibility subject = .forward ∨ r.getCompatibility subject = .full →
          Readable new old)
  | _ => True

/-- A field that both schemas have and the reader has no default for is of one
type in both, and a nullable field that only the reader has declares its default. -/
structure KeepsTypes (writer reader : AvroSchema) : Prop where
  shared : ∀ name f g, reader.fieldNamed name = some f → writer.fieldNamed name = some g →
    f.declared = none → g.fieldType = f.fieldType
  added : ∀ name f, reader.fieldNamed name = some f → writer.fieldNamed name = none →
    f.nullable = true → f.declared.isSome

/-- `KeepsTypes` for whatever registration is accepted. -/
def EvolvesKeepingTypes (fingerprint : String → String) (r : SchemaRegistry) :
    RegistryStep → Prop
  | .register subject schemaJson =>
    NewVersion fingerprint r subject schemaJson → ∀ latest old new,
      (r.subjects subject).getLast? = some latest →
      parseAvroSchema latest.schemaJson = .ok old → parseAvroSchema schemaJson = .ok new →
        (r.getCompatibility subject = .backward ∨ r.getCompatibility subject = .full →
          KeepsTypes old new) ∧
        (r.getCompatibility subject = .forward ∨ r.getCompatibility subject = .full →
          KeepsTypes new old)
  | _ => True

/-! ### What the checks establish -/

variable {f : AvroField} {fingerprint : String → String} {subject schemaJson : String}

variable {schema old writer reader : AvroSchema}

theorem fieldNamed_name {name : String} (h : schema.fieldNamed name = some f) :
    name ∈ schema.fields.map AvroField.name := by
  have hname : f.name = name := by simpa using List.find?_some h
  have hmem : f ∈ schema.fields := List.mem_reverse.mp (List.mem_of_find?_eq_some h)
  exact hname ▸ List.mem_map_of_mem hmem

theorem hasDefault_of_undefaulted {other : AvroSchema} (h : undefaulted schema other = none)
    {name : String} (hf : schema.fieldNamed name = some f) (hother : other.fieldNamed name = none) :
    fieldHasDefault f = true := by
  have hnot := List.find?_eq_none.mp h name (fieldNamed_name hf)
  simpa [hf, hother] using hnot

/-- Both checks make the same comparison. -/
theorem undefaulted_of_check {new : AvroSchema} {mode : CompatibilityMode} (hmode : mode ≠ .none)
    (h : checkCompatibility old new mode = .ok ()) :
    undefaulted old new = none ∧ undefaulted new old = none := by
  have hbackward : checkBackward old new = .ok () →
      undefaulted old new = none ∧ undefaulted new old = none := by
    intro hcheck
    unfold checkBackward at hcheck
    split at hcheck
    · cases hcheck
    · split at hcheck
      · cases hcheck
      · exact ⟨‹_›, ‹_›⟩
  cases mode with
  | none => exact absurd rfl hmode
  | backward => exact hbackward h
  | full =>
    obtain ⟨_, hfirst, _⟩ := except_bind_ok h
    exact hbackward hfirst
  | forward =>
    simp only [checkCompatibility, checkForward] at h
    split at h
    · cases h
    · split at h
      · cases h
      · exact ⟨‹_›, ‹_›⟩

theorem declared_of_default (h : f.default.isSome = true) : f.declared.isSome = true := by
  cases hdeclared : f.declared with
  | none => simp [AvroField.default, hdeclared] at h
  | some v => rfl

/-- Reading every record comes down to the declared fields. -/
theorem readable_iff :
    Readable writer reader ↔
      ∀ name f, reader.fieldNamed name = some f → f.declared = none →
        ∃ g, writer.fieldNamed name = some g ∧ g.fieldType = f.fieldType := by
  constructor
  · intro h name f hf hdeclared
    have hconforms : ConformsTo
        (fun other => (writer.fieldNamed other).map fun g => (g.fieldType, [])) writer := by
      intro other
      rw [Option.map_map]
      rfl
    rcases h _ hconforms name f hf with ⟨bytes, hwritten⟩ | hsome
    · obtain ⟨g, hg, hpair⟩ := Option.map_eq_some_iff.mp hwritten
      exact ⟨g, hg, congrArg Prod.fst hpair⟩
    · rw [hdeclared] at hsome
      cases hsome
  · intro h record hconforms name f hf
    cases hdeclared : f.declared with
    | some v => exact .inr rfl
    | none =>
      obtain ⟨g, hg, htype⟩ := h name f hf hdeclared
      have hwritten := hconforms name
      rw [hg] at hwritten
      obtain ⟨⟨type, bytes⟩, hrecord, rfl⟩ := Option.map_eq_some_iff.mp hwritten
      exact .inl ⟨bytes, by rw [hrecord, ← htype]⟩

/-- What the checks leave open is what `KeepsTypes` asks for. -/
theorem readable_iff_keepsTypes (hcheck : undefaulted reader writer = none) :
    Readable writer reader ↔ KeepsTypes writer reader := by
  rw [readable_iff]
  constructor
  · intro h
    constructor
    · intro name f g hf hg hdeclared
      obtain ⟨g', hg', htype⟩ := h name f hf hdeclared
      obtain rfl := Option.some.inj (hg.symm.trans hg')
      exact htype
    · intro name f hf hg _
      cases hdeclared : f.declared with
      | some v => rfl
      | none =>
        obtain ⟨g, hg', _⟩ := h name f hf hdeclared
        rw [hg] at hg'
        cases hg'
  · intro h name f hf hdeclared
    cases hg : writer.fieldNamed name with
    | some g => exact ⟨g, rfl, h.shared name f g hf hg hdeclared⟩
    | none =>
      have hdefault := hasDefault_of_undefaulted hcheck hf hg
      have hsome : f.declared.isSome = true := by
        rcases Bool.or_eq_true_iff.mp hdefault with hdefault | hnullable
        · exact declared_of_default hdefault
        · exact h.added name f hf hg hnullable
      rw [hdeclared] at hsome
      cases hsome

/-- A registration that adds a version has passed the check against the latest. -/
theorem check_of_newVersion {r : SchemaRegistry} (h : NewVersion fingerprint r subject schemaJson)
    {latest : SchemaVersion} {new : AvroSchema}
    (hlatest : (r.subjects subject).getLast? = some latest)
    (hold : parseAvroSchema latest.schemaJson = .ok old)
    (hnew : parseAvroSchema schemaJson = .ok new) :
    checkCompatibility old new (r.getCompatibility subject) = .ok () := by
  obtain ⟨id, r', hregister, hlength⟩ := h
  obtain ⟨parsed, hparsed, hrest⟩ := except_bind_ok hregister
  obtain rfl := Except.ok.inj (hnew.symm.trans hparsed)
  split at hrest
  · obtain ⟨-, rfl⟩ := Prod.mk.inj (Except.ok.inj hrest)
    omega
  · obtain ⟨⟨⟩, hcheck, -⟩ := except_bind_ok hrest
    simp only [SchemaRegistry.checkLatest, hlatest] at hcheck
    obtain ⟨latestParsed, hlatestParsed, hcompatible⟩ := except_bind_ok hcheck
    obtain rfl := Except.ok.inj (hold.symm.trans hlatestParsed)
    exact hcompatible

theorem register_of_fresh {r : SchemaRegistry} {parsed : AvroSchema}
    (hparse : parseAvroSchema schemaJson = .ok parsed)
    (hfresh : (r.subjects subject).find? (fun v => v.fingerprint == fingerprint schemaJson) = none)
    (hcheck : r.checkLatest subject parsed = .ok ()) :
    r.register fingerprint subject schemaJson =
      .ok (r.nextId, r.push subject schemaJson (fingerprint schemaJson)) := by
  rw [SchemaRegistry.register, hparse]
  change (match (r.subjects subject).find? _ with
    | some existing => _
    | none => _) = _
  rw [hfresh]
  change (do r.checkLatest subject parsed; _) = _
  rw [hcheck]
  rfl

theorem registryStep_of_register {r r' : SchemaRegistry} {id : UInt32}
    (h : r.register fingerprint subject schemaJson = .ok (id, r')) :
    registryStep fingerprint r (.register subject schemaJson) = some r' := by
  rw [registryStep, h]

theorem evolves_iff (r : SchemaRegistry) (a : RegistryStep) :
    Evolves fingerprint r a ↔ EvolvesKeepingTypes fingerprint r a := by
  cases a with
  | setCompatibility | deleteSubject => exact Iff.rfl
  | register subject schemaJson =>
    simp only [Evolves, EvolvesKeepingTypes]
    refine forall_congr' fun hnewVersion => forall_congr' fun latest => forall_congr' fun old =>
      forall_congr' fun new => forall_congr' fun hlatest => forall_congr' fun hold =>
        forall_congr' fun hnew => ?_
    have hcheck := check_of_newVersion hnewVersion hlatest hold hnew
    have hboth : ∀ mode, r.getCompatibility subject = mode → mode ≠ .none →
        undefaulted old new = none ∧ undefaulted new old = none := by
      rintro mode rfl hmode
      exact undefaulted_of_check hmode hcheck
    refine and_congr (forall_congr' fun hmode => ?_) (forall_congr' fun hmode => ?_)
    · refine readable_iff_keepsTypes ?_
      rcases hmode with hmode | hmode
      · exact (hboth _ hmode (by decide)).2
      · exact (hboth _ hmode (by decide)).2
    · refine readable_iff_keepsTypes ?_
      rcases hmode with hmode | hmode
      · exact (hboth _ hmode (by decide)).1
      · exact (hboth _ hmode (by decide)).1

/-- Along every run, each accepted version reads, and is read by, its predecessor
as its mode asks exactly if the types of the shared fields are kept and nullable
fields declare the default they are taken to have. -/
theorem meets_evolves_iff (fingerprint : String → String) (labels : List RegistryStep) :
    Meets (registryStep fingerprint) (Evolves fingerprint) .new labels ↔
      Meets (registryStep fingerprint) (EvolvesKeepingTypes fingerprint) .new labels := by
  constructor
  · exact Meets.mono fun r a => (evolves_iff r a).mp
  · exact Meets.mono fun r a => (evolves_iff r a).mpr

/-- A pair of schemas that passes the check and cannot be read, registered one
after the other. -/
theorem not_meets_of_unreadable (subject : String) {first second : String} {new : AvroSchema}
    (hfirst : parseAvroSchema first = .ok old) (hsecond : parseAvroSchema second = .ok new)
    (hdigest : fingerprint first ≠ fingerprint second) (hcheck : checkBackward old new = .ok ())
    (hread : ¬Readable old new) :
    ¬Meets (registryStep fingerprint) (Evolves fingerprint) .new
      [.register subject first, .register subject second] := by
  intro h
  have hregister : SchemaRegistry.new.register fingerprint subject first =
      .ok (1, SchemaRegistry.new.push subject first (fingerprint first)) :=
    register_of_fresh hfirst rfl rfl
  obtain ⟨-, hrest⟩ := h _ (registryStep_of_register hregister)
  generalize hr : SchemaRegistry.new.push subject first (fingerprint first) = r at hrest
  obtain ⟨latest, hsubject, htext, hprint⟩ : ∃ latest, r.subjects subject = [latest] ∧
      latest.schemaJson = first ∧ latest.fingerprint = fingerprint first := by
    subst hr
    exact ⟨_, update_self .., rfl, rfl⟩
  have hmode : r.getCompatibility subject = .backward := by
    subst hr
    rfl
  have hparse : parseAvroSchema latest.schemaJson = .ok old := htext ▸ hfirst
  have hlast : (r.subjects subject).getLast? = some latest := by rw [hsubject]; rfl
  have hlatest : r.checkLatest subject new = .ok () := by
    rw [SchemaRegistry.checkLatest, hlast]
    change (do let latestParsed ← parseAvroSchema latest.schemaJson; _) = _
    rw [hparse, hmode]
    exact hcheck
  have hfresh : (r.subjects subject).find?
      (fun v => v.fingerprint == fingerprint second) = none := by
    rw [hsubject, List.find?_cons, hprint, beq_false_of_ne hdigest]
    rfl
  have hagain := register_of_fresh hsecond hfresh hlatest
  obtain ⟨hevolves, -⟩ := hrest _ (registryStep_of_register hagain)
  have hnew : NewVersion fingerprint r subject second := by
    refine ⟨_, _, hagain, ?_⟩
    simp [SchemaRegistry.push]
  exact hread ((hevolves hnew latest old new hlast hparse hsecond).1 (.inl hmode))

/-- A payment's amount is a `long` in the first version and a `string` in the second. -/
theorem retyped_amount_not_readable :
    let payment : String → String := fun amountType =>
      String.ofList (render serdeTable.escape
        (.object [("type", .string "record"), ("name", .string "Payment"),
          ("fields", .array
            [.object [("name", .string "id"), ("type", .string "string")],
              .object [("name", .string "amount"), ("type", .string amountType)]])]))
    let fingerprint : String → String := fun text =>
      if text = payment "long" then
        "b1bededbbdfde290e8eb913c3b2a2c6f8bace29dc7ae811bd230ea28d4c54af5"
      else "e59ecb0db006468d360b5d9656ead56c9806a9840ef5b09369314ecc31fde4f9"
    ¬Meets (registryStep fingerprint) (Evolves fingerprint) .new
      [.register "bis.payment.events" (payment "long"),
        .register "bis.payment.events" (payment "string")] := by
  intro payment fingerprint
  let schema : String → AvroSchema := fun amountType =>
    { schemaType := "record", name := "Payment", namespaceName := none, doc := none
      fields :=
        [{ name := "id", fieldType := .string "string", declared := none, doc := none },
          { name := "amount", fieldType := .string amountType, declared := none, doc := none }] }
  have hparse : ∀ amountType, parseAvroSchema (payment amountType) = .ok (schema amountType) := by
    intro amountType
    rw [parseAvroSchema_render]
    rfl
  have hne : payment "string" ≠ payment "long" := by
    intro heq
    have hsame := hparse "string"
    rw [heq, hparse "long"] at hsame
    have htypes := congrArg (fun s => s.fields.map AvroField.fieldType) (Except.ok.inj hsame)
    exact absurd htypes (by simp [schema])
  have hdigest : fingerprint (payment "long") ≠ fingerprint (payment "string") := by
    simp only [fingerprint, if_neg hne, if_true]
    decide
  refine not_meets_of_unreadable _ (hparse "long") (hparse "string") hdigest rfl ?_
  intro hreadable
  obtain ⟨g, hg, htype⟩ := readable_iff.mp hreadable "amount" _ rfl rfl
  cases hg
  exact absurd htype (by simp)

end Bis.Kafka
