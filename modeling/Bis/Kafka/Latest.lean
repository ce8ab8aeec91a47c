import Bis.Kafka.Registry

/-!
Identifiers, versions and the latest schema of the schema registry over a whole history of
registrations, deletions and changes of the mode. The counter of the identifiers wraps, as
it does in a build without overflow checks.
-/

namespace Bis.Kafka

open Bis.Json Bis.Transition List

def SchemaRegistry.getLatest (r : SchemaRegistry) (subject : String) :
    Except SchemaError SchemaVersion :=
  match (r.subjects subject).getLast? with
  | some latest => .ok latest
  | none => .error (.subjectNotFound subject)

/-- Identifiers are unique and below the next one, and versions increase. -/
structure Ordered (r : SchemaRegistry) : Prop where
  below : ∀ subject, ∀ v ∈ r.subjects subject, v.id < r.nextId
  distinct : ∀ subject, (r.subjects subject).Pairwise fun v w => v.id ≠ w.id
  apart : ∀ subject other, subject ≠ other →
    ∀ v ∈ r.subjects subject, ∀ w ∈ r.subjects other, v.id ≠ w.id
  increasing : ∀ subject, (r.subjects subject).Pairwise fun v w => v.version < w.version

section

variable (fingerprint : String → String)

/-- A refused registration changes nothing, and behind an accepted one the latest
version of the subject is the schema. -/
def Answers (r : SchemaRegistry) : RegistryStep → Prop
  | .register subject schemaJson =>
    match r.register fingerprint subject schemaJson with
    | .error _ => registryStep fingerprint r (.register subject schemaJson) = some r
    | .ok (_, after) =>
      ∃ latest, after.getLatest subject = .ok latest ∧ latest.schemaJson = schemaJson
  | .setCompatibility .. | .deleteSubject _ => True

/-- The schema of a registration is the latest one if its fingerprint is known, and
there is an identifier for it if it is not. -/
def Fresh (r : SchemaRegistry) : RegistryStep → Prop
  | .register subject schemaJson =>
    ∀ parsed, parseAvroSchema schemaJson = .ok parsed →
      match (r.subjects subject).find? fun v => v.fingerprint == fingerprint schemaJson with
      | some _ => ∃ latest, (r.subjects subject).getLast? = some latest ∧
          latest.schemaJson = schemaJson
      | none => r.checkLatest subject parsed = .ok () → r.nextId.toNat + 1 < 2 ^ 32
  | .setCompatibility .. | .deleteSubject _ => True

end

variable {fingerprint : String → String} {r after : SchemaRegistry}
variable {subject schemaJson digest : String}

/-! ### One registration -/

/-- An accepted registration finds the fingerprint or adds a version. -/
theorem register_ok {id : UInt32}
    (h : r.register fingerprint subject schemaJson = .ok (id, after)) :
    ∃ parsed, parseAvroSchema schemaJson = .ok parsed ∧
      ((∃ existing, (r.subjects subject).find?
            (fun v => v.fingerprint == fingerprint schemaJson) = some existing ∧ after = r) ∨
        ((r.subjects subject).find? (fun v => v.fingerprint == fingerprint schemaJson) = none ∧
          r.checkLatest subject parsed = .ok () ∧
          after = r.push subject schemaJson (fingerprint schemaJson))) := by
  obtain ⟨parsed, hparsed, hrest⟩ := except_bind_ok h
  refine ⟨parsed, hparsed, ?_⟩
  split at hrest
  next existing hfound =>
    obtain ⟨-, rfl⟩ := Prod.mk.inj (Except.ok.inj hrest)
    exact .inl ⟨existing, hfound, rfl⟩
  next hnone =>
    obtain ⟨⟨⟩, hcheck, hok⟩ := except_bind_ok hrest
    obtain ⟨-, rfl⟩ := Prod.mk.inj (Except.ok.inj hok)
    exact .inr ⟨hnone, hcheck, rfl⟩

/-- The version that a registration adds. -/
def added (r : SchemaRegistry) (subject schemaJson digest : String) : SchemaVersion where
  id := r.nextId
  version := UInt32.ofNat (r.subjects subject).length + 1
  subject
  schemaJson
  fingerprint := digest

theorem push_subjects_self :
    (r.push subject schemaJson digest).subjects subject =
      r.subjects subject ++ [added r subject schemaJson digest] :=
  Function.update_self ..

theorem push_subjects_of_ne {other : String} (h : other ≠ subject) :
    (r.push subject schemaJson digest).subjects other = r.subjects other :=
  Function.update_of_ne h ..

theorem mem_push {other : String} {v : SchemaVersion} :
    v ∈ (r.push subject schemaJson digest).subjects other ↔
      v ∈ r.subjects other ∨ other = subject ∧ v = added r subject schemaJson digest := by
  by_cases h : other = subject
  · subst h
    simp [push_subjects_self]
  · simp [push_subjects_of_ne h, h]

theorem getLatest_push :
    (r.push subject schemaJson digest).getLatest subject =
      .ok (added r subject schemaJson digest) := by
  rw [SchemaRegistry.getLatest, push_subjects_self, getLast?_concat]

theorem push_nextId (subject schemaJson digest : String) (h : r.nextId.toNat + 1 < 2 ^ 32) :
    (r.push subject schemaJson digest).nextId.toNat = r.nextId.toNat + 1 := by
  have hnext : (r.push subject schemaJson digest).nextId = r.nextId + 1 := rfl
  rw [hnext, UInt32.toNat_add]
  exact Nat.mod_eq_of_lt h

/-! ### The invariant -/

/-- A subject has fewer versions than there are identifiers in use, and none of them
is numbered above their count. -/
structure Held (r : SchemaRegistry) : Prop extends Ordered r where
  room : ∀ subject, (r.subjects subject).length < r.nextId.toNat
  numbered : ∀ subject, ∀ v ∈ r.subjects subject,
    v.version.toNat ≤ (r.subjects subject).length

theorem held_new : Held .new := by
  refine ⟨⟨?_, fun _ => .nil, ?_, fun _ => .nil⟩, ?_, ?_⟩
  · intro subject v hv
    cases hv
  · intro subject other _ v hv
    cases hv
  · intro subject
    exact Nat.zero_lt_one
  · intro subject v hv
    cases hv

/-- Subjects that are as they were, or gone. -/
theorem Held.of_subjects (h : Held r)
    (hsubjects : ∀ subject, after.subjects subject = [] ∨
      after.subjects subject = r.subjects subject)
    (hnext : after.nextId = r.nextId) : Held after := by
  have hmem : ∀ subject, ∀ v ∈ after.subjects subject, v ∈ r.subjects subject := by
    intro subject v hv
    rcases hsubjects subject with hgone | hkept
    · rw [hgone] at hv
      cases hv
    · rwa [hkept] at hv
  refine ⟨⟨?_, ?_, ?_, ?_⟩, ?_, ?_⟩
  · intro subject v hv
    rw [hnext]
    exact h.below subject v (hmem subject v hv)
  · intro subject
    rcases hsubjects subject with hgone | hkept
    · rw [hgone]
      exact .nil
    · rw [hkept]
      exact h.distinct subject
  · intro subject other hne v hv w hw
    exact h.apart subject other hne v (hmem subject v hv) w (hmem other w hw)
  · intro subject
    rcases hsubjects subject with hgone | hkept
    · rw [hgone]
      exact .nil
    · rw [hkept]
      exact h.increasing subject
  · intro subject
    rw [hnext]
    rcases hsubjects subject with hgone | hkept
    · rw [hgone]
      exact Nat.zero_lt_of_lt (h.room subject)
    · rw [hkept]
      exact h.room subject
  · intro subject v hv
    rcases hsubjects subject with hgone | hkept
    · rw [hgone] at hv
      cases hv
    · rw [hkept] at hv ⊢
      exact h.numbered subject v hv

theorem Held.push (h : Held r) (hroom : r.nextId.toNat + 1 < 2 ^ 32) :
    Held (r.push subject schemaJson digest) := by
  have hnext := push_nextId subject schemaJson digest hroom
  have hbelow : ∀ other, ∀ v ∈ r.subjects other, v.id ≠ r.nextId := fun other v hv heq =>
    UInt32.lt_irrefl _ (heq ▸ h.below other v hv)
  have hversion : (added r subject schemaJson digest).version.toNat =
      (r.subjects subject).length + 1 := by
    have hlength := h.room subject
    have hsum : (added r subject schemaJson digest).version =
        UInt32.ofNat (r.subjects subject).length + 1 := rfl
    have hone : (1 : UInt32).toNat = 1 := rfl
    rw [hsum, UInt32.toNat_add, UInt32.toNat_ofNat', hone]
    omega
  refine ⟨⟨?_, ?_, ?_, ?_⟩, ?_, ?_⟩
  · intro other v hv
    rw [UInt32.lt_iff_toNat_lt, hnext]
    rcases mem_push.mp hv with hold | ⟨-, rfl⟩
    · exact Nat.lt_succ_of_lt (UInt32.lt_iff_toNat_lt.mp (h.below other v hold))
    · exact Nat.lt_succ_self _
  · intro other
    by_cases hother : other = subject
    · subst hother
      rw [push_subjects_self, pairwise_append]
      refine ⟨h.distinct other, pairwise_singleton _ _, ?_⟩
      intro v hv w hw
      obtain rfl := mem_singleton.mp hw
      exact hbelow other v hv
    · rw [push_subjects_of_ne hother]
      exact h.distinct other
  · intro first second hne v hv w hw
    rcases mem_push.mp hv with hv | ⟨rfl, rfl⟩
    · rcases mem_push.mp hw with hw | ⟨-, rfl⟩
      · exact h.apart first second hne v hv w hw
      · exact hbelow first v hv
    · rcases mem_push.mp hw with hw | ⟨rfl, -⟩
      · exact (hbelow second w hw).symm
      · exact absurd rfl hne
  · intro other
    by_cases hother : other = subject
    · subst hother
      rw [push_subjects_self, pairwise_append]
      refine ⟨h.increasing other, pairwise_singleton _ _, ?_⟩
      intro v hv w hw
      obtain rfl := mem_singleton.mp hw
      rw [UInt32.lt_iff_toNat_lt, hversion]
      exact Nat.lt_succ_of_le (h.numbered other v hv)
    · rw [push_subjects_of_ne hother]
      exact h.increasing other
  · intro other
    have hlength := h.room other
    rw [hnext]
    by_cases hother : other = subject
    · subst hother
      rw [push_subjects_self, length_append]
      exact Nat.succ_lt_succ hlength
    · rw [push_subjects_of_ne hother]
      exact Nat.lt_succ_of_lt hlength
  · intro other v hv
    rcases mem_push.mp hv with hold | ⟨rfl, rfl⟩
    · refine Nat.le_trans (h.numbered other v hold) ?_
      by_cases hother : other = subject
      · subst hother
        rw [push_subjects_self, length_append]
        exact Nat.le_add_right _ _
      · rw [push_subjects_of_ne hother]
    · rw [hversion, push_subjects_self, length_append]
      exact Nat.le_refl _

theorem held_deleteSubject {versions : List UInt32} (h : Held r)
    (hdelete : r.deleteSubject subject = .ok (versions, after)) : Held after := by
  unfold SchemaRegistry.deleteSubject at hdelete
  split at hdelete
  · cases hdelete
  · obtain ⟨-, rfl⟩ := Prod.mk.inj (Except.ok.inj hdelete)
    refine h.of_subjects ?_ rfl
    intro other
    by_cases hother : other = subject
    · subst hother
      exact .inl (Function.update_self ..)
    · exact .inr (Function.update_of_ne hother ..)

/-! ### Runs -/

variable {a : RegistryStep} {latest : SchemaVersion}

/-- A step that meets the condition keeps the invariant. -/
theorem held_of_step (h : Held r) (hfresh : Fresh fingerprint r a)
    (hstep : registryStep fingerprint r a = some after) : Held after := by
  cases a with
  | register subject schemaJson =>
    simp only [registryStep] at hstep
    split at hstep
    next id r' hregister =>
      cases hstep
      obtain ⟨parsed, hparsed, hcases⟩ := register_ok hregister
      have hroom := hfresh parsed hparsed
      rcases hcases with ⟨_, _, rfl⟩ | ⟨hnone, hcheck, rfl⟩
      · exact h
      · rw [hnone] at hroom
        exact h.push (hroom hcheck)
    next =>
      cases hstep
      exact h
  | setCompatibility subject mode =>
    cases hstep
    exact h.of_subjects (fun _ => .inr rfl) rfl
  | deleteSubject subject =>
    simp only [registryStep] at hstep
    split at hstep
    next versions r' hdelete =>
      cases hstep
      exact held_deleteSubject h hdelete
    next =>
      cases hstep
      exact h

/-- A refused registration leaves the registry as it was. -/
theorem registryStep_of_error {error : SchemaError}
    (h : r.register fingerprint subject schemaJson = .error error) :
    registryStep fingerprint r (.register subject schemaJson) = some r := by
  rw [registryStep, h]

theorem getLatest_of_getLast (h : (r.subjects subject).getLast? = some latest) :
    r.getLatest subject = .ok latest := by
  rw [SchemaRegistry.getLatest, h]

/-- And it is answered as it should be. -/
theorem answers_of_fresh (hfresh : Fresh fingerprint r a) : Answers fingerprint r a := by
  cases a with
  | setCompatibility | deleteSubject => trivial
  | register subject schemaJson =>
    simp only [Answers]
    split
    next error herror => exact registryStep_of_error herror
    next id r' hregister =>
      obtain ⟨parsed, hparsed, hcases⟩ := register_ok hregister
      have hlatest := hfresh parsed hparsed
      rcases hcases with ⟨existing, hfound, rfl⟩ | ⟨_, _, rfl⟩
      · rw [hfound] at hlatest
        obtain ⟨latest, hlast, htext⟩ := hlatest
        exact ⟨latest, getLatest_of_getLast hlast, htext⟩
      · exact ⟨_, getLatest_push, rfl⟩

theorem register_of_found {parsed : AvroSchema} {existing : SchemaVersion}
    (hparse : parseAvroSchema schemaJson = .ok parsed)
    (hfound : (r.subjects subject).find? (fun v => v.fingerprint == fingerprint schemaJson) =
      some existing) :
    r.register fingerprint subject schemaJson = .ok (existing.id, r) := by
  rw [SchemaRegistry.register, hparse]
  change (match (r.subjects subject).find? _ with
    | some existing => _
    | none => _) = _
  rw [hfound]

theorem getLast_of_getLatest (h : r.getLatest subject = .ok latest) :
    (r.subjects subject).getLast? = some latest := by
  unfold SchemaRegistry.getLatest at h
  split at h
  next hlast => rw [hlast, Except.ok.inj h]
  next => cases h

/-- A step that is answered as it should be, into an ordered registry, meets the
condition. -/
theorem fresh_of_answers (hanswers : Answers fingerprint r a)
    (hordered : ∀ after, registryStep fingerprint r a = some after → Ordered after) :
    Fresh fingerprint r a := by
  cases a with
  | setCompatibility | deleteSubject => trivial
  | register subject schemaJson =>
    intro parsed hparsed
    cases hfind : (r.subjects subject).find? fun v => v.fingerprint == fingerprint schemaJson with
    | some existing =>
      simp only [Answers, register_of_found hparsed hfind] at hanswers
      obtain ⟨latest, hlatest, htext⟩ := hanswers
      exact ⟨latest, getLast_of_getLatest hlatest, htext⟩
    | none =>
      intro hcheck
      have hregister := register_of_fresh hparsed hfind hcheck
      have hafter := hordered _ (registryStep_of_register hregister)
      have hadded := hafter.below subject (added r subject schemaJson (fingerprint schemaJson))
        (mem_push.mpr (.inr ⟨rfl, rfl⟩))
      have hless : r.nextId.toNat < (r.nextId.toNat + 1) % 2 ^ 32 := by
        have htoNat := UInt32.lt_iff_toNat_lt.mp hadded
        exact htoNat
      have hbound := r.nextId.toNat_lt
      omega

/-- Over any history, the identifiers and versions stay ordered and every registration
is answered as it should be, exactly if every step meets the condition. -/
theorem ordered_and_answers_iff (fingerprint : String → String) (labels : List RegistryStep) :
    Always (registryStep fingerprint) Ordered .new labels ∧
        Meets (registryStep fingerprint) (Answers fingerprint) .new labels ↔
      Meets (registryStep fingerprint) (Fresh fingerprint) .new labels := by
  constructor
  · generalize SchemaRegistry.new = r
    rintro ⟨hordered, hanswers⟩
    induction labels generalizing r with
    | nil => trivial
    | cons a rest ih =>
      intro t hstep
      obtain ⟨hanswer, hrest⟩ := hanswers t hstep
      refine ⟨fresh_of_answers hanswer ?_, ih t (hordered.2 t hstep) hrest⟩
      intro after hafter
      exact (hordered.2 after hafter).start
  · intro hfresh
    refine ⟨?_, hfresh.mono fun r a h => answers_of_fresh h⟩
    exact (always_of_meets (fun _ _ _ h hC hstep => held_of_step h hC hstep) held_new hfresh).mono
      fun r h => h.toOrdered

/-- Two versions, and the first one registered again: the second stays the latest. -/
theorem not_meets_of_return {fingerprint : String → String} (subject : String)
    {first second : String} {old new : AvroSchema} (hfirst : parseAvroSchema first = .ok old)
    (hsecond : parseAvroSchema second = .ok new)
    (hdigest : fingerprint first ≠ fingerprint second)
    (hcheck : checkBackward old new = .ok ()) :
    ¬Meets (registryStep fingerprint) (Answers fingerprint) .new
      [.register subject first, .register subject second, .register subject first] := by
  intro h
  have hregister : SchemaRegistry.new.register fingerprint subject first =
      .ok (1, SchemaRegistry.new.push subject first (fingerprint first)) :=
    register_of_fresh hfirst rfl rfl
  obtain ⟨-, hrest⟩ := h _ (registryStep_of_register hregister)
  have hone : (SchemaRegistry.new.push subject first (fingerprint first)).subjects subject =
      [added .new subject first (fingerprint first)] := push_subjects_self
  have hmode : (SchemaRegistry.new.push subject first (fingerprint first)).getCompatibility
      subject = .backward := rfl
  generalize SchemaRegistry.new.push subject first (fingerprint first) = r at hrest hone hmode
  have hlatest : r.checkLatest subject new = .ok () := by
    rw [SchemaRegistry.checkLatest, hone]
    change (do let latestParsed ← parseAvroSchema first; _) = _
    rw [hfirst, hmode]
    exact hcheck
  have hfresh : (r.subjects subject).find?
      (fun v => v.fingerprint == fingerprint second) = none := by
    rw [hone, find?_cons, added, beq_false_of_ne hdigest]
    rfl
  have hadd := register_of_fresh hsecond hfresh hlatest
  obtain ⟨-, hagain⟩ := hrest _ (registryStep_of_register hadd)
  have hfound : ((r.push subject second (fingerprint second)).subjects subject).find?
      (fun v => v.fingerprint == fingerprint first) =
        some (added .new subject first (fingerprint first)) := by
    rw [push_subjects_self, hone, cons_append, find?_cons, added]
    simp only [BEq.rfl]
  have hreturned := register_of_found hfirst hfound
  obtain ⟨hanswer, -⟩ := hagain _ (registryStep_of_register hreturned)
  simp only [Answers, hreturned, getLatest_push] at hanswer
  obtain ⟨latest, hok, htext⟩ := hanswer
  cases hok
  exact hdigest (congrArg fingerprint htext.symm)

/-- A payment event, the same with an optional currency, and the first one again. -/
theorem first_schema_not_latest :
    let payment : List Value → String := fun more =>
      String.ofList (render serdeTable.escape
        (.object [("type", .string "record"), ("name", .string "TestEvent"),
          ("fields", .array
            (.object [("name", .string "id"), ("type", .string "string")] :: more))]))
    let currency : Value :=
      .object [("name", .string "currency"), ("type", .array [.string "null", .string "string"]),
        ("default", .null)]
    let fingerprint : String → String := fun text =>
      if text = payment [] then
        "c6249a2862677c64c214f4529ece9af97a2b9f751d33dbdf93d2b3bd533a8baa"
      else "d788a7f2b55f42d8088bf7786df53182a461b67bd03b37a66aa5b067eea365eb"
    ¬(Always (registryStep fingerprint) Ordered .new
          [.register "bis.test" (payment []), .register "bis.test" (payment [currency]),
            .register "bis.test" (payment [])] ∧
        Meets (registryStep fingerprint) (Answers fingerprint) .new
          [.register "bis.test" (payment []), .register "bis.test" (payment [currency]),
            .register "bis.test" (payment [])]) := by
  intro payment currency fingerprint
  let id : AvroField :=
    { name := "id", fieldType := .string "string", declared := none, doc := none }
  let currencyField : AvroField :=
    { name := "currency", fieldType := .array [.string "null", .string "string"]
      declared := some .null, doc := none }
  let schema : List AvroField → AvroSchema := fun more =>
    { schemaType := "record", name := "TestEvent", namespaceName := none, doc := none
      fields := id :: more }
  have hfirst : parseAvroSchema (payment []) = .ok (schema []) := by
    rw [parseAvroSchema_render]
    rfl
  have hsecond : parseAvroSchema (payment [currency]) = .ok (schema [currencyField]) := by
    rw [parseAvroSchema_render]
    rfl
  have hne : payment [currency] ≠ payment [] := by
    intro heq
    have hsame := hsecond
    rw [heq, hfirst] at hsame
    have hfields := congrArg (fun s => s.fields.length) (Except.ok.inj hsame)
    exact absurd hfields (by decide)
  have hdigest : fingerprint (payment []) ≠ fingerprint (payment [currency]) := by
    simp only [fingerprint, if_neg hne, if_true]
    decide
  rintro ⟨-, hanswers⟩
  exact not_meets_of_return _ hfirst hsecond hdigest rfl hanswers

end Bis.Kafka
