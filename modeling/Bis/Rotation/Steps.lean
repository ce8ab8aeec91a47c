import Bis.Rotation.Worker

/-!
The steps of the rotation worker, case by case, and what the larger ones leave
behind.
-/

namespace Bis.Rotation

open Bis.Relation Bis.Transition List

variable {Payload : Type} {format : PayloadFormat Payload} {material : KeyMaterial}

/-! ### The rotation of an item -/

variable {db : Tables} {payload : Payload} {kind : RegistryKind} {tenantId : Int} {id : Nat}

theorem writeBlindIndex_ok {db' : Tables} {row : BlindIndex} (h : db.writeBlindIndex row = some
    db') : ∃ rows, db' = { db with blindIndexes := rows } := by
  unfold Tables.writeBlindIndex at h
  split at h
  next =>
    split at h
    next => exact ⟨db.blindIndexes, (Option.some.inj h).symm⟩
    next => exact ⟨_, (Option.some.inj h).symm⟩
  next => cases h

variable {target : TransitRegistry} {names : List BlindAttribute}

theorem indexAttribute_ok {db' : Tables} {client : CryptoClient} {fresh : PlannedItem}
    {name : BlindAttribute}
    (h : db.indexAttribute format material client target fresh payload name = some db') :
    ∃ rows, db' = { db with blindIndexes := rows } := by
  unfold Tables.indexAttribute at h
  split at h
  next => exact ⟨db.blindIndexes, (Option.some.inj h).symm⟩
  next =>
    obtain ⟨index, _, h⟩ := Option.bind_eq_some_iff.mp h
    exact writeBlindIndex_ok h

theorem indexAttributes_ok {client : CryptoClient} {fresh : PlannedItem} {db' : Tables}
    (h : names.foldlM (Tables.indexAttribute format material client target fresh payload) db = some
      db') : ∃ rows, db' = { db with blindIndexes := rows } := by
  induction names generalizing db with
  | nil => exact ⟨db.blindIndexes, (Option.some.inj h).symm⟩
  | cons name rest ih =>
    rw [foldlM_cons] at h
    obtain ⟨next, hnext, h⟩ := Option.bind_eq_some_iff.mp h
    obtain ⟨rows, rfl⟩ := indexAttribute_ok hnext
    obtain ⟨rows', rfl⟩ := ih h
    exact ⟨rows', rfl⟩

theorem rotateBlindIndexes_ok {db' : Tables} {client : CryptoClient} {job : RotationJob}
    {source : Registry} {fresh : PlannedItem} {payload : Option Payload}
    (h : db.rotateBlindIndexes format material client job source names fresh payload = some db') :
    ∃ rows, db' = { db with blindIndexes := rows } := by
  unfold Tables.rotateBlindIndexes at h
  split at h
  next => exact ⟨db.blindIndexes, (Option.some.inj h).symm⟩
  next =>
    obtain ⟨payload, _, h⟩ := Option.bind_eq_some_iff.mp h
    obtain ⟨target, _, h⟩ := Option.bind_eq_some_iff.mp h
    exact indexAttributes_ok h

theorem writeEnvelope_ok {db' : Tables} {row : Envelope} (h : db.writeEnvelope row = some db') :
    db.enforcePiiEnvelopeTenant row = true ∧ (∀ e ∈ db.envelopes, e.id ≠ row.id) ∧
      (∀ e ∈ db.envelopes, e.active = true → e.subject ≠ row.subject) ∧
      db' = { db with envelopes := db.envelopes ++ [row] } := by
  unfold Tables.writeEnvelope Tables.occupied at h
  split at h
  next haccepted =>
    simp only [Bool.and_eq_true, Bool.not_eq_true', any_eq_false, beq_iff_eq] at haccepted
    obtain ⟨⟨hkey, hid⟩, hfree⟩ := haccepted
    exact ⟨hkey, hid, fun e he hactive hsame => hfree e he ⟨hactive, hsame⟩,
      (Option.some.inj h).symm⟩
  next => cases h

/-- The envelope that takes the place of the item's. -/
def rotatedEnvelope (id : Nat) (fresh : PlannedItem) (target : TransitRegistry)
    (ciphertext : String) (providerKeyVersion : Nat) : Envelope where
  id
  subject := fresh.subject
  ciphertext
  sealing := .vaultTransit providerKeyVersion
  keyRegistryId := target.id
  keyVersion := target.keyVersion
  retiredAt := none

/-- What a rotation that commits has found and done. -/
structure Rotates (format : PayloadFormat Payload) (material : KeyMaterial) (client : CryptoClient)
    (now newId : Nat) (job : RotationJob) (fresh : PlannedItem) (db db' : Tables) (source : Registry)
    (target : TransitRegistry) (ciphertext : String) (version : Nat) : Prop where
  sourceFound : db.sourceRegistry job = some source
  targetFound : Tables.tenantRegistryById db.registries job.tenantId
    job.targetEncryptionKeyRegistryId [.active] = some target
  resealed : ∃ payload, Tables.reseal format material client job source target
    (db.sourceBlindAttributes job fresh) fresh = some (ciphertext, version, payload)
  registered : db.enforcePiiEnvelopeTenant (rotatedEnvelope newId fresh target ciphertext version) =
    true
  unused : ∀ e ∈ db.envelopes, e.id ≠ newId
  free : ∀ e ∈ (db.retireEnvelope now fresh.envelopeId).envelopes, e.active = true →
    e.subject ≠ fresh.subject
  done : ∃ blindIndexes, db' =
    { db with
      blindIndexes
      envelopes := (db.retireEnvelope now fresh.envelopeId).envelopes ++
        [rotatedEnvelope newId fresh target ciphertext version]
      items := updateWhere (fun i => i.id == fresh.id)
        (fun i => { i with state := .rotated, errorCode := none }) db.items
      jobs := updateWhere (fun row => row.id == job.id) (fun row => { row with
        processedCount := row.processedCount + 1, rotatedCount := row.rotatedCount + 1 }) db.jobs }

theorem rotateFresh_ok {client : CryptoClient} {now newId : Nat} {job : RotationJob}
    {fresh : PlannedItem} {db' : Tables}
    (h : db.rotateFresh format material client now newId job fresh = some db') :
    ∃ source target ciphertext version,
      Rotates format material client now newId job fresh db db' source target ciphertext version := by
  unfold Tables.rotateFresh at h
  obtain ⟨source, hsource, h⟩ := Option.bind_eq_some_iff.mp h
  obtain ⟨target, htarget, h⟩ := Option.bind_eq_some_iff.mp h
  obtain ⟨⟨ciphertext, version, payload⟩, hsealed, h⟩ := Option.bind_eq_some_iff.mp h
  obtain ⟨indexed, hindexed, h⟩ := Option.bind_eq_some_iff.mp h
  obtain ⟨sealed, hwritten, h⟩ := Option.bind_eq_some_iff.mp h
  obtain ⟨rows, rfl⟩ := rotateBlindIndexes_ok hindexed
  obtain ⟨hregistered, hid, hfree, rfl⟩ := writeEnvelope_ok hwritten
  cases h
  refine ⟨source, target, ciphertext, version, hsource, htarget, ⟨payload, hsealed⟩, hregistered,
    ?_, hfree, rows, rfl⟩
  intro e he
  have hmap := mem_map_of_mem (f := Envelope.id) he
  rw [← map_updateWhere (p := fun e => e.id == fresh.envelopeId && e.active)
    (f := fun e => { e with retiredAt := some now }) (fun _ => rfl)] at hmap
  obtain ⟨e', he', hsame⟩ := mem_map.mp hmap
  exact hsame ▸ hid e' he'

/-! ### One turn of a call -/

section Turns

variable (format material)

/-- The steps of `advance`, one constructor for each. -/
inductive Turn (locked : Nat → Nat → Bool) (db : Tables) : Stage → Action → Tables → Stage → Prop
  | terminalize {d now db'} (h : db.failExhausted now d = .ok db') :
      Turn locked db (.exhausted d) (.terminalize now) db' (.recorded d)
  | deadLetter {d now db'} (h : db.deadLetter now d = .ok db') :
      Turn locked db (.recorded d) (.deadLetter now) db' .returned
  | handOver {d now db' job} (h : db.handOver now d = .ok (db', some job)) :
      Turn locked db (.claimed d) (.handOver now) db' (.leased job)
  | nothingToLease {d now db'} (h : db.handOver now d = .ok (db', none)) :
      Turn locked db (.claimed d) (.handOver now) db' .returned
  | handOverRefused {d now message} (h : db.handOver now d = .error message) :
      Turn locked db (.claimed d) (.handOver now) db (.restoring d)
  | handOverFails {d} : Turn locked db (.claimed d) .handOverFails db (.restoring d)
  | restore {d db'} (h : db.restore d = .ok db') :
      Turn locked db (.restoring d) .restore db' .returned
  | materialize {job firstId db' expected}
      (h : db.materializeItems job firstId = some (db', expected)) :
      Turn locked db (.leased job) (.materialize firstId) db' (.planned job expected)
  | planFails {job} :
      Turn locked db (.leased job) .planFails db (.failing job "PII_ROTATION_PLAN_FAILURE")
  | proceed {job expected confirmed} :
      Turn locked db (.planned job expected) (.proceed confirmed) db
        (.afterPlan job expected confirmed)
  | nextItems {job expected} :
      Turn locked db (.looping job expected []) .nextItems db (.afterBatch job expected
        (db.nextItems job fun item => locked item.id item.envelopeId))
  | commitItems {job expected batch} :
      Turn locked db (.claiming job expected batch) .commitItems db (.looping job expected batch)
  | itemGone {job expected item rest} (h : db.freshItem job item.id = none) :
      Turn locked db (.looping job expected (item :: rest)) .beginItem db
        (.rotating job expected item none rest)
  | beginItem {job expected item rest row fresh} (h : db.freshItem job item.id = some (row, fresh))
      (hfree : locked row.id row.envelopeId = false) :
      Turn locked db (.looping job expected (item :: rest)) .beginItem db
        (.rotating job expected item (some fresh) rest)
  | skip {job expected item fresh rest} (h : item.changed fresh = true) :
      Turn locked db (.rotating job expected item fresh rest) .skip (db.skipItem item.id)
        (.looping job expected rest)
  | rotate {job expected item fresh rest now newId client db'}
      (h : db.rotateFresh format material client now newId job fresh = some db') :
      Turn locked db (.rotating job expected item (some fresh) rest) (.rotate now newId client) db'
        (.looping job expected rest)
  | itemFails {job expected item fresh rest} :
      Turn locked db (.rotating job expected item fresh rest) .itemFails db
        (.failing job "PII_ROTATION_ITEM_FAILURE")
  | markFailed {job code now db'} (h : db.markJobFailed now job code = .ok db') :
      Turn locked db (.failing job code) (.markFailed now) db' .returned
  | finish {job outcome expected now db'} (h : db.finishJob now job outcome expected = .ok db') :
      Turn locked db (.finishing job outcome expected) (.finish now) db' .returned
  | crash {stage} : Turn locked db stage .crash db .returned

end Turns

theorem toOption_bind_eq_some {ε α β : Type*} {x : Except ε α} {f : α → Option β} {b : β}
    (h : (x.toOption.bind f) = some b) : ∃ a, x = .ok a ∧ f a = some b := by
  cases x with
  | error e => cases h
  | ok a => exact ⟨a, rfl, h⟩

theorem turn_of_advance {locked : Nat → Nat → Bool} {db' : Tables} {stage stage' : Stage}
    {action : Action} (h : advance format material locked db stage action = some (db', stage')) :
    Turn format material locked db stage action db' stage' := by
  unfold advance at h
  split at h
  next =>
    obtain ⟨failed, hfailed, h⟩ := toOption_bind_eq_some h
    cases h
    exact .terminalize hfailed
  next =>
    obtain ⟨dead, hdead, h⟩ := toOption_bind_eq_some h
    cases h
    exact .deadLetter hdead
  next =>
    split at h
    next hhanded =>
      cases h
      exact .handOver hhanded
    next hnothing =>
      cases h
      exact .nothingToLease hnothing
    next hrefused =>
      cases h
      exact .handOverRefused hrefused
  next =>
    cases h
    exact .handOverFails
  next =>
    obtain ⟨restored, hrestored, h⟩ := toOption_bind_eq_some h
    cases h
    exact .restore hrestored
  next =>
    obtain ⟨⟨planned, expected⟩, hplanned, h⟩ := Option.bind_eq_some_iff.mp h
    cases h
    exact .materialize hplanned
  next =>
    cases h
    exact .planFails
  next =>
    cases h
    exact .proceed
  next =>
    cases h
    exact .nextItems
  next =>
    cases h
    exact .commitItems
  next =>
    split at h
    next hgone =>
      cases h
      exact .itemGone hgone
    next row fresh hfresh =>
      split at h
      next => cases h
      next hfree =>
        cases h
        exact .beginItem hfresh (Bool.eq_false_iff.mpr hfree)
  next =>
    split at h
    next hchanged =>
      cases h
      exact .skip hchanged
    next => cases h
  next =>
    split at h
    next => cases h
    next =>
      obtain ⟨rotated, hrotated, h⟩ := Option.bind_eq_some_iff.mp h
      cases h
      exact .rotate hrotated
  next =>
    cases h
    exact .itemFails
  next =>
    obtain ⟨failed, hfailed, h⟩ := toOption_bind_eq_some h
    cases h
    exact .markFailed hfailed
  next =>
    obtain ⟨finished, hfinished, h⟩ := toOption_bind_eq_some h
    cases h
    exact .finish hfinished
  next =>
    cases h
    exact .crash
  next => cases h

/-- A step in a call is a turn of the process that stands there. -/
theorem act_ok {s t : System} {process : Nat} {action : Action}
    (h : s.act format material process action = some t) :
    ∃ w stage', lookup Process.id process s.fleet = some w ∧
      Turn format material s.locked s.tables w.stage action t.tables stage' ∧
      t.fleet = upsert Process.id ⟨process, stage'⟩ s.fleet ∧ t.claims = s.claims := by
  unfold System.act at h
  obtain ⟨w, hw, h⟩ := Option.bind_eq_some_iff.mp h
  obtain ⟨⟨db', stage'⟩, hadvance, h⟩ := Option.bind_eq_some_iff.mp h
  cases h
  exact ⟨w, stage', hw, turn_of_advance hadvance, rfl, rfl⟩

/-! ### The keys -/

/-- What a registered key says is never changed, only its status. -/
structure KeysKept (rows rows' : List Registry) : Prop where
  ids : (rows.map Registry.id).Nodup → (rows'.map Registry.id).Nodup
  kept : ∀ row ∈ rows, ∃ row' ∈ rows', row'.id = row.id ∧ row'.keyVersion = row.keyVersion ∧
    row'.custody = row.custody

theorem KeysKept.refl (rows : List Registry) : KeysKept rows rows :=
  ⟨id, fun row hrow => ⟨row, hrow, rfl, rfl, rfl⟩⟩

theorem KeysKept.trans {rows rows' rows'' : List Registry} (h : KeysKept rows rows')
    (h' : KeysKept rows' rows'') : KeysKept rows rows'' where
  ids := h'.ids ∘ h.ids
  kept row hrow := by
    obtain ⟨row', hrow', hid, hversion, hcustody⟩ := h.kept row hrow
    obtain ⟨row'', hrow'', hid', hversion', hcustody'⟩ := h'.kept row' hrow'
    exact ⟨row'', hrow'', hid'.trans hid, hversion'.trans hversion, hcustody'.trans hcustody⟩

theorem keysKept_updateWhere (p : Registry → Bool) {f : Registry → Registry}
    (hid : ∀ row, (f row).id = row.id) (hversion : ∀ row, (f row).keyVersion = row.keyVersion)
    (hcustody : ∀ row, (f row).custody = row.custody) (rows : List Registry) :
    KeysKept rows (updateWhere p f rows) where
  ids hids := by
    rw [map_updateWhere hid]
    exact hids
  kept row hrow := by
    by_cases hp : p row
    · exact ⟨f row, mem_updateWhere.mpr (.inl ⟨row, hrow, hp, rfl⟩), hid row, hversion row,
        hcustody row⟩
    · exact ⟨row, mem_updateWhere_of_not hrow hp, rfl, rfl, rfl⟩

/-- Only the keys are written. -/
structure KeyWrite (db db' : Tables) : Prop where
  registries : KeysKept db.registries db'.registries
  frame : ∃ blindRegistries, db' = { db with registries := db'.registries, blindRegistries }

theorem keyWrite_setKeys {rows : List Registry} (h : KeysKept (db.keys kind) rows) :
    KeyWrite db (db.setKeys rows kind) := by
  cases kind with
  | encryption => exact ⟨h, db.blindRegistries, rfl⟩
  | blindIndex => exact ⟨KeysKept.refl _, rows, rfl⟩

theorem KeyWrite.trans {db' db'' : Tables} (h : KeyWrite db db') (h' : KeyWrite db' db'') :
    KeyWrite db db'' := by
  obtain ⟨hkept, rows, hframe⟩ := h
  obtain ⟨hkept', rows', hframe'⟩ := h'
  refine ⟨hkept.trans hkept', rows', ?_⟩
  rw [hframe] at hframe'
  exact hframe'

theorem registerStagedVaultKey_ok {db' : Tables} {keyVersion : String} {reference : TransitRef}
    {metadata : Nat}
    (h : db.registerStagedVaultKey material tenantId kind id keyVersion reference metadata = some
      db') : KeyWrite db db' := by
  unfold Tables.registerStagedVaultKey at h
  obtain ⟨_, _, h⟩ := Option.bind_eq_some_iff.mp h
  simp only at h
  split at h
  next => cases h
  next hclash =>
    cases h
    simp only [Bool.or_eq_true, not_or, Bool.not_eq_true, any_eq_false, beq_iff_eq] at hclash
    apply keyWrite_setKeys
    refine ⟨?_, fun row hrow => ⟨row, mem_append_left _ hrow, rfl, rfl, rfl⟩⟩
    intro hids
    rw [map_append]
    apply nodup_append_fresh hids
    intro hmem
    obtain ⟨row, hrow, hid⟩ := mem_map.mp hmem
    exact (hclash.1 row hrow).1 hid

theorem activateStagedVaultKey_ok {db' : Tables} {now : Nat}
    (h : db.activateStagedVaultKey now tenantId kind id = some db') : KeyWrite db db' := by
  unfold Tables.activateStagedVaultKey at h
  obtain ⟨_, _, h⟩ := Option.bind_eq_some_iff.mp h
  simp only at h
  split at h
  next => cases h
  next =>
    cases h
    apply keyWrite_setKeys
    have hretired := keysKept_updateWhere
      (fun other => other.tenantId == tenantId && other.status == .active)
      (f := Registry.retire now) (fun _ => rfl) (fun _ => rfl) (fun _ => rfl) (db.keys kind)
    apply hretired.trans
    apply keysKept_updateWhere
    all_goals exact fun _ => rfl

theorem markCompromised_ok {db' : Tables}
    (h : Tables.markCompromised tenantId kind db id = some db') : KeyWrite db db' := by
  unfold Tables.markCompromised at h
  obtain ⟨_, _, h⟩ := Option.bind_eq_some_iff.mp h
  split at h
  next => cases h
  next =>
    cases h
    apply keyWrite_setKeys
    apply keysKept_updateWhere
    all_goals exact fun _ => rfl

theorem markAllCompromised_ok {ids : List Nat} {db' : Tables}
    (h : ids.foldlM (Tables.markCompromised tenantId kind) db = some db') : KeyWrite db db' := by
  induction ids generalizing db with
  | nil =>
    obtain rfl := Option.some.inj h
    exact ⟨KeysKept.refl _, db.blindRegistries, rfl⟩
  | cons id rest ih =>
    rw [foldlM_cons] at h
    obtain ⟨next, hnext, h⟩ := Option.bind_eq_some_iff.mp h
    exact (markCompromised_ok hnext).trans (ih h)

theorem reportSuspectedCompromise_ok {db' : Tables} {encryptionIds blindIndexIds : List Nat}
    (h : db.reportSuspectedCompromise tenantId encryptionIds blindIndexIds = some db') :
    KeyWrite db db' := by
  unfold Tables.reportSuspectedCompromise at h
  obtain ⟨contained, hcontained, h⟩ := Option.bind_eq_some_iff.mp h
  exact (markAllCompromised_ok hcontained).trans (markAllCompromised_ok h)

/-! ### Jobs and envelopes from elsewhere -/

theorem createRotationJob_ok {db' : Tables} {now : Nat} {job : RotationJob}
    (h : db.createRotationJob now job = some db') :
    0 < job.maxBatchSize ∧ (∀ other ∈ db.jobs, other.id ≠ job.id) ∧
      db' = { db with
        jobs := db.jobs ++ [job.created]
        dispatch :=
          if db.dispatch.any fun d => d.rotationJobId == job.id then db.dispatch
          else db.dispatch ++ [job.created.entry now] } := by
  unfold Tables.createRotationJob at h
  obtain ⟨source, _, h⟩ := Option.bind_eq_some_iff.mp h
  obtain ⟨target, _, h⟩ := Option.bind_eq_some_iff.mp h
  simp only at h
  split at h
  next haccepted =>
    obtain ⟨hfits, hfree⟩ := Bool.and_eq_true_iff.mp haccepted
    rw [Bool.not_eq_true', any_eq_false] at hfree
    simp only [Bool.and_eq_true, decide_eq_true_eq] at hfits
    refine ⟨hfits.2.1, ?_, (Option.some.inj h).symm⟩
    intro other hother hid
    exact hfree other hother (by simp [Tables.clashingJob, hid])
  next => cases h

/-- The items of a plan come after all others, and the job is told how many it has. -/
theorem materializeItems_eq {db' : Tables} {job : RotationJob} {firstId expected : Nat}
    (h : db.materializeItems job firstId = some (db', expected)) :
    (∀ i ∈ db.items, i.id < firstId) ∧
      db' = ({ db with
        items := db.items ++ (db.envelopes.filter (db.unplanned job)).mapIdx fun k e =>
          Tables.plannedRow job (firstId + k) e }).countJob job.id fun row =>
            { row with expectedCount := some expected } := by
  unfold Tables.materializeItems at h
  split at h
  next => cases h
  next hfree =>
    obtain ⟨hcounted, hexpected⟩ := Prod.mk.inj (Option.some.inj h)
    refine ⟨?_, ?_⟩
    · intro i hi
      simp only [any_eq_true, decide_eq_true_eq, not_exists, not_and, not_le] at hfree
      exact hfree i hi
    · rw [← hcounted, ← hexpected]

theorem insertEnvelope_ok {client : CryptoClient} {now : Nat} {subject : Subject} {db' : Tables}
    (h : db.insertEnvelope format material client now id subject payload = some db') :
    db' = db ∨ ∃ row : Envelope, row.active = true ∧ db.writeEnvelope row = some db' := by
  unfold Tables.insertEnvelope at h
  obtain ⟨key, _, h⟩ := Option.bind_eq_some_iff.mp h
  obtain ⟨aad, _, h⟩ := Option.bind_eq_some_iff.mp h
  obtain ⟨encrypted, _, h⟩ := Option.bind_eq_some_iff.mp h
  simp only at h
  split at h
  next => exact .inl (Option.some.inj h).symm
  next => exact .inr ⟨_, rfl, h⟩

end Bis.Rotation
