import Bis.Rotation.Completion

/-!
The payloads under rotation. An envelope is only ever retired in the transaction
that writes its successor, and the successor holds what it held: Vault opens what
it sealed, and rewraps without changing what is inside.
-/

namespace Bis.Rotation

open Bis.Relation Bis.Transition List

variable {Payload : Type} {format : PayloadFormat Payload} {material : KeyMaterial}

/-! ### What is opened -/

section Opens

variable (format material)

/-- What an envelope holds. -/
def Tables.opens (db : Tables) (e : Envelope) : Option Payload := do
  let key ← lookup Registry.id e.keyRegistryId db.registries
  openSealed format material key.custody e.keyVersion e.subject e.sealing e.ciphertext

/-- What the active envelopes of a subject hold. -/
def Tables.payloads (db : Tables) (subject : Subject) : List (Option Payload) :=
  (db.envelopes.filter fun e => e.active && e.subject == subject).map (db.opens format material)

end Opens

/-- Vault answers a transaction as it should. -/
def Label.Faithful (material : KeyMaterial) : Label Payload → Prop
  | .act _ (.rotate _ _ client) => client.Faithful material
  | _ => True

theorem openSealed_transit {reference : TransitRef} {version version' : Nat} {keyVersion : String}
    {subject : Subject} {ciphertext aad : String} (haad : piiAad subject = some aad) :
    openSealed format material (.vaultTransit reference version) keyVersion subject
        (.vaultTransit version') ciphertext =
      (parseVaultTransitRef material reference).bind fun keyName =>
        (material.transit keyName aad ciphertext).bind format.parse := by
  unfold openSealed
  simp only [haad, bind, Option.bind_some]

theorem parse_encodedJson {payload : Payload} {encoded : String}
    (h : encodedJson format payload = some encoded) : format.parse encoded = some payload := by
  unfold encodedJson at h
  simp only at h
  split at h
  next => cases h
  next =>
    cases h
    exact format.parse_stringify payload

section Faithful

variable {client : CryptoClient}

/-- What is decrypted for a rotation is what the envelope holds. -/
theorem decryptForRotation_opens (hclient : client.Faithful material) {job : RotationJob}
    {source : Registry} {fresh : PlannedItem} {payload : Payload}
    (h : Tables.decryptForRotation format material client job source fresh = some payload) :
    openSealed format material source.custody fresh.keyVersion fresh.subject fresh.sealing
      fresh.ciphertext = some payload := by
  unfold Tables.decryptForRotation at h
  split at h
  next nonce hcustody hsealing =>
    split at h
    next =>
      unfold decryptLegacyPiiEnvelope at h
      obtain ⟨decoded, hdecoded, hparse⟩ := Option.bind_eq_some_iff.mp h
      rw [hcustody, hsealing]
      simp only [openSealed, hclient.legacyDecrypt _ _ _ _ _ hdecoded, Option.bind_some]
      exact hparse
    next => cases h
  next => cases h
  next => cases h
  next reference version version' hcustody hsealing =>
    split at h
    next => cases h
    next =>
      obtain ⟨aad, haad, h⟩ := Option.bind_eq_some_iff.mp h
      unfold decryptPiiEnvelope at h
      split at h
      next => cases h
      next =>
        obtain ⟨keyName, hkeyName, h⟩ := Option.bind_eq_some_iff.mp h
        obtain ⟨decoded, hdecoded, hparse⟩ := Option.bind_eq_some_iff.mp h
        rw [hcustody, hsealing, openSealed_transit haad, hkeyName]
        simp only [Option.bind_some, hclient.decrypt _ _ _ _ hdecoded]
        exact hparse

variable {target : TransitRegistry}

/-- What is encrypted for a rotation can be opened again. -/
theorem encryptPiiEnvelope_opens (hclient : client.Faithful material) {aad : String}
    {payload : Payload} {encrypted : PiiEnvelope}
    (h : encryptPiiEnvelope format material client target aad payload = some encrypted) :
    (parseVaultTransitRef material target.externalKeyRef).bind (fun keyName =>
      (material.transit keyName aad encrypted.ciphertext).bind format.parse) = some payload := by
  unfold encryptPiiEnvelope at h
  obtain ⟨encoded, hencoded, h⟩ := Option.bind_eq_some_iff.mp h
  obtain ⟨keyName, hkeyName, h⟩ := Option.bind_eq_some_iff.mp h
  obtain ⟨⟨ciphertext, version⟩, hcipher, h⟩ := Option.bind_eq_some_iff.mp h
  simp only at h
  split at h
  next =>
    cases h
    simp only [hkeyName, Option.bind_some, hclient.encrypt _ _ _ _ _ hcipher]
    exact parse_encodedJson hencoded
  next => cases h

theorem sameReference_eq {custody : KeyCustody} (h : Tables.sameReference custody target = true) :
    ∃ version, custody = .vaultTransit target.externalKeyRef version := by
  cases custody with
  | legacyLocalAes => cases h
  | vaultTransit reference version =>
    have hsame : reference = target.externalKeyRef := beq_iff_eq.mp h
    exact ⟨version, by rw [hsame]⟩

/-- A resealed ciphertext holds what the envelope held. -/
theorem reseal_opens (hclient : client.Faithful material) {job : RotationJob} {source : Registry}
    {attributes : List BlindAttribute} {fresh : PlannedItem} {ciphertext : String} {version : Nat}
    {payload : Option Payload}
    (h : Tables.reseal format material client job source target attributes fresh = some (ciphertext,
      version, payload)) :
    openSealed format material (.vaultTransit target.externalKeyRef target.providerKeyVersion)
        target.keyVersion fresh.subject (.vaultTransit version) ciphertext =
      openSealed format material source.custody fresh.keyVersion fresh.subject fresh.sealing
        fresh.ciphertext := by
  unfold Tables.reseal at h
  obtain ⟨aad, haad, h⟩ := Option.bind_eq_some_iff.mp h
  rw [openSealed_transit haad]
  simp only at h
  split at h
  next hrewrap =>
    obtain ⟨⟨rewrapped, version'⟩, hcipher, h⟩ := Option.bind_eq_some_iff.mp h
    obtain ⟨rfl, rfl, _⟩ : rewrapped = ciphertext ∧ version' = version ∧ none = payload := by
      simpa using h
    simp only [Bool.and_eq_true, Bool.not_eq_true', Bool.or_eq_false_iff, bne_eq_false_iff_eq,
      Bool.not_eq_false', beq_iff_eq] at hrewrap
    obtain ⟨⟨⟨⟨_, _⟩, hreference⟩, _⟩, hsealing⟩ := hrewrap
    obtain ⟨sourceVersion, hcustody⟩ := sameReference_eq hreference
    cases hfresh : fresh.sealing with
    | legacyLocalAes nonce =>
      rw [hfresh] at hsealing
      cases hsealing
    | vaultTransit sealedVersion =>
      rw [hcustody, openSealed_transit haad]
      unfold parseVaultTransitRef
      split
      next => simp only [Option.bind_some, hclient.rewrap _ _ _ _ _ hcipher]
      next => rfl
  next =>
    obtain ⟨opened, hopened, h⟩ := Option.bind_eq_some_iff.mp h
    obtain ⟨encrypted, hencrypted, h⟩ := Option.bind_eq_some_iff.mp h
    obtain ⟨rfl, rfl, _⟩ : encrypted.ciphertext = ciphertext ∧
        encrypted.providerKeyVersion = version ∧ some opened = payload := by
      simpa using h
    rw [encryptPiiEnvelope_opens hclient hencrypted, decryptForRotation_opens hclient hopened]

end Faithful

/-! ### Envelopes and their keys -/

/-- Every envelope has its key, and a subject has one active envelope at most. -/
structure Custodied (db : Tables) : Prop where
  envelopeIds : (db.envelopes.map Envelope.id).Nodup
  registryIds : (db.registries.map Registry.id).Nodup
  oneActive : ((db.envelopes.filter Envelope.active).map Envelope.subject).Nodup
  sealed : ∀ e ∈ db.envelopes, ∃ key ∈ db.registries, key.id = e.keyRegistryId ∧
    key.keyVersion = e.keyVersion ∧ e.sealing.fits key.custody = true

variable {db db' : Tables} {e : Envelope} {a : Label Payload}

theorem opens_of_key (hcustodied : Custodied db) {key : Registry} (hkey : key ∈ db.registries)
    (hid : key.id = e.keyRegistryId) :
    db.opens format material e =
      openSealed format material key.custody e.keyVersion e.subject e.sealing e.ciphertext := by
  have hfound : lookup Registry.id e.keyRegistryId db.registries = some key :=
    (lookup_eq_some_iff hcustodied.registryIds).mpr ⟨hkey, hid⟩
  unfold Tables.opens
  rw [hfound]
  rfl

/-- The status of a key has no part in what it opens. -/
theorem opens_of_keysKept (hcustodied : Custodied db) (hcustodied' : Custodied db')
    (hkept : KeysKept db.registries db'.registries) (he : e ∈ db.envelopes) :
    db'.opens format material e = db.opens format material e := by
  obtain ⟨key, hkey, hid, _, _⟩ := hcustodied.sealed e he
  obtain ⟨key', hkey', hid', _, hcustody⟩ := hkept.kept key hkey
  rw [opens_of_key hcustodied hkey hid, opens_of_key hcustodied' hkey' (hid'.trans hid), hcustody]

/-- The only active envelope of a subject. -/
theorem payloads_of_active (hcustodied : Custodied db) (he : e ∈ db.envelopes)
    (hactive : e.active = true) :
    db.payloads format material e.subject = [db.opens format material e] := by
  have hmem : e ∈ db.envelopes.filter Envelope.active := mem_filter.mpr ⟨he, hactive⟩
  have hfilter : (db.envelopes.filter fun other => other.active && other.subject == e.subject) =
      (db.envelopes.filter Envelope.active).filter fun other => other.subject == e.subject := by
    rw [filter_filter]
    apply filter_congr
    intro other _
    exact Bool.and_comm _ _
  unfold Tables.payloads
  rw [hfilter, filter_of_key hcustodied.oneActive hmem]
  rfl

theorem enforcePiiEnvelopeTenant_ok {row : Envelope} (h : db.enforcePiiEnvelopeTenant row = true) :
    ∃ key ∈ db.registries,
      key.id = row.keyRegistryId ∧ key.keyVersion = row.keyVersion ∧
      row.sealing.fits key.custody = true := by
  unfold Tables.enforcePiiEnvelopeTenant at h
  obtain ⟨key, hkey, hchecks⟩ := (Option.any_eq_true _ _).mp h
  simp only [Bool.and_eq_true, beq_iff_eq] at hchecks
  have hid : key.id = row.keyRegistryId := by simpa using find?_some hkey
  exact ⟨key, mem_of_find?_eq_some hkey, hid, hchecks.1.1.2, hchecks.1.2⟩

/-- Envelopes that are retired leave the others alone. -/
theorem active_retireEnvelope {db : Tables} {now id : Nat} {e : Envelope} :
    e ∈ (db.retireEnvelope now id).envelopes ∧ e.active = true ↔
      e ∈ db.envelopes ∧ e.active = true ∧ e.id ≠ id := by
  constructor
  · rintro ⟨he, hactive⟩
    rcases mem_updateWhere.mp he with ⟨old, _, _, rfl⟩ | ⟨he, hnot⟩
    · cases hactive
    · refine ⟨he, hactive, ?_⟩
      intro hid
      simp [hid, hactive] at hnot
  · rintro ⟨he, hactive, hid⟩
    exact ⟨mem_updateWhere_of_not he (by simp [hid]), hactive⟩

theorem filter_retireEnvelope {db : Tables} {now id : Nat} :
    (db.retireEnvelope now id).envelopes.filter Envelope.active =
      (db.envelopes.filter Envelope.active).filter fun e => e.id != id := by
  unfold Tables.retireEnvelope updateWhere
  simp only
  induction db.envelopes with
  | nil => rfl
  | cons e rest ih =>
    rw [map_cons, filter_cons, ih, filter_cons]
    cases hactive : e.active with
    | false => simp [hactive]
    | true =>
      by_cases hid : e.id = id
      · simp [hid, Envelope.active]
      · simp [hid, hactive]

theorem custodied_of_write (hcustodied : Custodied db) (h : Write format material a db db') :
    Custodied db' := by
  have hids := h.envelopeIds hcustodied.envelopeIds
  have hsame (henvelopes : db'.envelopes = db.envelopes)
      (hregistries : db'.registries = db.registries) : Custodied db' := by
    refine ⟨hids, ?_, ?_, ?_⟩
    · exact hregistries ▸ hcustodied.registryIds
    · exact henvelopes ▸ hcustodied.oneActive
    · rw [henvelopes, hregistries]
      exact hcustodied.sealed
  cases h with
  | jobs h =>
    obtain ⟨_, _, hframe⟩ := h
    exact hsame (by rw [hframe]) (by rw [hframe])
  | keys h =>
    obtain ⟨hkept, rows, hframe⟩ := h
    have henvelopes : db'.envelopes = db.envelopes := by rw [hframe]
    refine ⟨hids, hkept.ids hcustodied.registryIds, henvelopes ▸ hcustodied.oneActive, ?_⟩
    intro e he
    obtain ⟨key, hkey, hid, hversion, hfits⟩ := hcustodied.sealed e (henvelopes ▸ he)
    obtain ⟨key', hkey', hid', hversion', hcustody⟩ := hkept.kept key hkey
    exact ⟨key', hkey', hid'.trans hid, hversion'.trans hversion, hcustody.symm ▸ hfits⟩
  | created job queue hbatch h => exact hsame (by rw [h]) (by rw [h])
  | inserted row hactive h =>
    obtain ⟨hkey, _, hfree, rfl⟩ := writeEnvelope_ok h
    refine ⟨hids, hcustodied.registryIds, ?_, ?_⟩
    · rw [filter_append, map_append, filter_singleton, hactive]
      apply nodup_append_fresh hcustodied.oneActive
      intro hmem
      obtain ⟨e, he, hsubject⟩ := mem_map.mp hmem
      obtain ⟨he, hactive⟩ := mem_filter.mp he
      exact hfree e he hactive hsubject
    · intro e he
      rcases mem_concat.mp he with he | rfl
      · exact hcustodied.sealed e he
      · exact enforcePiiEnvelopeTenant_ok hkey
  | materialized job firstId expected hjob h =>
    obtain ⟨_, rfl⟩ := materializeItems_eq h
    exact hsame rfl rfl
  | skipped id h =>
    subst h
    exact hsame rfl rfl
  | rotated process client now newId job fresh i e ha hi he hplans hfresh h =>
    obtain ⟨source, target, ciphertext, version, hrotates⟩ := rotateFresh_ok h
    have hregistries : db'.registries = db.registries := by
      obtain ⟨_, rfl⟩ := hrotates.done
      rfl
    refine ⟨hids, hregistries ▸ hcustodied.registryIds, ?_, ?_⟩
    · rw [hrotates.envelopes, filter_append, map_append, filter_retireEnvelope]
      have hactive : (rotatedEnvelope newId fresh target ciphertext version).active = true := rfl
      rw [filter_singleton, hactive]
      refine nodup_append_fresh (hcustodied.oneActive.sublist (filter_sublist.map _)) ?_
      intro hmem
      obtain ⟨other, hother, hsubject⟩ := mem_map.mp hmem
      rw [← @filter_retireEnvelope db now] at hother
      obtain ⟨hother, hactive⟩ := mem_filter.mp hother
      exact hrotates.free other hother hactive hsubject
    · intro other hother
      rw [hrotates.envelopes] at hother
      rw [hregistries]
      rcases mem_concat.mp hother with hother | rfl
      · obtain ⟨old, hold, hcontent⟩ := (retiredContent db).exists_before hother
        obtain ⟨key, hkey, hid, hversion, hfits⟩ := hcustodied.sealed old hold
        refine ⟨key, hkey, hid.trans ?_, hversion.trans ?_, ?_⟩
        · exact (congrArg Envelope.keyRegistryId hcontent).symm
        · exact (congrArg Envelope.keyVersion hcontent).symm
        · have hsealing := congrArg Envelope.sealing hcontent
          have hsame : other.sealing = old.sealing := hsealing
          exact hsame ▸ hfits
      · exact enforcePiiEnvelopeTenant_ok hrotates.registered

/-! ### The successor of an envelope -/

theorem keys_of_write (h : Write format material a db db') :
    KeysKept db.registries db'.registries := by
  cases h with
  | jobs h =>
    obtain ⟨_, _, hframe⟩ := h
    rw [hframe]
    exact KeysKept.refl _
  | keys h => exact h.registries
  | created job queue hbatch h =>
    rw [h]
    exact KeysKept.refl _
  | inserted row hactive h =>
    obtain ⟨_, _, _, rfl⟩ := writeEnvelope_ok h
    exact KeysKept.refl _
  | materialized job firstId expected hjob h =>
    obtain ⟨_, rfl⟩ := materializeItems_eq h
    exact KeysKept.refl _
  | skipped id h =>
    subst h
    exact KeysKept.refl _
  | rotated process client now newId job fresh i e ha hi he hplans hfresh h =>
    obtain ⟨_, _, _, _, hrotates⟩ := rotateFresh_ok h
    obtain ⟨_, rfl⟩ := hrotates.done
    exact KeysKept.refl _

/-- The successor holds what the envelope held. -/
theorem Rotates.opens {client : CryptoClient} {now newId : Nat} {job : RotationJob}
    {source : Registry} {target : TransitRegistry} {ciphertext : String} {version : Nat} {i : Item}
    (hclient : client.Faithful material) (hcustodied : Custodied db) (hcustodied' : Custodied db')
    (hplans : Plans job i e)
    (h : Rotates format material client now newId job (plannedItem i e) db db' source target
      ciphertext version) :
    db'.opens format material (rotatedEnvelope newId (plannedItem i e) target ciphertext version) =
      db.opens format material e := by
  obtain ⟨payload, hresealed⟩ := h.resealed
  have hregistries : db'.registries = db.registries := by
    obtain ⟨_, rfl⟩ := h.done
    rfl
  -- The key that the job names as its source is the key of the envelope.
  have hsource : source ∈ db.registries ∧ source.id = e.keyRegistryId := by
    have hfound := h.sourceFound
    unfold Tables.sourceRegistry at hfound
    obtain ⟨row, hrow, hfound⟩ := Option.bind_eq_some_iff.mp hfound
    have hid : row.id = job.sourceEncryptionKeyRegistryId := by simpa using find?_some hrow
    split at hfound
    next =>
      cases hfound
      exact ⟨mem_of_find?_eq_some hrow, hid.trans hplans.source.symm⟩
    next => cases hfound
  obtain ⟨row, hrow, hrowId, hrowCustody⟩ : ∃ row ∈ db.registries, row.id = target.id ∧
      row.custody = .vaultTransit target.externalKeyRef target.providerKeyVersion := by
    have hfound := h.targetFound
    unfold Tables.tenantRegistryById at hfound
    obtain ⟨row, hrow, hfound⟩ := Option.bind_eq_some_iff.mp hfound
    obtain ⟨registry, hregistry, hfound⟩ := Option.bind_eq_some_iff.mp hfound
    split at hfound
    next =>
      cases hfound
      refine ⟨row, mem_of_find?_eq_some hrow, ?_⟩
      unfold rowToRegistry at hregistry
      split at hregistry
      next reference providerKeyVersion hcustody =>
        split at hregistry
        next => cases hregistry
        next =>
          cases hregistry
          exact ⟨rfl, hcustody⟩
      next => cases hregistry
    next => cases hfound
  rw [opens_of_key hcustodied' (hregistries ▸ hrow) hrowId, hrowCustody,
    opens_of_key hcustodied hsource.1 hsource.2]
  have hsubject : (plannedItem i e).subject = e.subject := hplans.subject
  refine (reseal_opens hclient hresealed).trans ?_
  rw [hsubject]
  rfl

/-- What an active envelope holds, the active envelope of its subject holds after
any write. -/
theorem payloads_of_write (hcustodied : Custodied db) (h : Write format material a db db')
    (hfaithful : a.Faithful material) (he : e ∈ db.envelopes) (hactive : e.active = true) :
    ∃ e' ∈ db'.envelopes, e'.active = true ∧ e'.subject = e.subject ∧
      db'.opens format material e' = db.opens format material e := by
  have hcustodied' := custodied_of_write hcustodied h
  have hsame : db'.opens format material e = db.opens format material e :=
    opens_of_keysKept hcustodied hcustodied' (keys_of_write h) he
  have hstays (he' : e ∈ db'.envelopes) : ∃ e' ∈ db'.envelopes, e'.active = true ∧
      e'.subject = e.subject ∧ db'.opens format material e' = db.opens format material e :=
    ⟨e, he', hactive, rfl, hsame⟩
  cases h with
  | jobs h | keys h =>
    obtain ⟨_, _, hframe⟩ := h
    exact hstays (by rw [hframe]; exact he)
  | created job queue hbatch h => exact hstays (by rw [h]; exact he)
  | inserted row _ h =>
    obtain ⟨_, _, _, rfl⟩ := writeEnvelope_ok h
    exact hstays (mem_append_left _ he)
  | materialized job firstId expected hjob h => exact hstays ((materializeItems_ok h).2.1 ▸ he)
  | skipped id h =>
    subst h
    exact hstays he
  | rotated process client now newId job fresh i e₀ ha hi he₀ hplans hfresh h =>
    have hclient : client.Faithful material := by
      rw [ha] at hfaithful
      exact hfaithful
    obtain ⟨source, target, ciphertext, version, hrotates⟩ := rotateFresh_ok h
    subst hfresh
    have hid : (plannedItem i e₀).envelopeId = e₀.id := hplans.envelopeId
    by_cases hsubject : e.subject = e₀.subject
    · -- The envelope of the item is the active one; its successor takes its place.
      have hgone : e.id = e₀.id := by
        by_contra hother
        have hleft := (@active_retireEnvelope db now _ e).mpr ⟨he, hactive, hid.symm ▸ hother⟩
        exact hrotates.free e hleft.1 hactive (hsubject.trans hplans.subject.symm)
      obtain rfl := inj_on_of_nodup_map hcustodied.envelopeIds he he₀ hgone
      refine ⟨rotatedEnvelope newId (plannedItem i e) target ciphertext version, ?_, rfl,
        hplans.subject, ?_⟩
      · rw [hrotates.envelopes]
        exact mem_concat_self
      · exact hrotates.opens hclient hcustodied hcustodied' hplans
    · have hother : e.id ≠ e₀.id := by
        intro hsameId
        exact hsubject (congrArg Envelope.subject
          (inj_on_of_nodup_map hcustodied.envelopeIds he he₀ hsameId))
      have hleft := (@active_retireEnvelope db now _ e).mpr ⟨he, hactive, hid.symm ▸ hother⟩
      refine hstays ?_
      rw [hrotates.envelopes]
      exact mem_append_left _ hleft.1

/-! ### Runs -/

theorem custodied_start (c : Custody) : Custodied c.start.tables where
  envelopeIds := c.envelopeIds
  registryIds := c.registryIds
  oneActive := c.oneActive
  sealed := c.registered

/-- Every subject with an active envelope keeps exactly one, with the same payload,
in every state that a run reaches. -/
theorem payload_kept (format : PayloadFormat Payload) (material : KeyMaterial) (c : Custody)
    (before after : List (Label Payload)) {s : System} {subject : Subject}
    (hrun : run (fun s a => s.step format material a) c.start before = some s)
    (hactive : ∃ e ∈ s.tables.envelopes, e.active = true ∧ e.subject = subject)
    (hfaithful : ∀ a ∈ after, a.Faithful material) :
    ∃ payload, Always (fun s a => s.step format material a)
      (fun t => t.tables.payloads format material subject = [payload]) s after := by
  obtain ⟨e, he, hactive, rfl⟩ := hactive
  refine ⟨s.tables.opens format material e, ?_⟩
  have hinv := run_invariant (I := fun s => Captured s ∧ Custodied s.tables) ?_
    ⟨captured_start c, custodied_start c⟩ hrun
  · have hmeets : Meets (fun s a => s.step format material a) (fun _ a => a.Faithful material) s
        after := Meets.of_forall fun a ha _ => hfaithful a ha
    have halways := always_of_meets (I := fun t => (Captured t ∧ Custodied t.tables) ∧
      ∃ e' ∈ t.tables.envelopes, e'.active = true ∧ e'.subject = e.subject ∧
        t.tables.opens format material e' = s.tables.opens format material e) ?_
      ⟨hinv, e, he, hactive, rfl, rfl⟩ hmeets
    · apply halways.mono
      rintro t ⟨⟨_, hcustodied⟩, e', he', hactive', hsubject, hopens⟩
      rw [← hsubject, payloads_of_active hcustodied he' hactive', hopens]
    · rintro t a t' ⟨⟨hcaptured, hcustodied⟩, e', he', hactive', hsubject, hopens⟩ hclient h
      have hwrite := write_of_step hcaptured h
      obtain ⟨e'', he'', hactive'', hsubject', hopens'⟩ :=
        payloads_of_write hcustodied hwrite hclient he' hactive'
      exact ⟨⟨captured_of_step hcaptured h, custodied_of_write hcustodied hwrite⟩, e'', he'',
        hactive'', hsubject'.trans hsubject, hopens'.trans hopens⟩
  · rintro t a t' ⟨hcaptured, hcustodied⟩ h
    exact ⟨captured_of_step hcaptured h, custodied_of_write hcustodied (write_of_step hcaptured h)⟩

/-! A candidate's envelope is rewrapped from the first version of a Transit key to
the second. -/

def candidate : Subject := ⟨1, .candidateProfile, 3, .identity⟩

def openedByKey : KeyMaterial where
  mount := "transit"
  transit keyName context ciphertext :=
    if keyName = "pii" ∧ context = "bis-pii-envelope:v2|1|candidate_profile|3|identity" ∧
        (ciphertext = "vault:v1:a" ∨ ciphertext = "vault:v2:b") then some "payload" else none
  legacy _ _ _ _ := none

def rewrapClient : CryptoClient where
  encrypt _ _ _ := none
  decrypt _ _ _ := none
  rewrap keyName context ciphertext :=
    if keyName = "pii" ∧ context = "bis-pii-envelope:v2|1|candidate_profile|3|identity" ∧
      ciphertext = "vault:v1:a" then some ("vault:v2:b", 2) else none
  hmac _ _ _ := none
  legacyDecrypt _ _ _ _ := none

theorem rewrapClient_faithful : rewrapClient.Faithful openedByKey where
  encrypt _ _ _ _ _ h := by cases h
  decrypt _ _ _ _ h := by cases h
  legacyDecrypt _ _ _ _ _ h := by cases h
  rewrap keyName context ciphertext rewrapped version h := by
    unfold rewrapClient at h
    simp only at h
    split at h
    next hknown =>
      obtain ⟨hkey, hcontext, hciphertext⟩ := hknown
      cases h
      simp [openedByKey, hkey, hcontext, hciphertext]
    next => cases h

def sealedOnce : Custody where
  registries := [transitKey 1 "v1" 1 .retiring, transitKey 2 "v2" 2 .active]
  blindRegistries := []
  envelopes := [⟨5, candidate, "vault:v1:a", .vaultTransit 1, 1, "v1", none⟩]
  blindIndexes := []
  registryIds := twoKeys_nodup
  envelopeIds := by decide
  oneActive := by decide
  registered := by decide

def rewrapItem : List (Label String) :=
  callUpToLoop 1 0 1 ++
    [.act 1 .nextItems, .act 1 .commitItems, .act 1 .beginItem, .act 1 (.rotate 1 6 rewrapClient)]

theorem candidate_payload_kept :
    ∃ s, run (fun s a => s.step plainText openedByKey a) sealedOnce.start
        [.createRotationJob 0 rewrapJob] = some s ∧
      ∃ payload, Always (fun s a => s.step plainText openedByKey a)
        (fun t => t.tables.payloads plainText openedByKey candidate = [payload]) s rewrapItem := by
  obtain ⟨s, hrun, hactive⟩ : ∃ s, run (fun s a => s.step plainText openedByKey a) sealedOnce.start
      [.createRotationJob 0 rewrapJob] = some s ∧
        ∃ e ∈ s.tables.envelopes, e.active = true ∧ e.subject = candidate :=
    ⟨_, rfl, by decide⟩
  refine ⟨s, hrun, payload_kept plainText openedByKey sealedOnce [.createRotationJob 0 rewrapJob]
    rewrapItem hrun hactive ?_⟩
  intro a ha
  simp only [rewrapItem, callUpToLoop, cons_append, nil_append, mem_cons,
    not_mem_nil, or_false] at ha
  rcases ha with rfl | rfl | rfl | rfl | rfl | rfl | rfl | rfl
  all_goals first
    | exact rewrapClient_faithful
    | trivial

end Bis.Rotation
