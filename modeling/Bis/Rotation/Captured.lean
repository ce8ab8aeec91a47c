import Bis.Rotation.Attempts

/-!
What a call of the worker has read stays true. A job, an item and the content of
an envelope are never changed once they are written; only their states are. So
the items that a call carries from one transaction to the next still are what the
tables say of them.
-/

namespace Bis.Rotation

open Bis.Relation Bis.Transition List Option

variable {Payload : Type} {format : PayloadFormat Payload} {material : KeyMaterial}

/-! ### What is never changed -/

/-- An item without its state. -/
def Item.plan (i : Item) : Item := { i with state := .planned, errorCode := none }

/-- An envelope, retired or not. -/
def Envelope.content (e : Envelope) : Envelope := { e with retiredAt := none }

variable {i i' : Item} {e e' : Envelope} {db db' : Tables} {now id : Nat} {s t : System}
  {a : Label Payload}

theorem plannedItem_congr (hplan : i'.plan = i.plan) (hcontent : e'.content = e.content) :
    plannedItem i' e' = plannedItem i e := by
  have h : plannedItem i'.plan e'.content = plannedItem i.plan e.content := by
    rw [hplan, hcontent]
  exact h

theorem id_of_plan (h : i'.plan = i.plan) : i'.id = i.id := by
  have hid := congrArg Item.id h
  exact hid

theorem id_of_content (h : e'.content = e.content) : e'.id = e.id := by
  have hid := congrArg Envelope.id h
  exact hid

/-- Every row is still there. -/
structure Kept (db db' : Tables) : Prop where
  jobs : ∀ row ∈ db.jobs, ∃ row' ∈ db'.jobs, row'.toRotationJob = row.toRotationJob
  items : ∀ i ∈ db.items, ∃ i' ∈ db'.items, i'.plan = i.plan
  envelopes : ∀ e ∈ db.envelopes, ∃ e' ∈ db'.envelopes, e'.content = e.content

/-- An item of a job with its envelope. -/
structure Plans (job : RotationJob) (i : Item) (e : Envelope) : Prop where
  jobId : i.rotationJobId = job.id
  envelopeId : i.envelopeId = e.id
  subject : i.subject = e.subject
  source : e.keyRegistryId = job.sourceEncryptionKeyRegistryId
  tenant : e.subject.tenantId = job.tenantId

theorem Plans.congr {job : RotationJob} (h : Plans job i e) (hplan : i'.plan = i.plan)
    (hcontent : e'.content = e.content) : Plans job i' e' where
  jobId := (congrArg Item.rotationJobId hplan).trans h.jobId
  envelopeId := (congrArg Item.envelopeId hplan).trans
    (h.envelopeId.trans (congrArg Envelope.id hcontent).symm)
  subject := (congrArg Item.subject hplan).trans
    (h.subject.trans (congrArg Envelope.subject hcontent).symm)
  source := (congrArg Envelope.keyRegistryId hcontent).trans h.source
  tenant := (congrArg (fun e => e.subject.tenantId) hcontent).trans h.tenant

/-- Only jobs and the queue are written. -/
structure JobWrite (db db' : Tables) : Prop where
  jobs : Revised (fun row row' => row'.toRotationJob = row.toRotationJob) db.jobs db'.jobs
  frame : ∃ dispatch, db' = { db with jobs := db'.jobs, dispatch }

theorem JobWrite.refl (db : Tables) : JobWrite db db :=
  ⟨revised_refl fun _ _ => rfl, db.dispatch, rfl⟩

theorem JobWrite.trans {db'' : Tables} (h : JobWrite db db') (h' : JobWrite db' db'') :
    JobWrite db db'' := by
  obtain ⟨hjobs, queue, hframe⟩ := h
  obtain ⟨hjobs', queue', hframe'⟩ := h'
  refine ⟨?_, queue', ?_⟩
  · exact Revised.trans (R := fun row row' => row'.toRotationJob = row.toRotationJob)
      (S := fun row row' => row'.toRotationJob = row.toRotationJob)
      (fun _ _ _ hfirst hsecond => hsecond.trans hfirst) hjobs hjobs'
  · rw [hframe] at hframe'
    exact hframe'

variable {f : JobRow → JobRow} {locked : Nat → Nat → Bool}

theorem sameJobs_updateWhere {p : JobRow → Bool}
    (hf : ∀ row, (f row).toRotationJob = row.toRotationJob) (jobs : List JobRow) :
    Revised (fun row row' => row'.toRotationJob = row.toRotationJob) jobs
      (updateWhere p f jobs) :=
  revised_updateWhere (fun row _ _ => hf row) fun _ _ _ => rfl

theorem jobWrite_updateJob {p : JobRow → Bool}
    (hf : ∀ row, (f row).toRotationJob = row.toRotationJob) (h : db.updateJob now id p f = .ok
    db') : JobWrite db db' := by
  rcases updateJob_ok h with rfl | ⟨_, _, _, _, _, queue, _, rfl⟩
  · exact JobWrite.refl _
  · exact ⟨sameJobs_updateWhere hf _, queue, rfl⟩

theorem jobWrite_dispatch {queue : List Dispatch} (h : db' = { db with dispatch := queue }) :
    JobWrite db db' := by
  subst h
  exact ⟨revised_refl fun _ _ => rfl, queue, rfl⟩

/-- A job that is handed over is one of the table. -/
theorem jobWrite_handOver {d : DispatchRecord} {leased : Option RotationJob}
    (h : db.handOver now d = .ok (db', leased)) :
    JobWrite db db' ∧
      ∀ job, leased = some job → ∃ row ∈ db'.jobs, row.toRotationJob = job := by
  unfold Tables.handOver at h
  obtain ⟨requeued, hrequeued, h⟩ := except_bind_ok h
  have hfirst := jobWrite_updateJob (fun row => (rfl : row.requeue.toRotationJob = _)) hrequeued
  split at h
  next =>
    obtain ⟨rfl, rfl⟩ := Prod.mk.inj (Except.ok.inj h)
    exact ⟨hfirst, fun job hjob => by cases hjob⟩
  next row hrow =>
    obtain ⟨done, hdone, h⟩ := except_bind_ok h
    obtain ⟨rfl, rfl⟩ := Prod.mk.inj (Except.ok.inj h)
    have hsecond := jobWrite_updateJob
      (fun row => (rfl : (row.lease now).toRotationJob = _)) hdone
    refine ⟨hfirst.trans hsecond, ?_⟩
    intro job hjob
    cases hjob
    exact hsecond.jobs.exists_after (mem_of_find?_eq_some hrow)

theorem JobWrite.kept (h : JobWrite db db') : Kept db db' := by
  obtain ⟨hjobs, queue, hframe⟩ := h
  refine ⟨fun row hrow => hjobs.exists_after hrow, ?_, ?_⟩
  · intro i hi
    exact ⟨i, hframe ▸ hi, rfl⟩
  · intro e he
    exact ⟨e, hframe ▸ he, rfl⟩

/-! ### The writes of a step -/

section Writes

variable (format material)

/-- What a step writes of jobs, items and envelopes. A call that plans or rotates
works on a job of the table, and what it rotates is an item of the job. -/
inductive Write (a : Label Payload) (db db' : Tables) : Prop
  | jobs (h : JobWrite db db')
  | keys (h : KeyWrite db db')
  | created (job : RotationJob) (queue : List Dispatch) (hbatch : 0 < job.maxBatchSize)
      (h : db' = { db with jobs := db.jobs ++ [job.created], dispatch := queue })
  | inserted (row : Envelope) (hactive : row.active = true) (h : db.writeEnvelope row = some db')
  | materialized (job : RotationJob) (firstId expected : Nat)
      (hjob : ∃ row ∈ db.jobs, row.toRotationJob = job)
      (h : db.materializeItems job firstId = some (db', expected))
  | skipped (id : Nat) (h : db' = db.skipItem id)
  | rotated (process : Nat) (client : CryptoClient) (now newId : Nat) (job : RotationJob)
      (fresh : PlannedItem) (i : Item) (e : Envelope) (ha : a = .act process (.rotate now newId client))
      (hi : i ∈ db.items) (he : e ∈ db.envelopes) (hplans : Plans job i e)
      (hfresh : fresh = plannedItem i e)
      (h : db.rotateFresh format material client now newId job fresh = some db')

end Writes

/-- The job that a call works on. -/
def Stage.job : Stage → Option RotationJob
  | .leased job | .planned job _ | .looping job _ _ | .claiming job _ _ | .rotating job _ _ _ _
  | .failing job _ | .finishing job _ _ => some job
  | .claimed _ | .restoring _ | .exhausted _ | .recorded _ | .returned => none

/-- The items that it has read and goes on to use. -/
def Stage.read : Stage → List PlannedItem
  | .looping _ _ batch | .claiming _ _ batch => batch
  | .rotating _ _ item fresh rest => item :: (fresh.toList ++ rest)
  | _ => []

/-- The calls and the tables agree. -/
structure Captured (s : System) : Prop extends Registered s where
  processIds : (s.fleet.map Process.id).Nodup
  itemIds : (s.tables.items.map Item.id).Nodup
  envelopeIds : (s.tables.envelopes.map Envelope.id).Nodup
  batches : ∀ row ∈ s.tables.jobs, 0 < row.maxBatchSize
  planned : ∀ i ∈ s.tables.items, ∃ row ∈ s.tables.jobs, ∃ e ∈ s.tables.envelopes,
    Plans row.toRotationJob i e
  jobRead : ∀ w ∈ s.fleet, ∀ job, w.stage.job = some job →
    ∃ row ∈ s.tables.jobs, row.toRotationJob = job
  itemRead : ∀ w ∈ s.fleet, ∀ job, w.stage.job = some job → ∀ p ∈ w.stage.read,
    ∃ i ∈ s.tables.items, ∃ e ∈ s.tables.envelopes, Plans job i e ∧ p = plannedItem i e

/-- The items of a job are planned for it. -/
theorem Captured.plans (h : Captured s) {job : RotationJob} {row : JobRow}
    (hrow : row ∈ s.tables.jobs) (hjob : row.toRotationJob = job) (hi : i ∈ s.tables.items)
    (hid : i.rotationJobId = job.id) (he : e ∈ s.tables.envelopes) (henvelope : e.id =
    i.envelopeId) : Plans job i e := by
  obtain ⟨row', hrow', e', he', hplans⟩ := h.planned i hi
  have hsame : row'.id = row.id := by
    rw [← hplans.jobId, hid, ← hjob]
  obtain rfl := inj_on_of_nodup_map h.jobIds hrow' hrow hsame
  obtain rfl := inj_on_of_nodup_map h.envelopeIds he' he
    (hplans.envelopeId.symm.trans henvelope.symm)
  exact hjob ▸ hplans

/-! ### What the transactions read -/

theorem mem_nextItems {job : RotationJob} {locked : Item → Bool} {p : PlannedItem}
    (h : p ∈ db.nextItems job locked) : ∃ i ∈ db.items, i.rotationJobId = job.id ∧
      i.state = .planned ∧ locked i = false ∧
      ∃ e ∈ db.envelopes, e.id = i.envelopeId ∧ p = plannedItem i e := by
  obtain ⟨i, hi, hread⟩ := mem_filterMap.mp h
  obtain ⟨hi, hselected⟩ := mem_filter.mp (mem_firstBy hi)
  obtain ⟨e, he, rfl⟩ := map_eq_some_iff.mp hread
  simp only [Tables.pending, Bool.and_eq_true, beq_iff_eq, Bool.not_eq_true'] at hselected
  have hid : e.id = i.envelopeId := by simpa using find?_some he
  exact ⟨i, hi, hselected.1.1.1, hselected.1.1.2, hselected.2, e, mem_of_find?_eq_some he, hid,
    rfl⟩

theorem freshItem_ok {job : RotationJob} {p : PlannedItem} (h : db.freshItem job id = some (i, p)) :
    i ∈ db.items ∧ i.id = id ∧
      i.rotationJobId = job.id ∧ i.state = .planned ∧
      ∃ e ∈ db.envelopes, e.id = i.envelopeId ∧ p = plannedItem i e := by
  unfold Tables.freshItem at h
  obtain ⟨i', hi, h⟩ := bind_eq_some_iff.mp h
  obtain ⟨e, he, h⟩ := bind_eq_some_iff.mp h
  obtain ⟨rfl, rfl⟩ := Prod.mk.inj (some.inj h)
  have hfound := find?_some hi
  simp only [Bool.and_eq_true, beq_iff_eq] at hfound
  have hid : e.id = i'.envelopeId := by simpa using find?_some he
  exact ⟨mem_of_find?_eq_some hi, hfound.1, hfound.2.1, hfound.2.2, e,
    mem_of_find?_eq_some he, hid, rfl⟩

/-- After a turn a call still works on its job, and it has read nothing but items
of it. -/
theorem read_of_turn {stage stage' : Stage} {action : Action}
    (h : Turn format material locked db stage action db' stage') {job : RotationJob}
    (hjob : stage'.job = some job) :
    (stage.job = some job ∨ ∃ row ∈ db'.jobs, row.toRotationJob = job) ∧
      ∀ p ∈ stage'.read, (stage.job = some job ∧ p ∈ stage.read) ∨
        (stage.job = some job ∧ ∃ i ∈ db.items, i.rotationJobId = job.id ∧
          ∃ e ∈ db.envelopes, e.id = i.envelopeId ∧ p = plannedItem i e) := by
  have hnone {stage' : Stage} (hread : stage'.read = []) {P : PlannedItem → Prop} :
      ∀ p ∈ stage'.read, P p := by
    rw [hread]
    exact fun p hp => absurd hp not_mem_nil
  cases h with
  | handOver h =>
    cases hjob
    exact ⟨.inr ((jobWrite_handOver h).2 _ rfl), hnone rfl⟩
  | terminalize | deadLetter | nothingToLease | handOverRefused | handOverFails | restore
  | markFailed | finish | crash => cases hjob
  | materialize | planFails | itemFails => exact ⟨.inl hjob, hnone rfl⟩
  | @proceed job' expected confirmed =>
    have hafter : (Stage.afterPlan job' expected confirmed).job = some job' ∧
        (Stage.afterPlan job' expected confirmed).read = [] := by
      unfold Stage.afterPlan
      split
      · exact ⟨rfl, rfl⟩
      · split <;> exact ⟨rfl, rfl⟩
    rw [hafter.1] at hjob
    exact ⟨.inl hjob, hnone hafter.2⟩
  | @nextItems job' expected =>
    generalize hbatch : db.nextItems job' (fun item => locked item.id item.envelopeId) = batch
      at hjob ⊢
    have hsame : (Stage.looping job' expected []).job = some job := by
      cases batch <;> exact hjob
    refine ⟨.inl hsame, ?_⟩
    intro p hp
    have hmem : p ∈ db.nextItems job' fun item => locked item.id item.envelopeId := by
      cases batch with
      | nil => cases hp
      | cons => exact hbatch ▸ hp
    obtain ⟨i, hi, hid, _, _, hread⟩ := mem_nextItems hmem
    cases hsame
    exact .inr ⟨rfl, i, hi, hid, hread⟩
  | commitItems | rotate | skip =>
    refine ⟨.inl hjob, fun p hp => .inl ⟨hjob, ?_⟩⟩
    simp_all [Stage.read]
  | itemGone =>
    refine ⟨.inl hjob, fun p hp => .inl ⟨hjob, ?_⟩⟩
    simpa [Stage.read] using hp
  | beginItem h hfree =>
    refine ⟨.inl hjob, ?_⟩
    intro p hp
    simp only [Stage.read, toList_some, singleton_append, mem_cons] at hp
    rcases hp with rfl | rfl | hp
    · exact .inl ⟨hjob, mem_cons_self⟩
    · obtain ⟨hi, _, hid, _, hread⟩ := freshItem_ok h
      cases hjob
      exact .inr ⟨rfl, _, hi, hid, hread⟩
    · exact .inl ⟨hjob, mem_cons_of_mem _ hp⟩

theorem write_of_turn {stage stage' : Stage} {process : Nat} {action : Action}
    (h : Turn format material locked db stage action db' stage')
    (hjob : ∀ job, stage.job = some job → ∃ row ∈ db.jobs, row.toRotationJob = job)
    (hread : ∀ job, stage.job = some job → ∀ p ∈ stage.read, ∃ i ∈ db.items, ∃ e ∈ db.envelopes,
      Plans job i e ∧ p = plannedItem i e) :
    Write format material (.act process action) db db' := by
  cases h with
  | terminalize h =>
    apply Write.jobs
    apply jobWrite_updateJob _ h
    exact fun _ => rfl
  | deadLetter h =>
    obtain ⟨queue, _, h⟩ := except_bind_ok h
    exact .jobs (jobWrite_dispatch (Except.ok.inj h).symm)
  | handOver h | nothingToLease h => exact .jobs (jobWrite_handOver h).1
  | restore h =>
    obtain ⟨queue, _, h⟩ := except_bind_ok h
    exact .jobs (jobWrite_dispatch (Except.ok.inj h).symm)
  | materialize h => exact .materialized _ _ _ (hjob _ rfl) h
  | skip => exact .skipped _ rfl
  | rotate h =>
    obtain ⟨i, hi, e, he, hplans, hfresh⟩ := hread _ rfl _
      (mem_cons_of_mem _ (mem_append_left _ (mem_singleton.mpr rfl)))
    exact .rotated process _ _ _ _ _ i e rfl hi he hplans hfresh h
  | markFailed h =>
    apply Write.jobs
    apply jobWrite_updateJob _ h
    exact fun _ => rfl
  | finish h =>
    apply Write.jobs
    apply jobWrite_updateJob _ h
    exact fun _ => rfl
  | handOverRefused | handOverFails | planFails | proceed | nextItems | commitItems | itemGone
  | beginItem | itemFails | crash => exact .jobs (JobWrite.refl _)

theorem write_of_step (hcaptured : Captured s) (h : s.step format material a = some t) :
    Write format material a s.tables t.tables := by
  cases a with
  | registerStagedVaultKey =>
    obtain ⟨db, hdb, rfl⟩ := map_eq_some_iff.mp h
    exact .keys (registerStagedVaultKey_ok hdb)
  | activateStagedVaultKey =>
    obtain ⟨db, hdb, rfl⟩ := map_eq_some_iff.mp h
    exact .keys (activateStagedVaultKey_ok hdb)
  | reportSuspectedCompromise =>
    obtain ⟨db, hdb, rfl⟩ := map_eq_some_iff.mp h
    exact .keys (reportSuspectedCompromise_ok hdb)
  | createRotationJob now job =>
    obtain ⟨db, hdb, rfl⟩ := map_eq_some_iff.mp h
    obtain ⟨hbatch, _, hcreated⟩ := createRotationJob_ok hdb
    exact .created job _ hbatch hcreated
  | insertEnvelope =>
    obtain ⟨db, hdb, rfl⟩ := map_eq_some_iff.mp h
    rcases insertEnvelope_ok hdb with rfl | ⟨row, hactive, hrow⟩
    · exact .jobs (JobWrite.refl _)
    · exact .inserted row hactive hrow
  | leaseJob =>
    obtain ⟨_, leased, hleased, _, _⟩ := lease_ok h
    obtain ⟨queue, hafter, _, _⟩ := leaseDispatch_ok hcaptured.entryIds hleased
    exact .jobs (jobWrite_dispatch hafter)
  | act process action =>
    obtain ⟨w, stage', hw, hturn, _, _⟩ := act_ok h
    have hw := mem_of_find?_eq_some hw
    exact write_of_turn hturn (hcaptured.jobRead w hw) (hcaptured.itemRead w hw)

/-! ### What the writes keep -/

theorem materializeItems_ok {job : RotationJob} {firstId expected : Nat}
    (h : db.materializeItems job firstId = some (db', expected)) :
    (∀ i ∈ db.items, i.id < firstId) ∧ db'.envelopes = db.envelopes ∧
      db'.items = db.items ++ (db.envelopes.filter (db.unplanned job)).mapIdx
        (fun k e => Tables.plannedRow job (firstId + k) e) ∧
      Revised (fun row row' => row'.toRotationJob = row.toRotationJob) db.jobs db'.jobs := by
  obtain ⟨hfirst, rfl⟩ := materializeItems_eq h
  refine ⟨hfirst, rfl, rfl, ?_⟩
  apply sameJobs_updateWhere
  exact fun _ => rfl

theorem skippedPlan (id : Nat) (items : List Item) :
    Revised (fun i i' => i'.plan = i.plan) items
      (updateWhere (fun i => i.id == id && i.state == .planned)
        (fun i => { i with state := .skipped, errorCode := some "PII_ROTATION_SOURCE_CHANGED" })
        items) :=
  revised_updateWhere (fun _ _ _ => rfl) fun _ _ _ => rfl

theorem rotatedPlan (id : Nat) (items : List Item) :
    Revised (fun i i' => i'.plan = i.plan) items (updateWhere (fun i => i.id == id)
      (fun i => { i with state := .rotated, errorCode := none }) items) :=
  revised_updateWhere (fun _ _ _ => rfl) fun _ _ _ => rfl

theorem retiredContent (db : Tables) :
    Revised (fun e e' => e'.content = e.content) db.envelopes
      (db.retireEnvelope now id).envelopes :=
  revised_updateWhere (fun _ _ _ => rfl) fun _ _ _ => rfl

section Rotates

variable {client : CryptoClient} {now newId : Nat} {job : RotationJob} {fresh : PlannedItem}
  {db db' : Tables} {source : Registry} {target : TransitRegistry} {ciphertext : String}
  {version : Nat}

theorem Rotates.jobs
    (h : Rotates format material client now newId job fresh db db' source target ciphertext version) :
    Revised (fun row row' => row'.toRotationJob = row.toRotationJob) db.jobs db'.jobs := by
  obtain ⟨_, rfl⟩ := h.done
  apply sameJobs_updateWhere
  exact fun _ => rfl

theorem Rotates.items
    (h : Rotates format material client now newId job fresh db db' source target ciphertext version) :
    db'.items = updateWhere (fun i => i.id == fresh.id)
      (fun i => { i with state := .rotated, errorCode := none }) db.items := by
  obtain ⟨_, rfl⟩ := h.done
  rfl

theorem Rotates.envelopes
    (h : Rotates format material client now newId job fresh db db' source target ciphertext version) :
    db'.envelopes = (db.retireEnvelope now fresh.envelopeId).envelopes ++
      [rotatedEnvelope newId fresh target ciphertext version] := by
  obtain ⟨_, rfl⟩ := h.done
  rfl

end Rotates

theorem Write.kept (h : Write format material a db db') : Kept db db' := by
  cases h with
  | jobs h => exact h.kept
  | keys h =>
    obtain ⟨_, rows, hframe⟩ := h
    rw [hframe]
    exact ⟨fun row hrow => ⟨row, hrow, rfl⟩, fun i hi => ⟨i, hi, rfl⟩, fun e he => ⟨e, he, rfl⟩⟩
  | created job queue hbatch h =>
    subst h
    refine ⟨?_, fun i hi => ⟨i, hi, rfl⟩, fun e he => ⟨e, he, rfl⟩⟩
    exact fun row hrow => ⟨row, mem_append_left _ hrow, rfl⟩
  | inserted row hactive h =>
    obtain ⟨_, _, _, rfl⟩ := writeEnvelope_ok h
    refine ⟨fun row hrow => ⟨row, hrow, rfl⟩, fun i hi => ⟨i, hi, rfl⟩, ?_⟩
    exact fun e he => ⟨e, mem_append_left _ he, rfl⟩
  | materialized job firstId expected hjob h =>
    obtain ⟨_, henvelopes, hitems, hjobs⟩ := materializeItems_ok h
    refine ⟨fun row hrow => hjobs.exists_after hrow, ?_, ?_⟩
    · exact fun i hi => ⟨i, hitems ▸ mem_append_left _ hi, rfl⟩
    · exact fun e he => ⟨e, henvelopes ▸ he, rfl⟩
  | skipped id h =>
    subst h
    refine ⟨fun row hrow => ⟨row, hrow, rfl⟩, ?_, fun e he => ⟨e, he, rfl⟩⟩
    exact fun i hi => (skippedPlan id db.items).exists_after hi
  | rotated process client now newId job fresh i e ha hi he hplans hfresh h =>
    obtain ⟨_, _, _, _, hrotates⟩ := rotateFresh_ok h
    refine ⟨fun row hrow => hrotates.jobs.exists_after hrow, ?_, ?_⟩
    · intro i hi
      rw [hrotates.items]
      exact (rotatedPlan fresh.id db.items).exists_after hi
    · intro e he
      obtain ⟨e', he', hcontent⟩ := (retiredContent db).exists_after he
      rw [hrotates.envelopes]
      exact ⟨e', mem_append_left _ he', hcontent⟩

theorem Write.itemIds (h : Write format material a db db') (hids : (db.items.map Item.id).Nodup) :
    (db'.items.map Item.id).Nodup := by
  cases h with
  | jobs h | keys h =>
    obtain ⟨_, _, hframe⟩ := h
    rw [hframe]
    exact hids
  | created _ _ _ h =>
    rw [h]
    exact hids
  | inserted _ _ h =>
    obtain ⟨_, _, _, rfl⟩ := writeEnvelope_ok h
    exact hids
  | materialized job firstId expected hjob h =>
    obtain ⟨hfree, _, hitems, _⟩ := materializeItems_ok h
    rw [hitems, map_append, nodup_append]
    have hnew : ((db.envelopes.filter (db.unplanned job)).mapIdx
        fun k e => Tables.plannedRow job (firstId + k) e).map Item.id =
          (List.range (db.envelopes.filter (db.unplanned job)).length).map (firstId + ·) := by
      apply ext_getElem
      · simp
      · intro n _ _
        simp [Tables.plannedRow]
    rw [hnew]
    refine ⟨hids, nodup_range.map fun _ _ => Nat.add_left_cancel, ?_⟩
    intro id hid id' hid' hsame
    obtain ⟨i, hi, rfl⟩ := mem_map.mp hid
    obtain ⟨k, _, rfl⟩ := mem_map.mp hid'
    have hlt := hfree i hi
    omega
  | skipped id h =>
    subst h
    have hkept : (db.skipItem id).items.map Item.id = db.items.map Item.id :=
      (skippedPlan id db.items).map_eq fun _ _ => id_of_plan
    exact hkept.symm ▸ hids
  | rotated _ _ _ _ _ fresh _ _ _ _ _ _ _ h =>
    obtain ⟨_, _, _, _, hrotates⟩ := rotateFresh_ok h
    have hkept := (rotatedPlan fresh.id db.items).map_eq fun _ _ h => id_of_plan h
    rw [hrotates.items]
    exact hkept.symm ▸ hids

theorem Write.envelopeIds (h : Write format material a db db')
    (hids : (db.envelopes.map Envelope.id).Nodup) : (db'.envelopes.map Envelope.id).Nodup := by
  cases h with
  | jobs h | keys h =>
    obtain ⟨_, _, hframe⟩ := h
    rw [hframe]
    exact hids
  | created _ _ _ h =>
    rw [h]
    exact hids
  | inserted row _ h =>
    obtain ⟨_, hunused, _, rfl⟩ := writeEnvelope_ok h
    rw [map_append]
    apply nodup_append_fresh hids
    intro hmem
    obtain ⟨e, he, hid⟩ := mem_map.mp hmem
    exact hunused e he hid
  | materialized _ _ _ _ h =>
    obtain ⟨_, henvelopes, _, _⟩ := materializeItems_ok h
    exact henvelopes ▸ hids
  | skipped id h =>
    subst h
    exact hids
  | rotated process client now newId job fresh i e ha hi he hplans hfresh h =>
    obtain ⟨_, target, ciphertext, version, hrotates⟩ := rotateFresh_ok h
    have hkept : (db.retireEnvelope now fresh.envelopeId).envelopes.map Envelope.id =
        db.envelopes.map Envelope.id :=
      (retiredContent db).map_eq fun _ _ => id_of_content
    rw [hrotates.envelopes, map_append, hkept]
    apply nodup_append_fresh hids
    intro hmem
    obtain ⟨e, he, hid⟩ := mem_map.mp hmem
    exact hrotates.unused e he hid

/-- Every item is one that was there, or one that is planned now. -/
theorem Write.item_before (h : Write format material a db db') (hi' : i' ∈ db'.items) :
    (∃ i ∈ db.items, i'.plan = i.plan) ∨
      ∃ row ∈ db.jobs, ∃ e ∈ db.envelopes, Plans row.toRotationJob i' e := by
  cases h with
  | jobs h | keys h =>
    obtain ⟨_, _, hframe⟩ := h
    rw [hframe] at hi'
    exact .inl ⟨i', hi', rfl⟩
  | created _ _ _ h =>
    rw [h] at hi'
    exact .inl ⟨i', hi', rfl⟩
  | inserted _ _ h =>
    obtain ⟨_, _, _, rfl⟩ := writeEnvelope_ok h
    exact .inl ⟨i', hi', rfl⟩
  | materialized job firstId expected hjob h =>
    obtain ⟨_, _, hitems, _⟩ := materializeItems_ok h
    rw [hitems] at hi'
    rcases mem_append.mp hi' with hi' | hi'
    · exact .inl ⟨i', hi', rfl⟩
    · obtain ⟨k, hk, rfl⟩ := mem_mapIdx.mp hi'
      obtain ⟨row, hrow, rfl⟩ := hjob
      have hmem := List.getElem_mem hk
      obtain ⟨he, hunplanned⟩ := mem_filter.mp hmem
      simp only [Tables.unplanned, Bool.and_eq_true, beq_iff_eq] at hunplanned
      exact .inr ⟨row, hrow, _, he, rfl, rfl, rfl, hunplanned.1.1.2, hunplanned.1.1.1⟩
  | skipped id h =>
    subst h
    exact .inl ((skippedPlan id db.items).exists_before hi')
  | rotated _ _ _ _ _ fresh _ _ _ _ _ _ _ h =>
    obtain ⟨_, _, _, _, hrotates⟩ := rotateFresh_ok h
    rw [hrotates.items] at hi'
    exact .inl ((rotatedPlan fresh.id db.items).exists_before hi')

theorem Write.batches (h : Write format material a db db')
    (hbatches : ∀ row ∈ db.jobs, 0 < row.maxBatchSize) :
    ∀ row ∈ db'.jobs, 0 < row.maxBatchSize := by
  have hrevised {jobs : List JobRow}
      (h : Revised (fun row row' => row'.toRotationJob = row.toRotationJob) db.jobs jobs) :
      ∀ row ∈ jobs, 0 < row.maxBatchSize := by
    intro row' hrow'
    obtain ⟨row, hrow, hsame⟩ := h.exists_before hrow'
    rw [hsame]
    exact hbatches row hrow
  cases h with
  | jobs h => exact hrevised h.jobs
  | keys h =>
    obtain ⟨_, _, hframe⟩ := h
    rw [hframe]
    exact hbatches
  | created job queue hbatch h =>
    subst h
    intro row hrow
    rcases mem_concat.mp hrow with hrow | rfl
    · exact hbatches row hrow
    · exact hbatch
  | inserted _ _ h =>
    obtain ⟨_, _, _, rfl⟩ := writeEnvelope_ok h
    exact hbatches
  | materialized _ _ _ _ h => exact hrevised (materializeItems_ok h).2.2.2
  | skipped id h =>
    subst h
    exact hbatches
  | rotated _ _ _ _ _ _ _ _ _ _ _ _ _ h =>
    obtain ⟨_, _, _, _, hrotates⟩ := rotateFresh_ok h
    exact hrevised hrotates.jobs

/-! ### The invariant -/

theorem processIds_of_step (hids : (s.fleet.map Process.id).Nodup)
    (h : s.step format material a = some t) : (t.fleet.map Process.id).Nodup := by
  cases a with
  | leaseJob process =>
    obtain ⟨hfree, _, _, _, hsame | ⟨d, _, hfleet⟩⟩ := lease_ok h
    · exact hsame ▸ hids
    · rw [hfleet, map_append]
      apply nodup_append_fresh hids
      intro hmem
      obtain ⟨w, hw, hid⟩ := mem_map.mp hmem
      exact hfree w hw hid
  | act process action =>
    obtain ⟨_, stage', _, _, hfleet, _⟩ := act_ok h
    rw [hfleet]
    exact nodup_upsert hids
  | registerStagedVaultKey | activateStagedVaultKey | reportSuspectedCompromise
  | createRotationJob | insertEnvelope =>
    obtain ⟨db, _, rfl⟩ := map_eq_some_iff.mp h
    exact hids

/-- A call is where it was, is new, or has made the turn of the step. -/
theorem process_of_step (hids : (s.fleet.map Process.id).Nodup)
    (h : s.step format material a = some t) {w : Process} (hw : w ∈ t.fleet) :
    (w ∈ s.fleet ∧ ∀ process action, a = .act process action → w.id ≠ process) ∨
      (∃ d, w.stage = stageAfterLease d) ∨
      ∃ w' action, lookup Process.id w.id s.fleet = some w' ∧ a = .act w.id action ∧
        Turn format material s.locked s.tables w'.stage action t.tables w.stage := by
  cases a with
  | leaseJob process =>
    obtain ⟨_, _, _, _, hsame | ⟨d, _, hfleet⟩⟩ := lease_ok h
    · exact .inl ⟨hsame ▸ hw, fun _ _ h => by cases h⟩
    · rw [hfleet] at hw
      rcases mem_concat.mp hw with hw | rfl
      · exact .inl ⟨hw, fun _ _ h => by cases h⟩
      · exact .inr (.inl ⟨d, rfl⟩)
  | act process action =>
    obtain ⟨w', stage', hw', hturn, hfleet, _⟩ := act_ok h
    rw [hfleet] at hw
    rcases (mem_upsert_iff hids).mp hw with rfl | ⟨hw, hother⟩
    · exact .inr (.inr ⟨w', action, hw', rfl, hturn⟩)
    · refine .inl ⟨hw, ?_⟩
      intro _ _ hact
      cases hact
      exact hother
  | registerStagedVaultKey | activateStagedVaultKey | reportSuspectedCompromise
  | createRotationJob | insertEnvelope =>
    obtain ⟨db, _, rfl⟩ := map_eq_some_iff.mp h
    exact .inl ⟨hw, fun _ _ h => by cases h⟩

theorem stageAfterLease_job (d : DispatchRecord) (job : RotationJob) :
    (stageAfterLease d).job ≠ some job := by
  unfold stageAfterLease
  split
  all_goals
    intro hjob
    cases hjob

theorem Kept.plans (h : Kept db db') {job : RotationJob} (hi : i ∈ db.items) (he : e ∈ db.envelopes)
    (hplans : Plans job i e) :
    ∃ i' ∈ db'.items, ∃ e' ∈ db'.envelopes, Plans job i' e' ∧ plannedItem i' e' = plannedItem i e := by
  obtain ⟨i', hi', hplan⟩ := h.items i hi
  obtain ⟨e', he', hcontent⟩ := h.envelopes e he
  exact ⟨i', hi', e', he', hplans.congr hplan hcontent, plannedItem_congr hplan hcontent⟩

theorem captured_of_step (hcaptured : Captured s) (h : s.step format material a = some t) :
    Captured t := by
  have hwrite := write_of_step hcaptured h
  have hkept := hwrite.kept
  have hjobs {job : RotationJob} (hjob : ∃ row ∈ s.tables.jobs, row.toRotationJob = job) :
      ∃ row ∈ t.tables.jobs, row.toRotationJob = job := by
    obtain ⟨row, hrow, rfl⟩ := hjob
    exact hkept.jobs row hrow
  have hitems {job : RotationJob} {p : PlannedItem}
      (hread : ∃ i ∈ s.tables.items, ∃ e ∈ s.tables.envelopes, Plans job i e ∧ p = plannedItem i e) :
      ∃ i ∈ t.tables.items, ∃ e ∈ t.tables.envelopes, Plans job i e ∧ p = plannedItem i e := by
    obtain ⟨i, hi, e, he, hplans, rfl⟩ := hread
    obtain ⟨i', hi', e', he', hplans', hsame⟩ := hkept.plans hi he hplans
    exact ⟨i', hi', e', he', hplans', hsame.symm⟩
  have hplanned : ∀ i ∈ t.tables.items, ∃ row ∈ t.tables.jobs, ∃ e ∈ t.tables.envelopes,
      Plans row.toRotationJob i e := by
    intro i' hi'
    have hold : ∃ row ∈ s.tables.jobs, ∃ e ∈ s.tables.envelopes, Plans row.toRotationJob i' e := by
      rcases hwrite.item_before hi' with ⟨i, hi, hplan⟩ | hnew
      · obtain ⟨row, hrow, e, he, hplans⟩ := hcaptured.planned i hi
        exact ⟨row, hrow, e, he, hplans.congr hplan rfl⟩
      · exact hnew
    obtain ⟨row, hrow, e, he, hplans⟩ := hold
    obtain ⟨row', hrow', hsame⟩ := hkept.jobs row hrow
    obtain ⟨e', he', hcontent⟩ := hkept.envelopes e he
    exact ⟨row', hrow', e', he', hsame ▸ hplans.congr rfl hcontent⟩
  refine ⟨registered_of_step hcaptured.toRegistered h, ?_, hwrite.itemIds hcaptured.itemIds,
    hwrite.envelopeIds hcaptured.envelopeIds, hwrite.batches hcaptured.batches, hplanned, ?_, ?_⟩
  · exact processIds_of_step hcaptured.processIds h
  · intro w hw job hjob
    rcases process_of_step hcaptured.processIds h hw with
      ⟨hw, _⟩ | ⟨d, hstage⟩ | ⟨w', action, hw', _, hturn⟩
    · exact hjobs (hcaptured.jobRead w hw job hjob)
    · rw [hstage] at hjob
      exact absurd hjob (stageAfterLease_job d job)
    · have hw' := mem_of_find?_eq_some hw'
      rcases (read_of_turn hturn hjob).1 with hold | hnew
      · exact hjobs (hcaptured.jobRead w' hw' job hold)
      · exact hnew
  · intro w hw job hjob p hp
    rcases process_of_step hcaptured.processIds h hw with
      ⟨hw, _⟩ | ⟨d, hstage⟩ | ⟨w', action, hw', _, hturn⟩
    · exact hitems (hcaptured.itemRead w hw job hjob p hp)
    · rw [hstage] at hjob
      exact absurd hjob (stageAfterLease_job d job)
    · have hw' := mem_of_find?_eq_some hw'
      rcases (read_of_turn hturn hjob).2 p hp with ⟨hold, hp⟩ | ⟨hold, i, hi, hid, e, he, hread⟩
      · exact hitems (hcaptured.itemRead w' hw' job hold p hp)
      · obtain ⟨row, hrow, hsame⟩ := hcaptured.jobRead w' hw' job hold
        obtain ⟨henvelope, rfl⟩ := hread
        exact hitems ⟨i, hi, e, he, hcaptured.plans hrow hsame hi hid he henvelope, rfl⟩

theorem captured_start (c : Custody) : Captured c.start where
  toRegistered := registered_start c
  processIds := nodup_nil
  itemIds := nodup_nil
  envelopeIds := c.envelopeIds
  batches _ h := by cases h
  planned _ h := by cases h
  jobRead _ h := by cases h
  itemRead _ h := by cases h

end Bis.Rotation
