import Bis.Rotation.Queue

/-!
The attempts of a dispatch entry. Every claim raises its count by one, but the
hand-over that follows copies the count of the job over it. The two counts drift
apart when a claim is not followed by its hand-over, and the next hand-over then
sets the entry back.
-/

namespace Bis.Rotation

open Bis.Relation Bis.Transition List Option

variable {Payload : Type} {format : PayloadFormat Payload} {material : KeyMaterial}

/-- Jobs, entries and claims name each other. -/
structure Registered (s : System) : Prop where
  jobIds : (s.tables.jobs.map fun job => job.id).Nodup
  entryIds : (s.tables.dispatch.map Dispatch.rotationJobId).Nodup
  entry : ∀ job ∈ s.tables.jobs, job.state.isOpen = true →
    ∃ e ∈ s.tables.dispatch, e.rotationJobId = job.id
  named : ∀ e ∈ s.tables.dispatch, ∃ job ∈ s.tables.jobs, job.name = e.name
  checked : ∀ e ∈ s.tables.dispatch, e.checked = true
  claimed : ∀ id ∈ s.claims, ∃ job ∈ s.tables.jobs, job.id = id
  records : ∀ w ∈ s.fleet, ∀ d, w.stage = .claimed d → ∃ job ∈ s.tables.jobs, job.name = d.name

/-- What a step does to the jobs, the queue and the claims. -/
inductive QueueStep (s t : System) (a : Label Payload) : Prop
  | moved (claims : List Nat) (hclaims : t.claims = s.claims ++ claims)
      (hqueue : Revised (Moves claims) s.tables.dispatch t.tables.dispatch)
      (hclaimed : ∀ id ∈ claims, ∃ e ∈ s.tables.dispatch, e.rotationJobId = id)
      (hjobs : Revised JobMoves s.tables.jobs t.tables.jobs)
  | closed (id : Nat) (hclaims : t.claims = s.claims)
      (hqueue : t.tables.dispatch =
        s.tables.dispatch.filter fun d => !(d.rotationJobId == id && d.state.isOpen))
      (hjobs : Revised JobMoves s.tables.jobs t.tables.jobs)
      (hclosed : ∀ job ∈ t.tables.jobs, job.id = id → job.state.isOpen = false)
  | handed (process now : Nat) (w : Process) (d : DispatchRecord) (job : JobRow)
      (hclaims : t.claims = s.claims) (ha : a = .act process (.handOver now))
      (hw : lookup Process.id process s.fleet = some w) (hstage : w.stage = .claimed d)
      (hjob : job ∈ s.tables.jobs) (hname : job.name = d.name)
      (htakeable : job.takeable now = true) (hhanded : HandedOver job s.tables t.tables)
  | created (job : RotationJob) (now : Nat) (hclaims : t.claims = s.claims)
      (hfresh : ∀ other ∈ s.tables.jobs, other.id ≠ job.id)
      (hqueue : t.tables.dispatch = s.tables.dispatch ++ [job.created.entry now])
      (hjobs : t.tables.jobs = s.tables.jobs ++ [job.created])

variable {s t : System} {a : Label Payload}

/-- A step that leaves the queue alone. -/
theorem QueueStep.unmoved (hclaims : t.claims = s.claims)
    (hqueue : t.tables.dispatch = s.tables.dispatch)
    (hjobs : Revised JobMoves s.tables.jobs t.tables.jobs) : QueueStep s t a := by
  refine .moved [] (by rw [hclaims, append_nil]) ?_ (fun _ h => by cases h) hjobs
  rw [hqueue]
  exact revised_refl fun d _ => ⟨rfl, rfl, fun _ => rfl, id⟩

theorem jobsKept (jobs : List JobRow) : Revised JobMoves jobs jobs :=
  revised_refl fun job _ => JobMoves.refl job

theorem queueStep_of_close {now id : Nat} {p : JobRow → Bool} {f : JobRow → JobRow}
    (hids : (s.tables.jobs.map fun job => job.id).Nodup) (hclaims : t.claims = s.claims)
    (hname : ∀ job, (f job).name = job.name)
    (hcount : ∀ job, (f job).attemptCount = job.attemptCount)
    (hclosed : ∀ job, (f job).state.isOpen = false)
    (h : s.tables.updateJob now id p f = .ok t.tables) : QueueStep s t a := by
  have hid : ∀ job, (f job).id = job.id := fun job => congrArg Prod.fst (hname job)
  rcases closeJob_ok hid hclosed h with hsame | ⟨job, hjob, hjobId, hp, hafter⟩
  · exact .unmoved hclaims (by rw [hsame]) (by rw [hsame]; exact jobsKept _)
  · have hqueue := congrArg Tables.dispatch hafter
    have hjobs := congrArg Tables.jobs hafter
    simp only at hqueue hjobs
    refine .closed id hclaims hqueue ?_ ?_
    · rw [hjobs]
      apply jobs_updateWhere
      intro row _ _
      refine ⟨hname row, ?_, fun hroom => (hcount row).symm ▸ hroom⟩
      intro hopen
      rw [hclosed row] at hopen
      cases hopen
    · intro row hrow hrowId
      rw [hjobs] at hrow
      rcases mem_updateWhere.mp hrow with ⟨old, _, _, rfl⟩ | ⟨hrow, hnot⟩
      · exact hclosed old
      · obtain rfl := inj_on_of_nodup_map hids hrow hjob (hrowId.trans hjobId.symm)
        simp [hjobId, hp] at hnot

/-- The update of the queue by its own. -/
theorem queueStep_of_update {p : Dispatch → Bool} {f : Dispatch → Dispatch}
    (hclaims : t.claims = s.claims) (hname : ∀ d, (f d).name = d.name)
    (hattempts : ∀ d, (f d).attemptCount = d.attemptCount) {queue : List Dispatch}
    (h : updateDispatch p f s.tables.dispatch = .ok queue)
    (hafter : t.tables = { s.tables with dispatch := queue }) : QueueStep s t a := by
  refine .moved [] (by rw [hclaims, append_nil]) ?_ (fun _ h => by cases h) ?_
  · rw [hafter]
    exact moved_of_update h hname hattempts
  · rw [hafter]
    exact jobsKept _

theorem queueStep_of_turn {process : Nat} {w : Process} {action : Action} {stage' : Stage}
    (hreg : Registered s) (hw : lookup Process.id process s.fleet = some w)
    (hclaims : t.claims = s.claims)
    (hturn : Turn format material s.locked s.tables w.stage action t.tables stage') :
    @QueueStep Payload s t (.act process action) := by
  have hkept {db : Tables} (hsame : t.tables = db) (hqueue : db.dispatch = s.tables.dispatch)
      (hjobs : Revised JobMoves s.tables.jobs db.jobs) :
      @QueueStep Payload s t (.act process action) :=
    .unmoved hclaims (by rw [hsame, hqueue]) (by rw [hsame]; exact hjobs)
  generalize hstage : w.stage = stage at hturn
  generalize hafter : t.tables = after at hturn
  cases hturn with
  | terminalize h =>
    unfold Tables.failExhausted at h
    rw [← hafter] at h
    refine queueStep_of_close hreg.jobIds hclaims ?_ ?_ ?_ h <;> intro _ <;> rfl
  | deadLetter h =>
    obtain ⟨queue, hqueue, h⟩ := except_bind_ok h
    cases h
    refine queueStep_of_update hclaims ?_ ?_ hqueue hafter <;> intro _ <;> rfl
  | @handOver d _ _ _ h =>
    obtain ⟨job, hjob, hname⟩ := hreg.records w (mem_of_find?_eq_some hw) d hstage
    rcases handOver_ok hreg.jobIds hjob hname (hreg.entry job hjob) h with
      ⟨_, _, hresult⟩ | ⟨htakeable, _, hhanded⟩
    · cases hresult
    · exact .handed process _ w d job hclaims rfl hw hstage hjob hname htakeable (hafter ▸ hhanded)
  | @nothingToLease d _ _ h =>
    obtain ⟨job, hjob, hname⟩ := hreg.records w (mem_of_find?_eq_some hw) d hstage
    rcases handOver_ok hreg.jobIds hjob hname (hreg.entry job hjob) h with
      ⟨_, hsame, _⟩ | ⟨_, hresult, _⟩
    · exact hkept (hafter.trans hsame) rfl (jobsKept _)
    · cases hresult
  | restore h =>
    obtain ⟨queue, hqueue, h⟩ := except_bind_ok h
    cases h
    refine queueStep_of_update hclaims ?_ ?_ hqueue hafter <;> intro _ <;> rfl
  | materialize h =>
    obtain ⟨_, rfl⟩ := materializeItems_eq h
    refine hkept hafter rfl ?_
    exact jobs_updateWhere fun job _ _ => ⟨rfl, id, id⟩
  | rotate h =>
    obtain ⟨_, _, _, _, hrotates⟩ := rotateFresh_ok h
    obtain ⟨_, rfl⟩ := hrotates.done
    refine hkept hafter rfl ?_
    exact jobs_updateWhere fun job _ _ => ⟨rfl, id, id⟩
  | skip _ => exact hkept hafter rfl (jobsKept _)
  | markFailed h =>
    unfold Tables.markJobFailed at h
    rw [← hafter] at h
    refine queueStep_of_close hreg.jobIds hclaims ?_ ?_ ?_ h <;> intro _ <;> rfl
  | @finish _ outcome _ _ _ h =>
    unfold Tables.finishJob at h
    rw [← hafter] at h
    refine queueStep_of_close hreg.jobIds hclaims ?_ ?_ ?_ h
    · exact fun _ => rfl
    · exact fun _ => rfl
    · intro _
      cases outcome <;> rfl
  | handOverRefused | handOverFails | planFails | proceed | nextItems | commitItems | itemGone
  | beginItem | itemFails | crash => exact hkept hafter rfl (jobsKept _)

theorem queueStep_of_step (hreg : Registered s) (h : s.step format material a = some t) :
    QueueStep s t a := by
  have hkeys {db : Tables} (hwrite : KeyWrite s.tables db) (ht : { s with tables := db } = t) :
      QueueStep s t a := by
    obtain ⟨_, rows, hframe⟩ := hwrite
    rw [hframe] at ht
    subst ht
    exact .unmoved rfl rfl (jobsKept _)
  cases a with
  | registerStagedVaultKey =>
    obtain ⟨db, hdb, ht⟩ := map_eq_some_iff.mp h
    exact hkeys (registerStagedVaultKey_ok hdb) ht
  | activateStagedVaultKey =>
    obtain ⟨db, hdb, ht⟩ := map_eq_some_iff.mp h
    exact hkeys (activateStagedVaultKey_ok hdb) ht
  | reportSuspectedCompromise =>
    obtain ⟨db, hdb, ht⟩ := map_eq_some_iff.mp h
    exact hkeys (reportSuspectedCompromise_ok hdb) ht
  | createRotationJob now job =>
    obtain ⟨db, hdb, rfl⟩ := map_eq_some_iff.mp h
    obtain ⟨_, hfresh, rfl⟩ := createRotationJob_ok hdb
    have hnone : ¬ (s.tables.dispatch.any fun d => d.rotationJobId == job.id) = true := by
      intro hany
      obtain ⟨e, he, hid⟩ := any_eq_true.mp hany
      obtain ⟨other, hother, hname⟩ := hreg.named e he
      exact hfresh other hother ((congrArg Prod.fst hname).trans (beq_iff_eq.mp hid))
    exact .created job now rfl hfresh (if_neg hnone) rfl
  | insertEnvelope =>
    obtain ⟨db, hdb, rfl⟩ := map_eq_some_iff.mp h
    rcases insertEnvelope_ok hdb with rfl | ⟨row, _, hrow⟩
    · exact .unmoved rfl rfl (jobsKept _)
    · obtain ⟨_, _, _, rfl⟩ := writeEnvelope_ok hrow
      exact .unmoved rfl rfl (jobsKept _)
  | leaseJob =>
    obtain ⟨_, leased, hleased, hclaims, _⟩ := lease_ok h
    obtain ⟨queue, hafter, hmoves, hnamed⟩ := leaseDispatch_ok hreg.entryIds hleased
    refine .moved (claimsOf leased) hclaims (hafter ▸ hmoves) ?_ (hafter ▸ jobsKept _)
    intro id hid
    cases leased with
    | none => cases hid
    | some d =>
      simp only [claimsOf] at hid
      split at hid
      next =>
        obtain rfl := mem_singleton.mp hid
        obtain ⟨e, he, hname⟩ := hnamed d rfl
        exact ⟨e, he, congrArg Prod.fst hname⟩
      next => cases hid
  | act process action =>
    obtain ⟨w, stage', hw, hturn, _, hclaims⟩ := act_ok h
    exact queueStep_of_turn hreg hw hclaims hturn

/-! ### What stays registered -/

theorem afterPlan_ne_claimed (job : RotationJob) (expected : Nat) (confirmed : Bool)
    (d : DispatchRecord) : Stage.afterPlan job expected confirmed ≠ .claimed d := by
  unfold Stage.afterPlan
  split
  · exact Stage.noConfusion
  · split <;> exact Stage.noConfusion

theorem afterBatch_ne_claimed (job : RotationJob) (expected : Nat) (batch : List PlannedItem)
    (d : DispatchRecord) : Stage.afterBatch job expected batch ≠ .claimed d := by
  cases batch <;> exact Stage.noConfusion

/-- Only the first transaction claims an entry. -/
theorem turn_ne_claimed {locked : Nat → Nat → Bool} {db db' : Tables} {stage stage' : Stage}
    {action : Action} (h : Turn format material locked db stage action db' stage')
    (d : DispatchRecord) : stage' ≠ .claimed d := by
  cases h with
  | proceed => exact afterPlan_ne_claimed _ _ _ d
  | nextItems => exact afterBatch_ne_claimed _ _ _ d
  | terminalize | deadLetter | handOver | nothingToLease | handOverRefused | handOverFails
  | restore | materialize | planFails | commitItems | itemGone | beginItem | skip | rotate
  | itemFails | markFailed | finish | crash => exact Stage.noConfusion

/-- A call that has claimed an entry holds the record of one. -/
theorem record_of_step (h : s.step format material a = some t)
    (hids : (s.tables.dispatch.map Dispatch.rotationJobId).Nodup) :
    ∀ w ∈ t.fleet, ∀ d, w.stage = .claimed d →
      (∃ w' ∈ s.fleet, w'.stage = .claimed d) ∨ ∃ e ∈ s.tables.dispatch, e.name = d.name := by
  intro w hw d hstage
  cases a with
  | leaseJob =>
    obtain ⟨_, leased, hleased, _, hsame | ⟨d', hd', hfleet⟩⟩ := lease_ok h
    · exact .inl ⟨w, hsame ▸ hw, hstage⟩
    · rw [hfleet] at hw
      rcases mem_concat.mp hw with hw | rfl
      · exact .inl ⟨w, hw, hstage⟩
      · obtain ⟨_, _, _, hnamed⟩ := leaseDispatch_ok hids hleased
        unfold stageAfterLease at hstage
        split at hstage
        next => cases hstage
        next =>
          obtain rfl := Stage.claimed.inj hstage
          exact .inr (hnamed _ hd')
  | act process action =>
    obtain ⟨w', stage', hw', hturn, hfleet, _⟩ := act_ok h
    rw [hfleet] at hw
    rcases mem_upsert hw with rfl | hw
    · exact absurd hstage (turn_ne_claimed hturn d)
    · exact .inl ⟨w, hw, hstage⟩
  | registerStagedVaultKey | activateStagedVaultKey | reportSuspectedCompromise
  | createRotationJob | insertEnvelope =>
    obtain ⟨db, _, rfl⟩ := map_eq_some_iff.mp h
    exact .inl ⟨w, hw, hstage⟩

theorem QueueStep.job_kept (h : QueueStep s t a) {job : JobRow} (hjob : job ∈ s.tables.jobs) :
    ∃ job' ∈ t.tables.jobs, job'.name = job.name := by
  cases h with
  | moved _ _ _ _ hjobs | closed _ _ _ hjobs =>
    obtain ⟨job', hjob', hmoves⟩ := hjobs.exists_after hjob
    exact ⟨job', hjob', hmoves.name⟩
  | handed _ _ _ _ _ _ _ _ _ _ _ _ hhanded =>
    obtain ⟨job', hjob', hmoves⟩ := hhanded.jobs.exists_after hjob
    exact ⟨job', hjob', hmoves.name⟩
  | created _ _ _ _ _ hjobs => exact ⟨job, hjobs ▸ mem_append_left _ hjob, rfl⟩

theorem Overwritten.id {id n : Nat} {d d' : Dispatch} (h : Overwritten id n d d') :
    d'.rotationJobId = d.rotationJobId :=
  congrArg Prod.fst h.name

/-- Entries that are revised under their names stay registered. -/
theorem entries_of_revised {R : Dispatch → Dispatch → Prop} (hreg : Registered s)
    (hname : ∀ d d', R d d' → d'.name = d.name)
    (hchecked : ∀ d d', R d d' → d.checked = true → d'.checked = true)
    (hqueue : Revised R s.tables.dispatch t.tables.dispatch)
    (hjobs : Revised JobMoves s.tables.jobs t.tables.jobs) :
    (t.tables.dispatch.map Dispatch.rotationJobId).Nodup ∧
      (∀ job ∈ t.tables.jobs, job.state.isOpen = true →
        ∃ e ∈ t.tables.dispatch, e.rotationJobId = job.id) ∧
      (∀ e ∈ t.tables.dispatch, ∃ job ∈ t.tables.jobs, job.name = e.name) ∧
      ∀ e ∈ t.tables.dispatch, e.checked = true := by
  refine ⟨?_, ?_, ?_, ?_⟩
  · have hids : ∀ d d', R d d' → d'.rotationJobId = d.rotationJobId :=
      fun d d' h => congrArg Prod.fst (hname d d' h)
    rw [hqueue.map_eq hids]
    exact hreg.entryIds
  · intro job' hjob' hopen
    obtain ⟨job, hjob, hmoves⟩ := hjobs.exists_before hjob'
    obtain ⟨e, he, hid⟩ := hreg.entry job hjob (hmoves.opened hopen)
    obtain ⟨e', he', hR⟩ := hqueue.exists_after he
    exact ⟨e', he', (congrArg Prod.fst (hname e e' hR)).trans (hid.trans hmoves.id.symm)⟩
  · intro e' he'
    obtain ⟨e, he, hR⟩ := hqueue.exists_before he'
    obtain ⟨job, hjob, hsame⟩ := hreg.named e he
    obtain ⟨job', hjob', hmoves⟩ := hjobs.exists_after hjob
    exact ⟨job', hjob', hmoves.name.trans (hsame.trans (hname e e' hR).symm)⟩
  · intro e' he'
    obtain ⟨e, he, hR⟩ := hqueue.exists_before he'
    exact hchecked e e' hR (hreg.checked e he)

theorem registered_of_step (hreg : Registered s) (h : s.step format material a = some t) :
    Registered t := by
  have hqueueStep := queueStep_of_step hreg h
  have hclaimed : (∀ id ∈ t.claims, id ∈ s.claims ∨ ∃ job ∈ s.tables.jobs, job.id = id) →
      ∀ id ∈ t.claims, ∃ job ∈ t.tables.jobs, job.id = id := by
    intro hclaims id hid
    obtain ⟨job, hjob, hjobId⟩ : ∃ job ∈ s.tables.jobs, job.id = id := by
      rcases hclaims id hid with hold | hjob
      · exact hreg.claimed id hold
      · exact hjob
    obtain ⟨job', hjob', hname⟩ := hqueueStep.job_kept hjob
    exact ⟨job', hjob', (congrArg Prod.fst hname).trans hjobId⟩
  have hrecords : ∀ w ∈ t.fleet, ∀ d, w.stage = .claimed d →
      ∃ job ∈ t.tables.jobs, job.name = d.name := by
    intro w hw d hstage
    obtain ⟨job, hjob, hname⟩ : ∃ job ∈ s.tables.jobs, job.name = d.name := by
      rcases record_of_step h hreg.entryIds w hw d hstage with ⟨w', hw', hstage'⟩ | ⟨e, he, hname⟩
      · exact hreg.records w' hw' d hstage'
      · obtain ⟨job, hjob, hsame⟩ := hreg.named e he
        exact ⟨job, hjob, hsame.trans hname⟩
    obtain ⟨job', hjob', hsame⟩ := hqueueStep.job_kept hjob
    exact ⟨job', hjob', hsame.trans hname⟩
  have hjobIds {jobs : List JobRow} (hjobs : Revised JobMoves s.tables.jobs jobs) :
      (jobs.map fun job => job.id).Nodup := by
    rw [hjobs.map_eq fun _ _ h => h.id]
    exact hreg.jobIds
  cases hqueueStep with
  | moved claims hclaims hqueue hnew hjobs =>
    obtain ⟨hentryIds, hentry, hnamed, hchecked⟩ :=
      entries_of_revised hreg (fun _ _ h => h.name) (fun _ _ h => h.checked) hqueue hjobs
    refine ⟨hjobIds hjobs, hentryIds, hentry, hnamed, hchecked, hclaimed ?_, hrecords⟩
    intro id hid
    rw [hclaims] at hid
    rcases mem_append.mp hid with hid | hid
    · exact .inl hid
    · obtain ⟨e, he, heId⟩ := hnew id hid
      obtain ⟨job, hjob, hname⟩ := hreg.named e he
      exact .inr ⟨job, hjob, (congrArg Prod.fst hname).trans heId⟩
  | handed _ _ _ _ job hclaims _ _ _ _ _ _ hhanded =>
    obtain ⟨hentryIds, hentry, hnamed, hchecked⟩ :=
      entries_of_revised hreg (fun _ _ h => h.name) (fun _ _ h => h.checked) hhanded.dispatch
        hhanded.jobs
    exact ⟨hjobIds hhanded.jobs, hentryIds, hentry, hnamed, hchecked,
      hclaimed fun id hid => .inl (hclaims ▸ hid), hrecords⟩
  | closed id hclaims hqueue hjobs hclosed =>
    have hmem : ∀ e ∈ t.tables.dispatch, e ∈ s.tables.dispatch := by
      intro e he
      rw [hqueue] at he
      exact (mem_filter.mp he).1
    refine ⟨hjobIds hjobs, ?_, ?_, ?_, fun e he => hreg.checked e (hmem e he),
      hclaimed fun id hid => .inl (hclaims ▸ hid), hrecords⟩
    · rw [hqueue]
      exact hreg.entryIds.sublist (filter_sublist.map _)
    · intro job' hjob' hopen
      obtain ⟨job, hjob, hmoves⟩ := hjobs.exists_before hjob'
      obtain ⟨e, he, heId⟩ := hreg.entry job hjob (hmoves.opened hopen)
      have hother : job'.id ≠ id := by
        intro hsame
        rw [hclosed job' hjob' hsame] at hopen
        cases hopen
      refine ⟨e, hqueue ▸ mem_filter.mpr ⟨he, ?_⟩, heId.trans hmoves.id.symm⟩
      have hne : e.rotationJobId ≠ id := fun hsame => hother (hmoves.id.trans (heId ▸ hsame))
      simp [hne]
    · intro e he
      obtain ⟨job, hjob, hsame⟩ := hreg.named e (hmem e he)
      obtain ⟨job', hjob', hmoves⟩ := hjobs.exists_after hjob
      exact ⟨job', hjob', hmoves.name.trans hsame⟩
  | created job now hclaims hfresh hqueue hjobs =>
    have hunused : job.id ∉ s.tables.dispatch.map Dispatch.rotationJobId := by
      intro hmem
      obtain ⟨e, he, hid⟩ := mem_map.mp hmem
      obtain ⟨other, hother, hname⟩ := hreg.named e he
      exact hfresh other hother ((congrArg Prod.fst hname).trans hid)
    have hnew : job.created ∈ t.tables.jobs := by
      rw [hjobs]
      exact mem_concat_self
    refine ⟨?_, ?_, ?_, ?_, ?_, hclaimed fun id hid => .inl (hclaims ▸ hid), hrecords⟩
    · rw [hjobs, map_append]
      apply nodup_append_fresh hreg.jobIds
      intro hmem
      obtain ⟨other, hother, hid⟩ := mem_map.mp hmem
      exact hfresh other hother hid
    · rw [hqueue, map_append]
      exact nodup_append_fresh hreg.entryIds hunused
    · intro job' hjob' hopen
      rw [hjobs] at hjob'
      rw [hqueue]
      rcases mem_append.mp hjob' with hjob' | hjob'
      · obtain ⟨e, he, hid⟩ := hreg.entry job' hjob' hopen
        exact ⟨e, mem_append_left _ he, hid⟩
      · obtain rfl := mem_singleton.mp hjob'
        exact ⟨_, mem_concat_self, rfl⟩
    · intro e he
      rw [hqueue] at he
      rcases mem_concat.mp he with he | rfl
      · obtain ⟨other, hother, hname⟩ := hreg.named e he
        exact ⟨other, hjobs ▸ mem_append_left _ hother, hname⟩
      · exact ⟨job.created, hnew, rfl⟩
    · intro e he
      rw [hqueue] at he
      rcases mem_concat.mp he with he | rfl
      · exact hreg.checked e he
      · rfl

theorem registered_start (c : Custody) : Registered c.start where
  jobIds := nodup_nil
  entryIds := nodup_nil
  entry _ h := by cases h
  named _ h := by cases h
  checked _ h := by cases h
  claimed _ h := by cases h
  records _ h := by cases h

/-! ### The counts -/

/-- No entry's count becomes smaller. -/
def CountsGrow (s t : System) : Prop :=
  ∀ e ∈ s.tables.dispatch, ∀ e' ∈ t.tables.dispatch, e'.rotationJobId = e.rotationJobId →
    e.attemptCount ≤ e'.attemptCount

/-- A dead letter stays as it is and is not claimed. -/
def DeadStays (s t : System) : Prop :=
  ∀ e ∈ s.tables.dispatch, e.state = .deadLetter →
    e ∈ t.tables.dispatch ∧ t.claims.count e.rotationJobId = s.claims.count e.rotationJobId

def ClaimsBounded (s : System) : Prop := ∀ id, s.claims.count id ≤ dispatchMaxAttempts

/-- A hand-over that leases the job finds an entry that has been claimed at most
once since the last one. -/
def EntryNotAhead (s : System) : Label Payload → Prop
  | .act process (.handOver now) =>
    ∀ w, lookup Process.id process s.fleet = some w → ∀ d, w.stage = .claimed d →
      ∀ job ∈ s.tables.jobs, job.name = d.name → job.takeable now = true →
        ∀ e ∈ s.tables.dispatch, e.rotationJobId = job.id → e.state.isOpen = true →
          e.attemptCount ≤ job.attemptCount + 1
  | _ => True

theorem checked_le {d : Dispatch} (h : d.checked = true) : d.attemptCount ≤ 12 := by
  unfold Dispatch.checked at h
  exact of_decide_eq_true (Bool.and_eq_true_iff.mp h).1

theorem deadStays_of_step (hreg : Registered s) (h : s.step format material a = some t) :
    DeadStays s t := by
  intro e he hdead
  cases queueStep_of_step hreg h with
  | moved claims hclaims hqueue hnew hjobs =>
    obtain ⟨e', he', hmoves⟩ := hqueue.exists_after he
    have hsame := hmoves.dead hdead
    have hcount := hmoves.attempts
    rw [hsame] at he' hcount
    refine ⟨he', ?_⟩
    rw [hclaims, count_append]
    omega
  | closed id hclaims hqueue hjobs hclosed =>
    rw [hclaims, hqueue]
    refine ⟨mem_filter.mpr ⟨he, ?_⟩, rfl⟩
    simp [hdead, DispatchState.isOpen]
  | handed _ _ _ _ job hclaims _ _ _ _ _ _ hhanded =>
    obtain ⟨e', he', hoverwritten⟩ := hhanded.dispatch.exists_after he
    have hother : e.rotationJobId ≠ job.id := by
      intro hsame
      have hopen := (hoverwritten.same hsame).1
      rw [hdead] at hopen
      cases hopen
    rw [hoverwritten.other hother] at he'
    exact ⟨he', by rw [hclaims]⟩
  | created job now hclaims hfresh hqueue hjobs =>
    rw [hclaims, hqueue]
    exact ⟨mem_append_left _ he, rfl⟩

/-- The claims of an entry are in its count. -/
structure Counted (s : System) : Prop where
  entries : ∀ e ∈ s.tables.dispatch, s.claims.count e.rotationJobId ≤ e.attemptCount
  bounded : ClaimsBounded s

theorem counted_of_grow (hreg : Registered s) (hcounted : Counted s)
    (h : s.step format material a = some t) (hgrow : CountsGrow s t) : Counted t := by
  cases queueStep_of_step hreg h with
  | moved claims hclaims hqueue hnew hjobs =>
    have hentries : ∀ e' ∈ t.tables.dispatch, t.claims.count e'.rotationJobId ≤ e'.attemptCount := by
      intro e' he'
      obtain ⟨e, he, hmoves⟩ := hqueue.exists_before he'
      have hold := hcounted.entries e he
      rw [hclaims, count_append, hmoves.id, hmoves.attempts]
      omega
    refine ⟨hentries, ?_⟩
    intro id
    by_cases hid : id ∈ claims
    · obtain ⟨e, he, rfl⟩ := hnew id hid
      obtain ⟨e', he', hmoves⟩ := hqueue.exists_after he
      have hle := hentries e' he'
      rw [hmoves.id] at hle
      exact hle.trans (checked_le ((registered_of_step hreg h).checked e' he'))
    · rw [hclaims, count_append, count_eq_zero.mpr hid]
      exact hcounted.bounded id
  | closed id hclaims hqueue hjobs hclosed =>
    refine ⟨?_, fun id => hclaims ▸ hcounted.bounded id⟩
    intro e he
    rw [hqueue] at he
    rw [hclaims]
    exact hcounted.entries e (mem_filter.mp he).1
  | handed _ _ _ _ job hclaims _ _ _ _ _ _ hhanded =>
    refine ⟨?_, fun id => hclaims ▸ hcounted.bounded id⟩
    intro e' he'
    obtain ⟨e, he, hoverwritten⟩ := hhanded.dispatch.exists_before he'
    rw [hclaims, hoverwritten.id]
    exact (hcounted.entries e he).trans (hgrow e he e' he' hoverwritten.id)
  | created job now hclaims hfresh hqueue hjobs =>
    refine ⟨?_, fun id => hclaims ▸ hcounted.bounded id⟩
    intro e he
    rw [hqueue] at he
    rw [hclaims]
    rcases mem_concat.mp he with he | rfl
    · exact hcounted.entries e he
    · have hnone : job.created.id ∉ s.claims := by
        intro hmem
        obtain ⟨other, hother, hid⟩ := hreg.claimed _ hmem
        exact hfresh other hother hid
      exact (count_eq_zero.mpr hnone).le

/-- A hand-over that finds an open entry with room for its attempt goes through. -/
theorem handedOver_of_step (hreg : Registered s) {process now : Nat} {w : Process}
    {d : DispatchRecord} {job : JobRow} {e : Dispatch}
    (h : s.step format material (.act process (.handOver now)) = some t)
    (hw : lookup Process.id process s.fleet = some w) (hstage : w.stage = .claimed d)
    (hjob : job ∈ s.tables.jobs) (hname : job.name = d.name) (htakeable : job.takeable now = true)
    (hroom : job.attemptCount < 12) (he : e ∈ s.tables.dispatch) (hid : e.rotationJobId = job.id)
    (hopen : e.state.isOpen = true) : HandedOver job s.tables t.tables := by
  obtain ⟨w', stage', hw', hturn, _, _⟩ := act_ok h
  obtain rfl := some.inj (hw.symm.trans hw')
  rw [hstage] at hturn
  have hentries : ∀ e' ∈ s.tables.dispatch, e'.rotationJobId = job.id → e'.state.isOpen = true := by
    intro e' he' hid'
    obtain rfl := inj_on_of_nodup_map hreg.entryIds he' he (hid'.trans hid.symm)
    exact hopen
  obtain ⟨result, haccepted⟩ :=
    handOver_accepted hreg.jobIds hjob hname htakeable hroom ⟨e, he, hid⟩ hentries
  have hdone {db' : Tables} {taken : Option RotationJob}
      (h : s.tables.handOver now d = .ok (db', taken)) : HandedOver job s.tables db' := by
    rcases handOver_ok hreg.jobIds hjob hname (hreg.entry job hjob) h with
      ⟨hnot, _, _⟩ | ⟨_, _, hhanded⟩
    · rw [htakeable] at hnot
      cases hnot
    · exact hhanded
  generalize t.tables = after at hturn ⊢
  cases hturn with
  | handOver h => exact hdone h
  | nothingToLease h => exact hdone h
  | handOverRefused hrefused =>
    rw [hrefused] at haccepted
    cases haccepted

/-- The counts grow in a step exactly if it is no hand-over to an entry that is
ahead of the job. -/
theorem countsGrow_iff (hreg : Registered s) (h : s.step format material a = some t) :
    CountsGrow s t ↔ EntryNotAhead s a := by
  constructor
  · intro hgrow
    unfold EntryNotAhead
    split
    next process now =>
      intro w hw d hstage job hjob hname htakeable e he hid hopen
      by_cases hroom : job.attemptCount < 12
      · have hhanded :=
          handedOver_of_step hreg h hw hstage hjob hname htakeable hroom he hid hopen
        obtain ⟨e', he', hoverwritten⟩ := hhanded.dispatch.exists_after he
        rw [← (hoverwritten.same hid).2.2]
        exact hgrow e he e' he' hoverwritten.id
      · have hle := checked_le (hreg.checked e he)
        omega
    next => trivial
  · intro hcond e he e' he' hsame
    cases queueStep_of_step hreg h with
    | moved claims hclaims hqueue hnew hjobs =>
      obtain ⟨old, hold, hmoves⟩ := hqueue.exists_before he'
      obtain rfl := inj_on_of_nodup_map hreg.entryIds hold he (hmoves.id.symm.trans hsame)
      rw [hmoves.attempts]
      exact Nat.le_add_right _ _
    | handed process now w d job hclaims ha hw hstage hjob hname htakeable hhanded =>
      subst ha
      obtain ⟨old, hold, hoverwritten⟩ := hhanded.dispatch.exists_before he'
      obtain rfl := inj_on_of_nodup_map hreg.entryIds hold he
        (hoverwritten.id.symm.trans hsame)
      by_cases hid : old.rotationJobId = job.id
      · obtain ⟨hopen, _, hattempts⟩ := hoverwritten.same hid
        rw [hattempts]
        exact hcond w hw d hstage job hjob hname htakeable old hold hid hopen
      · rw [hoverwritten.other hid]
    | closed id hclaims hqueue hjobs hclosed =>
      rw [hqueue] at he'
      obtain rfl := inj_on_of_nodup_map hreg.entryIds (mem_filter.mp he').1 he hsame
      exact le_rfl
    | created job now hclaims hfresh hqueue hjobs =>
      rw [hqueue] at he'
      rcases mem_append.mp he' with he' | he'
      · obtain rfl := inj_on_of_nodup_map hreg.entryIds he' he hsame
        exact le_rfl
      · obtain rfl := mem_singleton.mp he'
        obtain ⟨other, hother, hname⟩ := hreg.named e he
        exact absurd ((congrArg Prod.fst hname).trans hsame.symm) (hfresh other hother)

/-! ### Runs -/

section Runs

variable (format : PayloadFormat Payload) (material : KeyMaterial)

/-- Every entry is claimed twelve times at most, no step sets its count back, and
none claims a dead letter. -/
def AttemptsKept (s : System) (labels : List (Label Payload)) : Prop :=
  Always (fun s a => s.step format material a) ClaimsBounded s labels ∧
    Meets (fun s a => s.step format material a)
      (fun s a => ∀ t, s.step format material a = some t → CountsGrow s t ∧ DeadStays s t) s labels

/-- This holds of exactly the runs in which no hand-over finds the entry ahead of
the job. -/
theorem attemptsKept_iff (c : Custody) (labels : List (Label Payload)) :
    AttemptsKept format material c.start labels ↔
      Meets (fun s a => s.step format material a) EntryNotAhead c.start labels := by
  have hcounted : Counted c.start := by
    refine ⟨?_, ?_⟩
    · intro e he
      cases he
    · intro id
      exact Nat.zero_le _
  have hgrow : Meets (fun s a => s.step format material a)
      (fun s a => ∀ t, s.step format material a = some t → CountsGrow s t ∧ DeadStays s t)
      c.start labels ↔ Meets (fun s a => s.step format material a) EntryNotAhead c.start labels := by
    apply meets_iff_meets (I := Registered) (H := fun _ _ => True)
    · exact fun s a t hreg _ h => registered_of_step hreg h
    · intro s a t hreg _ h
      constructor
      · exact fun hkept => (countsGrow_iff hreg h).mp (hkept t h).1
      · intro hcond t' h'
        exact ⟨(countsGrow_iff hreg h').mpr hcond, deadStays_of_step hreg h'⟩
    · exact registered_start c
    · exact Meets.of_forall fun _ _ _ => trivial
  unfold AttemptsKept
  rw [hgrow]
  refine ⟨fun h => h.2, fun h => ⟨?_, h⟩⟩
  have halways := always_of_meets (I := fun s => Registered s ∧ Counted s) ?_
    ⟨registered_start c, hcounted⟩ h
  · exact halways.mono fun s hs => hs.2.bounded
  · rintro s a t ⟨hreg, hcounted⟩ hcond h
    exact ⟨registered_of_step hreg h,
      counted_of_grow hreg hcounted h ((countsGrow_iff hreg h).mpr hcond)⟩

/-- Each open job has its one entry. -/
theorem jobs_registered (c : Custody) (labels : List (Label Payload)) :
    Always (System.step format material) Registered c.start labels :=
  always_of_step labels (fun _ _ _ => registered_of_step) (registered_start c)

end Runs

/-! A call claims the entry and ends before the hand-over. The lease of the entry
runs out, a second call claims it again, and its hand-over sets the count from two
back to one. -/

def plainText : PayloadFormat String where
  stringify := id
  parse := some
  parse_stringify _ := rfl
  textField _ _ := none

def sealedStore : KeyMaterial where
  mount := "transit"
  transit _ _ _ := none
  legacy _ _ _ _ := none

def transitKey (id : Nat) (keyVersion : String) (version : Nat) (status : KeyStatus) : Registry where
  id
  tenantId := 1
  keyVersion
  custody := .vaultTransit ⟨"transit", "pii"⟩ version
  status
  retiresAt := none

theorem twoKeys_nodup :
    ([transitKey 1 "v1" 1 .retiring, transitKey 2 "v2" 2 .active].map Registry.id).Nodup := by
  decide

def twoVersions : Custody where
  registries := [transitKey 1 "v1" 1 .retiring, transitKey 2 "v2" 2 .active]
  blindRegistries := []
  envelopes := []
  blindIndexes := []
  registryIds := twoKeys_nodup
  envelopeIds := by decide
  oneActive := by decide
  registered := by decide

def rewrapJob : RotationJob where
  id := 7
  rotationRef := "rotation-7"
  tenantId := 1
  sourceEncryptionKeyRegistryId := 1
  targetEncryptionKeyRegistryId := 2
  sourceBlindIndexKeyRegistryId := none
  targetBlindIndexKeyRegistryId := none
  mode := .transitRewrap
  dryRun := false
  maxBatchSize := 10

def claimedTwice : List (Label String) :=
  [.createRotationJob 0 rewrapJob,
   .leaseJob 1 0 none (fun _ => false),
   .act 1 .crash,
   .leaseJob 2 (leaseMicroseconds + 1) none (fun _ => false)]

def secondHandOver : Label String := .act 2 (.handOver (leaseMicroseconds + 1))

def System.entryCounts (s : System) : List (Nat × Nat) :=
  s.tables.dispatch.map fun d => (d.rotationJobId, d.attemptCount)

theorem attempts_not_kept :
    ¬ AttemptsKept plainText sealedStore twoVersions.start (claimedTwice ++ [secondHandOver]) := by
  intro h
  have hrun : ((run (fun s a => s.step plainText sealedStore a) twoVersions.start
      claimedTwice).bind fun s => (s.step plainText sealedStore secondHandOver).map
        fun t => (s.entryCounts, t.entryCounts)) = some ([(7, 2)], [(7, 1)]) := by
    decide
  obtain ⟨s, hs, hnext⟩ := bind_eq_some_iff.mp hrun
  obtain ⟨t, ht, hcounts⟩ := map_eq_some_iff.mp hnext
  obtain ⟨hbefore, hafter⟩ := Prod.mk.inj hcounts
  obtain ⟨e, he, hcount⟩ := map_eq_singleton_iff.mp hbefore
  obtain ⟨e', he', hcount'⟩ := map_eq_singleton_iff.mp hafter
  obtain ⟨hid, hattempts⟩ := Prod.mk.inj hcount
  obtain ⟨hid', hattempts'⟩ := Prod.mk.inj hcount'
  have hkept := (Meets.append h.2 hs t ht).1 t ht
  have hle := hkept.1 e (he ▸ mem_singleton.mpr rfl) e' (he' ▸ mem_singleton.mpr rfl)
    (hid'.trans hid.symm)
  rw [hattempts, hattempts'] at hle
  exact absurd hle (by decide)

end Bis.Rotation
