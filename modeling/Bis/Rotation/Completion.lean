import Bis.Rotation.Captured

/-!
When a job is completed. A call ends the loop over its items at the first batch
that comes back empty, but a batch leaves out the items that other calls have
locked, and those whose envelope another job has retired. What it leaves out is
still planned when the call goes on to complete the job.
-/

namespace Bis.Rotation

open Bis.Relation Bis.Transition List

variable {Payload : Type} {format : PayloadFormat Payload} {material : KeyMaterial}

/-! ### The states of the items -/

/-- Where an item stands after a step: where it stood, newly planned, or at the end
of the transaction that had read it. -/
inductive ItemStep (s : System) (a : Label Payload) (i' : Item) : Prop
  | same (i : Item) (hi : i ∈ s.tables.items) (hplan : i'.plan = i.plan) (hstate : i'.state = i.state)
  | planned (process firstId : Nat) (w : Process) (job : RotationJob) (e : Envelope)
      (ha : a = .act process (.materialize firstId))
      (hw : lookup Process.id process s.fleet = some w) (hstage : w.stage = .leased job)
      (he : e ∈ s.tables.envelopes) (hunplanned : s.tables.unplanned job e = true)
      (hjob : i'.rotationJobId = job.id) (hstate : i'.state = .planned)
      (hfresh : ∀ i ∈ s.tables.items, i.id ≠ i'.id)
  | skipped (process expected : Nat) (w : Process) (job : RotationJob) (item : PlannedItem)
      (fresh : Option PlannedItem) (rest : List PlannedItem) (i : Item) (action : Action)
      (ha : a = .act process action)
      (hw : lookup Process.id process s.fleet = some w)
      (hstage : w.stage = .rotating job expected item fresh rest) (hi : i ∈ s.tables.items)
      (hplan : i'.plan = i.plan) (hid : i.id = item.id) (hplanned : i.state = .planned)
      (hstate : i'.state = .skipped)
  | rotated (process expected : Nat) (w : Process) (job : RotationJob) (item fresh : PlannedItem)
      (rest : List PlannedItem) (i : Item) (action : Action) (ha : a = .act process action)
      (hw : lookup Process.id process s.fleet = some w)
      (hstage : w.stage = .rotating job expected item (some fresh) rest) (hi : i ∈ s.tables.items)
      (hplan : i'.plan = i.plan) (hid : i.id = fresh.id) (hstate : i'.state = .rotated)

variable {s t : System} {w : Process} {action : Action} {stage' stage : Stage} {i' : Item}
  {a : Label Payload} {locked : Nat → Nat → Bool} {db db' : Tables} {p : PlannedItem}
  {job : RotationJob} {expected now : Nat} {row' : JobRow}

theorem itemStep_of_turn {process : Nat} (hw : lookup Process.id process s.fleet = some w)
    (hturn : Turn format material s.locked s.tables w.stage action t.tables stage')
    (hi' : i' ∈ t.tables.items) : @ItemStep Payload s (.act process action) i' := by
  have hkept {db : Tables} (hsame : t.tables = db) (hitems : db.items = s.tables.items) :
      @ItemStep Payload s (.act process action) i' :=
    .same i' (hitems ▸ hsame ▸ hi') rfl rfl
  have hjobs {db : Tables} (hsame : t.tables = db) (h : JobWrite s.tables db) :
      @ItemStep Payload s (.act process action) i' := by
    obtain ⟨_, _, hframe⟩ := h
    exact hkept hsame (by rw [hframe])
  generalize hstage : w.stage = stage at hturn
  generalize hafter : t.tables = after at hturn
  cases hturn with
  | terminalize h =>
    apply hjobs hafter
    apply jobWrite_updateJob _ h
    exact fun _ => rfl
  | deadLetter h | restore h =>
    obtain ⟨queue, _, h⟩ := except_bind_ok h
    exact hjobs hafter (jobWrite_dispatch (Except.ok.inj h).symm)
  | handOver h | nothingToLease h => exact hjobs hafter (jobWrite_handOver h).1
  | markFailed h =>
    apply hjobs hafter
    apply jobWrite_updateJob _ h
    exact fun _ => rfl
  | finish h =>
    apply hjobs hafter
    apply jobWrite_updateJob _ h
    exact fun _ => rfl
  | @materialize job firstId _ _ h =>
    obtain ⟨hfree, _, hitems, _⟩ := materializeItems_ok h
    rw [hafter, hitems] at hi'
    rcases mem_append.mp hi' with hi' | hi'
    · exact .same i' hi' rfl rfl
    · obtain ⟨k, hk, rfl⟩ := mem_mapIdx.mp hi'
      obtain ⟨he, hunplanned⟩ := mem_filter.mp (List.getElem_mem hk)
      refine .planned process firstId w job _ rfl hw hstage he hunplanned rfl rfl ?_
      intro i hi
      have hlt := hfree i hi
      have hne : i.id ≠ firstId + k := by omega
      exact hne
  | @skip job expected item fresh rest h =>
    rw [hafter] at hi'
    rcases mem_updateWhere.mp hi' with ⟨i, hi, hp, rfl⟩ | ⟨hi', _⟩
    · simp only [Bool.and_eq_true, beq_iff_eq] at hp
      exact .skipped process expected w job item fresh rest i _ rfl hw hstage hi rfl hp.1 hp.2 rfl
    · exact .same i' hi' rfl rfl
  | @rotate job expected item fresh rest _ _ _ _ h =>
    obtain ⟨_, _, _, _, hrotates⟩ := rotateFresh_ok h
    rw [hafter, hrotates.items] at hi'
    rcases mem_updateWhere.mp hi' with ⟨i, hi, hp, rfl⟩ | ⟨hi', _⟩
    · exact .rotated process expected w job item fresh rest i _ rfl hw hstage hi rfl
        (beq_iff_eq.mp hp) rfl
    · exact .same i' hi' rfl rfl
  | handOverRefused | handOverFails | planFails | proceed | nextItems | commitItems | itemGone
  | beginItem | itemFails | crash => exact hkept hafter rfl

theorem itemStep_of_step (h : s.step format material a = some t)
    (hids : (s.tables.dispatch.map Dispatch.rotationJobId).Nodup) (hi' : i' ∈ t.tables.items) :
    ItemStep s a i' := by
  have hkeys {db : Tables} (hwrite : KeyWrite s.tables db) (ht : { s with tables := db } = t) :
      ItemStep s a i' := by
    obtain ⟨_, rows, hframe⟩ := hwrite
    rw [hframe] at ht
    subst ht
    exact .same i' hi' rfl rfl
  cases a with
  | registerStagedVaultKey =>
    obtain ⟨db, hdb, ht⟩ := Option.map_eq_some_iff.mp h
    exact hkeys (registerStagedVaultKey_ok hdb) ht
  | activateStagedVaultKey =>
    obtain ⟨db, hdb, ht⟩ := Option.map_eq_some_iff.mp h
    exact hkeys (activateStagedVaultKey_ok hdb) ht
  | reportSuspectedCompromise =>
    obtain ⟨db, hdb, ht⟩ := Option.map_eq_some_iff.mp h
    exact hkeys (reportSuspectedCompromise_ok hdb) ht
  | createRotationJob now job =>
    obtain ⟨db, hdb, rfl⟩ := Option.map_eq_some_iff.mp h
    obtain ⟨_, _, rfl⟩ := createRotationJob_ok hdb
    exact .same i' hi' rfl rfl
  | insertEnvelope =>
    obtain ⟨db, hdb, rfl⟩ := Option.map_eq_some_iff.mp h
    rcases insertEnvelope_ok hdb with rfl | ⟨row, _, hrow⟩
    · exact .same i' hi' rfl rfl
    · obtain ⟨_, _, _, rfl⟩ := writeEnvelope_ok hrow
      exact .same i' hi' rfl rfl
  | leaseJob =>
    obtain ⟨_, leased, hleased, _, _⟩ := lease_ok h
    obtain ⟨queue, hafter, _, _⟩ := leaseDispatch_ok hids hleased
    rw [hafter] at hi'
    exact .same i' hi' rfl rfl
  | act process action =>
    obtain ⟨w, stage', hw, hturn, _, _⟩ := act_ok h
    exact itemStep_of_turn hw hturn hi'

/-! ### Locked items -/

/-- What a call holds is planned, and no other call holds it. -/
structure Locks (s : System) : Prop extends Captured s where
  heldPlanned : ∀ w ∈ s.fleet, ∀ p ∈ w.stage.held, ∀ i ∈ s.tables.items, i.id = p.id →
    i.state = .planned
  exclusive : ∀ w ∈ s.fleet, ∀ w' ∈ s.fleet, ∀ p ∈ w.stage.held, ∀ p' ∈ w'.stage.held,
    p.id = p'.id → w.id = w'.id
  gone : ∀ w ∈ s.fleet, ∀ job expected item rest,
    w.stage = .rotating job expected item none rest → ∀ i ∈ s.tables.items, i.id = item.id →
      i.state ≠ .planned
  own : ∀ w ∈ s.fleet, ∀ job expected item fresh rest,
    w.stage = .rotating job expected item (some fresh) rest → fresh.id = item.id
  neverFailed : ∀ i ∈ s.tables.items, i.state ≠ .failed

/-- Where an item's state changes, the call that moves has it locked. -/
theorem ItemStep.moved (hlocks : Locks s) (h : ItemStep s a i') :
    (∀ i ∈ s.tables.items, i.id = i'.id → i.state = i'.state) ∨
      ∃ process action w p, a = .act process action ∧ lookup Process.id process s.fleet = some w ∧
        p ∈ w.stage.held ∧ i'.id = p.id := by
  cases h with
  | same i hi hplan hstate =>
    left
    intro i₀ hi₀ hid
    obtain rfl := inj_on_of_nodup_map hlocks.itemIds hi₀ hi (hid.trans (id_of_plan hplan))
    exact hstate.symm
  | planned _ _ _ _ _ _ _ _ _ _ _ _ hfresh =>
    left
    intro i hi hid
    exact absurd hid (hfresh i hi)
  | skipped process expected w job item fresh rest i action ha hw hstage hi hplan hid hplanned _ =>
    have hmem := mem_of_find?_eq_some hw
    cases fresh with
    | none => exact absurd hplanned (hlocks.gone w hmem job expected item rest hstage i hi hid)
    | some f =>
      have hown := hlocks.own w hmem job expected item f rest hstage
      refine .inr ⟨process, action, w, f, ha, hw, ?_, ?_⟩
      · rw [hstage]
        exact mem_singleton.mpr rfl
      · rw [id_of_plan hplan, hid, hown]
  | rotated process expected w job item fresh rest i action ha hw hstage hi hplan hid _ =>
    refine .inr ⟨process, action, w, fresh, ha, hw, ?_, (id_of_plan hplan).trans hid⟩
    rw [hstage]
    exact mem_singleton.mpr rfl

/-- What is locked by a turn was free and planned, and is left as it is. -/
theorem held_of_turn (h : Turn format material locked db stage action db' stage')
    (hp : p ∈ stage'.held) :
    stage.held = [] ∧ db' = db ∧ ∃ i ∈ db.items, i.id = p.id ∧ i.state = .planned ∧
      locked i.id i.envelopeId = false := by
  cases h with
  | @proceed job expected confirmed =>
    have hnone : (Stage.afterPlan job expected confirmed).held = [] := by
      unfold Stage.afterPlan
      split
      · rfl
      · split <;> rfl
    rw [hnone] at hp
    cases hp
  | @nextItems job expected =>
    refine ⟨rfl, rfl, ?_⟩
    generalize hbatch : db.nextItems job (fun item => locked item.id item.envelopeId) = batch at hp
    cases batch with
    | nil => cases hp
    | cons first rest =>
      have hmem : p ∈ db.nextItems job fun item => locked item.id item.envelopeId :=
        hbatch ▸ hp
      obtain ⟨i, hi, _, hplanned, hfree, e, _, _, rfl⟩ := mem_nextItems hmem
      exact ⟨i, hi, rfl, hplanned, hfree⟩
  | beginItem h hfree =>
    obtain rfl := mem_singleton.mp hp
    obtain ⟨hi, hid, _, hplanned, e, _, _, rfl⟩ := freshItem_ok h
    exact ⟨rfl, rfl, _, hi, rfl, hplanned, hfree⟩
  | terminalize | deadLetter | handOver | nothingToLease | handOverRefused | handOverFails
  | restore | materialize | planFails | commitItems | itemGone | skip | rotate | itemFails
  | markFailed | finish | crash => cases hp

theorem not_locked {itemId envelopeId : Nat} (h : s.locked itemId envelopeId = false)
    (hw : w ∈ s.fleet) (hp : p ∈ w.stage.held) : p.id ≠ itemId := by
  simp only [System.locked, any_eq_false] at h
  intro hid
  have hfree := h w hw
  simp only [any_eq_true, Bool.or_eq_true, beq_iff_eq, not_exists, not_and, not_or] at hfree
  exact (hfree p hp).1 hid

theorem stageAfterLease_held (d : DispatchRecord) : (stageAfterLease d).held = [] := by
  unfold stageAfterLease
  split <;> rfl

theorem read_of_held (h : p ∈ stage.held) : p ∈ stage.read ∧ ∃ job, stage.job = some job := by
  cases stage with
  | claiming job => exact ⟨h, job, rfl⟩
  | rotating job expected item fresh rest =>
    exact ⟨mem_cons_of_mem _ (mem_append_left _ h), job, rfl⟩
  | claimed | restoring | exhausted | recorded | leased | planned | looping | failing | finishing
  | returned => cases h

/-- A locked item is in the table. -/
theorem Captured.item_of_held (h : Captured s) (hw : w ∈ s.fleet) (hp : p ∈ w.stage.held) :
    ∃ i ∈ s.tables.items, i.id = p.id := by
  obtain ⟨hread, job, hjob⟩ := read_of_held hp
  obtain ⟨i, hi, _, _, _, rfl⟩ := h.itemRead w hw job hjob p hread
  exact ⟨i, hi, rfl⟩

theorem heldPlanned_of_step (hlocks : Locks s) (h : s.step format material a = some t) :
    ∀ w ∈ t.fleet, ∀ p ∈ w.stage.held,
      ∀ i ∈ t.tables.items, i.id = p.id → i.state = .planned := by
  intro w hw p hp i' hi' hid
  rcases process_of_step hlocks.processIds h hw with
    ⟨hold, hother⟩ | ⟨d, hstage⟩ | ⟨w', action, hw', ha, hturn⟩
  · have hstep := itemStep_of_step h hlocks.entryIds hi'
    rcases hstep.moved hlocks with hsame | ⟨process, action, w', p', ha, hw', hp', hid'⟩
    · obtain ⟨i, hi, hiId⟩ := hlocks.item_of_held hold hp
      rw [← hsame i hi (hiId.trans hid.symm)]
      exact hlocks.heldPlanned w hold p hp i hi hiId
    · have hmem := mem_of_find?_eq_some hw'
      have hsame := hlocks.exclusive w hold w' hmem p hp p' hp' (hid.symm.trans hid')
      have hprocess : w'.id = process := by simpa using find?_some hw'
      exact absurd (hsame.trans hprocess) (hother process action ha)
  · rw [hstage, stageAfterLease_held] at hp
    cases hp
  · obtain ⟨_, hsame, i, hi, hiId, hplanned, _⟩ := held_of_turn hturn hp
    rw [hsame] at hi'
    obtain rfl := inj_on_of_nodup_map hlocks.itemIds hi' hi (hid.trans hiId.symm)
    exact hplanned

theorem exclusive_of_step (hlocks : Locks s) (h : s.step format material a = some t) :
    ∀ w ∈ t.fleet, ∀ w' ∈ t.fleet,
      ∀ p ∈ w.stage.held, ∀ p' ∈ w'.stage.held, p.id = p'.id → w.id = w'.id := by
  -- What a turn locks is held by no call that stands where it stood.
  have hnew {stage stage' : Stage} {action : Action}
      (hturn : Turn format material s.locked s.tables stage action t.tables stage') :
      ∀ p ∈ stage'.held, ∀ other ∈ s.fleet, ∀ p' ∈ other.stage.held, p'.id ≠ p.id := by
    intro p hp other hother p' hp'
    obtain ⟨_, _, i, _, hiId, _, hfree⟩ := held_of_turn hturn hp
    exact hiId ▸ not_locked hfree hother hp'
  intro w hw w' hw' p hp p' hp' hid
  rcases process_of_step hlocks.processIds h hw with
    ⟨hold, _⟩ | ⟨d, hstage⟩ | ⟨v, action, _, ha, hturn⟩
  · rcases process_of_step hlocks.processIds h hw' with
      ⟨hold', _⟩ | ⟨d, hstage⟩ | ⟨v', action, _, ha, hturn⟩
    · exact hlocks.exclusive w hold w' hold' p hp p' hp' hid
    · rw [hstage, stageAfterLease_held] at hp'
      cases hp'
    · exact absurd hid (hnew hturn p' hp' w hold p hp)
  · rw [hstage, stageAfterLease_held] at hp
    cases hp
  · rcases process_of_step hlocks.processIds h hw' with
      ⟨hold', _⟩ | ⟨d, hstage⟩ | ⟨v', action', _, ha', _⟩
    · exact absurd hid.symm (hnew hturn p hp w' hold' p' hp')
    · rw [hstage, stageAfterLease_held] at hp'
      cases hp'
    · rw [ha] at ha'
      exact (Label.act.inj ha').1

variable {rest : List PlannedItem} {f : JobRow → JobRow}

/-- A call that finds its item gone finds it planned no more. -/
theorem gone_of_turn {w' : Process} (hlocks : Locks s) (hw' : w' ∈ s.fleet)
    (hturn : Turn format material s.locked s.tables w'.stage action t.tables stage')
    {item : PlannedItem} (hstage' : stage' = .rotating job expected item none rest) :
    t.tables = s.tables ∧ ∀ i ∈ s.tables.items, i.id = item.id → i.state ≠ .planned := by
  generalize hstage : w'.stage = stage at hturn
  generalize hafter : t.tables = after at hturn
  cases hturn with
  | itemGone h =>
    cases hstage'
    refine ⟨rfl, ?_⟩
    intro i hi hid hplanned
    obtain ⟨i₀, hi₀, e, he, hplans, hitem⟩ := hlocks.itemRead w' hw' job (by rw [hstage]; rfl) item
      (by rw [hstage]; exact mem_cons_self)
    have hsame : i₀.id = item.id := by rw [hitem]; rfl
    obtain rfl := inj_on_of_nodup_map hlocks.itemIds hi hi₀ (hid.trans hsame.symm)
    have hfound : s.tables.items.find? (fun i => i.id == item.id &&
        (i.rotationJobId == job.id && i.state == .planned)) = some i := by
      rw [← hsame, find?_of_key hlocks.itemIds hi]
      simp [hplans.jobId, hplanned]
    have hlookup : lookup Envelope.id i.envelopeId s.tables.envelopes = some e :=
      (lookup_eq_some_iff hlocks.envelopeIds).mpr ⟨he, hplans.envelopeId.symm⟩
    rw [Tables.freshItem, hfound] at h
    simp [hlookup] at h
  | @proceed job' expected' confirmed =>
    unfold Stage.afterPlan at hstage'
    split at hstage'
    next => cases hstage'
    next => split at hstage' <;> cases hstage'
  | @nextItems job' expected' =>
    generalize s.tables.nextItems job' (fun item => s.locked item.id item.envelopeId) = batch
      at hstage'
    cases batch <;> cases hstage'
  | beginItem | terminalize | deadLetter | handOver | nothingToLease | handOverRefused
  | handOverFails | restore | materialize | planFails | commitItems | skip | rotate | itemFails
  | markFailed | finish | crash => cases hstage'

theorem own_of_turn (h : Turn format material locked db stage action db' stage')
    {item fresh : PlannedItem} (hstage' : stage' = .rotating job expected item (some fresh) rest) :
    fresh.id = item.id := by
  cases h with
  | beginItem h hfree =>
    cases hstage'
    obtain ⟨_, hid, _, _, _, _, _, rfl⟩ := freshItem_ok h
    exact hid
  | @proceed job' expected' confirmed =>
    unfold Stage.afterPlan at hstage'
    split at hstage'
    next => cases hstage'
    next => split at hstage' <;> cases hstage'
  | @nextItems job' expected' =>
    generalize db.nextItems job' (fun item => locked item.id item.envelopeId) = batch at hstage'
    cases batch <;> cases hstage'
  | itemGone | terminalize | deadLetter | handOver | nothingToLease | handOverRefused
  | handOverFails | restore | materialize | planFails | commitItems | skip | rotate | itemFails
  | markFailed | finish | crash => cases hstage'

/-- An item that is planned after a step was planned before it, or is new. -/
theorem ItemStep.wasPlanned (h : ItemStep s a i') (hplanned : i'.state = .planned) :
    (∃ i ∈ s.tables.items, i'.plan = i.plan ∧ i.state = .planned) ∨
      ∀ i ∈ s.tables.items, i.id ≠ i'.id := by
  cases h with
  | same i hi hplan hstate => exact .inl ⟨i, hi, hplan, hstate.symm.trans hplanned⟩
  | planned _ _ _ _ _ _ _ _ _ _ _ _ hfresh => exact .inr hfresh
  | skipped _ _ _ _ _ _ _ _ _ _ _ _ _ _ _ _ hstate
  | rotated _ _ _ _ _ _ _ _ _ _ _ _ _ _ _ hstate =>
    rw [hstate] at hplanned
    cases hplanned

theorem gone_of_step (hlocks : Locks s) (h : s.step format material a = some t) :
    ∀ w ∈ t.fleet, ∀ job expected item rest,
      w.stage = .rotating job expected item none rest → ∀ i ∈ t.tables.items, i.id = item.id →
        i.state ≠ .planned := by
  intro w hw job expected item rest hstage i' hi' hid hplanned
  rcases process_of_step hlocks.processIds h hw with
    ⟨hold, _⟩ | ⟨d, hnew⟩ | ⟨v, action, hv, _, hturn⟩
  · have hread := hlocks.itemRead w hold job (by rw [hstage]; rfl) item
      (by rw [hstage]; exact mem_cons_self)
    obtain ⟨i₀, hi₀, _, _, _, hitem⟩ := hread
    have hsame : i₀.id = item.id := by rw [hitem]; rfl
    rcases (itemStep_of_step h hlocks.entryIds hi').wasPlanned hplanned with
      ⟨i, hi, hplan, hwas⟩ | hfresh
    · exact hlocks.gone w hold job expected item rest hstage i hi ((id_of_plan hplan).symm.trans hid)
        hwas
    · exact hfresh i₀ hi₀ (hsame.trans hid.symm)
  · rw [hstage] at hnew
    unfold stageAfterLease at hnew
    split at hnew <;> cases hnew
  · obtain ⟨hsame, hgone⟩ := gone_of_turn hlocks (mem_of_find?_eq_some hv) hturn hstage
    exact hgone i' (hsame ▸ hi') hid hplanned

theorem ItemStep.neverFailed (h : ItemStep s a i') (hold : ∀ i ∈ s.tables.items, i.state ≠
    .failed) : i'.state ≠ .failed := by
  cases h with
  | same i hi _ hstate => exact hstate ▸ hold i hi
  | planned _ _ _ _ _ _ _ _ _ _ _ hstate _ | skipped _ _ _ _ _ _ _ _ _ _ _ _ _ _ _ _ hstate
  | rotated _ _ _ _ _ _ _ _ _ _ _ _ _ _ _ hstate =>
    rw [hstate]
    exact ItemState.noConfusion

theorem locks_of_step (hlocks : Locks s) (h : s.step format material a = some t) : Locks t := by
  refine ⟨captured_of_step hlocks.toCaptured h, heldPlanned_of_step hlocks h,
    exclusive_of_step hlocks h, gone_of_step hlocks h, ?_, ?_⟩
  · intro w hw job expected item fresh rest hstage
    rcases process_of_step hlocks.processIds h hw with
      ⟨hold, _⟩ | ⟨d, hnew⟩ | ⟨v, action, _, _, hturn⟩
    · exact hlocks.own w hold job expected item fresh rest hstage
    · rw [hstage] at hnew
      unfold stageAfterLease at hnew
      split at hnew <;> cases hnew
    · exact own_of_turn hturn hstage
  · intro i' hi'
    exact (itemStep_of_step h hlocks.entryIds hi').neverFailed hlocks.neverFailed

theorem locks_start (c : Custody) : Locks c.start where
  toCaptured := captured_start c
  heldPlanned _ h := by cases h
  exclusive _ h := by cases h
  gone _ h := by cases h
  own _ h := by cases h
  neverFailed _ h := by cases h

/-! ### Completion -/

/-- A job that becomes completed has all its items rotated or found superseded,
and no call holds one of them. -/
def CompletesSettled (s t : System) : Prop :=
  ∀ row ∈ t.tables.jobs, row.state = .completed →
    (∀ old ∈ s.tables.jobs, old.id = row.id → old.state ≠ .completed) →
      (∀ i ∈ t.tables.items, i.rotationJobId = row.id → i.state = .rotated ∨ i.state = .skipped) ∧
      ∀ w ∈ t.fleet, ∀ p ∈ w.stage.held, ∀ i ∈ t.tables.items, i.id = p.id →
        i.rotationJobId ≠ row.id

/-- The call is about to complete the job. -/
def Stage.completes (id : Nat) : Stage → Bool
  | .finishing job .completed _ => job.id == id
  | _ => false

/-- While an item of the job is planned, a batch finds one that no other call has
locked and whose envelope is still active; and nothing is planned for a job that
another call is about to complete. -/
def BatchSeesPlanned (s : System) : Label Payload → Prop
  | .act process .nextItems =>
    ∀ w ∈ s.fleet, w.id = process → ∀ job ∈ w.stage.job,
      (∃ i ∈ s.tables.items, i.rotationJobId = job.id ∧ i.state = .planned) →
        ∃ i ∈ s.tables.items, s.tables.pending job i = true ∧ s.locked i.id i.envelopeId = false
  | .act process (.materialize _) =>
    ∀ w ∈ s.fleet, w.id = process → ∀ job ∈ w.stage.job,
      (∃ other ∈ s.fleet, other.stage.completes job.id = true) →
        ∀ e ∈ s.tables.envelopes, s.tables.unplanned job e = false
  | _ => True

instance (s : System) : DecidablePred (@BatchSeesPlanned Payload s) := by
  intro a
  unfold BatchSeesPlanned
  split <;> infer_instance

/-- A call about to complete a job has left none of its items planned. -/
def Exhausted (s : System) : Prop :=
  ∀ w ∈ s.fleet, ∀ job expected, w.stage = .finishing job .completed expected →
    ∀ i ∈ s.tables.items, i.rotationJobId = job.id → i.state ≠ .planned

theorem nextItems_ne_nil {locked : Item → Bool} {i : Item} (hbatch : 0 < job.maxBatchSize)
    (hi : i ∈ db.items) (hpending : db.pending job i = true) (hfree : locked i = false) :
    db.nextItems job locked ≠ [] := by
  have hmem : i ∈ db.items.filter fun item => db.pending job item && !locked item :=
    mem_filter.mpr ⟨hi, by simp [hpending, hfree]⟩
  obtain ⟨first, hfirst⟩ := exists_mem_of_ne_nil _
    (@firstBy_ne_nil _ (fun a b : Item => a.id ≤ b.id) _ _ _ _ hbatch hmem)
  have hselected := (mem_filter.mp (mem_firstBy hfirst)).2
  simp only [Tables.pending, Bool.and_eq_true] at hselected
  obtain ⟨e, he, _⟩ := (Option.any_eq_true _ _).mp hselected.1.2
  intro hnil
  have hread : plannedItem first e ∈ db.nextItems job locked :=
    mem_filterMap.mpr ⟨first, hfirst, by rw [he]; rfl⟩
  rw [hnil] at hread
  cases hread

/-- Only an empty batch leads to completion. -/
theorem finishing_of_turn (h : Turn format material locked db stage action db' stage')
    (hstage' : stage' = .finishing job .completed expected) :
    stage = .looping job expected [] ∧ action = .nextItems ∧ db' = db ∧
      db.nextItems job (fun item => locked item.id item.envelopeId) = [] := by
  cases h with
  | @nextItems job' expected' =>
    generalize hbatch : db.nextItems job' (fun item => locked item.id item.envelopeId) = batch
      at hstage'
    cases batch with
    | nil =>
      cases hstage'
      exact ⟨rfl, rfl, rfl, hbatch⟩
    | cons => cases hstage'
  | @proceed job' expected' confirmed =>
    unfold Stage.afterPlan at hstage'
    split at hstage'
    next => cases hstage'
    next => split at hstage' <;> cases hstage'
  | terminalize | deadLetter | handOver | nothingToLease | handOverRefused | handOverFails
  | restore | materialize | planFails | commitItems | itemGone | beginItem | skip | rotate
  | itemFails | markFailed | finish | crash => cases hstage'

theorem exhausted_of_step (hlocks : Locks s) (hexhausted : Exhausted s)
    (hcond : BatchSeesPlanned s a) (h : s.step format material a = some t) : Exhausted t := by
  intro w hw job expected hstage i' hi' hjob hplanned
  rcases process_of_step hlocks.processIds h hw with
    ⟨hold, _⟩ | ⟨d, hnew⟩ | ⟨v, action, hv, ha, hturn⟩
  · cases itemStep_of_step h hlocks.entryIds hi' with
    | same i hi hplan hstate =>
      have hid := congrArg Item.rotationJobId hplan
      exact hexhausted w hold job expected hstage i hi (hid.symm.trans hjob)
        (hstate.symm.trans hplanned)
    | planned process firstId v job' e ha hv hleased he hunplanned hjob' hstate hfresh =>
      subst ha
      have hcompletes : w.stage.completes job'.id = true := by
        rw [hstage]
        exact beq_iff_eq.mpr (hjob.symm.trans hjob')
      have hv' : v.id = process := by simpa using find?_some hv
      have hnone := hcond v (mem_of_find?_eq_some hv) hv' job' (by rw [hleased]; rfl)
        ⟨w, hold, hcompletes⟩ e he
      rw [hnone] at hunplanned
      cases hunplanned
    | skipped _ _ _ _ _ _ _ _ _ _ _ _ _ _ _ _ hstate
    | rotated _ _ _ _ _ _ _ _ _ _ _ _ _ _ _ hstate =>
      rw [hstate] at hplanned
      cases hplanned
  · rw [hstage] at hnew
    unfold stageAfterLease at hnew
    split at hnew <;> cases hnew
  · obtain ⟨hlooping, rfl, hsame, hempty⟩ := finishing_of_turn hturn hstage
    rw [hsame] at hi'
    subst ha
    have hmem := mem_of_find?_eq_some hv
    have hv' : v.id = w.id := by simpa using find?_some hv
    have hread : v.stage.job = some job := by rw [hlooping]; rfl
    obtain ⟨i, hi, hpending, hfree⟩ := hcond v hmem hv' job hread ⟨i', hi', hjob, hplanned⟩
    obtain ⟨row, hrow, hrowJob⟩ := hlocks.jobRead v hmem job hread
    have hbatch : 0 < job.maxBatchSize := hrowJob ▸ hlocks.batches row hrow
    exact nextItems_ne_nil hbatch hi hpending hfree hempty

theorem row_of_updateJob {id : Nat} {p : JobRow → Bool} (h : db.updateJob now id p f = .ok db')
    (hrow' : row' ∈ db'.jobs) : row' ∈ db.jobs ∨ ∃ row ∈ db.jobs, row.id = id ∧ row' = f row := by
  rcases updateJob_ok h with rfl | ⟨_, _, _, _, _, _, _, rfl⟩
  · exact .inl hrow'
  · rcases mem_updateWhere.mp hrow' with ⟨row, hrow, hp, rfl⟩ | ⟨hrow, _⟩
    · exact .inr ⟨row, hrow, beq_iff_eq.mp (Bool.and_eq_true_iff.mp hp).1, rfl⟩
    · exact .inl hrow

/-- An update to another state completes no job. -/
theorem completed_of_updateJob {id : Nat} {p : JobRow → Bool}
    (hf : ∀ row, (f row).state ≠ .completed) (h : db.updateJob now id p f = .ok db')
    (hrow' : row' ∈ db'.jobs) (hcompleted : row'.state = .completed) : row' ∈ db.jobs := by
  rcases row_of_updateJob h hrow' with hold | ⟨row, _, _, rfl⟩
  · exact hold
  · exact absurd hcompleted (hf row)

theorem completed_of_handOver {d : DispatchRecord} {leased : Option RotationJob}
    (h : db.handOver now d = .ok (db', leased)) (hrow' : row' ∈ db'.jobs)
    (hcompleted : row'.state = .completed) : row' ∈ db.jobs := by
  unfold Tables.handOver at h
  obtain ⟨requeued, hrequeued, h⟩ := except_bind_ok h
  have hqueued (row : JobRow) : row.requeue.state ≠ .completed := JobState.noConfusion
  split at h
  next =>
    obtain ⟨rfl, _⟩ := Prod.mk.inj (Except.ok.inj h)
    exact completed_of_updateJob hqueued hrequeued hrow' hcompleted
  next =>
    obtain ⟨done, hdone, h⟩ := except_bind_ok h
    obtain ⟨rfl, _⟩ := Prod.mk.inj (Except.ok.inj h)
    have hleased (row : JobRow) : (row.lease now).state ≠ .completed := JobState.noConfusion
    have hrow := completed_of_updateJob hleased hdone hrow' hcompleted
    exact completed_of_updateJob hqueued hrequeued hrow hcompleted

theorem completed_of_turn (h : Turn format material locked db stage action db' stage')
    (hrow' : row' ∈ db'.jobs) (hcompleted : row'.state = .completed) :
    (∃ row ∈ db.jobs, row.id = row'.id ∧ row.state = .completed) ∨
      (db'.items = db.items ∧
        ∃ job expected, stage = .finishing job .completed expected ∧ row'.id = job.id) := by
  have hkept (hrow : row' ∈ db.jobs) : ∃ row ∈ db.jobs, row.id = row'.id ∧ row.state = .completed :=
    ⟨row', hrow, rfl, hcompleted⟩
  cases h with
  | terminalize h =>
    refine .inl (hkept (completed_of_updateJob ?_ h hrow' hcompleted))
    exact fun _ => JobState.noConfusion
  | markFailed h =>
    refine .inl (hkept (completed_of_updateJob ?_ h hrow' hcompleted))
    exact fun _ => JobState.noConfusion
  | deadLetter h | restore h =>
    obtain ⟨queue, _, h⟩ := except_bind_ok h
    cases h
    exact .inl (hkept hrow')
  | handOver h | nothingToLease h => exact .inl (hkept (completed_of_handOver h hrow' hcompleted))
  | materialize h =>
    obtain ⟨_, rfl⟩ := materializeItems_eq h
    rcases mem_updateWhere.mp hrow' with ⟨row, hrow, _, rfl⟩ | ⟨hrow, _⟩
    · exact .inl ⟨row, hrow, rfl, hcompleted⟩
    · exact .inl (hkept hrow)
  | rotate h =>
    obtain ⟨_, _, _, _, hrotates⟩ := rotateFresh_ok h
    obtain ⟨_, rfl⟩ := hrotates.done
    rcases mem_updateWhere.mp hrow' with ⟨row, hrow, _, rfl⟩ | ⟨hrow, _⟩
    · exact .inl ⟨row, hrow, rfl, hcompleted⟩
    · exact .inl (hkept hrow)
  | @finish job outcome expected now _ h =>
    rcases row_of_updateJob h hrow' with hold | ⟨row, _, hid, hrow⟩
    · exact .inl (hkept hold)
    · have hwrite : JobWrite db db' := by
        apply jobWrite_updateJob _ h
        exact fun _ => rfl
      obtain ⟨_, _, hframe⟩ := hwrite
      refine .inr ⟨by rw [hframe], job, expected, ?_, ?_⟩
      · have hstate : outcome.state = .completed := by
          rw [hrow] at hcompleted
          exact hcompleted
        cases outcome with
        | completed => rfl
        | dryRunComplete => cases hstate
      · rw [hrow]
        exact hid
  | handOverRefused | handOverFails | planFails | proceed | nextItems | commitItems | itemGone
  | beginItem | skip | itemFails | crash => exact .inl (hkept hrow')

/-- Only a call completes a job, at the end of its loop. -/
theorem completed_of_step (h : s.step format material a = some t)
    (hids : (s.tables.dispatch.map Dispatch.rotationJobId).Nodup) (hrow' : row' ∈ t.tables.jobs)
    (hcompleted : row'.state = .completed) :
    (∃ row ∈ s.tables.jobs, row.id = row'.id ∧ row.state = .completed) ∨
      (t.tables.items = s.tables.items ∧
        ∃ w ∈ s.fleet, ∃ job expected, w.stage = .finishing job .completed expected ∧
          row'.id = job.id) := by
  have hkept (hrow : row' ∈ s.tables.jobs) :
      ∃ row ∈ s.tables.jobs, row.id = row'.id ∧ row.state = .completed :=
    ⟨row', hrow, rfl, hcompleted⟩
  have hkeys {db : Tables} (hwrite : KeyWrite s.tables db) (ht : { s with tables := db } = t) :
      ∃ row ∈ s.tables.jobs, row.id = row'.id ∧ row.state = .completed := by
    obtain ⟨_, rows, hframe⟩ := hwrite
    rw [hframe] at ht
    subst ht
    exact hkept hrow'
  cases a with
  | registerStagedVaultKey =>
    obtain ⟨db, hdb, ht⟩ := Option.map_eq_some_iff.mp h
    exact .inl (hkeys (registerStagedVaultKey_ok hdb) ht)
  | activateStagedVaultKey =>
    obtain ⟨db, hdb, ht⟩ := Option.map_eq_some_iff.mp h
    exact .inl (hkeys (activateStagedVaultKey_ok hdb) ht)
  | reportSuspectedCompromise =>
    obtain ⟨db, hdb, ht⟩ := Option.map_eq_some_iff.mp h
    exact .inl (hkeys (reportSuspectedCompromise_ok hdb) ht)
  | createRotationJob now job =>
    obtain ⟨db, hdb, rfl⟩ := Option.map_eq_some_iff.mp h
    obtain ⟨_, _, rfl⟩ := createRotationJob_ok hdb
    rcases mem_concat.mp hrow' with hrow | rfl
    · exact .inl (hkept hrow)
    · cases hcompleted
  | insertEnvelope =>
    obtain ⟨db, hdb, rfl⟩ := Option.map_eq_some_iff.mp h
    rcases insertEnvelope_ok hdb with rfl | ⟨row, _, hrow⟩
    · exact .inl (hkept hrow')
    · obtain ⟨_, _, _, rfl⟩ := writeEnvelope_ok hrow
      exact .inl (hkept hrow')
  | leaseJob =>
    obtain ⟨_, leased, hleased, _, _⟩ := lease_ok h
    obtain ⟨queue, hafter, _, _⟩ := leaseDispatch_ok hids hleased
    rw [hafter] at hrow'
    exact .inl (hkept hrow')
  | act process action =>
    obtain ⟨w, stage', hw, hturn, _, _⟩ := act_ok h
    rcases completed_of_turn hturn hrow' hcompleted with hold | ⟨hitems, hfinishing⟩
    · exact .inl hold
    · exact .inr ⟨hitems, w, mem_of_find?_eq_some hw, hfinishing⟩

theorem completesSettled_of_step (hlocks : Locks s) (hexhausted : Exhausted s)
    (h : s.step format material a = some t) : CompletesSettled s t := by
  intro row hrow hcompleted hnew
  rcases completed_of_step h hlocks.entryIds hrow hcompleted with
    ⟨old, hold, hid, hstate⟩ | ⟨hitems, w, hw, job, expected, hstage, hid⟩
  · exact absurd hstate (hnew old hold hid)
  · have hlocks' := locks_of_step hlocks h
    have hleft : ∀ i ∈ t.tables.items, i.rotationJobId = row.id → i.state ≠ .planned := by
      intro i hi hjob
      exact hexhausted w hw job expected hstage i (hitems ▸ hi) (hjob.trans hid)
    refine ⟨?_, ?_⟩
    · intro i hi hjob
      cases hstate : i.state with
      | planned => exact absurd hstate (hleft i hi hjob)
      | failed => exact absurd hstate (hlocks'.neverFailed i hi)
      | rotated => exact .inl rfl
      | skipped => exact .inr rfl
    · intro w' hw' p hp i hi hheld hjob
      exact hleft i hi hjob (hlocks'.heldPlanned w' hw' p hp i hi hheld)

/-- In every run in which a batch sees what is planned, a job is completed only with
all its items settled. -/
theorem completes_settled (format : PayloadFormat Payload) (material : KeyMaterial) (c : Custody)
    (labels : List (Label Payload))
    (hseen : Meets (fun s a => s.step format material a) BatchSeesPlanned c.start labels) :
    Meets (fun s a => s.step format material a)
      (fun s a => ∀ t, s.step format material a = some t → CompletesSettled s t) c.start labels := by
  apply meets_of_invariant (I := fun s => Locks s ∧ Exhausted s) ?_ ?_ ?_ hseen
  · rintro s a t ⟨hlocks, hexhausted⟩ hcond h
    exact ⟨locks_of_step hlocks h, exhausted_of_step hlocks hexhausted hcond h⟩
  · rintro s a ⟨hlocks, hexhausted⟩ _ t h
    exact completesSettled_of_step hlocks hexhausted h
  · exact ⟨locks_start c, fun _ h => by cases h⟩

/-- No two calls hold an item, what is held is still planned, and no item fails. -/
theorem items_held_apart (format : PayloadFormat Payload) (material : KeyMaterial) (c : Custody)
    (labels : List (Label Payload)) :
    Always (fun s a => s.step format material a) (fun s : System =>
      (∀ w ∈ s.fleet, ∀ p ∈ w.stage.held,
        (∀ i ∈ s.tables.items, i.id = p.id → i.state = .planned) ∧
        ∀ w' ∈ s.fleet, ∀ p' ∈ w'.stage.held, p.id = p'.id → w.id = w'.id) ∧
      ∀ i ∈ s.tables.items, i.state ≠ .failed) c.start labels := by
  refine (always_of_step labels (fun _ _ _ h ht => locks_of_step h ht) (locks_start c)).mono ?_
  intro s h
  refine ⟨?_, h.neverFailed⟩
  intro w hw p hp
  refine ⟨h.heldPlanned w hw p hp, ?_⟩
  intro w' hw' p' hp'
  exact h.exclusive w hw w' hw' p hp p' hp'

/-! Two calls work on a job with one item. While the first one has the item locked
and waits for Vault, its lease runs out; the second one finds no item to rotate and
completes the job, and then Vault fails the first one. -/

def oneEnvelope : Custody where
  registries := [transitKey 1 "v1" 1 .retiring, transitKey 2 "v2" 2 .active]
  blindRegistries := []
  envelopes := [⟨5, ⟨1, .candidateProfile, 3, .identity⟩, "sealed", .vaultTransit 1, 1, "v1", none⟩]
  blindIndexes := []
  registryIds := twoKeys_nodup
  envelopeIds := by decide
  oneActive := by decide
  registered := by decide

/-- A call up to its loop. -/
def callUpToLoop (process now firstId : Nat) : List (Label String) :=
  [.leaseJob process now none (fun _ => false),
   .act process (.handOver now),
   .act process (.materialize firstId),
   .act process (.proceed true)]

def emptyBatchWhileLocked : List (Label String) :=
  [.createRotationJob 0 rewrapJob] ++ callUpToLoop 1 0 1 ++
    [.act 1 .nextItems, .act 1 .commitItems, .act 1 .beginItem] ++
      callUpToLoop 2 (leaseMicroseconds + 1) 2 ++ [.act 2 .nextItems]

def secondFinish : Label String := .act 2 (.finish (leaseMicroseconds + 2))

def System.jobStates (s : System) : List (Nat × JobState) :=
  s.tables.jobs.map fun row => (row.id, row.state)

def System.itemStates (s : System) : List (Nat × ItemState) :=
  s.tables.items.map fun i => (i.rotationJobId, i.state)

theorem completes_unsettled :
    ¬ Meets (fun s a => s.step plainText sealedStore a)
      (fun s a => ∀ t, s.step plainText sealedStore a = some t → CompletesSettled s t)
      oneEnvelope.start (emptyBatchWhileLocked ++ [secondFinish]) := by
  intro h
  have hrun : ((run (fun s a => s.step plainText sealedStore a) oneEnvelope.start
      emptyBatchWhileLocked).bind fun s => (s.step plainText sealedStore secondFinish).map
        fun t => (s.jobStates, t.jobStates, t.itemStates)) =
          some ([(7, .leased)], [(7, .completed)], [(7, .planned)]) := by
    decide
  obtain ⟨s, hs, hnext⟩ := Option.bind_eq_some_iff.mp hrun
  obtain ⟨t, ht, hstates⟩ := Option.map_eq_some_iff.mp hnext
  obtain ⟨hbefore, hafter⟩ := Prod.mk.inj hstates
  obtain ⟨hafter, hitems⟩ := Prod.mk.inj hafter
  obtain ⟨row, hrow, hstate⟩ := map_eq_singleton_iff.mp hafter
  obtain ⟨old, hold, holdState⟩ := map_eq_singleton_iff.mp hbefore
  obtain ⟨i, hi, hitem⟩ := map_eq_singleton_iff.mp hitems
  obtain ⟨hid, hcompleted⟩ := Prod.mk.inj hstate
  obtain ⟨hjob, hplanned⟩ := Prod.mk.inj hitem
  have hsettled := (Meets.append h hs t ht).1 t ht row (hrow ▸ mem_singleton.mpr rfl) hcompleted
  have hnew : ∀ old ∈ s.tables.jobs, old.id = row.id → old.state ≠ .completed := by
    intro other hother _
    rw [hold] at hother
    obtain rfl := mem_singleton.mp hother
    rw [(Prod.mk.inj holdState).2]
    exact JobState.noConfusion
  have hdone := (hsettled hnew).1 i (hi ▸ mem_singleton.mpr rfl) (hjob.trans hid.symm)
  rw [hplanned] at hdone
  rcases hdone with hdone | hdone <;> cases hdone

/-- One call that rotates the item. -/
def vaultClient : CryptoClient where
  encrypt _ _ _ := none
  decrypt _ _ _ := none
  rewrap _ _ ciphertext := some (ciphertext, 2)
  hmac _ _ _ := none
  legacyDecrypt _ _ _ _ := none

def oneCall : List (Label String) :=
  [.createRotationJob 0 rewrapJob] ++ callUpToLoop 1 0 1 ++
    [.act 1 .nextItems, .act 1 .commitItems, .act 1 .beginItem, .act 1 (.rotate 1 6 vaultClient),
     .act 1 .nextItems, .act 1 (.finish 2)]

theorem oneCall_completes_settled :
    Meets (fun s a => s.step plainText sealedStore a)
      (fun s a => ∀ t, s.step plainText sealedStore a = some t → CompletesSettled s t)
      oneEnvelope.start oneCall :=
  completes_settled plainText sealedStore oneEnvelope oneCall (by decide)

end Bis.Rotation
