import Bis.Rotation.Steps

/-!
What the transactions do to the dispatch queue. An entry keeps its name, and
where it is only moved from state to state, its count of attempts grows by the
claims that are made of it.
-/

namespace Bis.Rotation

open Bis.Relation Bis.Transition List

/-- Id, reference and tenant, which a job and its entry have in common. -/
def JobRow.name (job : JobRow) : Nat × String × Int := (job.id, job.rotationRef, job.tenantId)

def Dispatch.name (d : Dispatch) : Nat × String × Int :=
  (d.rotationJobId, d.rotationRef, d.tenantId)

def DispatchRecord.name (d : DispatchRecord) : Nat × String × Int :=
  (d.rotationJobId, d.rotationRef, d.tenantId)

/-! ### Single statements -/

theorem refusal_eq_none {old new : Dispatch} :
    refusal old new = none ↔
      rejectTerminalMutation old.state new.state = none ∧ new.checked = true := by
  unfold refusal
  rw [Option.or_eq_none_iff]
  cases new.checked with
  | true => simp
  | false => simp

variable {p : JobRow → Bool} {f : JobRow → JobRow} {queue queue' : List Dispatch}
  {claims : List Nat} {db db' : Tables} {now : Nat} {job : JobRow}

theorem updateDispatch_ok {p : Dispatch → Bool} {f : Dispatch → Dispatch} :
    updateDispatch p f queue = .ok queue' ↔
      (∀ d ∈ queue, p d = true → refusal d (f d) = none) ∧ queue' = updateWhere p f queue := by
  unfold updateDispatch
  cases hfind : queue.findSome? fun d => if p d then refusal d (f d) else none with
  | none =>
    have hnone : ∀ d ∈ queue, p d = true → refusal d (f d) = none := by
      intro d hd hp
      have hd := findSome?_eq_none_iff.mp hfind d hd
      rwa [if_pos hp] at hd
    simp only [Except.ok.injEq]
    exact ⟨fun h => ⟨hnone, h.symm⟩, fun h => h.2.symm⟩
  | some message =>
    obtain ⟨d, hd, hrefused⟩ := exists_of_findSome?_eq_some hfind
    refine iff_of_false (by simp) ?_
    rintro ⟨hnone, _⟩
    split at hrefused
    next hp =>
      rw [hnone d hd hp] at hrefused
      cases hrefused
    next => cases hrefused

/-- An entry moves on; `claims` are the claims made meanwhile. -/
structure Moves (claims : List Nat) (d d' : Dispatch) : Prop where
  name : d'.name = d.name
  attempts : d'.attemptCount = d.attemptCount + claims.count d.rotationJobId
  dead : d.state = .deadLetter → d' = d
  checked : d.checked = true → d'.checked = true

theorem Moves.id {d d' : Dispatch} (h : Moves claims d d') : d'.rotationJobId = d.rotationJobId :=
  congrArg Prod.fst h.name

theorem Moves.after {a b c : Dispatch} (h : Moves [] a b) (h' : Moves claims b c) :
    Moves claims a c where
  name := h'.name.trans h.name
  attempts := by
    rw [h'.attempts, h.attempts, h.id]
    simp
  dead hdead := by
    have hsame := h.dead hdead
    rw [← hsame]
    exact h'.dead (hsame ▸ hdead)
  checked hchecked := h'.checked (h.checked hchecked)

theorem revised_after {queue'' : List Dispatch} (h : Revised (Moves []) queue queue')
    (h' : Revised (Moves claims) queue' queue'') : Revised (Moves claims) queue queue'' :=
  Revised.trans (R := Moves []) (S := Moves claims) (fun _ _ _ => Moves.after) h h'

/-- A statement that leaves the names moves the entries. -/
theorem revised_of_update {p : Dispatch → Bool} {f : Dispatch → Dispatch}
    (h : updateDispatch p f queue = .ok queue') (hname : ∀ d, (f d).name = d.name)
    (hattempts : ∀ d ∈ queue, (if p d then f d else d).attemptCount = d.attemptCount + claims.count
      d.rotationJobId) : Revised (Moves claims) queue queue' := by
  obtain ⟨haccepted, rfl⟩ := updateDispatch_ok.mp h
  apply revised_updateWhere
  · intro d hd hp
    obtain ⟨hallowed, hchecked⟩ := refusal_eq_none.mp (haccepted d hd hp)
    have hcount := hattempts d hd
    rw [if_pos hp] at hcount
    refine ⟨hname d, hcount, ?_, fun _ => hchecked⟩
    intro hdead
    rw [hdead] at hallowed
    cases hallowed
  · intro d hd hp
    have hcount := hattempts d hd
    rw [if_neg hp] at hcount
    exact ⟨rfl, hcount, fun _ => rfl, id⟩

/-- The same for one that leaves the counts too. -/
theorem moved_of_update {p : Dispatch → Bool} {f : Dispatch → Dispatch}
    (h : updateDispatch p f queue = .ok queue') (hname : ∀ d, (f d).name = d.name)
    (hattempts : ∀ d, (f d).attemptCount = d.attemptCount) : Revised (Moves []) queue queue' := by
  refine revised_of_update h hname ?_
  intro d _
  cases p d with
  | true => simpa using hattempts d
  | false => simp

/-! ### The claim of an entry -/

/-- The jobs that a result of `leaseDispatch` claims. -/
def claimsOf : Option DispatchRecord → List Nat
  | some d => if d.state = .queued then [d.rotationJobId] else []
  | none => []

variable {rotationRef : Option String} {locked : Nat → Bool} {old new : DispatchState}

theorem leaseDispatch_ok {leased : Option DispatchRecord}
    (hids : (db.dispatch.map Dispatch.rotationJobId).Nodup)
    (h : db.leaseDispatch now rotationRef locked = .ok (db', leased)) :
    ∃ queue, db' = { db with dispatch := queue } ∧
      Revised (Moves (claimsOf leased)) db.dispatch queue ∧
      ∀ d, leased = some d → ∃ e ∈ db.dispatch, e.name = d.name := by
  unfold Tables.leaseDispatch at h
  obtain ⟨recovered, hrecovered, h⟩ := except_bind_ok h
  have hfirst : Revised (Moves []) db.dispatch recovered :=
    moved_of_update hrecovered (fun _ => rfl) (fun _ => rfl)
  have hids' : (recovered.map Dispatch.rotationJobId).Nodup := by
    rw [hfirst.map_eq fun _ _ h => h.id]
    exact hids
  simp only at h
  split at h
  next hhead =>
    obtain ⟨rfl, rfl⟩ := Prod.mk.inj (Except.ok.inj h)
    exact ⟨recovered, rfl, hfirst, fun d hd => by cases hd⟩
  next d hhead =>
    have hmem := mem_firstBy (mem_of_head? hhead)
    obtain ⟨hd, hclaimable⟩ := mem_filter.mp hmem
    have hnamed : ∃ e ∈ db.dispatch, e.name = d.name := by
      obtain ⟨e, he, hmoves⟩ := hfirst.exists_before hd
      exact ⟨e, he, hmoves.name.symm⟩
    split at h
    next hstate =>
      obtain ⟨renewed, hrenewed, h⟩ := except_bind_ok h
      obtain ⟨rfl, rfl⟩ := Prod.mk.inj (Except.ok.inj h)
      have hsecond : Revised (Moves []) recovered renewed :=
        moved_of_update hrenewed (fun _ => rfl) (fun _ => rfl)
      refine ⟨renewed, rfl, revised_after hfirst hsecond, ?_⟩
      intro record hrecord
      cases hrecord
      exact hnamed
    next hstate =>
      split at h
      next hexhausted =>
        obtain ⟨terminalized, hterminalized, h⟩ := except_bind_ok h
        obtain ⟨rfl, rfl⟩ := Prod.mk.inj (Except.ok.inj h)
        have hsecond : Revised (Moves []) recovered terminalized :=
          moved_of_update hterminalized (fun _ => rfl) (fun _ => rfl)
        refine ⟨terminalized, rfl, revised_after hfirst hsecond, ?_⟩
        intro record hrecord
        cases hrecord
        exact hnamed
      next hexhausted =>
        obtain ⟨queue, hleased, h⟩ := except_bind_ok h
        obtain ⟨rfl, rfl⟩ := Prod.mk.inj (Except.ok.inj h)
        have hqueued : d.state = .queued := by
          simp only [Dispatch.claimable, Bool.and_eq_true, Bool.or_eq_true, beq_iff_eq] at hclaimable
          rcases hclaimable.1.1 with hqueued | hterminalizing
          · exact hqueued
          · exact absurd hterminalizing.1 hstate
        have hsecond : Revised (Moves [d.rotationJobId]) recovered queue := by
          refine revised_of_update hleased (fun _ => rfl) ?_
          intro e he
          by_cases hsame : e.rotationJobId = d.rotationJobId
          · obtain rfl := inj_on_of_nodup_map hids' he hd hsame
            simp [hqueued, Nat.lt_of_not_le hexhausted]
          · simp [hsame, Ne.symm hsame]
        refine ⟨queue, rfl, revised_after hfirst hsecond, ?_⟩
        intro record hrecord
        cases hrecord
        exact hnamed

/-- The first transaction of a new call. -/
theorem lease_ok {s t : System} {process : Nat}
    (h : s.lease process now rotationRef locked = some t) :
    (∀ w ∈ s.fleet, w.id ≠ process) ∧ ∃ leased,
      s.tables.leaseDispatch now rotationRef locked = .ok (t.tables, leased) ∧
      t.claims = s.claims ++ claimsOf leased ∧
      (t.fleet = s.fleet ∨
        ∃ d, leased = some d ∧ t.fleet = s.fleet ++ [⟨process, stageAfterLease d⟩]) := by
  unfold System.lease at h
  split at h
  next => cases h
  next hfree =>
    have hfree : ∀ w ∈ s.fleet, w.id ≠ process := by simpa using hfree
    obtain ⟨⟨tables, leased⟩, hleased, h⟩ := toOption_bind_eq_some h
    refine ⟨hfree, leased, ?_⟩
    cases leased with
    | none =>
      cases h
      exact ⟨hleased, by simp [claimsOf], .inl rfl⟩
    | some d =>
      cases h
      refine ⟨hleased, ?_, .inr ⟨d, rfl, rfl⟩⟩
      by_cases hd : d.state = .queued <;> simp [claimsOf, hd]

/-! ### Updates of a job -/

/-- The rows of one id are one row. -/
theorem updateJob_of_mem (hids : (db.jobs.map fun job => job.id).Nodup) (hjob : job ∈ db.jobs)
    (now : Nat) (p : JobRow → Bool) (f : JobRow → JobRow) :
    db.updateJob now job.id p f =
      if p job then
        if 12 < (f job).attemptCount then .error "pii_rotation_jobs_attempt_count_check"
        else (syncDispatchQueue now (f job) db.dispatch).map fun dispatch =>
          { db with
            jobs := updateWhere (fun other => other.id == job.id && p other) f db.jobs
            dispatch }
      else .ok db := by
  have hfind : (db.jobs.find? fun other => other.id == job.id && p other) =
      if p job then some job else none := find?_of_key hids hjob p
  unfold Tables.updateJob
  cases hp : p job with
  | false =>
    rw [hp] at hfind
    simp only [Bool.false_eq_true, if_false] at hfind ⊢
    rw [hfind]
  | true =>
    rw [hp] at hfind
    simp only [if_true] at hfind ⊢
    rw [hfind]
    simp only
    split
    · rfl
    · cases syncDispatchQueue now (f job) db.dispatch <;> rfl

theorem updateJob_ok {id : Nat} (h : db.updateJob now id p f = .ok db') :
    db' = db ∨ ∃ job ∈ db.jobs, job.id = id ∧ p job = true ∧ (f job).attemptCount ≤ 12 ∧
      ∃ queue, syncDispatchQueue now (f job) db.dispatch = .ok queue ∧
        db' = { db with
          jobs := updateWhere (fun other => other.id == id && p other) f db.jobs
          dispatch := queue } := by
  unfold Tables.updateJob at h
  cases hfind : db.jobs.find? fun job => job.id == id && p job with
  | none =>
    rw [hfind] at h
    exact .inl (Except.ok.inj h).symm
  | some job =>
    rw [hfind] at h
    simp only at h
    have hboth := find?_some hfind
    rw [Bool.and_eq_true, beq_iff_eq] at hboth
    split at h
    next => cases h
    next hroom =>
      obtain ⟨queue, hqueue, h⟩ := except_bind_ok h
      cases h
      exact .inr ⟨job, mem_of_find?_eq_some hfind, hboth.1, hboth.2, Nat.le_of_not_lt hroom,
        queue, hqueue, rfl⟩

theorem requeue_id (job : JobRow) : job.requeue.id = job.id := rfl

/-- An update of a job that it selects. -/
theorem updateJob_selected (hids : (db.jobs.map fun job => job.id).Nodup) (hjob : job ∈ db.jobs)
    (hp : p job = true) (h : db.updateJob now job.id p f = .ok db') :
    (f job).attemptCount ≤ 12 ∧ ∃ queue, syncDispatchQueue now (f job) db.dispatch = .ok queue ∧
      db' = { db with
        jobs := updateWhere (fun other => other.id == job.id && p other) f db.jobs
        dispatch := queue } := by
  rw [updateJob_of_mem hids hjob, if_pos hp] at h
  split at h
  next => cases h
  next hroom =>
    cases hqueue : syncDispatchQueue now (f job) db.dispatch with
    | error message =>
      rw [hqueue] at h
      cases h
    | ok queue =>
      rw [hqueue] at h
      cases h
      exact ⟨Nat.le_of_not_lt hroom, queue, rfl, rfl⟩

theorem mem_updateJob (hids : (db.jobs.map fun job => job.id).Nodup) (hjob : job ∈ db.jobs)
    (hp : p job = true) (h : db.updateJob now job.id p f = .ok db') : f job ∈ db'.jobs := by
  obtain ⟨_, queue, _, rfl⟩ := updateJob_selected hids hjob hp h
  exact mem_updateWhere.mpr (.inl ⟨job, hjob, by simp [hp], rfl⟩)

theorem nodup_updateJob {id : Nat} (hid : ∀ job, (f job).id = job.id)
    (hids : (db.jobs.map fun job => job.id).Nodup) (h : db.updateJob now id p f = .ok db') :
    (db'.jobs.map fun job => job.id).Nodup := by
  rcases updateJob_ok h with rfl | ⟨_, _, _, _, _, _, _, rfl⟩
  · exact hids
  · rw [map_updateWhere hid]
    exact hids

/-- A job that is closed loses its entry, unless the entry is terminal. -/
theorem closeJob_ok {id : Nat} (hid : ∀ job, (f job).id = job.id)
    (hclosed : ∀ job, (f job).state.isOpen = false) (h : db.updateJob now id p f = .ok db') :
    db' = db ∨ ∃ job ∈ db.jobs, job.id = id ∧ p job = true ∧
      db' = { db with
        jobs := updateWhere (fun other => other.id == id && p other) f db.jobs
        dispatch := db.dispatch.filter fun d => !(d.rotationJobId == id && d.state.isOpen) } := by
  rcases updateJob_ok h with rfl | ⟨job, hjob, hjobId, hp, _, queue, hqueue, rfl⟩
  · exact .inl rfl
  · refine .inr ⟨job, hjob, hjobId, hp, ?_⟩
    unfold syncDispatchQueue at hqueue
    rw [hclosed job, hid job, hjobId] at hqueue
    cases hqueue
    rfl

/-! ### The hand-over of a job -/

/-- What the trigger makes of the entries when a job stays open: the count of the
job's own entry becomes that of the job. -/
structure Overwritten (id attempts : Nat) (d d' : Dispatch) : Prop where
  name : d'.name = d.name
  checked : d.checked = true → d'.checked = true
  same : d.rotationJobId = id → d.state.isOpen = true ∧ d'.state.isOpen = true ∧
    d'.attemptCount = attempts
  other : d.rotationJobId ≠ id → d' = d

theorem isOpen_dispatchState (job : JobRow) : job.dispatchState.isOpen = true := by
  unfold JobRow.dispatchState
  split <;> rfl

/-- Only an open entry can become open. -/
theorem isOpen_of_allowed (hnew : new.isOpen = true) (h : rejectTerminalMutation old new = none) :
    old.isOpen = true := by
  cases old with
  | queued => rfl
  | leased => rfl
  | terminalizing =>
    cases new with
    | queued => cases h
    | leased => cases h
    | terminalizing => cases hnew
    | deadLetter => cases hnew
  | deadLetter => cases h

theorem allowed_of_isOpen (hold : old.isOpen = true) (hnew : new.isOpen = true) :
    rejectTerminalMutation old new = none := by
  cases old with
  | queued | leased =>
    cases new with
    | queued | leased => rfl
    | terminalizing | deadLetter => cases hnew
  | terminalizing | deadLetter => cases hold

theorem checked_overwrite (hroom : job.attemptCount ≤ 12) (d : Dispatch) :
    (job.overwrite d).checked = true := by
  unfold Dispatch.checked JobRow.overwrite JobRow.dispatchState
  split
  · simp [hroom]
  · simp [hroom]

/-- The trigger of a job that stays open and has an entry. -/
theorem sync_ok {now : Nat} {job : JobRow} {queue queue' : List Dispatch}
    (hopen : job.state.isOpen = true) (hentry : ∃ d ∈ queue, d.rotationJobId = job.id)
    (h : syncDispatchQueue now job queue = .ok queue') :
    Revised (Overwritten job.id job.attemptCount) queue queue' := by
  have hany : (queue.any fun d => d.rotationJobId == job.id) = true := by
    obtain ⟨d, hd, hid⟩ := hentry
    exact any_eq_true.mpr ⟨d, hd, beq_iff_eq.mpr hid⟩
  unfold syncDispatchQueue at h
  rw [if_pos hopen, if_pos hany] at h
  obtain ⟨haccepted, rfl⟩ := updateDispatch_ok.mp h
  apply revised_updateWhere
  · intro d hd hp
    obtain ⟨hallowed, hchecked⟩ := refusal_eq_none.mp (haccepted d hd hp)
    have hold := isOpen_of_allowed (isOpen_dispatchState job) hallowed
    exact ⟨rfl, fun _ => hchecked, fun _ => ⟨hold, isOpen_dispatchState job, rfl⟩,
      fun hne => absurd (beq_iff_eq.mp hp) hne⟩
  · intro d _ hp
    exact ⟨rfl, id, fun h => absurd (beq_iff_eq.mpr h) hp, fun _ => rfl⟩

/-- It is refused only where the entry is no longer open. -/
theorem sync_accepted {now : Nat} {job : JobRow} {queue : List Dispatch}
    (hopen : job.state.isOpen = true) (hroom : job.attemptCount ≤ 12)
    (hentry : ∃ d ∈ queue, d.rotationJobId = job.id)
    (hentries : ∀ d ∈ queue, d.rotationJobId = job.id → d.state.isOpen = true) :
    ∃ queue', syncDispatchQueue now job queue = .ok queue' := by
  have hany : (queue.any fun d => d.rotationJobId == job.id) = true := by
    obtain ⟨d, hd, hid⟩ := hentry
    exact any_eq_true.mpr ⟨d, hd, beq_iff_eq.mpr hid⟩
  unfold syncDispatchQueue
  rw [if_pos hopen, if_pos hany]
  refine ⟨_, updateDispatch_ok.mpr ⟨?_, rfl⟩⟩
  intro d hd hid
  have hold := hentries d hd (beq_iff_eq.mp hid)
  exact refusal_eq_none.mpr
    ⟨allowed_of_isOpen hold (isOpen_dispatchState job), checked_overwrite hroom d⟩

theorem Overwritten.trans {id m n : Nat} {a b c : Dispatch} (h : Overwritten id m a b)
    (h' : Overwritten id n b c) : Overwritten id n a c where
  name := h'.name.trans h.name
  checked hchecked := h'.checked (h.checked hchecked)
  same hsame := by
    have hb : b.rotationJobId = id := (congrArg Prod.fst h.name).trans hsame
    exact ⟨(h.same hsame).1, (h'.same hb).2⟩
  other hother := by
    have hb := h.other hother
    rw [← hb]
    exact h'.other (hb ▸ hother)

/-- A job that other statements have moved on; it is not opened again. -/
structure JobMoves (job job' : JobRow) : Prop where
  name : job'.name = job.name
  opened : job'.state.isOpen = true → job.state.isOpen = true
  room : job.attemptCount ≤ 12 → job'.attemptCount ≤ 12

theorem JobMoves.refl (job : JobRow) : JobMoves job job := ⟨rfl, id, id⟩

theorem JobMoves.id {job' : JobRow} (h : JobMoves job job') : job'.id = job.id :=
  congrArg Prod.fst h.name

theorem JobMoves.trans {a b c : JobRow} (h : JobMoves a b) (h' : JobMoves b c) : JobMoves a c :=
  ⟨h'.name.trans h.name, h.opened ∘ h'.opened, h'.room ∘ h.room⟩

theorem jobs_updateWhere {jobs : List JobRow} (h : ∀ job ∈ jobs, p job → JobMoves job (f job)) :
    Revised JobMoves jobs (updateWhere p f jobs) :=
  revised_updateWhere h fun job _ _ => JobMoves.refl job

/-- The job is one that the transaction leases. -/
def JobRow.takeable (now : Nat) (job : JobRow) : Bool := job.state == .queued || job.lapsed now

theorem lapsed_isOpen (h : job.lapsed now = true) : job.state = .leased := by
  unfold JobRow.lapsed at h
  rw [Bool.and_eq_true, beq_iff_eq] at h
  exact h.1

theorem takeable_isOpen (h : job.takeable now = true) : job.state.isOpen = true := by
  unfold JobRow.takeable at h
  rw [Bool.or_eq_true, beq_iff_eq] at h
  rcases h with hqueued | hlapsed
  · rw [hqueued]
    rfl
  · rw [lapsed_isOpen hlapsed]
    rfl

section HandOver

variable {db : Tables} {now : Nat} {d : DispatchRecord} {job : JobRow}

/-- What the rest of the transaction does once the job is queued. -/
def Tables.leaseQueued (db : Tables) (now : Nat) (job : JobRow) :
    Except String (Tables × Option RotationJob) := do
  let leased ← db.updateJob now job.id (fun _ => true) (JobRow.lease now)
  return (leased, some job.toRotationJob)

theorem find_queued (hids : (db.jobs.map fun job => job.id).Nodup) (hjob : job ∈ db.jobs)
    (hname : job.name = d.name) :
    (db.jobs.find? fun row => row.id == d.rotationJobId &&
      (row.rotationRef == d.rotationRef && row.tenantId == d.tenantId && row.state == .queued)) =
      if job.state = .queued then some job else none := by
  obtain ⟨hid, hrest⟩ := Prod.mk.inj hname
  obtain ⟨href, htenant⟩ := Prod.mk.inj hrest
  rw [← hid, find?_of_key hids hjob]
  simp [href, htenant]

/-- The transaction in terms of the only job that it may find. -/
theorem handOver_eq (hids : (db.jobs.map fun job => job.id).Nodup) (hjob : job ∈ db.jobs)
    (hname : job.name = d.name) :
    db.handOver now d =
      if job.lapsed now then
        (db.updateJob now job.id
          (fun row => row.tenantId == d.tenantId && row.lapsed now) JobRow.requeue).bind
            fun requeued => requeued.leaseQueued now job.requeue
      else if job.state = .queued then db.leaseQueued now job
      else .ok (db, none) := by
  obtain ⟨hid, hrest⟩ := Prod.mk.inj hname
  obtain ⟨href, htenant⟩ := Prod.mk.inj hrest
  unfold Tables.handOver
  rw [← hid]
  cases hlapsed : job.lapsed now with
  | false =>
    have hfirst : db.updateJob now job.id
        (fun row => row.tenantId == d.tenantId && row.lapsed now) JobRow.requeue = .ok db := by
      rw [updateJob_of_mem hids hjob, hlapsed, Bool.and_false]
      rfl
    rw [hfirst, hid]
    simp only [Except.bind, bind, find_queued hids hjob hname]
    split
    next h =>
      split at h
      next => cases h
      next hstate => rw [if_neg hstate]; rfl
    next row h =>
      split at h
      next hstate =>
        cases h
        rw [if_pos hstate]
        rfl
      next => cases h
  | true =>
    cases hrequeued : db.updateJob now job.id
        (fun row => row.tenantId == d.tenantId && row.lapsed now) JobRow.requeue with
    | error message => rfl
    | ok requeued =>
      have hselected : (job.tenantId == d.tenantId && job.lapsed now) = true := by
        simp [htenant, hlapsed]
      have hids' := nodup_updateJob requeue_id hids hrequeued
      have hjob' : job.requeue ∈ requeued.jobs :=
        mem_updateJob hids hjob hselected hrequeued
      have hname' : job.requeue.name = d.name := hname
      have hfound := find_queued hids' hjob' hname'
      simp only [Except.bind, bind, if_true]
      rw [hid, hfound]
      rfl

/-- The job is leased, and its entry has the count of the job. -/
structure HandedOver (job : JobRow) (db db' : Tables) : Prop where
  jobs : Revised JobMoves db.jobs db'.jobs
  dispatch : Revised (Overwritten job.id (job.attemptCount + 1)) db.dispatch db'.dispatch
  frame : db' = { db with jobs := db'.jobs, dispatch := db'.dispatch }

variable {result : Option RotationJob}

theorem leaseQueued_ok {db' : Tables} (hids : (db.jobs.map fun job => job.id).Nodup)
    (hjob : job ∈ db.jobs) (hqueued : job.state = .queued)
    (hentry : ∃ e ∈ db.dispatch, e.rotationJobId = job.id)
    (h : db.leaseQueued now job = .ok (db', result)) :
    result = some job.toRotationJob ∧ HandedOver job db db' := by
  unfold Tables.leaseQueued at h
  obtain ⟨leased, hleased, h⟩ := except_bind_ok h
  obtain ⟨rfl, rfl⟩ := Prod.mk.inj (Except.ok.inj h)
  obtain ⟨hroom, queue, hqueue, rfl⟩ := updateJob_selected hids hjob rfl hleased
  refine ⟨rfl, ?_, @sync_ok now (job.lease now) _ _ rfl hentry hqueue, rfl⟩
  apply jobs_updateWhere
  intro row hrow hid
  rw [Bool.and_true, beq_iff_eq] at hid
  obtain rfl := inj_on_of_nodup_map hids hrow hjob hid
  refine ⟨rfl, ?_, fun _ => hroom⟩
  intro _
  rw [hqueued]
  rfl

/-- The second transaction of `leaseJob` either leases the job, or there is
nothing to lease. -/
theorem handOver_ok {db' : Tables} (hids : (db.jobs.map fun job => job.id).Nodup)
    (hjob : job ∈ db.jobs) (hname : job.name = d.name)
    (hentry : job.state.isOpen = true → ∃ e ∈ db.dispatch, e.rotationJobId = job.id)
    (h : db.handOver now d = .ok (db', result)) :
    (job.takeable now = false ∧ db' = db ∧ result = none) ∨
      (job.takeable now = true ∧ result = some job.toRotationJob ∧ HandedOver job db db') := by
  rw [handOver_eq hids hjob hname] at h
  cases hlapsed : job.lapsed now with
  | false =>
    rw [hlapsed] at h
    simp only [Bool.false_eq_true, if_false] at h
    by_cases hqueued : job.state = .queued
    · rw [if_pos hqueued] at h
      have htakeable : job.takeable now = true := by simp [JobRow.takeable, hqueued]
      have hentry := hentry (takeable_isOpen htakeable)
      exact .inr ⟨htakeable, leaseQueued_ok hids hjob hqueued hentry h⟩
    · rw [if_neg hqueued] at h
      obtain ⟨rfl, rfl⟩ := Prod.mk.inj (Except.ok.inj h)
      exact .inl ⟨by simp [JobRow.takeable, hqueued, hlapsed], rfl, rfl⟩
  | true =>
    rw [hlapsed] at h
    simp only [if_true] at h
    have htakeable : job.takeable now = true := by simp [JobRow.takeable, hlapsed]
    have hleased := lapsed_isOpen hlapsed
    have hentry := hentry (takeable_isOpen htakeable)
    have hselected : (job.tenantId == d.tenantId && job.lapsed now) = true := by
      have htenant := (Prod.mk.inj (Prod.mk.inj hname).2).2
      simp [htenant, hlapsed]
    obtain ⟨requeued, hrequeued, h⟩ := except_bind_ok h
    have hjob' := mem_updateJob hids hjob hselected hrequeued
    have hids' := nodup_updateJob requeue_id hids hrequeued
    obtain ⟨hroom, queue, hqueue, rfl⟩ := updateJob_selected hids hjob hselected hrequeued
    have hfirst := @sync_ok now job.requeue _ _ rfl hentry hqueue
    have hentry' : ∃ e ∈ queue, e.rotationJobId = job.requeue.id := by
      obtain ⟨e, he, hid⟩ := hentry
      obtain ⟨e', he', hoverwritten⟩ := hfirst.exists_after he
      exact ⟨e', he', (congrArg Prod.fst hoverwritten.name).trans hid⟩
    obtain ⟨rfl, hhanded⟩ := leaseQueued_ok hids' hjob' rfl hentry' h
    refine .inr ⟨htakeable, rfl, ?_, ?_, hhanded.frame⟩
    · refine Revised.trans (R := JobMoves) (S := JobMoves) (fun _ _ _ => JobMoves.trans) ?_
        hhanded.jobs
      apply jobs_updateWhere
      intro row hrow hid
      have hid := (Bool.and_eq_true_iff.mp hid).1
      obtain rfl := inj_on_of_nodup_map hids hrow hjob (beq_iff_eq.mp hid)
      refine ⟨rfl, ?_, fun _ => hroom⟩
      intro _
      rw [hleased]
      rfl
    · exact Revised.trans (R := Overwritten job.id job.attemptCount)
        (S := Overwritten job.id (job.attemptCount + 1)) (fun _ _ _ => Overwritten.trans) hfirst
        hhanded.dispatch

theorem leaseQueued_accepted (hids : (db.jobs.map fun job => job.id).Nodup)
    (hjob : job ∈ db.jobs) (hroom : job.attemptCount < 12)
    (hentry : ∃ e ∈ db.dispatch, e.rotationJobId = job.id)
    (hopen : ∀ e ∈ db.dispatch, e.rotationJobId = job.id → e.state.isOpen = true) :
    ∃ result, db.leaseQueued now job = .ok result := by
  have hroom' : (job.lease now).attemptCount ≤ 12 := hroom
  obtain ⟨queue, hqueue⟩ := @sync_accepted now (job.lease now) db.dispatch rfl hroom' hentry hopen
  unfold Tables.leaseQueued
  rw [updateJob_of_mem hids hjob, if_pos rfl, if_neg (Nat.not_lt.mpr hroom'), hqueue]
  exact ⟨_, rfl⟩

/-- It goes through as long as the entry is open and the job may be tried again. -/
theorem handOver_accepted (hids : (db.jobs.map fun job => job.id).Nodup) (hjob : job ∈ db.jobs)
    (hname : job.name = d.name) (htakeable : job.takeable now = true)
    (hroom : job.attemptCount < 12) (hentry : ∃ e ∈ db.dispatch, e.rotationJobId = job.id)
    (hopen : ∀ e ∈ db.dispatch, e.rotationJobId = job.id → e.state.isOpen = true) :
    ∃ result, db.handOver now d = .ok result := by
  rw [handOver_eq hids hjob hname]
  cases hlapsed : job.lapsed now with
  | false =>
    have hqueued : job.state = .queued := by simpa [JobRow.takeable, hlapsed] using htakeable
    rw [if_neg Bool.false_ne_true, if_pos hqueued]
    exact leaseQueued_accepted hids hjob hroom hentry hopen
  | true =>
    have hselected : (job.tenantId == d.tenantId && job.lapsed now) = true := by
      have htenant := (Prod.mk.inj (Prod.mk.inj hname).2).2
      simp [htenant, hlapsed]
    have hroom' : job.requeue.attemptCount ≤ 12 := Nat.le_of_lt hroom
    obtain ⟨queue, hqueue⟩ :=
      @sync_accepted now job.requeue db.dispatch rfl hroom' hentry hopen
    have hrequeued := updateJob_of_mem hids hjob now
      (fun row => row.tenantId == d.tenantId && row.lapsed now) JobRow.requeue
    rw [if_pos hselected, if_neg (Nat.not_lt.mpr hroom'), hqueue] at hrequeued
    have hsync := @sync_ok now job.requeue _ _ rfl hentry hqueue
    have hids' := nodup_updateJob requeue_id hids hrequeued
    have hjob' := mem_updateJob hids hjob hselected hrequeued
    rw [if_pos rfl, hrequeued]
    apply leaseQueued_accepted hids' hjob' hroom
    · obtain ⟨e, he, hid⟩ := hentry
      obtain ⟨e', he', hoverwritten⟩ := hsync.exists_after he
      exact ⟨e', he', (congrArg Prod.fst hoverwritten.name).trans hid⟩
    · intro e' he' hid
      obtain ⟨e, he, hoverwritten⟩ := hsync.exists_before he'
      exact (hoverwritten.same ((congrArg Prod.fst hoverwritten.name).symm.trans hid)).2.1

end HandOver

end Bis.Rotation
