import Bis.Monitoring.Alerts

/-!
The turns of the scheduler keep what is known of the enrollments.
-/

namespace Bis.Monitoring

open Bis.Relation Bis.Transition List

variable {s t : System}

/-- What a turn does next, by the stage it is in. -/
inductive Turn (s : System) (process : Nat) : Stage → System → Prop
  | screened (enrollment : Enrollment) (tx : Tx) (snapshot : MonitoringSnapshot) (now : Nat) :
      Turn s process (.screening enrollment tx)
        (s.goOn s process (.writing enrollment tx (screenedStatements enrollment snapshot now)))
  | screeningFails (enrollment : Enrollment) (tx : Tx) (message : String) :
      Turn s process (.screening enrollment tx) (s.goOn s process (.failed enrollment message))
  | record (enrollment : Enrollment) (message : String) (now : Nat) :
      Turn s process (.failed enrollment message)
        (s.goOn s process
          (.recording enrollment (begin now) (errorStatements enrollment message now)))
  | written (enrollment : Enrollment) (tx tx' : Tx) (statement : Statement)
      (rest : List Statement) (fails : Bool) (id : Nat)
      (hexecute : s.execute process enrollment tx fails id statement = some (some tx')) :
      Turn s process (.writing enrollment tx (statement :: rest))
        (s.goOn s process (.writing enrollment tx' rest))
  | recorded (enrollment : Enrollment) (tx tx' : Tx) (statement : Statement)
      (rest : List Statement) (fails : Bool) (id : Nat)
      (hexecute : s.execute process enrollment tx fails id statement = some (some tx')) :
      Turn s process (.recording enrollment tx (statement :: rest))
        (s.goOn s process (.recording enrollment tx' rest))
  | commitWritten (enrollment : Enrollment) (tx : Tx) :
      Turn s process (.writing enrollment tx []) (s.goOn (s.commit enrollment tx) process .done)
  | commitRecorded (enrollment : Enrollment) (tx : Tx) :
      Turn s process (.recording enrollment tx []) (s.goOn (s.commit enrollment tx) process .done)
  /-- A crash, or an error that is thrown. -/
  | over (stage : Stage) : Turn s process stage (s.goOn s process .done)

variable {process id : Nat} {enrollment : Enrollment}

theorem turn_of_act {action : Action} (h : s.act process action = some t) :
    ∃ stage, lookup Process.id process s.processes = some ⟨process, stage⟩ ∧
      Turn s process stage t := by
  unfold System.act at h
  obtain ⟨p, hp, h⟩ := Option.bind_eq_some_iff.mp h
  have hid : p.id = process := by simpa using find?_some hp
  obtain ⟨id, stage⟩ := p
  obtain rfl : process = id := hid.symm
  refine ⟨stage, hp, ?_⟩
  cases action with
  | crash =>
    have ht : s.goOn s process .done = t := by
      cases stage with
      | writing enrollment tx rest => cases rest <;> exact Option.some.inj h
      | recording enrollment tx rest => cases rest <;> exact Option.some.inj h
      | screening | failed | done => exact Option.some.inj h
    exact ht ▸ .over stage
  | screened now snapshot =>
    cases stage with
    | screening enrollment tx =>
      cases h
      exact .screened enrollment tx snapshot now
    | writing | failed | recording | done => simp at h
  | screeningFails message =>
    cases stage with
    | screening enrollment tx =>
      cases h
      exact .screeningFails enrollment tx message
    | writing | failed | recording | done => simp at h
  | record now =>
    cases stage with
    | failed enrollment message =>
      cases h
      exact .record enrollment message now
    | screening | writing | recording | done => simp at h
  | execute fails id =>
    cases stage with
    | writing enrollment tx rest =>
      cases rest with
      | nil => simp at h
      | cons statement rest =>
        obtain ⟨result, hexecute, h⟩ := Option.bind_eq_some_iff.mp h
        cases h
        cases result with
        | none => exact .over _
        | some tx' => exact .written enrollment tx tx' statement rest fails id hexecute
    | recording enrollment tx rest =>
      cases rest with
      | nil => simp at h
      | cons statement rest =>
        obtain ⟨result, hexecute, h⟩ := Option.bind_eq_some_iff.mp h
        cases h
        cases result with
        | none => exact .over _
        | some tx' => exact .recorded enrollment tx tx' statement rest fails id hexecute
    | screening | failed | done => simp at h
  | commit =>
    cases stage with
    | writing enrollment tx rest =>
      cases rest with
      | nil =>
        cases h
        exact .commitWritten enrollment tx
      | cons statement rest => simp at h
    | recording enrollment tx rest =>
      cases rest with
      | nil =>
        cases h
        exact .commitRecorded enrollment tx
      | cons statement rest => simp at h
    | screening | failed | done => simp at h

/-! ### Locks -/

theorem otherLocks_eq_false : s.otherLocks process id = false ↔
    ∀ p ∈ s.processes, p.id ≠ process → p.stage.locks id = false := by
  unfold System.otherLocks
  rw [any_eq_false]
  constructor
  · intro h p hp hne
    have hnot := h p hp
    simpa [hne] using hnot
  · intro h p hp hboth
    simp only [Bool.and_eq_true, bne_iff_ne] at hboth
    rw [h p hp hboth.1] at hboth
    cases hboth.2

theorem TurnsHold.otherLocks (h : TurnsHold s) {process id : Nat} {stage : Stage}
    (hp : lookup Process.id process s.processes = some ⟨process, stage⟩)
    (hlocks : stage.locks id = true) : s.otherLocks process id = false := by
  have hmem := ((lookup_eq_some_iff h.processIds).mp hp).1
  refine otherLocks_eq_false.mpr ?_
  intro q hq hne
  by_contra hother
  exact hne (h.exclusive _ hmem q hq id hlocks (by simpa using hother)).symm

/-- One turn goes on; the rows that the others hold stay. -/
theorem TurnsHold.goOn (h : TurnsHold s) {after : System} {stage : Stage}
    (hrows : ∀ row ∈ s.enrollments, s.otherLocks process row.id = true → row ∈ after.enrollments)
    (hholds : stage.Holds after.enrollments)
    (hlocks : ∀ id, stage.locks id = true → s.otherLocks process id = false) :
    TurnsHold (s.goOn after process stage) where
  processIds := nodup_upsert h.processIds
  exclusive := by
    intro p hp q hq id hpid hqid
    rcases (mem_upsert_iff h.processIds).mp hp with rfl | ⟨hp, hpne⟩
    · rcases (mem_upsert_iff h.processIds).mp hq with rfl | ⟨hq, hqne⟩
      · rfl
      · have hfree := otherLocks_eq_false.mp (hlocks id hpid) q hq hqne
        rw [hfree] at hqid
        cases hqid
    · rcases (mem_upsert_iff h.processIds).mp hq with rfl | ⟨hq, hqne⟩
      · have hfree := otherLocks_eq_false.mp (hlocks id hqid) p hp hpne
        rw [hfree] at hpid
        cases hpid
      · exact h.exclusive p hp q hq id hpid hqid
  holds := by
    intro p hp
    rcases (mem_upsert_iff h.processIds).mp hp with rfl | ⟨hp, hne⟩
    · exact hholds
    · refine (h.holds p hp).of_rows ?_
      intro row hrow hlock
      refine hrows row hrow ?_
      exact any_eq_true.mpr ⟨p, hp, by simpa [hlock] using hne⟩

/-- Nothing is done to the rows that a turn holds. -/
theorem TurnsHold.of_rows (h : TurnsHold s) (hprocesses : t.processes = s.processes)
    (hrows : ∀ row ∈ s.enrollments, s.locked row.id = true → row ∈ t.enrollments) :
    TurnsHold t where
  processIds := hprocesses ▸ h.processIds
  exclusive := hprocesses ▸ h.exclusive
  holds := by
    rw [hprocesses]
    intro p hp
    refine (h.holds p hp).of_rows ?_
    intro row hrow hlock
    exact hrows row hrow (any_eq_true.mpr ⟨p, hp, hlock⟩)

theorem TurnsHold.claim (h : TurnsHold s) {process now : Nat} {row : Enrollment}
    (hfresh : ∀ p ∈ s.processes, p.id ≠ process) (hdue : s.due now = some row) :
    TurnsHold { s with processes := s.processes ++ [⟨process, .screening row (begin now)⟩] } := by
  have hmem := mem_filter.mp (mem_firstBy (mem_of_head? hdue))
  obtain ⟨hrow, hcond⟩ := hmem
  simp only [Bool.and_eq_true, beq_iff_eq, Bool.not_eq_true', decide_eq_true_eq] at hcond
  obtain ⟨⟨hactive, _⟩, hunlocked⟩ := hcond
  have hfree (p) (hp : p ∈ s.processes) : p.stage.locks row.id = false := by
    have hnot := any_eq_false.mp hunlocked p hp
    simpa using hnot
  refine ⟨?_, ?_, ?_⟩
  · rw [map_append]
    refine nodup_append_fresh h.processIds ?_
    intro hold
    obtain ⟨p, hp, hid⟩ := mem_map.mp hold
    exact hfresh p hp hid
  · intro p hp q hq id hpid hqid
    rcases mem_concat.mp hp with hp | rfl
    · rcases mem_concat.mp hq with hq | rfl
      · exact h.exclusive p hp q hq id hpid hqid
      · obtain rfl : row.id = id := by simpa [Stage.locks] using hqid
        rw [hfree p hp] at hpid
        cases hpid
    · obtain rfl : row.id = id := by simpa [Stage.locks] using hpid
      rcases mem_concat.mp hq with hq | rfl
      · rw [hfree q hq] at hqid
        cases hqid
      · rfl
  · intro p hp
    rcases mem_concat.mp hp with hp | rfl
    · exact h.holds p hp
    · exact ⟨hrow, hactive, rfl⟩

/-! ### The ledger -/

theorem Ledger.known_alerts (h : Ledger s) (hid : id ∉ s.enrollments.map Enrollment.id) :
    s.alertsFor id = [] := by
  unfold System.alertsFor
  rw [map_eq_nil_iff, filter_eq_nil_iff]
  intro a ha hown
  exact hid (beq_iff_eq.mp hown ▸ h.alertKnown a ha)

theorem Ledger.known_baselines (h : Ledger s) (hid : id ∉ s.enrollments.map Enrollment.id) :
    s.baselinesOf id = [] := by
  unfold System.baselinesOf
  rw [map_eq_nil_iff, filter_eq_nil_iff]
  intro b hb hown
  exact hid (beq_iff_eq.mp hown ▸ h.baselineKnown b hb)

theorem alertsFor_append {t : System} {added : List MonitoringAlert}
    (ht : t.alerts = s.alerts ++ added) (id : Nat) :
    t.alertsFor id = s.alertsFor id ++
      (added.filter fun a => a.enrollmentId == id).map MonitoringAlert.toPendingAlert := by
  unfold System.alertsFor
  rw [ht, filter_append, map_append]

theorem baselinesOf_append {t : System} {added : List (Nat × MonitoringSnapshot)}
    (ht : t.baselines = s.baselines ++ added) (id : Nat) :
    t.baselinesOf id = s.baselinesOf id ++ (added.filter fun b => b.1 == id).map Prod.snd := by
  unfold System.baselinesOf
  rw [ht, filter_append, map_append]

/-- What leaves ids and baselines as they are. -/
def KeepsBaseline (row row' : Enrollment) : Prop :=
  row'.id = row.id ∧ row'.baselineSnapshot = row.baselineSnapshot

theorem Ledger.revised (h : Ledger s) (halerts : ∀ id, t.alertsFor id = s.alertsFor id)
    (hknown : t.alerts.map MonitoringAlert.enrollmentId =
      s.alerts.map MonitoringAlert.enrollmentId)
    (hbaselines : t.baselines = s.baselines)
    (hrows : Revised KeepsBaseline s.enrollments t.enrollments) : Ledger t := by
  have hids : t.enrollments.map Enrollment.id = s.enrollments.map Enrollment.id :=
    hrows.map_eq fun _ _ hkeeps => hkeeps.1
  refine ⟨hids ▸ h.enrollmentIds, ?_, ?_, ?_⟩
  · rw [hids]
    intro a ha
    have hmem := mem_map_of_mem (f := MonitoringAlert.enrollmentId) ha
    rw [hknown] at hmem
    obtain ⟨old, hold, hsame⟩ := mem_map.mp hmem
    exact hsame ▸ h.alertKnown old hold
  · rw [hids, hbaselines]
    exact h.baselineKnown
  · intro row' hrow'
    obtain ⟨row, hrow, hid, hbaseline⟩ := hrows.exists_before hrow'
    have hmatch := h.alertsMatch row hrow
    rw [hid, hbaseline, halerts]
    unfold System.baselinesOf at hmatch ⊢
    rw [hbaselines]
    exact hmatch

theorem Ledger.of_tables (h : Ledger s) (hrows : t.enrollments = s.enrollments)
    (halerts : t.alerts = s.alerts) (hbaselines : t.baselines = s.baselines) : Ledger t := by
  refine h.revised ?_ (congrArg _ halerts) hbaselines ?_
  · intro id
    unfold System.alertsFor
    rw [halerts]
  · rw [hrows]
    exact revised_refl fun _ _ => ⟨rfl, rfl⟩

theorem Ledger.enroll (h : Ledger s) {row : Enrollment}
    (hfresh : row.id ∉ s.enrollments.map Enrollment.id) :
    Ledger { s with
      enrollments := s.enrollments ++ [row]
      baselines := s.baselines ++ [(row.id, row.baselineSnapshot)] } := by
  refine ⟨?_, ?_, ?_, ?_⟩
  · rw [map_append]
    exact nodup_append_fresh h.enrollmentIds hfresh
  · intro a ha
    rw [map_append]
    exact mem_append_left _ (h.alertKnown a ha)
  · intro b hb
    rw [map_append]
    rcases mem_concat.mp hb with hb | rfl
    · exact mem_append_left _ (h.baselineKnown b hb)
    · exact mem_concat_self
  · intro row' hrow'
    rw [baselinesOf_append rfl]
    change s.alertsFor row'.id = _ ∧ _
    rcases mem_concat.mp hrow' with hold | rfl
    · have hne : row.id ≠ row'.id := fun heq => hfresh (heq ▸ mem_map_of_mem hold)
      simpa [hne] using h.alertsMatch row' hold
    · rw [h.known_alerts hfresh, h.known_baselines hfresh]
      simp [expectedAlerts]

/-- The commit of a screening: the alerts are those of the new baseline against the
one that it replaces. -/
theorem Ledger.commit (h : Ledger s) {enrollment : Enrollment} {tx : Tx}
    {snapshot : MonitoringSnapshot} (hmem : enrollment ∈ s.enrollments)
    (haborted : tx.aborted = false) (hprogress : Progress enrollment snapshot tx []) :
    Ledger (s.commit enrollment tx) := by
  obtain ⟨halerts, hown, hupdate⟩ := hprogress
  rw [filterMap_nil, append_nil] at halerts
  obtain ⟨u, hu, hbaseline⟩ : ∃ u, tx.update = some u ∧ u.baseline = some snapshot := by
    rcases hupdate with ⟨_, hdone⟩ | ⟨before, nextRun, hrest, _⟩
    · exact hdone
    · simp at hrest
  have hfor : tx.alerts.filter (fun a => a.enrollmentId == enrollment.id) = tx.alerts := by
    refine filter_eq_self.mpr ?_
    intro a ha
    simpa using hown a ha
  have hnotFor (id : Nat) (hne : id ≠ enrollment.id) :
      tx.alerts.filter (fun a => a.enrollmentId == id) = [] := by
    rw [filter_eq_nil_iff]
    intro a ha
    rw [hown a ha]
    simpa using hne.symm
  unfold System.commit
  simp only [haborted, Bool.false_eq_true, if_false, hu, Option.bind_some, hbaseline,
    Option.map_some, Option.toList_some]
  have hids : (updateWhere (fun row => row.id == enrollment.id) u.apply s.enrollments).map
      Enrollment.id = s.enrollments.map Enrollment.id := by
    apply map_updateWhere
    exact fun _ => rfl
  refine ⟨?_, ?_, ?_, ?_⟩
  · exact hids ▸ h.enrollmentIds
  · simp only [hids]
    intro a ha
    rcases mem_append.mp ha with ha | ha
    · exact h.alertKnown a ha
    · exact hown a ha ▸ mem_map_of_mem hmem
  · simp only [hids]
    intro b hb
    rcases mem_concat.mp hb with hb | rfl
    · exact h.baselineKnown b hb
    · exact mem_map_of_mem hmem
  · intro row' hrow'
    rw [alertsFor_append rfl, baselinesOf_append rfl]
    rcases mem_updateWhere.mp hrow' with ⟨old, hold, hid, rfl⟩ | ⟨hold, hne⟩
    · obtain rfl : old = enrollment :=
        inj_on_of_nodup_map h.enrollmentIds hold hmem (beq_iff_eq.mp hid)
      obtain ⟨hmatch, hlast⟩ := h.alertsMatch old hmem
      change s.alertsFor old.id ++ (tx.alerts.filter fun a => a.enrollmentId == old.id).map _ =
        expectedAlerts (s.baselinesOf old.id ++ _) ∧ _
      rw [hfor, halerts, hmatch]
      simp [EnrollmentUpdate.apply, hbaseline, expectedAlerts_concat snapshot hlast]
    · have hne : row'.id ≠ enrollment.id := by simpa using hne
      rw [hnotFor row'.id hne]
      simpa [hne.symm] using h.alertsMatch row' hold

/-- The commit of an error run. -/
theorem Quiet.commit {enrollment : Enrollment} {tx : Tx} {rest : List Statement}
    (h : Quiet tx rest) : (s.commit enrollment tx).alerts = s.alerts ∧
      (s.commit enrollment tx).baselines = s.baselines ∧
      Revised KeepsBaseline s.enrollments (s.commit enrollment tx).enrollments := by
  have hrefl : Revised KeepsBaseline s.enrollments s.enrollments :=
    revised_refl fun row _ => ⟨rfl, rfl⟩
  unfold System.commit
  cases haborted : tx.aborted with
  | true => exact ⟨rfl, rfl, hrefl⟩
  | false =>
    cases hu : tx.update with
    | none => exact ⟨by simp [h.alerts], by simp, hrefl⟩
    | some u =>
      have hnone := h.baseline u hu
      refine ⟨by simp [h.alerts], by simp [hnone], ?_⟩
      refine revised_updateWhere ?_ fun row _ _ => ⟨rfl, rfl⟩
      intro row _ _
      exact ⟨rfl, by simp [EnrollmentUpdate.apply, hnone]⟩

/-! ### Steps -/

variable {tx tx' : Tx} {statement : Statement} {before : EnrollmentStatus → Bool}
  {f : Enrollment → Enrollment}

theorem system_execute_ok {fails : Bool}
    (h : s.execute process enrollment tx fails id statement = some (some tx')) :
    ∃ stored, Executed tx enrollment stored id statement tx' ∧
      (statement.updates = true → s.otherLocks process enrollment.id = false ∧
        stored = lookup Enrollment.id enrollment.id s.enrollments) := by
  unfold System.execute at h
  cases statement with
  | updateEnrollment baseline nextRun =>
    simp only at h
    split at h
    next => cases h
    next hfree =>
      exact ⟨_, executed_of_execute (Option.some.inj h), fun _ => ⟨by simpa using hfree, rfl⟩⟩
  | insertRun | insertAlert | writeAuditLog =>
    exact ⟨_, executed_of_execute (Option.some.inj h), fun hupdates => by cases hupdates⟩

/-- Only an update of the row makes a transaction hold it. -/
theorem execute_update {stored : Option Enrollment}
    (h : Executed tx enrollment stored id statement tx') :
    tx'.update = tx.update ∨ statement.updates = true := by
  cases h with
  | aborted | inserted | alerted | audited | missed => exact .inl rfl
  | updated => exact .inr rfl

/-- The rows that other turns hold are not the one that is updated. -/
theorem commit_rows {row : Enrollment}
    (hfree : tx.update.isSome = true → s.otherLocks process enrollment.id = false)
    (hrow : row ∈ s.enrollments) (hlocked : s.otherLocks process row.id = true) :
    row ∈ (s.commit enrollment tx).enrollments := by
  unfold System.commit
  cases tx.aborted with
  | true => exact hrow
  | false =>
    cases hu : tx.update with
    | none => exact hrow
    | some u =>
      refine mem_updateWhere_of_not hrow ?_
      intro hid
      rw [beq_iff_eq.mp hid, hfree (by simp [hu])] at hlocked
      cases hlocked

theorem TurnsHold.over (h : TurnsHold s) (process : Nat) : TurnsHold (s.goOn s process .done) :=
  h.goOn (fun _ hrow _ => hrow) trivial fun _ hlocks => by cases hlocks

theorem Sound.act (h : Sound s) {action : Action} (hact : s.act process action = some t) :
    Sound t := by
  obtain ⟨stage, hp, hturn⟩ := turn_of_act hact
  obtain ⟨hturns, hledger⟩ := h
  have hheld := hturns.holds _ ((lookup_eq_some_iff hturns.processIds).mp hp).1
  have hsame (stage' : Stage) : Ledger (s.goOn s process stage') :=
    hledger.of_tables rfl rfl rfl
  have hown {id : Nat} := @TurnsHold.otherLocks s hturns process id stage hp
  have hdone (id : Nat) (hlocks : Stage.done.locks id = true) :
      s.otherLocks process id = false := by cases hlocks
  cases hturn with
  | screened enrollment tx snapshot now =>
    obtain ⟨hmem, hactive, halerts⟩ := hheld
    refine ⟨hturns.goOn (fun _ hrow _ => hrow) ⟨hmem, hactive, .inr ⟨snapshot, ?_⟩⟩ ?_, hsame _⟩
    · exact progress_start enrollment snapshot now halerts
    · exact fun id hlocks => hown hlocks
  | screeningFails enrollment tx message =>
    refine ⟨hturns.goOn (fun _ hrow _ => hrow) trivial ?_, hsame _⟩
    intro id hlocks
    cases hlocks
  | record enrollment message now =>
    refine ⟨hturns.goOn (fun _ hrow _ => hrow) (quiet_start enrollment message now) ?_, hsame _⟩
    intro id hlocks
    simp [Stage.locks, begin] at hlocks
  | written enrollment tx tx' statement rest fails id hexecute =>
    obtain ⟨hmem, hactive, hprogress⟩ := hheld
    obtain ⟨stored, hexecuted, hupdates⟩ := system_execute_ok hexecute
    have hstored (hupdate : statement.updates = true) :
        stored.any (fun row => row.status == .active) = true := by
      rw [(hupdates hupdate).2, (lookup_eq_some_iff hledger.enrollmentIds).mpr ⟨hmem, rfl⟩]
      simp [hactive]
    refine ⟨hturns.goOn (fun _ hrow _ => hrow) ⟨hmem, hactive, ?_⟩ ?_, hsame _⟩
    · rcases hprogress with haborted | ⟨snapshot, hprogress⟩
      · rcases hexecuted.aborted_or with haborted' | hgood
        · exact .inl haborted'
        · rw [haborted] at hgood
          cases hgood
      · rcases progress_execute hstored hprogress hexecuted with haborted | hnext
        · exact .inl haborted
        · exact .inr ⟨snapshot, hnext⟩
    · exact fun id hlocks => hown hlocks
  | recorded enrollment tx tx' statement rest fails id hexecute =>
    obtain ⟨stored, hexecuted, hupdates⟩ := system_execute_ok hexecute
    refine ⟨hturns.goOn (fun _ hrow _ => hrow) (quiet_execute hheld hexecuted) ?_, hsame _⟩
    intro id' hlocks
    simp only [Stage.locks, Bool.and_eq_true, beq_iff_eq] at hlocks
    obtain ⟨rfl, hsome⟩ := hlocks
    rcases execute_update hexecuted with hkept | hupdate
    · exact hown (by simpa [Stage.locks, ← hkept] using hsome)
    · exact (hupdates hupdate).1
  | commitWritten enrollment tx =>
    obtain ⟨hmem, hactive, hprogress⟩ := hheld
    have hfree : s.otherLocks process enrollment.id = false :=
      hown (by simp [Stage.locks])
    refine ⟨hturns.goOn (fun row hrow => commit_rows (fun _ => hfree) hrow) trivial hdone, ?_⟩
    cases haborted : tx.aborted with
    | true =>
      have hcommit : s.commit enrollment tx = s := if_pos haborted
      rw [hcommit]
      exact hsame .done
    | false =>
      rcases hprogress with hend | ⟨snapshot, hprogress⟩
      · rw [haborted] at hend
        cases hend
      · obtain ⟨hids, halerts, hbaselines, hmatch⟩ := hledger.commit hmem haborted hprogress
        exact ⟨hids, halerts, hbaselines, hmatch⟩
  | commitRecorded enrollment tx =>
    have hfree (hsome : tx.update.isSome = true) : s.otherLocks process enrollment.id = false :=
      hown (by simp [Stage.locks, hsome])
    obtain ⟨halerts, hbaselines, hrows⟩ := @Quiet.commit s enrollment tx [] hheld
    refine ⟨hturns.goOn (fun row hrow => commit_rows hfree hrow) trivial hdone, ?_⟩
    refine hledger.revised ?_ (congrArg _ halerts) hbaselines hrows
    intro id
    exact congrArg (fun alerts => (alerts.filter fun a => a.enrollmentId == id).map
      MonitoringAlert.toPendingAlert) halerts
  | «over» stage => exact ⟨hturns.over process, hsame .done⟩

theorem setStatus_ok {tenantId : Nat} (h : s.setStatus id tenantId before f = some t) :
    s.locked id = false ∧
      t = { s with enrollments := updateWhere (fun row => row.id == id) f s.enrollments } := by
  unfold System.setStatus at h
  split at h
  next => cases h
  next hfree =>
    split at h
    next => cases h
    next => exact ⟨by simpa using hfree, (Option.some.inj h).symm⟩

theorem Sound.setStatus (h : Sound s) {tenantId : Nat} (hf : ∀ row, KeepsBaseline row (f row))
    (ht : s.setStatus id tenantId before f = some t) : Sound t := by
  obtain ⟨hfree, rfl⟩ := setStatus_ok ht
  constructor
  · refine h.turns.of_rows rfl ?_
    intro row hrow hlocked
    refine mem_updateWhere_of_not hrow ?_
    intro hid
    rw [beq_iff_eq.mp hid, hfree] at hlocked
    cases hlocked
  · refine h.ledger.revised (fun _ => rfl) rfl rfl ?_
    exact revised_updateWhere (fun row _ _ => hf row) fun row _ _ => ⟨rfl, rfl⟩

theorem Sound.step {label : Label} (h : Sound s) (ht : s.step label = some t) : Sound t := by
  cases label with
  | enroll row =>
    simp only [System.step] at ht
    split at ht
    next => cases ht
    next hclash =>
      cases ht
      have hfresh : row.id ∉ s.enrollments.map Enrollment.id := by
        intro hold
        obtain ⟨other, hother, hid⟩ := mem_map.mp hold
        refine hclash ?_
        rw [Bool.or_eq_true, any_eq_true]
        exact .inl ⟨other, hother, by simp [hid]⟩
      refine ⟨h.turns.of_rows rfl ?_, h.ledger.enroll hfresh⟩
      exact fun row hrow _ => mem_append_left _ hrow
  | pause | resume | cancel =>
    simp only [System.step] at ht
    refine Sound.setStatus h ?_ ht
    exact fun _ => ⟨rfl, rfl⟩
  | acknowledgeAlert id tenantId user =>
    cases ht
    refine ⟨h.turns.of_rows rfl fun _ hrow _ => hrow, ?_⟩
    refine h.ledger.revised ?_ ?_ rfl (revised_refl fun _ _ => ⟨rfl, rfl⟩)
    · intro id
      apply map_filter_updateWhere
      · exact fun _ => rfl
      · exact fun _ => rfl
    · apply map_updateWhere
      exact fun _ => rfl
  | claim process now =>
    simp only [System.step] at ht
    split at ht
    next => cases ht
    next hfresh =>
      obtain ⟨row, hdue, rfl⟩ := Option.map_eq_some_iff.mp ht
      refine ⟨h.turns.claim ?_ hdue, h.ledger.of_tables rfl rfl rfl⟩
      intro p hp hid
      exact hfresh (any_eq_true.mpr ⟨p, hp, beq_iff_eq.mpr hid⟩)
  | act process action => exact h.act ht

theorem sound_empty : Sound .empty := by
  refine ⟨⟨nodup_nil, ?_, ?_⟩, nodup_nil, ?_, ?_, ?_⟩
  all_goals
    intro row hrow
    cases hrow

theorem errorRun_keeps {label : Label} (h : Sound s) (ht : s.step label = some t) :
    ErrorRunKeeps s t label := by
  cases label with
  | act process action =>
    rintro ⟨p, hp, rfl, enrollment, tx, rest, hstage⟩
    obtain ⟨stage, hlookup, hturn⟩ := turn_of_act ht
    have hfound := (lookup_eq_some_iff h.turns.processIds).mpr ⟨hp, rfl⟩
    obtain rfl : stage = p.stage :=
      congrArg Process.stage (Option.some.inj (hlookup.symm.trans hfound))
    have hheld := h.turns.holds p hp
    rw [hstage] at hturn hheld
    cases hturn with
    | recorded => rfl
    | «over» => rfl
    | commitRecorded =>
      obtain ⟨_, _, hrows⟩ := @Quiet.commit s enrollment tx [] hheld
      refine hrows.map_eq ?_
      rintro row row' ⟨hid, hbaseline⟩
      rw [hid, hbaseline]
  | enroll | pause | resume | cancel | acknowledgeAlert | claim => trivial

/-! ### Runs -/

end Bis.Monitoring
