import Bis.Monitoring.Scheduler

/-!
Alerts and baselines move together. A turn that writes holds its enrollment, so
the baseline that it has read is the one that its update replaces; and its alerts
and the new baseline are in one transaction.
-/

namespace Bis.Monitoring

open Bis.Relation Bis.Transition List

/-! ### What is promised -/

/-- The alerts that a sequence of baselines calls for. -/
def expectedAlerts : List MonitoringSnapshot → List PendingAlert
  | first :: next :: rest => (diffSnapshots (some first) next).alerts ++ expectedAlerts (next :: rest)
  | _ => []

theorem expectedAlerts_concat {last : MonitoringSnapshot} (next : MonitoringSnapshot)
    {baselines : List MonitoringSnapshot} (h : baselines.getLast? = some last) :
    expectedAlerts (baselines ++ [next]) =
      expectedAlerts baselines ++ (diffSnapshots (some last) next).alerts := by
  induction baselines with
  | nil => cases h
  | cons first rest ih =>
    cases rest with
    | nil =>
      cases h
      simp [expectedAlerts]
    | cons second rest =>
      have hlast : (second :: rest).getLast? = some last := by simpa using h
      have hrest := ih hlast
      simp only [cons_append, expectedAlerts, append_assoc] at hrest ⊢
      rw [hrest]

namespace System

def alertsFor (s : System) (id : Nat) : List PendingAlert :=
  (s.alerts.filter fun a => a.enrollmentId == id).map MonitoringAlert.toPendingAlert

def baselinesOf (s : System) (id : Nat) : List MonitoringSnapshot :=
  (s.baselines.filter fun b => b.1 == id).map Prod.snd

end System

/-- Each enrollment has exactly the alerts that its baselines call for, and the
last of these is the one in its row. -/
def AlertsMatch (s : System) : Prop :=
  ∀ row ∈ s.enrollments, s.alertsFor row.id = expectedAlerts (s.baselinesOf row.id) ∧
    (s.baselinesOf row.id).getLast? = some row.baselineSnapshot

/-- A step of an error run leaves every baseline as it was. -/
def ErrorRunKeeps (s t : System) : Label → Prop
  | .act process _ =>
    (∃ p ∈ s.processes, p.id = process ∧ ∃ enrollment tx rest,
      p.stage = .recording enrollment tx rest) →
        t.enrollments.map (fun row => (row.id, row.baselineSnapshot)) =
          s.enrollments.map fun row => (row.id, row.baselineSnapshot)
  | _ => True

/-! ### Transactions -/

def Statement.alert : Statement → Option PendingAlert
  | .insertAlert alert => some alert
  | _ => none

def Statement.updates : Statement → Bool
  | .updateEnrollment _ _ => true
  | _ => false

/-- How far a transaction has come that will store a snapshot: its alerts and those
still to be inserted are those of the snapshot, and the update is the last
statement. -/
structure Progress (enrollment : Enrollment) (snapshot : MonitoringSnapshot) (tx : Tx)
    (rest : List Statement) : Prop where
  alerts : tx.alerts.map MonitoringAlert.toPendingAlert ++ rest.filterMap Statement.alert =
    (diffSnapshots (some enrollment.baselineSnapshot) snapshot).alerts
  own : ∀ a ∈ tx.alerts, a.enrollmentId = enrollment.id
  update : (rest = [] ∧ ∃ u, tx.update = some u ∧ u.baseline = some snapshot) ∨
    ∃ before nextRun, rest = before ++ [.updateEnrollment (some snapshot) nextRun] ∧
      ∀ statement ∈ before, statement.updates = false

/-- A transaction that writes no alert and no baseline. -/
structure Quiet (tx : Tx) (rest : List Statement) : Prop where
  alerts : tx.alerts = []
  baseline : ∀ u, tx.update = some u → u.baseline = none
  rest : ∀ statement ∈ rest, statement.alert = none ∧
    ∀ baseline nextRun, statement = .updateEnrollment baseline nextRun → baseline = none

variable {tx tx' : Tx} {enrollment : Enrollment} {stored : Option Enrollment} {id : Nat}
  {statement : Statement}

theorem progress_start (enrollment : Enrollment) (snapshot : MonitoringSnapshot) (now : Nat)
    (halerts : tx.alerts = []) :
    Progress enrollment snapshot tx (screenedStatements enrollment snapshot now) := by
  generalize hdelta : diffSnapshots (some enrollment.baselineSnapshot) snapshot = delta
  have hinserts : (delta.alerts.map Statement.insertAlert).filterMap Statement.alert =
      delta.alerts := by
    rw [filterMap_map]
    exact filterMap_some
  refine ⟨?_, ?_, .inr ?_⟩
  · rw [halerts, hdelta]
    unfold screenedStatements
    simp only [hdelta]
    by_cases hchanged : delta.changed = true
    · simp only [hchanged, if_true, filterMap_append, filterMap_cons, Statement.alert,
        hinserts, filterMap_nil, append_nil, map_nil, nil_append]
    · have hnone : delta.alerts = [] := if_neg hchanged
      simp [hchanged, hnone, Statement.alert]
  · rw [halerts]
    intro a ha
    cases ha
  · refine ⟨_, nextRunAt enrollment.frequency now, rfl, ?_⟩
    intro statement hstatement
    rcases mem_cons.mp hstatement with rfl | hstatement
    · rfl
    · split at hstatement
      · rcases mem_concat.mp hstatement with hstatement | rfl
        · obtain ⟨_, _, rfl⟩ := mem_map.mp hstatement
          rfl
        · rfl
      · cases hstatement

theorem quiet_start (enrollment : Enrollment) (message : String) (now : Nat) :
    Quiet (begin now) (errorStatements enrollment message now) := by
  refine ⟨rfl, ?_, ?_⟩
  · intro u hu
    cases hu
  · intro statement hstatement
    simp only [errorStatements, mem_cons, not_mem_nil, or_false] at hstatement
    rcases hstatement with rfl | rfl | rfl
    · exact ⟨rfl, fun _ _ h => by cases h⟩
    · refine ⟨rfl, ?_⟩
      intro baseline nextRun h
      cases h
      rfl
    · exact ⟨rfl, fun _ _ h => by cases h⟩

/-- What a statement that is not thrown does to its transaction. -/
inductive Executed (tx : Tx) (enrollment : Enrollment) (stored : Option Enrollment) (id : Nat) :
    Statement → Tx → Prop
  /-- An error of the audit log is caught; the transaction cannot commit any more. -/
  | aborted : Executed tx enrollment stored id .writeAuditLog { tx with aborted := true }
  | inserted (run : MonitoringRun) (hgood : tx.aborted = false) :
      Executed tx enrollment stored id (.insertRun run) { tx with runs := tx.runs ++ [run] }
  | alerted (alert : PendingAlert) (hgood : tx.aborted = false) :
      Executed tx enrollment stored id (.insertAlert alert)
        { tx with alerts := tx.alerts ++
          [{ alert with
              id, tenantId := enrollment.tenantId, enrollmentId := enrollment.id
              acknowledgedBy := none }] }
  | audited (hgood : tx.aborted = false) : Executed tx enrollment stored id .writeAuditLog tx
  | updated (baseline : Option MonitoringSnapshot) (nextRun : Nat) (hgood : tx.aborted = false) :
      Executed tx enrollment stored id (.updateEnrollment baseline nextRun)
        { tx with update := some ⟨baseline, tx.startedAt, nextRun⟩ }
  | missed (baseline : Option MonitoringSnapshot) (nextRun : Nat) (hgood : tx.aborted = false)
      (hmissed : stored.any (fun row => row.status == .active) = false) :
      Executed tx enrollment stored id (.updateEnrollment baseline nextRun) tx

theorem executed_of_execute {fails : Bool}
    (h : tx.execute enrollment stored fails id statement = some tx') :
    Executed tx enrollment stored id statement tx' := by
  unfold Tx.execute at h
  split at h
  next =>
    split at h
    next haudit =>
      cases h
      exact haudit ▸ .aborted
    next => cases h
  next hfine =>
    simp only [Bool.or_eq_true, not_or, Bool.not_eq_true] at hfine
    have hgood := hfine.1
    cases statement with
    | insertRun run =>
      cases h
      exact .inserted run hgood
    | insertAlert alert =>
      cases h
      exact .alerted alert hgood
    | writeAuditLog =>
      cases h
      exact .audited hgood
    | updateEnrollment baseline nextRun =>
      simp only at h
      split at h
      next =>
        cases h
        exact .updated baseline nextRun hgood
      next hmissed =>
        cases h
        exact .missed baseline nextRun hgood (Bool.not_eq_true _ ▸ hmissed)

/-- A transaction that was aborted stays so. -/
theorem Executed.aborted_or (h : Executed tx enrollment stored id statement tx') :
    tx'.aborted = true ∨ tx.aborted = false := by
  cases h with
  | aborted => exact .inl rfl
  | inserted _ hgood | alerted _ hgood | audited hgood | updated _ _ hgood
    | missed _ _ hgood => exact .inr hgood

theorem progress_execute {snapshot : MonitoringSnapshot} {rest : List Statement}
    (hstored : statement.updates = true → stored.any (fun row => row.status == .active) = true)
    (hprogress : Progress enrollment snapshot tx (statement :: rest))
    (h : Executed tx enrollment stored id statement tx') :
    tx'.aborted = true ∨ Progress enrollment snapshot tx' rest := by
  obtain ⟨halerts, hown, hupdate⟩ := hprogress
  -- Before the update nothing else is the last statement.
  have hlater (hnot : statement.updates = false) :
      (rest = [] ∧ ∃ u, tx.update = some u ∧ u.baseline = some snapshot) ∨
        ∃ before nextRun, rest = before ++ [.updateEnrollment (some snapshot) nextRun] ∧
          ∀ statement ∈ before, statement.updates = false := by
    rcases hupdate with ⟨hnil, _⟩ | ⟨before, nextRun, hrest, hbefore⟩
    · cases hnil
    · cases before with
      | nil =>
        obtain ⟨rfl, _⟩ := List.cons.inj hrest
        cases hnot
      | cons first before =>
        obtain ⟨_, rfl⟩ := List.cons.inj hrest
        exact .inr ⟨before, nextRun, rfl, fun s hs => hbefore s (mem_cons_of_mem _ hs)⟩
  cases h with
  | aborted => exact .inl rfl
  | inserted | audited => exact .inr ⟨halerts, hown, hlater rfl⟩
  | alerted alert hgood =>
    refine .inr ⟨?_, ?_, hlater rfl⟩
    · rw [← halerts]
      simp [Statement.alert]
    · intro a ha
      rcases mem_concat.mp ha with ha | rfl
      · exact hown a ha
      · rfl
  | missed _ _ _ hmissed =>
    rw [hstored rfl] at hmissed
    cases hmissed
  | updated baseline nextRun hgood =>
    refine .inr ⟨halerts, hown, .inl ?_⟩
    rcases hupdate with ⟨hnil, _⟩ | ⟨before, next, hrest, hbefore⟩
    · cases hnil
    · cases before with
      | nil =>
        obtain ⟨hsame, rfl⟩ := List.cons.inj hrest
        obtain ⟨rfl, _⟩ := Statement.updateEnrollment.inj hsame
        exact ⟨rfl, _, rfl, rfl⟩
      | cons first before =>
        obtain ⟨rfl, _⟩ := List.cons.inj hrest
        have hnot := hbefore _ mem_cons_self
        cases hnot

theorem quiet_execute {rest : List Statement} (hquiet : Quiet tx (statement :: rest))
    (h : Executed tx enrollment stored id statement tx') : Quiet tx' rest := by
  obtain ⟨halerts, hbaseline, hrest⟩ := hquiet
  have hlater := fun s hs => hrest s (mem_cons_of_mem _ hs)
  cases h with
  | aborted | inserted | audited | missed => exact ⟨halerts, hbaseline, hlater⟩
  | alerted alert =>
    have hnone := (hrest _ mem_cons_self).1
    cases hnone
  | updated baseline nextRun =>
    refine ⟨halerts, ?_, hlater⟩
    intro u hu
    cases hu
    exact (hrest _ mem_cons_self).2 baseline nextRun rfl

/-! ### Turns -/

/-- What is known of a turn. -/
def Stage.Holds (rows : List Enrollment) : Stage → Prop
  | .screening enrollment tx =>
    enrollment ∈ rows ∧ enrollment.status = .active ∧ tx.alerts = []
  | .writing enrollment tx rest =>
    enrollment ∈ rows ∧ enrollment.status = .active ∧
      (tx.aborted = true ∨ ∃ snapshot, Progress enrollment snapshot tx rest)
  | .recording _ tx rest => Quiet tx rest
  | .failed _ _ | .done => True

/-- A row is held by one turn at most, and is then as this turn has read it. -/
structure TurnsHold (s : System) : Prop where
  processIds : (s.processes.map Process.id).Nodup
  exclusive : ∀ p ∈ s.processes, ∀ q ∈ s.processes, ∀ id, p.stage.locks id = true →
    q.stage.locks id = true → p.id = q.id
  holds : ∀ p ∈ s.processes, p.stage.Holds s.enrollments

structure Ledger (s : System) : Prop where
  enrollmentIds : (s.enrollments.map Enrollment.id).Nodup
  alertKnown : ∀ a ∈ s.alerts, a.enrollmentId ∈ s.enrollments.map Enrollment.id
  baselineKnown : ∀ b ∈ s.baselines, b.1 ∈ s.enrollments.map Enrollment.id
  alertsMatch : AlertsMatch s

structure Sound (s : System) : Prop where
  turns : TurnsHold s
  ledger : Ledger s

/-- A turn depends on the row that it has locked, and on no other. -/
theorem Stage.Holds.of_rows {rows rows' : List Enrollment} {stage : Stage} (h : stage.Holds rows)
    (hrows : ∀ row ∈ rows, stage.locks row.id = true → row ∈ rows') : stage.Holds rows' := by
  cases stage with
  | screening enrollment tx =>
    obtain ⟨hmem, hactive, halerts⟩ := h
    exact ⟨hrows enrollment hmem (beq_self_eq_true _), hactive, halerts⟩
  | writing enrollment tx rest =>
    obtain ⟨hmem, hactive, hprogress⟩ := h
    exact ⟨hrows enrollment hmem (beq_self_eq_true _), hactive, hprogress⟩
  | recording enrollment tx rest => exact h
  | failed | done => trivial

end Bis.Monitoring
