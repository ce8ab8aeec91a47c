import Bis.WebhookRetry.Queue

/-!
What the retry queue keeps while its workers are orderly. Each lease of a row has a
number, and one worker has it. A worker that calls the credit has the last lease of a
row that is processing, and the attempts it counts are those of the row.
-/

namespace Bis.WebhookRetry

open Bis.Relation Bis.Transition State List

variable {s t : State} {worker : Nat} {item : RetryItem} {row : Row}

/-! ### The invariant -/

def Phase.items : Phase → List RetryItem
  | .working items => items
  | .leased item _ rest => item :: rest
  | .calling item _ rest => item :: rest
  | _ => []

/-- The lease a worker has taken, by the reference of the row and its number. -/
def Phase.held : Phase → Option (String × Nat)
  | .leased item lease _ => some (item.reference, lease)
  | .calling item lease _ => some (item.reference, lease)
  | _ => none

/-- The last lease of a row, while it lasts. -/
def Row.Current (row : Row) (lease : Nat) : Prop :=
  row.item.status = .processing ∧ row.history.leases = lease

/-- What a worker knows of a row it has leased. -/
def Phase.Knows (phase : Phase) (row : Row) : Prop :=
  match phase with
  | .leased item lease _ => ofReference item row → lease ≤ row.history.leases ∧
      (row.Current lease → row.item.attempts = item.attempts ∧
        row.history.invocations = row.item.attempts)
  | .calling item lease _ => ofReference item row → row.Current lease ∧
      row.item.attempts = item.attempts ∧ row.history.invocations = row.item.attempts + 1
  | _ => True

structure Row.Ok (row : Row) : Prop where
  final : ∀ lease status, (lease, status) ∈ row.history.outcomes → status.Final →
    row.item.status = status
  owners : row.history.outcomes.Pairwise fun newer older => older.1 ≤ newer.1
  bounded : ∀ outcome ∈ row.history.outcomes, outcome.1 ≤ row.history.leases
  attempts : row.item.attempts ≤ maxAttempts
  unfinished : row.item.attempts = maxAttempts → row.item.status.Final
  counted : row.history.invocations = row.item.attempts ∨
    (row.item.status = .processing ∧ row.history.invocations = row.item.attempts + 1)

/-- The row an item was read from is still there. -/
def Known (rows : List Row) (item : RetryItem) : Prop :=
  ∃ row ∈ rows, row.item.id = item.id ∧ row.item.reference = item.reference

structure Inv (s : State) : Prop where
  ids : (s.rows.map fun row => row.item.id).Nodup
  references : (s.rows.map fun row => row.item.reference).Nodup
  ok : ∀ row ∈ s.rows, row.Ok
  known : ∀ worker, ∀ item ∈ (s.workers worker).items, Known s.rows item
  knows : ∀ worker, ∀ row ∈ s.rows, (s.workers worker).Knows row
  unique : ∀ worker other lease, (s.workers worker).held = some lease →
    (s.workers other).held = some lease → worker = other

theorem inv_start : Inv start where
  ids := nodup_nil
  references := nodup_nil
  ok _ hrow := by cases hrow
  known _ _ hitem := by cases hitem
  knows _ _ hrow := by cases hrow
  unique _ _ _ hheld := by cases hheld

theorem Row.Ok.lawful (h : row.Ok) : row.Lawful where
  final := h.final
  owners := h.owners
  invocations := by
    rcases h.counted with hcounted | ⟨hprocessing, hcounted⟩
    · rw [hcounted]
      exact h.attempts
    · have hunfinished : row.item.attempts ≠ maxAttempts := by
        intro hmax
        rcases h.unfinished hmax with hfinal | hfinal <;> cases hprocessing.symm.trans hfinal
      have hattempts := h.attempts
      omega

theorem Inv.lawful (h : Inv s) : Lawful s := fun row hrow => (h.ok row hrow).lawful

/-! ### Steps -/

@[simp]
theorem rows_setWorker (s : State) (worker : Nat) (phase : Phase) :
    (s.setWorker worker phase).rows = s.rows := rfl

@[simp]
theorem workers_setWorker_self (s : State) (worker : Nat) (phase : Phase) :
    (s.setWorker worker phase).workers worker = phase := by
  simp [setWorker]

theorem workers_setWorker_of_ne (s : State) {worker other : Nat} (phase : Phase)
    (h : other ≠ worker) : (s.setWorker worker phase).workers other = s.workers other := by
  simp [setWorker, h]

/-- An update of rows that keeps their keys. -/
structure KeepsKeys (change : Row → Row) : Prop where
  id : ∀ row, (change row).item.id = row.item.id
  reference : ∀ row, (change row).item.reference = row.item.reference

theorem KeepsKeys.ofReference {change : Row → Row} (h : KeepsKeys change) (item : RetryItem)
    (row : Row) : ofReference item (change row) = ofReference item row := by
  unfold WebhookRetry.ofReference
  rw [h.reference]

theorem Known.updateWhere {rows : List Row} (h : Known rows item) {p : Row → Bool}
    {change : Row → Row} (hkeys : KeepsKeys change) : Known (updateWhere p change rows) item := by
  obtain ⟨row, hrow, hid, hreference⟩ := h
  by_cases hp : p row
  · exact ⟨change row, mem_updateWhere.mpr (.inl ⟨row, hrow, hp, rfl⟩),
      by rw [hkeys.id, hid], by rw [hkeys.reference, hreference]⟩
  · exact ⟨row, mem_updateWhere_of_not hrow hp, hid, hreference⟩

variable {phase : Phase} {rest : List RetryItem}

/-- One worker changes some rows and goes on to a phase. -/
theorem Inv.change (h : Inv s) {p : Row → Bool} {change : Row → Row} (hkeys : KeepsKeys change)
    (hok : ∀ row ∈ s.rows, p row → (change row).Ok)
    (hitems : ∀ item ∈ phase.items, item ∈ (s.workers worker).items ∨ Known s.rows item)
    (hothers : ∀ other ≠ worker, ∀ row ∈ s.rows, p row → (s.workers other).Knows row → (s.workers
      other).Knows (change row)) (hself : ∀ row ∈ updateWhere p change s.rows, phase.Knows row)
    (hunique : ∀ other ≠ worker, ∀ lease, phase.held = some lease → (s.workers other).held ≠ some
      lease) : Inv (setWorker { s with rows := updateWhere p change s.rows } worker phase) := by
  constructor
  case ids =>
    rw [rows_setWorker, map_updateWhere hkeys.id]
    exact h.ids
  case references =>
    rw [rows_setWorker, map_updateWhere hkeys.reference]
    exact h.references
  case ok =>
    intro row hrow
    rcases mem_updateWhere.mp hrow with ⟨old, hold, hp, rfl⟩ | ⟨hold, _⟩
    · exact hok old hold hp
    · exact h.ok row hold
  case known =>
    intro other item hitem
    rcases eq_or_ne other worker with rfl | hne
    · rw [workers_setWorker_self] at hitem
      rcases hitems item hitem with hold | hknown
      · exact (h.known other item hold).updateWhere hkeys
      · exact hknown.updateWhere hkeys
    · rw [workers_setWorker_of_ne _ _ hne] at hitem
      exact (h.known other item hitem).updateWhere hkeys
  case knows =>
    intro other row hrow
    rcases eq_or_ne other worker with rfl | hne
    · rw [workers_setWorker_self]
      exact hself row hrow
    · rw [workers_setWorker_of_ne _ _ hne]
      rcases mem_updateWhere.mp hrow with ⟨old, hold, hp, rfl⟩ | ⟨hold, _⟩
      · exact hothers other hne old hold hp (h.knows other old hold)
      · exact h.knows other row hold
  case unique =>
    intro first second lease hfirst hsecond
    rcases eq_or_ne first worker with rfl | hne
    · rcases eq_or_ne second first with rfl | hne'
      · rfl
      · rw [workers_setWorker_self] at hfirst
        rw [workers_setWorker_of_ne _ _ hne'] at hsecond
        exact absurd hsecond (hunique second hne' lease hfirst)
    · rw [workers_setWorker_of_ne _ _ hne] at hfirst
      rcases eq_or_ne second worker with rfl | hne'
      · rw [workers_setWorker_self] at hsecond
        exact absurd hfirst (hunique first hne lease hsecond)
      · rw [workers_setWorker_of_ne _ _ hne'] at hsecond
        exact h.unique first second lease hfirst hsecond

theorem Phase.knows_of_unheld (h : phase.held = none) (row : Row) : phase.Knows row := by
  cases phase with
  | leased => cases h
  | calling => cases h
  | _ => trivial

/-- A worker that holds no lease after its step leaves the rows alone. -/
theorem Inv.setWorker (h : Inv s) (hheld : phase.held = none)
    (hitems : ∀ item ∈ phase.items, item ∈ (s.workers worker).items ∨ Known s.rows item) :
    Inv (s.setWorker worker phase) := by
  have hnone : updateWhere (fun _ => false) id s.rows = s.rows := by simp [updateWhere]
  have hchanged : Inv (State.setWorker { s with rows := updateWhere (fun _ => false) id s.rows }
      worker phase) := by
    apply h.change ⟨fun _ => rfl, fun _ => rfl⟩
    · intro row hrow hp
      cases hp
    · exact hitems
    · intro other hne row hrow hp
      cases hp
    · intro row hrow
      exact Phase.knows_of_unheld hheld row
    · intro other hne lease hlease
      cases hheld.symm.trans hlease
  rw [hnone] at hchanged
  exact hchanged

theorem Inv.advance (h : Inv s) (ms : Nat) : Inv { s with now := s.now + ms } where
  ids := h.ids
  references := h.references
  ok := h.ok
  known := h.known
  knows := h.knows
  unique := h.unique

/-- The row an item was read from is the only one of its reference. -/
theorem Inv.ofReference_of_id (h : Inv s) (hknown : Known s.rows item) (hrow : row ∈ s.rows) :
    row.item.id = item.id ↔ ofReference item row = true := by
  obtain ⟨source, hsource, hid, hreference⟩ := hknown
  unfold ofReference
  rw [beq_iff_eq]
  constructor
  · intro hsame
    have heq : row = source := inj_on_of_nodup_map h.ids hrow hsource (hsame.trans hid.symm)
    rw [heq, hreference]
  · intro hsame
    have heq : row = source := inj_on_of_nodup_map h.references hrow hsource
      (hsame.trans hreference.symm)
    rw [heq, hid]

theorem ok_enqueued (id : Nat) (reference : String) (nextRetryAt : Nat) (error : Option String) :
    Row.Ok ⟨⟨id, reference, 0, nextRetryAt, .pending, none, error⟩, {}⟩ where
  final _ _ hmem := by cases hmem
  owners := List.Pairwise.nil
  bounded _ hmem := by cases hmem
  attempts := Nat.zero_le _
  unfinished hmax := by cases hmax
  counted := .inl rfl

/-- A new row is none that a worker knows. -/
theorem Inv.enqueue (h : Inv s) {fresh : Row} (hid : ∀ row ∈ s.rows, row.item.id ≠ fresh.item.id)
    (hreference : ∀ row ∈ s.rows, row.item.reference ≠ fresh.item.reference) (hok : fresh.Ok) :
    Inv { s with rows := s.rows ++ [fresh] } := by
  constructor
  case ids =>
    change ((s.rows ++ [fresh]).map _).Nodup
    rw [map_append]
    apply nodup_append_fresh h.ids
    rw [mem_map]
    rintro ⟨row, hrow, hsame⟩
    exact hid row hrow hsame
  case references =>
    change ((s.rows ++ [fresh]).map _).Nodup
    rw [map_append]
    apply nodup_append_fresh h.references
    rw [mem_map]
    rintro ⟨row, hrow, hsame⟩
    exact hreference row hrow hsame
  case ok =>
    intro row hrow
    rcases mem_concat.mp hrow with hold | rfl
    · exact h.ok row hold
    · exact hok
  case known =>
    intro worker item hitem
    obtain ⟨row, hrow, hkeys⟩ := h.known worker item hitem
    exact ⟨row, mem_append_left _ hrow, hkeys⟩
  case knows =>
    intro worker row hrow
    rcases mem_concat.mp hrow with hold | rfl
    · exact h.knows worker row hold
    · have hstranger : ∀ item ∈ (s.workers worker).items, ¬ ofReference item row := by
        intro item hitem hof
        obtain ⟨source, hsource, _, hsame⟩ := h.known worker item hitem
        exact hreference source hsource (hsame.trans (beq_iff_eq.mp hof).symm)
      change (s.workers worker).Knows row
      cases hphase : s.workers worker with
      | leased item lease rest | calling item lease rest =>
        rw [hphase] at hstranger
        exact fun hof => absurd hof (hstranger item mem_cons_self)
      | _ => trivial
  case unique => exact h.unique

/-! ### The statements of a worker -/

theorem expired_processing {now : Nat} (h : expired now row) : row.item.status = .processing := by
  unfold expired at h
  rw [Bool.and_eq_true, decide_eq_true_eq] at h
  exact h.1

theorem due_pending {now : Nat} (h : due now row) : row.item.status = .pending := by
  unfold due at h
  rw [Bool.and_eq_true, decide_eq_true_eq] at h
  exact h.1

/-- A row that is not final has no final outcome. -/
theorem Row.Ok.not_final (h : row.Ok) (hstatus : ¬ row.item.status.Final) {lease : Nat}
    {status : Status} (hmem : (lease, status) ∈ row.history.outcomes) : ¬ status.Final := by
  intro hfinal
  rw [h.final lease status hmem hfinal] at hstatus
  exact hstatus hfinal

theorem Row.Ok.attempts_lt (h : row.Ok) (hstatus : ¬ row.item.status.Final) :
    row.item.attempts < maxAttempts :=
  Nat.lt_of_le_of_ne h.attempts fun hmax => hstatus (h.unfinished hmax)

theorem not_final_processing : ¬ Status.Final .processing := by
  rintro (h | h) <;> cases h

theorem not_final_pending : ¬ Status.Final .pending := by
  rintro (h | h) <;> cases h

theorem keepsKeys_recover : KeepsKeys Row.recover := ⟨fun _ => rfl, fun _ => rfl⟩

theorem keepsKeys_lease (now : Nat) : KeepsKeys (Row.lease now) := ⟨fun _ => rfl, fun _ => rfl⟩

theorem keepsKeys_invoke : KeepsKeys Row.invoke := ⟨fun _ => rfl, fun _ => rfl⟩

/-- A row that is not final may change its status and its lease. -/
theorem Row.Ok.reopen (h : row.Ok) {changed : Row} (hopen : ¬ row.item.status.Final)
    (houtcomes : changed.history.outcomes = row.history.outcomes)
    (hleases : row.history.leases ≤ changed.history.leases)
    (hattempts : changed.item.attempts = row.item.attempts)
    (hcounted : changed.history.invocations = changed.item.attempts) : changed.Ok where
  final lease status hmem hfinal := by
    rw [houtcomes] at hmem
    exact absurd hfinal (h.not_final hopen hmem)
  owners := by
    rw [houtcomes]
    exact h.owners
  bounded outcome hmem := by
    rw [houtcomes] at hmem
    exact Nat.le_trans (h.bounded outcome hmem) hleases
  attempts := by
    rw [hattempts]
    exact h.attempts
  unfinished hmax := by
    rw [hattempts] at hmax
    exact absurd (h.unfinished hmax) hopen
  counted := .inl hcounted

theorem Row.Ok.recover (h : row.Ok) (hstatus : row.item.status = .processing)
    (hcounted : row.history.invocations = row.item.attempts) : row.recover.Ok := by
  have hopen : ¬ row.item.status.Final := by
    rw [hstatus]
    exact not_final_processing
  exact h.reopen hopen rfl (Nat.le_refl _) rfl hcounted

/-- Leases without a call under way are taken back. -/
theorem Inv.recover (h : Inv s)
    (hcounted : ∀ row ∈ s.rows, expired s.now row →
      row.history.invocations = row.item.attempts) :
    Inv (State.setWorker { s with rows := updateWhere (expired s.now) Row.recover s.rows } worker
      .recovered) := by
  apply h.change keepsKeys_recover
  · intro row hrow hexpired
    exact (h.ok row hrow).recover (expired_processing hexpired) (hcounted row hrow hexpired)
  · intro item hitem
    cases hitem
  · intro other _ row hrow hexpired hknows
    cases hphase : s.workers other with
    | leased item lease rest =>
      rw [hphase] at hknows
      intro hof
      refine ⟨(hknows hof).1, ?_⟩
      rintro ⟨hprocessing, _⟩
      cases hprocessing
    | calling item lease rest =>
      rw [hphase] at hknows
      intro hof
      obtain ⟨_, _, hcalled⟩ := hknows hof
      have hcount := hcounted row hrow hexpired
      omega
    | _ => trivial
  · intro row _
    trivial
  · intro other _ lease hheld
    cases hheld

/-- No call is under way for a pending row. -/
theorem Row.Ok.counted_of_pending (h : row.Ok) (hstatus : row.item.status = .pending) :
    row.history.invocations = row.item.attempts := by
  rcases h.counted with hcounted | ⟨hprocessing, _⟩
  · exact hcounted
  · cases hstatus.symm.trans hprocessing

theorem Row.Ok.lease (h : row.Ok) (hstatus : row.item.status = .pending) (now : Nat) :
    (row.lease now).Ok := by
  have hopen : ¬ row.item.status.Final := by
    rw [hstatus]
    exact not_final_pending
  exact h.reopen hopen rfl (Nat.le_succ _) rfl (h.counted_of_pending hstatus)

/-- The leases of a row that workers have were given before. -/
theorem Inv.le_leases (h : Inv s) (hrow : row ∈ s.rows) {lease : Nat}
    (hheld : (s.workers worker).held = some (row.item.reference, lease)) :
    lease ≤ row.history.leases := by
  have hknows := h.knows worker row hrow
  cases hphase : s.workers worker with
  | leased item _ rest =>
    rw [hphase] at hheld hknows
    obtain ⟨hreference, rfl⟩ := Prod.mk.inj (Option.some.inj hheld)
    exact (hknows (beq_iff_eq.mpr hreference.symm)).1
  | calling item _ rest =>
    rw [hphase] at hheld hknows
    obtain ⟨hreference, rfl⟩ := Prod.mk.inj (Option.some.inj hheld)
    exact Nat.le_of_eq (hknows (beq_iff_eq.mpr hreference.symm)).1.2.symm
  | idle | recovered | working =>
    rw [hphase] at hheld
    cases hheld

theorem held_leased (hof : ofReference item row) (lease : Nat) (rest : List RetryItem) :
    (Phase.leased item lease rest).held = some (row.item.reference, lease) := by
  rw [beq_iff_eq.mp hof]
  rfl

theorem held_calling (hof : ofReference item row) (lease : Nat) (rest : List RetryItem) :
    (Phase.calling item lease rest).held = some (row.item.reference, lease) := by
  rw [beq_iff_eq.mp hof]
  rfl

theorem eq_of_ofReference (h : Inv s) {other : Row} (hrow : row ∈ s.rows) (hother : other ∈ s.rows)
    (hof : ofReference item row) (hof' : ofReference item other) : other = row :=
  inj_on_of_nodup_map h.references hother hrow
    ((beq_iff_eq.mp hof').trans (beq_iff_eq.mp hof).symm)

/-- The row of a reference that is leased: the lease is new, and nobody else has it. -/
theorem Inv.lease (h : Inv s) {rest : List RetryItem}
    (hworker : s.workers worker = .working (item :: rest)) (hrow : row ∈ s.rows)
    (hleasable : leasable s.now item row)
    (hfresh : row.item.attempts = item.attempts) :
    Inv (State.setWorker
      { s with rows := updateWhere (leasable s.now item) (Row.lease s.now) s.rows } worker
      (.leased item (row.history.leases + 1) rest)) := by
  have hitems : ∀ other ∈ item :: rest, other ∈ (s.workers worker).items := by
    intro other hother
    rw [hworker]
    exact hother
  have hknown : Known s.rows item := h.known worker item (hitems item mem_cons_self)
  have hsource : ∀ other ∈ s.rows, leasable s.now item other → other = row := by
    intro other hother hsame
    unfold leasable at hsame hleasable
    rw [Bool.and_eq_true, beq_iff_eq] at hsame hleasable
    exact inj_on_of_nodup_map h.ids hother hrow (hsame.1.trans hleasable.1.symm)
  have hof : ofReference item row = true := by
    unfold leasable at hleasable
    rw [Bool.and_eq_true, beq_iff_eq] at hleasable
    exact (h.ofReference_of_id hknown hrow).mp hleasable.1
  have hpending : row.item.status = .pending := by
    unfold leasable at hleasable
    rw [Bool.and_eq_true] at hleasable
    exact due_pending hleasable.2
  have hreference : row.item.reference = item.reference := beq_iff_eq.mp hof
  apply h.change (keepsKeys_lease s.now)
  · intro other hother hsame
    obtain rfl := hsource other hother hsame
    exact (h.ok other hother).lease hpending s.now
  · intro other hother
    exact .inl (hitems other hother)
  · intro other _ changed hchanged hsame hknows
    obtain rfl := hsource changed hchanged hsame
    cases hphase : s.workers other with
    | leased item' lease rest' =>
      rw [hphase] at hknows
      intro hof'
      have hle := (hknows hof').1
      refine ⟨Nat.le_succ_of_le hle, ?_⟩
      rintro ⟨_, hlast⟩
      change changed.history.leases + 1 = lease at hlast
      omega
    | calling item' lease rest' =>
      rw [hphase] at hknows
      intro hof'
      cases hpending.symm.trans (hknows hof').1.1
    | _ => trivial
  · intro changed hchanged
    rcases mem_updateWhere.mp hchanged with ⟨old, hold, hsame, rfl⟩ | ⟨hold, hnot⟩
    · obtain rfl := hsource old hold hsame
      intro _
      exact ⟨Nat.le_refl _, fun _ => ⟨hfresh, (h.ok old hold).counted_of_pending hpending⟩⟩
    · intro hof'
      obtain rfl := eq_of_ofReference h hrow hold hof hof'
      exact absurd hleasable hnot
  · intro other _ lease hlease hheld
    cases hlease
    rw [← hreference] at hheld
    have hle := h.le_leases hrow hheld
    omega

theorem Row.Ok.invoke (h : row.Ok) (hstatus : row.item.status = .processing)
    (hcounted : row.history.invocations = row.item.attempts) : row.invoke.Ok where
  final := h.final
  owners := h.owners
  bounded := h.bounded
  attempts := h.attempts
  unfinished := h.unfinished
  counted := by
    refine .inr ⟨hstatus, ?_⟩
    change row.history.invocations + 1 = row.item.attempts + 1
    rw [hcounted]

/-- A call under the last lease of the row. -/
theorem Inv.credit (h : Inv s) {lease : Nat} (hworker : s.workers worker = .leased item lease rest)
    (hcurrent : ∀ row ∈ s.rows, ofReference item row → row.Current lease) :
    Inv (State.setWorker { s with rows := updateWhere (ofReference item) Row.invoke s.rows } worker
      (.calling item lease rest)) := by
  have hknown : ∀ row ∈ s.rows, ofReference item row →
      row.item.attempts = item.attempts ∧ row.history.invocations = row.item.attempts := by
    intro row hrow hof
    have hknows := h.knows worker row hrow
    rw [hworker] at hknows
    exact (hknows hof).2 (hcurrent row hrow hof)
  have hheld : (s.workers worker).held = some (item.reference, lease) := by
    rw [hworker]
    rfl
  have hstranger : ∀ other ≠ worker, ∀ row ∈ s.rows, ofReference item row →
      ∀ lease', (s.workers other).held = some (row.item.reference, lease') →
        ¬ row.Current lease' := by
    intro other hne row hrow hof lease' hheld' hcurrent'
    have hsame : lease' = lease := hcurrent'.2.symm.trans (hcurrent row hrow hof).2
    rw [hsame, beq_iff_eq.mp hof] at hheld'
    exact hne (h.unique other worker _ hheld' hheld)
  apply h.change keepsKeys_invoke
  · intro row hrow hof
    exact (h.ok row hrow).invoke (hcurrent row hrow hof).1 (hknown row hrow hof).2
  · intro other hother
    rw [hworker]
    exact .inl hother
  · intro other hne row hrow hof hknows
    have hnot := hstranger other hne row hrow hof
    cases hphase : s.workers other with
    | leased item' lease' rest' =>
      rw [hphase] at hknows hnot
      intro hof'
      refine ⟨(hknows hof').1, ?_⟩
      intro hcurrent'
      exact absurd hcurrent' (hnot lease' (held_leased hof' lease' rest'))
    | calling item' lease' rest' =>
      rw [hphase] at hknows hnot
      intro hof'
      exact absurd (hknows hof').1 (hnot lease' (held_calling hof' lease' rest'))
    | _ => trivial
  · intro changed hchanged
    rcases mem_updateWhere.mp hchanged with ⟨old, hold, hof, rfl⟩ | ⟨hold, hnot⟩
    · intro _
      obtain ⟨hattempts, hcounted⟩ := hknown old hold hof
      refine ⟨hcurrent old hold hof, hattempts, ?_⟩
      change old.history.invocations + 1 = old.item.attempts + 1
      rw [hcounted]
    · intro hof'
      exact absurd hof' hnot
  · intro other hne lease' hlease' hheld'
    cases hlease'
    exact hne (h.unique other worker _ hheld' hheld)

theorem failed_spec (attempts nextRetry : Nat) (ultimate error : String) (item : RetryItem) :
    (item.failed attempts nextRetry ultimate error).id = item.id ∧
      (item.failed attempts nextRetry ultimate error).reference = item.reference ∧
      (item.failed attempts nextRetry ultimate error).attempts = attempts ∧
      ((item.failed attempts nextRetry ultimate error).status.Final ∨
        (item.failed attempts nextRetry ultimate error).status = .pending ∧
          attempts < maxAttempts) := by
  unfold RetryItem.failed
  split
  next => exact ⟨rfl, rfl, rfl, .inl (.inr rfl)⟩
  next hmax => exact ⟨rfl, rfl, rfl, .inr ⟨rfl, Nat.lt_of_not_le hmax⟩⟩

/-- What a settled row comes to. -/
theorem settle_spec (attempts : Nat) (result : Result) (nextRetry : Nat) (item : RetryItem) :
    (item.settle attempts result nextRetry).id = item.id ∧
      (item.settle attempts result nextRetry).reference = item.reference ∧
      (item.settle attempts result nextRetry).attempts = attempts ∧
      ((item.settle attempts result nextRetry).status.Final ∨
        (item.settle attempts result nextRetry).status = .pending ∧ attempts < maxAttempts) := by
  cases result with
  | recorded => exact ⟨rfl, rfl, rfl, .inl (.inl rfl)⟩
  | notRecorded | threw => exact failed_spec _ _ _ _ _

theorem keepsKeys_settle (attempts lease : Nat) (result : Result) (nextRetry : Nat) :
    KeepsKeys (Row.settle attempts lease result nextRetry) where
  id row := (settle_spec attempts result nextRetry row.item).1
  reference row := (settle_spec attempts result nextRetry row.item).2.1

/-- The outcome of the last lease is written to a row that has no final one. -/
theorem Row.Ok.settle (h : row.Ok) {lease : Nat} (hcurrent : row.Current lease)
    (hcounted : row.history.invocations = row.item.attempts + 1) (result : Result)
    (nextRetry : Nat) : (row.settle (row.item.attempts + 1) lease result nextRetry).Ok := by
  obtain ⟨hprocessing, hlast⟩ := hcurrent
  have hopen : ¬ row.item.status.Final := by
    rw [hprocessing]
    exact not_final_processing
  obtain ⟨_, _, hattempts, hstatus⟩ :=
    settle_spec (row.item.attempts + 1) result nextRetry row.item
  constructor
  case final =>
    intro written status hmem hfinal
    rcases mem_cons.mp hmem with hnew | hold
    · cases hnew
      rfl
    · exact absurd hfinal (h.not_final hopen hold)
  case owners =>
    apply pairwise_cons.mpr
    refine ⟨?_, h.owners⟩
    intro older holder
    rw [← hlast]
    exact h.bounded older holder
  case bounded =>
    intro outcome hmem
    rcases mem_cons.mp hmem with rfl | hold
    · exact Nat.le_of_eq hlast.symm
    · exact h.bounded outcome hold
  case attempts =>
    change (row.item.settle (row.item.attempts + 1) result nextRetry).attempts ≤ maxAttempts
    rw [hattempts]
    exact h.attempts_lt hopen
  case unfinished =>
    intro hmax
    change (row.item.settle (row.item.attempts + 1) result nextRetry).attempts = maxAttempts at hmax
    rcases hstatus with hfinal | ⟨_, hless⟩
    · exact hfinal
    · omega
  case counted =>
    left
    change row.history.invocations =
      (row.item.settle (row.item.attempts + 1) result nextRetry).attempts
    rw [hattempts, hcounted]

/-- The worker that called the credit settles the row. -/
theorem Inv.settle (h : Inv s) {lease : Nat} (hworker : s.workers worker = .calling item lease rest)
    (result : Result) (nextRetry : Nat) :
    Inv (State.setWorker { s with
      rows := updateWhere (ofReference item)
        (Row.settle (item.attempts + 1) lease result nextRetry) s.rows } worker
      (.working rest)) := by
  have hcalling : ∀ row ∈ s.rows, ofReference item row → row.Current lease ∧
      row.item.attempts = item.attempts ∧
        row.history.invocations = row.item.attempts + 1 := by
    intro row hrow hof
    have hknows := h.knows worker row hrow
    rw [hworker] at hknows
    exact hknows hof
  apply h.change (keepsKeys_settle _ _ _ _)
  · intro row hrow hof
    obtain ⟨hcurrent, hattempts, hcounted⟩ := hcalling row hrow hof
    rw [← hattempts]
    exact (h.ok row hrow).settle hcurrent hcounted result nextRetry
  · intro other hother
    rw [hworker]
    exact .inl (mem_cons_of_mem _ hother)
  · intro other hne row hrow hof hknows
    obtain ⟨_, hreference, _, hstatus⟩ := settle_spec (item.attempts + 1) result nextRetry row.item
    cases hphase : s.workers other with
    | leased item' lease' rest' =>
      rw [hphase] at hknows
      intro hof'
      rw [(keepsKeys_settle _ _ _ _).ofReference] at hof'
      refine ⟨(hknows hof').1, ?_⟩
      rintro ⟨hprocessing, _⟩
      change (row.item.settle (item.attempts + 1) result nextRetry).status = .processing
        at hprocessing
      rcases hstatus with hfinal | ⟨hpending, _⟩
      · rw [hprocessing] at hfinal
        exact absurd hfinal not_final_processing
      · cases hpending.symm.trans hprocessing
    | calling item' lease' rest' =>
      rw [hphase] at hknows
      intro hof'
      rw [(keepsKeys_settle _ _ _ _).ofReference] at hof'
      have hsame : lease' = lease :=
        (hknows hof').1.2.symm.trans (hcalling row hrow hof).1.2
      have hheld : (s.workers worker).held = some (row.item.reference, lease) := by
        rw [hworker]
        exact held_calling hof lease rest
      have hheld' : (s.workers other).held = some (row.item.reference, lease) := by
        rw [hphase, hsame]
        exact held_calling hof' lease rest'
      exact absurd (h.unique other worker _ hheld' hheld) hne
    | _ => trivial
  · intro row _
    trivial
  · intro other _ lease' hheld
    cases hheld

theorem inv_step {label : Label} (h : Inv s) (horderly : Orderly s label)
    (hstep : processRetryQueue s label = some t) : Inv t := by
  cases label with
  | advance ms =>
    cases hstep
    exact h.advance ms
  | enqueueFailedWebhook id reference error clock draw =>
    simp only [processRetryQueue] at hstep
    split at hstep
    next => cases hstep
    next hid =>
      split at hstep
      next =>
        cases hstep
        exact h
      next hreference =>
        cases hstep
        rw [Bool.not_eq_true, any_eq_false] at hid hreference
        apply h.enqueue
        · intro row hrow hsame
          exact hid row hrow (beq_iff_eq.mpr hsame)
        · intro row hrow hsame
          exact hreference row hrow (beq_iff_eq.mpr hsame)
        · exact ok_enqueued id reference _ _
  | recover worker =>
    simp only [processRetryQueue] at hstep
    split at hstep
    next =>
      cases hstep
      exact h.recover horderly
    next => cases hstep
  | select worker items =>
    simp only [processRetryQueue] at hstep
    split at hstep
    next =>
      split at hstep
      next hselects =>
        cases hstep
        apply h.setWorker rfl
        intro item hitem
        obtain ⟨row, hrow, rfl⟩ := mem_map.mp (hselects.listed item hitem)
        exact .inr ⟨row, (mem_filter.mp hrow).1, rfl, rfl⟩
      next => cases hstep
    next => cases hstep
  | lease worker =>
    simp only [processRetryQueue] at hstep
    split at hstep
    next item rest hworker =>
      split at hstep
      next =>
        cases hstep
        apply h.setWorker rfl
        intro other hother
        rw [hworker]
        exact .inl (mem_cons_of_mem _ hother)
      next row hfind =>
        cases hstep
        have hrow := mem_of_find?_eq_some hfind
        have hleasable := find?_some hfind
        exact h.lease hworker hrow hleasable (horderly item rest hworker row hrow hleasable)
    next => cases hstep
  | creditTenantAccount worker =>
    simp only [processRetryQueue] at hstep
    split at hstep
    next item lease rest hworker =>
      cases hstep
      exact h.credit hworker (horderly item lease rest hworker)
    next => cases hstep
  | settle worker result clock draw =>
    simp only [processRetryQueue] at hstep
    split at hstep
    next item lease rest hworker =>
      cases hstep
      exact h.settle hworker result _
    next => cases hstep
  | finish worker =>
    simp only [processRetryQueue] at hstep
    split at hstep
    next =>
      cases hstep
      apply h.setWorker rfl
      intro item hitem
      cases hitem
    next => cases hstep
  | crash worker =>
    cases hstep
    apply h.setWorker rfl
    intro item hitem
    cases hitem

/-! ### Whole runs -/

/-- In a run of orderly steps a final status stays, the credit is called at most seven
times for a row, and no outcome follows that of a later lease. -/
theorem lawful_of_orderly {labels : List Label}
    (horderly : Meets processRetryQueue Orderly start labels) :
    Always processRetryQueue Lawful start labels := by
  have hinv : Always processRetryQueue Inv start labels :=
    always_of_meets (fun s label t h hC hstep => inv_step h hC hstep) inv_start horderly
  exact hinv.mono fun s h => h.lawful

/-- A webhook that failed at the time 0. -/
def failedWebhook : RetryItem :=
  { id := 1, reference := "BIS-TOP-1", attempts := 0, nextRetryAt := 1000, status := .pending,
    leasedAt := none, lastError := some "TigerBeetle is unavailable" }

/-- What a worker does up to the call of the credit. -/
def calls (worker : Nat) : List Label :=
  [.recover worker, .select worker [failedWebhook], .lease worker, .creditTenantAccount worker]

def enqueued : List Label :=
  [.enqueueFailedWebhook 1 "BIS-TOP-1" "TigerBeetle is unavailable" 0 0, .advance 1000]

theorem credited_lawful :
    Always processRetryQueue Lawful start
      (enqueued ++ calls 0 ++ [.settle 0 .recorded 1000 0]) := by
  apply lawful_of_orderly
  apply Meets.cons rfl trivial
  apply Meets.cons rfl trivial
  apply Meets.cons rfl
  · intro row hrow hexpired
    obtain rfl := mem_singleton.mp hrow
    cases hexpired
  apply Meets.cons rfl trivial
  apply Meets.cons rfl
  · intro item rest hworker row hrow _
    obtain rfl := mem_singleton.mp hrow
    cases hworker
    rfl
  apply Meets.cons rfl
  · intro item lease rest hworker row hrow _
    obtain rfl := mem_singleton.mp hrow
    cases hworker
    exact ⟨rfl, rfl⟩
  apply Meets.cons rfl trivial
  trivial

/-- A worker is slow, its lease goes to a second one that completes the row, and then
its own failure makes the row pending again. -/
theorem slow_worker_not_lawful :
    ¬ Always processRetryQueue Lawful start
      (enqueued ++ calls 0 ++ [.advance 300001] ++ calls 1 ++
        [.settle 1 .recorded 301001 0,
          .settle 0 (.threw "TigerBeetle is unavailable") 301001 0]) := by
  intro halways
  have hrun : ∃ finish row, run processRetryQueue start
      (enqueued ++ calls 0 ++ [.advance 300001] ++ calls 1 ++
        [.settle 1 .recorded 301001 0,
          .settle 0 (.threw "TigerBeetle is unavailable") 301001 0]) = some finish ∧
      finish.rows = [row] ∧ row.item.status = .pending ∧
        row.history.outcomes = [(1, .pending), (2, .completed)] :=
    ⟨_, _, rfl, rfl, rfl, rfl⟩
  obtain ⟨finish, row, hfinish, hrows, hpending, houtcomes⟩ := hrun
  have hrow : row ∈ finish.rows := by
    rw [hrows]
    exact mem_singleton_self row
  have hcompleted : (2, Status.completed) ∈ row.history.outcomes := by
    rw [houtcomes]
    simp
  have hstatus := (halways.finish hfinish row hrow).final 2 .completed hcompleted (.inl rfl)
  cases hpending.symm.trans hstatus

end Bis.WebhookRetry
