import Bis.Gateway.Outbox

/-!
What the outbox keeps. An event is turned away only for a stored one of its topic
and identity. Every row is settled, pending or leased, each by one cycle at most,
and what a cycle leaves leased when it ends early is known. A pending row is
passed over by a lease only in favour of a whole batch that comes before it.
-/

namespace Bis.Gateway

open Bis.Json Bis.Relation Bis.Transition List Function

variable {Sealed : Type*} {services : Services Sealed} {s t : Outbox Sealed}

/-! ### Statements -/

theorem leased_next (events : List (OutboxEvent Sealed)) :
    (Cycle.next events).leased = events.map OutboxEvent.id := by
  cases events with
  | nil | cons => rfl

/-- The same event at a later time, not leased anew. -/
def Row.Later (row row' : Row Sealed) : Prop :=
  (∃ payload state attemptCount availableAt,
    row' = { row with payload, state, attemptCount, availableAt }) ∧
  (row'.state = .dispatching → row.state = .dispatching)

theorem Row.Later.refl (row : Row Sealed) : row.Later row :=
  ⟨⟨row.payload, row.state, row.attemptCount, row.availableAt, rfl⟩, fun h => h⟩

variable {row : Row Sealed} {work : Work Sealed} {event : OutboxEvent Sealed} {now process : Nat}
  {change : Row Sealed → Row Sealed} {rest : List (OutboxEvent Sealed)}

theorem Row.Later.id_eq {row' : Row Sealed} (h : row.Later row') : row'.id = row.id := by
  obtain ⟨⟨payload, state, attemptCount, availableAt, rfl⟩, _⟩ := h
  rfl

theorem later_of_statement (h : work.statement event now = some change) (row : Row Sealed) :
    row.Later (change row) := by
  cases work with
  | opening | publishing => cases h
  | failing =>
    cases h
    simp only [markFailed]
    split
    · exact ⟨⟨_, _, _, _, rfl⟩, nofun⟩
    · exact ⟨⟨_, _, _, _, rfl⟩, nofun⟩
  | rotating payload =>
    cases h
    dsimp only
    split
    · exact ⟨⟨_, _, _, _, rfl⟩, fun hstate => hstate⟩
    · exact .refl row
  | confirming =>
    cases h
    dsimp only
    split
    · exact ⟨⟨_, _, _, _, rfl⟩, nofun⟩
    · exact .refl row

/-- Its own row is leased after the statement if the loop stays with the event. -/
theorem leased_after (h : work.statement event now = some change) (rest : List (OutboxEvent
    Sealed)) :
    ((work.after event rest).leased = event.id :: rest.map OutboxEvent.id ∧
      ∀ row, row.state = .dispatching → (change row).state = .dispatching) ∨
    ((work.after event rest).leased = rest.map OutboxEvent.id ∧
      ∀ row, (change row).state ≠ .dispatching) := by
  cases work with
  | opening | publishing => cases h
  | failing =>
    cases h
    refine .inr ⟨leased_next rest, ?_⟩
    intro row
    simp only [markFailed]
    split
    · exact nofun
    · exact nofun
  | rotating payload =>
    cases h
    refine .inl ⟨rfl, ?_⟩
    intro row hstate
    simp [hstate]
  | confirming =>
    cases h
    refine .inr ⟨leased_next rest, ?_⟩
    intro row
    dsimp only
    split
    · exact nofun
    · assumption

/-! ### The invariant -/

structure OutboxOk (services : Services Sealed) (s : Outbox Sealed) : Prop where
  ids : (s.rows.map Row.id).Nodup
  keys : ∀ row ∈ s.rows, row.idempotencyKey =
    row.topic ++ ":" ++ identity services.formatFloat row.uuid row.event
  once : ∀ p, (s.cycles p).leased.Nodup
  apart : ∀ p q, p ≠ q → ∀ id ∈ (s.cycles p).leased, id ∉ (s.cycles q).leased
  held : ∀ p, ∀ id ∈ (s.cycles p).leased, ∃ row ∈ s.rows, row.id = id ∧ row.state = .dispatching
  accounted : ∀ row ∈ s.rows, row.state = .dispatching →
    (∃ p, row.id ∈ (s.cycles p).leased) ∨ row.id ∈ s.cutShort

theorem outboxOk_empty : OutboxOk services (.empty : Outbox Sealed) where
  ids := nodup_nil
  keys row hrow := by cases hrow
  once p := nodup_nil
  apart p q _ id hid := by cases hid
  held p id hid := by cases hid
  accounted row hrow := by cases hrow

/-- A pending row is not leased. -/
theorem OutboxOk.not_leased (h : OutboxOk services s) (hrow : row ∈ s.rows)
    (hpending : row.state = .pending) (p : Nat) : row.id ∉ (s.cycles p).leased := by
  intro hleased
  obtain ⟨other, hother, hid, hstate⟩ := h.held p row.id hleased
  obtain rfl := inj_on_of_nodup_map h.ids hother hrow hid
  rw [hpending] at hstate
  cases hstate

/-- Rows change later and one cycle gives leases up. -/
theorem OutboxOk.of_later (h : OutboxOk services s) (hids : t.rows.map Row.id = s.rows.map Row.id)
    (hrows : ∀ row' ∈ t.rows, ∃ row ∈ s.rows, row.Later row' ∧ (row'.state = .dispatching → row.id ∈
      (s.cycles process).leased → row.id ∈ (t.cycles process).leased ∨ row.id ∈ t.cutShort))
    (hheld : ∀ row ∈ s.rows, row.state = .dispatching → ∀ p, row.id ∈ (t.cycles p).leased → ∃ row' ∈
      t.rows, row'.id = row.id ∧ row'.state = .dispatching)
    (hothers : ∀ p, p ≠ process → t.cycles p = s.cycles p)
    (hsub : (t.cycles process).leased.Sublist (s.cycles process).leased)
    (hcut : ∀ id ∈ s.cutShort, id ∈ t.cutShort) : OutboxOk services t := by
  have hleased : ∀ p, (t.cycles p).leased.Sublist (s.cycles p).leased := by
    intro p
    rcases eq_or_ne p process with rfl | hne
    · exact hsub
    · rw [hothers p hne]
  constructor
  · rw [hids]
    exact h.ids
  · intro row' hrow'
    obtain ⟨row, hrow, ⟨⟨payload, state, attemptCount, availableAt, rfl⟩, _⟩, _⟩ := hrows row' hrow'
    exact h.keys row hrow
  · exact fun p => (h.once p).sublist (hleased p)
  · exact fun p q hne id hp hq => h.apart p q hne id ((hleased p).subset hp) ((hleased q).subset hq)
  · intro p id hid
    obtain ⟨row, hrow, rfl, hstate⟩ := h.held p id ((hleased p).subset hid)
    exact hheld row hrow hstate p hid
  · intro row' hrow' hstate
    obtain ⟨row, hrow, hlater, hkept⟩ := hrows row' hrow'
    rw [hlater.id_eq]
    rcases h.accounted row hrow (hlater.2 hstate) with ⟨p, hp⟩ | hshort
    · rcases eq_or_ne p process with rfl | hne
      · exact (hkept hstate hp).imp (fun hin => ⟨p, hin⟩) fun hin => hin
      · exact .inl ⟨p, (hothers p hne).symm ▸ hp⟩
    · exact .inr (hcut row.id hshort)

theorem stored_row {wall nonce : Nat} {rowId uuid topic : String} {payload : Value}
    (h : enqueue services s now wall nonce rowId uuid topic payload = .stored row) :
    row.id ∉ s.rows.map Row.id ∧ row.state = .pending ∧ row.availableAt = now ∧
      row.idempotencyKey = row.topic ++ ":" ++ identity services.formatFloat row.uuid row.event := by
  simp only [enqueue] at h
  split at h
  next => cases h
  next =>
    split at h
    next => cases h
    next =>
      split at h
      next => cases h
      next =>
        split at h
        next => cases h
        next hfresh =>
          obtain rfl := Enqueued.stored.inj h
          refine ⟨?_, rfl, rfl, stableEventKey_encode _ uuid topic payload⟩
          intro hmem
          obtain ⟨other, hother, hid⟩ := mem_map.mp hmem
          exact hfresh (any_eq_true.mpr ⟨other, hother, beq_iff_eq.mpr hid⟩)

theorem OutboxOk.of_stored (h : OutboxOk services s) (now : Nat)
    (hfresh : row.id ∉ s.rows.map Row.id) (hpending : row.state = .pending)
    (hkey : row.idempotencyKey = row.topic ++ ":" ++ identity services.formatFloat row.uuid
      row.event) : OutboxOk services { s with rows := s.rows ++ [row], clock := now } := by
  constructor
  · change ((s.rows ++ [row]).map Row.id).Nodup
    rw [map_append]
    exact nodup_append_fresh h.ids hfresh
  · intro other hother
    rcases mem_concat.mp hother with hold | rfl
    · exact h.keys other hold
    · exact hkey
  · exact h.once
  · exact h.apart
  · intro p id hid
    obtain ⟨other, hother, hdispatching⟩ := h.held p id hid
    exact ⟨other, mem_append_left _ hother, hdispatching⟩
  · intro other hother hstate
    rcases mem_concat.mp hother with hold | rfl
    · exact h.accounted other hold hstate
    · rw [hpending] at hstate
      cases hstate

/-! ### Leases -/

theorem mem_batch {locked : String → Bool} (h : row ∈ s.batch now locked) :
    row ∈ s.rows ∧ row.state = .pending := by
  obtain ⟨hrow, hcond⟩ := mem_filter.mp (mem_firstBy h)
  simp only [Bool.and_eq_true, decide_eq_true_eq] at hcond
  exact ⟨hrow, hcond.1.1⟩

theorem batch_subperm (s : Outbox Sealed) (now : Nat) (locked : String → Bool) :
    (s.batch now locked).Subperm s.rows :=
  (firstBy_subperm _ _).trans filter_sublist.subperm

theorem OutboxOk.batch_nodup (h : OutboxOk services s) (now : Nat) (locked : String → Bool) :
    ((s.batch now locked).map Row.id).Nodup := by
  obtain ⟨rows, hperm, hsub⟩ := batch_subperm s now locked
  exact (hperm.map Row.id).nodup_iff.mp (h.ids.sublist (hsub.map Row.id))

theorem cycles_lease (s : Outbox Sealed) (now : Nat) (locked : String → Bool) {p : Nat}
    (hne : p ≠ process) : (s.lease process now locked).cycles p = s.cycles p :=
  update_of_ne hne _ _

theorem cycles_cut (s : Outbox Sealed) {p : Nat} (hne : p ≠ process) :
    (s.cut process).cycles p = s.cycles p :=
  update_of_ne hne _ _

theorem leased_cut (s : Outbox Sealed) (process : Nat) :
    ((s.cut process).cycles process).leased = [] := by
  have hidle : (s.cut process).cycles process = .idle := update_self ..
  rw [hidle]
  rfl

theorem leased_lease (s : Outbox Sealed) (process now : Nat) (locked : String → Bool) :
    ((s.lease process now locked).cycles process).leased = (s.batch now locked).map Row.id := by
  change (update s.cycles process _ process).leased = _
  rw [update_self, leased_next, map_map]
  rfl

theorem OutboxOk.of_lease (h : OutboxOk services s) (locked : String → Bool)
    (hidle : s.cycles process = .idle) : OutboxOk services (s.lease process now locked) := by
  have hothers : ∀ p, p ≠ process → (s.lease process now locked).cycles p = s.cycles p :=
    fun p hne => cycles_lease s now locked hne
  have hselected : ∀ id ∈ (s.batch now locked).map Row.id, ∀ p, id ∉ (s.cycles p).leased := by
    intro id hid p
    obtain ⟨row, hrow, rfl⟩ := mem_map.mp hid
    exact h.not_leased (mem_batch hrow).1 (mem_batch hrow).2 p
  have hmarked : ∀ row ∈ s.rows, (row.id ∈ (s.batch now locked).map Row.id ∨
      row.state = .dispatching) → ∃ row' ∈ (s.lease process now locked).rows,
        row'.id = row.id ∧ row'.state = .dispatching := by
    intro row hrow hcase
    by_cases hid : row.id ∈ (s.batch now locked).map Row.id
    · exact ⟨_, mem_updateWhere.mpr (.inl ⟨row, hrow, decide_eq_true hid, rfl⟩), rfl, rfl⟩
    · refine ⟨row, mem_updateWhere_of_not hrow (by simpa using hid), rfl, ?_⟩
      exact hcase.resolve_left hid
  constructor
  · change ((updateWhere _ _ _).map Row.id).Nodup
    rw [map_updateWhere]
    · exact h.ids
    · exact fun _ => rfl
  · intro row hrow
    rcases mem_updateWhere.mp hrow with ⟨old, hold, _, rfl⟩ | ⟨hold, _⟩
    · exact h.keys old hold
    · exact h.keys row hold
  · intro p
    rcases eq_or_ne p process with rfl | hne
    · rw [leased_lease]
      exact h.batch_nodup now locked
    · rw [hothers p hne]
      exact h.once p
  · intro p q hne id hp hq
    rcases eq_or_ne p process with rfl | hp'
    · rw [leased_lease] at hp
      rw [hothers q hne.symm] at hq
      exact hselected id hp q hq
    · rw [hothers p hp'] at hp
      rcases eq_or_ne q process with rfl | hq'
      · rw [leased_lease] at hq
        exact hselected id hq p hp
      · rw [hothers q hq'] at hq
        exact h.apart p q hne id hp hq
  · intro p id hid
    rcases eq_or_ne p process with rfl | hne
    · rw [leased_lease] at hid
      obtain ⟨row, hrow, rfl⟩ := mem_map.mp hid
      exact hmarked row (mem_batch hrow).1 (.inl hid)
    · rw [hothers p hne] at hid
      obtain ⟨row, hrow, rfl, hstate⟩ := h.held p id hid
      exact hmarked row hrow (.inr hstate)
  · intro row hrow hstate
    rcases mem_updateWhere.mp hrow with ⟨old, hold, hid, rfl⟩ | ⟨hold, _⟩
    · refine .inl ⟨process, ?_⟩
      rw [leased_lease]
      exact of_decide_eq_true hid
    · refine (h.accounted row hold hstate).imp_left ?_
      rintro ⟨p, hp⟩
      have hne : p ≠ process := by
        rintro rfl
        rw [hidle] at hp
        cases hp
      exact ⟨p, (hothers p hne).symm ▸ hp⟩

/-! ### Steps -/

theorem mem_updateWhere_id {rows : List (Row Sealed)} {id : String} {row' : Row Sealed}
    (h : row' ∈ updateWhere (fun row => row.id == id) change rows) :
    (∃ row ∈ rows, row.id = id ∧ row' = change row) ∨ (row' ∈ rows ∧ row'.id ≠ id) := by
  rcases mem_updateWhere.mp h with ⟨row, hrow, hid, hchange⟩ | ⟨hrow, hid⟩
  · exact .inl ⟨row, hrow, eq_of_beq hid, hchange⟩
  · exact .inr ⟨hrow, by simpa using hid⟩

theorem OutboxOk.of_cut (h : OutboxOk services s) (process : Nat) :
    OutboxOk services (s.cut process) := by
  refine h.of_later rfl ?_ ?_ (fun p hne => cycles_cut s hne) ?_ ?_
  · intro row hrow
    refine ⟨row, hrow, .refl row, fun _ hin => .inr ?_⟩
    exact mem_append_left _ hin
  · intro row hrow hstate _ _
    exact ⟨row, hrow, rfl, hstate⟩
  · rw [leased_cut]
    exact nil_sublist _
  · exact fun id hid => mem_append_right _ hid

theorem OutboxOk.of_moved (h : OutboxOk services s)
    (hcycle : s.cycles process = .working work event rest) (work' : Work Sealed) :
    OutboxOk services (s.setCycle process (.working work' event rest)) := by
  have hsame : ((s.setCycle process (.working work' event rest)).cycles process).leased =
      (s.cycles process).leased := by
    change (update s.cycles process _ process).leased = _
    rw [update_self, hcycle]
    rfl
  refine h.of_later rfl ?_ (fun row hrow hstate _ _ => ⟨row, hrow, rfl, hstate⟩)
    (fun p hne => update_of_ne hne _ _) ?_ (fun id hid => hid)
  · exact fun row hrow => ⟨row, hrow, .refl row, fun _ hin => .inl (hsame ▸ hin)⟩
  · rw [hsame]

/-- A statement is made on the row of the event at hand, and the cycle gives up
what it has settled. -/
theorem OutboxOk.of_statement (h : OutboxOk services s)
    (hcycle : s.cycles process = .working work event rest)
    (hchange : work.statement event now = some change)
    (hrows : t.rows = updateWhere (fun row => row.id == event.id) change s.rows)
    (hothers : ∀ p, p ≠ process → t.cycles p = s.cycles p)
    (hsub : (t.cycles process).leased.Sublist (s.cycles process).leased)
    (hcut : ∀ id ∈ s.cutShort, id ∈ t.cutShort)
    (hkeep : event.id ∈ (t.cycles process).leased → ∀ row, row.state = .dispatching → (change
      row).state = .dispatching)
    (hcover : ∀ id ∈ (s.cycles process).leased, (id = event.id → ∃ row, (change row).state =
      .dispatching) → id ∈ (t.cycles process).leased ∨ id ∈ t.cutShort) : OutboxOk services t := by
  have hlater := later_of_statement hchange
  have hevent : event.id ∈ (s.cycles process).leased := by
    rw [hcycle]
    exact mem_cons_self
  refine h.of_later ?_ ?_ ?_ hothers hsub hcut
  · rw [hrows, map_updateWhere fun row => (hlater row).id_eq]
  · intro row' hrow'
    rw [hrows] at hrow'
    rcases mem_updateWhere_id hrow' with ⟨row, hrow, hid, rfl⟩ | ⟨hrow, hid⟩
    · exact ⟨row, hrow, hlater row, fun hstate hin => hcover row.id hin fun _ => ⟨row, hstate⟩⟩
    · exact ⟨row', hrow, .refl row', fun _ hin => hcover row'.id hin fun heq => absurd heq hid⟩
  · intro row hrow hstate p hp
    rw [hrows]
    rcases eq_or_ne row.id event.id with hid | hid
    · refine ⟨change row, mem_updateWhere.mpr (.inl ⟨row, hrow, beq_iff_eq.mpr hid, rfl⟩),
        (hlater row).id_eq, ?_⟩
      rw [hid] at hp
      rcases eq_or_ne p process with rfl | hne
      · exact hkeep hp row hstate
      · rw [hothers p hne] at hp
        exact absurd hevent (h.apart p process hne event.id hp)
    · exact ⟨row, mem_updateWhere_of_not hrow (by simpa using hid), rfl, hstate⟩

theorem OutboxOk.of_done (h : OutboxOk services s)
    (hcycle : s.cycles process = .working work event rest)
    (hchange : work.statement event now = some change) :
    OutboxOk services ({ s with
      rows := updateWhere (fun row => row.id == event.id) change s.rows
      clock := now }.setCycle process (work.after event rest)) := by
  have hnow : update s.cycles process (work.after event rest) process =
      work.after event rest := update_self ..
  have hnodup := h.once process
  rw [hcycle] at hnodup
  refine h.of_statement hcycle hchange rfl (fun p hne => update_of_ne hne _ _) ?_
    (fun id hid => hid) ?_ ?_
  · change (update s.cycles process _ process).leased.Sublist _
    rw [hnow, hcycle]
    rcases leased_after hchange rest with ⟨hleased, _⟩ | ⟨hleased, _⟩
    · rw [hleased]
      exact List.Sublist.refl _
    · rw [hleased]
      exact sublist_cons_self _ _
  · change event.id ∈ (update s.cycles process _ process).leased → _
    rw [hnow]
    rcases leased_after hchange rest with ⟨_, hstays⟩ | ⟨hleased, _⟩
    · exact fun _ => hstays
    · rw [hleased]
      exact fun hin => absurd hin (nodup_cons.mp hnodup).1
  · intro id hid hsome
    change id ∈ (update s.cycles process _ process).leased ∨ _
    rw [hnow]
    rw [hcycle] at hid
    rcases leased_after hchange rest with ⟨hleased, _⟩ | ⟨hleased, hnone⟩
    · rw [hleased]
      exact .inl hid
    · rw [hleased]
      rcases mem_cons.mp hid with heq | hrest
      · obtain ⟨row, hstate⟩ := hsome heq
        exact absurd hstate (hnone row)
      · exact .inl hrest

theorem outboxOk_of_step (s : Outbox Sealed) (a : OutboxStep) (t : Outbox Sealed)
    (h : OutboxOk services s) (hstep : outboxStep services s a = some t) :
    OutboxOk services t := by
  cases outboxTakes_of_step services hstep with
  | stored _ hstored =>
    obtain ⟨hfresh, hpending, _, hkey⟩ := stored_row hstored
    exact h.of_stored _ hfresh hpending hkey
  | notStored => exact h
  | lease _ hidle => exact h.of_lease _ hidle
  | moved _ hcycle => exact h.of_moved hcycle _
  | done _ hcycle hchange => exact h.of_done hcycle hchange
  | unanswered _ hcycle hchange =>
    refine h.of_statement hcycle hchange rfl (fun p hne => cycles_cut _ hne) ?_
      (fun id hid => mem_append_right _ hid) ?_
      (fun id hid _ => .inr (mem_append_left _ hid))
    · rw [leased_cut]
      exact nil_sublist _
    · rw [leased_cut]
      exact nofun
  | cut _ => exact h.of_cut _

/-- One cycle at most leases a row, and a leased row is being dispatched. -/
theorem rows_leased_once (services : Services Sealed) (labels : List OutboxStep) :
    Always (outboxStep services) (fun s => (s.rows.map Row.id).Nodup ∧
      ∀ p, (s.cycles p).leased.Nodup ∧ ∀ id ∈ (s.cycles p).leased,
        (∀ q, id ∈ (s.cycles q).leased → q = p) ∧
        ∃ row ∈ s.rows, row.id = id ∧ row.state = .dispatching) .empty labels := by
  refine (always_of_step labels outboxOk_of_step outboxOk_empty).mono ?_
  intro s h
  refine ⟨h.ids, ?_⟩
  intro p
  refine ⟨h.once p, ?_⟩
  intro id hid
  refine ⟨?_, h.held p id hid⟩
  intro q hq
  by_contra hne
  exact h.apart q p hne id hq hid

/-! ### Turns -/

instance : Std.Total (@Row.before Sealed) where
  total a b := by
    unfold Row.before
    omega

instance : IsTrans (Row Sealed) Row.before where
  trans a b c hab hbc := by
    unfold Row.before at hab hbc ⊢
    omega

/-- A pending row in front of this one, or this one itself. -/
def waitsBefore (row other : Row Sealed) : Bool :=
  decide (other.state = .pending ∧ other.before row)

def Outbox.ahead (s : Outbox Sealed) (row : Row Sealed) : Nat := s.rows.countP (waitsBefore row)

/-- The step is a lease that takes the row. -/
def Selects (row : Row Sealed) (s : Outbox Sealed) : OutboxStep → Prop
  | .lease _ now locked => row ∈ s.batch now locked
  | _ => False

/-- The step is a lease for which the row is not locked. -/
def tries (row : Row Sealed) : OutboxStep → Bool
  | .lease _ _ locked => !locked row.id
  | _ => false

theorem tries_of_not_lease (row : Row Sealed) {a : OutboxStep}
    (h : ∀ process now locked, a ≠ .lease process now locked) : tries row a = false := by
  cases a with
  | lease process now locked => exact absurd rfl (h process now locked)
  | enqueue | decrypt | publish | statement | cut => rfl

theorem ahead_lease (s : Outbox Sealed) (row : Row Sealed) (process now : Nat)
    (locked : String → Bool) :
    (s.lease process now locked).ahead row = s.rows.countP fun other =>
      waitsBefore row other && !decide (other.id ∈ (s.batch now locked).map Row.id) := by
  change (updateWhere _ _ s.rows).countP _ = _
  rw [updateWhere, countP_map]
  refine countP_congr ?_
  intro other _
  simp only [Function.comp_apply]
  cases hid : decide (other.id ∈ (s.batch now locked).map Row.id) with
  | true => simp [waitsBefore]
  | false => simp

theorem ahead_of_passedOver {locked : String → Bool} (hrow : row ∈ s.rows)
    (hpending : row.state = .pending) (hready : row.availableAt ≤ now)
    (hlocked : locked row.id = false) (hnot : row ∉ s.batch now locked) :
    outboxBatchSize + (s.lease process now locked).ahead row ≤ s.ahead row := by
  have hmem : row ∈ s.ready now locked := by
    refine mem_filter.mpr ⟨hrow, ?_⟩
    simp [hpending, hready, hlocked]
  obtain ⟨hlength, hbefore⟩ := before_of_passedOver hmem hnot
  have hpicked : ∀ other ∈ s.batch now locked, waitsBefore row other = true ∧
      decide (other.id ∈ (s.batch now locked).map Row.id) = true := by
    intro other hother
    refine ⟨decide_eq_true ⟨(mem_batch hother).2, hbefore other hother⟩, ?_⟩
    exact decide_eq_true (mem_map_of_mem hother)
  have hle := countP_without_picked (batch_subperm s now locked) hpicked
  rw [ahead_lease, Outbox.ahead, ← hlength]
  exact hle

/-- A statement puts no row in front of one whose time has come. -/
theorem waitsBefore_of_statement {other : Row Sealed} (hready : row.availableAt < now)
    (hchange : work.statement event now = some change) (h : waitsBefore row (change other) = true) :
    waitsBefore row other = true := by
  cases work with
  | opening | publishing => cases hchange
  | failing =>
    cases hchange
    simp only [markFailed] at h
    split at h
    · exact absurd (of_decide_eq_true h).1 nofun
    · have hbefore := (of_decide_eq_true h).2
      simp only [Row.before] at hbefore
      omega
  | rotating payload =>
    cases hchange
    dsimp only at h
    split at h
    · exact h
    · exact h
  | confirming =>
    cases hchange
    dsimp only at h
    split at h
    · exact absurd (of_decide_eq_true h).1 nofun
    · exact h

theorem ahead_le_of_statement (hready : row.availableAt < now)
    (hchange : work.statement event now = some change)
    (hrows : t.rows = updateWhere (fun row => row.id == event.id) change s.rows) :
    t.ahead row ≤ s.ahead row := by
  rw [Outbox.ahead, hrows, updateWhere, countP_map]
  refine countP_mono_left ?_
  intro other _ hother
  simp only [Function.comp_apply] at hother
  split at hother
  · exact waitsBefore_of_statement hready hchange hother
  · exact hother

/-- A pending row whose time has come keeps its place, and every lease that could
take it and does not takes a batch away in front of it. -/
theorem turn_step {a : OutboxStep} (h : OutboxOk services s) (hrow : row ∈ s.rows)
    (hpending : row.state = .pending) (hready : row.availableAt < s.clock) (hnot : ¬Selects row s a)
    (hstep : outboxStep services s a = some t) :
    row ∈ t.rows ∧ row.availableAt < t.clock ∧
      (if tries row a then outboxBatchSize else 0) + t.ahead row ≤ s.ahead row := by
  have hkept : ∀ {process : Nat} {work : Work Sealed} {event : OutboxEvent Sealed}
      {rest : List (OutboxEvent Sealed)} (change : Row Sealed → Row Sealed),
      s.cycles process = .working work event rest →
        row ∈ updateWhere (fun other => other.id == event.id) change s.rows := by
    intro process work event rest change hcycle
    refine mem_updateWhere_of_not hrow ?_
    intro hid
    refine h.not_leased hrow hpending process ?_
    rw [hcycle, eq_of_beq hid]
    exact mem_cons_self
  cases outboxTakes_of_step services hstep with
  | stored hclock hstored =>
    obtain ⟨_, _, havailable, _⟩ := stored_row hstored
    refine ⟨mem_append_left _ hrow, Nat.lt_of_lt_of_le hready hclock,
      (Nat.zero_add _).trans_le ?_⟩
    rw [Outbox.ahead, countP_append, countP_singleton, if_neg]
    · exact Nat.le_refl _
    · intro hwaits
      have hbefore := (of_decide_eq_true hwaits).2
      simp only [Row.before] at hbefore
      omega
  | notStored => exact ⟨hrow, hready, Nat.le_of_eq (Nat.zero_add _)⟩
  | @lease process now locked hclock hidle =>
    refine ⟨?_, Nat.lt_of_lt_of_le hready hclock, ?_⟩
    · refine mem_updateWhere_of_not hrow ?_
      intro hid
      obtain ⟨other, hother, heq⟩ := mem_map.mp (of_decide_eq_true hid)
      obtain rfl := inj_on_of_nodup_map h.ids (mem_batch hother).1 hrow heq
      exact hnot hother
    · cases hlocked : locked row.id with
      | true =>
        rw [tries, hlocked, Bool.not_true, if_neg nofun, Nat.zero_add, ahead_lease]
        refine countP_mono_left ?_
        intro other _ hother
        exact (Bool.and_eq_true_iff.mp hother).1
      | false =>
        rw [tries, hlocked, Bool.not_false, if_pos rfl]
        exact ahead_of_passedOver hrow hpending
          (Nat.le_of_lt (Nat.lt_of_lt_of_le hready hclock)) hlocked hnot
  | moved hlease _ | cut hlease =>
    refine ⟨hrow, hready, ?_⟩
    rw [tries_of_not_lease row hlease, if_neg nofun, Nat.zero_add]
    exact Nat.le_refl _
  | done hclock hcycle hchange | unanswered hclock hcycle hchange =>
    refine ⟨hkept _ hcycle, Nat.lt_of_lt_of_le hready hclock, (Nat.zero_add _).trans_le ?_⟩
    exact ahead_le_of_statement (Nat.lt_of_lt_of_le hready hclock) hchange rfl

theorem turn_run (labels : List OutboxStep) (h : OutboxOk services s) (hrow : row ∈ s.rows)
    (hpending : row.state = .pending) (hready : row.availableAt < s.clock)
    (hnot : Meets (outboxStep services) (fun s a => ¬Selects row s a) s labels)
    (hrun : run (outboxStep services) s labels = some t) :
    outboxBatchSize * labels.countP (tries row) < s.ahead row := by
  suffices hsuffices : row ∈ t.rows ∧
      outboxBatchSize * labels.countP (tries row) + t.ahead row ≤ s.ahead row by
    obtain ⟨hlast, hle⟩ := hsuffices
    have hself : 0 < t.ahead row := by
      refine countP_pos_iff.mpr ⟨row, hlast, ?_⟩
      exact decide_eq_true ⟨hpending, .inr ⟨rfl, Nat.le_refl _⟩⟩
    omega
  induction labels generalizing s with
  | nil =>
    obtain rfl : s = t := Option.some.inj hrun
    exact ⟨hrow, by simp⟩
  | cons a rest ih =>
    obtain ⟨mid, hstep, hrest⟩ := (run_cons_iff s a rest t).mp hrun
    obtain ⟨hnow, hlater⟩ := hnot mid hstep
    obtain ⟨hkept, hclock, hle⟩ := turn_step h hrow hpending hready hnow hstep
    obtain ⟨hlast, htotal⟩ := ih (outboxOk_of_step s a mid h hstep) hkept hclock hlater hrest
    refine ⟨hlast, ?_⟩
    rw [countP_cons, Nat.mul_add]
    split at hle
    next htries =>
      rw [if_pos htries]
      omega
    next htries =>
      rw [if_neg htries]
      omega

/-! ### Results -/

/-- An event that is turned away has the topic and the identity of a stored one. -/
def TurnsAwaySame (services : Services Sealed) (s : Outbox Sealed) : OutboxStep → Prop
  | .enqueue now wall nonce rowId uuid topic payload =>
    enqueue services s now wall nonce rowId uuid topic payload = .suppressed →
      ∃ row ∈ s.rows, row.topic = topic ∧
        identity services.formatFloat row.uuid row.event =
          identity services.formatFloat uuid payload
  | _ => True

/-- A leased row is leased by a running cycle, or by one that was cut short. -/
def Accounted (s : Outbox Sealed) : Prop :=
  ∀ row ∈ s.rows, row.state = .dispatching →
    (∃ p, row.id ∈ (s.cycles p).leased) ∨ row.id ∈ s.cutShort

/-- Once its time has come a pending row is taken by one of the next leases:
batch by batch those in front of it are gone. -/
def TakesTurns (services : Services Sealed) (s : Outbox Sealed) : Prop :=
  ∀ row ∈ s.rows, row.state = .pending → row.availableAt < s.clock →
    ∀ labels finish, run (outboxStep services) s labels = some finish →
      s.ahead row ≤ outboxBatchSize * labels.countP (tries row) →
        ¬Meets (outboxStep services) (fun s a => ¬Selects row s a) s labels

theorem OutboxOk.turnsAwaySame (h : OutboxOk services s) (a : OutboxStep) :
    TurnsAwaySame services s a := by
  cases a with
  | lease | decrypt | publish | statement | cut => trivial
  | enqueue now wall nonce rowId uuid topic payload =>
    intro hsuppressed
    simp only [enqueue] at hsuppressed
    split at hsuppressed
    next => cases hsuppressed
    next =>
      split at hsuppressed
      next => cases hsuppressed
      next =>
        split at hsuppressed
        next hany =>
          obtain ⟨row, hrow, hsame⟩ := any_eq_true.mp hany
          obtain ⟨htopic, hkey⟩ := Bool.and_eq_true_iff.mp hsame
          obtain rfl := eq_of_beq htopic
          refine ⟨row, hrow, rfl, ?_⟩
          have heq := eq_of_beq hkey
          rw [h.keys row hrow, stableEventKey_encode] at heq
          exact (String.append_right_inj _).mp heq
        next =>
          split at hsuppressed
          next => cases hsuppressed
          next => cases hsuppressed

/-- Along every run, an event is turned away only for one of its topic and
identity, every leased row is accounted for, and pending rows take turns. -/
theorem outbox_keeps_rows (services : Services Sealed) (labels : List OutboxStep) :
    Meets (outboxStep services) (TurnsAwaySame services) .empty labels ∧
      Always (outboxStep services) (fun s => Accounted s ∧ TakesTurns services s) .empty
        labels := by
  have hok : Always (outboxStep services) (OutboxOk services) .empty labels :=
    always_of_step labels outboxOk_of_step outboxOk_empty
  constructor
  · exact meets_of_invariant (fun s a t h _ hstep => outboxOk_of_step s a t h hstep)
      (fun s a h _ => h.turnsAwaySame a) outboxOk_empty
      (Meets.of_forall (C := fun _ _ => True) fun _ _ _ => trivial)
  · refine hok.mono fun s h => ⟨h.accounted, ?_⟩
    intro row hrow hpending hready rest finish hrun htries hnot
    exact absurd (turn_run rest h hrow hpending hready hnot hrun) (Nat.not_lt_of_le htries)

/-! ### What the outbox does not keep -/

/-- An event is turned away only for an equal one. -/
def TurnsAwayEqual (services : Services Sealed) (s : Outbox Sealed) : OutboxStep → Prop
  | .enqueue now wall nonce rowId uuid topic payload =>
    enqueue services s now wall nonce rowId uuid topic payload = .suppressed →
      ∃ row ∈ s.rows, row.topic = topic ∧ row.event = payload
  | _ => True

/-- Every leased row is leased by a running cycle. -/
def NoneStranded (s : Outbox Sealed) : Prop :=
  ∀ row ∈ s.rows, row.state = .dispatching → ∃ p, row.id ∈ (s.cycles p).leased

def sampleServices : Services (List Char) where
  encrypt _ _ _ _ plaintext := some plaintext
  decrypt _ _ _ ciphertext := some ciphertext
  needsRotation _ _ := false
  sha256 := String.ofList
  formatFloat n := String.ofList n.val

/-- Two events of one criminal record request. -/
def sampleEvent (kind : String) : Value :=
  .object [("reference", .string "CR-2026-0001"), ("type", .string kind)]

def enqueueSample (rowId kind : String) : OutboxStep :=
  .enqueue 0 0 0 rowId rowId "bis.criminal.dapr_event" (sampleEvent kind)

def sampleRow (rowId kind : String) : Row (List Char) :=
  { id := rowId, topic := "bis.criminal.dapr_event", payload := encode (sampleEvent kind)
    payloadSha256 := String.ofList (encode (sampleEvent kind))
    idempotencyKey := "bis.criminal.dapr_event:CR-2026-0001", state := .pending
    attemptCount := 0, availableAt := 0, createdAt := 0, event := sampleEvent kind, uuid := rowId }

theorem enqueue_sample (s : Outbox (List Char)) (rowId kind : String) :
    enqueue sampleServices s 0 0 0 rowId rowId "bis.criminal.dapr_event" (sampleEvent kind) =
      if s.rows.any fun row => row.topic == "bis.criminal.dapr_event" &&
          row.idempotencyKey == "bis.criminal.dapr_event:CR-2026-0001" then .suppressed
      else if s.rows.any fun row => row.id == rowId then .failed
      else .stored (sampleRow rowId kind) := by
  have htopic : trimSpace "bis.criminal.dapr_event" ≠ "" := by decide
  have hkey : stableEventKey sampleServices.formatFloat rowId "bis.criminal.dapr_event"
      (encode (sampleEvent kind)) = "bis.criminal.dapr_event:CR-2026-0001" := by
    have htrim : trimSpace "CR-2026-0001" = "CR-2026-0001" := by decide
    rw [stableEventKey_encode]
    simp [sampleEvent, identity, reference, inRangeMembers, inRange, referenceFields, sprint,
      List.findSome?, htrim, Option.filter_some]
  simp only [enqueue, if_neg htopic, hkey]
  rfl

theorem step_enqueueSample :
    outboxStep sampleServices .empty (enqueueSample "1" "submitted") =
      some { Outbox.empty with rows := [sampleRow "1" "submitted"] } := by
  have hstored := enqueue_sample .empty "1" "submitted"
  rw [if_neg nofun, if_neg nofun] at hstored
  simp only [enqueueSample, outboxStep, hstored]
  rfl

/-- The second event of a request is turned away for the first, and a crash
strands a row that was leased. -/
theorem outbox_collapses_and_strands :
    (¬ ∀ labels, Meets (outboxStep sampleServices) (TurnsAwayEqual sampleServices) .empty
      labels) ∧
      ¬ ∀ labels, Always (outboxStep sampleServices) NoneStranded .empty labels := by
  constructor
  · intro h
    obtain ⟨_, hrest⟩ := h [enqueueSample "1" "submitted", enqueueSample "2" "cleared"] _
      step_enqueueSample
    have hsecond := enqueue_sample
      { Outbox.empty with rows := [sampleRow "1" "submitted"] } "2" "cleared"
    rw [if_pos (by decide)] at hsecond
    have hstep : outboxStep sampleServices
        { Outbox.empty with rows := [sampleRow "1" "submitted"] } (enqueueSample "2" "cleared") =
          some { Outbox.empty with rows := [sampleRow "1" "submitted"] } := by
      simp only [enqueueSample, outboxStep, hsecond]
      rfl
    obtain ⟨row, hrow, _, hevent⟩ := (hrest _ hstep).1 hsecond
    obtain rfl := mem_singleton.mp hrow
    simp [sampleRow, sampleEvent] at hevent
  · intro h
    have hstart := h [enqueueSample "1" "submitted", .lease 0 1 fun _ => false, .cut 0]
    obtain ⟨_, hend⟩ := (hstart.2 _ step_enqueueSample).2 _ rfl
    have hlast : NoneStranded _ := hend _ rfl
    obtain ⟨p, hp⟩ := hlast { sampleRow "1" "submitted" with state := .dispatching }
      (mem_singleton.mpr rfl) rfl
    rcases eq_or_ne p 0 with rfl | hne
    · cases hp
    · rw [cycles_cut _ hne, cycles_lease _ _ _ hne] at hp
      cases hp

end Bis.Gateway
