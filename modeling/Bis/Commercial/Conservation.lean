import Bis.Commercial.Entitlements

/-!
The conservation of units. The counters of an entitlement are the numbers of its
reserved and consumed reservations and of its usage events, and together they
stay within its total, in every state any interleaving of the operations
reaches.
-/

namespace Bis.Commercial

open Bis.Relation Bis.Transition List

namespace Tables

def countOf (db : Tables) (entitlementId : Nat) (status : ReservationStatus) : Nat :=
  db.reservations.countP fun r => r.entitlementId == entitlementId && r.status == status

/-- The usage events whose reservation is of the entitlement. -/
def usageOf (db : Tables) (entitlementId : Nat) : Nat :=
  db.usage.countP fun u =>
    db.reservations.any fun r => r.id == u.reservationId && r.entitlementId == entitlementId

end Tables

/-- An entitlement's counters tell what the other tables hold. -/
structure Balanced (db : Tables) (e : Entitlement) : Prop where
  reservedNonneg : 0 ≤ e.reservedUnits
  consumedNonneg : 0 ≤ e.consumedUnits
  within : e.reservedUnits + e.consumedUnits ≤ e.totalUnits
  reserved : e.reservedUnits = db.countOf e.id .reserved
  consumed : e.consumedUnits = db.countOf e.id .consumed
  used : e.consumedUnits = db.usageOf e.id

/-- No unit is consumed twice, and no check is counted without a unit. -/
structure Conserved (s : Commerce) : Prop where
  balanced : ∀ e ∈ s.db.entitlements, Balanced s.db e
  usedOnce : (s.db.usage.map UsageEvent.reservationId).Nodup
  usedUnit : ∀ u ∈ s.db.usage, ∃ r ∈ s.db.reservations, ∃ e ∈ s.db.entitlements,
    r.id = u.reservationId ∧ r.status = .consumed ∧ e.id = r.entitlementId

/-! ### What a transaction can do -/

inductive Moves (now : Nat) (db : Tables) : Tables → Prop
  | idle : Moves now db db
  | grant (e : Entitlement) (hchecks : e.checks)
      (hzero : e.consumedUnits = 0 ∧ e.reservedUnits = 0)
      (hnew : ∀ other ∈ db.entitlements, other.id ≠ e.id) :
      Moves now db { db with entitlements := db.entitlements ++ [e] }
  | enqueue (assessments : List AssessmentEvent) : Moves now db { db with assessments }
  | reserve (e : Entitlement) (r : Reservation) (he : e ∈ db.entitlements)
      (hroom : e.consumedUnits + e.reservedUnits < e.totalUnits) (hr : r.entitlementId = e.id)
      (hstatus : r.status = .reserved) (hexpires : r.expiresAt = now + reservationTtlMs)
      (hnew : ∀ other ∈ db.reservations, ¬ r.clashes other) :
      Moves now db
        { db with
          entitlements := updateWhere (fun other => other.id == e.id) Entitlement.reserveUnit
            db.entitlements
          reservations := db.reservations ++ [r] }
  | consume (r : Reservation) (u : UsageEvent) (hr : r ∈ db.reservations)
      (hstatus : r.status = .reserved) (hexpires : now < r.expiresAt)
      (hu : u.reservationId = r.id) :
      Moves now db
        { db.markConsumed r.id with
          entitlements := updateWhere (fun other => other.id == r.entitlementId)
            Entitlement.consumeUnit db.entitlements
          usage := db.usage ++ [u] }
  | bill (e : Entitlement) (r : Reservation) (u : UsageEvent)
      (assessments : List AssessmentEvent) (he : e ∈ db.entitlements)
      (hroom : e.consumedUnits + e.reservedUnits < e.totalUnits) (hr : r.entitlementId = e.id)
      (hstatus : r.status = .consumed) (hnew : ∀ other ∈ db.reservations, ¬ r.clashes other)
      (hu : u.reservationId = r.id) :
      Moves now db
        { entitlements := updateWhere (fun other => other.id == e.id) Entitlement.consumeUnit
            (updateWhere (fun other => other.id == e.id) Entitlement.reserveUnit db.entitlements)
          reservations := db.reservations ++ [r]
          usage := db.usage ++ [u]
          assessments }

section Operations

variable {db db' : Tables} {locked : List Nat}

theorem entitlement?_spec {tenantId : Int} {now : Nat} {e : Entitlement}
    (h : db.entitlement? tenantId now locked = some e) :
    e ∈ db.entitlements ∧ e.available tenantId now := by
  unfold Tables.entitlement? at h
  have hmem := (mem_insertionSort _).mp (mem_of_mem_head? h)
  obtain ⟨he, hboth⟩ := mem_filter.mp hmem
  rw [Bool.and_eq_true] at hboth
  exact ⟨he, hboth.1⟩

theorem room_of_available {tenantId : Int} {now : Nat} {e : Entitlement}
    (h : e.available tenantId now) : e.consumedUnits + e.reservedUnits < e.totalUnits := by
  simp only [Entitlement.available, Bool.and_eq_true, decide_eq_true_eq] at h
  exact h.2

theorem updateEntitlement_ok {id : Nat} {f : Entitlement → Entitlement}
    (h : db.updateEntitlement id f = .ok db') :
    db' = { db with entitlements := updateWhere (fun e => e.id == id) f db.entitlements } := by
  unfold Tables.updateEntitlement at h
  split at h
  · exact (Except.ok.inj h).symm
  · cases h

theorem insertReservation_ok {r : Reservation} (h : db.insertReservation r = .ok db') :
    db' = { db with reservations := db.reservations ++ [r] } ∧
      ∀ other ∈ db.reservations, ¬ r.clashes other := by
  unfold Tables.insertReservation at h
  split at h
  next => cases h
  next hnew =>
    refine ⟨(Except.ok.inj h).symm, ?_⟩
    intro other hother hclash
    exact hnew (any_eq_true.mpr ⟨other, hother, hclash⟩)

theorem insertUsage_ok {u : UsageEvent} (h : db.insertUsage u = .ok db') :
    db' = { db with usage := db.usage ++ [u] } := by
  unfold Tables.insertUsage at h
  split at h
  · cases h
  · exact (Except.ok.inj h).symm

variable {now : Nat} {reservationId usageId : Nat}

theorem moves_reserve {caller : Caller} {input : ReserveInput} {answer : Reserved}
    (h : db.reserveCompletedCheck caller input reservationId locked now = .ok (db', answer)) :
    Moves now db db' := by
  unfold Tables.reserveCompletedCheck at h
  split at h
  next => cases h
  next =>
    obtain ⟨_, _, h⟩ := except_bind_ok h
    split at h
    next row _ =>
      split at h
      · cases h
        exact .idle
      · cases h
    next =>
      unfold Tables.reserveUnit at h
      split at h
      next => cases h
      next e hentitlement =>
        obtain ⟨counted, hcounted, h⟩ := except_bind_ok h
        obtain ⟨stored, hstored, h⟩ := except_bind_ok h
        cases h
        obtain ⟨he, havailable⟩ := entitlement?_spec hentitlement
        obtain rfl := updateEntitlement_ok hcounted
        obtain ⟨rfl, hnew⟩ := insertReservation_ok hstored
        exact .reserve e _ he (room_of_available havailable) rfl rfl rfl hnew

theorem moves_consume {caller : Caller} {input : ConsumeInput} {answer : Bool}
    (h : db.consumeReservedCheck caller input usageId now = .ok (db', answer)) :
    Moves now db db' := by
  unfold Tables.consumeReservedCheck at h
  split at h
  next => cases h
  next =>
    obtain ⟨_, _, h⟩ := except_bind_ok h
    split at h
    next => cases h
    next row hfind =>
      split at h
      next =>
        cases h
        exact .idle
      next =>
        split at h
        next => cases h
        next hvalid =>
          obtain ⟨stored, hstored, h⟩ := except_bind_ok h
          cases h
          have hrow := mem_of_find?_eq_some hfind
          have hkey := find?_some hfind
          simp only [Bool.and_eq_true, beq_iff_eq] at hkey
          simp only [Bool.or_eq_true, bne_iff_ne, decide_eq_true_eq, not_or, not_not,
            not_le] at hvalid
          unfold Tables.consumeUnit at hstored
          obtain ⟨counted, hcounted, hused⟩ := except_bind_ok hstored
          obtain rfl := updateEntitlement_ok hcounted
          obtain rfl := insertUsage_ok hused
          rw [← hkey.1]
          exact .consume row _ hrow hvalid.1 hvalid.2 rfl

theorem moves_bill {event : AssessmentEvent} {answer : Bool}
    (h : db.reserveAndConsumeEntitledUnit event reservationId usageId locked now = .ok (db',
      answer)) : Moves now db db' := by
  unfold Tables.reserveAndConsumeEntitledUnit at h
  split at h
  next => cases h
  next existing _ =>
    split at h
    next =>
      cases h
      exact .idle
    next =>
      split at h
      next =>
        cases h
        exact .idle
      next e hentitlement =>
        obtain ⟨stored, hstored, h⟩ := except_bind_ok h
        cases h
        obtain ⟨he, havailable⟩ := entitlement?_spec hentitlement
        unfold Tables.reserveAndConsume at hstored
        obtain ⟨reserved, hreserved, hstored⟩ := except_bind_ok hstored
        obtain ⟨inserted, hinserted, hstored⟩ := except_bind_ok hstored
        obtain ⟨consumed, hconsumed, hstored⟩ := except_bind_ok hstored
        obtain ⟨recorded, hrecorded, hstored⟩ := except_bind_ok hstored
        cases hstored
        obtain rfl := updateEntitlement_ok hreserved
        obtain ⟨rfl, hnew⟩ := insertReservation_ok hinserted
        obtain rfl := updateEntitlement_ok hconsumed
        obtain rfl := insertUsage_ok hrecorded
        exact .bill e _ _ _ he (room_of_available havailable) rfl rfl hnew rfl

theorem moves_commit {α : Type} {s : Commerce} {commits : Bool}
    {result : Except String (Tables × α)}
    (h : ∀ db' answer, result = .ok (db', answer) → Moves now s.db db') :
    Moves now s.db (s.commit commits result).db := by
  unfold Commerce.commit
  cases result with
  | error message => exact .idle
  | ok result =>
    cases commits with
    | true => exact h result.1 result.2 rfl
    | false => exact .idle

theorem moves_of_step {s t : Commerce} {action : CommerceAction}
    (h : commerceStep s action = some t) : Moves s.clock s.db t.db := by
  cases action with
  | grant id tenantId totalUnits periodStart periodEnd sourceReference =>
    cases h
    apply moves_commit
    intro db' answer hgrant
    unfold Tables.grant at hgrant
    split at hgrant
    next hfresh =>
      cases hgrant
      simp only [Bool.and_eq_true, Bool.not_eq_true', any_eq_false, Bool.or_eq_true,
        beq_iff_eq, not_or] at hfresh
      exact .grant _ hfresh.1 ⟨rfl, rfl⟩ fun other hother => (hfresh.2 other hother).1
    next => cases hgrant
  | enqueue id tenantId assessmentId requestedBy =>
    cases h
    apply moves_commit
    intro db' answer henqueue
    unfold Tables.enqueue at henqueue
    split at henqueue
    next => cases henqueue
    next =>
      cases henqueue
      exact .enqueue _
  | reserve caller input reservationId locked commits =>
    cases h
    exact moves_commit fun db' answer => moves_reserve
  | consume caller input usageId commits =>
    cases h
    exact moves_commit fun db' answer => moves_consume
  | bill event reservationId usageId locked commits =>
    cases h
    exact moves_commit fun db' answer => moves_bill
  | tick ms =>
    cases h
    exact .idle

end Operations

/-! ### The invariant -/

/-- Identifiers are unique, references point to rows, and the books balance. -/
structure Kept (db : Tables) : Prop where
  entitlementIds : (db.entitlements.map Entitlement.id).Nodup
  reservationIds : (db.reservations.map Reservation.id).Nodup
  usageReservations : (db.usage.map UsageEvent.reservationId).Nodup
  references : ∀ r ∈ db.reservations, ∃ e ∈ db.entitlements, e.id = r.entitlementId
  recorded : ∀ u ∈ db.usage, ∃ r ∈ db.reservations, r.id = u.reservationId ∧ r.status = .consumed
  balanced : ∀ e ∈ db.entitlements, Balanced db e

section Books

variable {db : Tables}

variable {e : Entitlement} {r : Reservation} {db' : Tables} {id : Nat} {u : UsageEvent}

/-- A reservation without an entitlement yet counts for none. -/
theorem balanced_new (h : Kept db) (hchecks : e.checks)
    (hzero : e.consumedUnits = 0 ∧ e.reservedUnits = 0)
    (hnew : ∀ other ∈ db.entitlements, other.id ≠ e.id) : Balanced db e := by
  have hnone : ∀ r ∈ db.reservations, r.entitlementId ≠ e.id := by
    intro r hr hsame
    obtain ⟨other, hother, hid⟩ := h.references r hr
    exact hnew other hother (hid.trans hsame)
  have hcount : ∀ status, db.countOf e.id status = 0 := by
    intro status
    unfold Tables.countOf
    rw [countP_eq_zero]
    intro r hr
    simp [hnone r hr]
  have husage : db.usageOf e.id = 0 := by
    unfold Tables.usageOf
    rw [countP_eq_zero]
    intro u _ hany
    obtain ⟨r, hr, hboth⟩ := any_eq_true.mp hany
    rw [Bool.and_eq_true, beq_iff_eq, beq_iff_eq] at hboth
    exact hnone r hr hboth.2
  have htotal : 0 < e.totalUnits := by
    simp only [Entitlement.checks, Bool.and_eq_true, decide_eq_true_eq] at hchecks
    exact hchecks.1.1.1.1.1
  constructor
  · rw [hzero.2]
  · rw [hzero.1]
  · omega
  · rw [hzero.2, hcount]
    rfl
  · rw [hzero.1, hcount]
    rfl
  · rw [hzero.1, husage]
    rfl

theorem id_of_not_clashes {other : Reservation} (h : ¬ r.clashes other) : other.id ≠ r.id := by
  intro hsame
  simp [Reservation.clashes, hsame] at h

variable {status : ReservationStatus} {rows : List Entitlement} {f : Entitlement → Entitlement}

theorem countOf_append (hrows : db'.reservations = db.reservations ++ [r])
    (hr : r.entitlementId = id) (hstatus : r.status = status) :
    db'.countOf id status = db.countOf id status + 1 := by
  unfold Tables.countOf
  rw [hrows, countP_append]
  simp [hr, hstatus]

theorem countOf_append_other (hrows : db'.reservations = db.reservations ++ [r])
    (hother : r.entitlementId ≠ id ∨ r.status ≠ status) :
    db'.countOf id status = db.countOf id status := by
  unfold Tables.countOf
  rw [hrows, countP_append]
  rcases hother with hne | hne
  · simp [hne]
  · simp [hne]

theorem replaced_markConsumed (h : Kept db) (hr : r ∈ db.reservations) :
    Replaced Reservation.id r r.consume db.reservations (db.markConsumed r.id).reservations :=
  replaced_updateWhere h.reservationIds hr (beq_self_eq_true r.id)
    (fun _ _ hother => eq_of_beq hother) rfl

theorem countOf_markConsumed (h : Kept db) (hr : r ∈ db.reservations)
    (hstatus : r.status = .reserved)
    (hrows : db'.reservations = (db.markConsumed r.id).reservations) :
    db'.countOf r.entitlementId .reserved + 1 = db.countOf r.entitlementId .reserved ∧
      db'.countOf r.entitlementId .consumed = db.countOf r.entitlementId .consumed + 1 ∧
      ∀ id, id ≠ r.entitlementId → ∀ status, db'.countOf id status = db.countOf id status := by
  have hreplaced := replaced_markConsumed h hr
  rw [← hrows] at hreplaced
  have hcount (id : Nat) (status : ReservationStatus) :=
    hreplaced.countP h.reservationIds fun other =>
      other.entitlementId == id && other.status == status
  refine ⟨?_, ?_, ?_⟩
  · have hreserved := hcount r.entitlementId .reserved
    have hother : (ReservationStatus.consumed == ReservationStatus.reserved) = false := rfl
    simpa [Reservation.consume, Tables.countOf, hstatus, hother] using hreserved
  · have hconsumed := hcount r.entitlementId .consumed
    have hother : (ReservationStatus.reserved == ReservationStatus.consumed) = false := rfl
    simpa [Reservation.consume, Tables.countOf, hstatus, hother] using hconsumed
  · intro id hne status
    have hother := hcount id status
    have hfalse : (r.entitlementId == id) = false := beq_false_of_ne hne.symm
    simpa [Reservation.consume, Tables.countOf, hfalse] using hother

/-! ### Usage events -/

/-- Whether a usage event is of the entitlement. -/
def Tables.chargesTo (db : Tables) (entitlementId : Nat) (u : UsageEvent) : Bool :=
  db.reservations.any fun r => r.id == u.reservationId && r.entitlementId == entitlementId

/-- The reservation of a usage event tells the entitlement. -/
theorem chargesTo_of_reservation (hids : (db.reservations.map Reservation.id).Nodup)
    (hr : r ∈ db.reservations) (hu : u.reservationId = r.id) (id : Nat) :
    db.chargesTo id u = (r.entitlementId == id) := by
  unfold Tables.chargesTo
  rw [hu]
  exact any_of_key hids hr fun other => other.entitlementId == id

theorem usageOf_same (hcharges : ∀ u ∈ db.usage, ∀ id, db'.chargesTo id u = db.chargesTo id u)
    (husage : db'.usage = db.usage) (id : Nat) : db'.usageOf id = db.usageOf id := by
  change db'.usage.countP (db'.chargesTo id) = db.usage.countP (db.chargesTo id)
  rw [husage]
  apply countP_congr
  intro u hu
  rw [hcharges u hu]

theorem usageOf_append (hcharges : ∀ u ∈ db.usage, ∀ id, db'.chargesTo id u = db.chargesTo id u)
    (husage : db'.usage = db.usage ++ [u]) (id : Nat) :
    db'.usageOf id = db.usageOf id + (db'.chargesTo id u).toNat := by
  have hold : db.usage.countP (db'.chargesTo id) = db.usageOf id := by
    apply countP_congr
    intro other hother
    rw [hcharges other hother]
    rfl
  change db'.usage.countP (db'.chargesTo id) = _
  rw [husage, countP_append, hold]
  cases hlast : db'.chargesTo id u with
  | true => simp [hlast]
  | false => simp [hlast]

/-- A new reservation has no usage events yet. -/
theorem chargesTo_append (h : Kept db) (hrows : db'.reservations = db.reservations ++ [r])
    (hnew : ∀ other ∈ db.reservations, ¬ r.clashes other) :
    ∀ u ∈ db.usage, ∀ id, db'.chargesTo id u = db.chargesTo id u := by
  intro u hu id
  obtain ⟨old, hold, hid, _⟩ := h.recorded u hu
  have hne : r.id ≠ u.reservationId := by
    rw [← hid]
    exact (id_of_not_clashes (hnew old hold)).symm
  unfold Tables.chargesTo
  rw [hrows, any_append]
  simp [hne]

theorem chargesTo_markConsumed {reservationId : Nat}
    (hrows : db'.reservations = (db.markConsumed reservationId).reservations) (u : UsageEvent)
    (id : Nat) : db'.chargesTo id u = db.chargesTo id u := by
  unfold Tables.chargesTo
  rw [hrows]
  exact any_updateWhere (f := Reservation.consume) (fun row => rfl) db.reservations

/-- Counters that move with the counts stay balanced. -/
theorem Balanced.move {e' : Entitlement} (h : Balanced db e)
    (hwithin : e'.reservedUnits + e'.consumedUnits ≤ e'.totalUnits)
    (hreserved : e'.reservedUnits + db.countOf e.id .reserved = e.reservedUnits + db'.countOf e'.id
      .reserved)
    (hconsumed : e'.consumedUnits + db.countOf e.id .consumed = e.consumedUnits + db'.countOf e'.id
      .consumed) (hused : e'.consumedUnits + db.usageOf e.id = e.consumedUnits + db'.usageOf
    e'.id) :
    Balanced db' e' := by
  have hreservedOf := h.reserved
  have hconsumedOf := h.consumed
  have husedOf := h.used
  constructor
  · omega
  · omega
  · exact hwithin
  · omega
  · omega
  · omega

/-- Tables with the same counts are balanced alike. -/
theorem Balanced.congr (h : Balanced db e)
    (hreserved : db'.countOf e.id .reserved = db.countOf e.id .reserved)
    (hconsumed : db'.countOf e.id .consumed = db.countOf e.id .consumed)
    (hused : db'.usageOf e.id = db.usageOf e.id) : Balanced db' e := by
  refine ⟨h.reservedNonneg, h.consumedNonneg, h.within, ?_, ?_, ?_⟩
  · rw [hreserved]
    exact h.reserved
  · rw [hconsumed]
    exact h.consumed
  · rw [hused]
    exact h.used

/-! ### Each move keeps the books -/

theorem references_update {k : Nat} (hf : ∀ e, (f e).id = e.id) (hk : ∃ e ∈ rows, e.id = k) :
    ∃ e ∈ updateWhere (fun other => other.id == id) f rows, e.id = k := by
  have hmem : k ∈ (updateWhere (fun other => other.id == id) f rows).map Entitlement.id := by
    rw [map_updateWhere hf]
    exact mem_map.mpr hk
  exact mem_map.mp hmem

theorem mem_entitlements_update (he : e ∈ updateWhere (fun other => other.id == id) f rows) :
    (∃ old ∈ rows, old.id = id ∧ e = f old) ∨ (e ∈ rows ∧ e.id ≠ id) := by
  rcases mem_updateWhere.mp he with ⟨old, hold, hid, rfl⟩ | ⟨hold, hne⟩
  · exact .inl ⟨old, hold, eq_of_beq hid, rfl⟩
  · exact .inr ⟨hold, by simpa using hne⟩

theorem nodup_reservations (h : Kept db) (hnew : ∀ other ∈ db.reservations, ¬ r.clashes other) :
    ((db.reservations ++ [r]).map Reservation.id).Nodup := by
  rw [map_append]
  apply nodup_append_fresh h.reservationIds
  intro hclash
  obtain ⟨other, hother, hsame⟩ := mem_map.mp hclash
  exact id_of_not_clashes (hnew other hother) hsame

theorem kept_grant (h : Kept db) (hchecks : e.checks)
    (hzero : e.consumedUnits = 0 ∧ e.reservedUnits = 0)
    (hnew : ∀ other ∈ db.entitlements, other.id ≠ e.id) :
    Kept { db with entitlements := db.entitlements ++ [e] } where
  entitlementIds := by
    rw [map_append]
    apply nodup_append_fresh h.entitlementIds
    intro hclash
    obtain ⟨other, hother, hsame⟩ := mem_map.mp hclash
    exact hnew other hother hsame
  reservationIds := h.reservationIds
  usageReservations := h.usageReservations
  references r hr := by
    obtain ⟨other, hother, hid⟩ := h.references r hr
    exact ⟨other, mem_append_left _ hother, hid⟩
  recorded := h.recorded
  balanced other hother := by
    have hbalanced : Balanced db other := by
      rcases mem_concat.mp hother with hold | rfl
      · exact h.balanced other hold
      · exact balanced_new h hchecks hzero hnew
    exact hbalanced.congr rfl rfl rfl

/-- A reservation takes a unit that is neither reserved nor consumed. -/
theorem kept_reserve (h : Kept db) (he : e ∈ db.entitlements)
    (hroom : e.consumedUnits + e.reservedUnits < e.totalUnits) (hr : r.entitlementId = e.id)
    (hstatus : r.status = .reserved) (hnew : ∀ other ∈ db.reservations, ¬ r.clashes other)
    (hentitlements : db'.entitlements = updateWhere (fun other => other.id == e.id)
      Entitlement.reserveUnit db.entitlements)
    (hreservations : db'.reservations = db.reservations ++ [r]) (husage : db'.usage = db.usage) :
    Kept db' where
  entitlementIds := by
    rw [hentitlements, map_updateWhere (f := Entitlement.reserveUnit) fun other => rfl]
    exact h.entitlementIds
  reservationIds := by
    rw [hreservations]
    exact nodup_reservations h hnew
  usageReservations := by
    rw [husage]
    exact h.usageReservations
  references other hother := by
    rw [hentitlements]
    rw [hreservations] at hother
    apply references_update (f := Entitlement.reserveUnit) fun e => rfl
    rcases mem_concat.mp hother with hold | rfl
    · exact h.references other hold
    · exact ⟨e, he, hr.symm⟩
  recorded u hu := by
    rw [husage] at hu
    obtain ⟨old, hold, hid, hconsumed⟩ := h.recorded u hu
    rw [hreservations]
    exact ⟨old, mem_append_left _ hold, hid, hconsumed⟩
  balanced other hother := by
    have hused := usageOf_same (chargesTo_append h hreservations hnew) husage
    have hconsumed (id : Nat) : db'.countOf id .consumed = db.countOf id .consumed := by
      apply countOf_append_other hreservations
      rw [hstatus]
      exact .inr ReservationStatus.noConfusion
    rw [hentitlements] at hother
    rcases mem_entitlements_update hother with ⟨old, hold, hid, rfl⟩ | ⟨hold, hne⟩
    · obtain rfl := inj_on_of_nodup_map h.entitlementIds hold he hid
      have hreserved := countOf_append hreservations hr hstatus
      apply (h.balanced old hold).move
      · change old.reservedUnits + 1 + old.consumedUnits ≤ old.totalUnits
        omega
      · change old.reservedUnits + 1 + _ = old.reservedUnits + (db'.countOf old.id .reserved : Int)
        rw [hreserved]
        omega
      · change old.consumedUnits + _ = old.consumedUnits + (db'.countOf old.id .consumed : Int)
        rw [hconsumed]
      · change old.consumedUnits + _ = old.consumedUnits + (db'.usageOf old.id : Int)
        rw [hused]
    · refine (h.balanced other hold).congr ?_ (hconsumed other.id) (hused other.id)
      apply countOf_append_other hreservations
      rw [hr]
      exact .inl hne.symm

/-- A consumption turns one reserved unit into a consumed one. -/
theorem kept_consume (h : Kept db) (hr : r ∈ db.reservations) (hstatus : r.status = .reserved)
    (hu : u.reservationId = r.id)
    (hentitlements : db'.entitlements = updateWhere (fun other => other.id == r.entitlementId)
      Entitlement.consumeUnit db.entitlements)
    (hreservations : db'.reservations = (db.markConsumed r.id).reservations)
    (husage : db'.usage = db.usage ++ [u]) : Kept db' where
  entitlementIds := by
    rw [hentitlements, map_updateWhere (f := Entitlement.consumeUnit) fun other => rfl]
    exact h.entitlementIds
  reservationIds := by
    rw [hreservations]
    change ((updateWhere _ Reservation.consume db.reservations).map Reservation.id).Nodup
    rw [map_updateWhere (f := Reservation.consume) fun other => rfl]
    exact h.reservationIds
  usageReservations := by
    rw [husage, map_append]
    apply nodup_append_fresh h.usageReservations
    -- an event of this reservation would say that it is consumed already
    intro hclash
    obtain ⟨other, hother, hsame⟩ := mem_map.mp hclash
    obtain ⟨used, hused, hid, hconsumed⟩ := h.recorded other hother
    obtain rfl := inj_on_of_nodup_map h.reservationIds hused hr (hid.trans (hsame.trans hu))
    rw [hstatus] at hconsumed
    cases hconsumed
  references other hother := by
    rw [hentitlements]
    rw [hreservations] at hother
    apply references_update (f := Entitlement.consumeUnit) fun e => rfl
    rcases (replaced_markConsumed h hr).mem_iff.mp hother with rfl | ⟨hold, _⟩
    · exact h.references r hr
    · exact h.references other hold
  recorded other hother := by
    have hconsumed : r.consume ∈ db'.reservations := by
      rw [hreservations]
      exact (replaced_markConsumed h hr).mem_iff.mpr (.inl rfl)
    rw [husage] at hother
    rcases mem_concat.mp hother with hold | rfl
    · obtain ⟨used, hused, hid, hstatus'⟩ := h.recorded other hold
      by_cases hsame : used.id = r.id
      · exact ⟨r.consume, hconsumed, hsame.symm.trans hid, rfl⟩
      · refine ⟨used, ?_, hid, hstatus'⟩
        rw [hreservations]
        exact (replaced_markConsumed h hr).mem_iff.mpr (.inr ⟨hused, hsame⟩)
    · exact ⟨r.consume, hconsumed, hu.symm, rfl⟩
  balanced other hother := by
    have hids : (db'.reservations.map Reservation.id).Nodup := by
      rw [hreservations]
      change ((updateWhere _ Reservation.consume db.reservations).map Reservation.id).Nodup
      rw [map_updateWhere (f := Reservation.consume) fun other => rfl]
      exact h.reservationIds
    have hconsumed : r.consume ∈ db'.reservations := by
      rw [hreservations]
      exact (replaced_markConsumed h hr).mem_iff.mpr (.inl rfl)
    obtain ⟨hreservedOf, hconsumedOf, hothers⟩ := countOf_markConsumed h hr hstatus hreservations
    have hused (id : Nat) : db'.usageOf id = db.usageOf id + (r.entitlementId == id).toNat := by
      rw [usageOf_append (fun u _ => chargesTo_markConsumed hreservations u) husage,
        chargesTo_of_reservation hids hconsumed hu]
      rfl
    rw [hentitlements] at hother
    rcases mem_entitlements_update hother with ⟨old, hold, hid, rfl⟩ | ⟨hold, hne⟩
    · have hbooks := h.balanced old hold
      have hwithin := hbooks.within
      have husedOf := hused old.id
      rw [← hid] at hreservedOf hconsumedOf
      rw [hid, beq_self_eq_true, ← hid] at husedOf
      apply hbooks.move
      · change old.reservedUnits - 1 + (old.consumedUnits + 1) ≤ old.totalUnits
        omega
      · change old.reservedUnits - 1 + _ = old.reservedUnits + (db'.countOf old.id .reserved : Int)
        omega
      · change old.consumedUnits + 1 + _ = old.consumedUnits + (db'.countOf old.id .consumed : Int)
        omega
      · change old.consumedUnits + 1 + _ = old.consumedUnits + (db'.usageOf old.id : Int)
        rw [husedOf, Bool.toNat_true]
        omega
    · refine (h.balanced other hold).congr (hothers other.id hne _) (hothers other.id hne _) ?_
      rw [hused, beq_false_of_ne hne.symm]
      rfl

/-- A billed assessment reserves and consumes its unit at once. -/
theorem kept_bill (h : Kept db) (he : e ∈ db.entitlements)
    (hroom : e.consumedUnits + e.reservedUnits < e.totalUnits) (hr : r.entitlementId = e.id)
    (hstatus : r.status = .consumed) (hnew : ∀ other ∈ db.reservations, ¬ r.clashes other)
    (hu : u.reservationId = r.id)
    (hentitlements : db'.entitlements = updateWhere (fun other => other.id == e.id)
      Entitlement.consumeUnit (updateWhere (fun other => other.id == e.id) Entitlement.reserveUnit
      db.entitlements)) (hreservations : db'.reservations = db.reservations ++ [r])
    (husage : db'.usage = db.usage ++ [u]) : Kept db' := by
  let reserved : Reservation := { r with status := .reserved }
  let held : Tables :=
    { db with
      entitlements :=
        updateWhere (fun other => other.id == e.id) Entitlement.reserveUnit db.entitlements
      reservations := db.reservations ++ [reserved] }
  have hheld : Kept held := kept_reserve (r := reserved) h he hroom hr rfl hnew rfl rfl rfl
  have hconsume : reserved.consume = r := by
    change { r with status := .consumed } = r
    rw [← hstatus]
  refine kept_consume hheld (mem_concat_self : reserved ∈ held.reservations) rfl hu ?_ ?_ husage
  · change db'.entitlements = updateWhere (fun other => other.id == r.entitlementId) _ _
    rw [hr]
    exact hentitlements
  · have hothers : updateWhere (fun other => other.id == r.id) Reservation.consume
        db.reservations = db.reservations := by
      apply updateWhere_eq_self
      intro other hother hsame
      exact id_of_not_clashes (hnew other hother) (eq_of_beq hsame)
    have hsplit : (held.markConsumed r.id).reservations =
        updateWhere (fun other => other.id == r.id) Reservation.consume db.reservations ++
          [if r.id == r.id then reserved.consume else reserved] := map_append
    change db'.reservations = (held.markConsumed r.id).reservations
    rw [hsplit, hothers, if_pos (beq_self_eq_true _), hconsume, hreservations]

end Books

theorem kept_moves {now : Nat} {db db' : Tables} (h : Kept db) (hmoves : Moves now db db') :
    Kept db' := by
  cases hmoves with
  | idle => exact h
  | grant e hchecks hzero hnew => exact kept_grant h hchecks hzero hnew
  | enqueue assessments =>
    exact ⟨h.entitlementIds, h.reservationIds, h.usageReservations, h.references, h.recorded,
      fun e he => (h.balanced e he).congr rfl rfl rfl⟩
  | reserve e r he hroom hr hstatus hexpires hnew =>
    exact kept_reserve h he hroom hr hstatus hnew rfl rfl rfl
  | consume r u hr hstatus hexpires hu => exact kept_consume h hr hstatus hu rfl rfl rfl
  | bill e r u assessments he hroom hr hstatus hnew hu =>
    exact kept_bill h he hroom hr hstatus hnew hu rfl rfl rfl

theorem kept_step {s t : Commerce} {action : CommerceAction} (h : Kept s.db)
    (hstep : commerceStep s action = some t) : Kept t.db :=
  kept_moves h (moves_of_step hstep)

theorem kept_initial : Kept Commerce.initial.db where
  entitlementIds := nodup_nil
  reservationIds := nodup_nil
  usageReservations := nodup_nil
  references r hr := by cases hr
  recorded u hu := by cases hu
  balanced e he := by cases he

theorem conserved_of_kept {s : Commerce} (h : Kept s.db) : Conserved s where
  balanced := h.balanced
  usedOnce := h.usageReservations
  usedUnit u hu := by
    obtain ⟨r, hr, hid, hconsumed⟩ := h.recorded u hu
    obtain ⟨e, he, hentitlement⟩ := h.references r hr
    exact ⟨r, hr, e, he, hid, hconsumed, hentitlement⟩

/-- In every state any interleaving of reservations, consumptions and billed
assessments reaches, the units of each entitlement are accounted for. -/
theorem units_conserved (labels : List CommerceAction) :
    Always commerceStep Conserved .initial labels := by
  apply Always.mono (I := fun s => Kept s.db) fun s => conserved_of_kept
  exact always_of_step labels (fun s a t => kept_step) kept_initial

end Bis.Commercial
