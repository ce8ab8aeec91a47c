import Bis.Commercial.Conservation

/-!
What becomes of a reservation that passes its expiry. Nothing releases it: the
counter of its entitlement keeps the unit, the unique constraint keeps the
investigation, and no operation changes its status. So the units a reservation
can take are what is left over exactly as long as no reservation lapses.
-/

namespace Bis.Commercial

open Bis.Relation Bis.Transition

/-- The reservation was not consumed before its expiry. -/
def Reservation.lapsed (r : Reservation) (now : Nat) : Bool :=
  r.status == .reserved && decide (r.expiresAt ≤ now)

/-- The reservations that can still be consumed. -/
def Tables.unexpiredOf (db : Tables) (entitlementId now : Nat) : Nat :=
  db.reservations.countP fun r =>
    r.entitlementId == entitlementId && r.status == .reserved && decide (now < r.expiresAt)

/-- The units that `reserveCompletedCheck` finds in an entitlement. -/
def Entitlement.availableUnits (e : Entitlement) : Int :=
  e.totalUnits - (e.consumedUnits + e.reservedUnits)

/-- A request under a new key is served wherever a unit is available. -/
def Reservable (s : Commerce) (tenantId : Int) (investigationRef : String) : Prop :=
  ∀ (caller : Caller) (input : ReserveInput) (reservationId : Nat) (locked : List Nat),
    input.accepted → requireTenantScope caller.tenantId input.tenantId = .ok () →
    input.tenantId = tenantId → input.investigationRef = investigationRef →
    (∀ r ∈ s.db.reservations, r.id ≠ reservationId ∧
      ¬ (r.tenantId = tenantId ∧ r.idempotencyKey = input.idempotencyKey)) →
    (s.db.entitlement? tenantId s.clock locked).isSome →
    ∃ result, s.db.reserveCompletedCheck caller input reservationId locked s.clock = .ok result

/-- Lapsed reservations hold neither units nor investigations. -/
structure Frees (s : Commerce) : Prop where
  units : ∀ e ∈ s.db.entitlements,
    e.availableUnits = e.totalUnits - e.consumedUnits - s.db.unexpiredOf e.id s.clock
  investigations : ∀ r ∈ s.db.reservations, r.lapsed s.clock →
    Reservable s r.tenantId r.investigationRef

/-- Time does not pass the expiry of a reservation that is not consumed yet. -/
def KeepsTime (s : Commerce) : CommerceAction → Prop
  | .tick ms => ∀ r ∈ s.db.reservations, r.status = .reserved → s.clock + ms < r.expiresAt
  | _ => True

def NoneLapsed (s : Commerce) : Prop := ∀ r ∈ s.db.reservations, ¬ r.lapsed s.clock

theorem lapsed_iff {r : Reservation} {now : Nat} :
    r.lapsed now ↔ r.status = .reserved ∧ r.expiresAt ≤ now := by
  simp [Reservation.lapsed]

section Units

variable {db : Tables}

/-- A reserved unit is unexpired or its reservation has lapsed. -/
theorem countOf_reserved_eq (db : Tables) (entitlementId now : Nat) :
    db.countOf entitlementId .reserved = db.unexpiredOf entitlementId now +
      db.reservations.countP fun r => r.entitlementId == entitlementId && r.lapsed now := by
  have hsplit := List.countP_eq_countP_filter_add db.reservations
    (fun r => r.entitlementId == entitlementId && r.status == .reserved)
    (fun r => decide (now < r.expiresAt))
  rw [List.countP_filter, List.countP_filter] at hsplit
  unfold Tables.countOf Tables.unexpiredOf
  rw [hsplit]
  congr 1
  apply List.countP_congr
  intro r _
  simp [Reservation.lapsed, and_assoc]

/-- The units that are left over are available where nothing has lapsed. -/
theorem availableUnits_eq_iff {e : Entitlement} (h : Balanced db e) (now : Nat) :
    e.availableUnits = e.totalUnits - e.consumedUnits - db.unexpiredOf e.id now ↔
      ∀ r ∈ db.reservations, r.entitlementId = e.id → ¬ r.lapsed now := by
  have hreserved := h.reserved
  have hsplit := countOf_reserved_eq db e.id now
  have hzero : (db.reservations.countP fun r => r.entitlementId == e.id && r.lapsed now) = 0 ↔
      ∀ r ∈ db.reservations, r.entitlementId = e.id → ¬ r.lapsed now := by
    simp [List.countP_eq_zero]
  rw [← hzero]
  unfold Entitlement.availableUnits
  omega

theorem frees_iff {s : Commerce} (h : Kept s.db) : Frees s ↔ NoneLapsed s := by
  constructor
  · intro hfrees r hr
    obtain ⟨e, he, hid⟩ := h.references r hr
    exact (availableUnits_eq_iff (h.balanced e he) s.clock).mp (hfrees.units e he) r hr hid.symm
  · intro hnone
    constructor
    · intro e he
      exact (availableUnits_eq_iff (h.balanced e he) s.clock).mpr fun r hr _ => hnone r hr
    · intro r hr hlapsed
      exact (hnone r hr hlapsed).elim

end Units

/-! ### Steps -/

theorem clock_of_step {s t : Commerce} {action : CommerceAction}
    (h : commerceStep s action = some t) :
    t.clock = s.clock + match action with
      | .tick ms => ms
      | _ => 0 := by
  have hcommit {α : Type} (commits : Bool) (result : Except String (Tables × α)) :
      (s.commit commits result).clock = s.clock := by
    unfold Commerce.commit
    split
    · split
      · rfl
      · rfl
    · rfl
  cases action with
  | tick ms =>
    cases h
    rfl
  | grant | enqueue | reserve | consume | bill =>
    cases h
    exact hcommit _ _

/-- No transaction makes a reservation lapse. -/
theorem noneLapsed_moves {now : Nat} {db db' : Tables}
    (h : ∀ r ∈ db.reservations, ¬ r.lapsed now) (hmoves : Moves now db db') :
    ∀ r ∈ db'.reservations, ¬ r.lapsed now := by
  cases hmoves with
  | idle | grant | enqueue => exact h
  | reserve e new he hroom hnewEntitlement hstatus hexpires hnew =>
    intro r hr
    rcases mem_concat.mp hr with hold | rfl
    · exact h r hold
    · have httl : 0 < reservationTtlMs := by decide
      rw [lapsed_iff, not_and, not_le]
      omega
  | consume old u hold hstatus hexpires hu =>
    intro r hr
    rcases mem_updateWhere.mp hr with ⟨other, _, _, rfl⟩ | ⟨hkept, _⟩
    · rw [lapsed_iff]
      rintro ⟨hreserved, _⟩
      cases hreserved
    · exact h r hkept
  | bill e new u assessments he hroom hnewEntitlement hstatus hnew hu =>
    intro r hr
    rcases mem_concat.mp hr with hold | rfl
    · exact h r hold
    · rw [lapsed_iff, hstatus]
      rintro ⟨hreserved, _⟩
      cases hreserved

theorem noneLapsed_step_iff {s t : Commerce} {action : CommerceAction} (h : NoneLapsed s)
    (hstep : commerceStep s action = some t) : NoneLapsed t ↔ KeepsTime s action := by
  have hmoves := noneLapsed_moves h (moves_of_step hstep)
  have hclock := clock_of_step hstep
  unfold NoneLapsed
  rw [hclock]
  cases action with
  | tick ms =>
    cases hstep
    apply forall₂_congr
    intro r _
    rw [lapsed_iff, not_and, not_le]
  | grant | enqueue | reserve | consume | bill =>
    exact iff_of_true hmoves trivial

/-! ### After the expiry -/

/-- Along every run, lapsed reservations give their units and investigations
back in every state exactly where no reservation lapses. -/
theorem expiry_frees_iff (labels : List CommerceAction) :
    Always commerceStep Frees .initial labels ↔ Meets commerceStep KeepsTime .initial labels := by
  apply always_iff_meets labels (I := fun s => Kept s.db)
  · exact fun s a t hs hstep => kept_step hs hstep
  · intro s a t hs hfrees hstep
    rw [frees_iff hs] at hfrees
    rw [frees_iff (kept_step hs hstep)]
    exact noneLapsed_step_iff hfrees hstep
  · exact kept_initial
  · rw [frees_iff kept_initial]
    intro r hr
    cases hr

/-- The only unit of an entitlement is reserved and not consumed in time. -/
theorem expired_reservation_keeps_unit :
    ¬ ∀ labels, Always commerceStep Frees .initial labels := by
  intro h
  let input : ReserveInput :=
    { tenantId := 7, investigationRef := "case-1", tier := .basic, idempotencyKey := 11 }
  let labels : List CommerceAction :=
    [.grant 1 7 1 0 100000000 "manual-contract:1", .reserve ⟨3, some 7⟩ input 21 [] true,
      .tick 1200000]
  have hrun : (run commerceStep .initial labels).map (fun s =>
      s.db.entitlements.map fun e => (e.availableUnits,
        e.totalUnits - e.consumedUnits - (s.db.unexpiredOf e.id s.clock : Int))) =
      some [(0, 1)] := by
    decide
  obtain ⟨s, hs, hobs⟩ := Option.map_eq_some_iff.mp hrun
  obtain ⟨e, he, hunits⟩ := List.mem_map.mp (hobs ▸ List.mem_cons_self)
  obtain ⟨havailable, hleft⟩ := Prod.mk.inj hunits
  have hfrees := ((h labels).finish hs).units e he
  omega

end Bis.Commercial
