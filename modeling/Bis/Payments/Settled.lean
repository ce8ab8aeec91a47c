import Bis.Payments.Clearance

/-!
Settled transactions in the transaction API. `update` refuses a transaction that
is completed or reversed, in a statement before the one that writes; `flag` writes
`under_review` without a look at the status. So a settled transaction keeps its
status where the row that is written is not settled at the write.

The other operations of the register, which complete transactions, run between
the calls of the API.
-/

namespace Bis.Payments

open Bis.Relation Bis.Transition

/-- The statuses that `update` refuses. -/
def TransactionStatus.settled (status : TransactionStatus) : Bool :=
  status == .completed || status == .reversed

/-- The calls of `transactions.create`, `update` and `flag` and of
`reverseTransfer`. -/
def RegisterAction.ofApi : RegisterAction → Bool
  | .createTransaction _ _ | .readUpdate _ | .writeUpdate _ | .flagForReview _ _
  | .readReversal _ _ | .writeReversal _ => true
  | _ => false

def RegisterAction.isReversal : RegisterAction → Bool
  | .writeReversal _ => true
  | _ => false

/-- What may become of a status, in a reversal or in another call. -/
structure StaysSettled (reversal : Bool) (before after : TransactionStatus) : Prop where
  completed : before = .completed → after = .completed ∨ (reversal ∧ after = .reversed)
  reversed : before = .reversed → after = .reversed

/-- Every transaction is still there with a status it may have. -/
def KeepsSettled (reversal : Bool) (rows rows' : List Transaction) : Prop :=
  ∀ tx ∈ rows, ∃ tx' ∈ rows', tx'.id = tx.id ∧ StaysSettled reversal tx.status tx'.status

/-- A call of the API changes a settled status only as a reversal does. -/
def SettledFinal (s : Register) (action : RegisterAction) : Prop :=
  action.ofApi → ∀ t, registerStep s action = some t →
    KeepsSettled action.isReversal s.rows t.rows

/-- No row of the `WHERE` clause of `update` and `flag` is settled. -/
def Unsettled (s : Register) (id : Nat) (tenantId : Option Int) : Prop :=
  ∀ tx ∈ s.rows, owned id tenantId tx → ¬ tx.status.settled

/-- The check of `update` holds when the row is written, and for a flag too. -/
def WritesUnsettled (s : Register) : RegisterAction → Prop
  | .writeUpdate call => call.status = none ∨ Unsettled s call.id call.tenantId
  | .flagForReview id tenantId => Unsettled s id tenantId
  | _ => True

theorem StaysSettled.refl (reversal : Bool) (status : TransactionStatus) :
    StaysSettled reversal status status := ⟨.inl, id⟩

theorem StaysSettled.of_not_settled {before : TransactionStatus} (h : ¬ before.settled)
    (reversal : Bool) (after : TransactionStatus) : StaysSettled reversal before after where
  completed hbefore := by
    rw [hbefore] at h
    exact (h rfl).elim
  reversed hbefore := by
    rw [hbefore] at h
    exact (h rfl).elim

theorem StaysSettled.reversing (status : TransactionStatus) : StaysSettled true status .reversed :=
  ⟨fun _ => .inr ⟨rfl, rfl⟩, fun _ => rfl⟩

theorem StaysSettled.trans {reversal reversal' : Bool} {a b c : TransactionStatus}
    (h : StaysSettled reversal a b) (h' : StaysSettled reversal' b c) : StaysSettled true a c where
  completed ha := by
    rcases h.completed ha with hb | ⟨_, hb⟩
    · exact (h'.completed hb).imp_right fun hc => ⟨rfl, hc.2⟩
    · exact .inr ⟨rfl, h'.reversed hb⟩
  reversed ha := h'.reversed (h.reversed ha)

theorem StaysSettled.not_settled {before after : TransactionStatus}
    (h : StaysSettled false before after) (hafter : ¬ after.settled) : ¬ before.settled := by
  intro hbefore
  rcases Bool.or_eq_true_iff.mp hbefore with hcompleted | hreversed
  · rcases h.completed (eq_of_beq hcompleted) with hkept | ⟨himpossible, _⟩
    · rw [hkept] at hafter
      exact hafter rfl
    · cases himpossible
  · rw [h.reversed (eq_of_beq hreversed)] at hafter
    exact hafter rfl

theorem not_settled_of_updatable {status : TransactionStatus} (h : updatable status) :
    ¬ status.settled := by
  cases status with
  | completed => cases h
  | reversed => cases h
  | pending | failed | flagged | blocked | underReview => exact Bool.false_ne_true

section Rows

variable {rows rows' rows'' : List Transaction} {reversal reversal' : Bool}

theorem keepsSettled_refl (reversal : Bool) (rows : List Transaction) :
    KeepsSettled reversal rows rows := fun tx htx => ⟨tx, htx, rfl, .refl reversal tx.status⟩

theorem KeepsSettled.trans (h : KeepsSettled reversal rows rows')
    (h' : KeepsSettled reversal' rows' rows'') : KeepsSettled true rows rows'' := by
  intro tx htx
  obtain ⟨tx', htx', hid, hstays⟩ := h tx htx
  obtain ⟨tx'', htx'', hid', hstays'⟩ := h' tx' htx'
  exact ⟨tx'', htx'', hid'.trans hid, hstays.trans hstays'⟩

theorem keepsSettled_append (h : KeepsSettled reversal rows rows') (new : List Transaction) :
    KeepsSettled reversal rows (rows' ++ new) := by
  intro tx htx
  obtain ⟨tx', htx', hkept⟩ := h tx htx
  exact ⟨tx', List.mem_append_left new htx', hkept⟩

variable {p : Transaction → Bool} {status : TransactionStatus}

theorem keepsSettled_updateWhere (hp : ∀ tx ∈ rows, p tx → StaysSettled reversal tx.status status) :
    KeepsSettled reversal rows (updateWhere p (fun tx => tx.withStatus status) rows) := by
  intro tx htx
  cases hsel : p tx with
  | true =>
    exact ⟨tx.withStatus status, mem_updateWhere.mpr (.inl ⟨tx, htx, hsel, rfl⟩), rfl,
      hp tx htx hsel⟩
  | false => exact ⟨tx, mem_updateWhere_of_not htx (by simp [hsel]), rfl, .refl _ _⟩

/-- Where a status that is not settled is written, no settled row was selected. -/
theorem not_settled_of_keepsSettled (hids : (rows.map Transaction.id).Nodup)
    (hstatus : ¬ status.settled)
    (h : KeepsSettled false rows (updateWhere p (fun tx => tx.withStatus status) rows)) :
    ∀ tx ∈ rows, p tx → ¬ tx.status.settled := by
  intro tx htx hp
  obtain ⟨tx', htx', hid, hstays⟩ := h tx htx
  have hwritten : tx.withStatus status ∈ updateWhere p (fun tx => tx.withStatus status) rows :=
    mem_updateWhere.mpr (.inl ⟨tx, htx, hp, rfl⟩)
  have hids' :
      ((updateWhere p (fun tx => tx.withStatus status) rows).map Transaction.id).Nodup := by
    rw [ids_updateWhere]
    exact hids
  obtain rfl : tx' = tx.withStatus status := List.inj_on_of_nodup_map hids' htx' hwritten hid
  exact hstays.not_settled hstatus

end Rows

section Calls

variable {s t : Register} {action : RegisterAction}

theorem rows_insert (s : Register) (input : NewTransaction) (status : TransactionStatus)
    (settled : Bool) : ∃ new, (s.insert input status settled).rows = s.rows ++ new := by
  unfold Register.insert
  cases hinsert : s.db.insertTransaction input status with
  | none => exact ⟨[], (List.append_nil s.rows).symm⟩
  | some db =>
    unfold Database.insertTransaction at hinsert
    split at hinsert
    · cases hinsert
    · cases hinsert
      exact ⟨_, rfl⟩

theorem rows_reverse {db db' : Database} {tx : Transaction} {txRef : String}
    {tenantId : Option Int} {now : Nat} (h : db.reverse tx txRef tenantId now = some db') :
    ∃ new, db'.transactions =
      updateWhere (reverses txRef tenantId) (fun row => row.withStatus .reversed)
        db.transactions ++ new := by
  unfold Database.reverse at h
  dsimp only at h
  split at h
  · cases h
  · cases h
    exact ⟨_, rfl⟩

/-- One call of the API: only `update` and `flag` write a status that is not
settled. -/
theorem settledFinal_iff (hlinked : Linked s.db) (h : registerStep s action = some t) :
    SettledFinal s action ↔ WritesUnsettled s action := by
  have honly : SettledFinal s action ↔
      (action.ofApi → KeepsSettled action.isReversal s.rows t.rows) := by
    constructor
    · exact fun hfinal hapi => hfinal hapi t h
    · intro hkeeps hapi t' ht'
      obtain rfl := Option.some.inj (h.symm.trans ht')
      exact hkeeps hapi
  rw [honly]
  cases registerTakes_of_step h with
  | payment | recorded | notRecorded | storeStablecoin | flag | cleared | notCleared =>
    exact iff_of_true (fun hapi => by cases hapi) trivial
  | created input score =>
    refine iff_of_true (fun _ => ?_) trivial
    obtain ⟨new, hrows⟩ := rows_insert s input (if 100 ≤ score then .blocked else .pending) false
    rw [hrows]
    exact keepsSettled_append (keepsSettled_refl _ _) new
  | notCreated | readUpdate | readReversal | notReversed =>
    exact iff_of_true (fun _ => keepsSettled_refl _ _) trivial
  | emptyUpdate hstatus updates =>
    exact iff_of_true (fun _ => keepsSettled_refl _ _) (.inl hstatus)
  | @updated call status hstatus updates =>
    have hrows := rows_setStatus s (owned call.id call.tenantId) status.val
    constructor
    · intro hkeeps
      have hwritten := hkeeps rfl
      change KeepsSettled false s.rows (s.setStatus _ status.val).rows at hwritten
      rw [hrows] at hwritten
      exact .inr (not_settled_of_keepsSettled hlinked.transactionIds
        (not_settled_of_updatable status.property) hwritten)
    · rintro (hnone | hunsettled) _
      · rw [hstatus] at hnone
        cases hnone
      · change KeepsSettled false s.rows (s.setStatus _ status.val).rows
        rw [hrows]
        exact keepsSettled_updateWhere fun tx htx hp => .of_not_settled (hunsettled tx htx hp) _ _
  | flagForReview id tenantId =>
    rw [rows_setStatus]
    constructor
    · intro hkeeps
      exact not_settled_of_keepsSettled hlinked.transactionIds
        (not_settled_of_updatable (rfl : updatable .underReview)) (hkeeps rfl)
    · intro hunsettled _
      exact keepsSettled_updateWhere fun tx htx hp => .of_not_settled (hunsettled tx htx hp) _ _
  | @reversed call db hreverse reversals =>
    refine iff_of_true (fun _ => ?_) trivial
    obtain ⟨new, hrows⟩ := rows_reverse hreverse
    change KeepsSettled true s.rows db.transactions
    rw [hrows]
    exact keepsSettled_append
      (keepsSettled_updateWhere fun tx _ _ => .reversing tx.status) new

/-- A stretch of calls of the API keeps what was settled at its start. -/
theorem always_keepsSettled {start : Register} (hlinked : Linked s.db)
    (hstart : KeepsSettled true start.rows s.rows) {calls : List RegisterAction}
    (hapi : ∀ call ∈ calls, call.ofApi) (hmeets : Meets registerStep WritesUnsettled s calls) :
    Always registerStep (fun t => KeepsSettled true start.rows t.rows) s calls := by
  have hcalls : Meets registerStep (fun _ call => call.ofApi) s calls :=
    .of_forall fun call hcall _ => hapi call hcall
  have hboth := hmeets.and hcalls
  refine Always.mono (fun t ht => ht.2) (always_of_meets (I := fun t => Linked t.db ∧
    KeepsSettled true start.rows t.rows) ?_ ⟨hlinked, hstart⟩ hboth)
  rintro t call t' ⟨htlinked, hkept⟩ ⟨hwrites, hcall⟩ hstep
  have hfinal := (settledFinal_iff htlinked hstep).mpr hwrites
  exact ⟨linked_registerStep htlinked hstep, hkept.trans (hfinal hcall t' hstep)⟩

end Calls

/-- Settled statuses are final in exactly the runs where no settled row is
written by `update` or `flag`; and in a stretch of such calls, from any state of
the system, what is completed stays so or is reversed and what is reversed stays so. -/
theorem settled_final_iff (labels : List RegisterAction) :
    (Meets registerStep SettledFinal .initial labels ↔
      Meets registerStep WritesUnsettled .initial labels) ∧
    ∀ s calls, run registerStep .initial labels = some s → (∀ call ∈ calls, call.ofApi) →
      Meets registerStep WritesUnsettled s calls →
      Always registerStep (fun t => KeepsSettled true s.rows t.rows) s calls := by
  constructor
  · have hfree : Meets registerStep (fun _ _ => True) .initial labels :=
      .of_forall fun _ _ _ => trivial
    exact meets_iff_meets (fun _ _ _ hlinked _ hstep => linked_registerStep hlinked hstep)
      (fun _ _ _ hlinked _ hstep => settledFinal_iff hlinked hstep) linked_initial hfree
  · intro s calls hrun hapi hmeets
    have hlinked : Linked s.db := run_invariant (I := fun s => Linked s.db)
      (fun _ _ _ => linked_registerStep) linked_initial hrun
    exact always_keepsSettled hlinked (keepsSettled_refl true s.rows) hapi hmeets

def recordedDeposit : NewTransaction where
  tenantId := some 7
  txRef := "TXN-1"
  idempotencyKey := none
  amount := 5000
  currency := "NGN"
  originatorName := "Ada"
  originatorAccount := none
  beneficiaryName := "Obi"
  beneficiaryAccount := none
  beneficiaryBank := none

/-- A completed transaction is put under review. -/
theorem flag_unsettles :
    ¬ ∀ labels : List RegisterAction, Meets registerStep SettledFinal .initial labels := by
  intro h
  have hflag := (h [.recordTransaction recordedDeposit 0, .flagForReview 1 (some 7)] _ rfl).2 _ rfl
  obtain ⟨tx', htx', _, hstays⟩ := hflag.1 rfl _ rfl (recordedDeposit.row 1 .completed)
    List.mem_cons_self
  change tx' ∈ [recordedDeposit.row 1 .underReview] at htx'
  obtain rfl := List.mem_singleton.mp htx'
  rcases hstays.completed rfl with hkept | ⟨himpossible, _⟩
  · cases hkept
  · cases himpossible

end Bis.Payments
