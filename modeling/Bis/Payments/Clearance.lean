import Bis.Payments.Schema

/-!
What flagging and clearing do to a transaction. A flag overwrites the status
without keeping it and a clear writes `completed`, so the pair restores the
status exactly where it was `completed`; and only a clear makes the balances
count money that was not moved.
-/

namespace Bis.Payments

open Bis.Relation Bis.Transition List

/-! ### What a payment step does to the transactions -/

/-- The changes a payment step may make to the `transactions` table. -/
inductive Rewrites (action : Action) (rows : List Transaction) : List Transaction → Prop
  | unchanged : Rewrites action rows rows
  | moved (p : Transaction → Bool) {status : TransactionStatus} (hflagged : status ≠ .flagged)
      (hcompleted : status ≠ .completed) :
      Rewrites action rows (updateWhere p (fun tx => tx.withStatus status) rows)
  | inserted (row : Transaction) (hid : row.id = (rows.map Transaction.id).foldr max 0 + 1)
      (hpending : row.status = .pending) : Rewrites action rows (rows ++ [row])
  | settled (p : Transaction → Bool)
      (hsettles : ∀ tx ∈ rows, p tx → ∀ db : Database,
        tx.withStatus .completed ∈ db.transactions → tx.id ∈ action.settles db) :
      Rewrites action rows (updateWhere p (fun tx => tx.withStatus .completed) rows)

section Payments

variable {s t : System} {action : Action} {db : Database}

theorem rewrites_setUnderReview (db : Database) (p : Transaction → Bool) :
    Rewrites action db.transactions (db.setUnderReview p).transactions := by
  rw [(setUnderReview_tables db p).1]
  apply Rewrites.moved
  · simp
  · simp

theorem rewrites_escalateNext (s : System) (worker : Nat) (item : PaymentOutboxRow)
    (errorCode : String) (rest : List Lease) :
    Rewrites action s.db.transactions
      (s.escalateNext worker item errorCode rest).db.transactions := by
  unfold System.escalateNext
  cases hescalate : s.db.escalate item errorCode with
  | none => exact .unchanged
  | some db =>
    unfold Database.escalate at hescalate
    split at hescalate
    · cases hescalate
      exact rewrites_setUnderReview (s.db.deadLetter item errorCode) item.pendingTransaction
    · cases hescalate

theorem rewrites_initiateTransfer (db : Database) (input : TransferInput) (now : Nat) :
    Rewrites action db.transactions (db.initiateTransfer input now).transactions := by
  unfold Database.initiateTransfer
  split
  next => exact .unchanged
  next tenantId _ =>
    split
    next => exact .unchanged
    next =>
      unfold Database.insertIntent
      dsimp only
      split
      next => exact .unchanged
      next => exact .inserted _ rfl rfl

theorem rewrites_resolveCase (db : Database) (transactionId : Nat) (tenantId : Int)
    (actorId : Nat) (resolution : Resolution) (now : Nat) :
    Rewrites (.resolveCase transactionId tenantId actorId resolution) db.transactions
      (db.resolveCase transactionId tenantId actorId resolution now).transactions := by
  unfold Database.resolveCase
  cases hlock : db.lockClaimedCase transactionId tenantId actorId with
  | none => exact .unchanged
  | some c =>
    obtain ⟨hcase, _⟩ := lockClaimedCase_spec hlock
    cases resolution with
    | confirmedSettled =>
      apply Rewrites.settled
      intro tx _ hp db' hdb'
      have hid : tx.id = transactionId := by
        unfold ReconciliationCase.reviewed at hp
        simp only [Bool.and_eq_true, beq_iff_eq] at hp
        exact hp.1.1.trans hcase
      refine mem_map.mpr ⟨tx.withStatus .completed, mem_filter.mpr ⟨hdb', ?_⟩, rfl⟩
      simp [Transaction.withStatus, hid]
    | confirmedNotSettled | approvedRetry => exact .moved _ (by simp) (by simp)
    | compensationRequired => exact .unchanged

theorem rewrites_of_paymentStep (h : paymentStep s action = some t) :
    Rewrites action s.db.transactions t.db.transactions := by
  cases systemTakes_of_step h with
  | initiateTransfer input => exact rewrites_initiateTransfer s.db input s.clock
  | expireLeases | claim | dispatched | stored | notStored | requeued | finishCycle | crash
  | claimCase | tick => exact .unchanged
  | rejected | exhausted => exact rewrites_escalateNext s _ _ _ _
  | freezeAccount accountId => exact .moved _ (by simp) (by simp)
  | resolveCase transactionId tenantId actorId resolution =>
    exact rewrites_resolveCase s.db transactionId tenantId actorId resolution s.clock

end Payments

/-! ### Where posted money comes from -/

/-- Completed transactions were moved, and so were flagged ones that were
completed before the flag or have been flagged since they were recorded. -/
structure Tracked (rows : List Transaction) (beforeFlag : Nat → Option TransactionStatus)
    (moved : List Nat) : Prop where
  ids : (rows.map Transaction.id).Nodup
  known : ∀ id, beforeFlag id ≠ none → id ∈ rows.map Transaction.id
  completed : ∀ tx ∈ rows, tx.status = .completed → tx.id ∈ moved
  flagged : ∀ tx ∈ rows, tx.status = .flagged →
    (∀ status, beforeFlag tx.id = some status → status = .completed) → tx.id ∈ moved

section Tables

variable {rows : List Transaction} {beforeFlag : Nat → Option TransactionStatus}
  {moved moved' : List Nat} {p : Transaction → Bool} {status : TransactionStatus}

theorem Tracked.overwrite (h : Tracked rows beforeFlag moved) (hstatus : status ≠ .flagged)
    (hmoved : moved ⊆ moved')
    (hcompleted : status = .completed → ∀ tx ∈ rows, p tx → tx.id ∈ moved') :
    Tracked (updateWhere p (fun tx => tx.withStatus status) rows) beforeFlag moved' where
  ids := by
    rw [ids_updateWhere]
    exact h.ids
  known id hid := by
    rw [ids_updateWhere]
    exact h.known id hid
  completed tx htx hdone := by
    rcases mem_updateWhere.mp htx with ⟨old, hold, hp, rfl⟩ | ⟨hold, _⟩
    · exact hcompleted hdone old hold hp
    · exact hmoved (h.completed tx hold hdone)
  flagged tx htx hflagged hbefore := by
    rcases mem_updateWhere.mp htx with ⟨old, _, _, rfl⟩ | ⟨hold, _⟩
    · exact absurd hflagged hstatus
    · exact hmoved (h.flagged tx hold hflagged hbefore)

theorem Tracked.append (h : Tracked rows beforeFlag moved) {row : Transaction}
    (hid : row.id = (rows.map Transaction.id).foldr max 0 + 1) (hmoved : moved ⊆ moved')
    (hrow : row.status = .completed ∨ row.status = .flagged → row.id ∈ moved') :
    Tracked (rows ++ [row]) beforeFlag moved' where
  ids := nodup_ids_append h.ids hid
  known id hknown := by
    rw [map_append]
    exact mem_append_left _ (h.known id hknown)
  completed tx htx hdone := by
    rcases mem_concat.mp htx with hold | rfl
    · exact hmoved (h.completed tx hold hdone)
    · exact hrow (.inl hdone)
  flagged tx htx hflagged hbefore := by
    rcases mem_concat.mp htx with hold | rfl
    · exact hmoved (h.flagged tx hold hflagged hbefore)
    · exact hrow (.inr hflagged)

end Tables

section Register

variable {s t : Register} {action : RegisterAction}

def Register.Tracked (s : Register) : Prop := Payments.Tracked s.rows s.beforeFlag s.moved

theorem rows_setStatus (s : Register) (p : Transaction → Bool) (status : TransactionStatus) :
    (s.setStatus p status).rows = updateWhere p (fun tx => tx.withStatus status) s.rows := by
  have hdb : (s.db.setStatus p status).transactions =
      updateWhere p (fun tx => tx.withStatus status) s.db.transactions := by
    unfold Database.setStatus
    split
    next hreview =>
      subst hreview
      exact (setUnderReview_tables s.db p).1
    next => rfl
  exact hdb

theorem noteFlag_eq (hids : (s.rows.map Transaction.id).Nodup) {tx : Transaction}
    (htx : tx ∈ s.rows) (p : Transaction → Bool) :
    s.noteFlag p tx.id =
      if p tx && tx.status != .flagged then some tx.status else s.beforeFlag tx.id := by
  have hfind := find?_of_key hids htx fun other => p other && other.status != .flagged
  simp only [← Bool.and_assoc] at hfind
  unfold Register.noteFlag
  rw [hfind]
  cases p tx && tx.status != .flagged <;> rfl

/-- A flag keeps the record of what was moved: it notes the status it erases. -/
theorem tracked_flag (h : s.Tracked) (p : Transaction → Bool) :
    (s.setStatus p .flagged).Tracked := by
  have hrows := rows_setStatus s p .flagged
  have hbefore : (s.setStatus p .flagged).beforeFlag = s.noteFlag p := by
    simp [Register.setStatus]
  unfold Register.Tracked
  rw [hrows, hbefore]
  constructor
  · rw [ids_updateWhere]
    exact h.ids
  · intro id hid
    rw [ids_updateWhere]
    unfold Register.noteFlag at hid
    split at hid
    next tx hfind =>
      have hmatch := find?_some hfind
      simp only [Bool.and_eq_true, beq_iff_eq] at hmatch
      exact mem_map.mpr ⟨tx, mem_of_find?_eq_some hfind, hmatch.1.1⟩
    next => exact h.known id hid
  · intro tx htx hdone
    rcases mem_updateWhere.mp htx with ⟨old, _, _, rfl⟩ | ⟨hold, _⟩
    · cases hdone
    · exact h.completed tx hold hdone
  · intro tx htx hflagged hall
    rcases mem_updateWhere.mp htx with ⟨old, hold, hp, rfl⟩ | ⟨hold, hp⟩
    · have hnote := noteFlag_eq h.ids hold p
      by_cases hstatus : old.status = .flagged
      · simp [hp, hstatus] at hnote
        exact h.flagged old hold hstatus fun status heq => hall status (hnote.trans heq)
      · simp [hp, hstatus] at hnote
        exact h.completed old hold (hall old.status hnote)
    · have hnote := noteFlag_eq h.ids hold p
      simp [hp] at hnote
      exact h.flagged tx hold hflagged fun status heq => hall status (hnote.trans heq)

theorem tracked_setStatus (h : s.Tracked) (p : Transaction → Bool) (status : TransactionStatus)
    (hcompleted : status = .completed → ∀ tx ∈ s.rows, p tx → tx.id ∈ s.moved) :
    (s.setStatus p status).Tracked := by
  by_cases hstatus : status = .flagged
  · subst hstatus
    exact tracked_flag h p
  · have hbefore : (s.setStatus p status).beforeFlag = s.beforeFlag := by
      simp [Register.setStatus, hstatus, Register.withDb]
    unfold Register.Tracked
    rw [rows_setStatus, hbefore]
    exact h.overwrite hstatus (List.Subset.refl _) hcompleted

theorem tracked_insert (h : s.Tracked) (input : NewTransaction) {status : TransactionStatus}
    {settled : Bool} (hsettled : status = .completed ∨ status = .flagged → settled = true) :
    (s.insert input status settled).Tracked := by
  unfold Register.insert
  cases hinsert : s.db.insertTransaction input status with
  | none => exact h
  | some db =>
    unfold Database.insertTransaction at hinsert
    split at hinsert
    · cases hinsert
    · cases hinsert
      apply Tracked.append h
      · rfl
      · cases settled with
        | true => exact subset_cons_self _ _
        | false => exact List.Subset.refl _
      · intro hstatus
        rw [hsettled hstatus]
        exact mem_cons_self

theorem tracked_reversed (h : s.Tracked) {db : Database} {call : ReversalCall}
    (hreverse : s.db.reverse call.tx call.txRef call.tenantId s.payments.clock = some db) :
    Tracked db.transactions s.beforeFlag (s.db.freshTransactionId :: s.moved) := by
  unfold Database.reverse at hreverse
  dsimp only at hreverse
  split at hreverse
  · cases hreverse
  · cases hreverse
    have hmarked : Tracked (updateWhere (reverses call.txRef call.tenantId)
        (fun tx => tx.withStatus .reversed) s.rows) s.beforeFlag s.moved :=
      h.overwrite (by simp) (List.Subset.refl s.moved) (by simp)
    apply Tracked.append hmarked
    · rw [ids_updateWhere]
      rfl
    · exact subset_cons_self _ _
    · intro _
      exact mem_cons_self

theorem tracked_update (h : s.Tracked) (p : Transaction → Bool) (status : UpdateStatus) :
    (s.setStatus p status.val).Tracked := by
  apply tracked_setStatus h
  intro hcompleted
  have hupdatable := status.property
  rw [hcompleted] at hupdatable
  cases hupdatable

theorem tracked_payment {action : Action} {payments : System} (h : s.Tracked)
    (hstep : paymentStep s.payments action = some payments) :
    Tracked payments.db.transactions s.beforeFlag (action.settles payments.db ++ s.moved) := by
  have hmoved : s.moved ⊆ action.settles payments.db ++ s.moved := subset_append_right _ _
  have hrewrites := rewrites_of_paymentStep hstep
  generalize hrows : payments.db.transactions = rows at hrewrites
  cases hrewrites with
  | unchanged =>
    exact ⟨h.ids, h.known, fun tx htx hdone => hmoved (h.completed tx htx hdone),
      fun tx htx hflagged hall => hmoved (h.flagged tx htx hflagged hall)⟩
  | moved p hflagged hcompleted =>
    apply Tracked.overwrite h hflagged hmoved
    intro hdone
    exact absurd hdone hcompleted
  | inserted row hid hpending =>
    apply Tracked.append h hid hmoved
    rintro (hdone | hflagged)
    · exact absurd (hpending.symm.trans hdone) (by simp)
    · exact absurd (hpending.symm.trans hflagged) (by simp)
  | settled p hsettles =>
    apply Tracked.overwrite h (by simp) hmoved
    intro _ tx htx hp
    apply mem_append_left
    apply hsettles tx htx hp
    rw [hrows]
    exact mem_updateWhere.mpr (.inl ⟨tx, htx, hp, rfl⟩)

/-- Every clear is of a transaction that was completed when it was flagged, or
that was flagged by no flag or update. -/
def ClearsCompleted (s : Register) : RegisterAction → Prop
  | .clear id tenantId => s.rows.any (clearable id tenantId) →
      ∀ status, s.beforeFlag id = some status → status = .completed
  | _ => True

theorem tracked_cleared (h : s.Tracked) {id : Nat} {tenantId : Int}
    (hcond : ClearsCompleted s (.clear id tenantId)) (hany : s.rows.any (clearable id tenantId)) :
    (s.setStatus (clearable id tenantId) .completed).Tracked := by
  apply tracked_setStatus h
  intro _ tx htx hp
  unfold clearable owned at hp
  simp only [Bool.and_eq_true, beq_iff_eq] at hp
  obtain ⟨⟨hid, _⟩, hflagged⟩ := hp
  apply h.flagged tx htx hflagged
  rw [hid]
  exact hcond hany

theorem tracked_step (h : s.Tracked) (hcond : ClearsCompleted s action)
    (hstep : registerStep s action = some t) : t.Tracked := by
  cases registerTakes_of_step hstep with
  | payment hpayments => exact tracked_payment h hpayments
  | created input score =>
    apply tracked_insert h
    split <;> simp
  | notCreated | notRecorded | readUpdate | emptyUpdate | notCleared | readReversal
  | notReversed => exact h
  | recorded input score => exact tracked_insert h input fun _ => rfl
  | storeStablecoin input confirmed =>
    apply tracked_insert h
    cases confirmed <;> simp
  | @updated call status hstatus updates => exact tracked_update h _ status
  | flagForReview | flag => exact tracked_setStatus h _ _ (by simp)
  | cleared hany clears => exact tracked_cleared h hcond hany
  | reversed hreverse reversals => exact tracked_reversed h hreverse

/-! ### Statuses before the flag and after the clear -/

def Register.UniqueIds (s : Register) : Prop := (s.rows.map Transaction.id).Nodup

theorem uniqueIds_setStatus (h : s.UniqueIds) (p : Transaction → Bool)
    (status : TransactionStatus) : (s.setStatus p status).UniqueIds := by
  unfold Register.UniqueIds
  rw [rows_setStatus, ids_updateWhere]
  exact h

/-- Every clear has left its transaction in the status it had before the flag. -/
def Restores (s : Register) : Prop :=
  ∀ clear ∈ s.clears, ∀ status, clear.before = some status → clear.after = some status

theorem clears_insert (s : Register) (input : NewTransaction) (status : TransactionStatus)
    (settled : Bool) : (s.insert input status settled).clears = s.clears := by
  unfold Register.insert
  cases s.db.insertTransaction input status <;> rfl

/-- Only `clear` adds to the record. -/
theorem clears_step (hstep : registerStep s action = some t)
    (hother : ∀ id tenantId, action ≠ .clear id tenantId) : t.clears = s.clears := by
  cases registerTakes_of_step hstep with
  | created input score | recorded input score | storeStablecoin input confirmed =>
    exact clears_insert s input _ _
  | @cleared id tenantId hany clears => exact absurd rfl (hother id tenantId)
  | _ => rfl

theorem transaction?_setStatus (h : s.UniqueIds) {p : Transaction → Bool}
    {status : TransactionStatus} {tx : Transaction} (htx : tx ∈ s.rows) (hp : p tx) :
    (s.setStatus p status).db.transaction? tx.id = some (tx.withStatus status) := by
  have hrows := rows_setStatus s p status
  have hids : ((s.setStatus p status).rows.map Transaction.id).Nodup := uniqueIds_setStatus h p status
  have hmem : tx.withStatus status ∈ (s.setStatus p status).rows := by
    rw [hrows]
    exact mem_updateWhere.mpr (.inl ⟨tx, htx, hp, rfl⟩)
  have hfind := find?_of_key hids hmem fun _ => true
  simp only [Bool.and_true, if_true] at hfind
  exact hfind

theorem restores_clear_iff (hids : s.UniqueIds) (hs : Restores s) (id : Nat) (tenantId : Int) :
    Restores (s.clear id tenantId) ↔ ClearsCompleted s (.clear id tenantId) := by
  unfold Register.clear
  dsimp only
  split
  next hany =>
    obtain ⟨tx, htx, hp⟩ := any_eq_true.mp hany
    have hid : tx.id = id := by
      unfold clearable owned at hp
      simp only [Bool.and_eq_true, beq_iff_eq] at hp
      exact hp.1.1
    have hafter : ((s.setStatus (clearable id tenantId) .completed).db.transaction? id).map
        Transaction.status = some .completed := by
      rw [← hid] at hp ⊢
      rw [transaction?_setStatus hids htx hp]
      rfl
    rw [hafter]
    constructor
    · intro hrestores _ status hbefore
      have hsame := hrestores _ mem_cons_self status hbefore
      exact (Option.some.inj hsame).symm
    · intro hcond clear hclear status hbefore
      rcases mem_cons.mp hclear with rfl | hold
      · rw [hcond hany status hbefore]
      · exact hs clear hold status hbefore
  next hnone =>
    constructor
    · intro _ hany
      exact absurd hany hnone
    · intro _
      exact hs

theorem restores_step_iff (hids : s.UniqueIds) (hs : Restores s)
    (hstep : registerStep s action = some t) : Restores t ↔ ClearsCompleted s action := by
  by_cases hclear : ∃ id tenantId, action = .clear id tenantId
  · obtain ⟨id, tenantId, rfl⟩ := hclear
    cases hstep
    exact restores_clear_iff hids hs id tenantId
  · have hother : ∀ id tenantId, action ≠ .clear id tenantId :=
      fun id tenantId h => hclear ⟨id, tenantId, h⟩
    have hcond : ClearsCompleted s action := by
      cases action with
      | clear id tenantId => exact absurd rfl (hother id tenantId)
      | _ => trivial
    unfold Restores
    rw [clears_step hstep hother]
    exact iff_of_true hs hcond

/-! ### The balances -/

theorem filter_posted {keep : Transaction → Bool} (chosen : Transaction → Bool)
    {rows : List Transaction} (h : ∀ tx ∈ rows, tx.status = .completed → keep tx) :
    (rows.filter chosen).filter Transaction.isPosted =
      ((rows.filter keep).filter chosen).filter Transaction.isPosted := by
  rw [filter_filter, filter_filter, filter_filter]
  apply filter_congr
  intro tx htx
  cases hposted : tx.isPosted with
  | false => rfl
  | true => rw [h tx htx (eq_of_beq hposted), Bool.and_true]

/-- The net balances shown are those of the transactions whose money was moved. -/
def CountsMoved (s : Register) : Prop :=
  ∀ (sums : RealSum) (input : BalancesInput) (page : Side → List GroupKey) (account : String),
    (getAccountBalances sums input s.rows page).netBalance account =
      (getAccountBalances sums input (s.rows.filter fun tx => s.moved.contains tx.id)
        page).netBalance account

theorem countsMoved_of_tracked (h : s.Tracked) : CountsMoved s := by
  intro sums input page account
  have hposted : ∀ side, input.posted sums side s.rows =
      input.posted sums side (s.rows.filter fun tx => s.moved.contains tx.id) := by
    intro side
    funext key
    refine congrArg (fun rows => sums.sum (rows.map Transaction.amount)) (filter_posted _ ?_)
    intro tx htx hdone
    exact contains_iff_mem.mpr (h.completed tx htx hdone)
  rw [netBalance_getAccountBalances, netBalance_getAccountBalances]
  simp only [BalancesInput.shown, hposted]

theorem tracked_initial : Register.initial.Tracked where
  ids := nodup_nil
  known id hid := absurd rfl hid
  completed tx htx := by
    cases htx
  flagged tx htx := by
    cases htx

end Register

/-- Flag and clear restore the status along a run exactly when only transactions
that were completed are cleared after a flag; the balances then count only money
that was moved. -/
theorem flag_clear_restores_iff (labels : List RegisterAction) :
    (Always registerStep Restores .initial labels ↔
      Meets registerStep ClearsCompleted .initial labels) ∧
    (Meets registerStep ClearsCompleted .initial labels →
      Always registerStep CountsMoved .initial labels) := by
  constructor
  · refine always_iff_meets labels (I := fun s => Linked s.db) ?_ ?_ linked_initial ?_
    · intro s a t hlinked hstep
      exact linked_registerStep hlinked hstep
    · intro s a t hlinked hs hstep
      exact restores_step_iff hlinked.transactionIds hs hstep
    · intro clear hclear
      cases hclear
  · intro hmeets
    have htracked := always_of_meets (fun s a t h hcond hstep => tracked_step h hcond hstep)
      tracked_initial hmeets
    exact htracked.mono fun s hs => countsMoved_of_tracked hs

/-- A pending transfer is flagged and cleared. -/
theorem cleared_pending_transfer_completed :
    ¬ ∀ labels, Always registerStep Restores .initial labels ∧
      Always registerStep CountsMoved .initial labels := by
  intro h
  let labels : List RegisterAction :=
    [.payment (.initiateTransfer sampleTransfer), .flag 1 7, .clear 1 7]
  have hrun : (run registerStep .initial labels).map Register.clears =
      some [⟨1, some .pending, some .completed⟩] := by
    decide
  obtain ⟨s, hs, hclears⟩ := Option.map_eq_some_iff.mp hrun
  have hrestores := ((h labels).1.finish hs) ⟨1, some .pending, some .completed⟩
    (hclears ▸ mem_cons_self) .pending rfl
  cases hrestores

end Bis.Payments
