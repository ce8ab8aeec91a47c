import Bis.Settlement.Webhook
import Bis.Transactions.QuickScore
import Mathlib.Data.List.Perm.Basic

/-!
The creation of a transaction: a look for the idempotency key, the insert of the
transaction and, from 50 points on, the insert of an alert. The statements are steps of
their own, with calls interleaved; a call may stop between two of them, and a client
sends its request again.

References and what becomes of a statement come from outside. Instants are left out:
no statement reads them.
-/

namespace Bis.Transactions

open Bis.Relation Bis.Transition List Option
open Bis.Settlement (utf16Length)

inductive TxType where
  | cashDeposit | cashWithdrawal | wireTransfer | swiftMt103 | swiftMt202 | sepaCredit | sepaDebit
  | internalTransfer | fxConversion | mobileMoney | rtgs | nip | cheque
  deriving DecidableEq

structure CreateInput extends ScoreData where
  txType : TxType
  originatorName : String
  (originatorAccount originatorBank : Option String)
  beneficiaryName : String
  (beneficiaryAccount beneficiaryBank purposeCode idempotencyKey : Option String)
  deriving DecidableEq

/-- The input schema; a key it takes is not empty. -/
def CreateInput.accepted (input : CreateInput) : Bool :=
  0 < input.amount && utf16Length input.currency == 3 && 1 ≤ utf16Length input.originatorName &&
    utf16Length input.originatorCountry == 2 && 1 ≤ utf16Length input.beneficiaryName &&
    utf16Length input.beneficiaryCountry == 2 &&
    input.idempotencyKey.all fun key => 8 ≤ utf16Length key && utf16Length key ≤ 256

abbrev AcceptedInput := { input : CreateInput // input.accepted }

/-- A call: who makes it and with what input. -/
structure Request where
  tenantId : Option Int
  userId : Nat
  input : AcceptedInput
  deriving DecidableEq

def Request.idempotencyKey (request : Request) : Option String := request.input.val.idempotencyKey

def Request.quickScore (request : Request) : QuickScore :=
  Transactions.quickScore request.input.val.toScoreData

inductive TransactionStatus where
  | pending | blocked
  deriving DecidableEq

/-- A row of `transactions`; the columns the input gives are kept together. -/
structure Transaction where
  id : Nat
  tenantId : Option Int
  txRef : String
  input : AcceptedInput
  amlRiskLevel : RiskLevel
  amlScore : Nat
  amlFlags : List String
  flaggedBy : Option Nat
  status : TransactionStatus
  deriving DecidableEq

def Transaction.idempotencyKey (tx : Transaction) : Option String := tx.input.val.idempotencyKey

structure AmlAlert where
  tenantId : Option Int
  alertRef : String
  transactionId : Nat
  riskLevel : RiskLevel
  (title description : String)
  triggeredValue : Rat

/-- The score from which a transaction is flagged and gets an alert. -/
def alertScore : Nat := 50

def Request.row (request : Request) (id : Nat) (txRef : String) : Transaction where
  id
  tenantId := request.tenantId
  txRef
  input := request.input
  amlRiskLevel := request.quickScore.riskLevel
  amlScore := request.quickScore.score
  amlFlags := request.quickScore.flags
  flaggedBy := if alertScore ≤ request.quickScore.score then some request.userId else none
  status := if 100 ≤ request.quickScore.score then .blocked else .pending

def Request.alert (request : Request) (tx : Transaction) (alertRef : String) : AmlAlert where
  tenantId := request.tenantId
  alertRef
  transactionId := tx.id
  riskLevel := request.quickScore.riskLevel
  title := "High-risk transaction: " ++ tx.txRef
  description := "Transaction scored " ++ toString request.quickScore.score ++ "/100. Flags: " ++
    ", ".intercalate request.quickScore.flags
  triggeredValue := request.input.val.amount

/-- The next statement of a call. -/
inductive Phase where
  | inserting
  /-- The insert has failed, and the key is looked up again. -/
  | rereading
  | alerting (tx : Transaction)
  deriving DecidableEq

structure Call where
  request : Request
  phase : Phase
  deriving DecidableEq

/-- What becomes of an insert: `lost` has taken effect, but the call sees an error. -/
inductive Outcome where
  | done | failed | lost
  deriving DecidableEq

structure Store where
  transactions : List Transaction
  alerts : List AmlAlert
  calls : List Call
  /-- The transactions that were returned to a client; no statement reads it. -/
  answered : List Nat

namespace Store

def empty : Store := ⟨[], [], [], []⟩

/-- The lookup of a key, in the tenant of the caller where it has one. -/
def existing (s : Store) (request : Request) : Option Transaction :=
  request.idempotencyKey.bind fun key => s.transactions.find? fun tx =>
    tx.idempotencyKey == some key &&
      request.tenantId.all fun tenantId => tx.tenantId == some tenantId

def freshId (s : Store) : Nat := (s.transactions.map Transaction.id).foldr max 0 + 1

/-- A unique column of the row is taken. -/
def clashes (s : Store) (tx : Transaction) : Bool :=
  s.transactions.any fun other => other.txRef == tx.txRef ||
    (tx.idempotencyKey.isSome && other.idempotencyKey == tx.idempotencyKey)

def answer (s : Store) (tx : Transaction) : Store := { s with answered := tx.id :: s.answered }

def proceed (s : Store) (request : Request) (phase : Phase) : Store :=
  { s with calls := ⟨request, phase⟩ :: s.calls }

def stop (s : Store) (call : Call) : Store := { s with calls := s.calls.erase call }

/-- An error of the insert is thrown on where there is no key. -/
def recover (s : Store) (request : Request) : Store :=
  if request.idempotencyKey.isSome then s.proceed request .rereading else s

def create (s : Store) (request : Request) : Store :=
  match s.existing request with
  | some tx => s.answer tx
  | none => s.proceed request .inserting

def insertTransaction (s : Store) (call : Call) (txRef : String) (outcome : Outcome) : Store :=
  let tx := call.request.row s.freshId txRef
  if outcome = .failed ∨ s.clashes tx then (s.stop call).recover call.request
  else
    let stored := { s.stop call with transactions := s.transactions ++ [tx] }
    if outcome = .lost then stored.recover call.request
    else if alertScore ≤ tx.amlScore then stored.proceed call.request (.alerting tx)
    else stored.answer tx

def reread (s : Store) (call : Call) : Store :=
  match s.existing call.request with
  | some tx => (s.stop call).answer tx
  | none => s.stop call

/-- The insert of an alert fails where the reference is taken. -/
def refusesAlert (s : Store) (alertRef : String) (outcome : Outcome) : Bool :=
  outcome == .failed || s.alerts.any fun alert => alert.alertRef == alertRef

def insertAlert (s : Store) (call : Call) (tx : Transaction) (alertRef : String)
    (outcome : Outcome) : Store :=
  if s.refusesAlert alertRef outcome then s.stop call
  else
    let stored := { s.stop call with alerts := s.alerts ++ [call.request.alert tx alertRef] }
    if outcome = .lost then stored else stored.answer tx

end Store

inductive Action where
  /-- A request, sent for the first time or again, up to its insert. -/
  | create (request : Request)
  | insertTransaction (call : Call) (txRef : String) (outcome : Outcome)
  | reread (call : Call)
  | insertAlert (call : Call) (alertRef : String) (outcome : Outcome)
  /-- The call ends without an answer, or with the error of a read. -/
  | crash (call : Call)

def step : Step Store Action
  | s, .create request => some (s.create request)
  | s, .insertTransaction call txRef outcome =>
    if call ∈ s.calls ∧ call.phase = .inserting then
      some (s.insertTransaction call txRef outcome)
    else none
  | s, .reread call =>
    if call ∈ s.calls ∧ call.phase = .rereading then some (s.reread call) else none
  | s, .insertAlert call alertRef outcome =>
    match call.phase with
    | .alerting tx =>
      if call ∈ s.calls then some (s.insertAlert call tx alertRef outcome) else none
    | _ => none
  | s, .crash call => if call ∈ s.calls then some (s.stop call) else none

/-! ### What a step does to the tables -/

/-- The transaction whose alert a call is about to insert. -/
def Call.due (call : Call) : Option Transaction :=
  match call.phase with
  | .alerting tx => some tx
  | _ => none

def due (calls : List Call) : List Transaction := calls.filterMap Call.due

/-- No call with a key is stopped between a transaction that needs an alert and the
alert: its insert of the transaction is not lost, its insert of the alert takes effect,
and it does not crash in between. -/
def AlertWritten (s : Store) : Action → Prop
  | .insertTransaction call txRef .lost =>
    s.clashes (call.request.row s.freshId txRef) ∨
      (alertScore ≤ (call.request.row s.freshId txRef).amlScore →
        call.request.idempotencyKey = none)
  | .insertAlert call alertRef outcome =>
    s.refusesAlert alertRef outcome → ∀ tx ∈ call.due, tx.idempotencyKey = none
  | .crash call => ∀ tx ∈ call.due, tx.idempotencyKey = none
  | _ => True

/-- A row that can be stored. -/
structure Fresh (s : Store) (tx : Transaction) : Prop where
  id : tx.id = s.freshId
  free : ¬ s.clashes tx

/-- What a step does to the tables, the due alerts and the answers, and whether it
meets the condition. -/
inductive Effect (s : Store) (action : Action) : Store → Prop
  | quiet {calls : List Call} (hdue : (due calls).Perm (due s.calls))
      (hwritten : AlertWritten s action) : Effect s action { s with calls }
  | repeated {calls : List Call} {tx : Transaction} (hdue : (due calls).Perm (due s.calls))
      (hmem : tx ∈ s.transactions) (hkey : tx.idempotencyKey ≠ none)
      (hwritten : AlertWritten s action) :
      Effect s action { s with calls, answered := tx.id :: s.answered }
  | lost {calls : List Call} {tx : Transaction} (hdue : (due calls).Perm (due s.calls))
      (hfresh : Fresh s tx)
      (hwritten : AlertWritten s action ↔ (alertScore ≤ tx.amlScore → tx.idempotencyKey = none)) :
      Effect s action { s with calls, transactions := s.transactions ++ [tx] }
  | stored {calls : List Call} {tx : Transaction} (hdue : (due calls).Perm (due s.calls))
      (hfresh : Fresh s tx) (hlow : ¬ alertScore ≤ tx.amlScore)
      (hwritten : AlertWritten s action) :
      Effect s action
        { s with calls, transactions := s.transactions ++ [tx], answered := tx.id :: s.answered }
  | flagged {calls : List Call} {tx : Transaction} (hdue : (due calls).Perm (tx :: due s.calls))
      (hfresh : Fresh s tx) (hscore : alertScore ≤ tx.amlScore) (hwritten : AlertWritten s action) :
      Effect s action { s with calls, transactions := s.transactions ++ [tx] }
  | alerted {calls : List Call} {tx : Transaction} {alert : AmlAlert} {answered : List Nat}
      (hdue : (tx :: due calls).Perm (due s.calls)) (halert : alert.transactionId = tx.id)
      (hanswered : answered = s.answered ∨ answered = tx.id :: s.answered)
      (hwritten : AlertWritten s action) :
      Effect s action { s with calls, alerts := s.alerts ++ [alert], answered }
  | dropped {calls : List Call} {tx : Transaction} (hdue : (tx :: due calls).Perm (due s.calls))
      (hwritten : AlertWritten s action ↔ tx.idempotencyKey = none) :
      Effect s action { s with calls }

section Effects

variable {s t : Store} {call : Call} {action : Action} {calls : List Call} {tx : Transaction}

theorem due_erase (h : call ∈ calls) :
    (call.due.toList ++ due (calls.erase call)).Perm (due calls) := by
  have hperm := ((perm_cons_erase h).filterMap Call.due).symm
  unfold due
  rw [filterMap_cons] at hperm
  cases hdue : call.due with
  | none | some =>
    rw [hdue] at hperm
    exact hperm

theorem due_erase_of_none (h : call ∈ calls) (hnone : call.due = none) :
    (due (calls.erase call)).Perm (due calls) := by
  have hperm := due_erase h
  rw [hnone] at hperm
  exact hperm

theorem due_erase_of_some (h : call ∈ calls) (hsome : call.due = some tx) :
    (tx :: due (calls.erase call)).Perm (due calls) := by
  have hperm := due_erase h
  rw [hsome] at hperm
  exact hperm

theorem existing_spec {request : Request} (h : s.existing request = some tx) :
    tx ∈ s.transactions ∧ tx.idempotencyKey ≠ none := by
  obtain ⟨key, _, hfind⟩ := bind_eq_some_iff.mp h
  have hboth := find?_some hfind
  rw [Bool.and_eq_true, beq_iff_eq] at hboth
  refine ⟨mem_of_find?_eq_some hfind, ?_⟩
  rw [hboth.1]
  exact some_ne_none key

/-- A failed insert leaves no alert due. -/
theorem recover_calls (s : Store) (request : Request) :
    ∃ calls, s.recover request = { s with calls } ∧ due calls = due s.calls := by
  unfold Store.recover
  split
  · exact ⟨⟨request, .rereading⟩ :: s.calls, rfl, rfl⟩
  · exact ⟨s.calls, rfl, rfl⟩

theorem effect_create (s : Store) (request : Request) :
    Effect s (.create request) (s.create request) := by
  unfold Store.create
  cases hexisting : s.existing request with
  | none =>
    exact @Effect.quiet s (.create request) (⟨request, .inserting⟩ :: s.calls) (.refl _) trivial
  | some tx =>
    obtain ⟨hmem, hkey⟩ := existing_spec hexisting
    exact .repeated (.refl _) hmem hkey trivial

theorem effect_insertTransaction (hcall : call ∈ s.calls) (hphase : call.phase = .inserting)
    (txRef : String) (outcome : Outcome) :
    Effect s (.insertTransaction call txRef outcome) (s.insertTransaction call txRef outcome) := by
  have hnone : call.due = none := by simp [Call.due, hphase]
  have hdue := due_erase_of_none hcall hnone
  unfold Store.insertTransaction
  dsimp only
  split
  next hfails =>
    obtain ⟨calls, hrecover, hcalls⟩ := recover_calls (s.stop call) call.request
    rw [hrecover]
    refine .quiet (hcalls ▸ hdue) ?_
    cases outcome with
    | done => trivial
    | failed => trivial
    | lost => exact .inl (hfails.resolve_left Outcome.noConfusion)
  next hstored =>
    have hfresh : Fresh s (call.request.row s.freshId txRef) :=
      ⟨rfl, fun hclash => hstored (.inr hclash)⟩
    cases outcome with
    | failed => exact (hstored (.inl rfl)).elim
    | lost =>
      rw [if_pos rfl]
      obtain ⟨calls, hrecover, hcalls⟩ := recover_calls
        { s.stop call with
          transactions := s.transactions ++ [call.request.row s.freshId txRef] } call.request
      rw [hrecover]
      exact .lost (hcalls ▸ hdue) hfresh ⟨fun h => h.resolve_left hfresh.free, .inr⟩
    | done =>
      rw [if_neg Outcome.noConfusion]
      split
      next hscore => exact .flagged (hdue.cons _) hfresh hscore trivial
      next hlow => exact .stored hdue hfresh hlow trivial

theorem effect_insertAlert (hcall : call ∈ s.calls) (hsome : call.due = some tx) (alertRef : String)
    (outcome : Outcome) :
    Effect s (.insertAlert call alertRef outcome) (s.insertAlert call tx alertRef outcome) := by
  have hdue := due_erase_of_some hcall hsome
  have honly : (∀ tx' ∈ call.due, tx'.idempotencyKey = none) ↔ tx.idempotencyKey = none := by
    simp [hsome]
  unfold Store.insertAlert
  split
  next hrefused => exact .dropped hdue ⟨fun h => honly.mp (h hrefused), fun h _ => honly.mpr h⟩
  next hwritten =>
    dsimp only
    split
    next => exact .alerted hdue rfl (.inl rfl) fun hrefused => (hwritten hrefused).elim
    next => exact .alerted hdue rfl (.inr rfl) fun hrefused => (hwritten hrefused).elim

theorem effect_crash (hcall : call ∈ s.calls) : Effect s (.crash call) (s.stop call) := by
  cases hdue : call.due with
  | none => exact .quiet (due_erase_of_none hcall hdue) (by simp [AlertWritten, hdue])
  | some tx => exact .dropped (due_erase_of_some hcall hdue) (by simp [AlertWritten, hdue])

theorem effect_of_step (h : step s action = some t) : Effect s action t := by
  cases action with
  | create request =>
    cases h
    exact effect_create s request
  | insertTransaction call txRef outcome =>
    simp only [step, ite_none_right_eq_some, some.injEq] at h
    obtain ⟨⟨hcall, hphase⟩, rfl⟩ := h
    exact effect_insertTransaction hcall hphase txRef outcome
  | reread call =>
    simp only [step, ite_none_right_eq_some, some.injEq] at h
    obtain ⟨⟨hcall, hphase⟩, rfl⟩ := h
    have hdue := due_erase_of_none hcall (by simp [Call.due, hphase])
    unfold Store.reread
    cases hexisting : s.existing call.request with
    | none => exact .quiet hdue trivial
    | some tx =>
      obtain ⟨hmem, hkey⟩ := existing_spec hexisting
      exact .repeated hdue hmem hkey trivial
  | insertAlert call alertRef outcome =>
    simp only [step] at h
    split at h
    next tx hphase =>
      simp only [ite_none_right_eq_some, some.injEq] at h
      obtain ⟨hcall, rfl⟩ := h
      exact effect_insertAlert hcall (by simp [Call.due, hphase]) alertRef outcome
    next => cases h
  | crash call =>
    simp only [step, ite_none_right_eq_some, some.injEq] at h
    obtain ⟨hcall, rfl⟩ := h
    exact effect_crash hcall

end Effects

/-! ### What holds in every state -/

def Store.alertsOf (s : Store) (tx : Transaction) : List AmlAlert :=
  s.alerts.filter fun alert => alert.transactionId == tx.id

/-- A transaction whose alert is due has none yet, and is known to a client only
through its key. -/
structure Due (s : Store) (tx : Transaction) : Prop where
  mem : tx ∈ s.transactions
  score : alertScore ≤ tx.amlScore
  unalerted : tx.id ∉ s.alerts.map AmlAlert.transactionId
  unanswered : tx.idempotencyKey = none → tx.id ∉ s.answered

structure Sound (s : Store) : Prop where
  ids : (s.transactions.map Transaction.id).Nodup
  keys : ∀ tx ∈ s.transactions, ∀ other ∈ s.transactions, tx.idempotencyKey ≠ none →
    other.idempotencyKey = tx.idempotencyKey → other = tx
  alertIds : (s.alerts.map AmlAlert.transactionId).Nodup
  alertsStored : ∀ id ∈ s.alerts.map AmlAlert.transactionId, id ∈ s.transactions.map Transaction.id
  answeredStored : ∀ id ∈ s.answered, id ∈ s.transactions.map Transaction.id
  dueOnce : (due s.calls).Nodup
  due : ∀ tx ∈ due s.calls, Due s tx

section Sound

variable {s t : Store} {tx : Transaction} {calls : List Call} {action : Action}

theorem sound_empty : Sound .empty where
  ids := nodup_nil
  keys tx htx := by cases htx
  alertIds := nodup_nil
  alertsStored id hid := by cases hid
  answeredStored id hid := by cases hid
  dueOnce := nodup_nil
  due tx htx := by cases htx

theorem Fresh.id_not_mem (h : Fresh s tx) : tx.id ∉ s.transactions.map Transaction.id := by
  rw [h.id]
  exact fresh_not_mem _

theorem Fresh.ne (h : Fresh s tx) {other : Transaction} (hother : other ∈ s.transactions) :
    other.id ≠ tx.id := by
  intro hid
  exact h.id_not_mem (hid ▸ mem_map_of_mem hother)

theorem Fresh.key_ne (h : Fresh s tx) {other : Transaction} (hother : other ∈ s.transactions)
    (hkey : tx.idempotencyKey ≠ none) : other.idempotencyKey ≠ tx.idempotencyKey := by
  intro hsame
  refine h.free (any_eq_true.mpr ⟨other, hother, ?_⟩)
  simp [hsame, isSome_iff_ne_none.mpr hkey]

/-- A call may go on, or end, as long as the same alerts are due. -/
theorem Sound.proceed (h : Sound s)
    (hdue : (Transactions.due calls).Perm (Transactions.due s.calls)) : Sound { s with calls } where
  ids := h.ids
  keys := h.keys
  alertIds := h.alertIds
  alertsStored := h.alertsStored
  answeredStored := h.answeredStored
  dueOnce := hdue.nodup_iff.mpr h.dueOnce
  due tx htx := by
    obtain ⟨hmem, hscore, hunalerted, hunanswered⟩ := h.due tx (hdue.mem_iff.mp htx)
    exact ⟨hmem, hscore, hunalerted, hunanswered⟩

theorem Sound.answer (h : Sound s) (hmem : tx ∈ s.transactions)
    (hknown : tx.idempotencyKey ≠ none ∨ tx ∉ Transactions.due s.calls) : Sound (s.answer tx) where
  ids := h.ids
  keys := h.keys
  alertIds := h.alertIds
  alertsStored := h.alertsStored
  answeredStored id hid := by
    rcases mem_cons.mp hid with rfl | hid
    · exact mem_map_of_mem hmem
    · exact h.answeredStored id hid
  dueOnce := h.dueOnce
  due other hother := by
    obtain ⟨hstored, hscore, hunalerted, hunanswered⟩ := h.due other hother
    refine ⟨hstored, hscore, hunalerted, ?_⟩
    intro hkey hanswered
    rcases mem_cons.mp hanswered with hid | hanswered
    · obtain rfl : other = tx := inj_on_of_nodup_map h.ids hstored hmem hid
      rcases hknown with hsome | hfree
      · exact hsome hkey
      · exact hfree hother
    · exact hunanswered hkey hanswered

theorem Sound.store (h : Sound s) (hfresh : Fresh s tx) :
    Sound { s with transactions := s.transactions ++ [tx] } where
  ids := by
    rw [map_append]
    exact nodup_append_fresh h.ids hfresh.id_not_mem
  keys a ha b hb hkey hsame := by
    rcases mem_append.mp ha with hold | hnew
    · rcases mem_append.mp hb with hold' | hnew'
      · exact h.keys a hold b hold' hkey hsame
      · obtain rfl := mem_singleton.mp hnew'
        exact (hfresh.key_ne hold (hsame ▸ hkey) hsame.symm).elim
    · obtain rfl := mem_singleton.mp hnew
      rcases mem_append.mp hb with hold' | hnew'
      · exact (hfresh.key_ne hold' hkey hsame).elim
      · exact mem_singleton.mp hnew'
  alertIds := h.alertIds
  alertsStored id hid := by
    rw [map_append]
    exact mem_append_left _ (h.alertsStored id hid)
  answeredStored id hid := by
    rw [map_append]
    exact mem_append_left _ (h.answeredStored id hid)
  dueOnce := h.dueOnce
  due other hother := by
    obtain ⟨hstored, hscore, hunalerted, hunanswered⟩ := h.due other hother
    exact ⟨mem_append_left _ hstored, hscore, hunalerted, hunanswered⟩

/-- The alert of a transaction becomes due. -/
theorem Sound.flag (h : Sound s)
    (hdue : (Transactions.due calls).Perm (tx :: Transactions.due s.calls))
    (hnew : tx ∉ Transactions.due s.calls) (htx : Due s tx) : Sound { s with calls } where
  ids := h.ids
  keys := h.keys
  alertIds := h.alertIds
  alertsStored := h.alertsStored
  answeredStored := h.answeredStored
  dueOnce := hdue.nodup_iff.mpr (nodup_cons.mpr ⟨hnew, h.dueOnce⟩)
  due other hother := by
    have hcases : Due s other := by
      rcases mem_cons.mp (hdue.mem_iff.mp hother) with rfl | hold
      · exact htx
      · exact h.due other hold
    exact ⟨hcases.mem, hcases.score, hcases.unalerted, hcases.unanswered⟩

/-- The alert of a transaction is due no more. -/
theorem Sound.drop (h : Sound s)
    (hdue : (tx :: Transactions.due calls).Perm (Transactions.due s.calls)) :
    Sound { s with calls } ∧ tx ∉ Transactions.due calls := by
  have hnodup := nodup_cons.mp (hdue.nodup_iff.mpr h.dueOnce)
  refine ⟨⟨h.ids, h.keys, h.alertIds, h.alertsStored, h.answeredStored, hnodup.2, ?_⟩, hnodup.1⟩
  intro other hother
  obtain ⟨hstored, hscore, hunalerted, hunanswered⟩ :=
    h.due other (hdue.mem_iff.mp (mem_cons_of_mem tx hother))
  exact ⟨hstored, hscore, hunalerted, hunanswered⟩

theorem Sound.alert (h : Sound s) (hmem : tx ∈ s.transactions)
    (hnone : tx.id ∉ s.alerts.map AmlAlert.transactionId) (hdue : tx ∉ Transactions.due s.calls)
    {alert : AmlAlert} (halert : alert.transactionId = tx.id) :
    Sound { s with alerts := s.alerts ++ [alert] } where
  ids := h.ids
  keys := h.keys
  alertIds := by
    rw [map_append]
    exact nodup_append_fresh h.alertIds (halert ▸ hnone)
  alertsStored id hid := by
    rw [map_append] at hid
    rcases mem_concat.mp hid with hold | rfl
    · exact h.alertsStored id hold
    · exact halert ▸ mem_map_of_mem hmem
  answeredStored := h.answeredStored
  dueOnce := h.dueOnce
  due other hother := by
    obtain ⟨hstored, hscore, hunalerted, hunanswered⟩ := h.due other hother
    refine ⟨hstored, hscore, ?_, hunanswered⟩
    rw [map_append, mem_append]
    rintro (hold | hnew)
    · exact hunalerted hold
    · have hid : other.id = tx.id := (mem_singleton.mp hnew).trans halert
      obtain rfl : other = tx := inj_on_of_nodup_map h.ids hstored hmem hid
      exact hdue hother

theorem sound_of_effect (h : Sound s) (heffect : Effect s action t) : Sound t := by
  cases heffect with
  | quiet hdue hwritten => exact h.proceed hdue
  | repeated hdue hmem hkey hwritten => exact (h.proceed hdue).answer hmem (.inl hkey)
  | lost hdue hfresh hwritten => exact (h.proceed hdue).store ⟨hfresh.id, hfresh.free⟩
  | stored hdue hfresh hlow hwritten =>
    refine ((h.proceed hdue).store ⟨hfresh.id, hfresh.free⟩).answer
      mem_concat_self (.inr fun hother => ?_)
    exact hfresh.ne (h.due _ (hdue.mem_iff.mp hother)).mem rfl
  | flagged hdue hfresh hscore hwritten =>
    refine (h.store hfresh).flag hdue (fun hother => hfresh.ne (h.due _ hother).mem rfl) ?_
    exact ⟨mem_concat_self, hscore,
      fun halert => hfresh.id_not_mem (h.alertsStored _ halert),
      fun _ hanswered => hfresh.id_not_mem (h.answeredStored _ hanswered)⟩
  | alerted hdue halert hanswered hwritten =>
    have htx := h.due _ (hdue.mem_iff.mp mem_cons_self)
    obtain ⟨hdropped, hnot⟩ := h.drop hdue
    have hsound := hdropped.alert htx.mem htx.unalerted hnot halert
    rcases hanswered with rfl | rfl
    · exact hsound
    · exact hsound.answer htx.mem (.inr hnot)
  | dropped hdue hwritten => exact (h.drop hdue).1

theorem Sound.step (h : Sound s) (hstep : step s action = some t) : Sound t :=
  sound_of_effect h (effect_of_step hstep)

end Sound

/-! ### Alerts after a retry -/

/-- A transaction that was returned to a client has its alert, unless a call is still
about to insert it. -/
def Alerted (s : Store) : Prop :=
  ∀ tx ∈ s.transactions, tx.id ∈ s.answered → alertScore ≤ tx.amlScore → tx ∉ due s.calls →
    (s.alertsOf tx).length = 1

/-- And so it is after any request that a client sends now. -/
def AlertedOnRetry (s : Store) : Prop :=
  Alerted s ∧ ∀ request t, step s (.create request) = some t → Alerted t

def AtMostOneAlert (s : Store) : Prop := ∀ tx, (s.alertsOf tx).length ≤ 1

/-- The same, where a client can ask for each transaction with a key. -/
def Owed (s : Store) : Prop :=
  ∀ tx ∈ s.transactions, tx.idempotencyKey ≠ none ∨ tx.id ∈ s.answered →
    alertScore ≤ tx.amlScore → tx ∉ due s.calls → tx.id ∈ s.alerts.map AmlAlert.transactionId

section Alerts

variable {s t : Store} {tx : Transaction} {action : Action}

theorem alertsOf_of_mem (h : Sound s) (hmem : tx.id ∈ s.alerts.map AmlAlert.transactionId) :
    (s.alertsOf tx).length = 1 := by
  obtain ⟨alert, halert, hid⟩ := mem_map.mp hmem
  have hone := filter_of_key h.alertIds halert
  rw [hid] at hone
  unfold Store.alertsOf
  rw [hone]
  rfl

theorem mem_of_alertsOf (h : (s.alertsOf tx).length ≠ 0) :
    tx.id ∈ s.alerts.map AmlAlert.transactionId := by
  obtain ⟨alert, halert⟩ := exists_mem_of_length_pos (Nat.pos_of_ne_zero h)
  obtain ⟨hmem, hid⟩ := mem_filter.mp halert
  exact mem_map.mpr ⟨alert, hmem, beq_iff_eq.mp hid⟩

theorem atMostOneAlert_of_sound (h : Sound s) : AtMostOneAlert s := by
  intro tx
  by_cases hnone : (s.alertsOf tx).length = 0
  · omega
  · exact (alertsOf_of_mem h (mem_of_alertsOf hnone)).le

/-- The request that created a transaction, sent again. -/
def Transaction.retry (tx : Transaction) : Request where
  tenantId := tx.tenantId
  userId := 0
  input := tx.input

theorem existing_retry (h : Sound s) (hmem : tx ∈ s.transactions)
    (hkey : tx.idempotencyKey ≠ none) : s.existing tx.retry = some tx := by
  obtain ⟨key, hsome⟩ := Option.ne_none_iff_exists'.mp hkey
  have hretry : tx.retry.idempotencyKey = some key := hsome
  unfold Store.existing
  rw [hretry, bind_some]
  cases hfind : s.transactions.find? fun other => other.idempotencyKey == some key &&
      tx.retry.tenantId.all fun tenantId => other.tenantId == some tenantId with
  | none =>
    have hnot := find?_eq_none.mp hfind tx hmem
    cases htenant : tx.tenantId <;> simp [Transaction.retry, hsome, htenant] at hnot
  | some other =>
    have hboth := find?_some hfind
    rw [Bool.and_eq_true, beq_iff_eq] at hboth
    rw [h.keys tx hmem other (mem_of_find?_eq_some hfind) hkey (hboth.1.trans hsome.symm)]

theorem alerted_of_owed (h : Sound s) (howed : Owed s) : Alerted s :=
  fun tx hmem hanswered hscore hdue =>
    alertsOf_of_mem h (howed tx hmem (.inr hanswered) hscore hdue)

theorem Owed.proceed {calls : List Call} (howed : Owed s)
    (hdue : (due calls).Perm (due s.calls)) : Owed { s with calls } :=
  fun tx hmem hknown hscore hnot =>
    howed tx hmem hknown hscore fun hold => hnot (hdue.mem_iff.mpr hold)

theorem Owed.answer (h : Sound s) (howed : Owed s) (hmem : tx ∈ s.transactions)
    (halert : alertScore ≤ tx.amlScore → tx ∉ due s.calls →
      tx.id ∈ s.alerts.map AmlAlert.transactionId) : Owed (s.answer tx) := by
  intro other hother hknown hscore hdue
  rcases hknown with hkey | hanswered
  · exact howed other hother (.inl hkey) hscore hdue
  · rcases mem_cons.mp hanswered with hid | hanswered
    · obtain rfl : other = tx := inj_on_of_nodup_map h.ids hother hmem hid
      exact halert hscore hdue
    · exact howed other hother (.inr hanswered) hscore hdue

/-- A new row that is not due owes an alert where it has a key to ask for it. -/
theorem owed_store_iff (h : Sound s) (howed : Owed s) (hfresh : Fresh s tx) :
    Owed { s with transactions := s.transactions ++ [tx] } ↔
      (alertScore ≤ tx.amlScore → tx.idempotencyKey = none) := by
  constructor
  · intro hstored hscore
    by_contra hkey
    have halert := hstored tx mem_concat_self (.inl hkey) hscore
      fun hdue => hfresh.ne (h.due tx hdue).mem rfl
    exact hfresh.id_not_mem (h.alertsStored _ halert)
  · intro hnone other hother hknown hscore hdue
    rcases mem_concat.mp hother with hold | rfl
    · exact howed other hold hknown hscore hdue
    · rcases hknown with hkey | hanswered
      · exact (hkey (hnone hscore)).elim
      · exact (hfresh.id_not_mem (h.answeredStored _ hanswered)).elim

/-- What is dropped cannot be had any more, so only a row without a key may be. -/
theorem owed_drop_iff {calls : List Call} (h : Sound s) (howed : Owed s)
    (hdue : (tx :: due calls).Perm (due s.calls)) (hscore : alertScore ≤ tx.amlScore) :
    Owed { s with calls } ↔ tx.idempotencyKey = none := by
  have htx := h.due tx (hdue.mem_iff.mp mem_cons_self)
  constructor
  · intro hdropped
    by_contra hkey
    exact htx.unalerted (hdropped tx htx.mem (.inl hkey) hscore (h.drop hdue).2)
  · intro hnone other hother hknown hscore' hnot
    by_cases hsame : other = tx
    · subst hsame
      rcases hknown with hkey | hanswered
      · exact (hkey hnone).elim
      · exact (htx.unanswered hnone hanswered).elim
    · refine howed other hother hknown hscore' fun hold => ?_
      rcases mem_cons.mp (hdue.mem_iff.mpr hold) with heq | hleft
      · exact hsame heq
      · exact hnot hleft

/-- A retry answers with a transaction that has a key, and inserts nothing. -/
theorem owed_create (h : Sound s) (howed : Owed s) (request : Request) :
    Owed (s.create request) := by
  unfold Store.create
  cases hexisting : s.existing request with
  | none => exact howed
  | some existing =>
    obtain ⟨hmem, hkey⟩ := existing_spec hexisting
    exact howed.answer h hmem fun hscore hdue => howed existing hmem (.inl hkey) hscore hdue

theorem alertedOnRetry_iff (h : Sound s) : AlertedOnRetry s ↔ Owed s := by
  constructor
  · rintro ⟨hnow, hretry⟩ tx hmem hknown hscore hdue
    rcases hknown with hkey | hanswered
    · have hcreate : step s (.create tx.retry) = some (s.answer tx) := by
        simp only [step, Store.create, existing_retry h hmem hkey]
      have hone := hretry tx.retry _ hcreate tx hmem mem_cons_self hscore hdue
      exact mem_of_alertsOf (s := s.answer tx) (by omega)
    · exact mem_of_alertsOf (by rw [hnow tx hmem hanswered hscore hdue]; exact Nat.one_ne_zero)
  · intro howed
    refine ⟨alerted_of_owed h howed, ?_⟩
    intro request t hstep
    have hsound := h.step hstep
    cases hstep
    exact alerted_of_owed hsound (owed_create h howed request)

/-- One step: what was owed stays owed, and what is dropped becomes owed. -/
theorem owed_of_effect (h : Sound s) (howed : Owed s) (heffect : Effect s action t) :
    Owed t ↔ AlertWritten s action := by
  cases heffect with
  | quiet hdue hwritten => exact iff_of_true (howed.proceed hdue) hwritten
  | repeated hdue hmem hkey hwritten =>
    refine iff_of_true ((howed.proceed hdue).answer (h.proceed hdue) hmem ?_) hwritten
    exact fun hscore hnot => howed.proceed hdue _ hmem (.inl hkey) hscore hnot
  | lost hdue hfresh hwritten =>
    rw [hwritten]
    exact owed_store_iff (h.proceed hdue) (howed.proceed hdue) ⟨hfresh.id, hfresh.free⟩
  | stored hdue hfresh hlow hwritten =>
    have hstored := (owed_store_iff (h.proceed hdue) (howed.proceed hdue)
      ⟨hfresh.id, hfresh.free⟩).mpr fun hscore => (hlow hscore).elim
    refine iff_of_true (hstored.answer ((h.proceed hdue).store ⟨hfresh.id, hfresh.free⟩)
      mem_concat_self ?_) hwritten
    exact fun hscore => (hlow hscore).elim
  | @flagged calls tx hdue hfresh hscore hwritten =>
    refine iff_of_true (fun other hother hknown hscore' hnot => ?_) hwritten
    rcases mem_concat.mp hother with hold | rfl
    · exact howed other hold hknown hscore' fun hdue' =>
        hnot (hdue.mem_iff.mpr (mem_cons_of_mem tx hdue'))
    · exact (hnot (hdue.mem_iff.mpr mem_cons_self)).elim
  | @alerted calls tx alert answered hdue halert hanswered hwritten =>
    have htx := h.due tx (hdue.mem_iff.mp mem_cons_self)
    refine iff_of_true (fun other hother hknown hscore hnot => ?_) hwritten
    change other.id ∈ (s.alerts ++ [alert]).map AmlAlert.transactionId
    rw [map_append, mem_append]
    by_cases hsame : other = tx
    · right
      rw [hsame, ← halert]
      exact mem_cons_self
    · left
      have hid : other.id ≠ tx.id := fun hid =>
        hsame (inj_on_of_nodup_map h.ids hother htx.mem hid)
      refine howed other hother (hknown.imp_right fun hmem => ?_) hscore fun hold => ?_
      · rcases hanswered with rfl | rfl
        · exact hmem
        · exact (mem_cons.mp hmem).resolve_left hid
      · rcases mem_cons.mp (hdue.mem_iff.mpr hold) with heq | hleft
        · exact hsame heq
        · exact hnot hleft
  | @dropped calls tx hdue hwritten =>
    rw [hwritten]
    exact owed_drop_iff h howed hdue (h.due tx (hdue.mem_iff.mp mem_cons_self)).score

end Alerts

/-- In every run no transaction has two alerts. And in exactly the runs in which no call
with a key is stopped between a transaction that needs an alert and the alert, every
transaction that was answered, or that a retry would be answered with, has its alert once
no call is about to insert it. -/
theorem create_alerts_iff (labels : List Action) :
    Always step AtMostOneAlert .empty labels ∧
    (Always step AlertedOnRetry .empty labels ↔ Meets step AlertWritten .empty labels) := by
  have hinv : ∀ s action t, Sound s → step s action = some t → Sound t :=
    fun _ _ _ h hstep => h.step hstep
  constructor
  · exact (always_of_step labels hinv sound_empty).mono fun _ => atMostOneAlert_of_sound
  · refine always_iff_meets labels hinv ?_ sound_empty ?_
    · intro s action t hsound halerted hstep
      rw [alertedOnRetry_iff (hsound.step hstep)]
      exact owed_of_effect hsound ((alertedOnRetry_iff hsound).mp halerted) (effect_of_step hstep)
    · refine (alertedOnRetry_iff sound_empty).mpr ?_
      intro tx htx
      cases htx

/-- A transfer between two high-risk countries. -/
def riskyInput : CreateInput where
  amount := 5000
  currency := "USD"
  originatorCountry := "KP"
  beneficiaryCountry := "IR"
  narration := none
  txType := .wireTransfer
  originatorName := "Ada"
  originatorAccount := none
  originatorBank := none
  beneficiaryName := "Obi"
  beneficiaryAccount := none
  beneficiaryBank := none
  purposeCode := none
  idempotencyKey := some "retry-0001"

def riskyRequest : Request where
  tenantId := some 42
  userId := 17
  input := ⟨riskyInput, by decide⟩

theorem riskyRequest_score : riskyRequest.quickScore.score = 70 := by
  have hkp : "KP" ∈ highRiskCountries := by decide
  have hir : "IR" ∈ highRiskCountries := by decide
  have husd : ctrThreshold "USD" = 10000 := rfl
  have hlower : ¬ (10000 * (95 / 100) : Rat) ≤ 5000 := by norm_num
  have hround : ¬ (100000 : Rat) ≤ 5000 := by norm_num
  have hnarration : suspiciousNarration none = false := by decide
  simp [Request.quickScore, quickScore, flagsOf, riskyRequest, riskyInput, hkp, hir, husd, hlower,
    hround, hnarration]

/-- The first call of a run, up to the insert of its transaction. -/
theorem insertTransaction_first {request : Request} (txRef : String)
    (hscore : alertScore ≤ request.quickScore.score) :
    run step .empty [.create request, .insertTransaction ⟨request, .inserting⟩ txRef .done] =
      some
        { transactions := [request.row 1 txRef]
          alerts := []
          calls := [⟨request, .alerting (request.row 1 txRef)⟩]
          answered := [] } := by
  have hcreate : Store.empty.create request = Store.empty.proceed request .inserting := by
    unfold Store.create Store.existing
    cases request.idempotencyKey <;> rfl
  have hstop : (Store.empty.proceed request .inserting).stop ⟨request, .inserting⟩ = .empty := by
    simp [Store.stop, Store.proceed, Store.empty]
  refine (run_cons_iff _ _ _ _).mpr ⟨_, rfl, (run_cons_iff _ _ _ _).mpr ⟨_, ?_, rfl⟩⟩
  rw [hcreate]
  simp only [step]
  rw [if_pos ⟨mem_cons_self, trivial⟩]
  unfold Store.insertTransaction
  dsimp only
  rw [hstop, if_neg (by simp [Store.clashes, Store.proceed, Store.empty]),
    if_neg Outcome.noConfusion]
  exact congrArg some (if_pos hscore)

/-- The call stops behind the insert of the transaction, and the request is sent again. -/
def retriedRequest : List Action :=
  [.create riskyRequest,
    .insertTransaction ⟨riskyRequest, .inserting⟩ "TXN-2026-0A1B2C3D" .done] ++
    [.crash ⟨riskyRequest, .alerting (riskyRequest.row 1 "TXN-2026-0A1B2C3D")⟩,
      .create riskyRequest]

/-- It is answered, and there is no alert. -/
theorem retry_skips_alert : ¬ Always step Alerted .empty retriedRequest := by
  intro h
  have hscore : alertScore ≤ riskyRequest.quickScore.score := by
    rw [riskyRequest_score]
    decide
  let tx := riskyRequest.row 1 "TXN-2026-0A1B2C3D"
  have hfirst := insertTransaction_first "TXN-2026-0A1B2C3D" hscore
  have hretry : run step .empty retriedRequest =
      some { transactions := [tx], alerts := [], calls := [], answered := [1] } := by
    refine (run_append_iff _ _ _ _).mpr ⟨_, hfirst, ?_⟩
    refine (run_cons_iff _ _ _ _).mpr ⟨_, if_pos mem_cons_self,
      (run_cons_iff _ _ _ _).mpr ⟨_, rfl, ?_⟩⟩
    have hexisting : Store.existing ⟨[tx], [], [], []⟩ riskyRequest = some tx := rfl
    have hid : tx.id = 1 := rfl
    simp [Store.stop, Store.create, Store.answer, hexisting, hid, tx]
  have hone := h.finish hretry tx mem_cons_self mem_cons_self hscore not_mem_nil
  cases hone

end Bis.Transactions
