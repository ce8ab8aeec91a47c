import Bis.TigerBeetle.Debit

/-!
When do tenant debits keep the available balance non-negative? The check of a
debit looks at an account read earlier, so it says something about the ledger
only if nothing was debited in between. `covered_iff_solvent` gives the exact
condition on a run and `undisturbed_covered` the one the code relies on.
-/

namespace Bis.TigerBeetle

open Bis.Transition Bis.Number

/-- No service call is in flight. -/
def Service.initial (ledger : Ledger) (claims : List Claim) : Service :=
  { ledger, claims, calls := fun _ => .idle }

/-- The debit of a call that has not been decided yet. -/
def Phase.debit : Phase → Option Debit
  | .reading debit => some debit
  | .posting debit _ => some debit
  | _ => none

def Solvent (account : String) (s : Service) : Prop :=
  0 ≤ (s.ledger.account account).available

instance (account : String) (s : Service) : Decidable (Solvent account s) :=
  inferInstanceAs (Decidable (_ ≤ _))

/-- The debit an action posts, with the account its call read before. -/
def Service.posting (s : Service) : Action → Option (Debit × TbAccount)
  | .postTransfer call =>
    match s.calls call with
    | .posting debit seen => some (debit, seen)
    | _ => none
  | _ => none

/-- A posting of a new transfer id against `account` is for no more than the
account has at that moment. -/
def Covered (account : String) (s : Service) (action : Action) : Prop :=
  ∀ p ∈ s.posting action, p.1.transfer.debitAccountId = account →
    p.1.transfer.id ∉ s.ledger.posted →
    (p.1.transfer.amount : Int) ≤ (s.ledger.account account).available

instance (account : String) (s : Service) (action : Action) :
    Decidable (Covered account s action) :=
  inferInstanceAs (Decidable (∀ p ∈ s.posting action, _))

/-- The amounts for which the arithmetic of a route is exact. -/
def Debit.InRange (debit : Debit) (account : TbAccount) : Prop :=
  match debit.route with
  | .executeDebit request => account.creditsPosted < 2 ^ 63 ∧ request.amountKobo.toNat < 2 ^ 63
  | _ => account.creditsPosted ≤ 2 ^ 53

/-- A posting finds the debits of `account` as its own balance read saw them:
no other debit of the account was posted in between. -/
def Undisturbed (account : String) (s : Service) (action : Action) : Prop :=
  ∀ p ∈ s.posting action, p.1.transfer.debitAccountId = account →
    p.2.debitsPosted = (s.ledger.account account).debitsPosted ∧ p.1.InRange p.2

theorem tenantAccountId_ne_revenue (tenantId : String) :
    tenantAccountId tenantId ≠ accountRevenue := by
  intro h
  have hlength := congrArg String.length h
  simp only [tenantAccountId, tenantPrefix, accountRevenue, String.length_append] at hlength
  have hprefix : "10000".length = 5 := by decide
  have hrevenue : "1".length = 1 := by decide
  omega

section Steps

variable {sha256 : List UInt8 → List UInt8} {s t : Service} {action : Action}

@[simp]
theorem setCall_ledger (s : Service) (call : Nat) (phase : Phase) :
    (s.setCall call phase).ledger = s.ledger := rfl

@[simp]
theorem setCall_calls (s : Service) (call : Nat) (phase : Phase) (other : Nat) :
    (s.setCall call phase).calls other = if other = call then phase else s.calls other := by
  simp [Service.setCall, Function.update_apply]

@[simp]
theorem releaseClaim_ledger (s : Service) (debit : Debit) (error : LedgerError) :
    (s.releaseClaim debit error).ledger = s.ledger := by
  unfold Service.releaseClaim
  split <;> rfl

@[simp]
theorem releaseClaim_calls (s : Service) (debit : Debit) (error : LedgerError) :
    (s.releaseClaim debit error).calls = s.calls := by
  unfold Service.releaseClaim
  split <;> rfl

@[simp]
theorem submitCall_ledger (s : Service) (call : Nat) (debit : Debit) :
    (s.submitCall call debit).ledger = s.ledger := by
  unfold Service.submitCall
  split
  · rfl
  · split <;> rfl

/-- A submitted call reads its account next, unless it answered a replay. -/
theorem submitCall_calls (s : Service) (call : Nat) (debit : Debit) :
    ∃ phase, (phase = .reading debit ∨ phase = .finished (.ok debit.transfer.id)) ∧
      ∀ other, (s.submitCall call debit).calls other =
        if other = call then phase else s.calls other := by
  unfold Service.submitCall
  split
  · exact ⟨.reading debit, Or.inl rfl, setCall_calls s call _⟩
  · split
    · exact ⟨.finished (.ok debit.transfer.id), Or.inr rfl, setCall_calls s call _⟩
    · exact ⟨.reading debit, Or.inl rfl, setCall_calls _ call _⟩

theorem calls_of_posting {debit : Debit} {seen : TbAccount}
    (h : s.posting action = some (debit, seen)) :
    ∃ call, action = .postTransfer call ∧ s.calls call = .posting debit seen := by
  cases action with
  | postTransfer call =>
    simp only [Service.posting] at h
    split at h
    · rename_i hcall
      cases h
      exact ⟨call, rfl, hcall⟩
    · cases h
  | submit | readAccount | markReconciled | fail => cases h

/-- The ledger changes only where a call posts its transfer. -/
theorem ledger_of_step (h : debitStep sha256 s action = some t) :
    (s.posting action = none ∧ t.ledger = s.ledger) ∨
      ∃ debit seen, s.posting action = some (debit, seen) ∧
        t.ledger = s.ledger.post debit.transfer := by
  cases action with
  | submit call route =>
    simp only [debitStep] at h
    split at h <;> cases h <;> exact Or.inl ⟨rfl, by simp⟩
  | readAccount call =>
    simp only [debitStep] at h
    split at h
    · split at h <;> cases h <;> exact Or.inl ⟨rfl, by simp⟩
    · cases h
  | postTransfer call =>
    simp only [debitStep] at h
    split at h
    · rename_i debit seen hcall
      cases h
      exact Or.inr ⟨debit, seen, by simp [Service.posting, hcall], rfl⟩
    · cases h
  | markReconciled call =>
    simp only [debitStep] at h
    split at h
    · cases h
      exact Or.inl ⟨rfl, rfl⟩
    · cases h
  | fail call error =>
    cases h
    exact Or.inl ⟨rfl, rfl⟩

/-- A step gives one call a new phase and leaves the other calls alone. -/
theorem calls_of_step (h : debitStep sha256 s action = some t) :
    ∃ call phase, (∀ other, t.calls other = if other = call then phase else s.calls other) ∧
      ((∃ debit, phase = .reading debit ∧
          debit.route.prepare sha256 = .ok debit.transfer) ∨
        (∃ debit available, s.calls call = .reading debit ∧ t.ledger = s.ledger ∧
          debit.check (s.ledger.account debit.transfer.debitAccountId) = .ok available ∧
          phase = .posting debit (s.ledger.account debit.transfer.debitAccountId)) ∨
        phase.debit = none) := by
  cases action with
  | submit call route =>
    simp only [debitStep] at h
    split at h
    · rename_i transfer _ hprepare
      cases h
      obtain ⟨phase, hphase, hcalls⟩ := submitCall_calls s call ⟨route, transfer⟩
      refine ⟨call, phase, hcalls, ?_⟩
      rcases hphase with hreading | hfinished
      · exact Or.inl ⟨⟨route, transfer⟩, hreading, hprepare⟩
      · exact Or.inr (Or.inr (by rw [hfinished]; rfl))
    · cases h
      exact ⟨call, _, setCall_calls s call _, Or.inr (Or.inr rfl)⟩
    · cases h
  | readAccount call =>
    simp only [debitStep] at h
    split at h
    · rename_i debit hreading
      split at h
      · rename_i available hcheck
        cases h
        exact ⟨call, _, setCall_calls s call _,
          Or.inr (Or.inl ⟨debit, available, hreading, rfl, hcheck, rfl⟩)⟩
      · rename_i error _
        cases h
        exact ⟨call, .finished (.error error), by simp, Or.inr (Or.inr rfl)⟩
    · cases h
  | postTransfer call | markReconciled call =>
    simp only [debitStep] at h
    split at h
    · cases h
      exact ⟨call, _, setCall_calls _ call _, Or.inr (Or.inr rfl)⟩
    · cases h
  | fail call error =>
    cases h
    exact ⟨call, _, setCall_calls s call _, Or.inr (Or.inr rfl)⟩

/-- A call that is about to post was so before, or has just passed its check. -/
theorem posting_of_step (h : debitStep sha256 s action = some t) {call : Nat} {debit : Debit}
    {seen : TbAccount} (hcall : t.calls call = .posting debit seen) :
    s.calls call = .posting debit seen ∨
      (t.ledger = s.ledger ∧ seen = s.ledger.account debit.transfer.debitAccountId ∧
        ∃ available, debit.check seen = .ok available) := by
  obtain ⟨mover, phase, hcalls, hphase⟩ := calls_of_step h
  have hnow := hcalls call
  split at hnow
  · have hposting : phase = .posting debit seen := hnow.symm.trans hcall
    rcases hphase with ⟨other, hreading, _⟩ | ⟨other, available, _, hledger, hcheck, hother⟩ |
      hnone
    · rw [hposting] at hreading
      cases hreading
    · rw [hposting] at hother
      cases hother
      exact Or.inr ⟨hledger, rfl, available, hcheck⟩
    · rw [hposting] at hnone
      cases hnone
  · exact Or.inl (hnow.symm.trans hcall)

/-- The debit of a live call was prepared from its request. -/
theorem debit_of_step (h : debitStep sha256 s action = some t) {call : Nat} {debit : Debit}
    (hcall : (t.calls call).debit = some debit) :
    (∃ other, (s.calls other).debit = some debit) ∨
      debit.route.prepare sha256 = .ok debit.transfer := by
  obtain ⟨mover, phase, hcalls, hphase⟩ := calls_of_step h
  have hnow := hcalls call
  split at hnow
  · rw [hnow] at hcall
    rcases hphase with ⟨other, rfl, hprepare⟩ | ⟨other, _, hreading, _, _, rfl⟩ | hnone
    · cases hcall
      exact Or.inr hprepare
    · cases hcall
      exact Or.inl ⟨mover, by rw [hreading]; rfl⟩
    · rw [hnone] at hcall
      cases hcall
  · exact Or.inl ⟨call, by rw [← hnow]; exact hcall⟩

end Steps

/-- Every undecided debit is what its route prepared. -/
def Prepared (sha256 : List UInt8 → List UInt8) (s : Service) : Prop :=
  ∀ call debit, (s.calls call).debit = some debit →
    debit.route.prepare sha256 = .ok debit.transfer

variable {sha256 : List UInt8 → List UInt8}

theorem creditAccountId_prepare {route : DebitRoute} {transfer : Transfer}
    (h : route.prepare sha256 = .ok transfer) : transfer.creditAccountId = accountRevenue := by
  cases route with
  | executeDebit | debitTenantForIntelligenceAssessment =>
    simp only [DebitRoute.prepare, bind, Except.bind] at h
    split at h <;> cases h
    rfl
  | recordDebit input =>
    simp only [DebitRoute.prepare, bind, Except.bind] at h
    split at h
    · cases h
    · split at h <;> cases h
      rfl

section Runs

variable {sha256 : List UInt8 → List UInt8} {s t : Service} {action : Action} {account : String}

theorem prepared_step (hs : Prepared sha256 s) (h : debitStep sha256 s action = some t) :
    Prepared sha256 t := by
  intro call debit hcall
  rcases debit_of_step h hcall with ⟨other, hother⟩ | hprepare
  · exact hs other debit hother
  · exact hprepare

variable {seen : TbAccount}

theorem prepared_posting (hs : Prepared sha256 s) {debit : Debit}
    (h : s.posting action = some (debit, seen)) :
    debit.route.prepare sha256 = .ok debit.transfer := by
  obtain ⟨call, _, hcall⟩ := calls_of_posting h
  exact hs call debit (by rw [hcall]; rfl)

/-- The balance after a first posting of a debit of `account`. -/
theorem available_debit {debit : Debit}
    (hprepare : debit.route.prepare sha256 = .ok debit.transfer)
    (haccount : account ≠ accountRevenue) (hfresh : debit.transfer.id ∉ s.ledger.posted)
    (hdebit : debit.transfer.debitAccountId = account) :
    ((s.ledger.post debit.transfer).account account).available =
      (s.ledger.account account).available - debit.transfer.amount := by
  have hcredit : account ≠ debit.transfer.creditAccountId := by
    rw [creditAccountId_prepare hprepare]
    exact haccount
  rw [available_post _ _ _ hfresh, if_pos hdebit.symm, if_neg hcredit]
  ring

/-- One step keeps a solvent account solvent exactly when it is covered. -/
theorem solvent_step_iff (haccount : account ≠ accountRevenue) (hs : Prepared sha256 s)
    (hsolvent : Solvent account s) (h : debitStep sha256 s action = some t) :
    Solvent account t ↔ Covered account s action := by
  unfold Solvent Covered at *
  rcases ledger_of_step h with ⟨hnone, hledger⟩ | ⟨debit, seen, hposting, hledger⟩
  · simp [hnone, hledger, hsolvent]
  · have hprepare := prepared_posting hs hposting
    simp only [hposting, Option.mem_some_iff, forall_eq', hledger]
    by_cases hfresh : debit.transfer.id ∈ s.ledger.posted
    · simp [post_of_posted _ _ hfresh, hfresh, hsolvent]
    · by_cases hdebit : debit.transfer.debitAccountId = account
      · rw [available_debit hprepare haccount hfresh hdebit]
        simp [hdebit, hfresh]
      · have hle := available_le_post s.ledger debit.transfer account (Ne.symm hdebit)
        simp only [hdebit, false_imp_iff, iff_true]
        omega

theorem amount_le_of_sufficient {tenantId : String} {amountKobo available : Int}
    (hcheck : assertSufficientLedgerBalance tenantId amountKobo seen = .ok available)
    (hcredits : seen.creditsPosted ≤ 2 ^ 53) (hsolvent : 0 ≤ seen.available) :
    amountKobo ≤ seen.available := by
  have hnumber := availableNumber_eq seen hcredits hsolvent
  simp only [assertSufficientLedgerBalance, getTenantAvailableBalanceKobo, bind,
    Except.bind] at hcheck
  split at hcheck
  · cases hcheck
  · rename_i read hread
    split at hread
    · have hvalue : seen.availableNumber = read := Except.ok.inj hread
      split at hcheck
      · cases hcheck
      · omega
    · cases hread

/-- What a passed check says: within the exact range of its route's number
format, the amount is no more than the account had when it was read. -/
theorem amount_le_of_check {debit : Debit} {available : Int}
    (hprepare : debit.route.prepare sha256 = .ok debit.transfer)
    (hcheck : debit.check seen = .ok available) (hrange : debit.InRange seen)
    (hsolvent : 0 ≤ seen.available) : (debit.transfer.amount : Int) ≤ seen.available := by
  obtain ⟨route, transfer⟩ := debit
  cases route with
  | executeDebit request =>
    have hamount : transfer.amount = request.amountKobo.toNat := by
      simp only [DebitRoute.prepare, bind, Except.bind] at hprepare
      split at hprepare <;> cases hprepare
      rfl
    obtain ⟨hcredits, hfits⟩ := hrange
    have hbalance := availableBalance_eq seen hcredits hsolvent
    have hwrap : wrapI64 request.amountKobo.toNat = request.amountKobo.toNat :=
      wrapI64_of_fits (by unfold FitsI64; omega)
    simp only [Debit.check, hbalance, hwrap] at hcheck
    split at hcheck
    · cases hcheck
    · split at hcheck
      · cases hcheck
      · simp only [hamount]
        omega
  | recordDebit | debitTenantForIntelligenceAssessment =>
    exact amount_le_of_sufficient hcheck hrange hsolvent

/-- No step lowers the posted credits of an account or touches its holds. -/
theorem account_of_step (h : debitStep sha256 s action = some t) (id : String) :
    (t.ledger.account id).debitsPending = (s.ledger.account id).debitsPending ∧
      (s.ledger.account id).creditsPosted ≤ (t.ledger.account id).creditsPosted := by
  rcases ledger_of_step h with ⟨_, hledger⟩ | ⟨debit, _, _, hledger⟩
  · rw [hledger]
    exact ⟨rfl, Nat.le_refl _⟩
  · rw [hledger]
    exact ⟨debitsPending_post _ _ _, creditsPosted_le_post _ _ _⟩

/-- The account is solvent, and every call about to debit it read it solvent
and passed its check on what it read. -/
structure Checked (sha256 : List UInt8 → List UInt8) (account : String) (s : Service) : Prop where
  solvent : Solvent account s
  prepared : Prepared sha256 s
  posting : ∀ call debit seen, s.calls call = .posting debit seen →
    debit.transfer.debitAccountId = account →
      (∃ available, debit.check seen = .ok available) ∧ 0 ≤ seen.available ∧
        seen.debitsPending = (s.ledger.account account).debitsPending ∧
        seen.creditsPosted ≤ (s.ledger.account account).creditsPosted

theorem undisturbed_covered (hs : Checked sha256 account s) (h : Undisturbed account s action) :
    Covered account s action := by
  rintro ⟨debit, seen⟩ hposting hdebit _
  obtain ⟨hdebits, hrange⟩ := h (debit, seen) hposting hdebit
  obtain ⟨call, _, hcall⟩ := calls_of_posting hposting
  obtain ⟨⟨available, hcheck⟩, hseen, hpending, hcredits⟩ :=
    hs.posting call debit seen hcall hdebit
  have hamount := amount_le_of_check (prepared_posting hs.prepared hposting) hcheck hrange hseen
  simp only at hdebits hdebit
  show (debit.transfer.amount : Int) ≤ _
  unfold TbAccount.available at hamount ⊢
  omega

theorem checked_step (haccount : account ≠ accountRevenue) (hs : Checked sha256 account s)
    (hcond : Undisturbed account s action) (h : debitStep sha256 s action = some t) :
    Checked sha256 account t where
  solvent := (solvent_step_iff haccount hs.prepared hs.solvent h).mpr
    (undisturbed_covered hs hcond)
  prepared := prepared_step hs.prepared h
  posting := by
    intro call debit seen hcall hdebit
    obtain ⟨hpending, hcredits⟩ := account_of_step h account
    rcases posting_of_step h hcall with hold | ⟨hledger, hseen, hcheck⟩
    · obtain ⟨hcheck, hsolvent, hseenPending, hseenCredits⟩ :=
        hs.posting call debit seen hold hdebit
      exact ⟨hcheck, hsolvent, hseenPending.trans hpending.symm, hseenCredits.trans hcredits⟩
    · rw [hdebit] at hseen
      subst hseen
      rw [hledger]
      exact ⟨hcheck, hs.solvent, rfl, Nat.le_refl _⟩

end Runs

theorem prepared_initial (sha256 : List UInt8 → List UInt8) (ledger : Ledger)
    (claims : List Claim) : Prepared sha256 (Service.initial ledger claims) := by
  intro call debit hcall
  cases hcall

theorem checked_initial {ledger : Ledger} {claims : List Claim} {account : String}
    (h : 0 ≤ (ledger.account account).available) :
    Checked sha256 account (Service.initial ledger claims) where
  solvent := h
  prepared := prepared_initial sha256 ledger claims
  posting := by
    intro call debit seen hcall
    cases hcall

/-- Along every interleaving of debit calls, a tenant account that starts with
a non-negative available balance keeps one exactly when every first posting of
a transfer id is still covered by the balance at that moment. That is so
whenever no debit of the account is posted between a call's balance read and
its own posting, in the range where the arithmetic of the check is exact. -/
theorem tenant_balance_nonneg_iff (sha256 : List UInt8 → List UInt8) (ledger : Ledger)
    (claims : List Claim) (tenantId : String) (labels : List Action)
    (hstart : 0 ≤ (ledger.account (tenantAccountId tenantId)).available) :
    (Always (debitStep sha256) (Solvent (tenantAccountId tenantId))
        (Service.initial ledger claims) labels ↔
      Meets (debitStep sha256) (Covered (tenantAccountId tenantId))
        (Service.initial ledger claims) labels) ∧
    (Meets (debitStep sha256) (Undisturbed (tenantAccountId tenantId))
        (Service.initial ledger claims) labels →
      Always (debitStep sha256) (Solvent (tenantAccountId tenantId))
        (Service.initial ledger claims) labels) := by
  have haccount := tenantAccountId_ne_revenue tenantId
  constructor
  · apply always_iff_meets labels
    · exact fun s a t hs h => prepared_step hs h
    · exact fun s a t hs hsolvent h => solvent_step_iff haccount hs hsolvent h
    · exact prepared_initial sha256 ledger claims
    · exact hstart
  · intro hmeets
    have hchecked := always_of_meets (fun s a t hs hcond h => checked_step haccount hs hcond h)
      (checked_initial hstart) hmeets
    exact hchecked.mono fun s hs => hs.solvent

/-- SHA-256 on the two transfer preimages used below. -/
def sampleSha256 (bytes : List UInt8) : List UInt8 :=
  if bytes = transferPreimage "debit" 42 "NGN" "INV-001" 1 then
    [15, 68, 132, 125, 177, 142, 221, 39, 93, 153, 226, 141, 161, 129, 147, 130, 164, 250, 238,
      154, 186, 224, 107, 107, 83, 59, 177, 155, 123, 134, 62, 174]
  else if bytes = transferPreimage "debit" 42 "NGN" "INV-002" 1 then
    [69, 81, 95, 33, 3, 122, 88, 199, 69, 189, 113, 33, 110, 167, 125, 16, 61, 192, 204, 136,
      174, 10, 226, 172, 193, 62, 45, 17, 215, 248, 95, 111]
  else []

def sampleLedger : Ledger :=
  { account := fun _ => { creditsPosted := 100 }, posted := [] }

def sampleDebit (investigationRef : String) : DebitRoute :=
  .executeDebit ⟨42, 100, "NGN", 1, investigationRef⟩

/-- Two calls read a balance of 100 kobo before either posts its 100 kobo. -/
def overdrawingRun : List Action :=
  [.submit 0 (sampleDebit "INV-001"), .submit 1 (sampleDebit "INV-002"), .readAccount 0,
    .readAccount 1, .postTransfer 0, .postTransfer 1]

theorem concurrent_debits_overdraw :
    Solvent (tenantAccountId "42") (Service.initial sampleLedger []) ∧
      ¬ ∀ labels, Always (debitStep sampleSha256) (Solvent (tenantAccountId "42"))
        (Service.initial sampleLedger []) labels := by
  refine ⟨by decide, ?_⟩
  intro h
  have hrun : (run (debitStep sampleSha256) (Service.initial sampleLedger [])
      overdrawingRun).map (fun s => (s.ledger.account (tenantAccountId "42")).available) =
        some (-100) := by decide
  obtain ⟨s, hs, havailable⟩ := Option.map_eq_some_iff.mp hrun
  have hsolvent : Solvent (tenantAccountId "42") s := (h overdrawingRun).finish hs
  unfold Solvent at hsolvent
  omega

/-- A debit that reads, posts and records before the next one starts. -/
theorem serial_debit_stays_solvent :
    Always (debitStep sampleSha256) (Solvent (tenantAccountId "42"))
      (Service.initial sampleLedger [])
      [.submit 0 (sampleDebit "INV-001"), .readAccount 0, .postTransfer 0, .markReconciled 0] :=
  (tenant_balance_nonneg_iff sampleSha256 sampleLedger [] "42" _ (by decide)).1.mpr
    (by decide)

end Bis.TigerBeetle
