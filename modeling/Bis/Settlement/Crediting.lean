import Bis.Settlement.Paystack

/-!
What a settlement guarantees. The transfer id makes the credit unique whatever
the calls do. That a later call returns it depends on what it finds: the intent
is checked for its status and expiry before the ledger is consulted, so a credit
whose call died before its last two statements may be turned down later. A credit
above 2147483647 kobo has no top-up row that could record it.
-/

namespace Bis.Settlement

open Bis.Number Bis.TigerBeetle Bis.Transition Option

def PaymentIntent.live (intent : PaymentIntent) : Prop :=
  intent.settleable ∨ intent.status = .credited

def Phase.intent? : Phase → Option PaymentIntent
  | .ready | .over => none
  | .verifying intent | .ensuring intent _ | .posting intent _ | .completing intent _
  | .recording intent _ => some intent

/-- The intent in a call's hands names the tenant and amount of the row. -/
def Agrees (s : Payment) (intent : PaymentIntent) : Prop :=
  ∃ row, s.intent = some row ∧ row.tenantId = intent.tenantId ∧
    row.amountKobo = intent.amountKobo ∧ row.live

structure Booked (s : Payment) : Prop where
  amount : ∀ row, s.intent = some row → ∃ kobo, asAmount row.amountKobo = .ok kobo ∧
    kobo = row.amountKobo
  posted : s.posted → ∃ row, s.intent = some row ∧ row.live
  creditings : s.creditings = if s.posted then 1 else 0
  credited : ∀ row, s.intent = some row → s.creditedKobo = s.creditings * row.amountKobo
  uncredited : s.intent = none → s.creditedKobo = 0
  calls : ∀ id intent, (s.calls id).phase.intent? = some intent → Agrees s intent
  later : ∀ id, (s.calls id).later → s.posted

section Steps

variable {s t : Payment} {action : SettlementAction}

theorem Booked.setCall (h : Booked s) (id : Nat) {call : Call}
    (hphase : ∀ intent, call.phase.intent? = some intent → Agrees s intent)
    (hlater : call.later → s.posted) : Booked (s.setCall id call) where
  amount := h.amount
  posted := h.posted
  creditings := h.creditings
  credited := h.credited
  uncredited := h.uncredited
  calls other intent hintent := by
    by_cases hother : other = id
    · subst hother
      simp only [Payment.setCall, Function.update_self] at hintent
      exact hphase intent hintent
    · simp only [Payment.setCall, Function.update_of_ne hother] at hintent
      exact h.calls other intent hintent
  later other hlate := by
    by_cases hother : other = id
    · subst hother
      simp only [Payment.setCall, Function.update_self] at hlate
      exact hlater hlate
    · simp only [Payment.setCall, Function.update_of_ne hother] at hlate
      exact h.later other hlate

theorem Booked.setPhase (h : Booked s) (id : Nat) {phase : Phase}
    (hphase : ∀ intent, phase.intent? = some intent → Agrees s intent) :
    Booked (s.setPhase id phase) := h.setCall id hphase (h.later id)

theorem Booked.finish (h : Booked s) (id : Nat) {later : Bool}
    {result : Except SettlementError Settled} (hlater : later → s.posted) :
    Booked (s.finish id later result) := by
  have hcall : Booked (s.setCall id ⟨.over, later⟩) := by
    apply h.setCall id
    · intro intent hintent
      cases hintent
    · exact hlater
  exact ⟨hcall.amount, hcall.posted, hcall.creditings, hcall.credited, hcall.uncredited,
    hcall.calls, hcall.later⟩

theorem posted_post (s : Payment) (intent : PaymentIntent) : (s.post intent).posted = true := by
  apply List.contains_iff_mem.mpr
  exact (mem_posted_post s.ledger (s.transfer intent) s.transferId).mpr (.inl rfl)

variable {intent : PaymentIntent} {error : SettlementError}

/-- A posting credits the tenant of the intent once. -/
theorem creditedKobo_post {row : PaymentIntent} (hrow : s.intent = some row)
    (htenant : row.tenantId = intent.tenantId) :
    (s.post intent).creditedKobo = s.creditedKobo + if s.posted then 0 else intent.amountKobo := by
  have haccount : row.account = intent.account := by
    unfold PaymentIntent.account
    rw [htenant]
  unfold Payment.post
  dsimp only
  rw [hrow, elim_some, haccount]
  cases hposted : s.posted with
  | true =>
    have hmem : s.transferId ∈ s.ledger.posted := List.contains_iff_mem.mp hposted
    rw [post_of_posted s.ledger (s.transfer intent) hmem, Nat.sub_self]
    rfl
  | false =>
    have hnot : (s.transfer intent).id ∉ s.ledger.posted := by
      intro hmem
      have hcontains : s.posted = true := List.contains_iff_mem.mpr hmem
      rw [hposted] at hcontains
      cases hcontains
    unfold Ledger.post
    rw [if_neg hnot]
    simp [Payment.transfer]

theorem booked_post (h : Booked s) (hagrees : Agrees s intent) : Booked (s.post intent) where
  amount := h.amount
  posted _ := by
    obtain ⟨row, hrow, _, _, hlive⟩ := hagrees
    exact ⟨row, hrow, hlive⟩
  creditings := by
    have hbefore := h.creditings
    rw [posted_post, if_pos rfl]
    unfold Payment.post
    dsimp only
    rw [hbefore]
    cases s.posted <;> rfl
  credited row hrow := by
    obtain ⟨row', hrow', htenant, hamount, _⟩ := hagrees
    obtain rfl : row' = row := some.inj (hrow'.symm.trans hrow)
    have hbefore := h.credited row' hrow'
    have hcount := h.creditings
    have hafter : (s.post intent).creditings = s.creditings + if s.posted then 0 else 1 := rfl
    rw [creditedKobo_post hrow' htenant, hafter, hbefore, hcount, hamount]
    cases s.posted <;> simp
  uncredited hnone := by
    obtain ⟨row, hrow, _⟩ := hagrees
    have hsome : (s.post intent).intent = some row := hrow
    rw [hsome] at hnone
    cases hnone
  calls := h.calls
  later _ _ := posted_post s intent

theorem asAmount_of_safe {amountKobo : Nat} (h : isSafeInteger amountKobo)
    (hpositive : 0 < amountKobo) : asAmount amountKobo = .ok amountKobo :=
  if_pos ⟨h, hpositive⟩

theorem booked_start (h : Booked s) (tenantId : Int) (amountKobo : Nat) :
    Booked (s.start tenantId amountKobo) := by
  unfold Payment.start
  split
  next hstart =>
    obtain ⟨_, hsafe, hminimum, hnone⟩ := hstart
    have hpositive : 0 < amountKobo := Nat.lt_of_lt_of_le (by decide) hminimum
    have hnotPosted : s.posted = false := by
      cases hposted : s.posted with
      | false => rfl
      | true =>
        obtain ⟨row, hrow, _⟩ := h.posted hposted
        rw [hnone] at hrow
        cases hrow
    have hzero := h.uncredited hnone
    have hcount := h.creditings
    rw [hnotPosted] at hcount
    constructor
    · intro row hrow
      cases hrow
      exact ⟨amountKobo, asAmount_of_safe hsafe hpositive, rfl⟩
    · intro hposted
      have hsame : s.posted = true := hposted
      rw [hnotPosted] at hsame
      cases hsame
    · exact h.creditings
    · intro row _
      simp only [hzero, hcount]
      simp
    · intro hintent
      cases hintent
    · intro id intent hintent
      obtain ⟨row, hrow, _⟩ := h.calls id intent hintent
      rw [hnone] at hrow
      cases hrow
    · exact h.later
  next => exact h

/-- A change of the intent's status that keeps it live where it was live. -/
theorem Booked.withStatus (h : Booked s) {f : PaymentIntent → PaymentIntent}
    (htenant : ∀ row, (f row).tenantId = row.tenantId)
    (hamount : ∀ row, (f row).amountKobo = row.amountKobo)
    (hlive : ∀ row, s.intent = some row → row.live → (f row).live) :
    Booked { s with intent := s.intent.map f } where
  amount row hrow := by
    obtain ⟨old, hold, rfl⟩ := map_eq_some_iff.mp hrow
    rw [hamount]
    exact h.amount old hold
  posted hposted := by
    obtain ⟨old, hold, hrowLive⟩ := h.posted hposted
    exact ⟨f old, map_eq_some_iff.mpr ⟨old, hold, rfl⟩, hlive old hold hrowLive⟩
  creditings := h.creditings
  credited row hrow := by
    obtain ⟨old, hold, rfl⟩ := map_eq_some_iff.mp hrow
    rw [hamount]
    exact h.credited old hold
  uncredited hnone := h.uncredited (map_eq_none_iff.mp hnone)
  calls id intent hintent := by
    obtain ⟨old, hold, hsameTenant, hsameAmount, hrowLive⟩ := h.calls id intent hintent
    exact ⟨f old, map_eq_some_iff.mpr ⟨old, hold, rfl⟩, (htenant old).trans hsameTenant,
      (hamount old).trans hsameAmount, hlive old hold hrowLive⟩
  later := h.later

theorem booked_initialized (h : Booked s) (accepted : Bool) : Booked (s.initialized accepted) := by
  apply h.withStatus
  · intro row
    split <;> rfl
  · intro row
    split <;> rfl
  · intro row _ hlive
    split
    next hstatus =>
      unfold PaymentIntent.live PaymentIntent.settleable at hlive
      rw [hstatus] at hlive
      simp at hlive
    next => exact hlive

theorem settleable_of_check {transferId : String} {now : Nat}
    (h : checkIntent transferId now (some intent) = .ok none) : intent.settleable := by
  simp only [checkIntent] at h
  split at h
  next => cases hamount : asAmount intent.amountKobo <;> rw [hamount] at h <;> cases h
  next =>
    split at h
    next => cases h
    next hsettleable => simpa using hsettleable

theorem booked_check (h : Booked s) (id : Nat) : Booked (s.check id) := by
  unfold Payment.check
  split
  next => exact h.finish id fun hposted => hposted
  next => exact h.finish id fun hposted => hposted
  next intent hchecked hintent =>
    apply h.setCall id
    · intro other hother
      cases hother
      rw [hintent] at hchecked
      have hlive : intent.live := .inl (settleable_of_check hchecked)
      exact ⟨intent, hintent, rfl, rfl, hlive⟩
    · exact fun hposted => hposted
  next => exact h

theorem booked_complete (h : Booked s) (id : Nat) (channel : String) (hagrees : Agrees s intent) :
    Booked (s.complete id intent channel) := by
  unfold Payment.complete
  split
  next =>
    have hphase : Booked (s.setPhase id (.recording intent channel)) := by
      apply h.setPhase id
      intro other hother
      cases hother
      exact hagrees
    exact hphase.withStatus (fun _ => rfl) (fun _ => rfl) fun _ _ _ => .inr rfl
  next => exact h.finish id (h.later id)

theorem booked_record (h : Booked s) (id : Nat) (intent : PaymentIntent) (channel : String) :
    Booked (s.record id intent channel) := by
  unfold Payment.record
  split
  next => exact h.finish id (h.later id)
  next =>
    apply Booked.finish
    · exact ⟨h.amount, h.posted, h.creditings, h.credited, h.uncredited, h.calls, h.later⟩
    · exact h.later id

theorem booked_otherTransfer (h : Booked s) {transfer : Transfer}
    (hother : transfer.id ≠ s.transferId) : Booked { s with ledger := s.ledger.post transfer } := by
  have hposted : Payment.posted { s with ledger := s.ledger.post transfer } = s.posted := by
    rw [Bool.eq_iff_iff]
    unfold Payment.posted
    rw [List.contains_iff_mem, List.contains_iff_mem, mem_posted_post]
    constructor
    · rintro (hid | hmem)
      · exact absurd hid.symm hother
      · exact hmem
    · exact Or.inr
  exact ⟨h.amount, hposted ▸ h.posted, hposted ▸ h.creditings, h.credited, h.uncredited, h.calls,
    hposted ▸ h.later⟩

theorem booked_step (h : Booked s) (hstep : settlementStep s action = some t) : Booked t := by
  cases paymentTakes_of_step hstep with
  | start tenantId amountKobo => exact booked_start h tenantId amountKobo
  | initialized accepted => exact booked_initialized h accepted
  | @check id hphase => exact booked_check h id
  | @verified id intent hphase answer channel | @ensured id intent channel hphase answer =>
    have hagrees := h.calls id intent (congrArg Phase.intent? hphase)
    exact h.setPhase id fun other hother => some.inj hother ▸ hagrees
  | @refused id intent answer error hphase herror
  | @notEnsured id intent channel answer error hphase herror => exact h.finish id (h.later id)
  | @posted id intent channel hphase answer applied =>
    have hagrees := h.calls id intent (congrArg Phase.intent? hphase)
    apply (booked_post h hagrees).setPhase id
    exact fun other hother => some.inj hother ▸ hagrees
  | @unanswered id intent channel answer error sent hphase herror hsent applied =>
    have hpost := booked_post h (h.calls id intent (congrArg Phase.intent? hphase))
    rcases hsent with rfl | rfl
    · exact hpost.finish id (hpost.later id)
    · exact h.finish id (h.later id)
  | @complete id intent channel hphase =>
    exact booked_complete h id channel (h.calls id intent (congrArg Phase.intent? hphase))
  | @record id intent channel hphase => exact booked_record h id intent channel
  | crash id =>
    apply h.setPhase id
    intro intent hintent
    cases hintent
  | otherTransfer hother => exact booked_otherTransfer h hother
  | tick ms =>
    exact ⟨h.amount, h.posted, h.creditings, h.credited, h.uncredited, h.calls, h.later⟩

theorem booked_initial (sha256 : List UInt8 → List UInt8) (reference : String) :
    Booked (.initial sha256 reference) where
  amount row hrow := by
    cases hrow
  posted hposted := by
    cases hposted
  creditings := rfl
  credited row hrow := by
    cases hrow
  uncredited _ := rfl
  calls id intent hintent := by
    cases hintent
  later id hlater := by
    cases hlater

/-! ### One credit, of the intent's amount -/

structure CreditedOnce (s : Payment) : Prop where
  once : s.creditings ≤ 1
  amount : ∀ intent, s.intent = some intent → s.creditedKobo = s.creditings * intent.amountKobo
  unclaimed : s.intent = none → s.creditedKobo = 0

theorem creditedOnce_of_booked (h : Booked s) : CreditedOnce s where
  once := by
    rw [h.creditings]
    split <;> omega
  amount := h.credited
  unclaimed := h.uncredited

/-! ### What later calls end with -/

/-- The call has recorded and returned the credit of its intent, or has failed
on the provider or the ledger. -/
def Ended.honoured (transferId : String) (ended : Ended) : Prop :=
  match ended.result with
  | .error error => ¬ error.rejectsIntent
  | .ok settled =>
    ended.recorded ∧ settled.transferId = transferId ∧
      ∃ intent, ended.intent = some intent ∧ settled.tenantId = intent.tenantId ∧
        settled.amountKobo = intent.amountKobo

def Honoured (s : Payment) : Prop :=
  ∀ ended ∈ s.ended, ended.later → ended.honoured s.transferId

/-- A call that reads the intent after the credit was posted finds it credited
with its top-up row, or open and unexpired; it still finds it open when it
updates it, and the amount and channel it goes on to record fit the table. -/
def FindsCredit (s : Payment) : SettlementAction → Prop
  | .check _ => s.posted → s.intent.any fun intent =>
    (intent.status == .credited && s.recorded) ||
      (intent.settleable && decide (s.clock ≤ intent.expiresAt))
  | .complete id => (s.calls id).later → s.intent.any PaymentIntent.settleable
  | .record id => (s.calls id).later → ∀ intent channel,
      (s.calls id).phase = .recording intent channel →
        topupRefusal intent.amountKobo channel = none
  | _ => True

theorem honoured_finish_iff (hs : Honoured s) (id : Nat) (later : Bool)
    (result : Except SettlementError Settled) :
    Honoured (s.finish id later result) ↔
      (later → (Ended.mk later result s.intent s.recorded).honoured s.transferId) := by
  constructor
  · intro h hlater
    exact h _ List.mem_cons_self hlater
  · intro h ended hended hlater
    rcases List.mem_cons.mp hended with rfl | hold
    · exact h hlater
    · exact hs ended hold hlater

theorem honoured_finish_error (hs : Honoured s) (id : Nat) (later : Bool)
    (herror : ¬ error.rejectsIntent) : Honoured (s.finish id later (.error error)) :=
  (honoured_finish_iff hs id later _).mpr fun _ => herror

theorem honoured_check_iff (hs : Honoured s) (hbooked : Booked s) (id : Nat) :
    Honoured (s.check id) ↔ FindsCredit s (.check id) := by
  unfold FindsCredit
  cases hintent : s.intent with
  | none =>
    have hposted : s.posted = false := by
      cases hposted : s.posted with
      | false => rfl
      | true =>
        obtain ⟨row, hrow, _⟩ := hbooked.posted hposted
        rw [hintent] at hrow
        cases hrow
    simp only [Payment.check, hintent, checkIntent]
    rw [honoured_finish_iff hs]
    simp [hposted]
  | some intent =>
    obtain ⟨kobo, hamount, hkobo⟩ := hbooked.amount intent hintent
    by_cases hcredited : intent.status = .credited
    · have hnot : intent.settleable = false := by
        unfold PaymentIntent.settleable
        rw [hcredited]
        rfl
      simp only [Payment.check, hintent, checkIntent, if_pos hcredited, hamount, Except.map]
      rw [honoured_finish_iff hs]
      simp [Ended.honoured, hcredited, hnot, hintent, hkobo]
    · have hlive : s.posted → intent.settleable := by
        intro hposted
        obtain ⟨row, hrow, hlive⟩ := hbooked.posted hposted
        obtain rfl : intent = row := some.inj (hintent.symm.trans hrow)
        exact hlive.resolve_right hcredited
      by_cases hsettleable : intent.settleable
      · by_cases hexpired : intent.expiresAt < s.clock
        · have hcheck : checkIntent s.transferId s.clock (some intent) = .error .intentExpired := by
            simp [checkIntent, hcredited, hsettleable, hexpired]
          simp only [Payment.check, hintent, hcheck]
          rw [honoured_finish_iff hs]
          constructor
          · intro h hposted
            exact absurd rfl (h hposted)
          · intro h hposted
            have hfound := h hposted
            simp [hcredited, Nat.not_le_of_lt hexpired] at hfound
        · have hcheck : checkIntent s.transferId s.clock (some intent) = .ok none := by
            simp [checkIntent, hcredited, hsettleable, hexpired]
          have hopen : s.clock ≤ intent.expiresAt := Nat.le_of_not_lt hexpired
          have hkept : Honoured (s.setCall id ⟨.verifying intent, s.posted⟩) := hs
          simp only [Payment.check, hintent, hcheck]
          exact iff_of_true hkept fun _ => by simp [hsettleable, hopen]
      · have hposted : s.posted = false := by
          cases hposted : s.posted with
          | false => rfl
          | true => exact absurd (hlive hposted) hsettleable
        have hcheck : checkIntent s.transferId s.clock (some intent) =
            .error .intentNotEligible := by
          simp [checkIntent, hcredited, hsettleable]
        simp only [Payment.check, hintent, hcheck]
        rw [honoured_finish_iff hs]
        simp [hposted]

theorem honoured_complete_iff (hs : Honoured s) (id : Nat) (intent : PaymentIntent)
    (channel : String) :
    Honoured (s.complete id intent channel) ↔ FindsCredit s (.complete id) := by
  unfold Payment.complete FindsCredit
  split
  next hopen => exact iff_of_true hs fun _ => hopen
  next hclosed =>
    rw [honoured_finish_iff hs]
    constructor
    · intro h hlater
      exact absurd rfl (h hlater)
    · intro h hlater
      exact absurd (h hlater) hclosed

theorem rejectsIntent_of_refusal {amountKobo : Nat} {channel : String}
    (h : topupRefusal amountKobo channel = some error) : error.rejectsIntent := by
  unfold topupRefusal at h
  split at h
  next =>
    cases h
    rfl
  next =>
    split at h
    next => cases h
    next =>
      cases h
      rfl

theorem honoured_record_iff (hs : Honoured s) (id : Nat) {channel : String}
    (hphase : (s.calls id).phase = .recording intent channel) (hagrees : Agrees s intent) :
    Honoured (s.record id intent channel) ↔ FindsCredit s (.record id) := by
  have hfinds : FindsCredit s (.record id) ↔
      ((s.calls id).later → topupRefusal intent.amountKobo channel = none) := by
    constructor
    · exact fun h hlater => h hlater intent channel hphase
    · intro h hlater _ _ hsame
      rw [hphase] at hsame
      cases hsame
      exact h hlater
  rw [hfinds]
  unfold Payment.record
  split
  next error hrefused =>
    rw [honoured_finish_iff hs, hrefused]
    have hrejects := rejectsIntent_of_refusal hrefused
    simp [Ended.honoured, hrejects]
  next hfits =>
    refine iff_of_true ?_ fun _ => hfits
    obtain ⟨row, hrow, htenant, hamount, _⟩ := hagrees
    apply (honoured_finish_iff _ id _ _).mpr
    · intro _
      refine ⟨?_, rfl, row, hrow, htenant.symm, hamount.symm⟩
      simp [Payment.recorded]
    · exact hs

theorem rejectsIntent_verify {reference : String} {answer : ProviderAnswer}
    (h : verify reference intent answer = .error error) : ¬ error.rejectsIntent := by
  cases answer with
  | failed providerError hprovider =>
    obtain rfl := Except.error.inj h
    exact hprovider
  | transaction transaction =>
    simp only [verify] at h
    split at h
    · obtain rfl := Except.error.inj h
      simp [SettlementError.rejectsIntent]
    · split at h
      · obtain rfl := Except.error.inj h
        simp [SettlementError.rejectsIntent]
      · split at h
        · obtain rfl := Except.error.inj h
          simp [SettlementError.rejectsIntent]
        · cases h

theorem rejectsIntent_failure {answer : LedgerAnswer} (h : answer.failure = some error) :
    ¬ error.rejectsIntent := by
  cases answer with
  | accepted => cases h
  | notConfigured | unreachable | rejected =>
    cases h
    simp [SettlementError.rejectsIntent]

theorem honoured_step_iff (hbooked : Booked s) (hs : Honoured s)
    (hstep : settlementStep s action = some t) : Honoured t ↔ FindsCredit s action := by
  cases paymentTakes_of_step hstep with
  | start tenantId amountKobo =>
    refine iff_of_true ?_ trivial
    unfold Payment.start
    split <;> exact hs
  | initialized | verified | ensured | posted | crash | otherTransfer | tick =>
    exact iff_of_true hs trivial
  | @check id hphase => exact honoured_check_iff hs hbooked id
  | @refused id intent answer error hphase herror =>
    exact iff_of_true (honoured_finish_error hs id _ (rejectsIntent_verify herror)) trivial
  | @notEnsured id intent channel answer error hphase herror =>
    exact iff_of_true (honoured_finish_error hs id _ (rejectsIntent_failure herror)) trivial
  | @unanswered id intent channel answer error sent hphase herror hsent applied =>
    have hsame : Honoured sent := by
      rcases hsent with rfl | rfl
      · exact hs
      · exact hs
    exact iff_of_true (honoured_finish_error hsame id _ (rejectsIntent_failure herror)) trivial
  | @complete id intent channel hphase => exact honoured_complete_iff hs id intent channel
  | @record id intent channel hphase =>
    apply honoured_record_iff hs id hphase
    exact hbooked.calls id intent (congrArg Phase.intent? hphase)

end Steps

/-- The tenant is credited the intent's amount at most once along every run, and
later calls return that credit exactly where they find it. -/
theorem credited_once_and_honoured_iff (sha256 : List UInt8 → List UInt8) (reference : String)
    (labels : List SettlementAction) :
    Always settlementStep CreditedOnce (.initial sha256 reference) labels ∧
      (Always settlementStep Honoured (.initial sha256 reference) labels ↔
        Meets settlementStep FindsCredit (.initial sha256 reference) labels) := by
  have hbooked : ∀ s a t, Booked s → settlementStep s a = some t → Booked t :=
    fun s a t hs hstep => booked_step hs hstep
  have hinitial := booked_initial sha256 reference
  constructor
  · exact (always_of_step labels hbooked hinitial).mono fun s hs => creditedOnce_of_booked hs
  · apply always_iff_meets labels hbooked
    · intro s a t hs hhonoured hstep
      exact honoured_step_iff hs hhonoured hstep
    · exact hinitial
    · intro ended hended
      cases hended

/-- The first call dies after its posting and the intent expires before the
second. -/
theorem posted_credit_expires :
    ¬ ∀ (sha256 : List UInt8 → List UInt8) (reference : String) (labels : List SettlementAction),
      Always settlementStep CreditedOnce (.initial sha256 reference) labels ∧
        Always settlementStep Honoured (.initial sha256 reference) labels := by
  intro h
  let labels : List SettlementAction :=
    [.start 7 50000, .initialized true, .check 0,
      .verify 0 (.transaction ⟨"success", 50000, some "NGN", some "card", "BIS-TOP-1"⟩),
      .ensureAccounts 0 .accepted, .post 0 .accepted true, .crash 0, .tick 1800001, .check 1]
  have hrun : (run settlementStep (.initial (fun _ => []) "BIS-TOP-1") labels).map Payment.ended =
      some [⟨true, .error .intentExpired, some ⟨7, 50000, "NGN", .pending, 1800000⟩, false⟩] := by
    decide
  obtain ⟨s, hs, hended⟩ := map_eq_some_iff.mp hrun
  have hhonoured := ((h _ _ labels).2.finish hs) _ (hended ▸ List.mem_cons_self) rfl
  exact hhonoured rfl

end Bis.Settlement
