import Bis.TigerBeetle.DebitClaim

/-!
When a claim keeps an investigation from being charged. A claim without a posting
belongs to one call; once that call is over and has left the claim, every retry finds
it and stops. A transfer that was posted keeps its claim, so it is not posted again.
-/

namespace Bis.TigerBeetle.DebitClaim

open Bis.Transition State Option

variable {sha256 : List UInt8 → List UInt8} {s t : State} {call : Nat}

/-! ### The state -/

@[simp]
theorem claims_setCall (s : State) (call : Nat) (phase : Phase) :
    (s.setCall call phase).claims = s.claims := rfl

@[simp]
theorem posts_setCall (s : State) (call : Nat) (phase : Phase) :
    (s.setCall call phase).posts = s.posts := rfl

@[simp]
theorem posts_setClaim (s : State) (transferId : String) (row : Option ClaimRow) :
    (s.setClaim transferId row).posts = s.posts := rfl

@[simp]
theorem calls_setClaim (s : State) (transferId : String) (row : Option ClaimRow) :
    (s.setClaim transferId row).calls = s.calls := rfl

@[simp]
theorem calls_setCall_self (s : State) (call : Nat) (phase : Phase) :
    (s.setCall call phase).calls call = phase := by
  simp [setCall]

theorem calls_setCall_of_ne (s : State) {call other : Nat} (phase : Phase) (h : other ≠ call) :
    (s.setCall call phase).calls other = s.calls other := by
  simp [setCall, h]

@[simp]
theorem claims_setClaim_self (s : State) (transferId : String) (row : Option ClaimRow) :
    (s.setClaim transferId row).claims transferId = row := by
  simp [setClaim]

theorem claims_setClaim_of_ne (s : State) {transferId other : String} (row : Option ClaimRow)
    (h : other ≠ transferId) : (s.setClaim transferId row).claims other = s.claims other := by
  simp [setClaim, h]

variable {phase : Phase} {id : String} {input : RecordDebitInput} {transfer : Transfer}
  {stage : Stage} {label : Label}

theorem held_eq_some_iff :
    phase.held = some id ↔
      ∃ input transfer stage, phase = .holding input transfer stage ∧ transfer.id = id := by
  cases phase with
  | holding input transfer stage => simp [Phase.held]
  | _ => simp [Phase.held]

/-- A call that takes no claim up leaves everybody with what they held. -/
theorem held_of_setCall {other : Nat}
    (hphase : ∀ id, phase.held = some id → (s.calls call).held = some id)
    (h : ((s.setCall call phase).calls other).held = some id) : (s.calls other).held = some id := by
  rcases eq_or_ne other call with rfl | hne
  · rw [calls_setCall_self] at h
    exact hphase id h
  · rwa [calls_setCall_of_ne _ _ hne] at h

/-! ### The invariant -/

/-- Who holds a claim, and what the claims stand for. -/
structure Inv (sha256 : List UInt8 → List UInt8) (s : State) : Prop where
  holder : ∀ call input transfer stage, s.calls call = .holding input transfer stage →
    prepared sha256 input = .ok transfer ∧
      s.claims transfer.id = some ⟨input.contextTenantId, false⟩ ∧ transfer.id ∉ s.posts
  unique : ∀ call other id, (s.calls call).held = some id → (s.calls other).held = some id →
    call = other
  marking : ∀ call id, s.calls call = .marking id → id ∈ s.posts
  named : ∀ id, (s.claims id).isSome → ∃ input transfer, prepared sha256 input = .ok transfer ∧
    transfer.id = id
  posted : ∀ id ∈ s.posts, (s.claims id).isSome
  nodup : s.posts.Nodup
  fresh : ∃ bound, ∀ call, bound ≤ call → s.calls call = .idle

theorem inv_start (sha256 : List UInt8 → List UInt8) : Inv sha256 start where
  holder _ _ _ _ h := by cases h
  unique _ _ _ h := by cases h
  marking _ _ h := by cases h
  named _ h := by cases h
  posted _ h := by cases h
  nodup := List.Pairwise.nil
  fresh := ⟨0, fun _ _ => rfl⟩

theorem Inv.holder_of_held (h : Inv sha256 s) (hheld : (s.calls call).held = some id) :
    (∃ row, s.claims id = some row ∧ row.reconciled = false) ∧ id ∉ s.posts := by
  obtain ⟨input, transfer, stage, hphase, rfl⟩ := held_eq_some_iff.mp hheld
  obtain ⟨_, hclaim, hposts⟩ := h.holder call input transfer stage hphase
  exact ⟨⟨_, hclaim, rfl⟩, hposts⟩

theorem fresh_setCall (h : ∃ bound, ∀ call, bound ≤ call → s.calls call = .idle) (call : Nat)
    (phase : Phase) :
    ∃ bound, ∀ other, bound ≤ other → (s.setCall call phase).calls other = .idle := by
  obtain ⟨bound, hbound⟩ := h
  refine ⟨max bound (call + 1), ?_⟩
  intro other hother
  rw [calls_setCall_of_ne _ _ (by omega)]
  exact hbound other (by omega)

/-- A call that takes nothing up: what it holds then it held before. -/
theorem Inv.setCall (h : Inv sha256 s)
    (hholding : ∀ input transfer stage, phase = .holding input transfer stage → ∃ before, s.calls
      call = .holding input transfer before) (hmarking : ∀ id, phase = .marking id → id ∈ s.posts) :
    Inv sha256 (s.setCall call phase) where
  holder other input transfer stage hother := by
    rcases eq_or_ne other call with rfl | hne
    · rw [calls_setCall_self] at hother
      obtain ⟨before, hbefore⟩ := hholding input transfer stage hother
      exact h.holder other input transfer before hbefore
    · rw [calls_setCall_of_ne _ _ hne] at hother
      exact h.holder other input transfer stage hother
  unique first second id hfirst hsecond := by
    have hkept : ∀ id, phase.held = some id → (s.calls call).held = some id := by
      intro id hid
      obtain ⟨input, transfer, stage, rfl, rfl⟩ := held_eq_some_iff.mp hid
      obtain ⟨before, hbefore⟩ := hholding input transfer stage rfl
      rw [hbefore]
      rfl
    exact h.unique first second id (held_of_setCall hkept hfirst) (held_of_setCall hkept hsecond)
  marking other id hother := by
    rcases eq_or_ne other call with rfl | hne
    · rw [calls_setCall_self] at hother
      exact hmarking id hother
    · rw [calls_setCall_of_ne _ _ hne] at hother
      exact h.marking other id hother
  named := h.named
  posted := h.posted
  nodup := h.nodup
  fresh := fresh_setCall h.fresh call phase

theorem Inv.setCall_finished (h : Inv sha256 s) (reply : Reply) :
    Inv sha256 (s.setCall call (.finished reply)) :=
  h.setCall (fun _ _ _ hphase => by cases hphase) (fun _ hphase => by cases hphase)

theorem Inv.setCall_holding (h : Inv sha256 s)
    (hcall : s.calls call = .holding input transfer stage) (next : Stage) :
    Inv sha256 (s.setCall call (.holding input transfer next)) := by
  apply h.setCall
  · rintro input' transfer' stage' hphase
    cases hphase
    exact ⟨stage, hcall⟩
  · intro id hphase
    cases hphase

theorem Inv.claim (h : Inv sha256 s) {input : RecordDebitInput} {transfer : Transfer}
    (hprepared : prepared sha256 input = .ok transfer) (hnone : s.claims transfer.id = none) :
    Inv sha256 ((s.setClaim transfer.id (some ⟨input.contextTenantId, false⟩)).setCall call
      (.holding input transfer .ensureLedgerAccounts)) := by
  have hunheld : ∀ other, (s.calls other).held ≠ some transfer.id := by
    intro other hheld
    obtain ⟨⟨row, hrow, _⟩, _⟩ := h.holder_of_held hheld
    cases hnone.symm.trans hrow
  have hunposted : transfer.id ∉ s.posts := by
    intro hmem
    have hsome := h.posted _ hmem
    rw [hnone] at hsome
    cases hsome
  have hclaims : ∀ id, ((s.setClaim transfer.id
      (some ⟨input.contextTenantId, false⟩)).claims id).isSome → id = transfer.id ∨
        (s.claims id).isSome := by
    intro id hid
    rcases eq_or_ne id transfer.id with rfl | hne
    · exact .inl rfl
    · rw [claims_setClaim_of_ne _ _ hne] at hid
      exact .inr hid
  constructor
  case holder =>
    intro other input' transfer' stage' hother
    rcases eq_or_ne other call with rfl | hne
    · rw [calls_setCall_self] at hother
      cases hother
      exact ⟨hprepared, claims_setClaim_self s _ _, hunposted⟩
    · rw [calls_setCall_of_ne _ _ hne, calls_setClaim] at hother
      obtain ⟨hprepared', hclaim', hposts'⟩ := h.holder other input' transfer' stage' hother
      have hdiffers : transfer'.id ≠ transfer.id := by
        intro hsame
        exact hunheld other (held_eq_some_iff.mpr ⟨_, _, _, hother, hsame⟩)
      refine ⟨hprepared', ?_, hposts'⟩
      rw [claims_setCall, claims_setClaim_of_ne _ _ hdiffers]
      exact hclaim'
  case unique =>
    have hold : ∀ other id, other ≠ call → (((s.setClaim transfer.id
        (some ⟨input.contextTenantId, false⟩)).setCall call
          (.holding input transfer .ensureLedgerAccounts)).calls other).held = some id →
        (s.calls other).held = some id := by
      intro other id hne hother
      rwa [calls_setCall_of_ne _ _ hne, calls_setClaim] at hother
    intro first second id hfirst hsecond
    rcases eq_or_ne first call with rfl | hne
    · rcases eq_or_ne second first with rfl | hne'
      · rfl
      · rw [calls_setCall_self] at hfirst
        obtain rfl : transfer.id = id := some.inj hfirst
        exact absurd (hold second _ hne' hsecond) (hunheld second)
    · rcases eq_or_ne second call with rfl | hne'
      · rw [calls_setCall_self] at hsecond
        obtain rfl : transfer.id = id := some.inj hsecond
        exact absurd (hold first _ hne hfirst) (hunheld first)
      · exact h.unique first second id (hold first id hne hfirst) (hold second id hne' hsecond)
  case marking =>
    intro other id hother
    rcases eq_or_ne other call with rfl | hne
    · rw [calls_setCall_self] at hother
      cases hother
    · rw [calls_setCall_of_ne _ _ hne] at hother
      exact h.marking other id hother
  case named =>
    intro id hid
    rcases hclaims id hid with rfl | hid
    · exact ⟨input, transfer, hprepared, rfl⟩
    · exact h.named id hid
  case posted =>
    intro id hid
    rw [claims_setCall]
    rcases eq_or_ne id transfer.id with rfl | hne
    · rw [claims_setClaim_self]
      rfl
    · rw [claims_setClaim_of_ne _ _ hne]
      exact h.posted id hid
  case nodup => exact h.nodup
  case fresh => exact fresh_setCall h.fresh call _

/-- A transfer is posted by the call that holds its claim. -/
theorem Inv.post (h : Inv sha256 s) (hcall : s.calls call = .holding input transfer stage) :
    Inv sha256
      ({ s with posts := transfer.id :: s.posts }.setCall call (.marking transfer.id)) := by
  obtain ⟨_, hclaim, hposts⟩ := h.holder call input transfer stage hcall
  have hheld : (s.calls call).held = some transfer.id :=
    held_eq_some_iff.mpr ⟨input, transfer, stage, hcall, rfl⟩
  constructor
  case holder =>
    intro other input' transfer' stage' hother
    rcases eq_or_ne other call with rfl | hne
    · rw [calls_setCall_self] at hother
      cases hother
    · rw [calls_setCall_of_ne _ _ hne] at hother
      obtain ⟨hprepared', hclaim', hposts'⟩ := h.holder other input' transfer' stage' hother
      refine ⟨hprepared', hclaim', ?_⟩
      intro hmem
      rcases List.mem_cons.mp hmem with hsame | hmem
      · have hheld' : (s.calls other).held = some transfer.id :=
          held_eq_some_iff.mpr ⟨_, _, _, hother, hsame⟩
        exact hne (h.unique other call _ hheld' hheld)
      · exact hposts' hmem
  case unique =>
    have hnone : ∀ id, (Phase.marking transfer.id).held = some id →
        (s.calls call).held = some id := by
      intro id hid
      cases hid
    intro first second id hfirst hsecond
    exact h.unique first second id (held_of_setCall hnone hfirst) (held_of_setCall hnone hsecond)
  case marking =>
    intro other id hother
    rcases eq_or_ne other call with rfl | hne
    · rw [calls_setCall_self] at hother
      cases hother
      exact List.mem_cons_self
    · rw [calls_setCall_of_ne _ _ hne] at hother
      exact List.mem_cons_of_mem _ (h.marking other id hother)
  case named => exact h.named
  case posted =>
    intro id hid
    rcases List.mem_cons.mp hid with rfl | hid
    · exact isSome_iff_exists.mpr ⟨_, hclaim⟩
    · exact h.posted id hid
  case nodup => exact List.nodup_cons.mpr ⟨hposts, h.nodup⟩
  case fresh => exact fresh_setCall h.fresh call _

/-- The row of a claim that no call holds. -/
theorem Inv.setClaim (h : Inv sha256 s) {row : Option ClaimRow}
    (hunheld : ∀ other, (s.calls other).held ≠ some id) (hposted : id ∈ s.posts → row.isSome)
    (hnamed : row.isSome → (s.claims id).isSome) : Inv sha256 (s.setClaim id row) where
  holder other input transfer stage hother := by
    obtain ⟨hprepared, hclaim, hposts⟩ := h.holder other input transfer stage hother
    refine ⟨hprepared, ?_, hposts⟩
    rw [claims_setClaim_of_ne _ _ ?_]
    · exact hclaim
    · intro hsame
      exact hunheld other (held_eq_some_iff.mpr ⟨_, _, _, hother, hsame⟩)
  unique := h.unique
  marking := h.marking
  named other hother := by
    rcases eq_or_ne other id with rfl | hne
    · rw [claims_setClaim_self] at hother
      exact h.named other (hnamed hother)
    · rw [claims_setClaim_of_ne _ _ hne] at hother
      exact h.named other hother
  posted other hother := by
    rcases eq_or_ne other id with rfl | hne
    · rw [claims_setClaim_self]
      exact hposted hother
    · rw [claims_setClaim_of_ne _ _ hne]
      exact h.posted other hother
  nodup := h.nodup
  fresh := h.fresh

/-- A call that is over leaves the claim it held to nobody. -/
theorem Inv.unheld_of_finished (h : Inv sha256 s) (hheld : (s.calls call).held = some id)
    (hphase : phase.held = none) (other : Nat) :
    ((s.setCall call phase).calls other).held ≠ some id := by
  rcases eq_or_ne other call with rfl | hne
  · rw [calls_setCall_self, hphase]
    exact fun hnone => by cases hnone
  · rw [calls_setCall_of_ne _ _ hne]
    intro hother
    exact hne (h.unique other call id hother hheld)

theorem setCall_setClaim (s : State) (call : Nat) (phase : Phase) (id : String)
    (row : Option ClaimRow) :
    (s.setClaim id row).setCall call phase = (s.setCall call phase).setClaim id row := rfl

/-- What a release does: the claim of a tenant's call goes, that of another stays. -/
theorem Inv.release_eq (h : Inv sha256 s) (hcall : s.calls call = .holding input transfer stage)
    (reply : Reply) :
    (s.deleteClaim transfer.id input.contextTenantId).setCall call (.finished reply) =
      if input.contextTenantId = none then s.setCall call (.finished reply)
      else (s.setCall call (.finished reply)).setClaim transfer.id none := by
  obtain ⟨_, hclaim, _⟩ := h.holder call input transfer stage hcall
  unfold deleteClaim
  rw [hclaim]
  cases input.contextTenantId with
  | none => rfl
  | some tenantId =>
    simp only [if_true, setCall_setClaim, reduceCtorEq, if_false]

theorem Inv.marked_eq (h : Inv sha256 s) (hcall : s.calls call = .marking id) :
    ∃ row, s.claims id = some row ∧ s.marked call id =
      (s.setCall call (.finished (.recorded false))).setClaim id
        (some { row with reconciled := true }) := by
  obtain ⟨row, hrow⟩ := isSome_iff_exists.mp (h.posted id (h.marking call id hcall))
  refine ⟨row, hrow, ?_⟩
  rw [marked, hrow]
  rfl

/-- Reading the balance leaves the claim held, unless the balance is unreadable. -/
theorem checked_cases (s : State) (call : Nat) (input : RecordDebitInput) (transfer : Transfer)
    (account : TbAccount) :
    ((∃ available, getTenantAvailableBalanceKobo account = .ok available) ∧
        ∃ next, s.checked call input transfer account =
          s.setCall call (.holding input transfer next)) ∨
      (∃ error, getTenantAvailableBalanceKobo account = .error error) ∧
        ∃ reply, s.checked call input transfer account = s.setCall call (.finished reply) := by
  unfold checked assertSufficientLedgerBalance
  cases hread : getTenantAvailableBalanceKobo account with
  | ok available =>
    refine .inl ⟨⟨available, rfl⟩, ?_⟩
    simp only [bind, Except.bind]
    split
    next => exact ⟨_, rfl⟩
    next error herror =>
      by_cases hshort : available < (transfer.amount : Int)
      · rw [if_pos hshort] at herror
        cases herror
        exact ⟨_, rfl⟩
      · rw [if_neg hshort] at herror
        cases herror
  | error error =>
    have hunavailable : error = .serviceUnavailable
        "TigerBeetle returned an invalid available balance; the debit was not attempted" := by
      unfold getTenantAvailableBalanceKobo at hread
      split at hread
      · cases hread
      · cases hread
        rfl
    subst hunavailable
    exact .inr ⟨⟨_, rfl⟩, _, rfl⟩

/-- What a step finds its call at, and what it makes of the state. -/
inductive Takes (sha256 : List UInt8 → List UInt8) (s : State) : Label → State → Prop
  | claimed (call : Nat) (input : RecordDebitInput) (transfer : Transfer)
      (hcall : s.calls call = .idle) (hprepared : prepared sha256 input = .ok transfer) :
      Takes sha256 s (.request call input) (s.claim call input transfer)
  | rejected (call : Nat) (input : RecordDebitInput) (error : LedgerError)
      (hcall : s.calls call = .idle) :
      Takes sha256 s (.request call input) (s.setCall call (.finished (.refused error)))
  | recovered (call : Nat) (id : String) (hcall : s.calls call = .recovering id) :
      Takes sha256 s (.recover call) (s.setCall call (.finished (s.recovered id)))
  | ensured (call : Nat) (input : RecordDebitInput) (transfer : Transfer)
      (hcall : s.calls call = .holding input transfer .ensureLedgerAccounts) :
      Takes sha256 s (.ensureLedgerAccounts call)
        (s.setCall call (.holding input transfer .readBalance))
  | read (call : Nat) (account : TbAccount) (input : RecordDebitInput) (transfer : Transfer)
      (hcall : s.calls call = .holding input transfer .readBalance) :
      Takes sha256 s (.readBalance call account) (s.checked call input transfer account)
  | released (call : Nat) (input : RecordDebitInput) (transfer : Transfer) (error : LedgerError)
      (hcall : s.calls call = .holding input transfer (.release error)) :
      Takes sha256 s (.release call)
        ((s.deleteClaim transfer.id input.contextTenantId).setCall call
          (.finished (.refused error)))
  | posted (call : Nat) (input : RecordDebitInput) (transfer : Transfer)
      (hcall : s.calls call = .holding input transfer .createTransfer) :
      Takes sha256 s (.createTransfer call)
        ({ s with posts := transfer.id :: s.posts }.setCall call (.marking transfer.id))
  | marked (call : Nat) (id : String) (hcall : s.calls call = .marking id) :
      Takes sha256 s (.markReconciled call) (s.marked call id)
  | failed (call : Nat) (reply : Reply) :
      Takes sha256 s (.fail call reply) (s.setCall call (.finished reply))

theorem takes_of_step (hstep : recordDebit sha256 s label = some t) : Takes sha256 s label t := by
  cases label with
  | request call input =>
    simp only [recordDebit] at hstep
    split at hstep
    next hcall hprepared =>
      cases hstep
      exact .claimed call input _ hcall hprepared
    next hcall _ =>
      cases hstep
      exact .rejected call input _ hcall
    next => cases hstep
  | recover call =>
    simp only [recordDebit] at hstep
    split at hstep
    next id hcall =>
      cases hstep
      exact .recovered call id hcall
    next => cases hstep
  | ensureLedgerAccounts call =>
    simp only [recordDebit] at hstep
    split at hstep
    next input transfer hcall =>
      cases hstep
      exact .ensured call input transfer hcall
    next => cases hstep
  | readBalance call account =>
    simp only [recordDebit] at hstep
    split at hstep
    next input transfer hcall =>
      cases hstep
      exact .read call account input transfer hcall
    next => cases hstep
  | release call =>
    simp only [recordDebit] at hstep
    split at hstep
    next input transfer error hcall =>
      cases hstep
      exact .released call input transfer error hcall
    next => cases hstep
  | createTransfer call =>
    simp only [recordDebit] at hstep
    split at hstep
    next input transfer hcall =>
      cases hstep
      exact .posted call input transfer hcall
    next => cases hstep
  | markReconciled call =>
    simp only [recordDebit] at hstep
    split at hstep
    next id hcall =>
      cases hstep
      exact .marked call id hcall
    next => cases hstep
  | fail call reply =>
    simp only [recordDebit] at hstep
    split at hstep
    · cases hstep
    · cases hstep
    · cases hstep
      exact .failed call reply

theorem inv_step (h : Inv sha256 s) (hstep : recordDebit sha256 s label = some t) :
    Inv sha256 t := by
  cases takes_of_step hstep with
  | claimed call input transfer _ hprepared =>
    unfold State.claim
    split
    · exact h.setCall (fun _ _ _ hphase => by cases hphase) (fun _ hphase => by cases hphase)
    · exact h.claim hprepared (by assumption)
  | rejected | recovered | failed => exact h.setCall_finished _
  | ensured _ _ _ hcall => exact h.setCall_holding hcall _
  | read call account input transfer hcall =>
    rcases checked_cases s call input transfer account with ⟨_, next, hnext⟩ | ⟨_, reply, hover⟩
    · rw [hnext]
      exact h.setCall_holding hcall next
    · rw [hover]
      exact h.setCall_finished reply
  | released call input transfer error hcall =>
    rw [h.release_eq hcall]
    split
    · exact h.setCall_finished _
    · have hheld : (s.calls call).held = some transfer.id :=
        held_eq_some_iff.mpr ⟨_, _, _, hcall, rfl⟩
      apply (h.setCall_finished (.refused error)).setClaim
      · exact h.unheld_of_finished hheld rfl
      · intro hposted
        exact absurd hposted (h.holder_of_held hheld).2
      · intro hsome
        cases hsome
  | posted _ _ _ hcall => exact h.post hcall
  | marked call id hcall =>
    obtain ⟨row, hrow, hmarked⟩ := h.marked_eq hcall
    have hafter : Inv sha256 (s.setCall call (.finished (.recorded false))) :=
      h.setCall_finished _
    rw [hmarked]
    apply hafter.setClaim
    · intro other hheld
      exact (hafter.holder_of_held hheld).2 (h.marking call id hcall)
    · intro _
      rfl
    · intro _
      rw [claims_setCall, hrow]
      rfl

/-! ### Wedged claims -/

/-- Each claim is that of a posted transfer or of a call under way. -/
def NotWedged (s : State) : Prop :=
  ∀ id, (s.claims id).isSome → id ∈ s.posts ∨ ∃ call, (s.calls call).held = some id

theorem notWedged_start : NotWedged start := by
  intro id hid
  cases hid

/-- A claim stays held when a call that goes on either keeps it or did not hold it. -/
theorem holder_setCall (h : ∃ other, (s.calls other).held = some id)
    (hkept : (s.calls call).held = some id → phase.held = some id) :
    ∃ other, ((s.setCall call phase).calls other).held = some id := by
  obtain ⟨other, hother⟩ := h
  refine ⟨other, ?_⟩
  rcases eq_or_ne other call with rfl | hne
  · rw [calls_setCall_self]
    exact hkept hother
  · rw [calls_setCall_of_ne _ _ hne]
    exact hother

theorem NotWedged.setCall (h : NotWedged s)
    (hkept : ∀ id, (s.calls call).held = some id → phase.held = some id) :
    NotWedged (s.setCall call phase) :=
  fun id hid => (h id hid).imp (fun hposted => hposted) fun hheld => holder_setCall hheld (hkept id)

/-- The claim of a call that is over before the posting is nobody's. -/
theorem Inv.wedged (h : Inv sha256 s) (hheld : (s.calls call).held = some id) (reply : Reply) :
    ¬ NotWedged (s.setCall call (.finished reply)) := by
  intro hwedged
  obtain ⟨⟨row, hrow, _⟩, hunposted⟩ := h.holder_of_held hheld
  have hsome : ((s.setCall call (.finished reply)).claims id).isSome := by
    rw [claims_setCall, hrow]
    rfl
  rcases hwedged id hsome with hposted | ⟨other, hother⟩
  · exact hunposted hposted
  · exact h.unheld_of_finished hheld rfl other hother

theorem NotWedged.claim (h : NotWedged s) (hidle : s.calls call = .idle)
    (input : RecordDebitInput) (transfer : Transfer) :
    NotWedged (s.claim call input transfer) := by
  have hnone : ∀ {phase : Phase} id, (s.calls call).held = some id → phase.held = some id := by
    intro phase id hid
    rw [hidle] at hid
    cases hid
  unfold State.claim
  split
  · exact h.setCall hnone
  · intro id hid
    rcases eq_or_ne id transfer.id with rfl | hne
    · exact .inr ⟨call, by rw [calls_setCall_self]; rfl⟩
    · rw [claims_setCall, claims_setClaim_of_ne _ _ hne] at hid
      rcases h id hid with hposted | hheld
      · exact .inl hposted
      · exact .inr (holder_setCall hheld (hnone id))

theorem NotWedged.post (h : NotWedged s) (hcall : s.calls call = .holding input transfer stage) :
    NotWedged ({ s with posts := transfer.id :: s.posts }.setCall call
      (.marking transfer.id)) := by
  intro id hid
  rcases eq_or_ne id transfer.id with rfl | hne
  · exact .inl List.mem_cons_self
  · rcases h id hid with hposted | hheld
    · exact .inl (List.mem_cons_of_mem _ hposted)
    · refine .inr (holder_setCall hheld ?_)
      intro hself
      change (s.calls call).held = some id at hself
      rw [hcall] at hself
      exact absurd (some.inj hself).symm hne

theorem NotWedged.released (h : NotWedged s) (hcall : s.calls call = .holding input transfer stage)
    (reply : Reply) : NotWedged ((s.setCall call (.finished reply)).setClaim transfer.id none) := by
  intro id hid
  rcases eq_or_ne id transfer.id with rfl | hne
  · rw [claims_setClaim_self] at hid
    cases hid
  · rw [claims_setClaim_of_ne _ _ hne] at hid
    rcases h id hid with hposted | hheld
    · exact .inl hposted
    · refine .inr (holder_setCall hheld ?_)
      intro hself
      rw [hcall] at hself
      exact absurd (some.inj hself).symm hne

theorem NotWedged.setClaim_some (h : NotWedged s) (hid : (s.claims id).isSome) (row : ClaimRow) :
    NotWedged (s.setClaim id (some row)) := by
  intro other hother
  rcases eq_or_ne other id with rfl | hne
  · exact h other hid
  · rw [claims_setClaim_of_ne _ _ hne] at hother
    exact h other hother

/-- A call that holds no claim may end as it likes. -/
theorem NotWedged.setCall_of_none (h : NotWedged s) (hnone : (s.calls call).held = none)
    (phase : Phase) : NotWedged (s.setCall call phase) := by
  apply h.setCall
  intro id hid
  cases hnone.symm.trans hid

/-- A step leaves no claim behind exactly when it meets `Released`. -/
theorem notWedged_step_iff (h : Inv sha256 s) (hs : NotWedged s)
    (hstep : recordDebit sha256 s label = some t) : NotWedged t ↔ Released s label := by
  cases takes_of_step hstep with
  | claimed call input transfer hcall _ =>
    exact iff_of_true (hs.claim hcall input transfer) trivial
  | rejected call input error hcall | recovered call id hcall =>
    refine iff_of_true (hs.setCall_of_none ?_ _) trivial
    rw [hcall]
    rfl
  | ensured call input transfer hcall =>
    refine iff_of_true (hs.setCall ?_) trivial
    intro id hid
    rw [hcall] at hid
    exact hid
  | read call account input transfer hcall =>
    rcases checked_cases s call input transfer account with
      ⟨hread, next, hnext⟩ | ⟨⟨error, hread⟩, reply, hover⟩
    · rw [hnext]
      apply iff_of_true _ hread
      apply hs.setCall
      intro id hid
      rw [hcall] at hid
      exact hid
    · rw [hover]
      apply iff_of_false
      · exact h.wedged (held_eq_some_iff.mpr ⟨_, _, _, hcall, rfl⟩) reply
      · rintro ⟨available, havailable⟩
        cases hread.symm.trans havailable
  | released call input transfer error hcall =>
    rw [h.release_eq hcall]
    split
    next hnull =>
      apply iff_of_false
      · exact h.wedged (held_eq_some_iff.mpr ⟨_, _, _, hcall, rfl⟩) _
      · intro hreleased
        exact hreleased _ _ _ hcall hnull
    next htenant =>
      apply iff_of_true (hs.released hcall _)
      intro input' transfer' stage' hcall'
      cases hcall.symm.trans hcall'
      exact htenant
  | posted call input transfer hcall => exact iff_of_true (hs.post hcall) trivial
  | marked call id hcall =>
    obtain ⟨row, hrow, hmarked⟩ := h.marked_eq hcall
    have hafter : NotWedged (s.setCall call (.finished (.recorded false))) := by
      apply hs.setCall_of_none
      rw [hcall]
      rfl
    refine iff_of_true ?_ trivial
    rw [hmarked]
    apply hafter.setClaim_some
    rw [claims_setCall, hrow]
    rfl
  | failed call reply =>
    cases hheld : (s.calls call).held with
    | none => exact iff_of_true (hs.setCall_of_none hheld _) hheld
    | some id =>
      apply iff_of_false (h.wedged hheld reply)
      intro hnone
      cases hheld.symm.trans hnone

/-! ### Retries -/

theorem amount_le_of_prepared (h : prepared sha256 input = .ok transfer) :
    transfer.amount ≤ 500000 := by
  obtain ⟨_, _, hrest⟩ := except_bind_ok h
  dsimp only at hrest
  split at hrest
  next => cases hrest
  next hprice =>
    cases hrest
    rw [not_not] at hprice
    show (input.amountKobo.getD (tierAmounts input.tier)).toNat ≤ 500000
    rw [hprice]
    cases input.tier <;> decide

theorem checked_fundedAccount (h : prepared sha256 input = .ok transfer) :
    s.checked call input transfer fundedAccount =
      s.setCall call (.holding input transfer .createTransfer) := by
  have hamount := amount_le_of_prepared h
  have hread : getTenantAvailableBalanceKobo fundedAccount = .ok 10000000 := by decide
  have hfunded : ¬ (10000000 : Int) < (transfer.amount : Int) := by omega
  have hsufficient : assertSufficientLedgerBalance input.tenantId transfer.amount fundedAccount =
      .ok 10000000 := by
    unfold assertSufficientLedgerBalance
    rw [hread]
    exact if_neg hfunded
  unfold checked
  rw [hsufficient]

theorem lawful_iff (h : Inv sha256 s) : Lawful sha256 s ↔ NotWedged s := by
  constructor
  · rintro ⟨hchargeable, _⟩ id hid
    by_contra hwedged
    rw [not_or, not_exists] at hwedged
    obtain ⟨input, transfer, hprepared, rfl⟩ := h.named id hid
    obtain ⟨bound, hbound⟩ := h.fresh
    obtain ⟨t, hrun, _⟩ := hchargeable input transfer hprepared hwedged.1 hwedged.2 bound
      (hbound bound (Nat.le_refl bound))
    obtain ⟨row, hrow⟩ := isSome_iff_exists.mp hid
    simp [run, retry, recordDebit, hbound bound (Nat.le_refl bound), hprepared, State.claim,
      hrow] at hrun
  · intro hwedged
    refine ⟨?_, h.nodup⟩
    intro input transfer hprepared hunposted hunheld call hidle
    have hnone : s.claims transfer.id = none := by
      by_contra hsome
      have hclaimed := isSome_iff_ne_none.mpr hsome
      rcases hwedged transfer.id hclaimed with hposted | ⟨other, hother⟩
      · exact hunposted hposted
      · exact hunheld other hother
    have hrun : ∃ t, run (recordDebit sha256) s (retry call input) = some t ∧
        t.posts = transfer.id :: s.posts := by
      simp [run, retry, recordDebit, hidle, hprepared, State.claim, hnone,
        checked_fundedAccount hprepared]
    obtain ⟨t, hrun, hposts⟩ := hrun
    refine ⟨t, hrun, ?_⟩
    rw [hposts]
    exact List.mem_cons_self

/-! ### Whole runs -/

/-- In a run of `recordDebit` no investigation is lost to a claim and none is charged
twice, exactly when each call that made a claim goes on to its posting or is refused
for want of money under the context of a tenant. -/
theorem lawful_always_iff (sha256 : List UInt8 → List UInt8) (labels : List Label) :
    Always (recordDebit sha256) (Lawful sha256) start labels ↔
      Meets (recordDebit sha256) Released start labels := by
  apply always_iff_meets (I := Inv sha256) labels
  · intro s label t hinv hstep
    exact inv_step hinv hstep
  · intro s label t hinv hs hstep
    rw [lawful_iff (inv_step hinv hstep)]
    exact notWedged_step_iff hinv ((lawful_iff hinv).mp hs) hstep
  · exact inv_start sha256
  · exact (lawful_iff (inv_start sha256)).mpr notWedged_start

/-- In every run a transfer is posted once at most and its claim stays. A call that has yet to
post holds the claim alone, and nothing is posted under it. -/
theorem posted_once (sha256 : List UInt8 → List UInt8) (labels : List Label) :
    Always (recordDebit sha256) (fun s => s.posts.Nodup ∧ (∀ id ∈ s.posts, (s.claims id).isSome) ∧
      ∀ call input transfer stage, s.calls call = .holding input transfer stage →
        (s.claims transfer.id).isSome ∧ transfer.id ∉ s.posts ∧
        ∀ other, (s.calls other).held = some transfer.id → other = call) start labels := by
  refine Always.mono (I := Inv sha256) ?_
    (always_of_step labels (fun _ _ _ h ht => inv_step h ht) (inv_start sha256))
  intro s h
  refine ⟨h.nodup, h.posted, ?_⟩
  intro call input transfer stage hcall
  obtain ⟨_, hclaim, hpost⟩ := h.holder call input transfer stage hcall
  refine ⟨isSome_of_eq_some hclaim, hpost, ?_⟩
  intro other hother
  exact h.unique other call transfer.id hother (by rw [hcall]; rfl)

/-- The debit of the test, whose accounts call then fails. -/
def accountsUnavailable : List Label :=
  [.request 0
      { contextTenantId := some 42, tenantId := "42", investigationId := "INV-900",
        tier := .standard },
    .fail 0 (.refused (.serviceUnavailable
      "TigerBeetle is unavailable; the ledger operation was not finalized"))]

theorem accountsUnavailable_not_lawful :
    ¬ Always (recordDebit (List.take 32)) (Lawful (List.take 32)) start accountsUnavailable := by
  intro halways
  have hclaimed : ∃ s, recordDebit (List.take 32) start (.request 0
      { contextTenantId := some 42, tenantId := "42", investigationId := "INV-900",
        tier := .standard }) = some s ∧ ∃ id, (s.calls 0).held = some id :=
    ⟨_, rfl, _, rfl⟩
  obtain ⟨s, hstep, id, hheld⟩ := hclaimed
  have hinv : Inv (List.take 32) s := inv_step (inv_start _) hstep
  obtain ⟨input, transfer, stage, hcall, _⟩ := held_eq_some_iff.mp hheld
  have hfail : recordDebit (List.take 32) s (.fail 0 (.refused (.serviceUnavailable
      "TigerBeetle is unavailable; the ledger operation was not finalized"))) =
        some (s.setCall 0 (.finished (.refused (.serviceUnavailable
          "TigerBeetle is unavailable; the ledger operation was not finalized")))) := by
    simp only [recordDebit, hcall]
  have hlawful := ((halways.2 s hstep).2 _ hfail).start
  exact hinv.wedged hheld _ ((lawful_iff (inv_step hinv hfail)).mp hlawful)

end Bis.TigerBeetle.DebitClaim
