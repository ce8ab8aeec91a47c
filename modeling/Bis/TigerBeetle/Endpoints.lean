import Bis.TigerBeetle.Debit

/-!
The endpoints of the ledger service that take money from a tenant account.
`handle_debit` reads the balance and posts a transfer whose id is a hash of its
terms; `handle_mojaloop` and `handle_stablecoin` post at once, under a random id.
A call is a process; a retry is a new call with the same request, made when the
answer to the first was an error or never came.

A call that reads no balance is held to the one its account shows when it posts.
`postings` is read by no operation. Left out: what only the receiving side of a
transfer is told, and the ledger and code of the transfer.
-/

namespace Bis.TigerBeetle

open Bis.Number Bis.Transition List

structure ServiceIdentity where
  (tenantId actorId : Int)

structure MojaloopTransferRequest where
  tenantId : Int
  amountKobo : UInt64
  (currency transferRef : String)

structure StablecoinTransferRequest where
  tenantId : Int
  amount : UInt64
  (currency transferRef : String)

inductive Endpoint where
  | debit | mojaloop | stablecoin
  deriving DecidableEq

inductive EndpointRequest where
  | debit (request : DebitRequest)
  | mojaloop (request : MojaloopTransferRequest)
  | stablecoin (request : StablecoinTransferRequest)

/-- What a transfer is posted for at most once. -/
structure BusinessKey where
  endpoint : Endpoint
  tenantId : Int
  reference : String
  deriving DecidableEq

namespace EndpointRequest

def key : EndpointRequest → BusinessKey
  | .debit request => ⟨.debit, request.tenantId, request.investigationRef⟩
  | .mojaloop request => ⟨.mojaloop, request.tenantId, request.transferRef⟩
  | .stablecoin request => ⟨.stablecoin, request.tenantId, request.transferRef⟩

def amount : EndpointRequest → UInt64
  | .debit request => request.amountKobo
  | .mojaloop request => request.amountKobo
  | .stablecoin request => request.amount

def account (request : EndpointRequest) : String := tenantAccountId (toString request.key.tenantId)

/-- The transfer a request posts; `uuid` is what `Uuid::new_v4` draws. -/
def transfer (sha256 : List UInt8 → List UInt8) (uuid : String) (request : EndpointRequest) :
    Transfer :=
  match request with
  | .debit terms =>
    { id := deterministicTransferId sha256 "debit" terms.tenantId terms.currency
        terms.investigationRef terms.tier.toNat
      debitAccountId := request.account
      creditAccountId := accountRevenue
      amount := request.amount.toNat }
  | .mojaloop _ | .stablecoin _ =>
    { id := uuid
      debitAccountId := request.account
      creditAccountId := accountFloat
      amount := request.amount.toNat }

end EndpointRequest

inductive EndpointPhase where
  | idle
  | reading (request : DebitRequest)
  /-- `account` is what the call has read, where it reads the account. -/
  | posting (request : EndpointRequest) (transfer : Transfer) (account : Option TbAccount)
  | readingBack (transfer : Transfer)
  | over (reply : Except LedgerError String)

/-- What the request for a transfer comes to; a lost one may have been applied. -/
inductive TransferAnswer where
  | accepted | rejected
  | lost (applied : Bool)

def TransferAnswer.applied : TransferAnswer → Bool
  | .accepted => true
  | .rejected => false
  | .lost applied => applied

/-- A transfer the ledger has posted for a request, with the account whose balance
the amount is held to. -/
structure Posting where
  request : EndpointRequest
  transferId : String
  account : TbAccount

def Posting.key (posting : Posting) : BusinessKey := posting.request.key

structure LedgerEndpoints where
  ledger : Ledger
  calls : Nat → EndpointPhase
  postings : List Posting

namespace LedgerEndpoints

def initial : LedgerEndpoints :=
  { ledger := { account := fun _ => {}, posted := [] }
    calls := fun _ => .idle
    postings := [] }

def setCall (s : LedgerEndpoints) (call : Nat) (phase : EndpointPhase) : LedgerEndpoints :=
  { s with calls := Function.update s.calls call phase }

/-- The ledger takes the transfer of a call, and posts it when it is new. -/
def post (s : LedgerEndpoints) (request : EndpointRequest) (transfer : Transfer)
    (account : Option TbAccount) : LedgerEndpoints :=
  if transfer.id ∈ s.ledger.posted then s
  else
    { s with
      ledger := s.ledger.post transfer
      postings :=
        { request
          transferId := transfer.id
          account := account.getD (s.ledger.account request.account) } ::
          s.postings }

end LedgerEndpoints

/-- The phase after a transfer was accepted; only a debit reads the balance again. -/
def EndpointRequest.accepted (request : EndpointRequest) (transfer : Transfer) : EndpointPhase :=
  match request with
  | .debit _ => .readingBack transfer
  | .mojaloop _ | .stablecoin _ => .over (.ok transfer.id)

def TransferAnswer.next (request : EndpointRequest) (transfer : Transfer) :
    TransferAnswer → EndpointPhase
  | .accepted => request.accepted transfer
  | .rejected => .over (.error (.proxyError "TigerBeetle proxy rejected transfer creation"))
  | .lost _ => .over (.error (.proxyError "TigerBeetle mTLS transfer request failed"))

inductive EndpointAction where
  | submit (call : Nat) (identity : ServiceIdentity) (request : EndpointRequest) (uuid : String)
  | readAccount (call : Nat)
  | post (call : Nat) (answer : TransferAnswer)
  | readBack (call : Nat)
  /-- A read of the account fails, or the call dies. -/
  | fail (call : Nat) (error : LedgerError)
  | otherTransfer (transfer : Transfer)

def endpointStep (sha256 : List UInt8 → List UInt8) : Step LedgerEndpoints EndpointAction
  | s, .submit call identity request uuid =>
    match s.calls call with
    | .idle =>
      if request.key.tenantId ≠ identity.tenantId then
        some (s.setCall call (.over (.error (.forbidden "tenant mismatch"))))
      else
        match request with
        | .debit terms => some (s.setCall call (.reading terms))
        | .mojaloop _ | .stablecoin _ =>
          some (s.setCall call (.posting request (request.transfer sha256 uuid) none))
    | _ => none
  | s, .readAccount call =>
    match s.calls call with
    | .reading terms =>
      let request := EndpointRequest.debit terms
      let transfer := request.transfer sha256 ""
      let account := s.ledger.account request.account
      match validateAccountId request.account with
      | .error error => some (s.setCall call (.over (.error error)))
      | .ok () =>
        match Debit.check ⟨.executeDebit terms, transfer⟩ account with
        | .error error => some (s.setCall call (.over (.error error)))
        | .ok _ => some (s.setCall call (.posting request transfer (some account)))
    | _ => none
  | s, .post call answer =>
    match s.calls call with
    | .posting request transfer account =>
      let sent := if answer.applied then s.post request transfer account else s
      some (sent.setCall call (answer.next request transfer))
    | _ => none
  | s, .readBack call =>
    match s.calls call with
    | .readingBack transfer => some (s.setCall call (.over (.ok transfer.id)))
    | _ => none
  | s, .fail call error => some (s.setCall call (.over (.error error)))
  | s, .otherTransfer transfer => some { s with ledger := s.ledger.post transfer }

/-! ### What is posted -/

/-- One transfer for each endpoint, tenant and reference, and none beyond the
balance. -/
structure PostedSoundly (s : LedgerEndpoints) : Prop where
  once : (s.postings.map Posting.key).Nodup
  covered : ∀ posting ∈ s.postings, posting.request.amount.toNat ≤ posting.account.available

/-- The cast of a debit's amount to `i64` loses no more than the `i64` arithmetic of
the balance does. The other endpoints check nothing. -/
def EndpointRequest.Covered (account : TbAccount) (request : EndpointRequest) : Prop :=
  match request with
  | .debit terms => terms.amountKobo.toNat - wrapI64 terms.amountKobo.toNat ≤
      account.available - account.availableBalance
  | .mojaloop _ | .stablecoin _ => request.amount.toNat ≤ account.available

/-- A debit on the terms that the id of an earlier one is made of. -/
def EndpointRequest.Repeats : EndpointRequest → EndpointRequest → Prop
  | .debit terms, .debit earlier => terms.currency = earlier.currency ∧ terms.tier = earlier.tier
  | _, _ => False

/-- A new id is not drawn for an endpoint, tenant and reference with a transfer,
unless on the same terms, and what is posted under it is covered. -/
def KeepsTerms (s : LedgerEndpoints) : EndpointAction → Prop
  | .post call answer => ∀ request transfer account,
      s.calls call = .posting request transfer account → answer.applied →
        transfer.id ∉ s.ledger.posted →
          (∀ earlier ∈ s.postings, earlier.key = request.key → request.Repeats earlier.request) ∧
            request.Covered (account.getD (s.ledger.account request.account))
  | _ => True

section Steps

variable {sha256 : List UInt8 → List UInt8} {s t : LedgerEndpoints} {action : EndpointAction}

/-- A request about to be posted has its own transfer, and a debit has passed its
check. -/
def EndpointPhase.Passed (sha256 : List UInt8 → List UInt8) : EndpointPhase → Prop
  | .posting request transfer account =>
    (∃ uuid, transfer = request.transfer sha256 uuid) ∧
      match request with
      | .debit terms => ∃ seen, account = some seen ∧
          wrapI64 terms.amountKobo.toNat ≤ seen.availableBalance
      | .mojaloop _ | .stablecoin _ => True
  | .idle | .reading _ | .readingBack _ | .over _ => True

structure Passing (sha256 : List UInt8 → List UInt8) (s : LedgerEndpoints) : Prop where
  calls : ∀ call, (s.calls call).Passed sha256
  posted : ∀ posting ∈ s.postings, posting.transferId ∈ s.ledger.posted
  transfers : ∀ posting ∈ s.postings, ∃ uuid,
    posting.transferId = (posting.request.transfer sha256 uuid).id

theorem Passing.setCall (h : Passing sha256 s) (call : Nat) {phase : EndpointPhase}
    (hphase : phase.Passed sha256) : Passing sha256 (s.setCall call phase) := by
  refine ⟨?_, h.posted, h.transfers⟩
  intro other
  by_cases hother : other = call
  · subst hother
    simp only [LedgerEndpoints.setCall, Function.update_self]
    exact hphase
  · simp only [LedgerEndpoints.setCall, Function.update_of_ne hother]
    exact h.calls other

theorem passes_check {terms : DebitRequest} {transfer : Transfer} {account : TbAccount}
    {available : Int} (h : Debit.check ⟨.executeDebit terms, transfer⟩ account = .ok available) :
    wrapI64 terms.amountKobo.toNat ≤ account.availableBalance := by
  unfold Debit.check at h
  dsimp only at h
  split at h
  next => cases h
  next =>
    split at h
    next => cases h
    next hsufficient => exact Int.not_lt.mp hsufficient

theorem passed_next (request : EndpointRequest) (transfer : Transfer) (answer : TransferAnswer) :
    (answer.next request transfer).Passed sha256 := by
  cases answer with
  | accepted => cases request <;> trivial
  | rejected | lost => trivial

/-- What a step writes: a phase, new transfers of others, or a posting. -/
inductive EndpointMove (sha256 : List UInt8 → List UInt8) (s : LedgerEndpoints) :
    EndpointAction → LedgerEndpoints → Prop where
  | phase {action : EndpointAction} (call) {phase : EndpointPhase} (hphase : phase.Passed sha256)
      (hkeeps : KeepsTerms s action) : EndpointMove sha256 s action (s.setCall call phase)
  | posted {call answer request transfer account} {phase : EndpointPhase}
      (hposting : s.calls call = .posting request transfer account) (happlied : answer.applied)
      (hphase : phase.Passed sha256) :
      EndpointMove sha256 s (.post call answer)
        ((s.post request transfer account).setCall call phase)
  | otherTransfer (transfer) :
      EndpointMove sha256 s (.otherTransfer transfer) { s with ledger := s.ledger.post transfer }

theorem move_of_step (hstep : endpointStep sha256 s action = some t) :
    EndpointMove sha256 s action t := by
  cases action with
  | submit call identity request uuid =>
    simp only [endpointStep] at hstep
    split at hstep
    next =>
      split at hstep
      next =>
        cases hstep
        exact .phase call trivial trivial
      next =>
        cases request with
        | debit terms =>
          cases hstep
          exact .phase call trivial trivial
        | mojaloop | stablecoin =>
          cases hstep
          exact .phase call ⟨⟨uuid, rfl⟩, trivial⟩ trivial
    next => cases hstep
  | readAccount call =>
    simp only [endpointStep] at hstep
    split at hstep
    next terms _ =>
      split at hstep
      next =>
        cases hstep
        exact .phase call trivial trivial
      next =>
        split at hstep
        next =>
          cases hstep
          exact .phase call trivial trivial
        next available hcheck =>
          cases hstep
          exact .phase call ⟨⟨"", rfl⟩, _, rfl, passes_check hcheck⟩ trivial
    next => cases hstep
  | post call answer =>
    simp only [endpointStep] at hstep
    split at hstep
    next request transfer account hposting =>
      cases hstep
      have hphase : (answer.next request transfer).Passed sha256 :=
        passed_next request transfer answer
      cases happlied : answer.applied with
      | true => exact .posted hposting happlied hphase
      | false =>
        apply EndpointMove.phase call hphase
        intro _ _ _ _ happlied'
        rw [happlied] at happlied'
        cases happlied'
    next => cases hstep
  | readBack call =>
    simp only [endpointStep] at hstep
    split at hstep
    next =>
      cases hstep
      exact .phase call trivial trivial
    next => cases hstep
  | fail call error =>
    cases hstep
    exact .phase call trivial trivial
  | otherTransfer transfer =>
    cases hstep
    exact .otherTransfer transfer

variable {request : EndpointRequest} {account : Option TbAccount}

theorem post_of_new {transfer : Transfer} (hnew : transfer.id ∉ s.ledger.posted) :
    s.post request transfer account =
      { s with
        ledger := s.ledger.post transfer
        postings := ⟨request, transfer.id,
          account.getD (s.ledger.account request.account)⟩ :: s.postings } :=
  if_neg hnew

theorem Passing.post (h : Passing sha256 s) {uuid : String} (account : Option TbAccount) :
    Passing sha256 (s.post request (request.transfer sha256 uuid) account) := by
  by_cases hposted : (request.transfer sha256 uuid).id ∈ s.ledger.posted
  · have hsame : s.post request (request.transfer sha256 uuid) account = s := if_pos hposted
    rw [hsame]
    exact h
  · rw [post_of_new hposted]
    refine ⟨h.calls, ?_, ?_⟩
    · intro posting hposting
      rw [mem_posted_post]
      rcases mem_cons.mp hposting with rfl | hbefore
      · exact .inl rfl
      · exact .inr (h.posted posting hbefore)
    · intro posting hposting
      rcases mem_cons.mp hposting with rfl | hbefore
      · exact ⟨uuid, rfl⟩
      · exact h.transfers posting hbefore

theorem passing_step (h : Passing sha256 s) (hstep : endpointStep sha256 s action = some t) :
    Passing sha256 t := by
  cases move_of_step hstep with
  | phase call hphase hkeeps => exact h.setCall call hphase
  | @posted call _ request transfer account _ hposting happlied hphase =>
    have hpassed := h.calls call
    rw [hposting] at hpassed
    obtain ⟨⟨uuid, rfl⟩, _⟩ := hpassed
    exact (h.post account).setCall call hphase
  | otherTransfer transfer =>
    refine ⟨h.calls, ?_, h.transfers⟩
    intro posting hposting
    exact (mem_posted_post _ _ _).mpr (.inr (h.posted posting hposting))

/-- What the arithmetic of the balance loses is a multiple of `2 ^ 64`. -/
theorem availableBalance_spec (account : TbAccount) :
    FitsI64 account.availableBalance ∧
      ∃ k : Int, account.availableBalance = account.available + 2 ^ 64 * k := by
  refine ⟨(wrapI64_spec _).1, ?_⟩
  unfold TbAccount.availableBalance TbAccount.available
  obtain ⟨_, k₁, h₁⟩ := wrapI64_spec account.creditsPosted
  obtain ⟨_, k₂, h₂⟩ := wrapI64_spec account.debitsPosted
  obtain ⟨_, k₃, h₃⟩ := wrapI64_spec account.debitsPending
  obtain ⟨_, k₄, h₄⟩ := wrapI64_spec (wrapI64 account.creditsPosted - wrapI64 account.debitsPosted)
  obtain ⟨_, k₅, h₅⟩ := wrapI64_spec
    (wrapI64 (wrapI64 account.creditsPosted - wrapI64 account.debitsPosted) -
      wrapI64 account.debitsPending)
  exact ⟨k₁ - k₂ - k₃ + k₄ + k₅, by rw [h₅, h₄, h₁, h₂, h₃]; ring⟩

/-- A debit that has passed its check is covered unless more was lost of its amount
than of the balance; the others are held to the balance there is. -/
theorem covered_iff {transfer : Transfer} {other : TbAccount}
    (hpassed : (EndpointPhase.posting request transfer account).Passed sha256) :
    request.amount.toNat ≤ (account.getD other).available ↔
      request.Covered (account.getD other) := by
  cases request with
  | debit terms =>
    obtain ⟨_, seen, rfl, hcheck⟩ := hpassed
    obtain ⟨hfits, k, hbalance⟩ := availableBalance_spec seen
    obtain ⟨hfits', k', hamount⟩ := wrapI64_spec terms.amountKobo.toNat
    unfold EndpointRequest.Covered FitsI64 at *
    simp only [Option.getD_some, EndpointRequest.amount]
    constructor
    · intro hcovered
      omega
    · intro hlosses
      omega
  | mojaloop | stablecoin => exact Iff.rfl

/-- A repetition on the same terms has the id of the transfer that was posted. -/
theorem posted_of_repeats (h : Passing sha256 s) {earlier : Posting}
    (hearlier : earlier ∈ s.postings) (hkey : earlier.key = request.key)
    (hrepeats : request.Repeats earlier.request) (uuid : String) :
    (request.transfer sha256 uuid).id ∈ s.ledger.posted := by
  obtain ⟨uuid', hid⟩ := h.transfers earlier hearlier
  have hposted := h.posted earlier hearlier
  rw [hid] at hposted
  obtain ⟨earlierRequest, transferId, account⟩ := earlier
  cases request with
  | debit terms =>
    cases earlierRequest with
    | debit before =>
      obtain ⟨hcurrency, htier⟩ := hrepeats
      obtain ⟨htenant, hreference⟩ : before.tenantId = terms.tenantId ∧
          before.investigationRef = terms.investigationRef := by
        simpa [Posting.key, EndpointRequest.key] using hkey
      simpa [EndpointRequest.transfer, hcurrency, htier, htenant, hreference] using hposted
    | mojaloop | stablecoin => exact hrepeats.elim
  | mojaloop | stablecoin => exact hrepeats.elim

/-- Under a new id, no earlier transfer is on the same terms. -/
theorem first_iff (h : Passing sha256 s) {uuid : String}
    (hnew : (request.transfer sha256 uuid).id ∉ s.ledger.posted) :
    request.key ∉ s.postings.map Posting.key ↔
      ∀ earlier ∈ s.postings, earlier.key = request.key → request.Repeats earlier.request := by
  constructor
  · intro hfirst earlier hearlier hkey
    exact absurd (mem_map.mpr ⟨earlier, hearlier, hkey⟩) hfirst
  · intro hrepeats hmem
    obtain ⟨earlier, hearlier, hkey⟩ := mem_map.mp hmem
    exact hnew (posted_of_repeats h hearlier hkey (hrepeats earlier hearlier hkey) uuid)

/-- A posting under a new id keeps the law exactly when it is the first for its
key, and covered. -/
theorem postedSoundly_post_iff (h : PostedSoundly s) {transfer : Transfer}
    (hnew : transfer.id ∉ s.ledger.posted) :
    PostedSoundly (s.post request transfer account) ↔
      request.key ∉ s.postings.map Posting.key ∧ request.amount.toNat ≤
        (account.getD (s.ledger.account request.account)).available := by
  rw [post_of_new hnew]
  constructor
  · rintro ⟨honce, hcovered⟩
    exact ⟨(nodup_cons.mp honce).1, hcovered _ mem_cons_self⟩
  · rintro ⟨hfirst, hcovered⟩
    refine ⟨nodup_cons.mpr ⟨hfirst, h.once⟩, ?_⟩
    intro posting hposting
    rcases mem_cons.mp hposting with rfl | hbefore
    · exact hcovered
    · exact h.covered posting hbefore

theorem postedSoundly_step_iff (hpassing : Passing sha256 s) (h : PostedSoundly s)
    (hstep : endpointStep sha256 s action = some t) : PostedSoundly t ↔ KeepsTerms s action := by
  cases move_of_step hstep with
  | phase call hphase hkeeps => exact iff_of_true ⟨h.once, h.covered⟩ hkeeps
  | otherTransfer transfer => exact iff_of_true ⟨h.once, h.covered⟩ trivial
  | @posted call answer request transfer account phase hposting happlied hphase =>
    have hpassed := hpassing.calls call
    rw [hposting] at hpassed
    have hkeeps : KeepsTerms s (.post call answer) ↔ (transfer.id ∉ s.ledger.posted →
        (∀ earlier ∈ s.postings, earlier.key = request.key → request.Repeats earlier.request) ∧
          request.Covered (account.getD (s.ledger.account request.account))) := by
      constructor
      · intro hall
        exact hall request transfer account hposting happlied
      · intro hthis request' transfer' account' hposting' _
        rw [hposting] at hposting'
        obtain ⟨rfl, rfl, rfl⟩ := EndpointPhase.posting.inj hposting'
        exact hthis
    have hphases : PostedSoundly ((s.post request transfer account).setCall call phase) ↔
        PostedSoundly (s.post request transfer account) :=
      ⟨fun hafter => ⟨hafter.once, hafter.covered⟩, fun hafter => ⟨hafter.once, hafter.covered⟩⟩
    rw [hkeeps, hphases]
    by_cases hposted : transfer.id ∈ s.ledger.posted
    · have hsame : s.post request transfer account = s := if_pos hposted
      rw [hsame]
      exact iff_of_true h fun hnew => absurd hposted hnew
    · rw [postedSoundly_post_iff h hposted, covered_iff hpassed]
      obtain ⟨⟨uuid, rfl⟩, _⟩ := hpassed
      rw [first_iff hpassing hposted]
      exact ⟨fun hsound _ => hsound, fun hsound => hsound hposted⟩

end Steps

/-- The law holds along a run exactly where every transfer under a new id is
covered, and on the terms of those posted before for its endpoint, tenant and
reference. -/
theorem posted_soundly_iff (sha256 : List UInt8 → List UInt8) (labels : List EndpointAction) :
    Always (endpointStep sha256) PostedSoundly .initial labels ↔
      Meets (endpointStep sha256) KeepsTerms .initial labels := by
  apply always_iff_meets labels fun _ _ _ hs hstep => passing_step hs hstep
  · intro s a t hs hsound hstep
    exact postedSoundly_step_iff hs hsound hstep
  · refine ⟨fun call => trivial, ?_, ?_⟩
    · intro posting hposting
      cases hposting
    · intro posting hposting
      cases hposting
  · refine ⟨nodup_nil, ?_⟩
    intro posting hposting
    cases hposting

/-- The answer to a Mojaloop transfer is lost, and the retry draws a new id. -/
theorem retried_mojaloop_posts_twice :
    ¬ ∀ (sha256 : List UInt8 → List UInt8) (labels : List EndpointAction),
      Always (endpointStep sha256) PostedSoundly .initial labels := by
  intro h
  let request : EndpointRequest := .mojaloop ⟨7, 60000, "NGN", "MOJ-2024-0001"⟩
  let labels : List EndpointAction :=
    [.otherTransfer ⟨"topup", accountFloat, "100007", 100000⟩,
      .submit 0 ⟨7, 9⟩ request "3f0e8a52-1c7d-4e6b-9a34-0d5b7c1e2f68", .post 0 (.lost true),
      .submit 1 ⟨7, 9⟩ request "c41d96b7-58a2-4f03-8e7c-6b2a9f0d3e15", .post 1 .accepted]
  have hrun : (run (endpointStep fun _ => []) .initial labels).map
      (fun s => s.postings.map Posting.key) =
        some [⟨.mojaloop, 7, "MOJ-2024-0001"⟩, ⟨.mojaloop, 7, "MOJ-2024-0001"⟩] := by
    decide
  obtain ⟨s, hs, hkeys⟩ := Option.map_eq_some_iff.mp hrun
  have honce := ((h _ labels).finish hs).once
  rw [hkeys] at honce
  exact (nodup_cons.mp honce).1 mem_cons_self

end Bis.TigerBeetle
