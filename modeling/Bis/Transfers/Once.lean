import Bis.Transfers.Request

/-!
When the gateway is asked once. A transfer leaves no row, since its type is none of the
enumeration; so the check finds what other procedures have stored, of any tenant, and no
transfer. What is left is that no two requests with a reference get past the check.
-/

namespace Bis.Transfers

open Bis.Relation Bis.Transition List

variable {s t : System}

/-! ### What is promised -/

/-- The gateway is asked at most once for a reference, and so is the bridge. -/
def AskedOnce (s : System) : Prop :=
  (s.asks.map Ask.txRef).Nodup ∧ ((s.asks.filter Ask.bridged).map Ask.txRef).Nodup

/-- No request gets the transfer of another tenant. -/
def OwnTransfers (s : System) : Prop :=
  ∀ request ∈ s.requests, ∀ row reply, request.stage = .repeated row reply →
    row.tenantId = request.tenantId

/-! ### When it is kept -/

/-- A row that is found is the tenant's own; and where none is found, no other request
with the reference has asked the gateway or is about to. -/
def ChecksAlone (s : System) : Label → Prop
  | .act id .check =>
    ∀ request ∈ s.requests, request.id = id →
      match s.rows.find? fun row => row.txRef == request.input.txRef with
      | some row => row.tenantId = request.tenantId
      | none =>
        (∀ ask ∈ s.asks, ask.txRef ≠ request.input.txRef) ∧
          ∀ other ∈ s.requests, other.stage = .asking →
            other.input.txRef ≠ request.input.txRef
  | _ => True

instance (s : System) : DecidablePred (ChecksAlone s) := by
  intro a
  have hcheck (request : Request) : Decidable
      (match s.rows.find? fun row => row.txRef == request.input.txRef with
      | some row => row.tenantId = request.tenantId
      | none =>
        (∀ ask ∈ s.asks, ask.txRef ≠ request.input.txRef) ∧
          ∀ other ∈ s.requests, other.stage = .asking →
            other.input.txRef ≠ request.input.txRef) := by
    split <;> infer_instance
  unfold ChecksAlone
  split <;> infer_instance

/-! ### No transfer is stored -/

/-- The type of a transfer is none of the enumeration. -/
theorem insert_transfer (user : Nat) (input : TransferInput) (result : TransferResult)
    (rows : List Transaction) : insert (transferRow user input result) rows = none := by
  have htype : transactionTypes.contains (transferRow user input result).type = false := by
    change transactionTypes.contains "stablecoin" = false
    decide
  have hfits : (transferRow user input result).fits = false := by
    unfold Transaction.fits
    rw [htype]
    rfl
  unfold insert
  rw [if_neg (by simp [hfits])]

/-! ### The invariant -/

structure Sound (s : System) : Prop where
  requestIds : (s.requests.map Request.id).Nodup
  asks : (s.asks.map Ask.txRef).Nodup
  /-- Whoever is about to ask is the only one with the reference. -/
  asking : ∀ p ∈ s.requests, p.stage = .asking → (∀ ask ∈ s.asks, ask.txRef ≠ p.input.txRef) ∧
    ∀ q ∈ s.requests, q.stage = .asking → q.input.txRef = p.input.txRef → q.id = p.id
  own : OwnTransfers s

theorem Sound.askedOnce (h : Sound s) : AskedOnce s :=
  ⟨h.asks, h.asks.sublist (filter_sublist.map _)⟩

variable {request : Request}

/-- A request comes to another stage, in which it is not about to ask. -/
theorem Sound.goOn (h : Sound s) {stage : Stage} (hstage : stage ≠ .asking)
    (hown : ∀ row reply, stage = .repeated row reply → row.tenantId = request.tenantId) :
    Sound (s.goOn request stage) := by
  have hmem {p : Request} (hp : p ∈ (s.goOn request stage).requests) :
      p = { request with stage } ∨ p ∈ s.requests :=
    (mem_upsert hp)
  have hold {p : Request} (hp : p ∈ (s.goOn request stage).requests) (hasking : p.stage = .asking) :
      p ∈ s.requests := by
    rcases hmem hp with rfl | hp
    · exact absurd hasking hstage
    · exact hp
  refine ⟨nodup_upsert h.requestIds, h.asks, ?_, ?_⟩
  · intro p hp hasking
    obtain ⟨hasks, honly⟩ := h.asking p (hold hp hasking) hasking
    exact ⟨hasks, fun q hq hq' => honly q (hold hq hq') hq'⟩
  · intro p hp row reply hrow
    rcases hmem hp with rfl | hp
    · exact hown row reply hrow
    · exact h.own p hp row reply hrow

/-- A request that has found no row is about to ask. -/
theorem Sound.asks_next (h : Sound s) (hasks : ∀ ask ∈ s.asks, ask.txRef ≠ request.input.txRef)
    (halone : ∀ other ∈ s.requests, other.stage = .asking → other.input.txRef ≠
    request.input.txRef) : Sound (s.goOn request .asking) := by
  have hmem {p : Request} (hp : p ∈ (s.goOn request .asking).requests) :
      p = { request with stage := .asking } ∨ p ∈ s.requests :=
    (mem_upsert hp)
  refine ⟨nodup_upsert h.requestIds, h.asks, ?_, ?_⟩
  · intro p hp hasking
    rcases hmem hp with rfl | hp
    · refine ⟨hasks, ?_⟩
      intro q hq hq' hsame
      rcases hmem hq with rfl | hq
      · rfl
      · exact absurd hsame (halone q hq hq')
    · obtain ⟨hnone, honly⟩ := h.asking p hp hasking
      refine ⟨hnone, ?_⟩
      intro q hq hq' hsame
      rcases hmem hq with rfl | hq
      · exact absurd hsame.symm (halone p hp hasking)
      · exact honly q hq hq' hsame
  · intro p hp row reply hrow
    rcases hmem hp with rfl | hp
    · cases hrow
    · exact h.own p hp row reply hrow

theorem Sound.ask (h : Sound s) (hrequest : request ∈ s.requests) (hstage : request.stage =
    .asking) :
    Sound { s.goOn request .waiting with asks := s.asks ++ [⟨request.id, request.input, false⟩] } := by
  have hnext : Sound (s.goOn request .waiting) :=
    h.goOn (by simp) fun _ _ hrow => by cases hrow
  obtain ⟨hnone, honly⟩ := h.asking request hrequest hstage
  refine ⟨hnext.requestIds, ?_, ?_, hnext.own⟩
  · rw [map_append]
    refine nodup_append_fresh h.asks ?_
    intro hmem
    obtain ⟨ask, hask, hsame⟩ := mem_map.mp hmem
    exact hnone ask hask hsame
  · intro p hp hasking
    obtain ⟨hasks, honly'⟩ := hnext.asking p hp hasking
    refine ⟨?_, honly'⟩
    intro ask hask hsame
    rcases mem_concat.mp hask with hask | rfl
    · exact hasks ask hask hsame
    · -- The other one that is about to ask is the request itself, which is not any more.
      rcases (mem_upsert_iff h.requestIds).mp hp with rfl | ⟨hp, hne⟩
      · cases hasking
      · exact hne (honly p hp hasking hsame.symm)

theorem Sound.act (h : Sound s) {id : Nat} {action : Action}
    (halone : ChecksAlone s (.act id action)) (hact : s.act id action = some t) : Sound t := by
  unfold System.act at hact
  obtain ⟨request, hlookup, hact⟩ := Option.bind_eq_some_iff.mp hact
  obtain ⟨hrequest, hid⟩ := (lookup_eq_some_iff h.requestIds).mp hlookup
  have hplain {stage : Stage} (hstage : stage ≠ .asking)
      (hnot : ∀ row reply, stage ≠ .repeated row reply) : Sound (s.goOn request stage) :=
    h.goOn hstage fun row reply hrow => absurd hrow (hnot row reply)
  have hfailed : Sound (s.goOn request .failed) := hplain (by simp) (by simp)
  cases action with
  | check =>
    have hcheck := halone request hrequest hid
    cases hstage : request.stage with
    | checking =>
      rw [hstage] at hact
      cases hfind : s.rows.find? fun row => row.txRef == request.input.txRef with
      | some row =>
        simp only [hfind] at hact hcheck
        cases hact
        refine h.goOn (by simp) ?_
        intro row' reply hrow
        obtain ⟨rfl, _⟩ := Stage.repeated.inj hrow
        exact hcheck
      | none =>
        simp only [hfind] at hact hcheck
        cases hact
        exact h.asks_next hcheck.1 hcheck.2
    | asking | waiting | answered | replied | repeated | failed =>
      rw [hstage] at hact
      simp at hact
  | ask =>
    cases hstage : request.stage with
    | asking =>
      rw [hstage] at hact
      cases hact
      exact h.ask hrequest hstage
    | checking | waiting | answered | replied | repeated | failed =>
      rw [hstage] at hact
      simp at hact
  | answer response =>
    cases hstage : request.stage with
    | waiting =>
      rw [hstage] at hact
      simp only at hact
      split at hact
      next =>
        split at hact
        next result _ =>
          cases hact
          exact hplain (by simp) (by simp)
        next =>
          cases hact
          exact hfailed
      next => cases hact
    | checking | asking | answered | replied | repeated | failed =>
      rw [hstage] at hact
      simp at hact
  | store =>
    cases hstage : request.stage with
    | answered result =>
      rw [hstage] at hact
      simp only [insert_transfer] at hact
      cases hact
      exact hfailed
    | checking | asking | waiting | replied | repeated | failed =>
      rw [hstage] at hact
      simp at hact
  | giveUp =>
    have ht : s.goOn request .failed = t := by
      cases hstage : request.stage <;> rw [hstage] at hact <;> exact Option.some.inj hact
    exact ht ▸ hfailed

theorem Sound.step {label : Label} (h : Sound s) (halone : ChecksAlone s label)
    (ht : s.step label = some t) : Sound t := by
  cases label with
  | transfer id tenantId user input =>
    simp only [System.step] at ht
    split at ht
    next => cases ht
    next hfresh =>
      cases ht
      have hold {p : Request}
          (hp : p ∈ s.requests ++ [⟨id, tenantId, user, input, .checking⟩])
          (hnot : p.stage ≠ .checking) : p ∈ s.requests := by
        rcases mem_concat.mp hp with hp | rfl
        · exact hp
        · exact absurd rfl hnot
      refine ⟨?_, h.asks, ?_, ?_⟩
      · rw [map_append]
        refine nodup_append_fresh h.requestIds ?_
        intro hmem
        obtain ⟨other, hother, hsame⟩ := mem_map.mp hmem
        refine hfresh ?_
        rw [Bool.or_eq_true, any_eq_true]
        exact .inr ⟨other, hother, beq_iff_eq.mpr hsame⟩
      · intro p hp hasking
        obtain ⟨hnone, honly⟩ := h.asking p (hold hp (by simp [hasking])) hasking
        exact ⟨hnone, fun q hq hq' => honly q (hold hq (by simp [hq'])) hq'⟩
      · intro p hp row reply hrow
        exact h.own p (hold hp (by simp [hrow])) row reply hrow
  | act id action => exact h.act halone ht
  | handle id =>
    simp only [System.step] at ht
    split at ht
    next =>
      cases ht
      have hrefs (q : Ask → Bool) : (updateWhere q (fun ask => { ask with bridged := true })
          s.asks).map Ask.txRef = s.asks.map Ask.txRef := by
        apply map_updateWhere
        exact fun _ => rfl
      refine ⟨h.requestIds, ?_, ?_, h.own⟩
      · simp only [hrefs]
        exact h.asks
      · intro p hp hasking
        obtain ⟨hnone, honly⟩ := h.asking p hp hasking
        refine ⟨?_, honly⟩
        intro ask hask hsame
        have hmem := mem_map_of_mem (f := Ask.txRef) hask
        rw [hrefs] at hmem
        obtain ⟨old, hold, hsame'⟩ := mem_map.mp hmem
        exact hnone old hold (hsame'.trans hsame)
    next => cases ht
  | recorded row =>
    simp only [System.step] at ht
    split at ht
    next => cases ht
    next =>
      cases ht
      exact ⟨h.requestIds, h.asks, h.asking, h.own⟩

theorem sound_empty (bridge : Bool) : Sound (.empty bridge) := by
  refine ⟨nodup_nil, nodup_nil, ?_, ?_⟩
  · intro p hp
    cases hp
  · intro p hp
    cases hp

/-! ### Runs -/

/-- In a run in which each check finds a row of the tenant or no other request with the
reference past it, the gateway is asked once, and no request gets what is another's. -/
theorem transfers_once (bridge : Bool) (labels : List Label)
    (halone : Meets System.step ChecksAlone (.empty bridge) labels) :
    Always System.step (fun s => AskedOnce s ∧ OwnTransfers s) (.empty bridge) labels := by
  refine (always_of_meets (fun s a t h halone ht => Sound.step h halone ht)
    (sound_empty bridge) halone).mono ?_
  exact fun s h => ⟨h.askedOnce, h.own⟩

/-! ### Requests with one reference -/

def usdc : TransferInput where
  txRef := "SC-2024-0001"
  fromAddress := "0x1111111111"
  toAddress := "0x2222222222"
  amountUnits := "1000000"
  currency := "USDC"
  network := "ethereum"
  narration := none

/-- A transfer that the bridge confirms; the row is refused, so the caller gets an error. -/
def transferRun (request : Nat) : List Label :=
  [.transfer request (some 1) 7 usdc, .act request .check, .act request .ask, .handle request,
   .act request (.answer (some ⟨some "0xabc", some "confirmed", none⟩)), .act request .store]

/-- What another procedure of a tenant has stored under the reference. -/
def otherRow (tenantId : Nat) : Transaction where
  txRef := "SC-2024-0001"
  tenantId := some tenantId
  type := "wire_transfer"
  status := "completed"
  amount := "5000"
  currency := "NGN"
  originatorAccount := "0123456789"
  originatorName := "Ada Obi"
  beneficiaryAccount := "9876543210"
  beneficiaryName := "Bola Ade"
  narration := ""
  tigerBeetleId := none

/-- One transfer, and a second request after a row of the tenant is there. -/
theorem oneTransfer_once :
    Always System.step (fun s => AskedOnce s ∧ OwnTransfers s) (.empty true)
      (transferRun 1 ++
        [.recorded (otherRow 1), .transfer 2 (some 1) 7 usdc, .act 2 .check]) :=
  transfers_once true _ (by decide +kernel)

/-- A retry asks the gateway again, since no row was stored. And a request gets the row of
another tenant with its reference. -/
theorem transfer_broken :
    (¬ ∀ bridge labels, Always System.step AskedOnce (.empty bridge) labels) ∧
      ¬ ∀ bridge labels, Always System.step OwnTransfers (.empty bridge) labels := by
  constructor
  · intro hall
    have hrun : (run System.step (.empty true) (transferRun 1 ++ transferRun 2)).map
        (fun s => s.asks.map Ask.txRef) = some ["SC-2024-0001", "SC-2024-0001"] := by
      decide +kernel
    obtain ⟨s, hs, hrefs⟩ := Option.map_eq_some_iff.mp hrun
    have honce := ((hall true _).finish hs).1
    rw [hrefs] at honce
    simp at honce
  · intro hall
    have hrun : (run System.step (.empty true)
        [.recorded (otherRow 2), .transfer 1 (some 1) 7 usdc, .act 1 .check]).map
        (fun s => s.requests.map fun request => (request.tenantId, request.stage)) =
        some [(some 1, .repeated (otherRow 2) (existingReply usdc (otherRow 2)))] := by
      decide
    obtain ⟨s, hs, hviews⟩ := Option.map_eq_some_iff.mp hrun
    obtain ⟨request, hrequests, hview⟩ := map_eq_singleton_iff.mp hviews
    obtain ⟨htenant, hstage⟩ := Prod.mk.inj hview
    have hown := (hall true _).finish hs request (by simp [hrequests]) _ _ hstage
    rw [htenant] at hown
    revert hown
    decide

end Bis.Transfers
