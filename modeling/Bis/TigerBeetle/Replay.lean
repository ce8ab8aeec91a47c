import Bis.TigerBeetle.ServiceAuth

/-!
What the door of the ledger service lets through. The primary key of the nonce
table keeps a nonce from passing twice for as long as its row is there, and the
window of the timestamp is meant to take over where the row is removed. The
canonical request has no escapes, but only its path could contain a separator,
and the fields on both sides of it are read back from the two ends.
-/

namespace Bis.TigerBeetle

open Bis.Encoding Bis.Number Bis.Relation Bis.Transition List Option

/-! ### The canonical request -/

/-- The fields next to the path contain no separator. -/
structure Delimited (request : CheckedRequest) : Prop where
  method : '\n' ∉ request.method.toList
  keyId : '\n' ∉ request.keyId.toList
  nonce : '\n' ∉ request.nonce.toList

/-- The fields behind the path. -/
def CheckedRequest.fields (request : CheckedRequest) : List (List Char) :=
  [request.keyId.toList, (toString request.tenantId).toList, (toString request.actorId).toList,
    (toString request.timestamp).toList, request.nonce.toList, (hexEncode request.bodyHash).toList]

theorem toList_canonicalText (request : CheckedRequest) :
    request.canonicalText.toList =
      ("BIS-LEDGER-HMAC-V2\n".toList ++
        (request.method.toList ++ '\n' :: request.canonicalPath.toList)) ++
        separated '\n' request.fields := by
  have hnewline : "\n".toList = ['\n'] := rfl
  unfold CheckedRequest.canonicalText
  generalize "BIS-LEDGER-HMAC-V2\n" = domain
  simp only [String.toList_append, hnewline, CheckedRequest.fields, separated, flatMap_cons,
    flatMap_nil, append_nil, append_assoc, cons_append, nil_append]

theorem Delimited.fields {request : CheckedRequest} (h : Delimited request) :
    ∀ field ∈ request.fields, '\n' ∉ field := by
  intro field hfield
  simp only [CheckedRequest.fields, mem_cons, not_mem_nil, or_false] at hfield
  rcases hfield with rfl | rfl | rfl | rfl | rfl | rfl
  · exact h.keyId
  · exact newline_not_mem_toString_int _
  · exact newline_not_mem_toString_int _
  · exact newline_not_mem_toString_int _
  · exact h.nonce
  · exact newline_not_mem_hexEncode _

/-- The signed bytes determine what a request is dispatched with. -/
theorem canonicalRequest_injective {request request' : CheckedRequest} (h : Delimited request)
    (h' : Delimited request') (hsame : canonicalRequest request = canonicalRequest request') :
    request = request' := by
  have htexts := congrArg String.toList (utf8_injective hsame)
  rw [toList_canonicalText, toList_canonicalText] at htexts
  have hlength : request.fields.length = request'.fields.length := rfl
  obtain ⟨hhead, hfields⟩ := append_separated hlength h.fields h'.fields htexts
  obtain ⟨hmethod, hpath⟩ :=
    append_separator_left h.method h'.method (append_cancel_left hhead)
  simp only [CheckedRequest.fields, List.cons.injEq, and_true] at hfields
  obtain ⟨hkeyId, htenant, hactor, htimestamp, hnonce, hbody⟩ := hfields
  cases request
  cases request'
  simp only [CheckedRequest.mk.injEq]
  exact ⟨String.toList_inj.mp hmethod, String.toList_inj.mp hpath, String.toList_inj.mp hkeyId,
    toString_int_injective (String.toList_inj.mp htenant),
    toString_int_injective (String.toList_inj.mp hactor),
    toString_int_injective (String.toList_inj.mp htimestamp), String.toList_inj.mp hnonce,
    hexEncode_injective (String.toList_inj.mp hbody)⟩

/-! ### Headers -/

theorem newline_not_mem_headerText {value : List UInt8} {text : List Char}
    (h : headerText value = some text) : '\n' ∉ text := by
  unfold headerText at h
  split at h
  next hall =>
    cases h
    intro hmem
    obtain ⟨b, hb, hchar⟩ := mem_map.mp hmem
    have hvisible := all_eq_true.mp hall b hb
    have hcode : b.toNat = 10 := congrArg Char.toNat hchar
    obtain rfl : b = 10 := UInt8.toNat_inj.mp hcode
    exact absurd hvisible (by decide)
  next => cases h

theorem mem_of_mem_trim {text : List Char} {c : Char} (h : c ∈ trim text) : c ∈ text := by
  unfold trim at h
  have hfront := (dropWhile_sublist _).subset (mem_reverse.mp h)
  exact (dropWhile_sublist _).subset (mem_reverse.mp hfront)

theorem newline_not_mem_requiredHeader {headers : String → Option (List UInt8)}
    {name value : String} {maxLength : Nat}
    (h : requiredHeader headers name maxLength = some value) : '\n' ∉ value.toList := by
  unfold requiredHeader at h
  obtain ⟨bytes, _, h⟩ := bind_eq_some_iff.mp h
  obtain ⟨text, htext, h⟩ := bind_eq_some_iff.mp h
  dsimp only at h
  split at h
  next => cases h
  next =>
    cases h
    rw [String.toList_ofList]
    exact fun hmem => newline_not_mem_headerText htext (mem_of_mem_trim hmem)

theorem orElse_ok {α : Type} {error : AuthError} {value : Option α} {a : α}
    (h : orElse error value = .ok a) : value = some a := by
  cases value with
  | none => cases h
  | some b => exact congrArg some (Except.ok.inj h)

/-- What the header checks establish. -/
structure Screened (clock : Int) (request : CheckedRequest) : Prop where
  keyId : '\n' ∉ request.keyId.toList
  nonce : '\n' ∉ request.nonce.toList
  current : timestampIsCurrent clock request.timestamp

variable {sha256 : List UInt8 → List UInt8}

theorem screened_of_authenticate {hmac : List UInt8 → List UInt8 → List UInt8}
    {credentials : LedgerCredentials} {clock : Int} {request : LedgerHttpRequest}
    {checked : CheckedRequest}
    (h : authenticate sha256 hmac credentials clock request = .ok checked) :
    Screened clock checked := by
  unfold authenticate at h
  obtain ⟨_, _, h⟩ := except_bind_ok h
  obtain ⟨_, _, h⟩ := except_bind_ok h
  obtain ⟨keyId, hkeyId, h⟩ := except_bind_ok h
  obtain ⟨nonce, hnonce, h⟩ := except_bind_ok h
  obtain ⟨tenantId, _, h⟩ := except_bind_ok h
  obtain ⟨actorId, _, h⟩ := except_bind_ok h
  obtain ⟨timestamp, htimestamp, h⟩ := except_bind_ok h
  obtain ⟨signature, _, h⟩ := except_bind_ok h
  obtain ⟨_, _, h⟩ := except_bind_ok h
  obtain ⟨_, _, h⟩ := except_bind_ok h
  cases h
  obtain ⟨hkeyId, _⟩ := Option.filter_eq_some_iff.mp (orElse_ok hkeyId)
  obtain ⟨hnonce, _⟩ := Option.filter_eq_some_iff.mp (orElse_ok hnonce)
  obtain ⟨_, hcurrent⟩ := Option.filter_eq_some_iff.mp (orElse_ok htimestamp)
  exact ⟨newline_not_mem_requiredHeader hkeyId, newline_not_mem_requiredHeader hnonce, hcurrent⟩

/-! ### The window of the timestamp -/

/-- The subtraction and the absolute value wrap: besides the two minutes on both
sides, the most negative difference passes. -/
theorem timestampIsCurrent_iff (clock timestamp : Int) :
    timestampIsCurrent clock timestamp ↔
      (wrapI64 (nowSeconds clock - timestamp)).natAbs ≤ 120 ∨
        wrapI64 (nowSeconds clock - timestamp) = -2 ^ 63 := by
  obtain ⟨⟨hlow, hhigh⟩, _⟩ := wrapI64_spec (nowSeconds clock - timestamp)
  unfold timestampIsCurrent absI64 maxLedgerClockSkewSeconds
  generalize wrapI64 (nowSeconds clock - timestamp) = difference at hlow hhigh ⊢
  rw [decide_eq_true_iff]
  by_cases hlowest : difference = -2 ^ 63
  · subst hlowest
    simp [wrapI64]
  · have hfits : FitsI64 difference.natAbs := by
      unfold FitsI64
      omega
    rw [wrapI64_of_fits hfits]
    omega

/-- Two readings of the clock that one timestamp is current at. -/
theorem clocks_of_current {clock clock' timestamp : Int} (h : timestampIsCurrent clock timestamp)
    (h' : timestampIsCurrent clock' timestamp) :
    (nowSeconds clock - nowSeconds clock').natAbs ≤ 240 ∨
      2 ^ 63 - 120 ≤ (nowSeconds clock - nowSeconds clock').natAbs := by
  rw [timestampIsCurrent_iff] at h h'
  obtain ⟨_, k, hk⟩ := wrapI64_spec (nowSeconds clock - timestamp)
  obtain ⟨_, k', hk'⟩ := wrapI64_spec (nowSeconds clock' - timestamp)
  rw [hk] at h
  rw [hk'] at h'
  omega

/-! ### What every run keeps -/

section Steps

variable {sha256 : List UInt8 → List UInt8} {hmac : List UInt8 → List UInt8 → List UInt8}
  {s t : LedgerDoor}

/-- The row a dispatched request has reserved. -/
def Dispatched.row (sha256 : List UInt8 → List UInt8) (d : Dispatched) : NonceRow :=
  nonceRow sha256 d.request d.reservedAt

/-- The row was removed when its time was over, and the other request reserved
its own no earlier. -/
def Outlived (sha256 : List UInt8 → List UInt8) (s : LedgerDoor) (d d' : Dispatched) : Prop :=
  d.row sha256 ∈ s.purged ∧ d.reservedAt + nonceRetentionMs ≤ d'.reservedAt

/-- Requests with one key and nonce have one of their rows removed in between. -/
def Apart (sha256 : List UInt8 → List UInt8) (s : LedgerDoor) (d d' : Dispatched) : Prop :=
  d.request.keyId = d'.request.keyId → d.request.nonce = d'.request.nonce →
    Outlived sha256 s d d' ∨ Outlived sha256 s d' d

/-- The request waits for its handler. -/
def Waiting (s : LedgerDoor) (call : Nat) (d : Dispatched) : Prop :=
  s.calls call = .dispatching d.request d.clock d.reservedAt

/-- The request has its nonce reserved. -/
def Admitted (s : LedgerDoor) (d : Dispatched) : Prop :=
  d ∈ s.dispatched ∨ ∃ call, Waiting s call d

structure Guarded (sha256 : List UInt8 → List UInt8) (s : LedgerDoor) : Prop where
  checking : ∀ call request clock, s.calls call = .reserving request clock → Screened clock request
  checked : ∀ d, Admitted s d → Screened d.clock d.request
  method : ∀ d, Admitted s d → d.request.method = "POST" ∨ d.request.method = "GET"
  reserved : ∀ d, Admitted s d → d.row sha256 ∈ s.nonces ∨
    (d.row sha256 ∈ s.purged ∧ d.reservedAt + nonceRetentionMs ≤ s.databaseClock)
  waiting : ∀ call call' d d', call ≠ call' → Waiting s call d → Waiting s call' d' →
    Apart sha256 s d d'
  handed : ∀ call d, Waiting s call d → ∀ d' ∈ s.dispatched, Apart sha256 s d d'
  once : s.dispatched.Pairwise (Apart sha256 s)

variable {d : Dispatched} {phase : AuthPhase}

theorem Apart.symm {d' : Dispatched} (h : Apart sha256 s d d') : Apart sha256 s d' d :=
  fun hkeyId hnonce => (h hkeyId.symm hnonce.symm).symm

theorem Apart.mono {d' : Dispatched} (h : Apart sha256 s d d')
    (hpurged : ∀ row ∈ s.purged, row ∈ t.purged) : Apart sha256 t d d' := by
  intro hkeyId hnonce
  rcases h hkeyId hnonce with ⟨hrow, htime⟩ | ⟨hrow, htime⟩
  · exact .inl ⟨hpurged _ hrow, htime⟩
  · exact .inr ⟨hpurged _ hrow, htime⟩

/-- The table and the clock move on, and rows only leave for the record of
removed ones. -/
theorem Guarded.moved (h : Guarded sha256 s) (hcalls : t.calls = s.calls)
    (hdispatched : t.dispatched = s.dispatched) (hpurged : ∀ row ∈ s.purged, row ∈ t.purged)
    (hclock : s.databaseClock ≤ t.databaseClock)
    (hnonces : ∀ row ∈ s.nonces, row ∈ t.nonces ∨
      (row ∈ t.purged ∧ row.expiresAt ≤ t.databaseClock)) : Guarded sha256 t := by
  have hwaiting : ∀ call d, Waiting t call d ↔ Waiting s call d := by
    intro call d
    unfold Waiting
    rw [hcalls]
  have hadmitted : ∀ d, Admitted t d ↔ Admitted s d := by
    intro d
    unfold Admitted
    simp only [hdispatched, hwaiting]
  constructor
  · rw [hcalls]
    exact h.checking
  · intro d hd
    exact h.checked d ((hadmitted d).mp hd)
  · intro d hd
    exact h.method d ((hadmitted d).mp hd)
  · intro d hd
    rcases h.reserved d ((hadmitted d).mp hd) with hrow | ⟨hrow, htime⟩
    · exact hnonces _ hrow
    · exact .inr ⟨hpurged _ hrow, htime.trans hclock⟩
  · intro call call' d d' hne hd hd'
    exact (h.waiting call call' d d' hne ((hwaiting _ _).mp hd) ((hwaiting _ _).mp hd')).mono hpurged
  · intro call d hd d' hd'
    exact (h.handed call d ((hwaiting _ _).mp hd) d' (hdispatched ▸ hd')).mono hpurged
  · rw [hdispatched]
    exact h.once.imp fun hapart => hapart.mono hpurged

theorem waiting_setCall {call other : Nat} (h : Waiting (s.setCall call phase) other d) :
    (other = call ∧ phase = .dispatching d.request d.clock d.reservedAt) ∨
      (other ≠ call ∧ Waiting s other d) := by
  unfold Waiting LedgerDoor.setCall at h
  by_cases hother : other = call
  · subst hother
    simp only [Function.update_self] at h
    exact .inl ⟨rfl, h⟩
  · simp only [Function.update_of_ne hother] at h
    exact .inr ⟨hother, h⟩

theorem screened_setCall {call : Nat}
    (h : ∀ other request clock, s.calls other = .reserving request clock → Screened clock request)
    (hphase : ∀ request clock, phase = .reserving request clock → Screened clock request) :
    ∀ other request clock, (s.setCall call phase).calls other = .reserving request clock →
      Screened clock request := by
  intro other request clock hreserving
  by_cases hother : other = call
  · subst hother
    simp only [LedgerDoor.setCall, Function.update_self] at hreserving
    exact hphase request clock hreserving
  · simp only [LedgerDoor.setCall, Function.update_of_ne hother] at hreserving
    exact h other request clock hreserving

/-- A call that is not about to be dispatched. -/
theorem Guarded.setCall (h : Guarded sha256 s) (call : Nat)
    (hphase : ∀ request clock reservedAt, phase ≠ .dispatching request clock reservedAt)
    (hchecking : ∀ request clock, phase = .reserving request clock → Screened clock request) :
    Guarded sha256 (s.setCall call phase) := by
  have hwaiting : ∀ other d, Waiting (s.setCall call phase) other d → Waiting s other d := by
    intro other d hd
    rcases waiting_setCall hd with ⟨_, hdispatching⟩ | ⟨_, hbefore⟩
    · exact absurd hdispatching (hphase _ _ _)
    · exact hbefore
  have hadmitted : ∀ d, Admitted (s.setCall call phase) d → Admitted s d := by
    rintro d (hd | ⟨other, hd⟩)
    · exact .inl hd
    · exact .inr ⟨other, hwaiting other d hd⟩
  constructor
  · exact screened_setCall h.checking hchecking
  · exact fun d hd => h.checked d (hadmitted d hd)
  · exact fun d hd => h.method d (hadmitted d hd)
  · exact fun d hd => h.reserved d (hadmitted d hd)
  · intro other other' d d' hne hd hd'
    exact h.waiting other other' d d' hne (hwaiting _ _ hd) (hwaiting _ _ hd')
  · exact fun other d hd => h.handed other d (hwaiting _ _ hd)
  · exact h.once

theorem reserve_ok {rows rows' : List NonceRow} {row : NonceRow}
    (h : reserve rows row = some (some rows')) :
    row.admissible ∧ (∀ other ∈ rows, other.key ≠ row.key) ∧ rows' = rows ++ [row] := by
  unfold reserve at h
  split at h
  next => cases h
  next hadmissible =>
    split at h
    next => cases h
    next hclash =>
      refine ⟨by simpa using hadmissible, ?_, (some.inj (some.inj h)).symm⟩
      intro other hother hkey
      apply hclash
      exact any_eq_true.mpr ⟨other, hother, beq_iff_eq.mpr hkey⟩

/-- A reservation finds no row with its key: what has reserved the nonce before
has outlived its row. -/
theorem apart_of_reserve (h : Guarded sha256 s) {d d' : Dispatched} (hd : Admitted s d)
    (hnow : d'.reservedAt = s.databaseClock)
    (hfree : ∀ other ∈ s.nonces, other.key ≠ (d'.row sha256).key) : Apart sha256 s d d' := by
  intro hkeyId hnonce
  have hkey : (d.row sha256).key = (d'.row sha256).key := by
    simp only [Dispatched.row, nonceRow, NonceRow.key, hkeyId, hnonce]
  rcases h.reserved d hd with hrow | ⟨hrow, htime⟩
  · exact absurd hkey (hfree _ hrow)
  · exact .inl ⟨hrow, hnow ▸ htime⟩

/-- A request is admitted that keeps its distance from those before it. -/
theorem Guarded.admit (h : Guarded sha256 s) (call : Nat) (hchecked : Screened d.clock d.request)
    (hmethod : d.request.method = "POST" ∨ d.request.method = "GET")
    (hrow : d.row sha256 ∈ s.nonces) (hapart : ∀ d', Admitted s d' → Apart sha256 s d' d) :
    Guarded sha256 (s.setCall call (.dispatching d.request d.clock d.reservedAt)) := by
  have hwaiting : ∀ other d',
      Waiting (s.setCall call (.dispatching d.request d.clock d.reservedAt)) other d' →
        (other = call ∧ d' = d) ∨ (other ≠ call ∧ Waiting s other d') := by
    intro other d' hd'
    rcases waiting_setCall hd' with ⟨hsame, hdispatching⟩ | hbefore
    · obtain ⟨hrequest, hclock, htime⟩ := AuthPhase.dispatching.inj hdispatching
      left
      refine ⟨hsame, ?_⟩
      cases d
      cases d'
      simp only at hrequest hclock htime
      rw [hrequest, hclock, htime]
    · exact .inr hbefore
  have hadmitted : ∀ d',
      Admitted (s.setCall call (.dispatching d.request d.clock d.reservedAt)) d' →
        d' = d ∨ Admitted s d' := by
    rintro d' (hd' | ⟨other, hd'⟩)
    · exact .inr (.inl hd')
    · rcases hwaiting other d' hd' with ⟨_, hsame⟩ | ⟨_, hbefore⟩
      · exact .inl hsame
      · exact .inr (.inr ⟨other, hbefore⟩)
  constructor
  · exact screened_setCall h.checking fun _ _ => AuthPhase.noConfusion
  · intro d' hd'
    rcases hadmitted d' hd' with rfl | hbefore
    · exact hchecked
    · exact h.checked d' hbefore
  · intro d' hd'
    rcases hadmitted d' hd' with rfl | hbefore
    · exact hmethod
    · exact h.method d' hbefore
  · intro d' hd'
    rcases hadmitted d' hd' with rfl | hbefore
    · exact .inl hrow
    · exact h.reserved d' hbefore
  · intro other other' d₁ d₂ hne hd₁ hd₂
    rcases hwaiting other d₁ hd₁ with ⟨rfl, rfl⟩ | ⟨_, hbefore₁⟩
    · rcases hwaiting other' d₂ hd₂ with ⟨rfl, _⟩ | ⟨_, hbefore₂⟩
      · exact absurd rfl hne
      · exact (hapart d₂ (.inr ⟨other', hbefore₂⟩)).symm
    · rcases hwaiting other' d₂ hd₂ with ⟨rfl, rfl⟩ | ⟨_, hbefore₂⟩
      · exact hapart d₁ (.inr ⟨other, hbefore₁⟩)
      · exact h.waiting other other' d₁ d₂ hne hbefore₁ hbefore₂
  · intro other d₁ hd₁ d₂ hd₂
    rcases hwaiting other d₁ hd₁ with ⟨rfl, rfl⟩ | ⟨_, hbefore⟩
    · exact (hapart d₂ (.inl hd₂)).symm
    · exact h.handed other d₁ hbefore d₂ hd₂
  · exact h.once

theorem guarded_dispatch (h : Guarded sha256 s) {call : Nat} (hd : Waiting s call d) :
    Guarded sha256 ({ s with dispatched := d :: s.dispatched }.setCall call (.over none)) := by
  have hwaiting : ∀ other d',
      Waiting ({ s with dispatched := d :: s.dispatched }.setCall call (.over none)) other d' →
        other ≠ call ∧ Waiting s other d' := by
    intro other d' hd'
    rcases waiting_setCall hd' with ⟨_, hover⟩ | hbefore
    · cases hover
    · exact hbefore
  have hadmitted : ∀ d',
      Admitted ({ s with dispatched := d :: s.dispatched }.setCall call (.over none)) d' →
        Admitted s d' := by
    rintro d' (hd' | ⟨other, hd'⟩)
    · rcases mem_cons.mp hd' with rfl | hbefore
      · exact .inr ⟨call, hd⟩
      · exact .inl hbefore
    · exact .inr ⟨other, (hwaiting other d' hd').2⟩
  constructor
  · exact screened_setCall h.checking fun _ _ => AuthPhase.noConfusion
  · exact fun d' hd' => h.checked d' (hadmitted d' hd')
  · exact fun d' hd' => h.method d' (hadmitted d' hd')
  · exact fun d' hd' => h.reserved d' (hadmitted d' hd')
  · intro other other' d₁ d₂ hne hd₁ hd₂
    exact h.waiting other other' d₁ d₂ hne (hwaiting _ _ hd₁).2 (hwaiting _ _ hd₂).2
  · intro other d₁ hd₁ d₂ hd₂
    obtain ⟨hother, hbefore⟩ := hwaiting other d₁ hd₁
    rcases mem_cons.mp hd₂ with rfl | hhanded
    · exact h.waiting other call d₁ d₂ hother hbefore hd
    · exact h.handed other d₁ hbefore d₂ hhanded
  · exact pairwise_cons.mpr ⟨h.handed call d hd, h.once⟩

/-- A longer table. -/
theorem Guarded.withNonces (h : Guarded sha256 s) {nonces : List NonceRow}
    (hnonces : ∀ row ∈ s.nonces, row ∈ nonces) : Guarded sha256 { s with nonces } :=
  h.moved rfl rfl (fun _ hrow => hrow) (Nat.le_refl _) fun row hrow => .inl (hnonces row hrow)

theorem guarded_purge (h : Guarded sha256 s) (key : String × List UInt8) :
    Guarded sha256 (s.purge key) := by
  refine h.moved (t := s.purge key) rfl rfl ?_ (Nat.le_refl _) ?_
  · exact fun row hrow => mem_append_right _ hrow
  · intro row hrow
    by_cases hexpired : row.key = key ∧ row.expiresAt ≤ s.databaseClock
    · right
      refine ⟨mem_append_left _ (mem_filter.mpr ⟨hrow, ?_⟩), hexpired.2⟩
      simpa using hexpired
    · left
      refine mem_filter.mpr ⟨hrow, ?_⟩
      simpa [imp_iff_not_or] using hexpired

theorem guarded_step {action : DoorAction} (h : Guarded sha256 s)
    (hstep : doorStep sha256 hmac s action = some t) : Guarded sha256 t := by
  cases action with
  | configure credentials =>
    cases hstep
    exact h.moved rfl rfl (fun _ hrow => hrow) (Nat.le_refl _) fun _ hrow => .inl hrow
  | authenticate call request clock =>
    simp only [doorStep] at hstep
    split at hstep
    · split at hstep
      next error _ =>
        cases hstep
        exact h.setCall call (fun _ _ _ => AuthPhase.noConfusion)
          fun _ _ => AuthPhase.noConfusion
      next checked hchecked =>
        cases hstep
        apply h.setCall call fun _ _ _ => AuthPhase.noConfusion
        intro request' clock' hsame
        obtain ⟨rfl, rfl⟩ := AuthPhase.reserving.inj hsame
        exact screened_of_authenticate hchecked
    · cases hstep
  | reserve call =>
    simp only [doorStep] at hstep
    split at hstep
    next checked clock hphase =>
      split at hstep
      next =>
        cases hstep
        exact h.setCall call (fun _ _ _ => AuthPhase.noConfusion)
          fun _ _ => AuthPhase.noConfusion
      next =>
        cases hstep
        exact h.setCall call (fun _ _ _ => AuthPhase.noConfusion)
          fun _ _ => AuthPhase.noConfusion
      next nonces hreserve =>
        cases hstep
        obtain ⟨hadmissible, hfree, rfl⟩ := reserve_ok hreserve
        let d : Dispatched := ⟨checked, clock, s.databaseClock⟩
        have hlonger : Guarded sha256 { s with nonces := s.nonces ++ [d.row sha256] } :=
          h.withNonces fun row hrow => mem_append_left _ hrow
        apply hlonger.admit (d := d) call
        · exact h.checking call checked clock hphase
        · simp only [NonceRow.admissible, nonceRow, Bool.and_eq_true, Bool.or_eq_true,
            beq_iff_eq] at hadmissible
          exact hadmissible.2
        · exact mem_concat_self
        · intro d' hd'
          exact apart_of_reserve h hd' rfl hfree
    next => cases hstep
  | reserveUnavailable call inserted =>
    simp only [doorStep] at hstep
    split at hstep
    next checked _ _ =>
      cases hstep
      apply Guarded.setCall _ call (fun _ _ _ => AuthPhase.noConfusion)
        fun _ _ => AuthPhase.noConfusion
      apply h.withNonces
      intro row hrow
      cases hreserve : reserve s.nonces (nonceRow sha256 checked s.databaseClock) with
      | none => simpa using hrow
      | some conflict =>
        cases conflict with
        | none => simpa using hrow
        | some nonces =>
          obtain ⟨_, _, rfl⟩ := reserve_ok hreserve
          cases inserted with
          | false => exact hrow
          | true => exact mem_append_left _ hrow
    next => cases hstep
  | dispatch call =>
    simp only [doorStep] at hstep
    split at hstep
    next checked clock reservedAt hphase =>
      cases hstep
      exact guarded_dispatch (d := ⟨checked, clock, reservedAt⟩) h hphase
    next => cases hstep
  | crash call =>
    cases hstep
    exact h.setCall call (fun _ _ _ => AuthPhase.noConfusion) fun _ _ => AuthPhase.noConfusion
  | purge key =>
    cases hstep
    exact guarded_purge h key
  | tick ms =>
    cases hstep
    exact h.moved rfl rfl (fun _ hrow => hrow) (Nat.le_add_right _ _) fun _ hrow => .inl hrow

theorem guarded_initial : Guarded sha256 .initial where
  checking call request clock hreserving := by cases hreserving
  checked d hd := by rcases hd with hd | ⟨call, hd⟩ <;> cases hd
  method d hd := by rcases hd with hd | ⟨call, hd⟩ <;> cases hd
  reserved d hd := by rcases hd with hd | ⟨call, hd⟩ <;> cases hd
  waiting call call' d d' hne hd := by cases hd
  handed call d hd := by cases hd
  once := List.Pairwise.nil

end Steps

/-! ### Replays -/

/-- The clock of the service stood still between two checks, up to the two
windows, or it went half way round its range. -/
def ClockStalled (d d' : Dispatched) : Prop :=
  (nowSeconds d.clock - nowSeconds d'.clock).natAbs ≤ 240 ∨
    2 ^ 63 - 120 ≤ (nowSeconds d.clock - nowSeconds d'.clock).natAbs

/-- A nonce passes a second time only after its row was removed, and with the same
timestamp only on a clock that stood still. -/
def Replayed (sha256 : List UInt8 → List UInt8) (s : LedgerDoor) (d d' : Dispatched) : Prop :=
  (Outlived sha256 s d d' ∨ Outlived sha256 s d' d) ∧
    (d.request.timestamp = d'.request.timestamp → ClockStalled d d')

structure DoorSafe (sha256 : List UInt8 → List UInt8) (s : LedgerDoor) : Prop where
  replays : s.dispatched.Pairwise fun d d' =>
    d.request.keyId = d'.request.keyId → d.request.nonce = d'.request.nonce →
      Replayed sha256 s d d'
  signed : ∀ d ∈ s.dispatched, ∀ d' ∈ s.dispatched,
    canonicalRequest d.request = canonicalRequest d'.request → d.request = d'.request

theorem doorSafe_of_guarded {s : LedgerDoor} (h : Guarded sha256 s) : DoorSafe sha256 s where
  replays := by
    refine h.once.imp_of_mem ?_
    intro d d' hd hd' hapart hkeyId hnonce
    refine ⟨hapart hkeyId hnonce, ?_⟩
    intro htimestamp
    have hcurrent := (h.checked d (.inl hd)).current
    rw [htimestamp] at hcurrent
    exact clocks_of_current hcurrent (h.checked d' (.inl hd')).current
  signed d hd d' hd' hsame := by
    have hdelimited : ∀ d ∈ s.dispatched, Delimited d.request := by
      intro d hd
      have hchecked := h.checked d (.inl hd)
      refine ⟨?_, hchecked.keyId, hchecked.nonce⟩
      rcases h.method d (.inl hd) with hpost | hget
      · rw [hpost]
        decide
      · rw [hget]
        decide
    exact canonicalRequest_injective (hdelimited d hd) (hdelimited d' hd') hsame

/-- Along every run a nonce is dispatched once for each time its row is there, and
the signed bytes of dispatched requests determine them. -/
theorem nonce_dispatched_once_per_row (sha256 : List UInt8 → List UInt8)
    (hmac : List UInt8 → List UInt8 → List UInt8) (labels : List DoorAction) :
    Always (doorStep sha256 hmac) (DoorSafe sha256) .initial labels :=
  (always_of_step labels (fun _ _ _ hs hstep => guarded_step hs hstep) guarded_initial).mono
    fun _ hs => doorSafe_of_guarded hs

def NeverTwice (s : LedgerDoor) : Prop :=
  s.dispatched.Pairwise fun d d' =>
    ¬ (d.request.keyId = d'.request.keyId ∧ d.request.nonce = d'.request.nonce)

def NeverAgain (s : LedgerDoor) : Prop :=
  s.dispatched.Pairwise fun d d' => d.request ≠ d'.request

/-- A nonce is used again after its row was removed: in a new request, and on a
clock that stands still in the same one. -/
theorem nonce_dispatched_after_purge :
    (¬ ∀ (sha256 : List UInt8 → List UInt8) (hmac : List UInt8 → List UInt8 → List UInt8)
        (labels : List DoorAction), Always (doorStep sha256 hmac) NeverTwice .initial labels) ∧
      ¬ ∀ (sha256 : List UInt8 → List UInt8) (hmac : List UInt8 → List UInt8 → List UInt8)
          (labels : List DoorAction), Always (doorStep sha256 hmac) NeverAgain .initial labels := by
  let request (timestamp : String) : LedgerHttpRequest :=
    { method := "POST"
      path := "/ledger/debit"
      headers := fun name =>
        ([("x-bis-key-id", "ledger-key-v2"), ("x-bis-nonce", "5f3c1e0a9b7d4c2e8f6a1b"),
          ("x-bis-tenant-id", "101"), ("x-bis-actor-id", "202"), ("x-bis-timestamp", timestamp),
          ("x-bis-signature", "abababababababababababababababababababababababababababababababab")].find?
            fun header => header.1 == name).map fun header => utf8 header.2
      body := [] }
  let labels (timestamp : String) (clock : Int) : List DoorAction :=
    [.configure ⟨"ledger-service-key", "ledger-key-v2"⟩, .tick 1000000,
      .authenticate 0 (request "1000") 1000, .reserve 0, .dispatch 0, .tick 900000,
      .purge ("ledger-key-v2", []), .authenticate 1 (request timestamp) clock, .reserve 1,
      .dispatch 1]
  let checked (timestamp : Int) : CheckedRequest :=
    { method := "POST"
      canonicalPath := "/ledger/debit"
      keyId := "ledger-key-v2"
      tenantId := 101
      actorId := 202
      timestamp
      nonce := "5f3c1e0a9b7d4c2e8f6a1b"
      bodyHash := [] }
  constructor
  · intro h
    have hrun : (run (doorStep (fun _ => []) fun _ _ => List.replicate 32 171) .initial
        (labels "1900" 1900)).map (fun s => s.dispatched.map Dispatched.request) =
          some [checked 1900, checked 1000] := by
      decide
    obtain ⟨s, hs, hobserved⟩ := map_eq_some_iff.mp hrun
    have honce : NeverTwice s := (h _ _ (labels "1900" 1900)).finish hs
    have hpairs := (pairwise_map (f := Dispatched.request)
      (R := fun r r' => ¬ (r.keyId = r'.keyId ∧ r.nonce = r'.nonce))).mpr honce
    rw [hobserved] at hpairs
    exact (pairwise_cons.mp hpairs).1 _ mem_cons_self ⟨rfl, rfl⟩
  · intro h
    have hrun : (run (doorStep (fun _ => []) fun _ _ => List.replicate 32 171) .initial
        (labels "1000" 1000)).map (fun s => s.dispatched.map Dispatched.request) =
          some [checked 1000, checked 1000] := by
      decide
    obtain ⟨s, hs, hobserved⟩ := map_eq_some_iff.mp hrun
    have honce : NeverAgain s := (h _ _ (labels "1000" 1000)).finish hs
    have hpairs := (pairwise_map (f := Dispatched.request) (R := (· ≠ ·))).mpr honce
    rw [hobserved] at hpairs
    exact (pairwise_cons.mp hpairs).1 _ mem_cons_self rfl

end Bis.TigerBeetle
