import Bis.Aml.Screening

/-!
The handler of SWIFT MT103 messages: it validates a message, has it screened and hands an
event to the publisher. The request body comes decoded. The identifiers that it generates,
the clock, the answer of the AML engine and that of the publisher come from outside.

The fields of a message and of a party that the handler does not read are left out.
-/

namespace Bis.Aml

structure Party where
  (name country : String)

structure MT103 where
  (uetr senderBIC receiverBIC transactionRef currency : String)
  amount : Rat
  (orderingCustomer beneficiary : Party)
  (remittanceInfo chargesCode : String)

structure PaymentEvent where
  (eventType transactionRef uetr : String)
  amount : Rat
  (currency status riskLevel : String)
  timestamp : Nat

/-- A call without an answer, or one that `screenAML` does not take. -/
inductive ScreenError where
  | request
  | answer (error : AmlError)

inductive Mt103Response where
  | error (status : Nat) (message : String)
  | accepted (uetr transactionRef status riskLevel : String) (riskScore : Rat)
      (flags : List String) (acceptedAt : Nat)

/-- What a request meets: `server` is the AML engine, `publisher` answers a topic, a key
and an event with an error or without. -/
structure Mt103Env where
  formatFloat64 : Rat → Json.Number
  (amlURL amlKey : String)
  server : List Char → Option (Nat × List Char)
  publisher : Option (String → String → PaymentEvent → Except String Unit)
  (newUETR newRef : String)
  now : Nat

/-- The events that were handed to `publishEvent`, and the response. -/
structure Mt103Result where
  events : List PaymentEvent
  response : Mt103Response

section

variable (env : Mt103Env)

/-- `screenAML`, with an engine that may not answer. -/
def callAML (req : AMLScreenRequest) : Except ScreenError AMLScreenResponse :=
  if env.amlURL = "" then .error (.answer .urlNotConfigured)
  else if env.amlKey = "" then .error (.answer .keyNotConfigured)
  else
    match env.server (marshalRequest env.formatFloat64 req) with
    | none => .error .request
    | some answer =>
      match screenAML env.formatFloat64 env.amlURL env.amlKey (fun _ => answer) req with
      | .error error => .error (.answer error)
      | .ok resp => .ok resp

def publishEvent (topic : String) (event : PaymentEvent) : Except String Unit :=
  match env.publisher with
  | none => .error "Kafka publisher is not configured"
  | some publish =>
    match publish topic event.transactionRef event with
    | .error error => .error ("publish payment event: " ++ error)
    | .ok () => .ok ()

/-- The fields that the handler fills in. -/
def withDefaults (req : MT103) : MT103 :=
  { req with
    uetr := if req.uetr = "" then env.newUETR else req.uetr
    transactionRef := if req.transactionRef = "" then env.newRef else req.transactionRef
    chargesCode := if req.chargesCode = "" then "SHA" else req.chargesCode }

/-- The message of the first check that fails. -/
def invalid (req : MT103) : Option String :=
  if req.senderBIC = "" ∨ req.receiverBIC = "" then
    some "senderBic and receiverBic are required"
  else if req.amount ≤ 0 then some "amount must be positive"
  else if req.currency.utf8ByteSize ≠ 3 then some "currency must be 3-letter ISO code"
  else none

def screenRequest (req : MT103) : AMLScreenRequest where
  transactionRef := req.transactionRef
  amount := req.amount
  currency := req.currency
  originatorName := req.orderingCustomer.name
  originatorCountry := req.orderingCustomer.country
  beneficiaryName := req.beneficiary.name
  beneficiaryCountry := req.beneficiary.country
  transactionType := "swift_mt103"
  narration := req.remittanceInfo

def paymentEvent (req : MT103) (eventType status : String) (screenResp : AMLScreenResponse) :
    PaymentEvent where
  eventType
  transactionRef := req.transactionRef
  uetr := req.uetr
  amount := req.amount
  currency := req.currency
  status
  riskLevel := screenResp.riskLevel
  timestamp := env.now

def acceptedStatus (screenResp : AMLScreenResponse) : String :=
  if screenResp.riskLevel = "high" ∨ screenResp.riskLevel = "critical" then "pending_compliance"
  else "accepted"

/-- The handler behind the screening. -/
def settleMT103 (req : MT103) (screenResp : AMLScreenResponse) : Mt103Result :=
  if screenResp.blocked then
    let event := paymentEvent env req "swift.mt103.blocked" "blocked" screenResp
    { events := [event]
      response :=
        match publishEvent env "payment-events" event with
        | .error _ => .error 503 "blocked transaction could not be durably recorded"
        | .ok () => .error 403 "transaction blocked by AML screening" }
  else
    let status := acceptedStatus screenResp
    let event := paymentEvent env req "swift.mt103.accepted" status screenResp
    { events := [event]
      response :=
        match publishEvent env "payment-events" event with
        | .error _ => .error 503 "payment event could not be durably recorded"
        | .ok () =>
          .accepted req.uetr req.transactionRef status screenResp.riskLevel
            screenResp.riskScore screenResp.flags env.now }

/-- A body is what the decoder makes of it. -/
def handleMT103 (body : Except String MT103) : Mt103Result :=
  match body with
  | .error error => { events := [], response := .error 400 ("invalid request body: " ++ error) }
  | .ok decoded =>
    let req := withDefaults env decoded
    match invalid req with
    | some message => { events := [], response := .error 400 message }
    | none =>
      match callAML env (screenRequest req) with
      | .error _ =>
        { events := []
          response :=
            .error 503 "AML screening is unavailable; transaction was not accepted" }
      | .ok screenResp => settleMT103 env req screenResp

end

/-! ### What the handler publishes -/

/-- The mandatory fields are there. -/
structure MT103.Valid (req : MT103) : Prop where
  senderBIC : req.senderBIC ≠ ""
  receiverBIC : req.receiverBIC ≠ ""
  amount : 0 < req.amount
  currency : req.currency.utf8ByteSize = 3

/-- The body is a valid message, which was screened. -/
structure Screened (env : Mt103Env) (body : Except String MT103) (req : MT103)
    (resp : AMLScreenResponse) : Prop where
  decoded : ∃ sent, body = .ok sent ∧ req = withDefaults env sent
  valid : req.Valid
  screened : callAML env (screenRequest req) = .ok resp

structure Mt103Law (env : Mt103Env) (body : Except String MT103) (result : Mt103Result) :
    Prop where
  accepted : (∃ event ∈ result.events, event.eventType = "swift.mt103.accepted") ↔
    ∃ req resp, Screened env body req resp ∧ resp.blocked = false
  blocked : (∃ event ∈ result.events, event.eventType = "swift.mt103.blocked") ↔
    ∃ req resp, Screened env body req resp ∧ resp.blocked = true
  only : ∀ event ∈ result.events,
    event.eventType = "swift.mt103.accepted" ∨ event.eventType = "swift.mt103.blocked"
  once : result.events.length ≤ 1
  held : ∀ req resp, Screened env body req resp → resp.blocked = false →
    resp.riskLevel = "high" ∨ resp.riskLevel = "critical" →
      ∀ event ∈ result.events, event.status = "pending_compliance"
  failed : ∀ sent error, body = .ok sent →
    callAML env (screenRequest (withDefaults env sent)) = .error error →
      result.events = [] ∧ ∃ status message, result.response = .error status message
  answered : ∀ uetr ref status level score flags acceptedAt,
    result.response = .accepted uetr ref status level score flags acceptedAt →
      ∃ event ∈ result.events, event.eventType = "swift.mt103.accepted" ∧
        event.status = status ∧ publishEvent env "payment-events" event = .ok ()

section

variable {env : Mt103Env} {body : Except String MT103} {req : MT103} {resp : AMLScreenResponse}

theorem invalid_eq_none : invalid req = none ↔ req.Valid := by
  unfold invalid
  constructor
  · intro h
    split at h
    · cases h
    next hbics =>
      split at h
      · cases h
      next hamount =>
        split at h
        · cases h
        next hcurrency =>
          rw [not_or] at hbics
          exact ⟨hbics.1, hbics.2, Rat.not_le.mp hamount, not_not.mp hcurrency⟩
  · intro h
    rw [if_neg (not_or.mpr ⟨h.senderBIC, h.receiverBIC⟩), if_neg (Rat.not_le.mpr h.amount),
      if_neg (not_not.mpr h.currency)]

/-- A body is screened with one outcome. -/
theorem Screened.unique {req' : MT103} {resp' : AMLScreenResponse} (h : Screened env body req resp)
    (h' : Screened env body req' resp') : req = req' ∧ resp = resp' := by
  obtain ⟨sent, hbody, rfl⟩ := h.decoded
  obtain ⟨sent', hbody', rfl⟩ := h'.decoded
  obtain rfl := Except.ok.inj (hbody.symm.trans hbody')
  exact ⟨rfl, Except.ok.inj (h.screened.symm.trans h'.screened)⟩

variable (env body) in
/-- The handler refuses a body without an event, or settles what was screened. -/
theorem handleMT103_cases :
    ((∃ status message, handleMT103 env body = ⟨[], .error status message⟩) ∧
        ¬∃ req resp, Screened env body req resp) ∨
      ∃ req resp, Screened env body req resp ∧ handleMT103 env body = settleMT103 env req resp := by
  unfold handleMT103
  cases body with
  | error error =>
    refine .inl ⟨⟨_, _, rfl⟩, ?_⟩
    rintro ⟨req, resp, h⟩
    obtain ⟨sent, hbody, -⟩ := h.decoded
    cases hbody
  | ok sent =>
    simp only []
    have hsent : ∀ req resp, Screened env (.ok sent) req resp → req = withDefaults env sent := by
      intro req resp h
      obtain ⟨sent', hbody, rfl⟩ := h.decoded
      rw [Except.ok.inj hbody]
    cases hinvalid : invalid (withDefaults env sent) with
    | some message =>
      refine .inl ⟨⟨_, _, rfl⟩, ?_⟩
      rintro ⟨req, resp, h⟩
      have hvalid := invalid_eq_none.mpr h.valid
      rw [hsent req resp h, hinvalid] at hvalid
      cases hvalid
    | none =>
      cases hcall : callAML env (screenRequest (withDefaults env sent)) with
      | error error =>
        refine .inl ⟨⟨_, _, rfl⟩, ?_⟩
        rintro ⟨req, resp, h⟩
        have hscreened := h.screened
        rw [hsent req resp h, hcall] at hscreened
        cases hscreened
      | ok resp =>
        exact .inr ⟨_, resp, ⟨⟨sent, rfl, rfl⟩, invalid_eq_none.mp hinvalid, hcall⟩, rfl⟩

theorem handleMT103_of_screened (h : Screened env body req resp) :
    handleMT103 env body = settleMT103 env req resp := by
  rcases handleMT103_cases env body with ⟨-, hnone⟩ | ⟨req', resp', h', hresult⟩
  · exact absurd ⟨req, resp, h⟩ hnone
  · obtain ⟨rfl, rfl⟩ := h.unique h'
    exact hresult

theorem refused_law {status : Nat} {message : String}
    (hnone : ¬∃ req resp, Screened env body req resp) :
    Mt103Law env body ⟨[], .error status message⟩ := by
  have hno : ∀ blocked, ¬∃ req resp, Screened env body req resp ∧ resp.blocked = blocked := by
    rintro blocked ⟨req, resp, h, -⟩
    exact hnone ⟨req, resp, h⟩
  exact
    { accepted := iff_of_false (by simp) (hno false)
      blocked := iff_of_false (by simp) (hno true)
      only := by simp
      once := Nat.zero_le 1
      held := by simp
      failed := fun _ _ _ _ => ⟨rfl, status, message, rfl⟩
      answered := by simp }

/-- A message that was screened has no failed call. -/
theorem Screened.not_failed {sent : MT103} {error : ScreenError} (h : Screened env body req resp)
    (hbody : body = .ok sent)
    (herror : callAML env (screenRequest (withDefaults env sent)) = .error error) : False := by
  obtain ⟨sent', hbody', rfl⟩ := h.decoded
  obtain rfl := Except.ok.inj (hbody.symm.trans hbody')
  have hscreened := h.screened
  rw [herror] at hscreened
  cases hscreened

theorem blocked_law (h : Screened env body req resp) (hblocked : resp.blocked = true) :
    Mt103Law env body (settleMT103 env req resp) := by
  have hone : ∀ req' resp', Screened env body req' resp' → resp'.blocked = true := by
    intro req' resp' h'
    obtain ⟨-, rfl⟩ := h.unique h'
    exact hblocked
  rw [settleMT103, if_pos hblocked]
  exact
    { accepted := by
        refine iff_of_false (by simp [paymentEvent]) ?_
        rintro ⟨req', resp', h', hclear⟩
        rw [hone req' resp' h'] at hclear
        cases hclear
      blocked := iff_of_true ⟨_, List.mem_singleton_self _, rfl⟩ ⟨req, resp, h, hblocked⟩
      only := fun event hevent => .inr (by rw [List.mem_singleton.mp hevent]; rfl)
      once := Nat.le_refl 1
      held := by
        intro req' resp' h' hclear
        rw [hone req' resp' h'] at hclear
        cases hclear
      failed := fun _ _ hbody herror => (h.not_failed hbody herror).elim
      answered := by
        intro uetr ref status level score flags acceptedAt hresponse
        simp only at hresponse
        split at hresponse <;> cases hresponse }

theorem cleared_law (h : Screened env body req resp) (hclear : resp.blocked = false) :
    Mt103Law env body (settleMT103 env req resp) := by
  have hone : ∀ req' resp', Screened env body req' resp' → resp' = resp := fun req' resp' h' =>
    (h.unique h').2.symm
  have hnot : ¬resp.blocked = true := by
    rw [hclear]
    exact Bool.false_ne_true
  rw [settleMT103, if_neg hnot]
  exact
    { accepted := iff_of_true ⟨_, List.mem_singleton_self _, rfl⟩ ⟨req, resp, h, hclear⟩
      blocked := by
        refine iff_of_false (by simp [paymentEvent]) ?_
        rintro ⟨req', resp', h', hblocked⟩
        rw [hone req' resp' h'] at hblocked
        exact hnot hblocked
      only := fun event hevent => .inl (by rw [List.mem_singleton.mp hevent]; rfl)
      once := Nat.le_refl 1
      held := by
        intro req' resp' h' _ hrisk event hevent
        rw [hone req' resp' h'] at hrisk
        rw [List.mem_singleton.mp hevent]
        exact if_pos hrisk
      failed := fun _ _ hbody herror => (h.not_failed hbody herror).elim
      answered := by
        intro uetr ref status level score flags acceptedAt hresponse
        simp only at hresponse
        split at hresponse
        · cases hresponse
        next hpublished =>
          obtain ⟨-, -, hstatus, -⟩ := Mt103Response.accepted.inj hresponse
          exact ⟨_, List.mem_singleton_self _, rfl, hstatus, hpublished⟩ }

end

/-- The accepted event is handed to the publisher exactly for a valid message that was
screened and not blocked, the blocked event exactly for one that was blocked. A result
with a high risk is held, a failed call publishes nothing, and a message is answered as
accepted only behind its event. -/
theorem handleMT103_law (env : Mt103Env) (body : Except String MT103) :
    Mt103Law env body (handleMT103 env body) := by
  rcases handleMT103_cases env body with
    ⟨⟨status, message, hresult⟩, hnone⟩ | ⟨req, resp, hscreened, hresult⟩
  · rw [hresult]
    exact refused_law hnone
  · rw [hresult]
    cases hblocked : resp.blocked with
    | true => exact blocked_law hscreened hblocked
    | false => exact cleared_law hscreened hblocked

/-- An engine that blocks every transaction, and a publisher that takes every event. -/
def blockingEnv : Mt103Env where
  formatFloat64 amount := .ofInt amount.floor
  amlURL := "https://aml"
  amlKey := "key"
  server _ := some (200, serializeResult
    { transactionRef := "TX1", riskScore := 100, riskLevel := .critical
      flags := ["sanctioned_bic"], blocked := true, requiresManualReview := false
      ruleHits := [] })
  publisher := some fun _ _ _ => .ok ()
  newUETR := "eb6305c9-1f7f-49de-aed0-16487c27b42d"
  newRef := "MT103-1767225600000-0a1b2c3d"
  now := 1767225600000

def sanctionedMT103 : MT103 where
  uetr := ""
  senderBIC := "BISNGLA1XXX"
  receiverBIC := "CBIRKPSE"
  transactionRef := "TX1"
  currency := "USD"
  amount := 50000
  orderingCustomer := { name := "Acme Corp", country := "NG" }
  beneficiary := { name := "Global Imports Ltd", country := "GB" }
  remittanceInfo := "Invoice INV-2026-001"
  chargesCode := "SHA"

/-- An event is published for a message that screening blocked. -/
theorem blocked_message_published :
    (∃ event ∈ (handleMT103 blockingEnv (.ok sanctionedMT103)).events,
        publishEvent blockingEnv "payment-events" event = .ok ()) ∧
      ¬∃ req resp, Screened blockingEnv (.ok sanctionedMT103) req resp ∧ resp.blocked = false := by
  have hcall : callAML blockingEnv (screenRequest (withDefaults blockingEnv sanctionedMT103)) =
      .ok { riskScore := 0, riskLevel := "", flags := ["sanctioned_bic"], blocked := true } := by
    have hdecoded := decodeResponse_serializeResult
      { transactionRef := "TX1", riskScore := 100, riskLevel := .critical
        flags := ["sanctioned_bic"], blocked := true, requiresManualReview := false
        ruleHits := [] }
    simp [callAML, screenAML, blockingEnv, hdecoded]
  have hvalid : (withDefaults blockingEnv sanctionedMT103).Valid :=
    ⟨by decide, by decide, by decide, by decide⟩
  have hscreened : Screened blockingEnv (.ok sanctionedMT103) _ _ :=
    ⟨⟨sanctionedMT103, rfl, rfl⟩, hvalid, hcall⟩
  constructor
  · rw [handleMT103_of_screened hscreened]
    exact ⟨_, List.mem_singleton_self _, rfl⟩
  · rintro ⟨req, resp, h, hclear⟩
    obtain ⟨-, rfl⟩ := hscreened.unique h
    cases hclear

end Bis.Aml
