import Bis.PaymentRails.ProviderStatus

/-!
Where the gateway and the client tell the same of a provider's reply. They do for a reply
that both can read, with a code that both know. Of an aborted transfer the gateway says
that it failed and the client that it is pending; of a NIP transfer that is refused it is
the other way round.
-/

namespace Bis.PaymentRails

open Bis.Json Bis.Monitoring

inductive Operation where
  | mojaloopTransfer
  | mojaloopStatus
  | nipTransfer
  deriving DecidableEq

namespace Operation

/-- The status that the gateway answers with. -/
def gatewayStatus (op : Operation) (txRef : String) (reply : Reply) : Option PaymentStatus :=
  match op with
  | mojaloopTransfer => (handleMojaloopTransfer txRef reply).toOption.map (·.status)
  | mojaloopStatus => (handleMojaloopStatus txRef reply).toOption.map (·.status)
  | nipTransfer => (handleNIPTransfer txRef reply).toOption.map (·.status)

/-- The status that the client gives. -/
def clientStatus (op : Operation) (txRef : String) (reply : Reply) : Option PaymentStatus :=
  match op with
  | mojaloopTransfer => (mojaloopInitiate txRef reply).toOption.map (·.status)
  | mojaloopStatus => (PaymentRails.mojaloopStatus txRef reply).toOption.map (·.status)
  | nipTransfer => (nipInitiate txRef reply).toOption.map (·.status)

/-- The member that tells the outcome, at the gateway's endpoint and at the client's. -/
def gatewayMember : Operation → String
  | nipTransfer => "responseCode"
  | _ => "transferState"

def clientMember : Operation → String
  | nipTransfer => "ResponseCode"
  | _ => "transferState"

def successCode : Operation → String
  | nipTransfer => "00"
  | _ => "COMMITTED"

/-- What the gateway makes of the code. -/
def gatewayCode (op : Operation) (code : String) : PaymentStatus :=
  if code == op.successCode then .completed
  else if op == mojaloopStatus && (code == "ABORTED" || code == "REJECTED") then .failed
  else .pending

def clientCode (op : Operation) (isSuccess : Bool) : PaymentStatus :=
  if isSuccess then .completed else if op == nipTransfer then .failed else .pending

/-- What the client makes of an HTTP failure. -/
def clientFailure : Operation → Option PaymentStatus
  | mojaloopStatus => some .pending
  | _ => none

end Operation

/-- What the gateway reads of a body. -/
def gatewayRead (fits : Bool) (body : Option Value) : Option (List (String × Value)) :=
  (if fits then body else none).bind goMap

/-! ### The two statuses -/

theorem toOption_map_bind {ε α β γ : Type} (result : Except ε α) (make : α → β) (f : β → γ) :
    (result >>= fun a => pure (make a)).toOption.map f =
      result.toOption.map fun a => f (make a) := by
  cases result <;> rfl

theorem callProvider_answered (code parseCode : String) (status : Nat) (fits : Bool)
    (body : Option Value) :
    (callProvider code parseCode (.answered status fits body)).toOption =
      if 400 ≤ status then none else gatewayRead fits body := by
  simp only [callProvider, gatewayRead]
  split
  · rfl
  · cases (if fits then body else none).bind goMap <;> rfl

theorem Operation.gatewayStatus_unreachable (op : Operation) (txRef : String) :
    op.gatewayStatus txRef .unreachable = none := by
  cases op <;> rfl

theorem Operation.gatewayStatus_answered (op : Operation) (txRef : String) (status : Nat)
    (fits : Bool) (body : Option Value) :
    op.gatewayStatus txRef (.answered status fits body) =
      if 400 ≤ status then none
      else (gatewayRead fits body).map fun members =>
        op.gatewayCode (goMember op.gatewayMember members) := by
  have hcall : ∀ code parseCode, ∀ f : List (String × Value) → PaymentStatus,
      (callProvider code parseCode (.answered status fits body)).toOption.map f =
        if 400 ≤ status then none else (gatewayRead fits body).map f := by
    intro code parseCode f
    rw [callProvider_answered]
    split <;> rfl
  cases op with
  | mojaloopTransfer | mojaloopStatus | nipTransfer =>
    refine (toOption_map_bind _ _ _).trans ((hcall _ _ _).trans ?_)
    simp [gatewayCode, successCode, gatewayMember]

theorem Operation.clientStatus_unreachable (op : Operation) (txRef : String) :
    op.clientStatus txRef .unreachable = none := by
  cases op <;> rfl

theorem Operation.clientStatus_answered (op : Operation) (txRef : String) (status : Nat)
    (fits : Bool) (body : Option Value) :
    op.clientStatus txRef (.answered status fits body) =
      if isOk status then
        (readable body).toOption.map fun result =>
          op.clientCode (isText op.successCode (get op.clientMember result))
      else op.clientFailure := by
  have hfetch : fetchTransfer (.answered status fits body) =
      if isOk status then readable body else .error (.httpFailure status) := rfl
  cases op with
  | mojaloopTransfer | nipTransfer =>
    refine (toOption_map_bind _ _ _).trans ?_
    rw [hfetch]
    split <;> rfl
  | mojaloopStatus =>
    simp only [clientStatus, PaymentRails.mojaloopStatus, fetchStatus]
    split
    · cases readable body <;> rfl
    · rfl

/-! ### One outcome, told to both -/

/-- Two bodies that say the same, each under its own endpoint's name. -/
inductive SameBody (op : Operation) : Option Value → Option Value → Prop where
  | unreadable : SameBody op none none
  | object {members members' : List (String × Value)}
      (h : get op.gatewayMember (.object members) = get op.clientMember (.object members')) :
      SameBody op (some (.object members)) (some (.object members'))
  | other {value : Value} (h : ∀ members, value ≠ .object members) :
      SameBody op (some value) (some value)

/-- The reply that the gateway gets and the one that the client gets, of one outcome. -/
inductive SameOutcome (op : Operation) : Reply → Reply → Prop where
  | unreachable : SameOutcome op .unreachable .unreachable
  | answered {status : Nat} {fits fits' : Bool} {body body' : Option Value}
      (h : SameBody op body body') :
      SameOutcome op (.answered status fits body) (.answered status fits' body')

/-- The reply says that the transfer went through. -/
inductive Reply.Succeeded (name code : String) : Reply → Prop where
  | intro {status : Nat} {fits : Bool} {members : List (String × Value)}
      (hok : isOk status = true) (h : get name (.object members) = some (.string code)) :
      Succeeded name code (.answered status fits (some (.object members)))

/-- The gateway and the client tell the same, and of success only where there is one. -/
structure Consistent (op : Operation) (txRef : String) (reply reply' : Reply) : Prop where
  agree : op.gatewayStatus txRef reply = op.clientStatus txRef reply'
  gateway : op.gatewayStatus txRef reply = some .completed →
    reply.Succeeded op.gatewayMember op.successCode
  client : op.clientStatus txRef reply' = some .completed →
    reply'.Succeeded op.clientMember op.successCode

/-- The codes that both take for the same. -/
def Operation.KnowsCode (op : Operation) (code : String) : Prop :=
  match op with
  | mojaloopTransfer => True
  | mojaloopStatus => code ≠ "ABORTED" ∧ code ≠ "REJECTED"
  | nipTransfer => code = "00"

/-- A reply that both take for the same. One that is neither a success nor a failure in
HTTP is read by the gateway only. -/
def Operation.Agreed (op : Operation) : Reply → Prop
  | .unreachable => True
  | .answered status fits body =>
    if isOk status then
      match body with
      | none => True
      | some .null => fits = false
      | some (.object members) =>
        fits = true ∧ goMembers members = true ∧ op.KnowsCode (goMember op.gatewayMember members)
      | some _ => False
    else
      match op with
      | mojaloopStatus => status < 400 ∧ ∃ members, gatewayRead fits body = some members ∧
          mojaloopStatus.gatewayCode (goMember "transferState" members) = .pending
      | _ => status < 400 → gatewayRead fits body = none

/-! ### The law -/

theorem Operation.gatewayCode_eq_clientCode_iff (op : Operation) (code : String) :
    op.gatewayCode code = op.clientCode (code == op.successCode) ↔ op.KnowsCode code := by
  cases op with
  | mojaloopTransfer =>
    simp [gatewayCode, clientCode, KnowsCode]
  | mojaloopStatus =>
    by_cases hcode : code = "COMMITTED"
    · simp [gatewayCode, clientCode, KnowsCode, successCode, hcode]
    · simp [gatewayCode, clientCode, KnowsCode, successCode, hcode]
  | nipTransfer =>
    by_cases hcode : code = "00"
    · simp [gatewayCode, clientCode, KnowsCode, successCode, hcode]
    · simp [gatewayCode, clientCode, KnowsCode, successCode, hcode]

theorem Operation.successCode_ne (op : Operation) : op.successCode ≠ "" := by
  cases op <;> simp [successCode]

variable {text code : String}

theorem string?_eq_some {value : Option Value} (h : string? value = some text) :
    value = some (.string text) := by
  unfold string? at h
  split at h
  · cases h
    rfl
  · cases h

variable {name txRef : String} {op : Operation} {status : Nat} {fits : Bool} {body : Option Value}

theorem goMember_eq_iff (htext : text ≠ "") (members : List (String × Value)) :
    goMember name members = text ↔ get name (.object members) = some (.string text) := by
  unfold goMember
  constructor
  · intro h
    cases hstring : string? (get name (.object members)) with
    | none =>
      rw [hstring] at h
      exact absurd h.symm htext
    | some text' =>
      rw [hstring] at h
      cases h
      exact string?_eq_some hstring
  · intro h
    rw [h]
    rfl

theorem isText_iff (text : String) (value : Option Value) :
    isText text value = true ↔ value = some (.string text) := by
  unfold isText
  rw [beq_iff_eq]
  constructor
  · exact string?_eq_some
  · intro h
    rw [h]
    rfl

/-- The client's test is the gateway's, of two bodies that say the same. -/
theorem isText_eq_goMember {members members' : List (String × Value)}
    (h : get op.gatewayMember (.object members) = get op.clientMember (.object members')) :
    isText op.successCode (get op.clientMember (.object members')) =
      (goMember op.gatewayMember members == op.successCode) := by
  rw [Bool.eq_iff_iff, isText_iff, beq_iff_eq, goMember_eq_iff op.successCode_ne, h]

theorem Operation.gatewayCode_completed (h : op.gatewayCode code = .completed) :
    code = op.successCode := by
  unfold gatewayCode at h
  split at h
  · next hcode => exact beq_iff_eq.mp hcode
  · split at h <;> cases h

theorem Operation.clientCode_completed {isSuccess : Bool} (h : op.clientCode isSuccess =
    .completed) : isSuccess = true := by
  unfold clientCode at h
  split at h
  · assumption
  · split at h <;> cases h

theorem succeeded_of_readable {result : Value} (hok : isOk status = true)
    (hread : readable body = .ok result) (hmember : get name result = some (.string code)) :
    (Reply.answered status fits body).Succeeded name code := by
  have hbody : body = some result := by
    unfold readable at hread
    split at hread
    · cases hread
    · cases hread
    · cases hread
      rfl
  subst hbody
  cases result with
  | object members => exact ⟨hok, hmember⟩
  | _ => cases hmember

/-- The client never takes a reply for a success that is none. -/
theorem clientStatus_completed {reply : Reply} (h : op.clientStatus txRef reply = some .completed) :
    reply.Succeeded op.clientMember op.successCode := by
  cases reply with
  | unreachable =>
    rw [op.clientStatus_unreachable] at h
    cases h
  | answered status fits body =>
    rw [op.clientStatus_answered] at h
    split at h
    next hok =>
      obtain ⟨result, hread, hcode⟩ := Option.map_eq_some_iff.mp h
      have hmember := (isText_iff _ _).mp (Operation.clientCode_completed hcode)
      cases hresult : readable body with
      | error err =>
        rw [hresult] at hread
        cases hread
      | ok value =>
        rw [hresult] at hread
        cases hread
        exact succeeded_of_readable hok hresult hmember
    · cases op <;> cases h

theorem eq_object_of_gatewayRead {members : List (String × Value)} {value : Value}
    (hread : gatewayRead fits body = some members) (hget : get name (.object members) = some
    value) : body = some (.object members) := by
  unfold gatewayRead at hread
  cases fits with
  | false => cases hread
  | true =>
    obtain ⟨document, hbody, hmap⟩ := Option.bind_eq_some_iff.mp hread
    rw [if_pos rfl] at hbody
    subst hbody
    unfold goMap at hmap
    split at hmap
    · -- `null` is read as a map without members.
      cases hmap
      cases hget
    · split at hmap
      · cases hmap
        rfl
      · cases hmap
    · cases hmap

/-- The gateway takes no reply for a success that is none, of those with an HTTP status
that the client reads. -/
theorem gatewayStatus_completed (hok : isOk status = true)
    (h : op.gatewayStatus txRef (.answered status fits body) = some .completed) :
    (Reply.answered status fits body).Succeeded op.gatewayMember op.successCode := by
  rw [op.gatewayStatus_answered] at h
  split at h
  · cases h
  · obtain ⟨members, hread, hcode⟩ := Option.map_eq_some_iff.mp h
    have hmember := (goMember_eq_iff op.successCode_ne members).mp
      (Operation.gatewayCode_completed hcode)
    rw [eq_object_of_gatewayRead hread hmember]
    exact ⟨hok, hmember⟩

theorem lt_of_isOk (h : isOk status = true) : ¬ 400 ≤ status := by
  unfold isOk at h
  simp only [Bool.and_eq_true, decide_eq_true_eq] at h
  omega

/-- What both say of a reply with a status that the client reads. -/
theorem agree_of_isOk {fits' : Bool} {body' : Option Value} (hok : isOk status = true)
    (hsame : SameBody op body body') :
    op.gatewayStatus txRef (.answered status fits body) =
        op.clientStatus txRef (.answered status fits' body') ↔
      op.Agreed (.answered status fits body) := by
  rw [op.gatewayStatus_answered, op.clientStatus_answered, if_neg (lt_of_isOk hok), if_pos hok]
  simp only [Operation.Agreed, if_pos hok]
  cases hsame with
  | unreadable => cases fits <;> simp [gatewayRead, readable, Except.toOption]
  | object h =>
    cases fits with
    | false => simp [gatewayRead, readable, Except.toOption]
    | true =>
      simp [gatewayRead, readable, Except.toOption, goMap, isText_eq_goMember h,
        op.gatewayCode_eq_clientCode_iff]
  | @other value h =>
    cases value with
    | object members => exact absurd rfl (h members)
    | null => cases fits <;> simp [gatewayRead, readable, Except.toOption, goMap]
    | _ => cases fits <;> simp [gatewayRead, readable, Except.toOption, goMap]

/-- The client takes the status for a failure, and the gateway may have a body to read. -/
theorem agree_of_not_isOk {fits' : Bool} {body' : Option Value} (hok : ¬ isOk status = true) :
    op.gatewayStatus txRef (.answered status fits body) =
        op.clientStatus txRef (.answered status fits' body') ↔
      op.Agreed (.answered status fits body) := by
  have htransfer : ∀ op : Operation, op.clientFailure = none →
      ((if 400 ≤ status then none
        else (gatewayRead fits body).map fun members =>
          op.gatewayCode (goMember op.gatewayMember members)) = op.clientFailure ↔
        (status < 400 → gatewayRead fits body = none)) := by
    intro op hfailure
    rw [hfailure]
    split
    · next hstatus => simp [hstatus.not_gt]
    · next hstatus => simp [not_le.mp hstatus]
  rw [op.gatewayStatus_answered, op.clientStatus_answered, if_neg hok]
  simp only [Operation.Agreed, if_neg hok]
  cases op with
  | mojaloopTransfer | nipTransfer => exact htransfer _ rfl
  | mojaloopStatus =>
    split
    · next hstatus => simp [Operation.clientFailure, hstatus.not_gt]
    next hstatus =>
      simp [Operation.clientFailure, not_le.mp hstatus, Option.map_eq_some_iff,
        Operation.gatewayMember]

theorem statuses_agree_iff {op : Operation} {txRef : String} {reply reply' : Reply}
    (hsame : SameOutcome op reply reply') :
    op.gatewayStatus txRef reply = op.clientStatus txRef reply' ↔ op.Agreed reply := by
  cases hsame with
  | unreachable =>
    rw [op.gatewayStatus_unreachable, op.clientStatus_unreachable]
    simp [Operation.Agreed]
  | @answered status fits fits' body body' hbody =>
    by_cases hok : isOk status = true
    · exact agree_of_isOk hok hbody
    · exact agree_of_not_isOk hok

/-- Where the two agree, the gateway's success is the client's. -/
theorem gateway_completed_of_agree {reply reply' : Reply} (hsame : SameOutcome op reply reply')
    (hagree : op.gatewayStatus txRef reply = op.clientStatus txRef reply')
    (h : op.gatewayStatus txRef reply = some .completed) :
    reply.Succeeded op.gatewayMember op.successCode := by
  have hclient := clientStatus_completed (hagree.symm.trans h)
  cases hsame with
  | unreachable => cases hclient
  | answered hbody =>
    cases hclient with
    | intro hok hmember => exact gatewayStatus_completed hok h

/-- The gateway and the client are consistent on a reply exactly where they agree on it. -/
theorem provider_status_iff {op : Operation} {reply reply' : Reply} (txRef : String)
    (hsame : SameOutcome op reply reply') :
    Consistent op txRef reply reply' ↔ op.Agreed reply := by
  rw [← @statuses_agree_iff op txRef reply reply' hsame]
  constructor
  · exact Consistent.agree
  · intro hagree
    exact ⟨hagree, gateway_completed_of_agree hsame hagree, clientStatus_completed⟩

/-- A poll of an aborted transfer, which the gateway has failed and the client pending. -/
def abortedReply : Reply :=
  .answered 200 true (some (.object [("transferId", .string "TX-001"),
    ("transferState", .string "ABORTED")]))

theorem provider_status_committed :
    SameOutcome .mojaloopStatus
        (.answered 200 true (some (.object [("transferState", .string "COMMITTED")])))
        (.answered 200 true (some (.object [("transferState", .string "COMMITTED")]))) ∧
      Consistent .mojaloopStatus "TX-001"
        (.answered 200 true (some (.object [("transferState", .string "COMMITTED")])))
        (.answered 200 true (some (.object [("transferState", .string "COMMITTED")]))) := by
  have hsame : SameOutcome .mojaloopStatus
      (.answered 200 true (some (.object [("transferState", .string "COMMITTED")])))
      (.answered 200 true (some (.object [("transferState", .string "COMMITTED")]))) :=
    .answered (.object rfl)
  refine ⟨hsame, (provider_status_iff "TX-001" hsame).mpr ?_⟩
  refine ⟨rfl, by decide, ?_, ?_⟩
  · decide
  · decide

theorem provider_status_disagrees :
    ¬ ∀ (op : Operation) (txRef : String) (reply reply' : Reply), SameOutcome op reply reply' →
      Consistent op txRef reply reply' := by
  intro hall
  have hagree := (hall .mojaloopStatus "TX-001" abortedReply abortedReply
    (.answered (.object rfl))).agree
  revert hagree
  decide

end Bis.PaymentRails
