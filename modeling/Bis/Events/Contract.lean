import Bis.Events.Processor

/-!
What becomes of an event between the gateway and the processor. Three things
have to agree: the topic, the form of the message and the names of the fields.
None of them does, for any event and any values in it.
-/

namespace Bis.Events

open Json List
open Temporal (Members)

/-- An event has its effect if the processor reads its topic, decodes its message to
what was published, and runs the handler of its kind. -/
structure Carried (clock : Clock) (build : Build) (event : Published) : Prop where
  subscribed : event.topic ∈ topics build
  decoded : ∃ decoded, decodeMessage event.message = some decoded ∧
    decoded.eventType = event.topic ∧ decoded.payload = event.payload
  handled : ∃ handler, domainHandler clock event.topic event.payload = some handler

/-- The topics, each with the keys of its events. -/
def publishedKeys : List (String × List String) :=
  [("bis.criminal.request_submitted",
      ["requestRef", "agency", "subjectName", "nin", "state", "priority", "investigationRef",
        "requestedBy", "workflowId", "timestamp"]),
    ("bis.criminal.record_ingested",
      ["recordRef", "requestRef", "subjectName", "nin", "offenceCategory", "verdict",
        "outstandingWarrant", "riskContribution", "ingestSource", "timestamp"]),
    ("bis.fluvio.criminal_record",
      ["recordRef", "offenceCategory", "verdict", "riskContribution", "timestamp"]),
    ("bis.criminal.record_verified", ["recordRef", "verifiedBy", "notes", "timestamp"]),
    ("bis.corporate.check_completed",
      ["checkRef", "rcNumber", "outcome", "riskScore", "flags", "workflowId", "investigationRef",
        "timestamp"]),
    ("bis.field_visit.checked_in",
      ["checkInRef", "taskRef", "agentId", "lat", "lng", "accuracy", "notes", "timestamp"]),
    ("bis.field_visit.checked_out",
      ["checkOutRef", "taskRef", "agentId", "lat", "lng", "durationMinutes", "notes",
        "timestamp"]),
    ("bis.investigation.thin_file_flagged",
      ["investigationRef", "flaggedBy", "reason", "timestamp"]),
    ("bis.investigation.thin_file_reverted",
      ["investigationRef", "revertedBy", "reason", "timestamp"])]

/-- The form of an event. -/
def Published.Formed (event : Published) : Prop :=
  ∃ topic members, event = publishEvent topic members ∧
    (topic, members.map Prod.fst) ∈ publishedKeys

variable {members : Members} {events : List Published}

theorem formed_of_publish {topic : String} (h : (topic, members.map Prod.fst) ∈ publishedKeys) :
    (publishEvent topic members).Formed :=
  ⟨topic, members, rfl, h⟩

variable {env : Surroundings}

theorem handleCorporateCheck_formed {req : CorporateCheckRequest}
    (h : handleCorporateCheck env req = .ok events) : ∀ event ∈ events, event.Formed := by
  unfold handleCorporateCheck at h
  split at h
  · cases h
  · cases hchecks : (if req.checks = [] then ["cac_full", "firs_tax", "directors", "sanctions"]
        else req.checks).foldlM (runCheck env req) ⟨0, [], none⟩ with
    | error e =>
      simp only [hchecks, bind, Except.bind] at h
      cases h
    | ok findings =>
      simp only [hchecks, bind, Except.bind, pure, Except.pure] at h
      cases h
      intro event hevent
      obtain rfl := mem_singleton.mp hevent
      exact formed_of_publish (by simp [publishedKeys])

theorem handle_formed {req : GatewayRequest} (h : handle env req = .ok events) :
    ∀ event ∈ events, event.Formed := by
  cases req with
  | corporateCheck req => exact handleCorporateCheck_formed h
  | criminalRecordIngest req =>
    simp only [handle, handleCriminalRecordIngest] at h
    split at h
    · cases h
    · cases h
      intro event hevent
      rcases mem_cons.mp hevent with rfl | hevent
      · exact formed_of_publish (by simp [publishedKeys])
      · obtain rfl := mem_singleton.mp hevent
        exact formed_of_publish (by simp [publishedKeys])
  | _ =>
    simp only [handle, handleCriminalRecordRequest, handleCriminalRecordVerify,
      handleFieldVisitCheckIn, handleFieldVisitCheckOut, handleThinFileFlag,
      handleThinFileRevert] at h
    split at h
    · cases h
    · cases h
      intro event hevent
      obtain rfl := mem_singleton.mp hevent
      exact formed_of_publish (by simp [publishedKeys])

/-! ### Topic, message and fields -/

theorem topic_unsubscribed {event : Published} (h : event.Formed) (build : Build) :
    event.topic ∉ topics build := by
  obtain ⟨topic, members, rfl, hkeys⟩ := h
  have hall : ∀ entry ∈ publishedKeys, ∀ build, entry.1 ∉ topics build := by
    intro entry hentry build
    cases build with
    | httpBridge => exact not_mem_nil
    | kafkaNative =>
      revert entry
      decide
  exact hall _ hkeys build

/-- The message is a JSON string, whatever was published. -/
theorem decodeMessage_message (event : Published) : decodeMessage event.message = none := by
  rw [decodeMessage, Published.message, read_render]
  rfl

theorem required_missing {α : Type} {field : String} {read : Value → Option α}
    (h : field ∉ members.map Prod.fst) : required field read members = none := by
  rw [required, requiredField_missing h]
  rfl

theorem mem_keys_goObject {field : String} :
    field ∈ (members.mergeSort fun a b => decide (a.1 ≤ b.1)).map Prod.fst ↔
      field ∈ members.map Prod.fst := by
  simp only [mem_map, mem_mergeSort]

/-- No handler finds the first of its fields. -/
theorem domainHandler_published (clock : Clock) {event : Published} (h : event.Formed) :
    domainHandler clock event.topic event.payload = none := by
  obtain ⟨topic, members, rfl, hkeys⟩ := h
  have hmissing : ∀ {α : Type} (field : String) (read : Value → Option α),
      field ∉ members.map Prod.fst →
      required field read (members.mergeSort fun a b => decide (a.1 ≤ b.1)) = none :=
    fun _ _ hfield => required_missing (mt mem_keys_goObject.mp hfield)
  have hnone {α : Type} {read : Option String} {decode : String → Option α}
      {handler : α → Processor → Processor} (h : read = none) :
      (read.bind decode).map handler = none := by rw [h]; rfl
  simp only [publishedKeys, mem_cons, Prod.mk.injEq, not_mem_nil, or_false] at hkeys
  rcases hkeys with ⟨rfl, hkeys⟩ | ⟨rfl, hkeys⟩ | ⟨rfl, hkeys⟩ | ⟨rfl, hkeys⟩ | ⟨rfl, hkeys⟩ |
    ⟨rfl, hkeys⟩ | ⟨rfl, hkeys⟩ | ⟨rfl, hkeys⟩ | ⟨rfl, hkeys⟩
  · rfl
  · have hfield := hmissing "record_ref" rustString (by rw [hkeys]; decide)
    exact hnone hfield
  · have hfield := hmissing "record_ref" rustString (by rw [hkeys]; decide)
    exact hnone hfield
  · rfl
  · have hfield := hmissing "check_ref" rustString (by rw [hkeys]; decide)
    exact hnone hfield
  · have hfield := hmissing "check_in_ref" rustString (by rw [hkeys]; decide)
    exact hnone hfield
  · have hfield := hmissing "check_out_ref" rustString (by rw [hkeys]; decide)
    exact hnone hfield
  · have hfield := hmissing "investigation_ref" rustString (by rw [hkeys]; decide)
    exact hnone hfield
  · have hfield := hmissing "investigation_ref" rustString (by rw [hkeys]; decide)
    exact hnone hfield

/-- An event is not carried: no build reads its topic, its message does not decode, and
no handler would take its payload. Whatever the processor is sent of it, nothing happens. -/
theorem never_carried {req : GatewayRequest} {events : List Published} {event : Published}
    (hhandle : handle env req = .ok events) (hevent : event ∈ events) (clock : Clock)
    (build : Build) :
    ¬ Carried clock build event ∧ event.topic ∉ topics build ∧
      decodeMessage event.message = none ∧
      domainHandler clock event.topic event.payload = none ∧
      ∀ s, receive clock build event.topic event.message s = s := by
  have hformed := handle_formed hhandle event hevent
  have htopic := topic_unsubscribed hformed build
  refine ⟨fun hcarried => htopic hcarried.subscribed, htopic, decodeMessage_message event,
    domainHandler_published clock hformed, fun s => ?_⟩
  rw [receive, if_neg htopic]

def quietSurroundings : Surroundings where
  now := "2026-01-01T00:00:00Z"
  operationRef kind := kind ++ "-1"
  startWorkflow _ := none
  formatFloat _ := Number.ofInt 0
  minutesSince _ := none
  cac := none
  firs := none
  directors := none

def flagRequest : ThinFileRequest := ⟨"INV-1", "no records", "analyst"⟩

def flagEvent : Published :=
  publishEvent "bis.investigation.thin_file_flagged"
    [("investigationRef", .string "INV-1"), ("flaggedBy", .string "analyst"),
      ("reason", .string "no records"), ("timestamp", .string "2026-01-01T00:00:00Z")]

def quietClock : Clock := ⟨"2026-01-01T00:00:01Z", fun _ => Number.ofInt 0, fun _ => "0"⟩

theorem flag_not_carried :
    handle quietSurroundings (.thinFileFlag flagRequest) = .ok [flagEvent] ∧
      ¬ Carried quietClock .kafkaNative flagEvent := by
  have hhandle : handle quietSurroundings (.thinFileFlag flagRequest) = .ok [flagEvent] := rfl
  exact ⟨hhandle, (never_carried hhandle mem_cons_self quietClock .kafkaNative).1⟩

theorem flag_lost :
    ¬ ∀ (env : Surroundings) (req : GatewayRequest) (events : List Published) (event : Published),
      handle env req = .ok events → event ∈ events →
      ∀ clock build, Carried clock build event := by
  intro h
  have hcarried := h quietSurroundings (.thinFileFlag flagRequest) [flagEvent] flagEvent rfl
    mem_cons_self quietClock .kafkaNative
  have hsubscribed := hcarried.subscribed
  revert hsubscribed
  decide

end Bis.Events
