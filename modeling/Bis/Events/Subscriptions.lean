import Bis.Json.Syntax
import Bis.Transition.Run

/-!
The subscriptions of the event processor. Its map changes at once; what is stored is left to
tasks that run in any order. A subscription that is deleted before its row is inserted is
stored as a live one and comes back after a restart. Where no row is deactivated while its
insertion is still to come, a restart restores what the map held.
-/

namespace Bis.Events

open Bis.Transition Json List Function

/-! ### Rows -/

inductive EventType where
  | investigationCreated | investigationFlagged | investigationCompleted
  | kycCompleted | kycFailed
  | alertTriggered | alertAcknowledged
  | sanctionsHit | pepDetected
  | fieldTaskDispatched | fieldTaskCompleted
  | reportGenerated | userLogin | apiKeyRotated
  | biometricLivenessChecked | biometricActiveLivenessChecked | biometricFaceMatched
  | biometricAntiSpoofingChecked | biometricFullVerification | biometricEnrolled
  | biometricRevoked
  | insiderThreatAlert | privilegedAccessUsed | dataExfiltrationSuspected
  | anomalousHourAccess | privilegeEscalation
  | accessReviewRequired | accessReviewCompleted | deadManSwitchTriggered
  deriving DecidableEq

/-- `SCREAMING_SNAKE_CASE`. -/
def eventTypes : List (EventType × String) :=
  [(.investigationCreated, "INVESTIGATION_CREATED"),
    (.investigationFlagged, "INVESTIGATION_FLAGGED"),
    (.investigationCompleted, "INVESTIGATION_COMPLETED"),
    (.kycCompleted, "KYC_COMPLETED"), (.kycFailed, "KYC_FAILED"),
    (.alertTriggered, "ALERT_TRIGGERED"), (.alertAcknowledged, "ALERT_ACKNOWLEDGED"),
    (.sanctionsHit, "SANCTIONS_HIT"), (.pepDetected, "PEP_DETECTED"),
    (.fieldTaskDispatched, "FIELD_TASK_DISPATCHED"),
    (.fieldTaskCompleted, "FIELD_TASK_COMPLETED"),
    (.reportGenerated, "REPORT_GENERATED"), (.userLogin, "USER_LOGIN"),
    (.apiKeyRotated, "API_KEY_ROTATED"),
    (.biometricLivenessChecked, "BIOMETRIC_LIVENESS_CHECKED"),
    (.biometricActiveLivenessChecked, "BIOMETRIC_ACTIVE_LIVENESS_CHECKED"),
    (.biometricFaceMatched, "BIOMETRIC_FACE_MATCHED"),
    (.biometricAntiSpoofingChecked, "BIOMETRIC_ANTI_SPOOFING_CHECKED"),
    (.biometricFullVerification, "BIOMETRIC_FULL_VERIFICATION"),
    (.biometricEnrolled, "BIOMETRIC_ENROLLED"), (.biometricRevoked, "BIOMETRIC_REVOKED"),
    (.insiderThreatAlert, "INSIDER_THREAT_ALERT"),
    (.privilegedAccessUsed, "PRIVILEGED_ACCESS_USED"),
    (.dataExfiltrationSuspected, "DATA_EXFILTRATION_SUSPECTED"),
    (.anomalousHourAccess, "ANOMALOUS_HOUR_ACCESS"),
    (.privilegeEscalation, "PRIVILEGE_ESCALATION"),
    (.accessReviewRequired, "ACCESS_REVIEW_REQUIRED"),
    (.accessReviewCompleted, "ACCESS_REVIEW_COMPLETED"),
    (.deadManSwitchTriggered, "DEAD_MAN_SWITCH_TRIGGERED")]

inductive Severity where
  | info | low | medium | high | critical
  deriving DecidableEq

def severities : List (Severity × String) :=
  [(.info, "info"), (.low, "low"), (.medium, "medium"), (.high, "high"), (.critical, "critical")]

section

variable {α : Type} [DecidableEq α]

/-- The name under which a variant is serialised. -/
def serialize (names : List (α × String)) (variant : α) : String :=
  ((names.find? (·.1 = variant)).map Prod.snd).getD ""

/-- A variant without fields is its name, or an object of the name and null. -/
def deserialize (names : List (α × String)) : Value → Option α
  | .string text => (names.find? (·.2 = text)).map Prod.fst
  | .object [(text, .null)] => (names.find? (·.2 = text)).map Prod.fst
  | _ => none

end

structure Subscription where
  (id subscriberUrl : String)
  eventTypes : List EventType
  minSeverity : Severity
  active : Bool
  deriving DecidableEq

structure SubscriptionRow where
  subscriberUrl : String
  eventTypes : Value
  minSeverity : String
  active : Bool

def Subscription.row (sub : Subscription) : SubscriptionRow where
  subscriberUrl := sub.subscriberUrl
  eventTypes := .array (sub.eventTypes.map fun kind => .string (serialize Events.eventTypes kind))
  minSeverity := serialize severities sub.minSeverity
  active := sub.active

def deserializeList : Value → Option (List EventType)
  | .array kinds => kinds.mapM (deserialize eventTypes)
  | _ => none

def SubscriptionRow.subscription (id : String) (row : SubscriptionRow) : Option Subscription := do
  let eventTypes ← deserializeList row.eventTypes
  let minSeverity ←
    (Json.read none ('"' :: row.minSeverity.toList ++ ['"'])).bind (deserialize severities)
  return ⟨id, row.subscriberUrl, eventTypes, minSeverity, row.active⟩

/-! ### The processor -/

inductive DbTask where
  | insert (sub : Subscription)
  | deactivate (id : String)
  deriving DecidableEq

def DbTask.id : DbTask → String
  | .insert sub => sub.id
  | .deactivate id => id

/-- The map, the table and the tasks that have not run. -/
structure SubscriptionState where
  subscriptions : String → Option Subscription
  table : String → Option SubscriptionRow
  tasks : List DbTask

def loadSubscriptions (table : String → Option SubscriptionRow) (id : String) :
    Option Subscription :=
  ((table id).filter SubscriptionRow.active).bind (SubscriptionRow.subscription id)

/-- A subscription that is registered has a URL that was approved and a UUID that was not
drawn before. -/
inductive SubscriptionStep where
  | subscribe (id subscriberUrl : String) (eventTypes : List EventType) (minSeverity : Severity)
  | deleteSubscription (id : String)
  | perform (task : DbTask)

def SubscriptionState.perform (s : SubscriptionState) : DbTask → SubscriptionState
  | .insert sub => { s with table := update s.table sub.id (some sub.row) }
  | .deactivate id =>
    { s with
      table := update s.table id ((s.table id).map fun row =>
        { row with active := false }) }

def subscriptionStep : Step SubscriptionState SubscriptionStep
  | s, .subscribe id subscriberUrl eventTypes minSeverity =>
    if (s.table id).isNone ∧ id ∉ s.tasks.map DbTask.id then
      let sub := ⟨id, subscriberUrl, eventTypes, minSeverity, true⟩
      some { s with
        subscriptions := update s.subscriptions id (some sub)
        tasks := .insert sub :: s.tasks }
    else none
  | s, .deleteSubscription id =>
    if (s.subscriptions id).isSome then
      some { s with
        subscriptions := update s.subscriptions id none
        tasks := .deactivate id :: s.tasks }
    else some s
  | s, .perform task =>
    if task ∈ s.tasks then
      some { s.perform task with tasks := s.tasks.erase task }
    else none

/-- The processor has started on this table. -/
def SubscriptionState.start (table : String → Option SubscriptionRow) : SubscriptionState :=
  ⟨loadSubscriptions table, table, []⟩

/-- Once all tasks have run, a restart restores the map. -/
def Restores (s : SubscriptionState) : Prop :=
  s.tasks = [] → ∀ id, loadSubscriptions s.table id = s.subscriptions id

/-- No row is deactivated while its insertion is still to come. -/
def InOrder (s : SubscriptionState) : SubscriptionStep → Prop
  | .perform (.deactivate id) => ∀ sub, .insert sub ∈ s.tasks → sub.id ≠ id
  | _ => True

/-! ### The round trip -/

theorem deserialize_eventType (kind : EventType) :
    deserialize eventTypes (.string (serialize eventTypes kind)) = some kind := by
  cases kind <;> decide

theorem deserialize_severity (severity : Severity) :
    (Json.read none ('"' :: (serialize severities severity).toList ++ ['"'])).bind
      (deserialize severities) = some severity := by
  cases severity <;> decide

theorem read_row (sub : Subscription) : sub.row.subscription sub.id = some sub := by
  have hkinds : deserializeList sub.row.eventTypes = some sub.eventTypes := by
    change (sub.eventTypes.map _).mapM (deserialize eventTypes) = some sub.eventTypes
    induction sub.eventTypes with
    | nil => rfl
    | cons kind rest ih =>
      rw [map_cons, mapM_cons, deserialize_eventType, ih]
      rfl
  unfold SubscriptionRow.subscription
  rw [hkinds]
  change ((read none _).bind (deserialize severities)).bind _ = some sub
  rw [show sub.row.minSeverity = serialize severities sub.minSeverity from rfl,
    deserialize_severity]
  rfl

theorem load_insert {table : String → Option SubscriptionRow} {sub : Subscription}
    (hactive : sub.active = true) :
    loadSubscriptions (update table sub.id (some sub.row)) sub.id = some sub := by
  unfold loadSubscriptions
  rw [update_self, Option.filter_some, if_pos (by exact hactive), Option.bind_some,
    read_row]

theorem load_deactivate (table : String → Option SubscriptionRow) (id : String) :
    loadSubscriptions (update table id ((table id).map fun row =>
      { row with active := false })) id = none := by
  unfold loadSubscriptions
  rw [update_self]
  cases table id <;> rfl

theorem load_congr {table table' : String → Option SubscriptionRow} {id : String}
    (h : table id = table' id) : loadSubscriptions table id = loadSubscriptions table' id := by
  unfold loadSubscriptions
  rw [h]

/-! ### The invariant -/

/-- What is live is stored or about to be, and what is not live is not stored or about to be
deactivated. -/
structure Kept (s : SubscriptionState) : Prop where
  active : ∀ sub, .insert sub ∈ s.tasks → sub.active = true
  live : ∀ id sub, s.subscriptions id = some sub → .deactivate id ∉ s.tasks ∧
    (∀ other, .insert other ∈ s.tasks → other.id = id → other = sub) ∧
    (.insert sub ∈ s.tasks ∧ sub.id = id ∨ loadSubscriptions s.table id = some sub)
  gone : ∀ id, s.subscriptions id = none → .deactivate id ∈ s.tasks ∨
    loadSubscriptions s.table id = none ∧ ∀ sub, .insert sub ∈ s.tasks → sub.id ≠ id

variable {s t : SubscriptionState}

theorem Kept.subscribe (h : Kept s) {sub : Subscription} (hactive : sub.active = true)
    (htasks : sub.id ∉ s.tasks.map DbTask.id) :
    Kept { s with
      subscriptions := update s.subscriptions sub.id (some sub)
      tasks := .insert sub :: s.tasks } where
  active other hother := by
    rcases mem_cons.mp hother with heq | hother
    · cases heq
      exact hactive
    · exact h.active other hother
  live id other hlive := by
    dsimp only at hlive ⊢
    by_cases hid : id = sub.id
    · subst hid
      rw [update_self] at hlive
      cases hlive
      refine ⟨fun hmem => ?_, fun other hmem hother => ?_, Or.inl ⟨mem_cons_self, rfl⟩⟩
      · rcases mem_cons.mp hmem with heq | hmem
        · cases heq
        · exact htasks (mem_map_of_mem hmem)
      · rcases mem_cons.mp hmem with heq | hmem
        · cases heq
          rfl
        · exact absurd (hother ▸ mem_map_of_mem hmem) htasks
    · rw [update_of_ne hid] at hlive
      obtain ⟨hno, hunique, hwhere⟩ := h.live id other hlive
      refine ⟨fun hmem => hno ((mem_cons.mp hmem).resolve_left nofun),
        fun third hmem hthird => ?_,
        hwhere.imp_left fun hmem => ⟨mem_cons_of_mem _ hmem.1, hmem.2⟩⟩
      rcases mem_cons.mp hmem with heq | hmem
      · cases heq
        exact absurd hthird.symm hid
      · exact hunique third hmem hthird
  gone id hgone := by
    dsimp only at hgone ⊢
    have hid : id ≠ sub.id := by
      rintro rfl
      rw [update_self] at hgone
      cases hgone
    rw [update_of_ne hid] at hgone
    refine (h.gone id hgone).imp (mem_cons_of_mem _) fun hnone => ⟨hnone.1, ?_⟩
    intro other hmem
    rcases mem_cons.mp hmem with heq | hmem
    · cases heq
      exact hid.symm
    · exact hnone.2 other hmem

theorem Kept.delete (h : Kept s) (id : String) :
    Kept { s with
      subscriptions := update s.subscriptions id none
      tasks := .deactivate id :: s.tasks } where
  active other hother := h.active other ((mem_cons.mp hother).resolve_left nofun)
  live other sub hlive := by
    dsimp only at hlive ⊢
    have hid : other ≠ id := by
      rintro rfl
      rw [update_self] at hlive
      cases hlive
    rw [update_of_ne hid] at hlive
    obtain ⟨hno, hunique, hwhere⟩ := h.live other sub hlive
    refine ⟨fun hmem => ?_,
      fun third hmem => hunique third ((mem_cons.mp hmem).resolve_left nofun),
      hwhere.imp_left fun hmem => ⟨mem_cons_of_mem _ hmem.1, hmem.2⟩⟩
    rcases mem_cons.mp hmem with heq | hmem
    · cases heq
      exact hid rfl
    · exact hno hmem
  gone other hgone := by
    dsimp only at hgone ⊢
    by_cases hid : other = id
    · subst hid
      exact Or.inl mem_cons_self
    · rw [update_of_ne hid] at hgone
      exact (h.gone other hgone).imp (mem_cons_of_mem _) fun hnone =>
        ⟨hnone.1, fun sub hmem => hnone.2 sub ((mem_cons.mp hmem).resolve_left nofun)⟩

theorem Kept.insert (h : Kept s) {added : Subscription} (htask : .insert added ∈ s.tasks) :
    Kept { s.perform (.insert added) with tasks := s.tasks.erase (.insert added) } where
  active other hother := h.active other (mem_of_mem_erase hother)
  live id sub hlive := by
    obtain ⟨hno, hunique, hwhere⟩ := h.live id sub hlive
    refine ⟨fun hmem => hno (mem_of_mem_erase hmem),
      fun other hmem => hunique other (mem_of_mem_erase hmem), ?_⟩
    by_cases hid : added.id = id
    · obtain rfl := hunique added htask hid
      subst hid
      exact Or.inr (load_insert (h.active added htask))
    · refine hwhere.imp (fun hmem => ⟨(mem_erase_of_ne ?_).mpr hmem.1, hmem.2⟩) fun hload => ?_
      · intro heq
        cases heq
        exact hid hmem.2
      · exact (load_congr (update_of_ne (Ne.symm hid) _ _)).trans hload
  gone id hgone := by
    refine (h.gone id hgone).imp (fun hmem => (mem_erase_of_ne (by simp)).mpr hmem)
      fun hnone => ⟨?_, ?_⟩
    · have hid := hnone.2 added htask
      exact (load_congr (update_of_ne (Ne.symm hid) _ _)).trans hnone.1
    · exact fun sub hmem => hnone.2 sub (mem_of_mem_erase hmem)

theorem Kept.deactivate (h : Kept s) {id : String} (htask : .deactivate id ∈ s.tasks)
    (horder : InOrder s (.perform (.deactivate id))) :
    Kept { s.perform (.deactivate id) with tasks := s.tasks.erase (.deactivate id) } where
  active other hother := h.active other (mem_of_mem_erase hother)
  live other sub hlive := by
    obtain ⟨hno, hunique, hwhere⟩ := h.live other sub hlive
    have hid : other ≠ id := by
      rintro rfl
      exact hno htask
    refine ⟨fun hmem => hno (mem_of_mem_erase hmem),
      fun third hmem => hunique third (mem_of_mem_erase hmem),
      hwhere.imp (fun hmem => ⟨(mem_erase_of_ne (by simp)).mpr hmem.1, hmem.2⟩) fun hload => ?_⟩
    exact (load_congr (update_of_ne hid _ _)).trans hload
  gone other hgone := by
    by_cases hid : other = id
    · subst hid
      exact Or.inr ⟨load_deactivate s.table other,
        fun sub hmem => horder sub (mem_of_mem_erase hmem)⟩
    · refine (h.gone other hgone).imp (fun hmem => (mem_erase_of_ne ?_).mpr hmem)
        fun hnone => ⟨?_, fun sub hmem => hnone.2 sub (mem_of_mem_erase hmem)⟩
      · intro heq
        cases heq
        exact hid rfl
      · exact (load_congr (update_of_ne hid _ _)).trans hnone.1

theorem Kept.step (h : Kept s) {a : SubscriptionStep} (horder : InOrder s a)
    (hstep : subscriptionStep s a = some t) : Kept t := by
  cases a with
  | subscribe id subscriberUrl eventTypes minSeverity =>
    simp only [subscriptionStep] at hstep
    split at hstep
    next hfresh =>
      cases hstep
      exact @Kept.subscribe s h ⟨id, subscriberUrl, eventTypes, minSeverity, true⟩ rfl hfresh.2
    next => cases hstep
  | deleteSubscription id =>
    simp only [subscriptionStep] at hstep
    split at hstep
    next =>
      cases hstep
      exact h.delete id
    next =>
      cases hstep
      exact h
  | perform task =>
    simp only [subscriptionStep] at hstep
    split at hstep
    next htask =>
      cases hstep
      cases task with
      | insert sub => exact h.insert htask
      | deactivate id => exact h.deactivate htask horder
    next => cases hstep

theorem kept_start (table : String → Option SubscriptionRow) :
    Kept (SubscriptionState.start table) :=
  ⟨nofun, fun _ _ hlive => ⟨nofun, nofun, Or.inr hlive⟩, fun _ hgone => Or.inr ⟨hgone, nofun⟩⟩

theorem Kept.restores (h : Kept s) : Restores s := by
  intro htasks id
  cases hmap : s.subscriptions id with
  | none =>
    rcases h.gone id hmap with hmem | hnone
    · rw [htasks] at hmem
      cases hmem
    · exact hnone.1
  | some sub =>
    rcases (h.live id sub hmap).2.2 with hmem | hload
    · rw [htasks] at hmem
      cases hmem.1
    · exact hload

/-- Where no row is deactivated before it is inserted, a restart restores the map. -/
theorem subscriptions_restored (table : String → Option SubscriptionRow)
    (labels : List SubscriptionStep)
    (h : Meets subscriptionStep InOrder (SubscriptionState.start table) labels) :
    Always subscriptionStep Restores (SubscriptionState.start table) labels :=
  (always_of_meets (fun _ _ _ hkept horder hstep => hkept.step horder hstep)
    (kept_start table) h).mono fun _ hkept => hkept.restores

/-! A subscription that is deleted at once, with its tasks in either order. -/

def shortLived : Subscription := ⟨"7", "https://siem.example/events", [.sanctionsHit], .high, true⟩

def registered : List SubscriptionStep :=
  [.subscribe "7" "https://siem.example/events" [.sanctionsHit] .high, .deleteSubscription "7"]

theorem shortLived_restored :
    Always subscriptionStep Restores (SubscriptionState.start fun _ => none)
      (registered ++ [.perform (.insert shortLived), .perform (.deactivate "7")]) :=
  subscriptions_restored (fun _ => none) _ <| .cons rfl trivial <| .cons rfl trivial <|
    .cons rfl trivial <| .cons rfl
      (fun sub hmem => absurd (show DbTask.insert sub ∈ [.deactivate "7"] from hmem) (by simp))
      trivial

theorem shortLived_comes_back : ¬ ∀ (table : String → Option SubscriptionRow)
    (labels : List SubscriptionStep),
    Always subscriptionStep Restores (SubscriptionState.start table) labels := by
  intro h
  obtain ⟨finish, hrun, htasks, hback⟩ : ∃ finish, run subscriptionStep
      (SubscriptionState.start fun _ => none)
      (registered ++ [.perform (.deactivate "7"), .perform (.insert shortLived)]) = some finish ∧
        finish.tasks = [] ∧ loadSubscriptions finish.table "7" ≠ finish.subscriptions "7" :=
    ⟨_, rfl, rfl, by decide⟩
  exact hback ((h _ _).finish hrun htasks "7")

end Bis.Events
