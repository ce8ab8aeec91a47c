import Bis.Lex.Delivery

/-!
What the stored rows tell about a PIN. Nothing in the service looks at a payload, so two
runs on requests that differ in the PIN alone, and whose hashes are the same, go the same
way; and the rows they leave differ just in the payload. The PIN is in it.
-/

namespace Bis.Lex

open Bis.Json Bis.Relation Bis.Transition List

/-! ### Two requests -/

theorem Body.keys_nodup (body : Body) : (body.members.map Prod.fst).Nodup := by
  rw [List.Nodup, pairwise_map]
  apply body.sorted.imp
  intro a b hlt heq
  rw [heq] at hlt
  exact String.lt_irrefl _ hlt

def setPin (pin : String) (m : String × Value) : String × Value := (m.1, .string pin)

theorem setPin_key (pin : String) (m : String × Value) : (setPin pin m).1 = m.1 := rfl

/-- The same request with another PIN. -/
def Body.withPin (body : Body) (pin : String) : Body where
  members := updateWhere (fun m => m.1 == "pin") (setPin pin) body.members
  sorted := by
    have hkeys : (updateWhere (fun m => m.1 == "pin") (setPin pin) body.members).map Prod.fst =
        body.members.map Prod.fst := map_updateWhere (setPin_key pin) body.members
    rw [← pairwise_map, hkeys, pairwise_map]
    exact body.sorted

/-- Two requests that differ in the PIN alone; the text of a message has the PIN in it. -/
inductive SameButPin : Input → Input → Prop
  | submit (body : Body) (pin : String) : SameButPin (.submit body) (.submit (body.withPin pin))
  | sms (form : Form) (pin : String) : SameButPin (.sms form) (.sms { form with pin })
  | gateway (parsed : ParsedSMS) (externalId submittedAt pin rawText : String)
      (htext : parsed.pin = pin → parsed.rawText = rawText) :
      SameButPin (.gateway parsed externalId submittedAt)
        (.gateway { parsed with pin, rawText } externalId submittedAt)

theorem Body.text_withPin (body : Body) {pin key : String} (hkey : key ≠ "pin") :
    (body.withPin pin).text key = body.text key := by
  unfold Body.text Body.withPin
  dsimp only
  rw [lookup_updateWhere (setPin_key pin), if_neg hkey]

variable {body : Body} {input input' : Input}

/-- A request with a PIN has it in one member. -/
theorem Body.lookup_pin (hpin : body.text "pin" ≠ "") :
    lookup Prod.fst "pin" body.members = some ("pin", .string (body.text "pin")) := by
  unfold Body.text at hpin ⊢
  split at hpin
  next key text hfind =>
    obtain ⟨_, hkey⟩ := (lookup_eq_some_iff body.keys_nodup).mp hfind
    obtain rfl : key = "pin" := hkey
    rw [hfind]
  next => exact absurd rfl hpin

theorem Body.text_withPin_pin (hpin : body.text "pin" ≠ "") (pin : String) :
    (body.withPin pin).text "pin" = pin := by
  have hfind := body.lookup_pin hpin
  unfold Body.text Body.withPin
  dsimp only
  rw [lookup_updateWhere (setPin_key pin), if_pos rfl, hfind]
  rfl

theorem Body.withPin_self (hpin : body.text "pin" ≠ "") :
    body.withPin (body.text "pin") = body := by
  have hfind := body.lookup_pin hpin
  have hmembers : (body.withPin (body.text "pin")).members = body.members := by
    unfold Body.withPin updateWhere
    dsimp only
    refine (map_congr_left ?_).trans (map_id _)
    intro m hm
    split
    next hkey =>
      have hmember : m = ("pin", .string (body.text "pin")) := by
        have hsame := (lookup_eq_some_iff body.keys_nodup).mpr ⟨hm, eq_of_beq hkey⟩
        exact Option.some.inj (hsame.symm.trans hfind)
      rw [hmember]
      rfl
    next => rfl
  cases hbody : body.withPin (body.text "pin") with
  | mk members sorted =>
    cases body
    rw [hbody] at hmembers
    cases hmembers
    rfl

theorem payload_inj (h : input.payload = input'.payload) : input.members = input'.members := by
  have htext := String.ofList_injective h
  injection render_injective htext

/-- The payload tells the PIN. -/
theorem SameButPin.payload_iff (h : SameButPin input input') (hcomplete : input.isComplete = true) :
    input.payload = input'.payload ↔ input.pin = input'.pin := by
  cases h with
  | submit body pin =>
    have hpin : body.text "pin" ≠ "" := by
      have hall : (body.text "submitterId" != "" && body.text "agencyCode" != "" &&
        body.text "pin" != "") = true := hcomplete
      exact bne_iff_ne.mp (Bool.and_eq_true_iff.mp hall).2
    change _ ↔ body.text "pin" = (body.withPin pin).text "pin"
    rw [body.text_withPin_pin hpin]
    constructor
    · intro hpayload
      have hmembers : body.members = (body.withPin pin).members := payload_inj hpayload
      have htext := body.text_withPin_pin hpin pin
      unfold Body.text at htext ⊢
      rw [← hmembers] at htext
      exact htext
    · rintro rfl
      rw [body.withPin_self hpin]
  | sms form pin =>
    constructor
    · intro hpayload
      have hmembers := payload_inj hpayload
      simp only [Input.members, List.cons.injEq, Prod.mk.injEq, true_and, and_true,
        Value.string.injEq] at hmembers
      exact hmembers
    · intro hpin
      change form.pin = pin at hpin
      rw [← hpin]
  | gateway parsed externalId submittedAt pin rawText htext =>
    constructor
    · intro hpayload
      have hmembers := payload_inj hpayload
      simp only [Input.members, List.cons.injEq, Prod.mk.injEq, true_and, and_true,
        Value.string.injEq] at hmembers
      exact hmembers.1
    · intro hpin
      change parsed.pin = pin at hpin
      rw [← htext hpin, ← hpin]

/-! ### The payload of one submission replaced -/

section Swap

variable (n : Nat) (payload : String)

def Call.swap (call : Call) : Call :=
  if call.submission = n then { call with content := { call.content with payload } } else call

def Row.swap (row : Row) : Row :=
  if row.submission = n then { row with content := { row.content with payload } } else row

def QueuedSubmission.swap (sub : QueuedSubmission) : QueuedSubmission :=
  if sub.submission = n then { sub with payload } else sub

def Worker.swap : Worker → Worker
  | .idle => .idle
  | .pass subs => .pass (subs.map (QueuedSubmission.swap n payload))
  | .noting sub result subs =>
    .noting (sub.swap n payload) result (subs.map (QueuedSubmission.swap n payload))

def System.swap (s : System) : System :=
  { s with
    rows := s.rows.map (Row.swap n payload)
    calls := s.calls.map (Call.swap n payload)
    worker := s.worker.swap n payload }

end Swap

variable {n : Nat} {payload : String}

theorem Call.swap_submission (call : Call) :
    (call.swap n payload).submission = call.submission := by
  unfold Call.swap
  split <;> rfl

theorem Call.swap_channel (call : Call) : (call.swap n payload).channel = call.channel := by
  unfold Call.swap
  split <;> rfl

theorem Call.swap_stage (call : Call) : (call.swap n payload).stage = call.stage := by
  unfold Call.swap
  split <;> rfl

theorem Call.swap_eq (call : Call) : call.swap n payload =
    ⟨call.submission, call.channel, (call.swap n payload).content, call.stage⟩ := by
  unfold Call.swap
  split <;> rfl

theorem Call.swap_submitterId (call : Call) :
    (call.swap n payload).content.submitterId = call.content.submitterId := by
  unfold Call.swap
  split <;> rfl

theorem Call.swap_agencyCode (call : Call) :
    (call.swap n payload).content.agencyCode = call.content.agencyCode := by
  unfold Call.swap
  split <;> rfl

theorem Call.swap_goOn (call : Call) (stage : Stage) :
    ({ call with stage } : Call).swap n payload =
      { call.swap n payload with stage } := by
  unfold Call.swap
  dsimp only
  split <;> rfl

theorem Row.swap_localRef (row : Row) : (row.swap n payload).localRef = row.localRef := by
  unfold Row.swap
  split <;> rfl

theorem Row.swap_queuedSubmission (row : Row) :
    (row.swap n payload).queuedSubmission = row.queuedSubmission.swap n payload := by
  unfold Row.swap QueuedSubmission.swap
  change (if row.submission = n then _ else _ : Row).queuedSubmission =
    if row.submission = n then _ else _
  split <;> rfl

theorem Row.swap_inQueue (row : Row) : (row.swap n payload).inQueue = row.inQueue := by
  unfold Row.swap
  split <;> rfl

theorem Row.swap_createdAt (row : Row) : (row.swap n payload).createdAt = row.createdAt := by
  unfold Row.swap
  split <;> rfl

theorem swap_goOn (s : System) (call : Call) (stage : Stage) :
    (s.swap n payload).goOn (call.swap n payload) stage = (s.goOn call stage).swap n payload := by
  have hcalls : upsert Call.submission { call.swap n payload with stage }
      (s.calls.map (Call.swap n payload)) =
        (upsert Call.submission { call with stage } s.calls).map (Call.swap n payload) := by
    rw [← Call.swap_goOn]
    exact upsert_map Call.swap_submission _ s.calls
  unfold System.goOn System.swap
  dsimp only
  rw [hcalls]

theorem swap_finish (s : System) (m : Nat) :
    (s.swap n payload).finish m = (s.finish m).map (Call.swap n payload) := by
  unfold System.finish System.swap
  dsimp only
  rw [filter_map]
  congr 1
  apply filter_congr
  intro call _
  exact congrArg (· != m) call.swap_submission

theorem swap_getQueued (rows : List Row) (limit : Nat) :
    getQueued (rows.map (Row.swap n payload)) limit =
      (getQueued rows limit).map (QueuedSubmission.swap n payload) := by
  have hfilter : (rows.map (Row.swap n payload)).filter Row.inQueue =
      (rows.filter Row.inQueue).map (Row.swap n payload) := by
    rw [filter_map]
    congr 1
    apply filter_congr
    intro row _
    exact row.swap_inQueue
  have hsort := map_insertionSort (r := fun a b : Row => a.createdAt ≤ b.createdAt)
    (s := fun a b : Row => a.createdAt ≤ b.createdAt) (Row.swap n payload)
    (rows.filter Row.inQueue)
    (fun a _ b _ => by rw [a.swap_createdAt, b.swap_createdAt])
  unfold getQueued
  rw [hfilter, ← hsort, ← map_take, map_map, map_map]
  apply map_congr_left
  intro row _
  exact row.swap_queuedSubmission

theorem swap_limit (lib : Library) (s : System) (call : Call) (now refAt : Nat)
    (db : LimitCarried) :
    (s.swap n payload).limit lib (call.swap n payload) now refAt db =
      (s.limit lib call now refAt db).swap n payload := by
  have hlimits (limits : String → Nat → Nat) :
      ({ s.swap n payload with rateLimits := limits } : System) =
        ({ s with rateLimits := limits } : System).swap n payload := rfl
  unfold System.limit
  rw [call.swap_submitterId, call.swap_agencyCode, call.swap_channel, call.swap_submission]
  dsimp only
  rw [hlimits, show (s.swap n payload).rateLimits = s.rateLimits from rfl]
  generalize checkRateLimit (s.rateLimits call.content.submitterId (now / (24 * hour)))
    call.channel.maxPerDay db = limit
  split
  next => exact swap_goOn _ call _
  next =>
    rw [swap_finish]
    rfl

theorem swap_send (s : System) (call : Call) (localRef : String) (answer : Answer) :
    (s.swap n payload).send (call.swap n payload) localRef answer =
      (s.send call localRef answer).swap n payload := by
  cases answer with
  | ok bisRef =>
    unfold System.send
    rw [call.swap_submission]
    exact swap_goOn
      { s with
        received := s.received ++ [call.submission]
        handedOver := s.handedOver ++ [call.submission] } call (.delivered localRef bisRef)
  | refused errMsg => exact swap_goOn s call _
  | lost errMsg =>
    unfold System.send
    rw [call.swap_submission]
    exact swap_goOn (s.receiveUnrecorded call.submission) call _

theorem swap_fresh (id : Nat) (call : Call) (localRef : String) (now : Nat) :
    Row.fresh id call.submission localRef (call.swap n payload).content now =
      (Row.fresh id call.submission localRef call.content now).swap n payload := by
  unfold Call.swap Row.swap
  change _ = if call.submission = n then _ else _
  split <;> rfl

theorem swap_insert (s : System) (call : Call) (localRef : String) (now : Nat) (done : Bool) :
    (s.swap n payload).insert (call.swap n payload) localRef now done =
      (s.insert call localRef now done).map (System.swap n payload) := by
  have hany : ((s.rows.map (Row.swap n payload)).any fun row => row.localRef == localRef) =
      s.rows.any fun row => row.localRef == localRef := by
    rw [any_map]
    congr 1
    funext row
    exact congrArg (· == localRef) row.swap_localRef
  unfold System.insert
  change (if !done || (s.rows.map (Row.swap n payload)).any _ then none else some _) = _
  rw [hany]
  split
  next => rfl
  next =>
    rw [call.swap_submission, swap_fresh]
    unfold System.swap
    rw [Option.map_some, map_append]
    rfl

theorem swap_enqueue (s : System) (call : Call) (now : Nat) (done : Bool) :
    (s.swap n payload).enqueue (call.swap n payload) now done =
      (s.enqueue call now done).map (System.swap n payload) := by
  have hended : ({ s.swap n payload with
      calls := (s.swap n payload).finish call.submission } : System) =
        ({ s with calls := s.finish call.submission } : System).swap n payload := by
    rw [swap_finish]
    rfl
  have haccepted : ({ s.swap n payload with
      calls := (s.swap n payload).finish call.submission
      accepted := s.accepted ++ [call.submission] } : System) =
        ({ s with
          calls := s.finish call.submission
          accepted := s.accepted ++ [call.submission] } : System).swap n payload := by
    rw [swap_finish]
    rfl
  unfold System.enqueue
  rw [call.swap_submission, call.swap_stage]
  dsimp only
  cases call.stage with
  | queueing localRef =>
    change some (Option.getD (System.insert { s.swap n payload with
      calls := _, accepted := s.accepted ++ _ } _ _ _ _) _) = _
    rw [haccepted, hended, swap_insert, Option.getD_map]
    rfl
  | delivered localRef bisRef =>
    change some (Option.getD (System.insert { s.swap n payload with
      calls := _, accepted := s.accepted ++ _ } _ _ _ _) { s.swap n payload with
      calls := _, accepted := s.accepted ++ _ }) = _
    rw [haccepted, swap_insert, Option.getD_map]
    rfl
  | _ => rfl

theorem QueuedSubmission.swap_submission (sub : QueuedSubmission) :
    (sub.swap n payload).submission = sub.submission := by
  unfold QueuedSubmission.swap
  split <;> rfl

theorem swap_sync (s : System) (sub : QueuedSubmission) (rest : List QueuedSubmission)
    (answer : Answer) :
    (s.swap n payload).sync (sub.swap n payload) (rest.map (QueuedSubmission.swap n payload))
      answer = (s.sync sub rest answer).swap n payload := by
  unfold System.sync
  rw [sub.swap_submission]
  cases answer <;> rfl

theorem swap_updateWhere (id : Nat) {f : Row → Row}
    (hf : ∀ row, f (row.swap n payload) = (f row).swap n payload) (rows : List Row) :
    updateWhere (fun row => row.id == id) f (rows.map (Row.swap n payload)) =
      (updateWhere (fun row => row.id == id) f rows).map (Row.swap n payload) := by
  unfold updateWhere
  rw [map_map, map_map]
  apply map_congr_left
  intro row _
  have hid : (row.swap n payload).id = row.id := by
    unfold Row.swap
    split <;> rfl
  change (if (row.swap n payload).id == id then f (row.swap n payload) else row.swap n payload) =
    (if row.id == id then f row else row).swap n payload
  rw [hid, hf]
  split <;> rfl

theorem swap_note (s : System) (sub : QueuedSubmission) (now : Nat) (done : Bool)
    (result : Except String String) :
    (s.swap n payload).note (sub.swap n payload) now done result =
      (s.note sub now done result).swap n payload := by
  have hid : (sub.swap n payload).id = sub.id := by
    unfold QueuedSubmission.swap
    split <;> rfl
  have hattempts : (sub.swap n payload).syncAttempts = sub.syncAttempts := by
    unfold QueuedSubmission.swap
    split <;> rfl
  unfold System.note
  rw [sub.swap_submission, hid, hattempts]
  cases result with
  | ok bisRef =>
    cases done with
    | true =>
      have hrows : markSynced (s.rows.map (Row.swap n payload)) sub.id bisRef now =
          (markSynced s.rows sub.id bisRef now).map (Row.swap n payload) := by
        apply swap_updateWhere
        intro row
        unfold Row.swap
        dsimp only
        split <;> rfl
      change ({ s.swap n payload with
        rows := markSynced (s.rows.map (Row.swap n payload)) sub.id bisRef now } : System) = _
      rw [hrows]
      rfl
    | false => rfl
  | error errMsg =>
    cases done with
    | true =>
      have hrows : markFailed (s.rows.map (Row.swap n payload)) sub.id errMsg
          (sub.syncAttempts + 1) =
            (markFailed s.rows sub.id errMsg (sub.syncAttempts + 1)).map
              (Row.swap n payload) := by
        apply swap_updateWhere
        intro row
        unfold Row.swap
        dsimp only
        split <;> rfl
      change ({ s.swap n payload with
        rows := markFailed (s.rows.map (Row.swap n payload)) sub.id errMsg
          (sub.syncAttempts + 1) } : System) = _
      rw [hrows]
      rfl
    | false => rfl

theorem swap_lookup (s : System) (m : Nat) :
    lookup Call.submission m (s.swap n payload).calls =
      (lookup Call.submission m s.calls).map (Call.swap n payload) :=
  lookup_map Call.swap_submission m s.calls

theorem swap_worker (s : System) : (s.swap n payload).worker = s.worker.swap n payload := rfl

/-- Nothing that the service does depends on the payload of a submission. -/
theorem swap_step (lib : Library) {s : System} (hn : n < s.nextSubmission) (a : Label) :
    System.step lib (s.swap n payload) a =
      (System.step lib s a).map (System.swap n payload) := by
  cases a with
  | pin label =>
    change (PinSystem.step s.pins label).map _ = Option.map _ (Option.map _ _)
    rw [Option.map_map]
    rfl
  | submit input now db =>
    unfold System.step
    dsimp only
    split
    next =>
      rw [Option.map_some]
      congr 1
      have hnew : (⟨s.nextSubmission, input.channel, input.content lib, .verified⟩ : Call).swap
          n payload = ⟨s.nextSubmission, input.channel, input.content lib, .verified⟩ :=
        if_neg (Nat.ne_of_gt hn)
      have hcalls (valid : Bool) :
          (if valid then s.calls.map (Call.swap n payload) ++
              [⟨s.nextSubmission, input.channel, input.content lib, .verified⟩]
            else s.calls.map (Call.swap n payload)) =
            (if valid then s.calls ++
              [⟨s.nextSubmission, input.channel, input.content lib, .verified⟩]
            else s.calls).map (Call.swap n payload) := by
        cases valid with
        | true =>
          simp only [if_true, map_append, map_cons, map_nil, hnew]
        | false => rfl
      unfold System.swap
      dsimp only
      rw [← hcalls]
    next => rfl
  | limit m now refAt db =>
    unfold System.step
    dsimp only
    rw [swap_lookup]
    cases hfind : lookup Call.submission m s.calls with
    | none => rfl
    | some call =>
      obtain ⟨sub, channel, content, stage⟩ := call
      obtain rfl : sub = m := by simpa using find?_some hfind
      rw [Option.map_some, Call.swap_eq]
      cases stage with
      | verified =>
        have hcommutes := @swap_limit n payload lib s ⟨sub, channel, content, .verified⟩
          now refAt db
        rw [Call.swap_eq] at hcommutes
        exact congrArg some hcommutes
      | _ => rfl
  | ping m reachable =>
    unfold System.step
    dsimp only
    rw [swap_lookup]
    cases hfind : lookup Call.submission m s.calls with
    | none => rfl
    | some call =>
      obtain ⟨sub, channel, content, stage⟩ := call
      obtain rfl : sub = m := by simpa using find?_some hfind
      rw [Option.map_some, Call.swap_eq]
      cases stage with
      | admitted localRef =>
        have hcommutes := @swap_goOn n payload s ⟨sub, channel, content, .admitted localRef⟩
          (if reachable then .reached localRef else .queueing localRef)
        rw [Call.swap_eq] at hcommutes
        exact congrArg some hcommutes
      | _ => rfl
  | send m answer =>
    unfold System.step
    dsimp only
    rw [swap_lookup]
    cases hfind : lookup Call.submission m s.calls with
    | none => rfl
    | some call =>
      obtain ⟨sub, channel, content, stage⟩ := call
      obtain rfl : sub = m := by simpa using find?_some hfind
      rw [Option.map_some, Call.swap_eq]
      cases stage with
      | reached localRef =>
        have hcommutes := @swap_send n payload s
          ⟨sub, channel, content, .reached localRef⟩ localRef answer
        rw [Call.swap_eq] at hcommutes
        exact congrArg some hcommutes
      | _ => rfl
  | enqueue m now done =>
    unfold System.step
    dsimp only
    rw [swap_lookup]
    cases hfind : lookup Call.submission m s.calls with
    | none => rfl
    | some call => exact swap_enqueue s call now done
  | tick =>
    unfold System.step
    dsimp only
    have hqueue : ({ s.swap n payload with
        worker := .pass (getQueued (s.swap n payload).rows syncBatch) } : System) =
          ({ s with worker := .pass (getQueued s.rows syncBatch) } : System).swap n payload := by
      change ({ s.swap n payload with
        worker := .pass (getQueued (s.rows.map (Row.swap n payload)) syncBatch) } : System) = _
      rw [swap_getQueued]
      rfl
    rw [hqueue]
    rw [swap_worker]
    cases s.worker with
    | idle | noting => rfl
    | pass subs =>
      cases subs with
      | nil | cons => rfl
  | sync answer =>
    unfold System.step
    dsimp only
    rw [swap_worker]
    cases s.worker with
    | pass subs =>
      cases subs with
      | nil => rfl
      | cons sub rest => exact congrArg some (swap_sync s sub rest answer)
    | _ => rfl
  | note now done =>
    unfold System.step
    dsimp only
    rw [swap_worker]
    cases s.worker with
    | noting sub result rest =>
      change some ({ (s.swap n payload).note (sub.swap n payload) now done result with
        worker := .pass (rest.map (QueuedSubmission.swap n payload)) } : System) = _
      rw [swap_note]
      rfl
    | _ => rfl
  | crash =>
    have hhand : (s.worker.swap n payload).hand = s.worker.hand := by
      cases s.worker with
      | noting sub result rest =>
        cases result with
        | ok bisRef => exact congrArg (fun m => [m]) sub.swap_submission
        | error errMsg => rfl
      | _ => rfl
    change some ({ s.swap n payload with
      calls := [], worker := .idle
      unrecorded := s.unrecorded ++ (s.worker.swap n payload).hand } : System) = _
    rw [hhand]
    rfl

theorem step_nextSubmission (lib : Library) {s t : System} {a : Label}
    (ht : System.step lib s a = some t) : s.nextSubmission ≤ t.nextSubmission := by
  cases a with
  | pin label =>
    obtain ⟨pins, _, rfl⟩ := Option.map_eq_some_iff.mp ht
    exact Nat.le_refl _
  | submit input now db =>
    simp only [System.step] at ht
    split at ht
    next =>
      cases ht
      exact Nat.le_succ _
    next => cases ht
  | limit m now refAt db =>
    simp only [System.step] at ht
    split at ht
    next =>
      cases ht
      unfold System.limit
      dsimp only
      split <;> exact Nat.le_refl _
    next => cases ht
  | ping m reachable =>
    simp only [System.step] at ht
    split at ht
    next =>
      cases ht
      exact Nat.le_refl _
    next => cases ht
  | send m answer | sync answer =>
    simp only [System.step] at ht
    split at ht
    next =>
      cases ht
      cases answer <;> exact Nat.le_refl _
    next => cases ht
  | enqueue m now done =>
    obtain ⟨call, _, ht⟩ := Option.bind_eq_some_iff.mp ht
    unfold System.enqueue System.insert at ht
    dsimp only at ht
    split at ht
    next =>
      cases ht
      split <;> exact Nat.le_refl _
    next =>
      cases ht
      split <;> exact Nat.le_refl _
    next => cases ht
  | tick =>
    simp only [System.step] at ht
    split at ht
    next =>
      cases ht
      exact Nat.le_refl _
    next =>
      cases ht
      exact Nat.le_refl _
    next => cases ht
  | note now done =>
    simp only [System.step] at ht
    split at ht
    next sub result rest hworker =>
      cases ht
      cases result <;> cases done <;> exact Nat.le_refl _
    next => cases ht
  | crash =>
    cases ht
    exact Nat.le_refl _

theorem swap_run (lib : Library) {s : System} (hn : n < s.nextSubmission) (labels : List Label) :
    run (System.step lib) (s.swap n payload) labels =
      (run (System.step lib) s labels).map (System.swap n payload) := by
  induction labels generalizing s with
  | nil => rfl
  | cons a rest ih =>
    unfold run
    rw [swap_step lib hn]
    cases hstep : System.step lib s a with
    | none => rfl
    | some t => exact ih (Nat.lt_of_lt_of_le hn (step_nextSubmission lib hstep))

/-! ### The two runs -/

theorem SameButPin.content {lib : Library} (h : SameButPin input input')
    (hhash : pinHash lib input.submitterId input.pin = pinHash lib input'.submitterId input'.pin) :
    input'.content lib = { input.content lib with payload := input'.payload } := by
  unfold Input.content
  rw [← hhash]
  cases h with
  | submit body pin =>
    have hsubmitter : (body.withPin pin).text "submitterId" = body.text "submitterId" :=
      body.text_withPin (by decide)
    have hagency : (body.withPin pin).text "agencyCode" = body.text "agencyCode" :=
      body.text_withPin (by decide)
    simp only [Input.submitterId, Input.agencyCode, hsubmitter, hagency]
  | _ => rfl

theorem SameButPin.channel (h : SameButPin input input') : input'.channel = input.channel := by
  cases h <;> rfl

/-- A request has been looked at, with this outcome. -/
def System.submitted (s : System) (pins : PinSystem) (channel : Channel) (content : Content)
    (valid : Bool) : System :=
  { s with
    pins
    nextSubmission := s.nextSubmission + 1
    calls :=
      if valid then s.calls ++ [⟨s.nextSubmission, channel, content, .verified⟩] else s.calls }

theorem swap_submitted {s : System} (h : Sound s) (pins : PinSystem) (channel : Channel)
    (content : Content) (valid : Bool) (payload : String) :
    (s.submitted pins channel content valid).swap s.nextSubmission payload =
      s.submitted pins channel { content with payload } valid := by
  have hrows : s.rows.map (Row.swap s.nextSubmission payload) = s.rows := by
    refine (map_congr_left ?_).trans (map_id _)
    intro row hrow
    exact if_neg (Nat.ne_of_lt (h.numbered.rowNew row hrow))
  have hcalls : s.calls.map (Call.swap s.nextSubmission payload) = s.calls := by
    refine (map_congr_left ?_).trans (map_id _)
    intro call hcall
    exact if_neg (Nat.ne_of_lt (h.numbered.callNew call hcall))
  have hsub : ∀ sub ∈ s.worker.subs, sub.swap s.nextSubmission payload = sub := by
    intro sub hsub
    obtain ⟨row, hrow, _, hsame, _⟩ := h.linked.row sub hsub
    have hlt := h.numbered.rowNew row hrow
    rw [hsame] at hlt
    exact if_neg (Nat.ne_of_lt hlt)
  have hsubs (subs : List QueuedSubmission) (hall : ∀ sub ∈ subs, sub ∈ s.worker.subs) :
      subs.map (QueuedSubmission.swap s.nextSubmission payload) = subs :=
    (map_congr_left fun sub hin => hsub sub (hall sub hin)).trans (map_id _)
  have hworker : s.worker.swap s.nextSubmission payload = s.worker := by
    cases hw : s.worker with
    | idle => rfl
    | pass subs =>
      rw [hw] at hsubs
      exact congrArg Worker.pass (hsubs subs fun sub hin => hin)
    | noting sub result subs =>
      rw [hw] at hsub hsubs
      change Worker.noting (sub.swap _ _) result (subs.map _) = _
      rw [hsub sub mem_cons_self,
        hsubs subs fun other hin => mem_cons_of_mem _ hin]
  have hnew : (⟨s.nextSubmission, channel, content, .verified⟩ : Call).swap s.nextSubmission
      payload = ⟨s.nextSubmission, channel, { content with payload }, .verified⟩ := if_pos rfl
  unfold System.swap System.submitted
  dsimp only
  rw [hrows, hworker]
  cases valid with
  | true => simp only [if_true, map_append, map_cons, map_nil, hcalls, hnew]
  | false => simp only [Bool.false_eq_true, if_false, hcalls]

theorem rows_swap_iff {rows : List Row} {n : Nat} {payload payload' : String}
    (hown : rows.map (Row.swap n payload) = rows) :
    rows = rows.map (Row.swap n payload') ↔
      (∀ row ∈ rows, row.submission ≠ n) ∨ payload = payload' := by
  have hpayload {payload : String} (hmap : rows.map (Row.swap n payload) = rows) :
      ∀ row ∈ rows, row.submission = n → row.content.payload = payload := by
    intro row hrow hsub
    have hself : row.swap n payload = row :=
      map_eq_map_iff.mp (hmap.trans (map_id rows).symm) row hrow
    rw [Row.swap, if_pos hsub] at hself
    rw [← hself]
  constructor
  · intro hrows
    by_cases hnone : ∀ row ∈ rows, row.submission ≠ n
    · exact .inl hnone
    · simp only [not_forall, ne_eq, not_not] at hnone
      obtain ⟨row, hrow, hsub⟩ := hnone
      exact .inr ((hpayload hown row hrow hsub).symm.trans (hpayload hrows.symm row hrow hsub))
  · rintro (hnone | rfl)
    · refine ((map_congr_left ?_).trans (map_id rows)).symm
      intro row hrow
      exact if_neg (hnone row hrow)
    · exact hown.symm

/-- The rows that two runs leave are equal just where the PINs are, or where the request has
not been stored. -/
theorem stored_rows_equal_iff (lib : Library) (before labels : List Label) {input input' : Input}
    {now : Nat} {db : Carried} {s t t' : System} (hsame : SameButPin input input')
    (hhash : pinHash lib input.submitterId input.pin = pinHash lib input'.submitterId input'.pin)
    (hs : run (System.step lib) .empty before = some s)
    (ht : run (System.step lib) s (.submit input now db :: labels) = some t)
    (ht' : run (System.step lib) s (.submit input' now db :: labels) = some t') :
    t.rows = t'.rows ↔
      (∀ row ∈ t.rows, row.submission ≠ s.nextSubmission) ∨ input.pin = input'.pin := by
  have hsound : Sound s := run_invariant (fun _ _ _ h ha => Sound.step h ha) sound_empty hs
  have hcontent := hsame.content hhash
  obtain ⟨s₁, hs₁, ht⟩ := (run_cons_iff _ _ _ _).mp ht
  obtain ⟨s₂, hs₂, ht'⟩ := (run_cons_iff _ _ _ _).mp ht'
  simp only [System.step] at hs₁ hs₂
  split at hs₁
  next hcomplete =>
    split at hs₂
    next hcomplete' =>
      obtain rfl := Option.some.inj hs₁
      obtain rfl := Option.some.inj hs₂
      rw [hcontent, hsame.channel] at ht'
      have hpayloads := hsame.payload_iff hcomplete
      generalize hv : (s.pins.verification (input.content lib).submitterId
        (input.content lib).pinHash now db).result.valid = valid at ht ht'
      generalize hpins : s.pins.verify (input.content lib).submitterId
        (input.content lib).pinHash now db = pins at ht ht'
      -- Each run is the first one with the payload replaced.
      have hlt : s.nextSubmission <
          (s.submitted pins input.channel (input.content lib) valid).nextSubmission :=
        Nat.lt_succ_self _
      have hown : t.swap s.nextSubmission input.payload = t := by
        have hrun := @swap_run s.nextSubmission input.payload lib _ hlt labels
        rw [swap_submitted hsound] at hrun
        exact (Option.some.inj ((ht.symm.trans hrun).trans
          (congrArg (Option.map _) ht))).symm
      have hother : t' = t.swap s.nextSubmission input'.payload := by
        have hrun := @swap_run s.nextSubmission input'.payload lib _ hlt labels
        rw [swap_submitted hsound] at hrun
        exact Option.some.inj ((ht'.symm.trans hrun).trans (congrArg (Option.map _) ht))
      have hrows : t.rows.map (Row.swap s.nextSubmission input.payload) = t.rows :=
        congrArg System.rows hown
      rw [hother, ← hpayloads]
      exact rows_swap_iff hrows
    next => cases hs₂
  next => cases hs₁

/-! ### One report with two PINs -/

def reportForm : Form where
  submitterId := "07"
  agencyCode := "NPF"
  pin := "1234"
  incidentType := "theft"
  state := "lagos"
  narrative := "x"

def reportInput : Input := .sms reportForm
def otherInput : Input := .sms { reportForm with pin := "9876" }

def issuedRun : List Label := [.pin (.issue "07" (pinHash library "07" "1234") "NPF" 0 true)]
def storedRun : List Label := [.limit 0 2 2 {}, .enqueue 0 3 true]

theorem report_rows : ∃ s t t', run (System.step library) .empty issuedRun = some s ∧
    run (System.step library) s (.submit reportInput 1 {} :: storedRun) = some t ∧
    run (System.step library) s (.submit otherInput 1 {} :: storedRun) = some t' ∧
    (t.rows = t'.rows ↔ (∀ row ∈ t.rows, row.submission ≠ s.nextSubmission) ∨
      reportInput.pin = otherInput.pin) := by
  have hruns : (run (System.step library) .empty
        (issuedRun ++ .submit reportInput 1 {} :: storedRun)).isSome = true ∧
      (run (System.step library) .empty
        (issuedRun ++ .submit otherInput 1 {} :: storedRun)).isSome = true := by
    decide
  obtain ⟨t, ht⟩ := Option.isSome_iff_exists.mp hruns.1
  obtain ⟨t', ht'⟩ := Option.isSome_iff_exists.mp hruns.2
  obtain ⟨s, hs, ht⟩ := (run_append_iff _ _ _ _).mp ht
  obtain ⟨s', hs', ht'⟩ := (run_append_iff _ _ _ _).mp ht'
  obtain rfl := Option.some.inj (hs.symm.trans hs')
  exact ⟨s, t, t', hs, ht, ht',
    stored_rows_equal_iff library issuedRun storedRun (.sms reportForm "9876") rfl hs ht ht'⟩

/-- Two reports that differ in the PIN, under one hash, leave different rows. -/
theorem rows_tell_pin :
    ¬ ∀ (lib : Library) (before labels : List Label) (input input' : Input) (now : Nat)
      (db : Carried) (s t t' : System), SameButPin input input' →
      pinHash lib input.submitterId input.pin = pinHash lib input'.submitterId input'.pin →
      run (System.step lib) .empty before = some s →
      run (System.step lib) s (.submit input now db :: labels) = some t →
      run (System.step lib) s (.submit input' now db :: labels) = some t' → t.rows = t'.rows := by
  intro hall
  have hview : ((run (System.step library) .empty
      (issuedRun ++ .submit reportInput 1 {} :: storedRun)).bind fun t =>
        (run (System.step library) .empty
          (issuedRun ++ .submit otherInput 1 {} :: storedRun)).map fun t' =>
            decide (t.rows.map (fun row => row.content.payload) =
              t'.rows.map fun row => row.content.payload)) = some false := by
    decide +kernel
  obtain ⟨t, ht, hview⟩ := Option.bind_eq_some_iff.mp hview
  obtain ⟨t', ht', hview⟩ := Option.map_eq_some_iff.mp hview
  obtain ⟨s, hs, ht⟩ := (run_append_iff _ _ _ _).mp ht
  obtain ⟨s', hs', ht'⟩ := (run_append_iff _ _ _ _).mp ht'
  obtain rfl := Option.some.inj (hs.symm.trans hs')
  have hrows := hall library issuedRun storedRun reportInput otherInput 1 {} s t t'
    (.sms reportForm "9876") rfl hs ht ht'
  rw [hrows] at hview
  exact of_decide_eq_false hview rfl

end Bis.Lex
