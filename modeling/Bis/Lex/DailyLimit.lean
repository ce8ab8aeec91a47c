import Bis.Lex.Intake
import Bis.Window.Quota

/-!
How many submissions of an officer the rate limit lets through. `CheckRateLimit` counts the
acceptances of a calendar day, and the header of the service promises a limit for 24 hours:
what was accepted within 24 hours and is not in the count of the day makes the difference.

The times of the checks do not run backwards; the checks hold a lock.
-/

namespace Bis.Lex

open Bis.Relation Bis.Transition Bis.Window List Option

def day : Nat := 24 * hour

/-- The limit that the header promises. -/
def promisedPerDay : Nat := 5

/-- What the service answers to a call that comes to the rate limit. -/
def System.rateLimit (s : System) (call : Call) (now : Nat) (db : LimitCarried) : RateLimit :=
  checkRateLimit (s.rateLimits call.content.submitterId (now / day)) call.channel.maxPerDay db

/-- The handler goes on. -/
def Call.letThrough (call : Call) (limit : RateLimit) : Bool :=
  limit.allowed && !(call.channel.mindsError && limit.failed)

/-- A submission that was let through; `counted` if the count has been written. -/
structure Acceptance where
  submitterId : String
  time : Nat
  counted : Bool

/-- The service, with the time of its last check and what its checks have let through. -/
structure LimitedIntake where
  system : System
  clock : Nat
  acceptances : List Acceptance

namespace LimitedIntake

def empty : LimitedIntake := ⟨.empty, 0, []⟩

/-- The call that a check is about. -/
def checked (s : LimitedIntake) (submission : Nat) : Option Call :=
  match lookup Call.submission submission s.system.calls with
  | some ⟨_, channel, content, .verified⟩ => some ⟨submission, channel, content, .verified⟩
  | _ => none

def check (s : LimitedIntake) (system : System) (call : Call) (now : Nat) (db : LimitCarried) :
    LimitedIntake :=
  let limit := s.system.rateLimit call now db
  { system
    clock := now
    acceptances :=
      if call.letThrough limit then
        s.acceptances ++ [⟨call.content.submitterId, now, !limit.failed⟩]
      else s.acceptances }

def step (lib : Library) : Step LimitedIntake Label
  | s, .limit submission now refAt db =>
    if now < s.clock then none
    else
      (s.checked submission).map fun call =>
        s.check (s.system.limit lib call now refAt db) call now db
  | s, a => (System.step lib s.system a).map fun system => { s with system }

def acceptedTimes (s : LimitedIntake) (submitterId : String) : List Nat :=
  (s.acceptances.filter fun a => a.submitterId == submitterId).map Acceptance.time

/-- At most five submissions of an officer are accepted in any 24 hours. -/
def KeepsPromise (s : LimitedIntake) : Prop :=
  ∀ submitterId, Quota day promisedPerDay (s.acceptedTimes submitterId)

end LimitedIntake

/-- It is in the count of the day. -/
def Acceptance.countedOn (a : Acceptance) (date : Nat) : Bool := a.counted && a.time / day == date

namespace LimitedIntake

/-- The officer's acceptances of the last 24 hours that are not in the count of the day. -/
def uncounted (s : LimitedIntake) (submitterId : String) (now : Nat) : Nat :=
  s.acceptances.countP fun a =>
    a.submitterId == submitterId && (decide (now < a.time + day) && !a.countedOn (now / day))

/-- A check that lets a submission through has room for it: with what it does not count, too,
fewer than five were accepted. -/
def HasRoom (s : LimitedIntake) : Label → Prop
  | .limit submission now _ db =>
    ∀ call, s.checked submission = some call →
      call.letThrough (s.system.rateLimit call now db) = true →
      s.system.rateLimits call.content.submitterId (now / day) +
        s.uncounted call.content.submitterId now < promisedPerDay
  | _ => True

end LimitedIntake

/-! ### The count of a day -/

variable {lib : Library}

/-- The count goes up by one exactly for a submission that is let through and counted. -/
theorem count_checkRateLimit (s : System) (call : Call) (now : Nat) (db : LimitCarried) :
    (s.rateLimit call now db).count = s.rateLimits call.content.submitterId (now / day) +
      if call.letThrough (s.rateLimit call now db) && !(s.rateLimit call now db).failed then 1
      else 0 := by
  unfold System.rateLimit
  generalize s.rateLimits call.content.submitterId (now / day) = count
  obtain ⟨read, write⟩ := db
  unfold checkRateLimit
  cases read with
  | false => simp [Call.letThrough]
  | true =>
    by_cases hfull : call.channel.maxPerDay ≤ count
    · simp [hfull, Call.letThrough]
    · cases write with
      | false | true => simp [hfull, Call.letThrough]

/-- The check of the service writes the count and lets the call go on or come back. -/
theorem System.limit_eq (s : System) (call : Call) (now refAt : Nat) (db : LimitCarried) :
    (s.limit lib call now refAt db).rateLimits =
        Function.update s.rateLimits call.content.submitterId
          (Function.update (s.rateLimits call.content.submitterId) (now / day)
            (s.rateLimit call now db).count) ∧
      (call.letThrough (s.rateLimit call now db) = false →
        (s.limit lib call now refAt db).calls = s.finish call.submission) := by
  unfold System.limit System.rateLimit Call.letThrough day
  dsimp only
  split
  next hlet =>
    refine ⟨rfl, ?_⟩
    intro hnot
    rw [hlet] at hnot
    cases hnot
  · exact ⟨rfl, fun _ => rfl⟩

namespace LimitedIntake

variable {s t : LimitedIntake}

/-- Each day's count is that of the acceptances counted on it, and no acceptance lies ahead. -/
structure Counts (s : LimitedIntake) : Prop where
  count : ∀ submitterId date, s.system.rateLimits submitterId date =
    s.acceptances.countP fun a => a.submitterId == submitterId && a.countedOn date
  past : ∀ a ∈ s.acceptances, a.time ≤ s.clock

theorem counts_empty : Counts .empty := ⟨fun _ _ => rfl, nofun⟩

/-- What the log gains by a check. -/
def gained (s : LimitedIntake) (call : Call) (now : Nat) (db : LimitCarried) : List Acceptance :=
  if call.letThrough (s.system.rateLimit call now db) then
    [⟨call.content.submitterId, now, !(s.system.rateLimit call now db).failed⟩]
  else []

theorem acceptances_check (s : LimitedIntake) (system : System) (call : Call) (now : Nat)
    (db : LimitCarried) :
    (s.check system call now db).acceptances = s.acceptances ++ s.gained call now db := by
  unfold check gained
  dsimp only
  split
  · rfl
  · exact (append_nil _).symm

theorem countP_gained (s : LimitedIntake) (call : Call) (now : Nat) (db : LimitCarried)
    (submitterId : String) (date : Nat) :
    (s.gained call now db).countP (fun a => a.submitterId == submitterId && a.countedOn date) =
      if call.content.submitterId = submitterId ∧ now / day = date ∧
        (call.letThrough (s.system.rateLimit call now db) &&
          !(s.system.rateLimit call now db).failed) = true then 1 else 0 := by
  unfold gained Acceptance.countedOn
  generalize s.system.rateLimit call now db = limit
  cases hlet : call.letThrough limit <;> cases hfailed : limit.failed <;>
    simp [countP_singleton]

theorem Counts.check (h : Counts s) (call : Call) {now : Nat} (refAt : Nat) (db : LimitCarried)
    (hnow : s.clock ≤ now) :
    Counts (s.check (s.system.limit lib call now refAt db) call now db) := by
  constructor
  · intro submitterId date
    rw [acceptances_check, countP_append, countP_gained, ← h.count]
    change (s.system.limit lib call now refAt db).rateLimits submitterId date = _
    rw [(System.limit_eq s.system call now refAt db).1]
    by_cases hid : call.content.submitterId = submitterId
    · subst hid
      by_cases hdate : now / day = date
      · subst hdate
        simp [count_checkRateLimit]
      · have hother : date ≠ now / day := fun heq => hdate heq.symm
        simp [hdate, hother]
    · have hother : submitterId ≠ call.content.submitterId := fun heq => hid heq.symm
      simp [hid, hother]
  · intro a ha
    rw [acceptances_check] at ha
    rcases mem_append.mp ha with hold | hnew
    · exact (h.past a hold).trans hnow
    · unfold gained at hnew
      split at hnew
      · cases mem_singleton.mp hnew
        exact Nat.le_refl now
      · cases hnew

theorem rateLimits_send (system : System) (call : Call) (localRef : String) (answer : Answer) :
    (system.send call localRef answer).rateLimits = system.rateLimits := by
  cases answer with
  | ok | refused | lost => rfl

variable {call : Call} {now : Nat} {a : Label} {system after : System}

theorem rateLimits_insert {ended : System} {limits : String → Nat → Nat} {localRef : String}
    {done : Bool} (hsystem : system.rateLimits = limits) (hended : ended.rateLimits = limits) :
    ((system.insert call localRef now done).getD ended).rateLimits = limits := by
  unfold System.insert
  split
  · exact hended
  · exact hsystem

theorem rateLimits_enqueue {done : Bool} (h : system.enqueue call now done = some after) :
    after.rateLimits = system.rateLimits := by
  unfold System.enqueue at h
  dsimp only at h
  split at h
  · cases h
    exact rateLimits_insert rfl rfl
  · cases h
    exact rateLimits_insert rfl rfl
  · cases h

theorem rateLimits_note (system : System) (sub : QueuedSubmission) (now : Nat) (done : Bool)
    (result : Except String String) :
    (system.note sub now done result).rateLimits = system.rateLimits := by
  unfold System.note
  split
  · split
    · rfl
    · rfl
  · split
    · rfl
    · rfl

/-- Only the checks touch the counts. -/
theorem rateLimits_of_step (hother : ∀ submission now refAt db, a ≠ .limit submission now refAt db)
    (hstep : System.step lib system a = some after) : after.rateLimits = system.rateLimits := by
  cases a with
  | pin label =>
    obtain ⟨pins, -, rfl⟩ := map_eq_some_iff.mp hstep
    rfl
  | submit | ping =>
    simp only [System.step] at hstep
    split at hstep
    · cases hstep
      rfl
    · cases hstep
  | limit submission now refAt db => exact absurd rfl (hother submission now refAt db)
  | send submission answer =>
    simp only [System.step] at hstep
    split at hstep
    · cases hstep
      exact rateLimits_send _ _ _ _
    · cases hstep
  | enqueue submission now done =>
    obtain ⟨call, -, hcall⟩ := bind_eq_some_iff.mp hstep
    exact rateLimits_enqueue hcall
  | tick =>
    simp only [System.step] at hstep
    split at hstep
    · cases hstep
      rfl
    · cases hstep
      rfl
    · cases hstep
  | sync answer =>
    simp only [System.step] at hstep
    split at hstep
    · cases hstep
      unfold System.sync
      cases answer with
      | ok | refused | lost => rfl
    · cases hstep
  | note now done =>
    simp only [System.step] at hstep
    split at hstep
    · cases hstep
      exact rateLimits_note _ _ _ _ _
    · cases hstep
  | crash =>
    cases hstep
    rfl

/-- A step is a check of a call, or it leaves the counts and the log. -/
inductive Taken (lib : Library) (s : LimitedIntake) : Label → LimitedIntake → Prop where
  | check {submission now refAt : Nat} {db : LimitCarried} {call : Call} :
      s.clock ≤ now → s.checked submission = some call →
      Taken lib s (.limit submission now refAt db)
        (s.check (s.system.limit lib call now refAt db) call now db)
  | other {a : Label} {system : System} :
      (∀ submission now refAt db, a ≠ .limit submission now refAt db) →
      system.rateLimits = s.system.rateLimits → Taken lib s a { s with system }

theorem taken_of_step (h : step lib s a = some t) : Taken lib s a t := by
  by_cases hlimit : ∃ submission now refAt db, a = .limit submission now refAt db
  · obtain ⟨submission, now, refAt, db, rfl⟩ := hlimit
    simp only [step] at h
    split at h
    · cases h
    next hclock =>
      obtain ⟨call, hcall, rfl⟩ := map_eq_some_iff.mp h
      exact .check (Nat.le_of_not_lt hclock) hcall
  · have hother : ∀ submission now refAt db, a ≠ .limit submission now refAt db := by
      rintro submission now refAt db rfl
      exact hlimit ⟨submission, now, refAt, db, rfl⟩
    have hstep : (System.step lib s.system a).map (fun system => { s with system }) = some t := by
      rw [← h]
      unfold step
      split
      · exact absurd rfl (hother _ _ _ _)
      · rfl
    obtain ⟨system, hsystem, rfl⟩ := map_eq_some_iff.mp hstep
    exact .other hother (rateLimits_of_step hother hsystem)

theorem Counts.step (h : Counts s) (hstep : step lib s a = some t) : Counts t := by
  cases taken_of_step hstep with
  | check hclock hcall => exact h.check _ _ _ hclock
  | other hother hlimits => exact ⟨fun submitterId date => hlimits ▸ h.count submitterId date, h.past⟩

/-! ### The promise -/

theorem acceptedTimes_check (s : LimitedIntake) (system : System) (call : Call) (now : Nat)
    (db : LimitCarried) (submitterId : String) :
    (s.check system call now db).acceptedTimes submitterId =
      s.acceptedTimes submitterId ++
        if call.content.submitterId = submitterId ∧
          call.letThrough (s.system.rateLimit call now db) = true then [now] else [] := by
  unfold acceptedTimes
  rw [acceptances_check, filter_append, map_append]
  congr 1
  unfold gained
  cases hlet : call.letThrough (s.system.rateLimit call now db)
  · simp
  · by_cases hid : call.content.submitterId = submitterId <;> simp [hid]

theorem day_pos : 0 < day := by simp [day, hour, minute, second]

/-- What was accepted within 24 hours is in the count of the day, or it is not. -/
theorem trailing_acceptedTimes (h : Counts s) (submitterId : String) (now : Nat) :
    trailing day now (s.acceptedTimes submitterId) =
      s.system.rateLimits submitterId (now / day) + s.uncounted submitterId now := by
  -- What is counted on this day is not 24 hours old.
  have hcounted : s.system.rateLimits submitterId (now / day) = s.acceptances.countP fun a =>
      (a.submitterId == submitterId && decide (now < a.time + day)) && a.countedOn (now / day) := by
    rw [h.count]
    apply countP_congr
    intro a ha
    have hsame : a.countedOn (now / day) = true → now < a.time + day := by
      intro hon
      exact lt_add_of_div_eq day_pos (by simpa using (Bool.and_eq_true_iff.mp hon).2)
    by_cases hon : a.countedOn (now / day) = true
    · simp [hon, hsame hon]
    · simp [hon]
  have huncounted : s.uncounted submitterId now = s.acceptances.countP fun a =>
      (a.submitterId == submitterId && decide (now < a.time + day)) &&
        !a.countedOn (now / day) := by
    unfold uncounted
    simp only [Bool.and_assoc]
  have htrailing : trailing day now (s.acceptedTimes submitterId) = s.acceptances.countP fun a =>
      a.submitterId == submitterId && decide (now < a.time + day) := by
    unfold trailing acceptedTimes
    rw [countP_map, countP_filter]
    exact countP_congr fun a _ => by rw [Bool.and_comm, Function.comp_apply]
  rw [hcounted, huncounted, htrailing]
  exact (countP_split _ _ s.acceptances).symm

theorem keepsPromise_check_iff (h : Counts s) (hs : s.KeepsPromise) (refAt : Nat)
    (db : LimitCarried) (hnow : s.clock ≤ now) :
    (s.check (s.system.limit lib call now refAt db) call now db).KeepsPromise ↔
      (call.letThrough (s.system.rateLimit call now db) = true →
        s.system.rateLimits call.content.submitterId (now / day) +
          s.uncounted call.content.submitterId now < promisedPerDay) := by
  have htimes : ∀ time ∈ s.acceptedTimes call.content.submitterId, time ≤ now := by
    intro time htime
    obtain ⟨a, ha, rfl⟩ := mem_map.mp htime
    exact (h.past a (mem_filter.mp ha).1).trans hnow
  unfold KeepsPromise
  simp only [acceptedTimes_check]
  constructor
  · intro hall hlet
    have hown := hall call.content.submitterId
    rw [if_pos ⟨rfl, hlet⟩, quota_concat_iff_of_le day_pos htimes,
      trailing_acceptedTimes h] at hown
    exact hown.2
  · intro hroom submitterId
    split
    next hgain =>
      obtain ⟨rfl, hlet⟩ := hgain
      rw [quota_concat_iff_of_le day_pos htimes, trailing_acceptedTimes h]
      exact ⟨hs _, hroom hlet⟩
    · rw [append_nil]
      exact hs submitterId

theorem keepsPromise_step_iff (h : Counts s) (hs : s.KeepsPromise) (hstep : step lib s a = some t) :
    t.KeepsPromise ↔ s.HasRoom a := by
  cases taken_of_step hstep with
  | @check submission now refAt db call hclock hcall =>
    rw [keepsPromise_check_iff h hs refAt db hclock]
    constructor
    · intro hroom call' hcall'
      obtain rfl := some.inj (hcall.symm.trans hcall')
      exact hroom
    · exact fun hroom => hroom call hcall
  | other hother hlimits =>
    have hroom : s.HasRoom a := by
      unfold HasRoom
      split
      · exact absurd rfl (hother _ _ _ _)
      · trivial
    exact iff_of_true hs hroom

theorem rateLimits_le (h : ∀ submitterId date, s.system.rateLimits submitterId date ≤ 10)
    (hstep : step lib s a = some t) (submitterId : String) (date : Nat) :
    t.system.rateLimits submitterId date ≤ 10 := by
  cases taken_of_step hstep with
  | @check _ now refAt db call =>
    have hmax : call.channel.maxPerDay ≤ 10 := by cases call.channel <;> decide
    have hcount : (s.system.rateLimit call now db).count ≤ 10 := by
      have hbefore := h call.content.submitterId (now / day)
      unfold System.rateLimit checkRateLimit
      split_ifs <;> dsimp only <;> omega
    change (s.system.limit lib call now refAt db).rateLimits submitterId date ≤ 10
    rw [(System.limit_eq s.system call now refAt db).1, Function.update_apply]
    split
    · rw [Function.update_apply]
      split
      · exact hcount
      · exact h _ date
    · exact h submitterId date
  | other _ hlimits => exact hlimits ▸ h submitterId date

end LimitedIntake

/-! ### Runs -/

/-- All channels together count and accept ten submissions of an officer in a day. -/
theorem day_limited (lib : Library) (labels : List Label) :
    Always (LimitedIntake.step lib) (fun s => ∀ submitterId date, (s.acceptances.countP fun a =>
      a.submitterId == submitterId && a.countedOn date) ≤ 10) .empty labels := by
  refine Always.mono (I := fun s : LimitedIntake => s.Counts ∧ ∀ submitterId date,
    s.system.rateLimits submitterId date ≤ 10) ?_ (always_of_step labels ?_ ?_)
  · rintro s ⟨h, hle⟩ submitterId date
    exact h.count submitterId date ▸ hle submitterId date
  · rintro s a t ⟨h, hle⟩ ht
    exact ⟨h.step ht, LimitedIntake.rateLimits_le hle ht⟩
  · exact ⟨LimitedIntake.counts_empty, fun _ _ => Nat.zero_le _⟩

/-- No officer has more than five submissions accepted in 24 hours, exactly in the runs whose
checks all leave room for what the count of the day does not have. -/
theorem promise_kept_iff (lib : Library) (labels : List Label) :
    Always (LimitedIntake.step lib) LimitedIntake.KeepsPromise .empty labels ↔
      Meets (LimitedIntake.step lib) LimitedIntake.HasRoom .empty labels :=
  always_iff_meets labels (fun _ _ _ h hstep => h.step hstep)
    (fun _ _ _ h hs hstep => LimitedIntake.keepsPromise_step_iff h hs hstep)
    LimitedIntake.counts_empty fun _ => quota_nil

def officersLibrary : Library := ⟨fun _ => "", String.toUpper⟩

theorem officersMembers_sorted :
    ([("agencyCode", Json.Value.string "NPF"), ("pin", .string "1234"),
      ("submitterId", .string "07")]).Pairwise fun a b => a.1 < b.1 := by
  decide

def officersReport : Input := .submit ⟨_, officersMembers_sorted⟩

/-- An officer with a fresh PIN submits at that time. -/
def submitAt (submission now : Nat) : List Label :=
  [.pin (.issue "07" (pinHash officersLibrary "07" "1234") "NPF" now true),
    .submit officersReport now {}, .limit submission now now {}]

/-- Five submissions in the last second of a day and one in the first of the next. -/
def overMidnight : List Label :=
  (List.range 5).flatMap (fun n => submitAt n (day - second)) ++ submitAt 5 day

theorem overMidnight_breaks_promise : ¬ ∀ (lib : Library) (labels : List Label),
    Always (LimitedIntake.step lib) LimitedIntake.KeepsPromise .empty labels := by
  intro hall
  have hrun : (run (LimitedIntake.step officersLibrary) .empty overMidnight).map
      (fun s => within day (day - second) (s.acceptedTimes "07")) = some 6 := by
    decide
  obtain ⟨s, hs, hcount⟩ := map_eq_some_iff.mp hrun
  have hquota := (hall officersLibrary overMidnight).finish hs "07" (day - second)
  rw [hcount] at hquota
  revert hquota
  decide

end Bis.Lex
