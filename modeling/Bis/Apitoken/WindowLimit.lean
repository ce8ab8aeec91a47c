import Bis.Apitoken.RateLimit
import Bis.Encoding.Framing
import Bis.Window.Quota
import Mathlib.Data.List.Perm.Subperm

/-!
When the sliding window keeps the limit of its token. Two requests that read the clock in the
same millisecond add one member between them and count as one. Where every request has a
reading of its own, Redis answers, and nothing is dropped that an earlier request is still to
count, no window of a minute has more admitted requests than the limit.
-/

namespace Bis.Apitoken

open Bis.Encoding Bis.Relation Bis.Transition Bis.Window List

def Stage.count? : Stage → Option Nat
  | .trimming | .adding | .counting => none
  | .expiring count | .executed count => some count

/-- Two readings lie in one window. -/
def Near (time other : Nat) : Prop := time < other + window ∧ other < time + window

instance (time other : Nat) : Decidable (Near time other) := inferInstanceAs (Decidable (_ ∧ _))

namespace System

/-- What the next command of the request finds expired or trims. -/
def takesAway (s : System) (r : Request) : List Element :=
  s.key.set.elements.filter fun e =>
    s.key.expired s.clock || (r.stage == .trimming && decide (e.score + window ≤ r.now))

/-- The element is a minute old, and no request that is still to be counted lies within a
minute of it. -/
def Spent (s : System) (e : Element) : Prop :=
  e.score + window ≤ s.clock ∧
    ∀ r ∈ s.requests, r.stage.count? = none → ¬ Near r.now e.score

instance (s : System) (e : Element) : Decidable (s.Spent e) := inferInstanceAs (Decidable (_ ∧ _))

/-- A request reads the clock in a millisecond of its own, a command drops only what is spent,
and Redis answers. -/
def Orderly (s : System) : Label → Prop
  | .elapse _ | .answer _ => True
  | .arrive _ => s.clock ∉ s.readings
  | .command id => ∀ r ∈ lookup Request.id id s.requests, ∀ e ∈ s.takesAway r, s.Spent e
  | .fail _ => False

instance (s : System) : (a : Label) → Decidable (s.Orderly a)
  | .elapse _ => isTrue trivial
  | .answer _ => isTrue trivial
  | .arrive _ => inferInstanceAs (Decidable (¬ _))
  | .command id => inferInstanceAs (Decidable
      (∀ r ∈ lookup Request.id id s.requests, ∀ e ∈ s.takesAway r, s.Spent e))
  | .fail _ => isFalse id

end System

/-! ### The readings -/

/-- The requests and the readings, without the key. -/
structure Ledger (limit : Nat) (s : System) : Prop where
  ids : (s.requests.map Request.id).Nodup
  nows : (s.requests.map Request.now).Nodup
  read : ∀ r ∈ s.requests, r.now ∈ s.readings
  past : ∀ time ∈ s.readings, time ≤ s.clock
  grantedRead : ∀ time ∈ s.granted, time ∈ s.readings
  grantedOnce : s.granted.Nodup
  fresh : ∀ r ∈ s.requests, r.stage.count? = none → r.now ∉ s.granted
  counted : ∀ r ∈ s.requests, ∀ count, r.stage.count? = some count → count ≤ limit →
    r.now ∈ s.granted
  admittedOnce : s.admitted.Nodup
  admittedGranted : ∀ time ∈ s.admitted, time ∈ s.granted
  unanswered : ∀ r ∈ s.requests, r.now ∉ s.admitted

variable {limit : Nat} {s t : System}

theorem ledger_empty : Ledger limit .empty := by
  refine ⟨nodup_nil, nodup_nil, ?_, ?_, ?_, nodup_nil, ?_, ?_, nodup_nil,
    ?_, ?_⟩ <;> exact nofun

theorem Ledger.elapse (h : Ledger limit s) (milliseconds : Nat) :
    Ledger limit { s with clock := s.clock + milliseconds } :=
  { h with past := fun time htime => Nat.le_add_right_of_le (h.past time htime) }

theorem Ledger.arrive (h : Ledger limit s) {id : Nat} (hid : id ∉ s.requests.map Request.id)
    (hclock : s.clock ∉ s.readings) :
    Ledger limit { s with
      requests := s.requests ++ [⟨id, s.clock, .trimming, true⟩]
      readings := s.readings ++ [s.clock] } where
  ids := by
    rw [map_append]
    exact nodup_append_fresh h.ids hid
  nows := by
    rw [map_append]
    refine nodup_append_fresh h.nows ?_
    intro hmem
    obtain ⟨r, hr, heq⟩ := mem_map.mp hmem
    have hread := h.read r hr
    rw [heq] at hread
    exact hclock hread
  read := by
    intro r hr
    rcases mem_concat.mp hr with hold | rfl
    · exact mem_append_left _ (h.read r hold)
    · exact mem_append_right _ (mem_singleton_self _)
  past := by
    intro time htime
    rcases mem_concat.mp htime with hold | rfl
    · exact h.past time hold
    · exact Nat.le_refl _
  grantedRead := fun time htime => mem_append_left _ (h.grantedRead time htime)
  grantedOnce := h.grantedOnce
  fresh := by
    intro r hr hstage
    rcases mem_concat.mp hr with hold | rfl
    · exact h.fresh r hold hstage
    · exact fun hgranted => hclock (h.grantedRead _ hgranted)
  counted := by
    intro r hr count hcount
    rcases mem_concat.mp hr with hold | rfl
    · exact h.counted r hold count hcount
    · cases hcount
  admittedOnce := h.admittedOnce
  admittedGranted := h.admittedGranted
  unanswered := by
    intro r hr
    rcases mem_concat.mp hr with hold | rfl
    · exact h.unanswered r hold
    · exact fun hadmitted => hclock (h.grantedRead _ (h.admittedGranted _ hadmitted))

variable {r : Request} {stage : Stage} {granted : List Nat} {key : Key}

/-- A request goes on; what was granted to it is what its count allows. -/
theorem Ledger.goOn (h : Ledger limit s) (hr : r ∈ s.requests) (key : Key) (honce : granted.Nodup)
    (hgranted : ∀ time, time ∈ granted ↔ time ∈ s.granted ∨ (time = r.now ∧ ∃ count, stage.count? =
      some count ∧ count ≤ limit)) (hfresh : stage.count? = none → r.stage.count? = none) :
    Ledger limit ({ s with granted }.goOn r key stage) where
  ids := nodup_upsert h.ids
  nows := by
    have hsame : (upsert Request.id { r with stage } s.requests).map Request.now =
        s.requests.map Request.now := by
      refine map_upsert_field Request.now hr rfl ?_
      intro other hother hid
      have heq : other = r := inj_on_of_nodup_map h.ids hother hr hid
      rw [heq]
    change ((upsert Request.id { r with stage } s.requests).map Request.now).Nodup
    rw [hsame]
    exact h.nows
  read := by
    intro other hother
    rcases mem_upsert hother with rfl | hold
    · exact h.read r hr
    · exact h.read other hold
  past := h.past
  grantedRead := by
    intro time htime
    rcases (hgranted time).mp htime with hold | ⟨rfl, -⟩
    · exact h.grantedRead time hold
    · exact h.read r hr
  grantedOnce := honce
  fresh := by
    intro other hother hstage
    rcases (mem_upsert_iff h.ids).mp hother with rfl | ⟨hold, hne⟩
    · intro hmem
      rcases (hgranted _).mp hmem with hmem | ⟨-, count, hcount, -⟩
      · exact h.fresh r hr (hfresh hstage) hmem
      · rw [hstage] at hcount
        cases hcount
    · intro hmem
      rcases (hgranted _).mp hmem with hmem | ⟨hsame, -⟩
      · exact h.fresh other hold hstage hmem
      · obtain rfl : other = r := inj_on_of_nodup_map h.nows hold hr hsame
        exact hne rfl
  counted := by
    intro other hother count hcount hlimit
    rcases (mem_upsert_iff h.ids).mp hother with rfl | ⟨hold, -⟩
    · exact (hgranted _).mpr (.inr ⟨rfl, count, hcount, hlimit⟩)
    · exact (hgranted _).mpr (.inl (h.counted other hold count hcount hlimit))
  admittedOnce := h.admittedOnce
  admittedGranted := fun time htime => (hgranted time).mpr (.inl (h.admittedGranted time htime))
  unanswered := by
    intro other hother
    rcases mem_upsert hother with rfl | hold
    · exact h.unanswered r hr
    · exact h.unanswered other hold

theorem Ledger.answer (h : Ledger limit s) {r : Request} (hr : r ∈ s.requests)
    (ht : s.answer limit r = some t) : Ledger limit t := by
  unfold System.answer at ht
  split at ht
  next count hstage hwaiting =>
    cases ht
    have hkept : ∀ other ∈ s.requests.filter fun other => other.id != r.id,
        other ∈ s.requests ∧ other.id ≠ r.id := by
      intro other hother
      obtain ⟨hmem, hne⟩ := mem_filter.mp hother
      exact ⟨hmem, by simpa using hne⟩
    have hadmitted : ∀ {time : Nat}, time ∈ (if count ≤ limit then s.admitted ++ [r.now] else
        s.admitted) → time ∈ s.admitted ∨ (time = r.now ∧ count ≤ limit) := by
      intro time htime
      split at htime
      next hlimit =>
        exact (mem_append.mp htime).imp id fun hnew =>
          ⟨mem_singleton.mp hnew, hlimit⟩
      · exact .inl htime
    exact
      { ids := h.ids.sublist (filter_sublist.map Request.id)
        nows := h.nows.sublist (filter_sublist.map Request.now)
        read := fun other hother => h.read other (hkept other hother).1
        past := h.past
        grantedRead := h.grantedRead
        grantedOnce := h.grantedOnce
        fresh := fun other hother => h.fresh other (hkept other hother).1
        counted := fun other hother => h.counted other (hkept other hother).1
        admittedOnce := by
          dsimp only
          split
          · exact nodup_append_fresh h.admittedOnce (h.unanswered r hr)
          · exact h.admittedOnce
        admittedGranted := by
          intro time htime
          rcases hadmitted htime with hold | ⟨rfl, hlimit⟩
          · exact h.admittedGranted time hold
          · exact h.counted r hr count (by rw [hstage]; rfl) hlimit
        unanswered := by
          intro other hother hmem
          obtain ⟨hold, hne⟩ := hkept other hother
          rcases hadmitted hmem with hmem | ⟨hsame, -⟩
          · exact h.unanswered other hold hmem
          · have heq : other = r := inj_on_of_nodup_map h.nows hold hr hsame
            exact hne (congrArg Request.id heq) }
  · cases ht

/-! ### The elements -/

def stamp (time : Nat) : Element := ⟨toString time, time⟩

theorem stamp_injective : Function.Injective stamp := fun _ _ h => congrArg Element.score h

/-- What the set holds of the granted readings: those of the last minute, and those within a
minute of a request that is still to be counted. -/
structure Held (s : System) : Prop where
  stamped : ∀ e ∈ s.key.set.elements, e = stamp e.score
  own : ∀ r ∈ s.requests, r.stage = .counting → stamp r.now ∈ s.key.set.elements
  recent : ∀ time ∈ s.granted, s.clock < time + window → stamp time ∈ s.key.set.elements
  near : ∀ r ∈ s.requests, r.stage.count? = none → ∀ time ∈ s.granted, Near r.now time →
    stamp time ∈ s.key.set.elements

theorem near_self (time : Nat) : Near time time := by
  constructor <;> exact Nat.lt_add_of_pos_right (by decide)

theorem held_empty : Held .empty := ⟨nofun, nofun, nofun, nofun⟩

theorem Held.elapse (h : Held s) (milliseconds : Nat) :
    Held { s with clock := s.clock + milliseconds } :=
  { h with
    recent := fun time htime hlt => h.recent time htime
      (Nat.lt_of_le_of_lt (Nat.le_add_right s.clock milliseconds) hlt) }

/-- What a new request is to count is recent. -/
theorem Held.arrive (h : Held s) (id : Nat) (readings : List Nat) :
    Held { s with requests := s.requests ++ [⟨id, s.clock, .trimming, true⟩], readings } where
  stamped := h.stamped
  own := by
    intro r hr hstage
    rcases mem_concat.mp hr with hold | rfl
    · exact h.own r hold hstage
    · cases hstage
  recent := h.recent
  near := by
    intro r hr hstage time htime hnear
    rcases mem_concat.mp hr with hold | rfl
    · exact h.near r hold hstage time htime hnear
    · exact h.recent time htime hnear.1

theorem Held.answer (h : Held s) {r : Request} (ht : s.answer limit r = some t) : Held t := by
  unfold System.answer at ht
  split at ht
  · cases ht
    exact
      { h with
        own := fun other hother => h.own other (mem_filter.mp hother).1
        near := fun other hother => h.near other (mem_filter.mp hother).1 }
  · cases ht

/-- A request goes on, and what goes from the set is spent. -/
theorem Held.goOn (h : Held s) (hr : r ∈ s.requests)
    (hkept : ∀ e ∈ s.key.set.elements, e ∈ key.set.elements ∨ s.Spent e)
    (hstamped : ∀ e ∈ key.set.elements, e = stamp e.score)
    (hown : stage = .counting → stamp r.now ∈ key.set.elements)
    (hstage : stage.count? = none → r.stage.count? = none)
    (hgranted : ∀ time ∈ granted, time ∈ s.granted ∨ stamp time ∈ key.set.elements) :
    Held ({ s with granted }.goOn r key stage) where
  stamped := hstamped
  own := by
    intro other hother hcounting
    rcases mem_upsert hother with rfl | hold
    · exact hown hcounting
    · have huncounted : other.stage.count? = none := by rw [hcounting]; rfl
      refine (hkept _ (h.own other hold hcounting)).resolve_right ?_
      exact fun hspent => hspent.2 other hold huncounted (near_self other.now)
  recent := by
    intro time htime hlt
    rcases hgranted time htime with hold | hnew
    · refine (hkept _ (h.recent time hold hlt)).resolve_right ?_
      exact fun hspent => absurd hlt (Nat.not_lt_of_le hspent.1)
    · exact hnew
  near := by
    have hlive : ∀ other ∈ s.requests, other.stage.count? = none → ∀ time ∈ granted,
        Near other.now time → stamp time ∈ key.set.elements := by
      intro other hother huncounted time htime hnear
      rcases hgranted time htime with hold | hnew
      · refine (hkept _ (h.near other hother huncounted time hold hnear)).resolve_right ?_
        exact fun hspent => hspent.2 other hother huncounted hnear
      · exact hnew
    intro other hother huncounted time htime hnear
    rcases mem_upsert hother with rfl | hold
    · exact hlive r hr (hstage huncounted) time htime hnear
    · exact hlive other hold huncounted time htime hnear

/-! ### Commands -/

theorem elements_withSet (key : Key) (set : SortedSet) :
    (key.withSet set).set.elements = set.elements := by
  unfold Key.withSet
  split
  · next hnone => exact hnone.symm
  · rfl

theorem elements_expire (key : Key) (time : Nat) :
    (key.expire time).set.elements = key.set.elements := by
  unfold Key.expire
  split
  · next hnone => exact hnone.symm
  · rfl

theorem mem_found {clock : Nat} {e : Element} (he : e ∈ (key.found clock).set.elements) :
    e ∈ key.set.elements := by
  unfold Key.found at he
  split at he
  · cases he
  · exact he

/-- What a command finds is what it does not take away as expired. -/
theorem found_or_takesAway (r : Request) {e : Element} (he : e ∈ s.key.set.elements) :
    e ∈ (s.key.found s.clock).set.elements ∨ e ∈ s.takesAway r := by
  by_cases hexpired : s.key.expired s.clock = true
  · refine .inr (mem_filter.mpr ⟨he, ?_⟩)
    rw [hexpired]
    rfl
  · refine .inl ?_
    unfold Key.found
    rw [if_neg hexpired]
    exact he

/-- A count within the limit has room for the reading that is counted. -/
theorem quota_granted {elements : List Element} {now : Nat} (hcount : elements.length ≤ limit)
    (honce : granted.Nodup) (hfresh : now ∉ granted) (hquota : Quota window limit granted)
    (hown : stamp now ∈ elements) (hnear : ∀ time ∈ granted, Near now time → stamp time ∈
    elements) :
    Quota window limit (granted ++ [now]) := by
  refine quota_concat_iff.mpr ⟨hquota, ?_⟩
  intro start hle hlt
  have hinside : ∀ time ∈ granted.filter fun time => decide (start ≤ time ∧ time < start + window),
      time ∈ granted ∧ Near now time := by
    intro time htime
    obtain ⟨hmem, hin⟩ := mem_filter.mp htime
    have hbounds := of_decide_eq_true hin
    refine ⟨hmem, ?_, ?_⟩ <;> omega
  have hdistinct : (now :: granted.filter fun time =>
      decide (start ≤ time ∧ time < start + window)).Nodup := by
    refine nodup_cons.mpr ⟨?_, honce.filter _⟩
    exact fun hmem => hfresh (hinside now hmem).1
  have hstamps : (now :: granted.filter fun time =>
      decide (start ≤ time ∧ time < start + window)).map stamp ⊆ elements := by
    intro e he
    obtain ⟨time, htime, rfl⟩ := mem_map.mp he
    rcases mem_cons.mp htime with rfl | hmem
    · exact hown
    · exact hnear time (hinside time hmem).1 (hinside time hmem).2
  have hlength := ((hdistinct.map stamp_injective).subperm hstamps).length_le
  rw [length_map, length_cons] at hlength
  unfold within
  rw [countP_eq_length_filter]
  exact Nat.lt_of_succ_le (Nat.le_trans hlength hcount)

structure Sound (limit : Nat) (s : System) : Prop where
  ledger : Ledger limit s
  held : Held s
  quota : Quota window limit s.granted

theorem sound_empty : Sound limit .empty := ⟨ledger_empty, held_empty, quota_nil⟩

/-- A command that grants nothing. -/
theorem Sound.goOn (h : Sound limit s) (hr : r ∈ s.requests)
    (hkept : ∀ e ∈ s.key.set.elements, e ∈ key.set.elements ∨ s.Spent e)
    (hstamped : ∀ e ∈ key.set.elements, e = stamp e.score)
    (hown : stage = .counting → stamp r.now ∈ key.set.elements)
    (hcount : stage.count? = r.stage.count?) : Sound limit (s.goOn r key stage) where
  ledger := by
    refine h.ledger.goOn hr key h.ledger.grantedOnce ?_ (fun hnone => hcount ▸ hnone)
    intro time
    constructor
    · exact .inl
    · rintro (hold | ⟨rfl, count, hstage, hlimit⟩)
      · exact hold
      · exact h.ledger.counted r hr count (hcount ▸ hstage) hlimit
  held := h.held.goOn hr hkept hstamped hown (fun hnone => hcount ▸ hnone) fun _ => .inl
  quota := h.quota

/-- A count finds the request's own reading and all that lies near it. -/
theorem Sound.count (h : Sound limit s) (hr : r ∈ s.requests) (hstage : r.stage = .counting)
    (hfound : ∀ e ∈ s.key.set.elements, e ∈ (s.key.found s.clock).set.elements ∨ s.Spent e)
    (hstamped : ∀ e ∈ (s.key.found s.clock).set.elements, e = stamp e.score) :
    Sound limit ({ s with
      granted := if (s.key.found s.clock).set.zcard ≤ limit then s.granted ++ [r.now]
        else s.granted }.goOn r (s.key.found s.clock)
          (.expiring (s.key.found s.clock).set.zcard)) := by
  have huncounted : r.stage.count? = none := by rw [hstage]; rfl
  have hfresh := h.ledger.fresh r hr huncounted
  have hown : stamp r.now ∈ (s.key.found s.clock).set.elements := by
    refine (hfound _ (h.held.own r hr hstage)).resolve_right ?_
    exact fun hspent => hspent.2 r hr huncounted (near_self r.now)
  have hnear : ∀ time ∈ s.granted, Near r.now time →
      stamp time ∈ (s.key.found s.clock).set.elements := by
    intro time htime hnear
    refine (hfound _ (h.held.near r hr huncounted time htime hnear)).resolve_right ?_
    exact fun hspent => hspent.2 r hr huncounted hnear
  have hmem : ∀ time, time ∈ (if (s.key.found s.clock).set.zcard ≤ limit then
      s.granted ++ [r.now] else s.granted) ↔ time ∈ s.granted ∨
        (time = r.now ∧ ∃ count, some (s.key.found s.clock).set.zcard = some count ∧
          count ≤ limit) := by
    intro time
    split
    · next hlimit => simp [hlimit]
    · next hlimit => simp [hlimit]
  refine ⟨h.ledger.goOn hr _ ?_ hmem nofun, h.held.goOn hr hfound hstamped nofun nofun ?_, ?_⟩
  · split
    · exact nodup_append_fresh h.ledger.grantedOnce hfresh
    · exact h.ledger.grantedOnce
  · intro time htime
    rcases (hmem time).mp htime with hold | ⟨rfl, -⟩
    · exact .inl hold
    · exact .inr hown
  · change Quota window limit (if _ then _ else _)
    split
    · next hlimit => exact quota_granted hlimit h.ledger.grantedOnce hfresh h.quota hown hnear
    · exact h.quota

theorem Sound.execute (h : Sound limit s) (hr : r ∈ s.requests)
    (hspent : ∀ e ∈ s.takesAway r, s.Spent e) (ht : s.execute limit r = some t) :
    Sound limit t := by
  have hfound : ∀ e ∈ s.key.set.elements, e ∈ (s.key.found s.clock).set.elements ∨ s.Spent e :=
    fun e he => (found_or_takesAway r he).imp id (hspent e)
  have hstamped : ∀ e ∈ (s.key.found s.clock).set.elements, e = stamp e.score :=
    fun e he => h.held.stamped e (mem_found he)
  unfold System.execute at ht
  dsimp only at ht
  split at ht
  next hstage =>
    cases ht
    refine h.goOn hr ?_ ?_ nofun (by rw [hstage]; rfl)
    · intro e he
      rw [elements_withSet]
      by_cases hold : e.score + window ≤ r.now
      · refine .inr (hspent e (mem_filter.mpr ⟨he, ?_⟩))
        simp [hstage, hold]
      · refine (hfound e he).imp_left fun hmem => mem_filter.mpr ⟨hmem, ?_⟩
        refine decide_eq_true ?_
        omega
    · intro e he
      rw [elements_withSet] at he
      exact hstamped e (mem_filter.mp he).1
  next hstage =>
    cases ht
    refine h.goOn hr ?_ ?_ ?_ (by rw [hstage]; rfl)
    · intro e he
      rw [elements_withSet]
      refine (hfound e he).imp_left fun hmem => ?_
      refine (mem_upsert_iff (s.key.found s.clock).set.members).mpr ?_
      by_cases hsame : e.member = r.element.member
      · refine .inl ?_
        rw [hstamped e hmem] at hsame ⊢
        exact congrArg stamp (toString_nat_injective hsame)
      · exact .inr ⟨hmem, hsame⟩
    · intro e he
      rw [elements_withSet] at he
      rcases mem_upsert he with rfl | hold
      · rfl
      · exact hstamped e hold
    · intro _
      rw [elements_withSet]
      exact (mem_upsert_iff (s.key.found s.clock).set.members).mpr (.inl rfl)
  next hstage =>
    cases ht
    exact h.count hr hstage hfound hstamped
  next count hstage =>
    cases ht
    refine h.goOn hr ?_ ?_ nofun (by rw [hstage]; rfl)
    · intro e he
      rw [elements_expire]
      exact hfound e he
    · intro e he
      rw [elements_expire] at he
      exact hstamped e he
  · cases ht

theorem Sound.step (h : Sound limit s) {a : Label} (horderly : s.Orderly a)
    (ht : System.step limit s a = some t) : Sound limit t := by
  cases a with
  | elapse milliseconds =>
    cases ht
    exact ⟨h.ledger.elapse milliseconds, h.held.elapse milliseconds, h.quota⟩
  | arrive id =>
    simp only [System.step] at ht
    split at ht
    · cases ht
    next hnone =>
      cases ht
      have hid : id ∉ s.requests.map Request.id := by
        intro hmem
        obtain ⟨r, hr, heq⟩ := mem_map.mp hmem
        exact hnone (any_eq_true.mpr ⟨r, hr, beq_iff_eq.mpr heq⟩)
      exact ⟨h.ledger.arrive hid horderly, h.held.arrive id _, h.quota⟩
  | command id =>
    obtain ⟨r, hlookup, hexecute⟩ := Option.bind_eq_some_iff.mp ht
    exact h.execute (found_of_lookup hlookup).1 (horderly r hlookup) hexecute
  | answer id =>
    obtain ⟨r, hlookup, hanswer⟩ := Option.bind_eq_some_iff.mp ht
    have hgranted : t.granted = s.granted := by
      unfold System.answer at hanswer
      split at hanswer
      · cases hanswer
        rfl
      · cases hanswer
    refine ⟨h.ledger.answer (found_of_lookup hlookup).1 hanswer, h.held.answer hanswer, ?_⟩
    rw [hgranted]
    exact h.quota
  | fail id => exact horderly.elim

/-- What is admitted was granted, each reading once. -/
theorem Sound.quota_admitted (h : Sound limit s) : Quota window limit s.admitted := by
  intro start
  have hsub := h.ledger.admittedOnce.subperm h.ledger.admittedGranted
  exact Nat.le_trans (hsub.countP_le _) (h.quota start)

/-! ### Runs -/

/-- No window of a minute has more admitted requests than the limit, in every run whose
requests read the clock apart and are counted before what they are to count is dropped. -/
theorem window_limit_kept (limit : Nat) (labels : List Label)
    (h : Meets (System.step limit) System.Orderly .empty labels) :
    Always (System.step limit) (fun s => Quota window limit s.admitted) .empty labels :=
  (always_of_meets (fun _ _ _ hs ha ht => Sound.step hs ha ht) sound_empty h).mono
    fun _ hs => hs.quota_admitted

/-- A request on its own, from its arrival to its answer. -/
def handled (id : Nat) : List Label :=
  .arrive id :: List.replicate 4 (.command id) ++ [.answer id]

/-- Two requests a millisecond apart, the second over the limit, and one a minute later. -/
def threeApart : List Label :=
  handled 1 ++ [.elapse 1] ++ handled 2 ++ [.elapse 60000] ++ handled 3

theorem threeApart_kept : Always (System.step 1) (fun s => Quota window 1 s.admitted) .empty
    threeApart :=
  window_limit_kept 1 threeApart (by decide)

/-- Two requests in one millisecond. -/
def sameMillisecond : List Label := handled 1 ++ handled 2

theorem sameMillisecond_exceeds : ¬ ∀ (limit : Nat) (labels : List Label),
    Always (System.step limit) (fun s => Quota window limit s.admitted) .empty labels := by
  intro hall
  have hrun : (run (System.step 1) .empty sameMillisecond).map System.admitted = some [0, 0] := by
    decide
  obtain ⟨s, hs, hadmitted⟩ := Option.map_eq_some_iff.mp hrun
  have hquota := (hall 1 sameMillisecond).finish hs 0
  rw [hadmitted] at hquota
  revert hquota
  decide

end Bis.Apitoken
