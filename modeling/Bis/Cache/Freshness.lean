import Bis.Cache.Reads

/-!
When reads are fresh. They are as long as a value that was computed before a mutation is
not stored after an invalidation for that mutation has ended, every invalidation gets rid
of what is older than itself, and only values that JSON can carry are stored.
-/

namespace Bis.Cache

open Bis.Relation Bis.Transition

variable {data : Nat → JsValue} {s t : System}

/-- Nothing that is older than these mutations is in the cache. -/
def System.isClearOf (s : System) (version : Nat) : Bool :=
  s.entry.all fun entry => version ≤ entry.version

def JsValue.isUndefined : JsValue → Bool
  | .undefined => true
  | _ => false

/-- The value is read from the cache as it was, or not at all. -/
def JsValue.isCacheable (v : JsValue) : Bool := v.isPlain || v.isUndefined

/-- A step that leaves nothing wrong in the cache: a stored value is cacheable and no older
than what has been invalidated, and an invalidation that cannot do its work has none. -/
def System.isOrderly (s : System) : Label → Bool
  | .set id true =>
    match lookup Read.id id s.reads with
    | some ⟨_, _, .storing value version⟩ => s.floor ≤ version && value.isCacheable
    | _ => true
  | .invalidateCache _ false _ => s.isClearOf s.version
  | .keys id true =>
    (lookup Invalidation.id id s.invalidations).all fun call => s.isClearOf call.version
  | .del id false =>
    (lookup Invalidation.id id s.invalidations).all fun call => s.isClearOf call.version
  | _ => true

variable {version floor : Nat} {read : Read} {value : JsValue}

theorem System.isClearOf_iff :
    s.isClearOf version = true ↔ ∀ entry, s.entry = some entry → version ≤ entry.version := by
  simp [System.isClearOf, Option.all_eq_true]

/-! ### The invariant -/

structure Read.Ok (data : Nat → JsValue) (floor : Nat) (read : Read) : Prop where
  floor : read.floor ≤ floor
  storing : ∀ value version, read.stage = .storing value version →
    read.floor ≤ version ∧ value = data version

/-- The entry is no older than what has been invalidated, and a hit brings its value. -/
structure Entry.Ok (data : Nat → JsValue) (floor : Nat) (entry : Entry) : Prop where
  floor : floor ≤ entry.version
  value : entry.text = "" ∨ JsValue.parse entry.text = some (data entry.version)

structure Inv (data : Nat → JsValue) (s : System) : Prop where
  floor : s.floor ≤ s.version
  reads : ∀ read ∈ s.reads, read.Ok data s.floor
  invalidations : ∀ call ∈ s.invalidations, call.version ≤ s.version
  entry : ∀ entry, s.entry = some entry → entry.Ok data s.floor
  sound : s.Sound data

theorem Read.Ok.mono {floor' : Nat} (h : read.Ok data floor) (hfloor : floor ≤ floor') :
    read.Ok data floor' :=
  ⟨h.floor.trans hfloor, h.storing⟩

theorem Entry.Ok.hit {entry : Entry} (h : entry.Ok data floor) (htext : entry.text ≠ "")
    (hparse : JsValue.parse entry.text = some value) : value = data entry.version := by
  rcases h.value with hempty | hvalue
  · exact absurd hempty htext
  · exact Option.some.inj (hparse.symm.trans hvalue)

theorem Entry.ok_stored (hfloor : floor ≤ version) (hcacheable : value.isCacheable = true)
    (hvalue : value = data version) : Entry.Ok data floor ⟨value.stored, version⟩ := by
  refine ⟨hfloor, ?_⟩
  rcases Bool.or_eq_true_iff.mp hcacheable with hplain | hundefined
  · right
    rw [JsValue.parse_stored hplain, hvalue]
  · left
    cases value with
    | undefined => exact JsValue.stored_undefined
    | _ => cases hundefined

theorem Inv.setRead (h : Inv data s) {stage : Stage}
    (hok : Read.Ok data s.floor { read with stage }) : Inv data (s.setRead read stage) := by
  refine ⟨h.floor, ?_, h.invalidations, h.entry, h.sound⟩
  intro other hother
  rcases mem_upsert hother with rfl | hold
  · exact hok
  · exact h.reads other hold

theorem Inv.endRead (h : Inv data s) (id : Nat) : Inv data (s.endRead id) := by
  refine ⟨h.floor, ?_, h.invalidations, h.entry, h.sound⟩
  intro read hread
  exact h.reads read (List.mem_of_mem_filter hread)

theorem Inv.answer (h : Inv data s) {read : Read} {version : Nat} {value : JsValue}
    (hfloor : read.floor ≤ version) (hvalue : value = data version) :
    Inv data (s.answer read version value) := by
  have hended := h.endRead read.id
  refine ⟨h.floor, hended.reads, h.invalidations, h.entry, ?_⟩
  intro answer hanswer
  rcases mem_concat.mp hanswer with hold | rfl
  · exact h.sound answer hold
  · exact ⟨hfloor, hvalue⟩

/-- An invalidation may end once nothing older than it is in the cache. -/
theorem Inv.endInvalidation (h : Inv data s) {call : Invalidation}
    (hversion : call.version ≤ s.version) (hclear : s.isClearOf call.version = true) :
    Inv data (s.endInvalidation call) := by
  refine ⟨max_le h.floor hversion, ?_, ?_, ?_, h.sound⟩
  · intro read hread
    exact (h.reads read hread).mono (le_max_left _ _)
  · intro other hother
    exact h.invalidations other (List.mem_of_mem_filter hother)
  · intro entry hentry
    have hok := h.entry entry hentry
    exact ⟨max_le hok.floor (System.isClearOf_iff.mp hclear entry hentry), hok.value⟩

theorem Inv.withoutEntry (h : Inv data s) : Inv data { s with entry := none } := by
  refine ⟨h.floor, h.reads, h.invalidations, ?_, h.sound⟩
  intro entry hentry
  cases hentry

theorem Inv.hit (h : Inv data s) (hhit : s.hit = some (version, value)) :
    s.floor ≤ version ∧ value = data version := by
  obtain ⟨entry, hentry, hread⟩ := Option.bind_eq_some_iff.mp hhit
  split at hread
  · cases hread
  next htext =>
    obtain ⟨v, hparse, hpair⟩ := Option.map_eq_some_iff.mp hread
    cases hpair
    have hok := h.entry entry hentry
    exact ⟨hok.floor, hok.hit htext hparse⟩

/-! ### The steps -/

theorem Inv.get (h : Inv data s) (hread : read ∈ s.reads) (fails : Bool) :
    Inv data (s.get read fails) := by
  unfold System.get
  have hfloor := (h.reads read hread).floor
  split
  next version value hfound =>
    have hhit : s.hit = some (version, value) := by
      cases fails with
      | true => cases hfound
      | false => exact hfound
    obtain ⟨hversion, hvalue⟩ := h.hit hhit
    exact h.answer (hfloor.trans hversion) hvalue
  · refine h.setRead ⟨hfloor, ?_⟩
    intro value version hstage
    cases hstage

theorem Inv.compute (h : Inv data s) (hread : read ∈ s.reads) (stores throws : Bool) :
    Inv data (s.compute data read stores throws) := by
  have hfloor := (h.reads read hread).floor
  unfold System.compute
  split
  · exact h.endRead read.id
  · split
    · refine h.setRead ⟨hfloor, ?_⟩
      intro value version hstage
      cases hstage
      exact ⟨hfloor.trans h.floor, rfl⟩
    · exact h.answer (hfloor.trans h.floor) rfl

theorem Inv.set (h : Inv data s) {done : Bool} (hread : read ∈ s.reads)
    (hstage : read.stage = .storing value version)
    (hdone : done = true → s.floor ≤ version ∧ value.isCacheable = true) :
    Inv data (s.set read value version done) := by
  obtain ⟨hfloor, hvalue⟩ := (h.reads read hread).storing value version hstage
  unfold System.set
  cases done with
  | false => exact h.answer hfloor hvalue
  | true =>
    obtain ⟨hversion, hcacheable⟩ := hdone rfl
    have hstored : Inv data { s with entry := some ⟨value.stored, version⟩ } := by
      refine ⟨h.floor, h.reads, h.invalidations, ?_, h.sound⟩
      intro entry hentry
      cases hentry
      exact Entry.ok_stored hversion hcacheable hvalue
    exact hstored.answer hfloor hvalue

theorem Inv.step (h : Inv data s) {a : Label} (horderly : s.isOrderly a = true)
    (hstep : System.step data s a = some t) : Inv data t := by
  cases a with
  | mutate =>
    cases hstep
    exact ⟨h.floor.trans (Nat.le_succ _), h.reads,
      fun call hcall => (h.invalidations call hcall).trans (Nat.le_succ _), h.entry, h.sound⟩
  | expire =>
    cases hstep
    exact h.withoutEntry
  | withCache id available =>
    simp only [System.step] at hstep
    split at hstep
    · cases hstep
    · cases hstep
      refine ⟨h.floor, ?_, h.invalidations, h.entry, h.sound⟩
      intro read hread
      rcases mem_concat.mp hread with hold | rfl
      · exact h.reads read hold
      · refine ⟨le_rfl, ?_⟩
        intro value version hstage
        cases available <;> cases hstage
  | get id fails =>
    simp only [System.step] at hstep
    split at hstep
    next hlookup =>
      cases hstep
      obtain ⟨hread, hid⟩ := found_of_lookup hlookup
      cases hid
      exact h.get hread fails
    · cases hstep
  | compute id throws =>
    simp only [System.step] at hstep
    split at hstep
    next hlookup =>
      cases hstep
      obtain ⟨hread, hid⟩ := found_of_lookup hlookup
      cases hid
      exact h.compute hread _ throws
    · cases hstep
  | set id done =>
    simp only [System.step] at hstep
    split at hstep
    next hlookup =>
      cases hstep
      obtain ⟨hread, hid⟩ := found_of_lookup hlookup
      cases hid
      refine h.set hread rfl ?_
      intro hdone
      subst hdone
      simpa only [System.isOrderly, hlookup, Bool.and_eq_true, decide_eq_true_eq]
        using horderly
    · cases hstep
  | invalidateCache id available glob =>
    simp only [System.step] at hstep
    split at hstep
    · cases hstep
    · split at hstep
      · cases hstep
        refine ⟨h.floor, h.reads, ?_, h.entry, h.sound⟩
        intro call hcall
        rcases mem_concat.mp hcall with hold | rfl
        · exact h.invalidations call hold
        · exact le_rfl
      next hunavailable =>
        cases hstep
        cases available with
        | true => exact absurd rfl hunavailable
        | false => exact h.endInvalidation le_rfl horderly
  | keys id fails =>
    simp only [System.step] at hstep
    split at hstep
    next hlookup =>
      obtain ⟨hcall, hid⟩ := found_of_lookup hlookup
      cases hid
      have hversion := h.invalidations _ hcall
      split at hstep
      next hnothing =>
        cases hstep
        refine h.endInvalidation hversion ?_
        cases fails with
        | true => simpa only [System.isOrderly, hlookup, Option.all_some] using horderly
        | false =>
          -- There is no key to delete.
          refine System.isClearOf_iff.mpr ?_
          intro entry hentry
          rw [Bool.false_or, hentry] at hnothing
          cases hnothing
      · cases hstep
        refine ⟨h.floor, h.reads, ?_, h.entry, h.sound⟩
        intro other hother
        rcases mem_upsert hother with rfl | hold
        · exact hversion
        · exact h.invalidations other hold
    · cases hstep
  | del id done =>
    simp only [System.step] at hstep
    split at hstep
    next hlookup =>
      cases hstep
      obtain ⟨hcall, hid⟩ := found_of_lookup hlookup
      cases hid
      have hversion := h.invalidations _ hcall
      cases done with
      | true => exact h.withoutEntry.endInvalidation hversion rfl
      | false =>
        refine h.endInvalidation hversion ?_
        simpa only [System.isOrderly, hlookup, Option.all_some] using horderly
    · cases hstep

theorem inv_empty (data : Nat → JsValue) : Inv data .empty := by
  refine ⟨le_rfl, ?_, ?_, ?_, ?_⟩
  · intro read hread
    cases hread
  · intro call hcall
    cases hcall
  · intro entry hentry
    cases hentry
  · intro answer hanswer
    cases hanswer

/-! ### Runs -/

/-- Reads are fresh and true to the query as long as every step is orderly. -/
theorem cached_reads_sound (data : Nat → JsValue) (labels : List Label)
    (h : Meets (System.step data) (fun s a => s.isOrderly a = true) .empty labels) :
    Always (System.step data) (System.Sound data) .empty labels := by
  have hinv : Always (System.step data) (Inv data) .empty labels :=
    always_of_meets (fun s a t hs ha hstep => hs.step ha hstep) (inv_empty data) h
  exact hinv.mono fun s hs => hs.sound

/-- How many cases there are, each mutation adding one. -/
def caseCount (n : Nat) : JsValue := .number (.ofInt n)

/-- A value is stored, and an invalidation deletes it after the next mutation. -/
theorem cached_reads_sound_invalidated :
    Always (System.step caseCount) (System.Sound caseCount) .empty
      [.withCache 1 true, .get 1 false, .compute 1 false, .set 1 true, .mutate,
        .invalidateCache 2 true true, .keys 2 false, .del 2 true, .withCache 3 true, .get 3 false,
        .compute 3 false] :=
  cached_reads_sound caseCount _ (by decide)

/-- A fill computes its value, the data changes and is invalidated, and the fill stores; the
next read has the value from before the change. -/
theorem lateFill_unsound : ¬ ∀ (data : Nat → JsValue) (labels : List Label),
    Always (System.step data) (System.Sound data) .empty labels := by
  intro hall
  let filled : System :=
    ⟨1, some ⟨(caseCount 0).stored, 0⟩, [⟨3, 1, .looking⟩], [], 1, [⟨0, 0, caseCount 0⟩]⟩
  have hfill : run (System.step caseCount) .empty
      [.withCache 1 true, .get 1 false, .compute 1 false, .mutate, .invalidateCache 2 true false,
        .del 2 true, .set 1 true, .withCache 3 true] = some filled := rfl
  have hplain : (caseCount 0).isPlain = true := rfl
  have hhit : filled.hit = some (0, caseCount 0) := by
    simp [filled, System.hit, JsValue.stored_ne_empty hplain, JsValue.parse_stored hplain]
  have hget : System.step caseCount filled (.get 3 false) =
      some (filled.answer ⟨3, 1, .looking⟩ 0 (caseCount 0)) := by
    have hread : System.step caseCount filled (.get 3 false) =
        some (filled.get ⟨3, 1, .looking⟩ false) := rfl
    rw [hread]
    simp [System.get, hhit]
  have hrun := (run_append_iff _ _ [.get 3 false] _).mpr
    ⟨filled, hfill, (run_cons_iff _ _ _ _).mpr ⟨_, hget, rfl⟩⟩
  have hsound := (hall caseCount _).finish hrun ⟨1, 0, caseCount 0⟩ (by simp [System.answer])
  exact absurd hsound.1 (by simp)

end Bis.Cache
