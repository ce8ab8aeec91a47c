import Bis.Velocity.Windows

/-!
One sliding window on its own, fed in any order of the timestamps. `push` does
not look at the timestamp it appends, and `evict_stale` stops at the first entry
that is fresh.

`fits` says whether chrono represents the seconds of a window and the instant
that lies so many seconds earlier; it panics otherwise.
-/

namespace Bis.Velocity

open Bis.Window Bis.Transition Bis.Number

/-- What the window is asked to do. -/
inductive WindowCall where
  | push (ts : Int) (amountKobo : Int64) (isCrossBorder : Bool)
  | evictStale (now : Int) (windowSecs : UInt64)

namespace SlidingWindow

def evictStale? (fits : Int → UInt64 → Bool) (window : SlidingWindow) (now : Int)
    (windowSecs : UInt64) : Option SlidingWindow :=
  if fits now windowSecs then some (window.evictStale now windowSecs) else none

def call (fits : Int → UInt64 → Bool) : Step SlidingWindow WindowCall := fun window c =>
  match c with
  | .push ts amountKobo isCrossBorder => some (window.push ts amountKobo isCrossBorder)
  | .evictStale now windowSecs => window.evictStale? fits now windowSecs

/-- `now` less the window, in seconds that no cast has changed. -/
def windowLimit (now : Int) (windowSecs : UInt64) : Int := now - windowSecs.toNat * 10 ^ 9

/-- The three deques hold the fields of the same entries. -/
def Parallel (window : SlidingWindow) : Prop := ∃ entries, window = .ofEntries entries

/-- The eviction keeps the entries of the window, all of them and no others. -/
def EvictsExactly (fits : Int → UInt64 → Bool) (window : SlidingWindow) (now : Int)
    (windowSecs : UInt64) : Prop :=
  ∃ entries, window = .ofEntries entries ∧ window.evictStale? fits now windowSecs =
    some (.ofEntries (recent Entry.timestamp (windowLimit now windowSecs) entries))

section Calls

variable {fits : Int → UInt64 → Bool}

theorem Parallel.call {window next : SlidingWindow} {c : WindowCall} (h : Parallel window)
    (hnext : call fits window c = some next) : Parallel next := by
  obtain ⟨entries, rfl⟩ := h
  cases c with
  | push ts amountKobo isCrossBorder =>
    cases hnext
    exact ⟨entries ++ [⟨ts, amountKobo, isCrossBorder⟩], by simp [push, ofEntries]⟩
  | evictStale now windowSecs =>
    simp only [SlidingWindow.call, evictStale?] at hnext
    split at hnext
    · cases hnext
      exact ⟨_, evictStale_ofEntries entries now windowSecs⟩
    · cases hnext

/-- The three deques stay parallel, in whatever order the timestamps come. -/
theorem parallel_of_run {calls : List WindowCall} {window : SlidingWindow}
    (h : run (SlidingWindow.call fits) {} calls = some window) : Parallel window :=
  run_invariant (fun _ _ _ hs ht => hs.call ht) (⟨[], rfl⟩ : Parallel {}) h

theorem windowLimit_le_windowStart (now : Int) (windowSecs : UInt64) :
    windowLimit now windowSecs ≤ windowStart now windowSecs := by
  have hcast := toInt_toInt64_le windowSecs
  unfold windowLimit windowStart
  omega

theorem ofEntries_inj {entries entries' : List Entry} :
    ofEntries entries = ofEntries entries' ↔ entries = entries' := by
  constructor
  · intro h
    obtain ⟨htimestamps, hamounts, hflags⟩ := SlidingWindow.mk.inj h
    induction entries generalizing entries' with
    | nil => exact (List.map_eq_nil_iff.mp htimestamps.symm).symm
    | cons e rest ih =>
      cases entries' with
      | nil => cases htimestamps
      | cons e' rest' =>
        obtain ⟨htimestamp, htimestamps⟩ := List.cons.inj htimestamps
        obtain ⟨hamount, hamounts⟩ := List.cons.inj hamounts
        obtain ⟨hflag, hflags⟩ := List.cons.inj hflags
        have hrest : ofEntries rest = ofEntries rest' := by
          simp [ofEntries, htimestamps, hamounts, hflags]
        have he : e = e' := congr (congr (congrArg Entry.mk htimestamp) hamount) hflag
        rw [he, ih hrest htimestamps hamounts hflags]
  · rintro rfl
    rfl

theorem evict_map {cutoff : Int} (entries : List Entry) :
    evict id cutoff (entries.map Entry.timestamp) =
      (evict Entry.timestamp cutoff entries).map Entry.timestamp := by
  unfold evict
  rw [List.dropWhile_map]
  rfl

theorem recent_map {limit : Int} (entries : List Entry) :
    recent id limit (entries.map Entry.timestamp) =
      (recent Entry.timestamp limit entries).map Entry.timestamp := by
  unfold recent
  rw [List.filter_map]
  rfl

/-- An eviction is exact if the stale timestamps come first and the cast leaves
the first fresh one within the window. -/
theorem evictsExactly_iff {calls : List WindowCall} {window : SlidingWindow}
    (h : run (SlidingWindow.call fits) {} calls = some window) (now : Int) (windowSecs : UInt64) :
    EvictsExactly fits window now windowSecs ↔
      fits now windowSecs ∧ StaleFirst id (windowLimit now windowSecs) window.timestamps ∧
        ∀ ts ∈ (evict id (windowLimit now windowSecs) window.timestamps).head?,
          windowStart now windowSecs ≤ ts := by
  obtain ⟨entries, rfl⟩ := parallel_of_run h
  have hexact : EvictsExactly fits (ofEntries entries) now windowSecs ↔
      fits now windowSecs ∧ evict Entry.timestamp (windowStart now windowSecs) entries =
        recent Entry.timestamp (windowLimit now windowSecs) entries := by
    simp only [EvictsExactly, evictStale?, evictStale_ofEntries, ofEntries_inj]
    by_cases hfits : fits now windowSecs = true
    · simp [hfits, ofEntries_inj]
    · simp [hfits]
  have hstale : StaleFirst id (windowLimit now windowSecs) (ofEntries entries).timestamps ↔
      StaleFirst Entry.timestamp (windowLimit now windowSecs) entries :=
    List.pairwise_map
  rw [hexact, evict_eq_recent_iff (windowLimit_le_windowStart now windowSecs), hstale]
  simp only [ofEntries, evict_map, List.head?_map, Option.mem_map, forall_exists_index, and_imp,
    forall_apply_eq_imp_iff₂]

end Calls

/-- A late arrival: the entry of second 0 comes after the one of second 100. -/
def lateArrival : List WindowCall :=
  [.push 100000000000 1000 false, .push 0 2000 false]

def lateWindow : SlidingWindow := ⟨[100000000000, 0], [1000, 2000], [false, false]⟩

theorem lateArrival_evictsExactly_iff :
    run (call fun _ _ => true) {} lateArrival = some lateWindow ∧
      (EvictsExactly (fun _ _ => true) lateWindow 100000000000 10 ↔
        true ∧ StaleFirst id (windowLimit 100000000000 10) lateWindow.timestamps ∧
          ∀ ts ∈ (evict id (windowLimit 100000000000 10) lateWindow.timestamps).head?,
            windowStart 100000000000 10 ≤ ts) :=
  have hrun : run (call fun _ _ => true) {} lateArrival = some lateWindow := rfl
  ⟨hrun, evictsExactly_iff hrun _ _⟩

/-- The stale entry is still counted. -/
theorem lateArrival_counted :
    run (call fun _ _ => true) {} lateArrival = some lateWindow ∧
      (lateWindow.evictStale 100000000000 10).count false = 2 ∧
        ¬ EvictsExactly (fun _ _ => true) lateWindow 100000000000 10 := by
  refine ⟨rfl, by decide, ?_⟩
  rintro ⟨entries, hwindow, hevicted⟩
  have hkept := congrArg (Option.map SlidingWindow.timestamps) hevicted
  have htimestamps : entries.map Entry.timestamp = [100000000000, 0] :=
    (congrArg SlidingWindow.timestamps hwindow).symm
  simp only [Option.map_some, ofEntries, ← recent_map, htimestamps] at hkept
  revert hkept
  decide

end SlidingWindow

end Bis.Velocity
