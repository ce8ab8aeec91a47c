import Bis.Calendar.Ecma

/-!
The billing periods of a self-service subscription. `periodEndFor` moves the month or
the year of the start on by one and lets the `Date` carry a day that the new month does
not have into the month after it. The zone of the server is one without daylight saving
time, such as UTC or that of Lagos.
-/

namespace Bis.Settlement

open Bis.Calendar.Ecma

inductive BillingInterval where
  | monthly
  | annual

def periodEndFor (offset : Int) (interval : BillingInterval) (start : Instant) : Option Instant :=
  match interval with
  | .annual => setFullYear offset start (getFullYear offset start + 1)
  | .monthly => setMonth offset start (getMonth offset start + 1)

/-- The ends of so many periods, each of which begins where the one before it ended. -/
def periodEnds (offset : Int) (interval : BillingInterval) :
    Nat → Instant → Option (List Instant)
  | 0, _ => some []
  | periods + 1, start => do
    let finish ← periodEndFor offset interval start
    let rest ← periodEnds offset interval periods finish
    pure (finish :: rest)

/-! ### What is promised -/

def BillingInterval.months : BillingInterval → Int
  | .monthly => 1
  | .annual => 12

/-- A period ends later than it begins, in the month that the interval says. -/
structure Follows (offset : Int) (interval : BillingInterval) (start finish : Instant) : Prop where
  later : start.time < finish.time
  month : monthIndex (localDay offset finish) =
    monthIndex (localDay offset start) + interval.months

/-- The first periods of a subscription have ends, and each follows on the one before. -/
def Regular (offset : Int) (interval : BillingInterval) (periods : Nat) (start : Instant) : Prop :=
  ∃ ends, periodEnds offset interval periods start = some ends ∧
    List.IsChain (Follows offset interval) (start :: ends)

/-! ### One period -/

/-- The days from the month of the start to the one that many months later. -/
def shiftDays (offset : Int) (start : Instant) (months : Int) : Int :=
  monthStart (monthIndex (localDay offset start) + months) -
    monthStart (monthIndex (localDay offset start))

theorem setDay_eq (offset : Int) (start : Instant) (day : Int) :
    setDay offset start day =
      timeClip (start.time + (day - localDay offset start) * msPerDay) := by
  have hsplit := Int.mul_ediv_add_emod (start.time + offset) msPerDay
  unfold setDay localDay timeWithinDay
  congr 1
  rw [mul_comm msPerDay] at hsplit
  rw [sub_mul]
  omega

/-- Both intervals count months through, and the day keeps its distance from the first. -/
theorem periodEndFor_eq (offset : Int) (interval : BillingInterval) (start : Instant) :
    periodEndFor offset interval start =
      timeClip (start.time + shiftDays offset start interval.months * msPerDay) := by
  have hshift : ∀ year month : Int,
      12 * year + month = monthIndex (localDay offset start) + interval.months →
      setDay offset start (makeDay year month (getDate offset start)) =
        timeClip (start.time + shiftDays offset start interval.months * msPerDay) := by
    intro year month hindex
    rw [setDay_eq]
    unfold makeDay getDate shiftDays
    rw [hindex]
    congr 3
    omega
  cases interval with
  | monthly =>
    apply hshift
    unfold getFullYear getMonth
    change _ = _ + 1
    omega
  | annual =>
    apply hshift
    unfold getFullYear getMonth
    change _ = _ + 12
    omega

theorem months_pos (interval : BillingInterval) : 0 < interval.months := by
  cases interval <;> decide

theorem shiftDays_pos (offset : Int) (interval : BillingInterval) (start : Instant) :
    0 < shiftDays offset start interval.months := by
  have hpos := months_pos interval
  have hmono : monthStart (monthIndex (localDay offset start)) <
      monthStart (monthIndex (localDay offset start) + interval.months) :=
    monthStart_strictMono (by omega)
  unfold shiftDays
  omega

theorem timeClip_eq_some_iff {time : Int} {date : Instant} :
    timeClip time = some date ↔ date.time = time := by
  unfold timeClip
  constructor
  · intro h
    split at h
    · cases h
      rfl
    · cases h
  · rintro rfl
    rw [dif_pos date.valid]

/-- The end of a period is a `Date` unless it is beyond the last one. -/
theorem periodEndFor_eq_some_iff (offset : Int) (interval : BillingInterval)
    (start finish : Instant) :
    periodEndFor offset interval start = some finish ↔
      finish.time = start.time + shiftDays offset start interval.months * msPerDay := by
  rw [periodEndFor_eq, timeClip_eq_some_iff]

variable {start finish : Instant} {offset : Int} {interval : BillingInterval}

theorem localDay_add (offset : Int) {days : Int} (h : finish.time = start.time + days * msPerDay) :
    localDay offset finish = localDay offset start + days := by
  have hsum : finish.time + offset = start.time + offset + days * msPerDay := by omega
  unfold localDay
  rw [hsum, Int.add_mul_ediv_right _ _ (by decide)]

/-- A period follows on its start exactly when the next month has the day. -/
theorem follows_iff
    (h : finish.time = start.time + shiftDays offset start interval.months * msPerDay) :
    Follows offset interval start finish ↔
      getDate offset start ≤
        daysInMonth (monthIndex (localDay offset start) + interval.months) := by
  have hday := localDay_add offset h
  have hpos := shiftDays_pos offset interval start
  have hfirst := (monthIndex_spec (localDay offset start)).1
  have hlater : start.time < finish.time := by
    unfold msPerDay at h
    omega
  have hmonth : monthIndex (localDay offset finish) =
      monthIndex (localDay offset start) + interval.months ↔ getDate offset start ≤
        daysInMonth (monthIndex (localDay offset start) + interval.months) := by
    rw [monthIndex_eq_iff, hday]
    unfold shiftDays getDate daysInMonth
    omega
  rw [← hmonth]
  exact ⟨fun hfollows => hfollows.month, fun hindex => ⟨hlater, hindex⟩⟩

theorem getDate_of_follows
    (h : finish.time = start.time + shiftDays offset start interval.months * msPerDay)
    (hfollows : Follows offset interval start finish) :
    getDate offset finish = getDate offset start := by
  unfold getDate
  rw [hfollows.month, localDay_add offset h]
  unfold shiftDays
  omega

theorem shiftDays_add (hfollows : Follows offset interval start finish) (months : Int) :
    shiftDays offset start (interval.months + months) =
      shiftDays offset start interval.months + shiftDays offset finish months := by
  unfold shiftDays
  rw [hfollows.month, add_assoc]
  omega

/-! ### Successive periods -/

theorem regular_succ_iff (offset : Int) (interval : BillingInterval) (periods : Nat)
    (start : Instant) :
    Regular offset interval (periods + 1) start ↔
      ∃ finish, periodEndFor offset interval start = some finish ∧
        Follows offset interval start finish ∧ Regular offset interval periods finish := by
  constructor
  · rintro ⟨ends, hends, hchain⟩
    obtain ⟨finish, hfinish, hbind⟩ := Option.bind_eq_some_iff.mp hends
    obtain ⟨rest, hrest, hcons⟩ := Option.bind_eq_some_iff.mp hbind
    cases hcons
    rw [List.isChain_cons_cons] at hchain
    exact ⟨finish, hfinish, hchain.1, rest, hrest, hchain.2⟩
  · rintro ⟨finish, hfinish, hfollows, rest, hrest, hchain⟩
    refine ⟨finish :: rest, ?_, List.isChain_cons_cons.mpr ⟨hfollows, hchain⟩⟩
    unfold periodEnds
    rw [hfinish, Option.bind_eq_bind, Option.bind_some, hrest]
    rfl

/-- A subscription has so many regular periods exactly when each of the months they end
in has the day of the month that the start has, and the last of them ends within the
range of a `Date`. -/
theorem regular_iff (offset : Int) (interval : BillingInterval) (periods : Nat)
    (start : Instant) :
    Regular offset interval periods start ↔
      (∀ i < periods, getDate offset start ≤
        daysInMonth (monthIndex (localDay offset start) + interval.months * (i + 1))) ∧
      start.time + shiftDays offset start (interval.months * periods) * msPerDay ≤ maxTime := by
  induction periods generalizing start with
  | zero =>
    apply iff_of_true
    · exact ⟨[], rfl, List.IsChain.singleton start⟩
    · refine ⟨fun i hi => absurd hi (Nat.not_lt_zero i), ?_⟩
      have hvalid := start.valid.2
      simpa [shiftDays] using hvalid
  | succ periods ih =>
    have hmonths : ∀ n : Nat, interval.months * ((n + 1 : Nat) : Int) =
        interval.months + interval.months * n := by
      intro n
      rw [Nat.cast_succ, mul_add, mul_one, add_comm]
    rw [regular_succ_iff, hmonths]
    constructor
    · rintro ⟨finish, hfinish, hfollows, hregular⟩
      rw [periodEndFor_eq_some_iff] at hfinish
      obtain ⟨hdays, hrange⟩ := (ih finish).mp hregular
      rw [getDate_of_follows hfinish hfollows, hfollows.month] at hdays
      refine ⟨?_, ?_⟩
      · intro i hi
        cases i with
        | zero =>
          have hday := (follows_iff hfinish).mp hfollows
          simpa using hday
        | succ i =>
          have hday := hdays i (by omega)
          rw [add_assoc] at hday
          rw [← Nat.cast_succ, hmonths]
          exact_mod_cast hday
      · rw [shiftDays_add hfollows, add_mul]
        omega
    · rintro ⟨hdays, hrange⟩
      have hmono : shiftDays offset start interval.months ≤
          shiftDays offset start (interval.months + interval.months * periods) := by
        have hle : monthStart (monthIndex (localDay offset start) + interval.months) ≤
            monthStart (monthIndex (localDay offset start) +
              (interval.months + interval.months * periods)) := by
          apply monthStart_strictMono.monotone
          have hnonneg : 0 ≤ interval.months * periods :=
            mul_nonneg (months_pos interval).le (Int.natCast_nonneg periods)
          omega
        unfold shiftDays
        omega
      have hpos := shiftDays_pos offset interval start
      have hlow := start.valid.1
      have hvalid : -maxTime ≤ start.time + shiftDays offset start interval.months * msPerDay ∧
          start.time + shiftDays offset start interval.months * msPerDay ≤ maxTime := by
        unfold msPerDay at hrange ⊢
        omega
      let finish : Instant := ⟨_, hvalid⟩
      have hfinish : finish.time =
          start.time + shiftDays offset start interval.months * msPerDay := rfl
      have hfollows : Follows offset interval start finish := by
        rw [follows_iff hfinish]
        have hday := hdays 0 (Nat.succ_pos periods)
        simpa using hday
      refine ⟨finish, (periodEndFor_eq_some_iff _ _ _ _).mpr hfinish, hfollows, ?_⟩
      rw [ih finish, getDate_of_follows hfinish hfollows, hfollows.month]
      refine ⟨?_, ?_⟩
      · intro i hi
        have hday := hdays (i + 1) (by omega)
        rw [← Nat.cast_succ, hmonths] at hday
        rw [add_assoc]
        exact_mod_cast hday
      · rw [shiftDays_add hfollows, add_mul] at hrange
        omega

/-- Noon of the last day of January 2027. -/
def endOfJanuary : Instant := ⟨1801396800000, by decide⟩

/-- The first period of a monthly subscription from then on ends in March. -/
theorem endOfJanuary_not_regular : ¬ Regular 0 .monthly 1 endOfJanuary := by
  rw [regular_succ_iff]
  rintro ⟨finish, hfinish, hfollows, _⟩
  rw [periodEndFor_eq_some_iff] at hfinish
  have hday := (follows_iff hfinish).mp hfollows
  exact absurd hday (by decide)

end Bis.Settlement
