import Mathlib.Data.Int.SuccPred
import Mathlib.Data.Int.ConditionallyCompleteOrder

/-!
Time values of ECMAScript: milliseconds from 1970 on in days of 86400 seconds, in a
zone that is always the same distance from UTC. Months are counted through from
January of the year 0, so that twelve more are a year more. A day of the month beyond
its end is a day of the next one.
-/

namespace Bis.Calendar.Ecma

/-! ### Years -/

def dayFromYear (year : Int) : Int :=
  365 * (year - 1970) + (year - 1969) / 4 - (year - 1901) / 100 + (year - 1601) / 400

def inLeapYear (year : Int) : Int :=
  if year % 4 = 0 ∧ (year % 100 ≠ 0 ∨ year % 400 = 0) then 1 else 0

/-- The year that has begun last: a guess by the mean year, and a step to either side. -/
def yearFromDay (day : Int) : Int :=
  let guess := 1970 + 400 * day / 146097
  if day < dayFromYear guess then guess - 1
  else if dayFromYear (guess + 1) ≤ day then guess + 1
  else guess

theorem dayFromYear_succ (year : Int) :
    dayFromYear (year + 1) = dayFromYear year + 365 + inLeapYear year := by
  unfold dayFromYear inLeapYear
  split <;> omega

theorem yearFromDay_spec (day : Int) :
    dayFromYear (yearFromDay day) ≤ day ∧ day < dayFromYear (yearFromDay day + 1) := by
  unfold yearFromDay
  simp only
  have hguess : 146097 * (400 * day / 146097) ≤ 400 * day ∧
      400 * day < 146097 * (400 * day / 146097) + 146097 := by
    omega
  generalize 400 * day / 146097 = guess at hguess
  split
  next hlate =>
    refine ⟨?_, ?_⟩
    · unfold dayFromYear
      omega
    · have hback : 1970 + guess - 1 + 1 = 1970 + guess := by omega
      rw [hback]
      exact hlate
  next hlate =>
    split
    next hearly =>
      refine ⟨hearly, ?_⟩
      unfold dayFromYear
      omega
    next hearly => exact ⟨by omega, by omega⟩

/-! ### Months -/

/-- The day of the year that a month begins with. -/
def firstDay (leap month : Int) : Int :=
  if month < 2 then 31 * month else 59 + leap + (153 * (month - 2) + 2) / 5

def monthFromDayInYear (leap day : Int) : Int :=
  if day < 59 + leap then day / 31 else 2 + (5 * (day - 59 - leap) + 2) / 153

example : (List.range 12).map (fun month : Nat => firstDay 0 (month + 1) - firstDay 0 month) =
    [31, 28, 31, 30, 31, 30, 31, 31, 30, 31, 30, 31] := by decide

theorem inLeapYear_cases (year : Int) : inLeapYear year = 0 ∨ inLeapYear year = 1 := by
  unfold inLeapYear
  split
  · exact .inr rfl
  · exact .inl rfl

theorem firstDay_lt_succ {leap month : Int} (hleap : leap = 0 ∨ leap = 1) :
    firstDay leap month < firstDay leap (month + 1) := by
  unfold firstDay
  split <;> split <;> omega

theorem monthFromDayInYear_spec {leap day : Int} (hleap : leap = 0 ∨ leap = 1) (hzero : 0 ≤ day)
    (hlast : day < 365 + leap) :
    0 ≤ monthFromDayInYear leap day ∧ monthFromDayInYear leap day < 12 ∧
      firstDay leap (monthFromDayInYear leap day) ≤ day ∧
      day < firstDay leap (monthFromDayInYear leap day + 1) := by
  unfold monthFromDayInYear firstDay
  split
  · refine ⟨by omega, by omega, ?_, ?_⟩ <;> split <;> omega
  · refine ⟨by omega, by omega, ?_, ?_⟩ <;> split <;> omega

/-- The first day of a month. -/
def monthStart (index : Int) : Int :=
  dayFromYear (index / 12) + firstDay (inLeapYear (index / 12)) (index % 12)

def daysInMonth (index : Int) : Int := monthStart (index + 1) - monthStart index

/-- The month a day lies in. -/
def monthIndex (day : Int) : Int :=
  let year := yearFromDay day
  12 * year + monthFromDayInYear (inLeapYear year) (day - dayFromYear year)

theorem monthStart_succ (index : Int) :
    monthStart (index + 1) =
      dayFromYear (index / 12) + firstDay (inLeapYear (index / 12)) (index % 12 + 1) := by
  unfold monthStart
  rcases eq_or_ne (index % 12) 11 with hlast | hnot
  · have hyear : (index + 1) / 12 = index / 12 + 1 := by omega
    have hmonth : (index + 1) % 12 = 0 := by omega
    have hyearLength : firstDay (inLeapYear (index / 12)) (11 + 1) =
        365 + inLeapYear (index / 12) := by
      simp [firstDay]
      omega
    have hjanuary : ∀ leap, firstDay leap 0 = 0 := fun leap => rfl
    rw [hyear, hmonth, hlast, dayFromYear_succ, hyearLength, hjanuary]
    omega
  · have hyear : (index + 1) / 12 = index / 12 := by omega
    have hmonth : (index + 1) % 12 = index % 12 + 1 := by omega
    rw [hyear, hmonth]

theorem monthStart_strictMono : StrictMono monthStart := by
  apply strictMono_int_of_lt_succ
  intro index
  rw [monthStart_succ]
  have h := @firstDay_lt_succ _ (index % 12) (inLeapYear_cases (index / 12))
  unfold monthStart
  omega

theorem monthIndex_spec (day : Int) :
    monthStart (monthIndex day) ≤ day ∧ day < monthStart (monthIndex day + 1) := by
  obtain ⟨hfirst, hlast⟩ := yearFromDay_spec day
  rw [dayFromYear_succ] at hlast
  have hzero : 0 ≤ day - dayFromYear (yearFromDay day) := by omega
  have hbelow : day - dayFromYear (yearFromDay day) < 365 + inLeapYear (yearFromDay day) := by omega
  obtain ⟨hmonthZero, htwelve, hlow, hhigh⟩ :=
    monthFromDayInYear_spec (inLeapYear_cases (yearFromDay day)) hzero hbelow
  have hyear : monthIndex day / 12 = yearFromDay day := by
    simp only [monthIndex]
    omega
  have hmonth : monthIndex day % 12 = monthFromDayInYear (inLeapYear (yearFromDay day))
      (day - dayFromYear (yearFromDay day)) := by
    simp only [monthIndex]
    omega
  rw [monthStart_succ, monthStart, hyear, hmonth]
  omega

/-- A day lies in one month. -/
theorem monthIndex_eq_iff {day index : Int} :
    monthIndex day = index ↔ monthStart index ≤ day ∧ day < monthStart (index + 1) := by
  constructor
  · rintro rfl
    exact monthIndex_spec day
  · rintro ⟨hlow, hhigh⟩
    obtain ⟨hfirst, hlast⟩ := monthIndex_spec day
    have hle : index < monthIndex day + 1 :=
      monthStart_strictMono.lt_iff_lt.mp (hlow.trans_lt hlast)
    have hge : monthIndex day < index + 1 :=
      monthStart_strictMono.lt_iff_lt.mp (hfirst.trans_lt hhigh)
    omega

/-! ### Instants -/

def msPerDay : Int := 86400000

def maxTime : Int := 8640000000000000

/-- A `Date` that is not invalid. -/
structure Instant where
  time : Int
  valid : -maxTime ≤ time ∧ time ≤ maxTime

def timeClip (time : Int) : Option Instant :=
  if h : -maxTime ≤ time ∧ time ≤ maxTime then some ⟨time, h⟩ else none

/-- The day in a zone that is `offset` milliseconds before UTC. -/
def localDay (offset : Int) (date : Instant) : Int := (date.time + offset) / msPerDay

def timeWithinDay (offset : Int) (date : Instant) : Int := (date.time + offset) % msPerDay

def getFullYear (offset : Int) (date : Instant) : Int := monthIndex (localDay offset date) / 12

def getMonth (offset : Int) (date : Instant) : Int := monthIndex (localDay offset date) % 12

def getDate (offset : Int) (date : Instant) : Int :=
  localDay offset date - monthStart (monthIndex (localDay offset date)) + 1

/-- `MakeDay`: a month from twelve on is one of a later year. -/
def makeDay (year month date : Int) : Int := monthStart (12 * year + month) + date - 1

def setDay (offset : Int) (date : Instant) (day : Int) : Option Instant :=
  timeClip (day * msPerDay + timeWithinDay offset date - offset)

def setFullYear (offset : Int) (date : Instant) (year : Int) : Option Instant :=
  setDay offset date (makeDay year (getMonth offset date) (getDate offset date))

def setMonth (offset : Int) (date : Instant) (month : Int) : Option Instant :=
  setDay offset date (makeDay (getFullYear offset date) month (getDate offset date))

end Bis.Calendar.Ecma
