import Mathlib.Data.List.Basic
import Mathlib.Tactic.Ring

/-!
Instants in the ISO format of a browser's or a server's `Date`: milliseconds
since 1970 as `2026-09-05T12:00:00.000Z`, with six digits and a sign for the
years from 10000 on. What is written is read back as the same instant.
-/

namespace Bis.Calendar

open List

/-! ### Fields of digits -/

/-- A number in a field of `width` digits. -/
def padded : Nat → Nat → List Char
  | 0, _ => []
  | width + 1, n => padded width (n / 10) ++ [(n % 10).digitChar]

def fieldValue (digits : List Char) : Nat := Nat.ofDigitChars 10 digits 0

@[simp] theorem length_padded (width n : Nat) : (padded width n).length = width := by
  induction width generalizing n with
  | zero => rfl
  | succ width ih => simp [padded, ih]

variable {width n : Nat}

theorem fieldValue_padded (h : n < 10 ^ width) : fieldValue (padded width n) = n := by
  induction width generalizing n with
  | zero =>
    have hzero : n = 0 := by simpa using h
    simp [hzero, padded, fieldValue]
  | succ width ih =>
    have hfront : n / 10 < 10 ^ width := by
      rw [Nat.div_lt_iff_lt_mul (by omega)]
      rwa [Nat.pow_succ] at h
    have hlast : n % 10 < 10 := Nat.mod_lt n (by omega)
    have hread := ih hfront
    rw [fieldValue] at hread ⊢
    rw [padded, Nat.ofDigitChars_append, hread,
      Nat.ofDigitChars_cons_digitChar_of_lt_ten hlast, Nat.ofDigitChars_nil]
    omega

theorem isDigit_of_mem_padded {c : Char} (h : c ∈ padded width n) : c.isDigit = true := by
  induction width generalizing n with
  | zero => cases h
  | succ width ih =>
    rcases mem_append.mp h with h | h
    · exact ih h
    · have hall : ∀ d : Fin 10, d.val.digitChar.isDigit = true := by decide
      rw [mem_singleton.mp h]
      exact hall ⟨n % 10, Nat.mod_lt n (by omega)⟩

/-- A field and the character behind it. -/
def readField (width : Nat) (text : List Char) : Nat × List Char :=
  (fieldValue (text.take width), text.drop (width + 1))

theorem readField_padded {c : Char} {rest : List Char} (h : n < 10 ^ width) :
    readField width (padded width n ++ c :: rest) = (n, rest) := by
  have htake : (padded width n ++ c :: rest).take width = padded width n :=
    take_left' (length_padded width n)
  have hdrop : (padded width n ++ c :: rest).drop (width + 1) = rest := by
    rw [← drop_drop, drop_left' (length_padded width n)]
    rfl
  rw [readField, htake, hdrop, fieldValue_padded h]

/-! ### Dates -/

structure Date where
  (year month day : Nat)

/-- Days counted from 1 March of the year 0. A leap day is the last day of its
cycle of 4, 100 or 400 years, so the cycles can be divided off one by one. -/
structure Split where
  (era century cycle single dayOfYear : Nat)

def splitDays (all : Nat) : Split :=
  let inEra := all % 146097
  let century := min (inEra / 36524) 3
  let inCentury := inEra - 36524 * century
  let inCycle := inCentury % 1461
  let single := min (inCycle / 365) 3
  { era := all / 146097
    century := century
    cycle := inCentury / 1461
    single := single
    dayOfYear := inCycle - 365 * single }

def Split.days (s : Split) : Nat :=
  146097 * s.era + 36524 * s.century + 1461 * s.cycle + 365 * s.single + s.dayOfYear

def Split.year (s : Split) : Nat := 400 * s.era + 100 * s.century + 4 * s.cycle + s.single

structure Split.Bounded (s : Split) : Prop where
  century : s.century ≤ 3
  cycle : s.cycle ≤ 24
  single : s.single ≤ 3
  dayOfYear : s.dayOfYear ≤ 365

theorem splitDays_spec (all : Nat) : (splitDays all).days = all ∧ (splitDays all).Bounded := by
  unfold splitDays Split.days
  simp only
  have hera : all % 146097 < 146097 := Nat.mod_lt all (by omega)
  have hall : 146097 * (all / 146097) + all % 146097 = all := Nat.div_add_mod all 146097
  generalize all % 146097 = inEra at hera hall ⊢
  obtain ⟨hcentury, hle, hlast⟩ : min (inEra / 36524) 3 ≤ 3 ∧
      36524 * min (inEra / 36524) 3 ≤ inEra ∧ inEra - 36524 * min (inEra / 36524) 3 ≤ 36524 := by
    omega
  generalize min (inEra / 36524) 3 = century at hcentury hle hlast ⊢
  have hin : 36524 * century + (inEra - 36524 * century) = inEra := by omega
  generalize inEra - 36524 * century = inCentury at hlast hin ⊢
  have hcycle : inCentury / 1461 ≤ 24 := by omega
  have hsplit : 1461 * (inCentury / 1461) + inCentury % 1461 = inCentury :=
    Nat.div_add_mod inCentury 1461
  have hmod : inCentury % 1461 < 1461 := Nat.mod_lt inCentury (by omega)
  generalize inCentury / 1461 = cycle at hcycle hsplit ⊢
  generalize inCentury % 1461 = inCycle at hsplit hmod ⊢
  refine ⟨by omega, hcentury, hcycle, by simp, ?_⟩
  simp only
  omega

variable {s : Split}

/-- The days of the whole years before a year that begins in March. -/
theorem Split.days_year (h : s.Bounded) :
    365 * s.year + s.year / 4 + s.year / 400 + s.dayOfYear = s.days + s.year / 100 := by
  obtain ⟨hcentury, hcycle, hsingle, _⟩ := h
  have hfour : s.year / 4 = 100 * s.era + 25 * s.century + s.cycle := by
    unfold Split.year
    omega
  have hcenturies : s.year / 100 = 4 * s.era + s.century := by
    unfold Split.year
    omega
  have heras : s.year / 400 = s.era := by
    unfold Split.year
    omega
  rw [hfour, hcenturies, heras]
  unfold Split.days Split.year
  omega

def Split.date (s : Split) : Date :=
  let month := (5 * s.dayOfYear + 2) / 153
  { year := if month < 10 then s.year else s.year + 1
    month := if month < 10 then month + 3 else month - 9
    day := s.dayOfYear - (153 * month + 2) / 5 + 1 }

def Date.marchDays (date : Date) : Nat :=
  let year := if date.month ≤ 2 then date.year - 1 else date.year
  let month := if date.month ≤ 2 then date.month + 9 else date.month - 3
  365 * year + year / 4 + year / 400 - year / 100 + (153 * month + 2) / 5 + (date.day - 1)

theorem month_bounds {dayOfYear : Nat} (h : dayOfYear ≤ 365) :
    (5 * dayOfYear + 2) / 153 ≤ 11 ∧
      (153 * ((5 * dayOfYear + 2) / 153) + 2) / 5 ≤ dayOfYear ∧
      dayOfYear - (153 * ((5 * dayOfYear + 2) / 153) + 2) / 5 ≤ 30 := by
  omega

theorem Split.date_bounds (h : s.Bounded) : s.date.month < 10 ^ 2 ∧ s.date.day < 10 ^ 2 := by
  obtain ⟨hmonth, _, hspan⟩ := month_bounds h.dayOfYear
  simp only [Split.date]
  constructor
  · split <;> omega
  · omega

theorem Split.marchDays_date (h : s.Bounded) : s.date.marchDays = s.days := by
  have hyear := Split.days_year h
  obtain ⟨hmonth, hfirst, _⟩ := month_bounds h.dayOfYear
  have hcenturies : s.year / 100 ≤ 365 * s.year + s.year / 4 + s.year / 400 :=
    calc
      s.year / 100 ≤ s.year := Nat.div_le_self s.year 100
      _ ≤ 365 * s.year := Nat.le_mul_of_pos_left s.year (by omega)
      _ ≤ 365 * s.year + s.year / 4 := Nat.le_add_right _ _
      _ ≤ 365 * s.year + s.year / 4 + s.year / 400 := Nat.le_add_right _ _
  by_cases hlow : (5 * s.dayOfYear + 2) / 153 < 10
  · have hlate : ¬(5 * s.dayOfYear + 2) / 153 + 3 ≤ 2 := by omega
    have hback : (5 * s.dayOfYear + 2) / 153 + 3 - 3 = (5 * s.dayOfYear + 2) / 153 := by omega
    simp only [Split.date, Date.marchDays, if_pos hlow, if_neg hlate, hback]
    omega
  · have hearly : (5 * s.dayOfYear + 2) / 153 - 9 ≤ 2 := by omega
    have hback : (5 * s.dayOfYear + 2) / 153 - 9 + 9 = (5 * s.dayOfYear + 2) / 153 := by omega
    have hyears : s.year + 1 - 1 = s.year := by omega
    simp only [Split.date, Date.marchDays, if_neg hlow, if_pos hearly, hback, hyears]
    omega

/-- From 1 March of the year 0 to 1 January 1970. -/
def epochDays : Nat := 719468

/-- The date so many days after 1 January 1970. -/
def dateOf (days : Nat) : Date := (splitDays (days + epochDays)).date

def daysOf (date : Date) : Nat := date.marchDays - epochDays

theorem dateOf_bounds (days : Nat) : (dateOf days).month < 10 ^ 2 ∧ (dateOf days).day < 10 ^ 2 :=
  Split.date_bounds (splitDays_spec _).2

theorem dateOf_year_lt {days : Nat} (h : days ≤ 100000000) : (dateOf days).year < 10 ^ 6 := by
  obtain ⟨hdays, hcentury, hcycle, hsingle, _⟩ := splitDays_spec (days + epochDays)
  rw [dateOf]
  generalize splitDays (days + epochDays) = s at *
  have hyear : s.year < 999999 := by
    unfold Split.days epochDays at hdays
    unfold Split.year
    omega
  simp only [Split.date]
  split <;> omega

theorem daysOf_dateOf (days : Nat) : daysOf (dateOf days) = days := by
  obtain ⟨hdays, hbounded⟩ := splitDays_spec (days + epochDays)
  rw [daysOf, dateOf, Split.marchDays_date hbounded, hdays, Nat.add_sub_cancel]

/-! ### Instants -/

/-- The last instant that a `Date` can hold. -/
def maxTime : Nat := 8640000000000000

structure Clock where
  date : Date
  (hour minute second milli : Nat)

structure Clock.Bounded (c : Clock) : Prop where
  year : c.date.year < 10 ^ 6
  month : c.date.month < 10 ^ 2
  day : c.date.day < 10 ^ 2
  hour : c.hour < 10 ^ 2
  minute : c.minute < 10 ^ 2
  second : c.second < 10 ^ 2
  milli : c.milli < 10 ^ 3

def clockOf (time : Nat) : Clock :=
  { date := dateOf (time / 86400000)
    hour := time / 3600000 % 24
    minute := time / 60000 % 60
    second := time / 1000 % 60
    milli := time % 1000 }

def Clock.time (c : Clock) : Nat :=
  (((daysOf c.date * 24 + c.hour) * 60 + c.minute) * 60 + c.second) * 1000 + c.milli

/-- What stands behind the year. -/
def Clock.rest (c : Clock) : List Char :=
  padded 2 c.date.month ++ '-' :: (padded 2 c.date.day ++ 'T' :: (padded 2 c.hour ++
    ':' :: (padded 2 c.minute ++ ':' :: (padded 2 c.second ++ '.' :: (padded 3 c.milli ++ ['Z'])))))

def Clock.text (c : Clock) : List Char :=
  if c.date.year < 10 ^ 4 then padded 4 c.date.year ++ '-' :: c.rest
  else '+' :: (padded 6 c.date.year ++ '-' :: c.rest)

/-- `Date.prototype.toISOString`, which throws out of the range of a `Date`. -/
def toISOString (time : Nat) : Option String :=
  if time ≤ maxTime then some (String.ofList (clockOf time).text) else none

def readYear : List Char → Nat × List Char
  | '+' :: digits => readField 6 digits
  | digits => readField 4 digits

def readRest (year : Nat) (text : List Char) : Clock :=
  let (month, text) := readField 2 text
  let (day, text) := readField 2 text
  let (hour, text) := readField 2 text
  let (minute, text) := readField 2 text
  let (second, text) := readField 2 text
  let (milli, _) := readField 3 text
  { date := { year, month, day }, hour, minute, second, milli }

def readClock (text : List Char) : Clock :=
  let (year, rest) := readYear text
  readRest year rest

/-- The texts that `toISOString` writes, and no other. -/
def parseISOString (text : String) : Option Nat :=
  let time := (readClock text.toList).time
  if toISOString time = some text then some time else none

theorem clockOf_bounded {time : Nat} (h : time ≤ maxTime) : (clockOf time).Bounded := by
  obtain ⟨hmonth, hday⟩ := dateOf_bounds (time / 86400000)
  have hdays : time / 86400000 ≤ 100000000 := by
    unfold maxTime at h
    omega
  refine ⟨dateOf_year_lt hdays, hmonth, hday, ?_, ?_, ?_, ?_⟩ <;> simp only [clockOf] <;> omega

theorem time_clockOf (time : Nat) : (clockOf time).time = time := by
  simp only [Clock.time, clockOf, daysOf_dateOf]
  omega

theorem readYear_digits {year : Nat} {c : Char} {rest : List Char} (h : year < 10 ^ 4) :
    readYear (padded 4 year ++ c :: rest) = (year, rest) := by
  have hread : readField 4 (padded 4 year ++ c :: rest) = (year, rest) := readField_padded h
  have hplus : '+' ∉ padded 4 year := fun hmem => absurd (isDigit_of_mem_padded hmem) (by decide)
  have hlength := length_padded 4 year
  cases hdigits : padded 4 year with
  | nil => rw [hdigits] at hlength; cases hlength
  | cons d digits =>
    rw [hdigits] at hread hplus
    have hd : d ≠ '+' := fun hd => hplus (hd ▸ mem_cons_self)
    rw [cons_append] at hread ⊢
    rw [readYear, hread]
    intro rest' heq
    exact hd (List.cons.inj heq).1

theorem readRest_rest {c : Clock} (h : c.Bounded) : readRest c.date.year c.rest = c := by
  simp only [readRest, Clock.rest, readField_padded h.month, readField_padded h.day,
    readField_padded h.hour, readField_padded h.minute, readField_padded h.second,
    readField_padded h.milli]

theorem readClock_text {c : Clock} (h : c.Bounded) : readClock c.text = c := by
  have hread : readYear c.text = (c.date.year, c.rest) := by
    unfold Clock.text
    split
    · next hsmall => exact readYear_digits hsmall
    · exact readField_padded h.year
  rw [readClock, hread]
  exact readRest_rest h

/-- An instant is read back as it was written. -/
theorem parseISOString_toISOString {time : Nat} {text : String}
    (h : toISOString time = some text) : parseISOString text = some time := by
  unfold toISOString at h
  split at h
  next hrange =>
    cases h
    have htime : (readClock (String.ofList (clockOf time).text).toList).time = time := by
      rw [String.toList_ofList, readClock_text (clockOf_bounded hrange), time_clockOf]
    rw [parseISOString, htime, toISOString, if_pos hrange]
    exact if_pos rfl
  · cases h

/-! ### The form of a text -/

def isISOChar (c : Char) : Bool := c.isDigit || c ∈ ['-', '+', 'T', ':', '.', 'Z']

theorem all_padded (width n : Nat) : (padded width n).all isISOChar = true := by
  rw [all_eq_true]
  intro c hc
  simp [isISOChar, isDigit_of_mem_padded hc]

theorem Clock.all_text (c : Clock) : c.text.all isISOChar = true := by
  have hrest : c.rest.all isISOChar = true := by
    simp only [Clock.rest, all_append, all_cons, all_nil, all_padded]
    decide
  have hdash : ('-' :: c.rest).all isISOChar = true := by
    rw [all_cons, hrest]
    decide
  unfold Clock.text
  split
  · rw [all_append, all_padded, hdash]
    rfl
  · rw [all_cons, all_append, all_padded, hdash]
    decide

theorem toISOString_form {time : Nat} {text : String} (h : toISOString time = some text) :
    text.toList.length ≤ 27 ∧ text.toList.all isISOChar = true := by
  unfold toISOString at h
  split at h
  · cases h
    rw [String.toList_ofList]
    refine ⟨?_, (clockOf time).all_text⟩
    unfold Clock.text Clock.rest
    split <;> simp
  · cases h

end Bis.Calendar
