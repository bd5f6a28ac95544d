import Mathlib.Data.Int.Notation
import Mathlib.Tactic.Common

set_option autoImplicit false

/-!
# Dates of 64 bits

Times of 64 bits against dates, on a system whose own times have 32 bits. A `Year` and a
`Time64_T` are integers; what `safe_year` makes of a `Year` has to fit 64 bits, and elsewhere no
value comes near them. An `int` is an integer where a value is stored or compared; a sum or a
product of two of them has to fit.
-/
namespace Shashlik.Time64

/-- How a call ends that does not return: in what C leaves undefined, or at an assertion. -/
inductive Fault where
  | undefined
  | aborted
  deriving DecidableEq

def intMin : ℤ := -2147483648
def intMax : ℤ := 2147483647

/-- The value of an `int` expression. -/
def int (x : ℤ) : Except Fault ℤ :=
  if intMin ≤ x ∧ x ≤ intMax then .ok x else .error .undefined

/-- The value of a `Year` expression. -/
def int64 (x : ℤ) : Except Fault ℤ :=
  if -9223372036854775808 ≤ x ∧ x ≤ 9223372036854775807 then .ok x else .error .undefined

/-- What is left of a longer value in an `int`, or in a `time_t`. -/
def toInt (x : ℤ) : ℤ := Int.bmod x 4294967296

def assertion (p : Prop) [Decidable p] : Except Fault Unit :=
  if p then .ok () else .error .aborted

def entry {α : Type} (table : List α) (i : ℤ) : Except Fault α :=
  if 0 ≤ i then
    match table[i.toNat]? with
    | some x => .ok x
    | none => .error .undefined
  else .error .undefined

structure Tm where
  tmSec : ℤ
  tmMin : ℤ
  tmHour : ℤ
  tmMday : ℤ
  tmMon : ℤ
  tmYear : ℤ
  tmWday : ℤ
  tmYday : ℤ
  tmIsdst : ℤ
  deriving DecidableEq

/-! ### The tables -/

def daysInMonth (leap : Bool) : List ℤ :=
  if leap then [31, 29, 31, 30, 31, 30, 31, 31, 30, 31, 30, 31]
  else [31, 28, 31, 30, 31, 30, 31, 31, 30, 31, 30, 31]

def julianDaysByMonth (leap : Bool) : List ℤ :=
  if leap then [0, 31, 60, 91, 121, 152, 182, 213, 244, 274, 305, 335]
  else [0, 31, 59, 90, 120, 151, 181, 212, 243, 273, 304, 334]

def wdayName : List (List Char) :=
  ["Sun", "Mon", "Tue", "Wed", "Thu", "Fri", "Sat"].map String.toList

def monName : List (List Char) :=
  ["Jan", "Feb", "Mar", "Apr", "May", "Jun", "Jul", "Aug", "Sep", "Oct", "Nov", "Dec"].map
    String.toList

def lengthOfYear (leap : Bool) : ℤ := if leap then 366 else 365

def yearsInGregorianCycle : ℤ := 400
def daysInGregorianCycle : ℤ := 365 * 400 + 100 - 4 + 1
def secondsInGregorianCycle : ℤ := daysInGregorianCycle * 60 * 60 * 24

def maxSafeYear : ℤ := 2037
def minSafeYear : ℤ := 1971
def solarCycleLength : ℤ := 28

def safeYearsHigh : List ℤ :=
  [2016, 2017, 2018, 2019, 2020, 2021, 2022, 2023, 2024, 2025, 2026, 2027, 2028, 2029,
    2030, 2031, 2032, 2033, 2034, 2035, 2036, 2037, 2010, 2011, 2012, 2013, 2014, 2015]

def safeYearsLow : List ℤ :=
  [1996, 1997, 1998, 1971, 1972, 1973, 1974, 1975, 1976, 1977, 1978, 1979, 1980, 1981,
    1982, 1983, 1984, 1985, 1986, 1987, 1988, 1989, 1990, 1991, 1992, 1993, 1994, 1995]

def cheatDays : ℤ := 13879
def cheatYears : ℤ := 108

def isLeap (n : ℤ) : Bool :=
  decide ((n + 1900).tmod 400 = 0) ||
    (decide ((n + 1900).tmod 4 = 0) && decide ((n + 1900).tmod 100 ≠ 0))

/-- `IS_LEAP` of an `int`, whose sum is an `int` as well. -/
def isLeapInt (n : ℤ) : Except Fault Bool := do
  let _ ← int (n + 1900)
  pure (isLeap n)

def wrap (a b m : ℤ) : ℤ × ℤ := if a < 0 then (a + m, b - 1) else (a, b)

def isExceptionCentury (year : ℤ) : Bool :=
  decide (year.tmod 100 = 0) && !decide (year.tmod 400 = 0)

theorem lengthOfYear_pos (leap : Bool) : 0 < lengthOfYear leap := by cases leap <;> decide

/-! ### From a date to a time -/

def yearsFrom (year origYear days : ℤ) : ℤ :=
  if year < origYear then yearsFrom (year + 1) origYear (days + lengthOfYear (isLeap year)) else days
termination_by (origYear - year).toNat

def yearsDownTo (year origYear days : ℤ) : ℤ :=
  let days := days - lengthOfYear (isLeap year)
  if year - 1 ≥ origYear then yearsDownTo (year - 1) origYear days else days
termination_by (year - origYear).toNat

def timegm64 (date : Tm) : Except Fault ℤ := do
  let origYear := date.tmYear
  let cycles :=
    if origYear > 100 then toInt ((origYear - 100).tdiv 400)
    else if origYear < -300 then toInt ((origYear - 100).tdiv 400)
    else 0
  let years ← int (cycles * 400)
  let origYear := origYear - years
  let days := cycles * daysInGregorianCycle
  let days :=
    if origYear > 70 then yearsFrom 70 origYear days
    else if origYear < 70 then yearsDownTo 69 origYear days
    else days
  let julian ← entry (julianDaysByMonth (isLeap origYear)) date.tmMon
  let mday ← int (date.tmMday - 1)
  let hours ← int (date.tmHour * 60 * 60)
  let mins ← int (date.tmMin * 60)
  pure ((days + julian + mday) * 60 * 60 * 24 + hours + mins + date.tmSec)

def checkTm (tm : Tm) : Except Fault Unit := do
  assertion (tm.tmSec ≥ 0)
  assertion (tm.tmSec ≤ 61)
  assertion (tm.tmMin ≥ 0)
  assertion (tm.tmMin ≤ 59)
  assertion (tm.tmHour ≥ 0)
  assertion (tm.tmHour ≤ 23)
  assertion (tm.tmMday ≥ 1)
  let leap ← isLeapInt tm.tmYear
  let days ← entry (daysInMonth leap) tm.tmMon
  assertion (tm.tmMday ≤ days)
  assertion (tm.tmMon ≥ 0)
  assertion (tm.tmMon ≤ 11)
  assertion (tm.tmWday ≥ 0)
  assertion (tm.tmWday ≤ 6)
  assertion (tm.tmYday ≥ 0)
  let leap ← isLeapInt tm.tmYear
  assertion (tm.tmYday ≤ lengthOfYear leap)

/-! ### From a time to a date -/

def yearsUp (m year : ℤ) : ℤ × ℤ :=
  if m ≥ lengthOfYear (isLeap year) then
    yearsUp (m - lengthOfYear (isLeap year)) (year + 1)
  else (m, year)
termination_by m.toNat
decreasing_by
  have := lengthOfYear_pos (isLeap year)
  omega

/-- The month loop, over what is left of a row of `days_in_month`. -/
def monthsUp : List ℤ → ℤ → ℤ → Except Fault (ℤ × ℤ)
  | [], _, _ => .error .undefined
  | days :: row, m, mon => if m ≥ days then monthsUp row (m - days) (mon + 1) else .ok (m, mon)

def yearsDown (m year : ℤ) : ℤ × ℤ :=
  if m < -lengthOfYear (isLeap year) then
    yearsDown (m + lengthOfYear (isLeap year)) (year - 1)
  else (m, year)
termination_by (-m).toNat
decreasing_by
  have := lengthOfYear_pos (isLeap year)
  omega

/-- The month loop backwards: the row is read from its end. -/
def monthsDown : List ℤ → ℤ → ℤ → Except Fault (ℤ × ℤ)
  | [], _, _ => .error .undefined
  | days :: row, m, mon =>
    if m < -days then monthsDown row (m + days) (mon - 1) else .ok (m + days, mon)

def forwards (m year : ℤ) : Except Fault (ℤ × ℤ × ℤ) := do
  let cycles := toInt (m.tdiv daysInGregorianCycle)
  let m := m - cycles * daysInGregorianCycle
  let year := year + cycles * yearsInGregorianCycle
  let (m, year) := yearsUp m year
  let (m, mon) ← monthsUp (daysInMonth (isLeap year)) m 0
  pure (m, mon, year)

def backwards (m year : ℤ) : Except Fault (ℤ × ℤ × ℤ) := do
  let year := year - 1
  let cycles := toInt (m.tdiv daysInGregorianCycle + 1)
  let m := m - cycles * daysInGregorianCycle
  let year := year + cycles * yearsInGregorianCycle
  let (m, year) := yearsDown m year
  let (m, mon) ← monthsDown (daysInMonth (isLeap year)).reverse m 11
  pure (m, mon, year)

def clock (time : ℤ) : ℤ × ℤ × ℤ × ℤ :=
  let sec := time.tmod 60
  let time := time.tdiv 60
  let min := time.tmod 60
  let time := time.tdiv 60
  let hour := time.tmod 24
  let tday := time.tdiv 24
  let (sec, min) := wrap sec min 60
  let (min, hour) := wrap min hour 60
  let (hour, tday) := wrap hour tday 24
  (sec, min, hour, tday)

def weekday (tday : ℤ) : ℤ :=
  let wday := (tday + 4).tmod 7
  if wday < 0 then wday + 7 else wday

def dateOfDay (tday : ℤ) : Except Fault (ℤ × ℤ × ℤ) :=
  let (m, year) := if tday ≥ cheatDays then (tday - cheatDays, cheatYears) else (tday, 70)
  if m ≥ 0 then forwards m year else backwards m year

/-- `gmtime64_r`; the answer `none` is a null pointer. -/
def gmtime64R (time : ℤ) : Except Fault (Option Tm) := do
  let (sec, min, hour, tday) := clock time
  let (m, mon, year) ← dateOfDay tday
  let tmYear := toInt year
  if tmYear ≠ year then pure none
  else
    let julian ← entry (julianDaysByMonth (isLeap year)) mon
    let p : Tm :=
      { tmSec := sec
        tmMin := min
        tmHour := hour
        tmMday := toInt m + 1
        tmMon := mon
        tmYear := tmYear
        tmWday := weekday tday
        tmYday := julian + toInt m
        tmIsdst := 0 }
    checkTm p
    pure (some p)

/-! ### Years that the system knows -/

def cycleOffset (year : ℤ) : Except Fault ℤ := do
  let startYear := 2000
  let yearDiff ← int64 (year - startYear)
  let yearDiff := if year > startYear then yearDiff - 1 else yearDiff
  pure ((yearDiff.tdiv 100 - yearDiff.tdiv 400) * 16)

def addIf (p : Prop) [Decidable p] (yearCycle y : ℤ) : Except Fault ℤ :=
  if p then int64 (yearCycle + y) else .ok yearCycle

def yearCycle (year : ℤ) : Except Fault ℤ := do
  let offset ← cycleOffset year
  let yearCycle ← int64 (year + offset)
  let yearCycle ← addIf (year < minSafeYear) yearCycle (-8)
  let yearCycle ← addIf (isExceptionCentury year = true) yearCycle 11
  let yearBefore ← int64 (year - 1)
  let yearCycle ← addIf (isExceptionCentury yearBefore = true) yearCycle 17
  let yearCycle := yearCycle.tmod solarCycleLength
  pure (if yearCycle < 0 then solarCycleLength + yearCycle else yearCycle)

def safeYearsEntry (year yearCycle : ℤ) : Except Fault ℤ :=
  if year < minSafeYear then entry safeYearsLow yearCycle
  else if year > maxSafeYear then entry safeYearsHigh yearCycle
  else .error .aborted

def safeYear (year : ℤ) : Except Fault ℤ :=
  if year ≥ minSafeYear ∧ year ≤ maxSafeYear then .ok year
  else do
    let yearCycle ← yearCycle year
    assertion (yearCycle ≥ 0)
    assertion (yearCycle < solarCycleLength)
    let safe ← safeYearsEntry year yearCycle
    assertion (safe ≤ maxSafeYear ∧ safe ≥ minSafeYear)
    pure safe

/-- The loop `while( left_year != right_year )`. Away from `left_year` it runs until the year
    overflows. -/
def yearsBetween (leftYear rightYear : ℤ) (up : Bool) (seconds : ℤ) : Except Fault ℤ :=
  if leftYear = rightYear then .ok seconds
  else
    let seconds := seconds + lengthOfYear (isLeap (rightYear - 1900)) * 60 * 60 * 24
    if up then
      if rightYear < leftYear then yearsBetween leftYear (rightYear + 1) up seconds
      else .error .undefined
    else
      if leftYear < rightYear then yearsBetween leftYear (rightYear - 1) up seconds
      else .error .undefined
termination_by (leftYear - rightYear).natAbs

def secondsBetweenYears (leftYear rightYear : ℤ) : Except Fault ℤ := do
  let up := decide (leftYear > rightYear)
  let (leftYear, seconds) ←
    if leftYear > 2400 then do
      let cycles := toInt ((leftYear - 2400).tdiv 400)
      let years ← int (cycles * 400)
      pure (leftYear - years, cycles * secondsInGregorianCycle)
    else if leftYear < 1600 then do
      let cycles := toInt ((leftYear - 1600).tdiv 400)
      let years ← int (cycles * 400)
      pure (leftYear + years, cycles * secondsInGregorianCycle)
    else pure (leftYear, 0)
  let seconds ← yearsBetween leftYear rightYear up seconds
  pure (seconds * if up then 1 else -1)

section System
/-! The system's own functions: `localtime` of a `time_t`, and `mktime`, which also brings its
date into shape. -/
variable (localtime : ℤ → Option Tm) (mktime : Tm → ℤ × Tm)

def mktime64 (inputDate : Tm) : Except Fault ℤ := do
  let year ← int (inputDate.tmYear + 1900)
  if minSafeYear ≤ year ∧ year ≤ maxSafeYear then pure (mktime inputDate).1
  else
    let safe ← safeYear year
    let (time, safeDate) := mktime { inputDate with tmYear := safe - 1900 }
    let right ← int (safeDate.tmYear + 1900)
    let between ← secondsBetweenYears year right
    pure (time + between)

def safeDate (gmTm : Tm) : Except Fault Tm :=
  if gmTm.tmYear > 2037 - 1900 ∨ gmTm.tmYear < 1970 - 1900 then do
    let year ← int (gmTm.tmYear + 1900)
    let safe ← safeYear year
    pure { gmTm with tmYear := safe - 1900 }
  else pure gmTm

/-- A new year lies between the two dates where their months are far apart. -/
def shiftYear (tmYear monthDiff : ℤ) : Except Fault ℤ := do
  let tmYear ← if monthDiff = 11 then int (tmYear - 1) else pure tmYear
  if monthDiff = -11 then int (tmYear + 1) else pure tmYear

def restoreYear (origYear : ℤ) (gmTm localTm : Tm) : Except Fault Tm := do
  let monthDiff ← int (localTm.tmMon - gmTm.tmMon)
  let tmYear ← shiftYear origYear monthDiff
  let localTm := { localTm with tmYear := tmYear }
  let leap ← isLeapInt localTm.tmYear
  let localTm :=
    if leap = false ∧ localTm.tmYday = 365 then { localTm with tmYday := localTm.tmYday - 1 }
    else localTm
  checkTm localTm
  pure localTm

def localtime64R (time : ℤ) : Except Fault (Option Tm) := do
  match ← gmtime64R time with
  | none => pure none
  | some gmTm =>
    let safe ← safeDate gmTm
    let safeTime ← timegm64 safe
    match localtime (toInt safeTime) with
    | none => pure none
    | some date =>
      let localTm ← restoreYear gmTm.tmYear safe date
      pure (some localTm)

end System

/-! ### Texts -/

/-- The size of `Static_Return_String`. -/
def staticReturnString : ℕ := 35

def digits (least : ℕ) (n : ℤ) : List Char :=
  let text := Nat.toDigits 10 n.natAbs
  (if n < 0 then ['-'] else []) ++ List.replicate (least - text.length) '0' ++ text

def padded (n : ℤ) : List Char :=
  let text := digits 1 n
  List.replicate (3 - text.length) ' ' ++ text

def printed (wday mon : List Char) (date : Tm) (year : ℤ) : List Char :=
  wday ++ ' ' :: (mon ++ (padded date.tmMday ++ ' ' :: (digits 2 date.tmHour ++
    ':' :: (digits 2 date.tmMin ++ ':' :: (digits 2 date.tmSec ++ ' ' ::
      (digits 1 year ++ "\n".toList))))))

def asctime64R (date : Tm) : Except Fault (Option (List Char)) :=
  if ¬(0 ≤ date.tmWday ∧ date.tmWday ≤ 6) ∨ ¬(0 ≤ date.tmMon ∧ date.tmMon ≤ 11) then pure none
  else do
    let wday ← entry wdayName date.tmWday
    let mon ← entry monName date.tmMon
    let year ← int (1900 + date.tmYear)
    pure (some (printed wday mon date year))

def asctime64 (date : Tm) : Except Fault (Option (List Char)) := do
  match ← asctime64R date with
  | none => pure none
  | some text => if text.length + 1 ≤ staticReturnString then pure (some text) else .error .undefined

end Shashlik.Time64
