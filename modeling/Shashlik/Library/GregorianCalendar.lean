import Mathlib.Data.Int.LeastGreatest
import Mathlib.Order.SuccPred.Archimedean
import Mathlib.Algebra.Order.Group.Int
import Mathlib.Algebra.Order.SuccPred
import Mathlib.Data.Int.SuccPred
import Mathlib.Tactic.Common

set_option autoImplicit false

/-!
# The Gregorian calendar

The days of the calendar without a first year, numbered from the first day of the year 1, and
their seconds. A date and a time of day carry their bounds, so that each number stands for one.
-/
namespace GregorianCalendar

def isLeap (year : ℤ) : Bool :=
  decide (year % 400 = 0) || (decide (year % 4 = 0) && decide (year % 100 ≠ 0))

def yearLength (leap : Bool) : ℤ := if leap then 366 else 365

/-- The days before the first of January of a year. -/
def daysBefore (year : ℤ) : ℤ :=
  365 * (year - 1) + (year - 1) / 4 - (year - 1) / 100 + (year - 1) / 400

theorem isLeap_iff (year : ℤ) :
    isLeap year = true ↔ year % 400 = 0 ∨ (year % 4 = 0 ∧ year % 100 ≠ 0) := by
  simp [isLeap]

theorem yearLength_bounds (leap : Bool) : 365 ≤ yearLength leap ∧ yearLength leap ≤ 366 := by
  cases leap <;> decide

theorem daysBefore_succ (year : ℤ) :
    daysBefore (year + 1) = daysBefore year + yearLength (isLeap year) := by
  have hleap := isLeap_iff year
  unfold daysBefore yearLength
  split
  · have := hleap.mp ‹_›
    omega
  · have := mt hleap.mpr ‹_›
    omega

/-! ### The cycle of 400 years -/

@[simp] theorem isLeap_cycle (year cycles : ℤ) : isLeap (year + 400 * cycles) = isLeap year := by
  rw [Bool.eq_iff_iff, isLeap_iff, isLeap_iff]
  omega

theorem daysBefore_cycle (year cycles : ℤ) :
    daysBefore (year + 400 * cycles) = daysBefore year + 146097 * cycles := by
  unfold daysBefore
  omega

def firstWeekday (year : ℤ) : ℤ := (daysBefore year + 1) % 7

@[simp] theorem firstWeekday_cycle (year cycles : ℤ) :
    firstWeekday (year + 400 * cycles) = firstWeekday year := by
  unfold firstWeekday
  rw [daysBefore_cycle]
  omega

/-! ### Years and months -/

theorem daysBefore_lt_iff {a b : ℤ} : daysBefore a < daysBefore b ↔ a < b := by
  have hmono : StrictMono daysBefore := strictMono_int_of_lt_succ fun year => by
    have := yearLength_bounds (isLeap year)
    rw [daysBefore_succ]
    omega
  exact hmono.lt_iff_lt

theorem year_unique {a b n : ℤ} (ha : daysBefore a ≤ n) (ha' : n < daysBefore (a + 1))
    (hb : daysBefore b ≤ n) (hb' : n < daysBefore (b + 1)) : a = b := by
  have hab : a < b + 1 := daysBefore_lt_iff.mp (ha.trans_lt hb')
  have hba : b < a + 1 := daysBefore_lt_iff.mp (hb.trans_lt ha')
  omega

theorem exists_year (n : ℤ) : ∃ year, daysBefore year ≤ n ∧ n < daysBefore (year + 1) := by
  have hbelow : ∃ year, daysBefore year ≤ n :=
    ⟨-(n.natAbs : ℤ), by unfold daysBefore; omega⟩
  have habove : ∃ bound, ∀ year, daysBefore year ≤ n → year ≤ bound := by
    refine ⟨n.natAbs + 1, fun year hyear => ?_⟩
    unfold daysBefore at hyear
    omega
  obtain ⟨year, hyear, hmax⟩ := Int.exists_greatest_of_bdd habove hbelow
  refine ⟨year, hyear, ?_⟩
  by_contra hle
  have := hmax (year + 1) (not_lt.mp hle)
  omega

def monthLength (leap : Bool) (month : ℕ) : ℤ :=
  match month with
  | 1 => if leap then 29 else 28
  | 3 | 5 | 8 | 10 => 30
  | _ => 31

def daysBeforeMonth (leap : Bool) : ℕ → ℤ
  | 0 => 0
  | month + 1 => daysBeforeMonth leap month + monthLength leap month

theorem monthLength_bounds (leap : Bool) (month : ℕ) :
    28 ≤ monthLength leap month ∧ monthLength leap month ≤ 31 := by
  unfold monthLength
  cases leap <;> split <;> simp

@[simp] theorem daysBeforeMonth_twelve (leap : Bool) :
    daysBeforeMonth leap 12 = yearLength leap := by
  cases leap <;> decide

theorem daysBeforeMonth_lt_iff (leap : Bool) {a b : ℕ} :
    daysBeforeMonth leap a < daysBeforeMonth leap b ↔ a < b := by
  have hmono : StrictMono (daysBeforeMonth leap) := strictMono_nat_of_lt_succ fun month => by
    have := monthLength_bounds leap month
    change _ < daysBeforeMonth leap month + monthLength leap month
    omega
  exact hmono.lt_iff_lt

theorem daysBeforeMonth_le (leap : Bool) {a b : ℕ} (h : a ≤ b) :
    daysBeforeMonth leap a ≤ daysBeforeMonth leap b :=
  not_lt.mp (mt (daysBeforeMonth_lt_iff leap).mp (not_lt.mpr h))

theorem exists_month (leap : Bool) {n : ℤ} (hn : 0 ≤ n) (months : ℕ)
    (hmonths : n < daysBeforeMonth leap months) : ∃ month < months,
      daysBeforeMonth leap month ≤ n ∧ n < daysBeforeMonth leap (month + 1) := by
  induction months with
  | zero => exact absurd hmonths (not_lt.mpr hn)
  | succ months ih =>
    by_cases h : n < daysBeforeMonth leap months
    · obtain ⟨month, hlt, hbetween⟩ := ih h
      exact ⟨month, by omega, hbetween⟩
    · exact ⟨months, by omega, not_lt.mp h, hmonths⟩

/-! ### Dates -/

/-- A day of a month, both counted from 0. -/
@[ext] structure Date where
  year : ℤ
  month : ℕ
  day : ℤ
  month_lt : month < 12
  day_nonneg : 0 ≤ day
  day_lt : day < monthLength (isLeap year) month

namespace Date

def dayOfYear (d : Date) : ℤ := daysBeforeMonth (isLeap d.year) d.month + d.day

def dayNumber (d : Date) : ℤ := daysBefore d.year + d.dayOfYear

def weekday (d : Date) : ℤ := (d.dayNumber + 1) % 7

theorem dayOfYear_bounds (d : Date) :
    0 ≤ d.dayOfYear ∧ d.dayOfYear < yearLength (isLeap d.year) := by
  have hzero : 0 ≤ daysBeforeMonth (isLeap d.year) d.month :=
    daysBeforeMonth_le _ (Nat.zero_le d.month)
  have htwelve : daysBeforeMonth (isLeap d.year) (d.month + 1) ≤ yearLength (isLeap d.year) := by
    rw [← daysBeforeMonth_twelve]
    exact daysBeforeMonth_le _ d.month_lt
  have := d.day_nonneg
  have := d.day_lt
  rw [daysBeforeMonth] at htwelve
  unfold dayOfYear
  omega

theorem dayNumber_bounds (d : Date) :
    daysBefore d.year ≤ d.dayNumber ∧ d.dayNumber < daysBefore (d.year + 1) := by
  have := d.dayOfYear_bounds
  rw [daysBefore_succ]
  unfold dayNumber
  omega

theorem dayNumber_injective : Function.Injective dayNumber := by
  intro d e h
  have hd := d.dayNumber_bounds
  have he := e.dayNumber_bounds
  have hyear : d.year = e.year :=
    year_unique hd.1 hd.2 (h ▸ he.1) (h ▸ he.2)
  have hday : d.dayOfYear = e.dayOfYear := by
    unfold dayNumber at h
    rw [hyear] at h
    omega
  unfold dayOfYear at hday
  rw [hyear] at hday
  have hdlt := hyear ▸ d.day_lt
  have helt := e.day_lt
  have hdnonneg := d.day_nonneg
  have henonneg := e.day_nonneg
  have hmonth : d.month = e.month := by
    have hde : d.month < e.month + 1 := by
      refine (daysBeforeMonth_lt_iff (isLeap e.year)).mp ?_
      rw [daysBeforeMonth]
      omega
    have hed : e.month < d.month + 1 := by
      refine (daysBeforeMonth_lt_iff (isLeap e.year)).mp ?_
      rw [daysBeforeMonth]
      omega
    omega
  refine Date.ext hyear hmonth ?_
  rw [hmonth] at hday
  omega

theorem dayNumber_surjective : Function.Surjective dayNumber := by
  intro n
  obtain ⟨year, hle, hlt⟩ := exists_year n
  rw [daysBefore_succ, ← daysBeforeMonth_twelve] at hlt
  obtain ⟨month, hmonth, hfrom, hto⟩ :=
    exists_month (isLeap year) (n := n - daysBefore year) (by omega) 12 (by omega)
  rw [daysBeforeMonth] at hto
  refine ⟨⟨year, month, n - daysBefore year - daysBeforeMonth (isLeap year) month, hmonth,
    by omega, by omega⟩, ?_⟩
  unfold dayNumber dayOfYear
  dsimp only
  omega

theorem weekday_bounds (d : Date) : 0 ≤ d.weekday ∧ d.weekday ≤ 6 := by
  unfold weekday
  omega

/-! ### The same date in another year -/

/-- A date moved into a year that has it. -/
def inYear (d : Date) (year : ℤ) (h : d.month = 0 ∨ isLeap year = isLeap d.year) : Date where
  year := year
  month := d.month
  day := d.day
  month_lt := d.month_lt
  day_nonneg := d.day_nonneg
  day_lt := by
    obtain hmonth | hleap := h
    · have := d.day_lt
      rw [hmonth] at this ⊢
      exact this
    · rw [hleap]
      exact d.day_lt

variable {d : Date} {year : ℤ} (h : d.month = 0 ∨ isLeap year = isLeap d.year)

@[simp] theorem inYear_year : (d.inYear year h).year = year := rfl
@[simp] theorem inYear_month : (d.inYear year h).month = d.month := rfl
@[simp] theorem inYear_day : (d.inYear year h).day = d.day := rfl

@[simp] theorem inYear_dayOfYear : (d.inYear year h).dayOfYear = d.dayOfYear := by
  unfold dayOfYear
  dsimp only [inYear_year, inYear_month, inYear_day]
  obtain hmonth | hleap := h
  · rw [hmonth, daysBeforeMonth, daysBeforeMonth]
  · rw [hleap]

theorem inYear_dayNumber : (d.inYear year h).dayNumber =
    d.dayNumber + (daysBefore year - daysBefore d.year) := by
  unfold dayNumber
  rw [inYear_dayOfYear, inYear_year]
  omega

theorem inYear_weekday (hstart : firstWeekday year = firstWeekday d.year) :
    (d.inYear year h).weekday = d.weekday := by
  unfold weekday
  rw [inYear_dayNumber]
  unfold firstWeekday at hstart
  omega

/-! ### The ends of a year -/

theorem newYear_of_dayNumber (hday : d.dayNumber = daysBefore year) :
    d.year = year ∧ d.month = 0 ∧ d.day = 0 := by
  have hlength := monthLength_bounds (isLeap year) 0
  have heq : d = ⟨year, 0, 0, by omega, by omega, by omega⟩ := by
    refine dayNumber_injective ?_
    rw [hday]
    exact (Int.add_zero _).symm
  exact ⟨congrArg Date.year heq, congrArg Date.month heq, congrArg Date.day heq⟩

theorem newYearsEve_of_dayNumber (hday : d.dayNumber = daysBefore (year + 1) - 1) :
    d.year = year ∧ d.month = 11 ∧ d.day = 30 := by
  have hlength : monthLength (isLeap year) 11 = 31 := rfl
  have htwelve : daysBeforeMonth (isLeap year) 11 + 31 = yearLength (isLeap year) :=
    daysBeforeMonth_twelve (isLeap year)
  have heq : d = ⟨year, 11, 30, by omega, by omega, by omega⟩ := by
    refine dayNumber_injective ?_
    rw [hday, daysBefore_succ]
    unfold dayNumber dayOfYear
    dsimp only
    omega
  exact ⟨congrArg Date.year heq, congrArg Date.month heq, congrArg Date.day heq⟩

end Date

/-! ### Times of day -/

@[ext] structure Moment where
  date : Date
  hour : ℤ
  minute : ℤ
  second : ℤ
  hour_bounds : 0 ≤ hour ∧ hour < 24
  minute_bounds : 0 ≤ minute ∧ minute < 60
  second_bounds : 0 ≤ second ∧ second < 60

namespace Moment

def secondOfDay (m : Moment) : ℤ := m.hour * 3600 + m.minute * 60 + m.second

def seconds (m : Moment) : ℤ := m.date.dayNumber * 86400 + m.secondOfDay

theorem secondOfDay_bounds (m : Moment) : 0 ≤ m.secondOfDay ∧ m.secondOfDay < 86400 := by
  have := m.hour_bounds
  have := m.minute_bounds
  have := m.second_bounds
  unfold secondOfDay
  omega

theorem seconds_injective : Function.Injective seconds := by
  intro m n h
  have hm := m.secondOfDay_bounds
  have hn := n.secondOfDay_bounds
  unfold seconds at h
  have hdate : m.date = n.date := Date.dayNumber_injective (by omega)
  have hday : m.secondOfDay = n.secondOfDay := by rw [hdate] at h; omega
  have := m.minute_bounds
  have := m.second_bounds
  have := n.minute_bounds
  have := n.second_bounds
  unfold secondOfDay at hday
  exact Moment.ext hdate (by omega) (by omega) (by omega)

def onDate (m : Moment) (date : Date) : Moment := { m with date := date }

@[simp] theorem onDate_date (m : Moment) (date : Date) : (m.onDate date).date = date := rfl

theorem onDate_seconds (m : Moment) (date : Date) : (m.onDate date).seconds =
    m.seconds + (date.dayNumber - m.date.dayNumber) * 86400 := by
  unfold seconds secondOfDay onDate
  dsimp only
  omega

theorem seconds_surjective : Function.Surjective seconds := by
  intro n
  obtain ⟨date, hdate⟩ := Date.dayNumber_surjective (n / 86400)
  refine ⟨⟨date, n % 86400 / 3600, n % 3600 / 60, n % 60, by omega, by omega, by omega⟩, ?_⟩
  unfold seconds secondOfDay
  dsimp only
  omega

end Moment

end GregorianCalendar
