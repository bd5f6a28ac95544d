import Mathlib.Algebra.Order.Ring.Int
import Shashlik.Library.GregorianCalendar
import Shashlik.Time64

set_option autoImplicit false

/-!
# Dates and times of the calendar

`gmtime64_r` and `timegm64` against the calendar: the loops over cycles, years and months find
the one date that the seconds of a time stand for, and count them back.
-/
namespace Shashlik.Time64
open GregorianCalendar

/-- The days from the first day of the year 1 to the epoch. -/
def epochDay : ℤ := 719162

def timeOf (m : Moment) : ℤ := m.seconds - epochDay * 86400

def tmOf (m : Moment) (isdst : ℤ) : Tm where
  tmSec := m.second
  tmMin := m.minute
  tmHour := m.hour
  tmMday := m.date.day + 1
  tmMon := m.date.month
  tmYear := m.date.year - 1900
  tmWday := m.date.weekday
  tmYday := m.date.dayOfYear
  tmIsdst := isdst

theorem int_of_mem {x : ℤ} (h : intMin ≤ x ∧ x ≤ intMax) : int x = .ok x := if_pos h

theorem int_eq_error {x : ℤ} (h : ¬(intMin ≤ x ∧ x ≤ intMax)) : int x = .error .undefined :=
  if_neg h

theorem toInt_eq_iff (x : ℤ) : toInt x = x ↔ intMin ≤ x ∧ x ≤ intMax := by
  unfold toInt intMin intMax Int.bmod
  dsimp only
  split <;> omega

theorem ok_bind {α β : Type} (a : α) (f : α → Except Fault β) : (.ok a >>= f) = f a := rfl

theorem bind_eq_ok_iff {α β : Type} (x : Except Fault α) (f : α → Except Fault β) (b : β) :
    (x >>= f) = .ok b ↔ ∃ a, x = .ok a ∧ f a = .ok b := by
  cases x with
  | error e => simp [bind, Except.bind]
  | ok a => simp [bind, Except.bind]

theorem int_eq_ok_iff (x y : ℤ) : int x = .ok y ↔ (intMin ≤ x ∧ x ≤ intMax) ∧ x = y := by
  unfold int
  split
  · simp [*]
  · simp [*]

theorem isLeapInt_eq_ok_iff (n : ℤ) (leap : Bool) :
    isLeapInt n = .ok leap ↔ (intMin ≤ n + 1900 ∧ n + 1900 ≤ intMax) ∧ isLeap n = leap := by
  unfold isLeapInt
  simp only [bind_eq_ok_iff, int_eq_ok_iff, pure, Except.pure, Except.ok.injEq]
  constructor
  · rintro ⟨_, ⟨hyear, -⟩, hleap⟩
    exact ⟨hyear, hleap⟩
  · rintro ⟨hyear, hleap⟩
    exact ⟨_, ⟨hyear, rfl⟩, hleap⟩

theorem assertion_eq_ok_iff {p : Prop} [Decidable p] (u : Unit) : assertion p = .ok u ↔ p := by
  unfold assertion
  split
  · simp [*]
  · simp [*]

theorem assertion_of {p : Prop} [Decidable p] (h : p) : assertion p = .ok () := if_pos h

theorem entry_natCast {α : Type} (table : List α) (i : ℕ) (x : α) (h : table[i]? = some x) :
    entry table i = .ok x := by
  unfold entry
  rw [if_pos (Int.natCast_nonneg i), Int.toNat_natCast, h]

/-! ### Division that rounds to zero -/

theorem tdiv_eq (a : ℤ) {b : ℤ} (hb : 0 < b) :
    a.tdiv b = if 0 ≤ a ∨ b ∣ a then a / b else a / b + 1 := by
  rw [Int.tdiv_eq_ediv, Int.sign_eq_one_of_pos hb]
  split <;> omega

theorem tdiv_tmod (a : ℤ) {b : ℤ} (hb : 0 < b) :
    b * a.tdiv b + a.tmod b = a ∧ -b < a.tmod b ∧ a.tmod b < b ∧
      (0 ≤ a → 0 ≤ a.tmod b) ∧ (a ≤ 0 → a.tmod b ≤ 0) := by
  refine ⟨Int.mul_tdiv_add_tmod a b, ?_, Int.tmod_lt_of_pos a hb, fun h => Int.tmod_nonneg b h,
    fun h => ?_⟩
  · have := Int.tmod_lt_of_pos (-a) hb
    rw [Int.neg_tmod] at this
    omega
  · have := Int.tmod_nonneg b (a := -a) (by omega)
    rw [Int.neg_tmod] at this
    omega

theorem tmod_eq_zero_iff (a b : ℤ) : a.tmod b = 0 ↔ a % b = 0 := by
  rw [← Int.dvd_iff_tmod_eq_zero, Int.dvd_iff_emod_eq_zero]

/-! ### The tables -/

theorem isLeap_eq (n : ℤ) : isLeap n = GregorianCalendar.isLeap (n + 1900) := by
  unfold isLeap GregorianCalendar.isLeap
  simp only [ne_eq, tmod_eq_zero_iff]

theorem lengthOfYear_eq (leap : Bool) : lengthOfYear leap = yearLength leap := rfl

theorem daysInMonth_eq (leap : Bool) :
    daysInMonth leap = (List.range 12).map (monthLength leap) := by
  cases leap <;> decide

theorem julianDaysByMonth_eq (leap : Bool) :
    julianDaysByMonth leap = (List.range 12).map (daysBeforeMonth leap) := by
  cases leap <;> decide

theorem entry_daysInMonth (leap : Bool) {month : ℕ} (h : month < 12) :
    entry (daysInMonth leap) month = .ok (monthLength leap month) := by
  refine entry_natCast _ _ _ ?_
  rw [daysInMonth_eq, List.getElem?_map, List.getElem?_range h]
  rfl

theorem entry_julianDaysByMonth (leap : Bool) {month : ℕ} (h : month < 12) :
    entry (julianDaysByMonth leap) month = .ok (daysBeforeMonth leap month) := by
  refine entry_natCast _ _ _ ?_
  rw [julianDaysByMonth_eq, List.getElem?_map, List.getElem?_range h]
  rfl

/-! ### From a date to a time -/

theorem daysBefore_next (n : ℤ) :
    daysBefore (n + 1 + 1900) = daysBefore (n + 1900) + lengthOfYear (isLeap n) := by
  rw [isLeap_eq, lengthOfYear_eq, ← daysBefore_succ]
  congr 1
  omega

theorem yearsFrom_eq {year origYear : ℤ} (days : ℤ) (h : year ≤ origYear) :
    yearsFrom year origYear days =
      days + (daysBefore (origYear + 1900) - daysBefore (year + 1900)) := by
  fun_induction yearsFrom year origYear days with
  | case1 year days hlt ih =>
    rw [ih (by omega), daysBefore_next]
    omega
  | case2 year days hge =>
    rw [show year = origYear by omega]
    omega

theorem yearsDownTo_eq {year origYear : ℤ} (days : ℤ) (h : origYear ≤ year) :
    yearsDownTo year origYear days =
      days - (daysBefore (year + 1 + 1900) - daysBefore (origYear + 1900)) := by
  fun_induction yearsDownTo year origYear days with
  | case1 year days rest hge ih =>
    have hnext := daysBefore_next year
    rw [ih hge, show year - 1 + 1 = year by omega]
    omega
  | case2 year days rest hlt =>
    have hnext := daysBefore_next year
    rw [show origYear = year by omega]
    omega

theorem timegm64_cycles {year : ℤ} (hyear : intMin ≤ year ∧ year ≤ intMax) : ∃ cycles,
    (if year > 100 then toInt ((year - 100).tdiv 400)
      else if year < -300 then toInt ((year - 100).tdiv 400) else 0) = cycles ∧
    intMin ≤ cycles * 400 ∧ cycles * 400 ≤ intMax := by
  refine ⟨_, rfl, ?_⟩
  have hcycles : (year - 100).tdiv 400 =
      if 0 ≤ year - 100 ∨ (400 : ℤ) ∣ year - 100 then (year - 100) / 400
      else (year - 100) / 400 + 1 := tdiv_eq _ (by omega)
  have hfits : toInt ((year - 100).tdiv 400) = (year - 100).tdiv 400 := by
    rw [toInt_eq_iff, hcycles]
    unfold intMin intMax at hyear ⊢
    split <;> omega
  rw [hfits, hcycles]
  unfold intMin intMax at hyear ⊢
  split_ifs <;> omega

theorem timegm64_tmOf (m : Moment) (isdst : ℤ)
    (hyear : intMin ≤ m.date.year - 1900 ∧ m.date.year - 1900 ≤ intMax) :
    timegm64 (tmOf m isdst) = .ok (timeOf m) := by
  obtain ⟨cycles, hcycles, hyears⟩ := timegm64_cycles hyear
  have hday := monthLength_bounds (GregorianCalendar.isLeap m.date.year) m.date.month
  have hleap : isLeap (m.date.year - 1900 - cycles * 400) =
      GregorianCalendar.isLeap m.date.year := by
    rw [isLeap_eq, ← isLeap_cycle m.date.year (-cycles)]
    congr 1
    omega
  have hbefore : daysBefore (m.date.year - 1900 - cycles * 400 + 1900) =
      daysBefore m.date.year - 146097 * cycles := by
    rw [show m.date.year - 1900 - cycles * 400 + 1900 = m.date.year + 400 * -cycles by omega,
      daysBefore_cycle]
    omega
  have hdays (days : ℤ) :
      (if m.date.year - 1900 - cycles * 400 > 70 then
        yearsFrom 70 (m.date.year - 1900 - cycles * 400) days
      else if m.date.year - 1900 - cycles * 400 < 70 then
        yearsDownTo 69 (m.date.year - 1900 - cycles * 400) days
      else days) = days + (daysBefore m.date.year - 146097 * cycles) - epochDay := by
    have hepoch : daysBefore (70 + 1900) = epochDay := by decide
    split_ifs with hup hdown
    · rw [yearsFrom_eq days (by omega), hbefore, hepoch]
      omega
    · rw [yearsDownTo_eq days (by omega), hbefore, show (69 : ℤ) + 1 = 70 by omega, hepoch]
      omega
    · rw [show m.date.year - 1900 - cycles * 400 + 1900 = 70 + 1900 by omega, hepoch] at hbefore
      omega
  have := m.date.day_nonneg
  have := m.date.day_lt
  have := m.hour_bounds
  have := m.minute_bounds
  unfold timegm64 tmOf
  dsimp only
  rw [hcycles, int_of_mem hyears]
  dsimp only [bind, Except.bind]
  rw [hdays, hleap, entry_julianDaysByMonth _ m.date.month_lt]
  dsimp only
  rw [int_of_mem (by unfold intMin intMax; omega), int_of_mem (by unfold intMin intMax; omega),
    int_of_mem (by unfold intMin intMax; omega)]
  unfold timeOf Moment.seconds Moment.secondOfDay Date.dayNumber Date.dayOfYear
    daysInGregorianCycle
  dsimp only [pure, Except.pure]
  congr 1
  omega

/-! ### From a time to a date -/

theorem clock_eq (time : ℤ) :
    clock time = (time % 60, time % 3600 / 60, time % 86400 / 3600, time / 86400) := by
  have hsec := tdiv_tmod time (b := 60) (by omega)
  have hmin := tdiv_tmod (time.tdiv 60) (b := 60) (by omega)
  have hhour := tdiv_tmod ((time.tdiv 60).tdiv 60) (b := 24) (by omega)
  unfold clock wrap
  dsimp only
  generalize ((time.tdiv 60).tdiv 60).tdiv 24 = tday at *
  generalize ((time.tdiv 60).tdiv 60).tmod 24 = hour at *
  generalize (time.tdiv 60).tdiv 60 = hours at *
  generalize (time.tdiv 60).tmod 60 = min at *
  generalize time.tdiv 60 = minutes at *
  generalize time.tmod 60 = sec at *
  split_ifs <;> dsimp only <;> ext <;> dsimp only <;> omega

theorem weekday_eq (tday : ℤ) : weekday tday = (tday + 4) % 7 := by
  have := tdiv_tmod (tday + 4) (b := 7) (by omega)
  unfold weekday
  dsimp only
  split_ifs <;> omega

theorem yearsUp_spec (m year : ℤ) (hm : 0 ≤ m) : 0 ≤ (yearsUp m year).1 ∧
    (yearsUp m year).1 < lengthOfYear (isLeap (yearsUp m year).2) ∧
    daysBefore ((yearsUp m year).2 + 1900) + (yearsUp m year).1 = daysBefore (year + 1900) + m := by
  fun_induction yearsUp m year with
  | case1 m year hge ih =>
    obtain ⟨hnonneg, hlt, hdays⟩ := ih (by omega)
    refine ⟨hnonneg, hlt, ?_⟩
    rw [hdays, daysBefore_next]
    omega
  | case2 m year hlt => exact ⟨hm, not_le.mp hlt, rfl⟩

theorem yearsDown_spec (m year : ℤ) (hm : m < 0) : (yearsDown m year).1 < 0 ∧
    -lengthOfYear (isLeap (yearsDown m year).2) ≤ (yearsDown m year).1 ∧
    daysBefore ((yearsDown m year).2 + 1 + 1900) + (yearsDown m year).1 =
      daysBefore (year + 1 + 1900) + m := by
  fun_induction yearsDown m year with
  | case1 m year hlt ih =>
    obtain ⟨hneg, hge, hdays⟩ := ih (by omega)
    refine ⟨hneg, hge, ?_⟩
    have hnext := daysBefore_next year
    rw [hdays, show year - 1 + 1 = year by omega]
    omega
  | case2 m year hge => exact ⟨hm, not_lt.mp hge, rfl⟩

theorem monthsUp_spec (leap : Bool) {m : ℤ} (hm : 0 ≤ m) (first count : ℕ)
    (hlt : daysBeforeMonth leap first + m < daysBeforeMonth leap (first + count)) :
    ∃ (month : ℕ) (day : ℤ),
      monthsUp ((List.range' first count).map (monthLength leap)) m first = .ok (day, month) ∧
      month < first + count ∧ 0 ≤ day ∧ day < monthLength leap month ∧
      daysBeforeMonth leap month + day = daysBeforeMonth leap first + m := by
  induction count generalizing first m with
  | zero => rw [Nat.add_zero] at hlt; omega
  | succ count ih =>
    rw [List.range'_succ, List.map_cons, monthsUp]
    have hnext : daysBeforeMonth leap (first + 1) =
        daysBeforeMonth leap first + monthLength leap first := rfl
    by_cases hge : m ≥ monthLength leap first
    · rw [if_pos hge]
      rw [show first + (count + 1) = first + 1 + count by omega] at hlt ⊢
      obtain ⟨month, day, hrun, hmonth, hnonneg, hday, hsum⟩ :=
        ih (m := m - monthLength leap first) (by omega) (first + 1) (by omega)
      refine ⟨month, day, ?_, hmonth, hnonneg, hday, by omega⟩
      rw [← hrun, Nat.cast_succ]
    · rw [if_neg hge]
      exact ⟨first, m, rfl, by omega, hm, by omega, rfl⟩

theorem monthsDown_spec (leap : Bool) {m : ℤ} (hm : m < 0) (count : ℕ)
    (hge : 0 ≤ daysBeforeMonth leap count + m) : ∃ (month : ℕ) (day : ℤ),
      monthsDown (((List.range count).map (monthLength leap)).reverse) m (count - 1) =
        .ok (day, (month : ℤ)) ∧
      month < count ∧ 0 ≤ day ∧ day < monthLength leap month ∧
      daysBeforeMonth leap month + day = daysBeforeMonth leap count + m := by
  induction count generalizing m with
  | zero => rw [daysBeforeMonth] at hge; omega
  | succ count ih =>
    have hnext : daysBeforeMonth leap (count + 1) =
        daysBeforeMonth leap count + monthLength leap count := rfl
    rw [List.range_succ, List.map_append, List.reverse_append, List.map_singleton,
      List.reverse_singleton, List.singleton_append, monthsDown, Nat.cast_succ]
    by_cases hlt : m < -monthLength leap count
    · rw [if_pos hlt]
      obtain ⟨month, day, hrun, hmonth, hnonneg, hday, hsum⟩ :=
        ih (m := m + monthLength leap count) (by omega) (by omega)
      refine ⟨month, day, ?_, by omega, hnonneg, hday, by omega⟩
      rw [← hrun]
      congr 1
      omega
    · rw [if_neg hlt]
      refine ⟨count, m + monthLength leap count, ?_, by omega, by omega, by omega, by omega⟩
      congr 2
      omega

theorem date_eq {d : Date} {year day : ℤ} {month : ℕ} (hmonth : month < 12) (hnonneg : 0 ≤ day)
    (hday : day < monthLength (GregorianCalendar.isLeap year) month)
    (hsum : daysBefore year + (daysBeforeMonth (GregorianCalendar.isLeap year) month + day) =
      d.dayNumber) : d.year = year ∧ d.month = month ∧ d.day = day := by
  have heq : d = ⟨year, month, day, hmonth, hnonneg, hday⟩ := Date.dayNumber_injective hsum.symm
  exact ⟨congrArg Date.year heq, congrArg Date.month heq, congrArg Date.day heq⟩

theorem forwards_eq (d : Date) {m year : ℤ} (hm : 0 ≤ m)
    (hcycles : toInt (m.tdiv daysInGregorianCycle) = m.tdiv daysInGregorianCycle)
    (hday : daysBefore (year + 1900) + m = d.dayNumber) :
    forwards m year = .ok (d.day, (d.month : ℤ), d.year - 1900) := by
  have hparts := tdiv_tmod m (b := daysInGregorianCycle) (by decide)
  unfold forwards
  rw [hcycles]
  dsimp only
  generalize m.tdiv daysInGregorianCycle = cycles at *
  unfold daysInGregorianCycle at *
  have hspec := yearsUp_spec (m - cycles * (365 * 400 + 100 - 4 + 1))
    (year + cycles * yearsInGregorianCycle) (by omega)
  rw [show year + cycles * yearsInGregorianCycle + 1900 = year + 1900 + 400 * cycles by
    unfold yearsInGregorianCycle; omega, daysBefore_cycle] at hspec
  generalize yearsUp _ _ = left at hspec ⊢
  obtain ⟨m', year'⟩ := left
  dsimp only at hspec ⊢
  obtain ⟨hnonneg, hlt, hdays⟩ := hspec
  rw [lengthOfYear_eq, ← daysBeforeMonth_twelve] at hlt
  obtain ⟨month, day, hrun, hmonth, hday0, hdaylt, hsum⟩ :=
    monthsUp_spec (isLeap year') hnonneg 0 12 (by rw [daysBeforeMonth]; simpa using hlt)
  rw [daysInMonth_eq, List.range_eq_range']
  rw [Nat.cast_zero] at hrun
  rw [hrun]
  rw [daysBeforeMonth, isLeap_eq] at hsum
  rw [isLeap_eq] at hdaylt
  obtain ⟨hyear, hmon, hd⟩ := date_eq (d := d) (by omega) hday0 hdaylt (by omega)
  rw [hyear, hmon, hd]
  simp [bind, Except.bind, pure, Except.pure]

theorem backwards_eq (d : Date) {m year : ℤ}
    (hcycles : toInt (m.tdiv daysInGregorianCycle + 1) = m.tdiv daysInGregorianCycle + 1)
    (hday : daysBefore (year + 1900) + m = d.dayNumber) :
    backwards m year = .ok (d.day, (d.month : ℤ), d.year - 1900) := by
  have hparts := tdiv_tmod m (b := daysInGregorianCycle) (by decide)
  unfold backwards
  rw [hcycles]
  dsimp only
  generalize m.tdiv daysInGregorianCycle = cycles at *
  unfold daysInGregorianCycle at *
  have hspec := yearsDown_spec (m - (cycles + 1) * (365 * 400 + 100 - 4 + 1))
    (year - 1 + (cycles + 1) * yearsInGregorianCycle) (by omega)
  rw [show year - 1 + (cycles + 1) * yearsInGregorianCycle + 1 + 1900 =
    year + 1900 + 400 * (cycles + 1) by unfold yearsInGregorianCycle; omega,
    daysBefore_cycle] at hspec
  generalize yearsDown _ _ = left at hspec ⊢
  obtain ⟨m', year'⟩ := left
  dsimp only at hspec ⊢
  obtain ⟨hneg, hge, hdays⟩ := hspec
  rw [lengthOfYear_eq, ← daysBeforeMonth_twelve] at hge
  obtain ⟨month, day, hrun, hmonth, hday0, hdaylt, hsum⟩ :=
    monthsDown_spec (isLeap year') hneg 12 (by omega)
  rw [daysInMonth_eq, show (11 : ℤ) = ((12 : ℕ) : ℤ) - 1 by omega, hrun]
  rw [daysBeforeMonth_twelve, ← lengthOfYear_eq] at hsum
  rw [daysBefore_next] at hdays
  rw [isLeap_eq] at hdaylt
  obtain ⟨hyear, hmon, hd⟩ := date_eq (d := d) hmonth hday0 hdaylt
    (by rw [isLeap_eq] at hsum hdays; omega)
  rw [hyear, hmon, hd]
  simp [bind, Except.bind, pure, Except.pure]

/-! ### The date of every time -/

def InInt64 (time : ℤ) : Prop := -2 ^ 63 ≤ time ∧ time < 2 ^ 63

instance (time : ℤ) : Decidable (InInt64 time) := inferInstanceAs (Decidable (_ ∧ _))

/-- What becomes of a moment: its year may lie outside an `int`, or be one for which the sum in
    the leap rule does. -/
def dateAnswer (m : Moment) : Except Fault (Option Tm) :=
  if intMin ≤ m.date.year - 1900 ∧ m.date.year - 1900 ≤ intMax then
    if m.date.year ≤ intMax then .ok (some (tmOf m 0)) else .error .undefined
  else .ok none

/-- What the assertions of `check_tm` say. -/
structure Checked (tm : Tm) : Prop where
  sec : 0 ≤ tm.tmSec ∧ tm.tmSec ≤ 61
  min : 0 ≤ tm.tmMin ∧ tm.tmMin ≤ 59
  hour : 0 ≤ tm.tmHour ∧ tm.tmHour ≤ 23
  year : intMin ≤ tm.tmYear + 1900 ∧ tm.tmYear + 1900 ≤ intMax
  mon : 0 ≤ tm.tmMon ∧ tm.tmMon ≤ 11
  mday : 1 ≤ tm.tmMday ∧ tm.tmMday ≤ monthLength (isLeap tm.tmYear) tm.tmMon.toNat
  wday : 0 ≤ tm.tmWday ∧ tm.tmWday ≤ 6
  yday : 0 ≤ tm.tmYday ∧ tm.tmYday ≤ lengthOfYear (isLeap tm.tmYear)

theorem checkTm_eq_ok_iff (tm : Tm) : checkTm tm = .ok () ↔ Checked tm := by
  unfold checkTm
  simp only [bind_eq_ok_iff, assertion_eq_ok_iff, isLeapInt_eq_ok_iff]
  constructor
  · rintro ⟨-, hsec, -, hsec', -, hmin, -, hmin', -, hhour, -, hhour', -, hmday, leap,
      ⟨hyear, rfl⟩, days, hdays, -, hmday', -, hmon, -, hmon', -, hwday, -, hwday', -, hyday, leap,
      ⟨-, rfl⟩, hyday'⟩
    have hentry := entry_daysInMonth (isLeap tm.tmYear) (show tm.tmMon.toNat < 12 by omega)
    rw [Int.toNat_of_nonneg hmon, hdays] at hentry
    rw [Except.ok.inj hentry] at hmday'
    exact ⟨⟨hsec, hsec'⟩, ⟨hmin, hmin'⟩, ⟨hhour, hhour'⟩, hyear, ⟨hmon, hmon'⟩,
      ⟨hmday, hmday'⟩, ⟨hwday, hwday'⟩, ⟨hyday, hyday'⟩⟩
  · intro h
    have hmon := h.mon
    have hentry := entry_daysInMonth (isLeap tm.tmYear) (show tm.tmMon.toNat < 12 by omega)
    rw [Int.toNat_of_nonneg h.mon.1] at hentry
    exact ⟨(), h.sec.1, (), h.sec.2, (), h.min.1, (), h.min.2, (), h.hour.1, (), h.hour.2, (),
      h.mday.1, _, ⟨h.year, rfl⟩, _, hentry, (), h.mday.2, (), h.mon.1, (), h.mon.2, (), h.wday.1,
      (), h.wday.2, (), h.yday.1, _, ⟨h.year, rfl⟩, h.yday.2⟩

theorem checked_tmOf (m : Moment) (isdst : ℤ)
    (hyear : intMin ≤ m.date.year ∧ m.date.year ≤ intMax) : Checked (tmOf m isdst) := by
  have hyday := m.date.dayOfYear_bounds
  have hleap : isLeap (tmOf m isdst).tmYear = GregorianCalendar.isLeap m.date.year := by
    rw [isLeap_eq]
    exact congrArg _ (Int.sub_add_cancel _ _)
  refine ⟨?_, ?_, ?_, ?_, ?_, ?_, ?_, ?_⟩
  · exact ⟨m.second_bounds.1, by have := m.second_bounds.2; dsimp only [tmOf]; omega⟩
  · exact ⟨m.minute_bounds.1, Int.le_sub_one_of_lt m.minute_bounds.2⟩
  · exact ⟨m.hour_bounds.1, Int.le_sub_one_of_lt m.hour_bounds.2⟩
  · dsimp only [tmOf]
    rwa [Int.sub_add_cancel]
  · have := m.date.month_lt
    dsimp only [tmOf]
    omega
  · have := m.date.day_nonneg
    have := m.date.day_lt
    rw [hleap]
    dsimp only [tmOf]
    rw [Int.toNat_natCast]
    omega
  · exact m.date.weekday_bounds
  · rw [hleap]
    exact ⟨hyday.1, hyday.2.le⟩

theorem checkTm_overflow (m : Moment) (isdst : ℤ) (hyear : intMax < m.date.year) :
    checkTm (tmOf m isdst) = .error .undefined := by
  have := m.second_bounds
  have := m.minute_bounds
  have := m.hour_bounds
  have := m.date.day_nonneg
  unfold checkTm tmOf isLeapInt
  dsimp only
  rw [show m.date.year - 1900 + 1900 = m.date.year by omega, int_eq_error (by omega),
    assertion_of (by omega), assertion_of (by omega), assertion_of (by omega),
    assertion_of (by omega), assertion_of (by omega), assertion_of (by omega),
    assertion_of (by omega)]
  rfl

theorem dateOfDay_eq (d : Date)
    (hbound : -2 ^ 47 < d.dayNumber - epochDay ∧ d.dayNumber - epochDay < 2 ^ 47) :
    dateOfDay (d.dayNumber - epochDay) = .ok (d.day, (d.month : ℤ), d.year - 1900) := by
  obtain ⟨n, year, hchoice, hn, hsum⟩ : ∃ n year,
      (if d.dayNumber - epochDay ≥ cheatDays then
        (d.dayNumber - epochDay - cheatDays, cheatYears)
      else (d.dayNumber - epochDay, 70)) = (n, year) ∧ (-2 ^ 47 < n ∧ n < 2 ^ 47) ∧
      daysBefore (year + 1900) + n = d.dayNumber := by
    have hepoch : daysBefore (70 + 1900) = epochDay := by decide
    have hcheat : daysBefore (cheatYears + 1900) = epochDay + cheatDays := by decide
    split
    · exact ⟨_, _, rfl, by unfold cheatDays at *; omega, by rw [hcheat]; omega⟩
    · exact ⟨_, _, rfl, hbound, by rw [hepoch]; omega⟩
  have hcycles (k : ℤ) (hk : k = 0 ∨ k = 1) :
      toInt (n.tdiv daysInGregorianCycle + k) = n.tdiv daysInGregorianCycle + k := by
    have hparts := tdiv_tmod n (b := daysInGregorianCycle) (by decide)
    rw [toInt_eq_iff]
    unfold daysInGregorianCycle intMin intMax at *
    omega
  unfold dateOfDay
  rw [hchoice]
  dsimp only
  split
  · refine forwards_eq d ‹_› ?_ hsum
    simpa only [Int.add_zero] using hcycles 0 (Or.inl rfl)
  · exact backwards_eq d (hcycles 1 (Or.inr rfl)) hsum

theorem clock_timeOf (m : Moment) :
    clock (timeOf m) = (m.second, m.minute, m.hour, m.date.dayNumber - epochDay) := by
  have hbounds := m.secondOfDay_bounds
  have := m.second_bounds
  have := m.minute_bounds
  have := m.hour_bounds
  rw [clock_eq]
  unfold timeOf Moment.seconds Moment.secondOfDay epochDay at *
  ext <;> dsimp only <;> omega

theorem weekday_dayNumber (d : Date) : weekday (d.dayNumber - epochDay) = d.weekday := by
  rw [weekday_eq]
  unfold Date.weekday epochDay
  omega

theorem gmtime64R_timeOf (m : Moment) (htime : InInt64 (timeOf m)) :
    gmtime64R (timeOf m) = dateAnswer m := by
  have hbound : -2 ^ 47 < m.date.dayNumber - epochDay ∧ m.date.dayNumber - epochDay < 2 ^ 47 := by
    have := m.secondOfDay_bounds
    unfold InInt64 timeOf Moment.seconds at htime
    omega
  have hmday : toInt m.date.day = m.date.day := by
    have := m.date.day_nonneg
    have := m.date.day_lt
    have := monthLength_bounds (GregorianCalendar.isLeap m.date.year) m.date.month
    rw [toInt_eq_iff]
    unfold intMin intMax
    omega
  have hleap : isLeap (m.date.year - 1900) = GregorianCalendar.isLeap m.date.year := by
    rw [isLeap_eq, Int.sub_add_cancel]
  unfold gmtime64R dateAnswer
  rw [clock_timeOf]
  dsimp only
  rw [dateOfDay_eq m.date hbound, weekday_dayNumber]
  rw [ok_bind]
  dsimp only
  by_cases hfits : toInt (m.date.year - 1900) = m.date.year - 1900
  · rw [if_pos ((toInt_eq_iff _).mp hfits), if_neg (not_not.mpr hfits), hfits, hmday, hleap,
      entry_julianDaysByMonth _ m.date.month_lt, ok_bind]
    change (checkTm (tmOf m 0) >>= fun _ => pure (some (tmOf m 0))) = _
    by_cases hsmall : m.date.year ≤ intMax
    · have hrange : intMin ≤ m.date.year ∧ m.date.year ≤ intMax := by
        have := (toInt_eq_iff _).mp hfits
        omega
      rw [if_pos hsmall, (checkTm_eq_ok_iff _).mpr (checked_tmOf m 0 hrange)]
      rfl
    · rw [if_neg hsmall, checkTm_overflow m 0 (not_le.mp hsmall)]
      rfl
  · rw [if_neg (mt (toInt_eq_iff _).mpr hfits), if_pos hfits]
    rfl

theorem timeOf_injective : Function.Injective timeOf := by
  intro m n h
  refine Moment.seconds_injective ?_
  unfold timeOf at h
  omega

theorem exists_timeOf (time : ℤ) : ∃ m, timeOf m = time := by
  obtain ⟨m, hm⟩ := Moment.seconds_surjective (time + epochDay * 86400)
  refine ⟨m, ?_⟩
  unfold timeOf
  omega

/-- Every time of 64 bits is one moment of the calendar; a null pointer is the answer exactly
    where its year has no place in the date, and nothing is defined for the last 1900 years that
    have one. -/
theorem gmtime64R_of_every_time {time : ℤ} (htime : InInt64 time) : ∃ m : Moment,
    timeOf m = time ∧ (∀ m', timeOf m' = time → m' = m) ∧ gmtime64R time =
      if intMin ≤ m.date.year - 1900 ∧ m.date.year - 1900 ≤ intMax then
        if m.date.year ≤ intMax then .ok (some (tmOf m 0)) else .error .undefined
      else .ok none := by
  obtain ⟨m, hm⟩ := exists_timeOf time
  subst hm
  exact ⟨m, rfl, fun m' hm' => timeOf_injective hm', gmtime64R_timeOf m htime⟩

theorem gmtime64R_last_second : ∃ m : Moment,
    timeOf m = 2147483647 ∧ (∀ m', timeOf m' = 2147483647 → m' = m) ∧ gmtime64R 2147483647 =
      if intMin ≤ m.date.year - 1900 ∧ m.date.year - 1900 ≤ intMax then
        if m.date.year ≤ intMax then .ok (some (tmOf m 0)) else .error .undefined
      else .ok none := gmtime64R_of_every_time (by decide)

theorem exists_moment {p : Tm} (hchecked : Checked p) (hsec : p.tmSec ≤ 59) : ∃ m : Moment,
    p = { tmOf m p.tmIsdst with tmWday := p.tmWday, tmYday := p.tmYday } := by
  have hmon := hchecked.mon
  have hmday := hchecked.mday
  rw [isLeap_eq] at hmday
  refine ⟨⟨⟨p.tmYear + 1900, p.tmMon.toNat, p.tmMday - 1, by omega, by omega, by omega⟩,
    p.tmHour, p.tmMin, p.tmSec, ?_, ?_, ?_⟩, ?_⟩
  · exact ⟨hchecked.hour.1, Int.lt_add_one_of_le hchecked.hour.2⟩
  · exact ⟨hchecked.min.1, Int.lt_add_one_of_le hchecked.min.2⟩
  · exact ⟨hchecked.sec.1, Int.lt_add_one_of_le hsec⟩
  · unfold tmOf
    dsimp only
    rw [Int.toNat_of_nonneg hmon.1, Int.sub_add_cancel, Int.add_sub_cancel]

/-- The date of a time is the one that `check_tm` accepts and that `timegm64` takes back to the
    time, with the day of the week and of the year that belong to it. -/
theorem gmtime64R_eq_some_iff {time : ℤ} (htime : InInt64 time) (p : Tm) :
    gmtime64R time = .ok (some p) ↔
      timegm64 p = .ok time ∧ checkTm p = .ok () ∧ intMin ≤ p.tmYear ∧ p.tmSec ≤ 59 ∧
      p.tmIsdst = 0 ∧ p.tmWday = (time / 86400 + 4) % 7 ∧
      entry (julianDaysByMonth (isLeap p.tmYear)) p.tmMon = .ok (p.tmYday - (p.tmMday - 1)) := by
  have hday (m : Moment) : timeOf m / 86400 = m.date.dayNumber - epochDay := by
    have := m.secondOfDay_bounds
    unfold timeOf Moment.seconds
    omega
  have hleap (m : Moment) :
      isLeap (m.date.year - 1900) = GregorianCalendar.isLeap m.date.year := by
    rw [isLeap_eq, Int.sub_add_cancel]
  rw [checkTm_eq_ok_iff]
  constructor
  · intro h
    obtain ⟨m, rfl⟩ := exists_timeOf time
    rw [gmtime64R_timeOf m htime] at h
    unfold dateAnswer at h
    split_ifs at h with hint hsmall
    · obtain rfl := Option.some.inj (Except.ok.inj h)
      refine ⟨timegm64_tmOf m 0 hint, checked_tmOf m 0 (by omega), hint.1, ?_, rfl, ?_, ?_⟩
      · exact Int.le_sub_one_of_lt m.second_bounds.2
      · rw [hday, ← weekday_eq, weekday_dayNumber]
        rfl
      · dsimp only [tmOf]
        rw [hleap, entry_julianDaysByMonth _ m.date.month_lt]
        unfold Date.dayOfYear
        congr 1
        omega
    · exact absurd (Except.ok.inj h).symm (Option.some_ne_none p)
  · rintro ⟨htimegm, hchecked, hyear, hsec, hisdst, hwday, hyday⟩
    obtain ⟨m, hm⟩ := exists_moment hchecked hsec
    have hyear' := hchecked.year
    generalize p.tmWday = wday at hm hwday
    generalize p.tmYday = yday at hm hyday
    rw [hisdst] at hm
    subst hm
    dsimp only [tmOf] at hyear hyear' hyday
    have hint : intMin ≤ m.date.year - 1900 ∧ m.date.year - 1900 ≤ intMax := by
      omega
    have htimeOf : timeOf m = time :=
      Except.ok.inj ((timegm64_tmOf m 0 hint).symm.trans htimegm)
    rw [hleap, entry_julianDaysByMonth _ m.date.month_lt] at hyday
    have hyday := Except.ok.inj hyday
    have hyday' : yday = m.date.dayOfYear := by
      unfold Date.dayOfYear
      omega
    have hwday' : wday = m.date.weekday := by
      rw [hwday, ← htimeOf, hday, ← weekday_eq, weekday_dayNumber]
    rw [hyday', hwday', ← htimeOf, gmtime64R_timeOf m (htimeOf ▸ htime), dateAnswer,
      if_pos hint, if_pos (by omega)]
    rfl

theorem gmtime64R_before_epoch :
    gmtime64R (-1) = .ok (some ⟨59, 59, 23, 31, 11, 69, 3, 364, 0⟩) := by
  refine (gmtime64R_eq_some_iff (by decide) _).mpr
    ⟨?_, by decide, by decide, by decide, rfl, by decide, by decide⟩
  unfold timegm64 yearsDownTo
  decide

end Shashlik.Time64
