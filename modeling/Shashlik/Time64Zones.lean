import Shashlik.Time64SafeYears

set_option autoImplicit false

/-!
# Local times

`localtime64_r` and `mktime64` on a system that only knows the times of 32 bits: the date is taken
into a year that the system knows, and what the system answers is taken back.
-/
namespace Shashlik.Time64
open GregorianCalendar

/-- The year in which `localtime64_r` asks the system. -/
def askedYear (year : ℤ) : Except Fault ℤ :=
  if year > 2037 ∨ year < 1970 then safeYear year else .ok year

/-- An answer of the system's `localtime`: the fields of a moment that is less than a day away. -/
structure LocalTime (localtime : ℤ → Option Tm) (offset : ℤ → ℤ) : Prop where
  offset_lt : ∀ time, 0 ≤ time → time ≤ intMax → -86400 < offset time ∧ offset time < 86400
  localtime_eq : ∀ time, 0 ≤ time → time ≤ intMax → ∀ m : Moment, timeOf m = time + offset time →
    ∃ isdst, localtime time = some (tmOf m isdst)

theorem inReach_of_int {year : ℤ} (h : intMin ≤ year - 1900 ∧ year ≤ intMax) : InReach year := by
  unfold intMin intMax at h
  unfold InReach
  omega

theorem askedYear_spec {year : ℤ} (hreach : InReach year) : ∃ asked, askedYear year = .ok asked ∧
    1970 ≤ asked ∧ asked ≤ 2037 ∧ Alike year asked := by
  unfold askedYear
  by_cases h : year > 2037 ∨ year < 1970
  · obtain ⟨safe, hsafe, hmin, hmax, halike⟩ := safeYear_spec hreach
    rw [if_pos h]
    unfold minSafeYear maxSafeYear at *
    exact ⟨safe, hsafe, by omega, by omega, halike⟩
  · rw [if_neg h]
    exact ⟨year, rfl, by omega, by omega, alike_self year⟩

/-! ### Moving a moment into another year -/

def moved (m : Moment) (year : ℤ)
    (h : m.date.month = 0 ∨ GregorianCalendar.isLeap year = GregorianCalendar.isLeap m.date.year) :
    Moment := m.onDate (m.date.inYear year h)

theorem timeOf_moved (m : Moment) {year : ℤ} (h : m.date.month = 0 ∨
    GregorianCalendar.isLeap year = GregorianCalendar.isLeap m.date.year) :
    timeOf (moved m year h) = timeOf m + (daysBefore year - daysBefore m.date.year) * 86400 := by
  unfold timeOf moved
  rw [Moment.onDate_seconds, Date.inYear_dayNumber]
  omega

theorem tmOf_moved (m : Moment) {year : ℤ} (isdst : ℤ) (h : m.date.month = 0 ∨
    GregorianCalendar.isLeap year = GregorianCalendar.isLeap m.date.year)
    (hfirst : firstWeekday year = firstWeekday m.date.year) :
    tmOf (moved m year h) isdst = { tmOf m isdst with tmYear := year - 1900 } := by
  unfold tmOf moved
  rw [Moment.onDate_date, Date.inYear_weekday h hfirst, Date.inYear_dayOfYear]
  rfl

theorem time_of_year {m : Moment} {year : ℤ} (hyear : m.date.year = year) :
    (daysBefore year - epochDay) * 86400 ≤ timeOf m ∧
      timeOf m < (daysBefore (year + 1) - epochDay) * 86400 := by
  have hday := m.date.dayNumber_bounds
  have hsecond := m.secondOfDay_bounds
  rw [hyear] at hday
  unfold timeOf Moment.seconds
  omega

theorem asked_time {m : Moment} (hyear : 1970 ≤ m.date.year ∧ m.date.year ≤ 2037) :
    0 ≤ timeOf m ∧ timeOf m ≤ intMax - 86400 := by
  obtain ⟨hfrom, hto⟩ := time_of_year (m := m) rfl
  have hepoch : daysBefore 1970 = epochDay := by decide
  have hend : daysBefore 2038 = epochDay + 24837 := by decide
  have hlow : ¬ daysBefore m.date.year < daysBefore 1970 := mt daysBefore_lt_iff.mp (by omega)
  have hhigh : ¬ daysBefore 2038 < daysBefore (m.date.year + 1) :=
    mt daysBefore_lt_iff.mp (by omega)
  unfold intMax
  omega

/-! ### Less than a day apart -/

/-- Where the local date of a moment can lie, as its distance in years. -/
inductive Near (m l : Moment) : ℤ → Prop where
  | same (year : l.date.year = m.date.year) (months : l.date.month ≠ m.date.month + 11)
      (months' : m.date.month ≠ l.date.month + 11) : Near m l 0
  | before (year : l.date.year = m.date.year - 1) (month : l.date.month = 11)
      (month' : m.date.month = 0) : Near m l (-1)
  | after (year : l.date.year = m.date.year + 1) (month : l.date.month = 0)
      (month' : m.date.month = 11) : Near m l 1

theorem next_year {l m : Date} (hyear : l.year < m.year) (hday : m.dayNumber ≤ l.dayNumber + 1) :
    m.year = l.year + 1 ∧ l.month = 11 ∧ m.month = 0 := by
  have hl := l.dayNumber_bounds
  have hm := m.dayNumber_bounds
  have hle : ¬ daysBefore m.year < daysBefore (l.year + 1) := mt daysBefore_lt_iff.mp (by omega)
  have hge : ¬ daysBefore (l.year + 1) < daysBefore m.year := by omega
  rw [daysBefore_lt_iff] at hle hge
  have heq : m.year = l.year + 1 := by omega
  rw [heq] at hm
  exact ⟨heq, (Date.newYearsEve_of_dayNumber (show _ = daysBefore (l.year + 1) - 1 by omega)).2.1,
    (Date.newYear_of_dayNumber (show _ = daysBefore (l.year + 1) by omega)).2.1⟩

theorem far_months {l m : Date} (hyear : l.year = m.year) (hmonth : l.month = m.month + 11) :
    m.dayNumber + 1 < l.dayNumber := by
  have hl := l.month_lt
  have hday := m.day_lt
  have hday' := l.day_nonneg
  have hlength := monthLength_bounds (GregorianCalendar.isLeap m.year) m.month
  have helevenths (leap : Bool) : 334 ≤ daysBeforeMonth leap 11 := by cases leap <;> decide
  have := helevenths (GregorianCalendar.isLeap m.year)
  unfold Date.dayNumber Date.dayOfYear
  rw [hyear, show l.month = 11 by omega, show m.month = 0 by omega, daysBeforeMonth.eq_1]
  omega

theorem near_of_offset {m l : Moment} (h : -86400 < timeOf l - timeOf m)
    (h' : timeOf l - timeOf m < 86400) : ∃ years, Near m l years := by
  have hday : m.date.dayNumber ≤ l.date.dayNumber + 1 ∧
      l.date.dayNumber ≤ m.date.dayNumber + 1 := by
    have := m.secondOfDay_bounds
    have := l.secondOfDay_bounds
    unfold timeOf Moment.seconds at h h'
    omega
  obtain hlt | heq | hgt := lt_trichotomy l.date.year m.date.year
  · obtain ⟨hyear, hmonth, hmonth'⟩ := next_year hlt hday.1
    exact ⟨-1, .before (by omega) hmonth hmonth'⟩
  · refine ⟨0, .same heq (fun hmonth => ?_) (fun hmonth => ?_)⟩
    · have := far_months heq hmonth
      omega
    · have := far_months heq.symm hmonth
      omega
  · obtain ⟨hyear, hmonth, hmonth'⟩ := next_year hgt hday.2
    exact ⟨1, .after hyear hmonth' hmonth⟩

/-! ### `localtime64_r` -/

theorem Near.year {m l : Moment} {years : ℤ} (h : Near m l years) :
    l.date.year = m.date.year + years := by
  cases h with
  | same year _ _ => omega
  | before year _ _ => omega
  | after year _ _ => omega

theorem Near.movable {m l : Moment} {years year : ℤ} (h : Near m l years)
    (halike : Alike year m.date.year) :
    (l.date.month = 0 ∨ GregorianCalendar.isLeap (year + years) =
      GregorianCalendar.isLeap l.date.year) ∧
    firstWeekday (year + years) = firstWeekday l.date.year := by
  rw [h.year]
  cases h with
  | same _ _ _ =>
    rw [Int.add_zero, Int.add_zero]
    exact ⟨Or.inr halike.leap, halike.first⟩
  | before _ _ _ => exact ⟨Or.inr halike.leap_before, halike.first_before⟩
  | after _ hmonth _ => exact ⟨Or.inl hmonth, halike.first_after⟩

theorem shiftYear_near {m l : Moment} {years : ℤ} (year : ℤ) (hnear : Near m l years)
    (hlocal : intMin ≤ year + years ∧ year + years ≤ intMax) :
    shiftYear year ((l.date.month : ℤ) - m.date.month) = .ok (year + years) := by
  unfold shiftYear
  cases hnear with
  | same _ hmonths hmonths' =>
    rw [if_neg (by omega), Int.add_zero]
    exact if_neg (by omega)
  | before _ hmonth hmonth' =>
    rw [hmonth, hmonth', if_pos (by omega), Int.sub_eq_add_neg, int_of_mem hlocal, ok_bind]
    exact if_neg (by omega)
  | after _ hmonth hmonth' =>
    rw [hmonth, hmonth', if_neg (by omega)]
    exact int_of_mem hlocal

theorem restoreYear_of_checked {gmTm localTm date : Tm} {origYear year : ℤ}
    (hmonths : intMin ≤ localTm.tmMon - gmTm.tmMon ∧ localTm.tmMon - gmTm.tmMon ≤ intMax)
    (hshift : shiftYear origYear (localTm.tmMon - gmTm.tmMon) = .ok year)
    (hdate : { localTm with tmYear := year } = date) (hchecked : Checked date)
    (hyday : date.tmYday < lengthOfYear (isLeap date.tmYear)) :
    restoreYear origYear gmTm localTm = .ok date := by
  have hnot : ¬(isLeap date.tmYear = false ∧ date.tmYday = 365) := by
    rintro ⟨hleap, h365⟩
    rw [hleap, h365] at hyday
    exact absurd hyday (by decide)
  have hleap := (isLeapInt_eq_ok_iff date.tmYear _).mpr ⟨hchecked.year, rfl⟩
  have hcheck := (checkTm_eq_ok_iff date).mpr hchecked
  subst hdate
  unfold restoreYear
  rw [int_of_mem hmonths, ok_bind, hshift, ok_bind]
  dsimp only at hleap hnot ⊢
  rw [hleap, ok_bind, if_neg hnot, hcheck]
  rfl

theorem restoreYear_near {m l : Moment} {years year : ℤ} (isdst : ℤ) (hnear : Near m l years)
    (halike : Alike year m.date.year)
    (hlocal : intMin ≤ year + years - 1900 ∧ year + years ≤ intMax) :
    restoreYear (year - 1900) (tmOf m 0) (tmOf l isdst) =
      .ok (tmOf (moved l (year + years) (hnear.movable halike).1) isdst) := by
  obtain ⟨hmovable, hfirst⟩ := hnear.movable halike
  have hshift := shiftYear_near (year - 1900) hnear (by unfold intMax at *; omega)
  rw [show year - 1900 + years = year + years - 1900 by omega] at hshift
  refine restoreYear_of_checked ?_ hshift (tmOf_moved l isdst hmovable hfirst).symm ?_ ?_
  · have := l.date.month_lt
    have := m.date.month_lt
    dsimp only [tmOf]
    unfold intMin intMax
    omega
  · refine checked_tmOf _ _ ?_
    change intMin ≤ year + years ∧ year + years ≤ intMax
    omega
  · have := (moved l (year + years) hmovable).date.dayOfYear_bounds
    rw [isLeap_eq, lengthOfYear_eq]
    dsimp only [tmOf]
    rw [Int.sub_add_cancel]
    exact this.2

theorem Near.distance {m l : Moment} {years year : ℤ} (h : Near m l years)
    (halike : Alike year m.date.year) :
    daysBefore (year + years) - daysBefore l.date.year =
      daysBefore year - daysBefore m.date.year := by
  have hnext := daysBefore_succ year
  have hnext' := daysBefore_succ m.date.year
  have hprev := daysBefore_succ (year - 1)
  have hprev' := daysBefore_succ (m.date.year - 1)
  rw [halike.leap] at hnext
  rw [halike.leap_before, Int.sub_add_cancel] at hprev
  rw [Int.sub_add_cancel] at hprev'
  rw [h.year]
  cases h with
  | same _ _ _ => rw [Int.add_zero, Int.add_zero]
  | before _ _ _ =>
    rw [← Int.sub_eq_add_neg, ← Int.sub_eq_add_neg]
    omega
  | after _ _ _ => omega

theorem safeDate_tmOf {m : Moment} {asked : ℤ} (isdst : ℤ)
    (hyear : intMin ≤ m.date.year ∧ m.date.year ≤ intMax)
    (hasked : askedYear m.date.year = .ok asked) (halike : Alike m.date.year asked) :
    safeDate (tmOf m isdst) = .ok (tmOf (moved m asked (Or.inr halike.leap.symm)) isdst) := by
  rw [tmOf_moved m isdst _ halike.first.symm]
  unfold askedYear at hasked
  unfold safeDate
  have hsum : (tmOf m isdst).tmYear + 1900 = m.date.year := Int.sub_add_cancel _ _
  have hiff : (tmOf m isdst).tmYear > 2037 - 1900 ∨ (tmOf m isdst).tmYear < 1970 - 1900 ↔
      m.date.year > 2037 ∨ m.date.year < 1970 := by omega
  by_cases h : m.date.year > 2037 ∨ m.date.year < 1970
  · rw [if_pos h] at hasked
    rw [if_pos (hiff.mpr h), hsum, int_of_mem hyear, ok_bind, hasked]
    rfl
  · rw [if_neg h] at hasked
    rw [if_neg (mt hiff.mp h), ← Except.ok.inj hasked]
    rfl

/-- The second that `localtime64_r` asks the system about. -/
def askedTime (m : Moment) (asked : ℤ) : ℤ :=
  timeOf m - (daysBefore m.date.year - daysBefore asked) * 86400

theorem localtime64R_asks {localtime : ℤ → Option Tm} {offset : ℤ → ℤ}
    (hzone : LocalTime localtime offset) {m l : Moment} {asked : ℤ} (htime : InInt64 (timeOf m))
    (hyear : intMin ≤ m.date.year - 1900 ∧ m.date.year ≤ intMax)
    (hasked : askedYear m.date.year = .ok asked)
    (hl : timeOf l = timeOf m + offset (askedTime m asked))
    (hlocal : intMin ≤ l.date.year - 1900 ∧ l.date.year ≤ intMax) :
    ∃ isdst l', localtime64R localtime (timeOf m) = .ok (some (tmOf l isdst)) ∧
      0 ≤ askedTime m asked ∧ askedTime m asked ≤ intMax ∧
      timeOf l' = askedTime m asked + offset (askedTime m asked) ∧
      localtime (askedTime m asked) = some (tmOf l' isdst) := by
  obtain ⟨asked', hasked', hmin, hmax, halike⟩ := askedYear_spec (inReach_of_int hyear)
  obtain rfl := Except.ok.inj (hasked'.symm.trans hasked)
  have hsafe := safeDate_tmOf 0 (by omega) hasked halike
  have htimeOf := timeOf_moved m (Or.inr halike.leap.symm)
  generalize hm' : moved m asked' (Or.inr halike.leap.symm) = m' at hsafe htimeOf
  have hyear' : m'.date.year = asked' := by
    rw [← hm']
    rfl
  have haskedTime : askedTime m asked' = timeOf m' := by
    unfold askedTime
    omega
  rw [haskedTime] at hl ⊢
  obtain ⟨hfrom, hto⟩ := asked_time (m := m') (by omega)
  obtain ⟨l', hl'⟩ := exists_timeOf (timeOf m' + offset (timeOf m'))
  have hoffset := hzone.offset_lt (timeOf m') hfrom (by omega)
  obtain ⟨isdst, hsystem⟩ := hzone.localtime_eq (timeOf m') hfrom (by omega) l' hl'
  obtain ⟨years, hnear⟩ := near_of_offset (m := m') (l := l') (by omega) (by omega)
  rw [← hyear'] at halike
  have hl_eq : moved l' (m.date.year + years) (hnear.movable halike).1 = l := by
    refine timeOf_injective ?_
    rw [timeOf_moved, hnear.distance halike, hl, hl', htimeOf, hyear']
    omega
  have hlyear : l.date.year = m.date.year + years := by
    rw [← hl_eq]
    rfl
  have hrestore := restoreYear_near isdst hnear halike (by omega)
  rw [hl_eq] at hrestore
  have hgm : gmtime64R (timeOf m) = .ok (some (tmOf m 0)) := by
    rw [gmtime64R_timeOf m htime, dateAnswer, if_pos (by unfold intMax at *; omega),
      if_pos hyear.2]
  have htimegm := timegm64_tmOf m' 0 (by rw [hyear']; unfold intMin intMax; omega)
  have hshort : toInt (timeOf m') = timeOf m' := by
    rw [toInt_eq_iff]
    unfold intMin
    omega
  refine ⟨isdst, l', ?_, hfrom, by omega, hl', hsystem⟩
  unfold localtime64R
  rw [hgm, ok_bind]
  dsimp only
  rw [hsafe, ok_bind, htimegm, ok_bind, hshort, hsystem]
  dsimp only
  change (restoreYear (m.date.year - 1900) _ _ >>= _) = _
  rw [hrestore]
  rfl

def fixedLocaltime (offset time : ℤ) : Option Tm :=
  match gmtime64R (time + offset) with
  | .ok date => date
  | .error _ => none

def fixedMktime (offset : ℤ) (date : Tm) : ℤ × Tm :=
  match timegm64 date with
  | .ok time => (time - offset, date)
  | .error _ => (-1, date)

theorem year_near_epoch {m : Moment} (hfrom : -86400 < timeOf m)
    (hto : timeOf m < intMax + 86400) : 1000 ≤ m.date.year ∧ m.date.year < 3000 := by
  obtain ⟨hstart, hend⟩ := time_of_year (m := m) rfl
  have hbefore : daysBefore 1000 + 300000 < epochDay := by decide
  have hbehind : epochDay + 300000 < daysBefore 3000 := by decide
  unfold intMax at hto
  have hlow : 1000 < m.date.year + 1 := daysBefore_lt_iff.mp (by omega)
  have hhigh : m.date.year < 3000 := daysBefore_lt_iff.mp (by omega)
  exact ⟨by omega, hhigh⟩

theorem fixedLocaltime_eq {offset time : ℤ} (hoffset : -86400 < offset ∧ offset < 86400)
    (hfrom : 0 ≤ time) (hto : time ≤ intMax) {m : Moment} (hm : timeOf m = time + offset) :
    fixedLocaltime offset time = some (tmOf m 0) := by
  have hyear := year_near_epoch (m := m) (by omega) (by omega)
  unfold intMax at hto
  unfold fixedLocaltime
  rw [← hm, gmtime64R_timeOf m (by unfold InInt64; omega), dateAnswer,
    if_pos (by unfold intMin intMax; omega), if_pos (by unfold intMax; omega)]

theorem fixedLocaltime_localTime {offset : ℤ} (hoffset : -86400 < offset ∧ offset < 86400) :
    LocalTime (fixedLocaltime offset) (fun _ => offset) :=
  ⟨fun _ _ _ => hoffset, fun _ hfrom hto _ hm => ⟨0, fixedLocaltime_eq hoffset hfrom hto hm⟩⟩

theorem safeYear_inside {year : ℤ} (h : minSafeYear ≤ year ∧ year ≤ maxSafeYear) :
    safeYear year = .ok year := if_pos h

theorem mktime64_moved {mktime : Tm → ℤ × Tm} {m : Moment} {safe : ℤ} (isdst : ℤ)
    (hyear : intMin ≤ m.date.year - 1900 ∧ m.date.year ≤ intMax)
    (hsafe : safeYear m.date.year = .ok safe) (hmin : minSafeYear ≤ safe)
    (hmax : safe ≤ maxSafeYear) (halike : Alike m.date.year safe)
    (hkeeps : (mktime (tmOf (moved m safe (Or.inr halike.leap.symm)) isdst)).2.tmYear =
      safe - 1900) : mktime64 mktime (tmOf m isdst) =
      .ok ((mktime (tmOf (moved m safe (Or.inr halike.leap.symm)) isdst)).1 +
        (daysBefore m.date.year - daysBefore safe) * 86400) := by
  have htm := tmOf_moved m isdst (Or.inr halike.leap.symm) halike.first.symm
  have htimeOf := timeOf_moved m (Or.inr halike.leap.symm)
  generalize moved m safe (Or.inr halike.leap.symm) = n at *
  have hsum : (tmOf m isdst).tmYear + 1900 = m.date.year := Int.sub_add_cancel _ _
  unfold mktime64
  rw [hsum, int_of_mem (by omega), ok_bind]
  by_cases hinside : minSafeYear ≤ m.date.year ∧ m.date.year ≤ maxSafeYear
  · obtain rfl := Except.ok.inj ((safeYear_inside hinside).symm.trans hsafe)
    have hmn : n = m := timeOf_injective (by omega)
    rw [if_pos hinside, hmn, Int.sub_self, Int.zero_mul, Int.add_zero]
    rfl
  · rw [if_neg hinside, hsafe, ok_bind]
    dsimp only
    rw [← htm, hkeeps, Int.sub_add_cancel,
      int_of_mem (by unfold minSafeYear maxSafeYear intMin intMax at *; omega), ok_bind,
      secondsBetweenYears_eq (by omega) ⟨hmin, hmax⟩ halike]
    rfl

/-- `mktime64` takes off a date the offset that the system has for the same date in its safe
    year, whatever the distance of the two years, if the system leaves that date in its year. -/
theorem mktime64_of_offset (mktime : Tm → ℤ × Tm) {m : Moment} (isdst : ℤ)
    (hyear : intMin ≤ m.date.year - 1900 ∧ m.date.year ≤ intMax) : ∃ n : Moment,
    safeYear m.date.year = .ok n.date.year ∧ n.date.month = m.date.month ∧
    n.date.day = m.date.day ∧ n.date.weekday = m.date.weekday ∧ n.secondOfDay = m.secondOfDay ∧
    ((mktime (tmOf n isdst)).2.tmYear = n.date.year - 1900 →
      mktime64 mktime (tmOf m isdst) =
        .ok (timeOf m - (timeOf n - (mktime (tmOf n isdst)).1))) := by
  obtain ⟨safe, hsafe, hmin, hmax, halike⟩ := safeYear_spec (inReach_of_int hyear)
  have htimeOf := timeOf_moved m (Or.inr halike.leap.symm)
  refine ⟨moved m safe (Or.inr halike.leap.symm), hsafe, rfl, rfl,
    Date.inYear_weekday (Or.inr halike.leap.symm) halike.first.symm, rfl, fun hkeeps => ?_⟩
  rw [mktime64_moved isdst hyear hsafe hmin hmax halike hkeeps, htimeOf]
  congr 1
  omega

theorem fixedMktime_tmOf (offset : ℤ) {m : Moment} (isdst : ℤ)
    (hyear : intMin ≤ m.date.year - 1900 ∧ m.date.year - 1900 ≤ intMax) :
    fixedMktime offset (tmOf m isdst) = (timeOf m - offset, tmOf m isdst) := by
  unfold fixedMktime
  rw [timegm64_tmOf m isdst hyear]

theorem mktime64_first_year : ∃ n : Moment,
    safeYear 1 = .ok n.date.year ∧ n.date.month = 0 ∧ n.date.day = 0 ∧
    n.date.weekday = 1 ∧ n.secondOfDay = 0 ∧
    mktime64 (fixedMktime (-7200)) (tmOf
      ⟨⟨1, 0, 0, by decide, by decide, by decide⟩, 0, 0, 0, by decide, by decide, by decide⟩ 0) =
    .ok (-62135589600) := by
  obtain ⟨n, hsafe, hmonth, hday, hweekday, hsecond, hmktime⟩ :=
    mktime64_of_offset (fixedMktime (-7200)) (m :=
      ⟨⟨1, 0, 0, by decide, by decide, by decide⟩, 0, 0, 0, by decide, by decide, by decide⟩) 0
      (by decide)
  have hyear : n.date.year = 1973 := Except.ok.inj (hsafe.symm.trans (by decide))
  have hsystem := fixedMktime_tmOf (-7200) (m := n) 0 (by rw [hyear]; decide)
  rw [hsystem] at hmktime
  refine ⟨n, hsafe, hmonth, hday, hweekday, hsecond, (hmktime rfl).trans ?_⟩
  rw [Int.sub_sub_self]
  decide

/-! ### There and back -/

theorem fixedMktime_fixedLocaltime {offset time : ℤ} {date : Tm}
    (hoffset : -86400 < offset ∧ offset < 86400) (hfrom : 0 ≤ time) (hto : time ≤ intMax)
    (hdate : fixedLocaltime offset time = some date) : fixedMktime offset date = (time, date) := by
  obtain ⟨m, hm⟩ := exists_timeOf (time + offset)
  obtain rfl := Option.some.inj ((fixedLocaltime_eq hoffset hfrom hto hm).symm.trans hdate)
  have hyear := year_near_epoch (m := m) (by omega) (by omega)
  rw [fixedMktime_tmOf offset 0 (by unfold intMin intMax; omega), hm, Int.add_sub_cancel]

end Shashlik.Time64
