import Shashlik.Time64Dates

set_option autoImplicit false

/-!
# Years that look alike

`safe_year` finds a year near today with the calendar of a given one, and
`seconds_between_years` the seconds from the one to the other.
-/
namespace Shashlik.Time64
open GregorianCalendar

/-- What dates around a year depend on, up to a day before it and a day behind it. -/
structure Alike (year safe : ℤ) : Prop where
  leap : GregorianCalendar.isLeap year = GregorianCalendar.isLeap safe
  first : firstWeekday year = firstWeekday safe
  leap_before : GregorianCalendar.isLeap (year - 1) = GregorianCalendar.isLeap (safe - 1)
  first_before : firstWeekday (year - 1) = firstWeekday (safe - 1)
  first_after : firstWeekday (year + 1) = firstWeekday (safe + 1)

theorem alike_iff (year safe : ℤ) : Alike year safe ↔
    GregorianCalendar.isLeap year = GregorianCalendar.isLeap safe ∧
    firstWeekday year = firstWeekday safe ∧
    GregorianCalendar.isLeap (year - 1) = GregorianCalendar.isLeap (safe - 1) ∧
    firstWeekday (year - 1) = firstWeekday (safe - 1) ∧
    firstWeekday (year + 1) = firstWeekday (safe + 1) :=
  ⟨fun h => ⟨h.leap, h.first, h.leap_before, h.first_before, h.first_after⟩,
    fun ⟨hleap, hfirst, hleapBefore, hbefore, hafter⟩ =>
      ⟨hleap, hfirst, hleapBefore, hbefore, hafter⟩⟩

instance (year safe : ℤ) : Decidable (Alike year safe) := decidable_of_iff' _ (alike_iff year safe)

theorem alike_self (year : ℤ) : Alike year year := ⟨rfl, rfl, rfl, rfl, rfl⟩

theorem Alike.cycle {year safe : ℤ} (cycles : ℤ) (h : Alike (year + 400 * cycles) safe) :
    Alike year safe := by
  have hbefore : year + 400 * cycles - 1 = year - 1 + 400 * cycles := by omega
  have hafter : year + 400 * cycles + 1 = year + 1 + 400 * cycles := by omega
  obtain ⟨hleap, hfirst, hleapBefore, hfirstBefore, hfirstAfter⟩ := h
  rw [hbefore] at hleapBefore hfirstBefore
  rw [hafter] at hfirstAfter
  simp only [isLeap_cycle, firstWeekday_cycle] at *
  exact ⟨hleap, hfirst, hleapBefore, hfirstBefore, hfirstAfter⟩

/-! ### The cycles of 400 years -/

theorem isExceptionCentury_cycle (year cycles : ℤ) :
    isExceptionCentury (year + 400 * cycles) = isExceptionCentury year := by
  rw [Bool.eq_iff_iff]
  simp only [isExceptionCentury, Bool.and_eq_true, decide_eq_true_eq, Bool.not_eq_true',
    decide_eq_false_iff_not, tmod_eq_zero_iff]
  omega

/-- The years with which no sum of `safe_year` leaves 64 bits. -/
def InReach (year : ℤ) : Prop := -8000000000000000000 ≤ year ∧ year ≤ 8000000000000000000

instance (year : ℤ) : Decidable (InReach year) := inferInstanceAs (Decidable (_ ∧ _))

theorem int64_of_mem {x : ℤ} (h : -9223372036854775808 ≤ x ∧ x ≤ 9223372036854775807) :
    int64 x = .ok x := if_pos h

/-- By how many years the centuries without a leap year have moved the cycle. -/
def cycleShift (year : ℤ) : ℤ :=
  let yearDiff := if year > 2000 then year - 2001 else year - 2000
  (yearDiff.tdiv 100 - yearDiff.tdiv 400) * 16

theorem cycleShift_cycle {year cycles : ℤ}
    (h : (year ≤ 2000 ∧ year + 400 * cycles ≤ 2000) ∨
      (2000 < year ∧ 2000 < year + 400 * cycles)) :
    cycleShift (year + 400 * cycles) = cycleShift year + 48 * cycles := by
  have hparts (n : ℤ) := tdiv_tmod n (b := 100) (by omega)
  have hparts' (n : ℤ) := tdiv_tmod n (b := 400) (by omega)
  unfold cycleShift
  dsimp only
  obtain ⟨hyear, hcycles⟩ | ⟨hyear, hcycles⟩ := h
  · rw [if_neg (by omega), if_neg (by omega)]
    have := hparts (year + 400 * cycles - 2000)
    have := hparts (year - 2000)
    have := hparts' (year + 400 * cycles - 2000)
    have := hparts' (year - 2000)
    omega
  · rw [if_pos (by omega), if_pos (by omega)]
    have := hparts (year + 400 * cycles - 2001)
    have := hparts (year - 2001)
    have := hparts' (year + 400 * cycles - 2001)
    have := hparts' (year - 2001)
    omega

theorem cycleShift_bounds {year : ℤ} (h : InReach year) :
    -1000000000000000000 ≤ cycleShift year ∧ cycleShift year ≤ 1000000000000000000 := by
  have hparts (n : ℤ) := tdiv_tmod n (b := 100) (by omega)
  have hparts' (n : ℤ) := tdiv_tmod n (b := 400) (by omega)
  unfold InReach at h
  unfold cycleShift
  dsimp only
  split_ifs
  · have := hparts (year - 2001)
    have := hparts' (year - 2001)
    omega
  · have := hparts (year - 2000)
    have := hparts' (year - 2000)
    omega

theorem cycleOffset_eq {year : ℤ} (h : InReach year) :
    cycleOffset year = .ok (cycleShift year) := by
  unfold InReach at h
  have hdiff : (if year > 2000 then year - 2000 - 1 else year - 2000) =
      if year > 2000 then year - 2001 else year - 2000 := by
    split_ifs <;> omega
  unfold cycleOffset
  dsimp only
  rw [int64_of_mem (by omega), ok_bind, hdiff]
  rfl

theorem tmod_eq (a : ℤ) {b : ℤ} (hb : 0 < b) :
    a.tmod b = if 0 ≤ a ∨ b ∣ a then a % b else a % b - b := by
  rw [Int.tmod_eq_emod]
  split <;> omega

theorem tmod_wrapped (a : ℤ) {b : ℤ} (hb : 0 < b) :
    (if a.tmod b < 0 then b + a.tmod b else a.tmod b) = a % b := by
  rw [tmod_eq a hb]
  have := Int.emod_nonneg a hb.ne'
  have := Int.emod_lt_of_pos a hb
  split_ifs <;> omega

def cyclePlace (year : ℤ) : ℤ :=
  (year + cycleShift year - (if year < minSafeYear then 8 else 0) +
    (if isExceptionCentury year then 11 else 0) +
    (if isExceptionCentury (year - 1) then 17 else 0)) % solarCycleLength

theorem addIf_of_mem (p : Prop) [Decidable p] {x y : ℤ}
    (h : -9223372036854775808 ≤ x + y ∧ x + y ≤ 9223372036854775807) :
    addIf p x y = .ok (x + if p then y else 0) := by
  unfold addIf
  split_ifs
  · exact int64_of_mem h
  · rw [Int.add_zero]

theorem yearCycle_eq {year : ℤ} (h : InReach year) : yearCycle year = .ok (cyclePlace year) := by
  have hshift := cycleShift_bounds h
  unfold InReach at h
  have hlow : -8 ≤ (if year < minSafeYear then -8 else 0 : ℤ) ∧
      (if year < minSafeYear then -8 else 0 : ℤ) ≤ 0 := by
    split_ifs <;> omega
  have hcentury : 0 ≤ (if isExceptionCentury year = true then 11 else 0 : ℤ) ∧
      (if isExceptionCentury year = true then 11 else 0 : ℤ) ≤ 11 := by
    split_ifs <;> omega
  unfold yearCycle
  rw [cycleOffset_eq h, ok_bind, int64_of_mem (by omega), ok_bind]
  rw [addIf_of_mem _ (by omega), ok_bind, addIf_of_mem _ (by omega), ok_bind,
    int64_of_mem (by omega), ok_bind, addIf_of_mem _ (by omega), ok_bind]
  dsimp only
  rw [tmod_wrapped _ (by decide)]
  refine congrArg Except.ok ?_
  unfold cyclePlace
  congr 1
  split_ifs <;> omega

/-- The years on one side of the safe ones repeat after 400 years, in which the cycle of 28 years
    comes around 16 times. -/
theorem cyclePlace_cycle {year cycles : ℤ}
    (h : (year < minSafeYear ∧ year + 400 * cycles < minSafeYear) ∨
      (maxSafeYear < year ∧ maxSafeYear < year + 400 * cycles)) :
    cyclePlace (year + 400 * cycles) = cyclePlace year := by
  have hoffset : cycleShift (year + 400 * cycles) = cycleShift year + 48 * cycles := by
    refine cycleShift_cycle ?_
    unfold minSafeYear maxSafeYear at h
    omega
  have hlow : year + 400 * cycles < minSafeYear ↔ year < minSafeYear := by
    unfold minSafeYear maxSafeYear at *
    omega
  rw [cyclePlace, cyclePlace, hoffset,
    show year + 400 * cycles - 1 = year - 1 + 400 * cycles by omega,
    isExceptionCentury_cycle, isExceptionCentury_cycle]
  simp only [hlow]
  unfold solarCycleLength
  omega

theorem safeYear_cycle {year cycles : ℤ} (hyear : InReach year)
    (hcycles : InReach (year + 400 * cycles))
    (h : (year < minSafeYear ∧ year + 400 * cycles < minSafeYear) ∨
      (maxSafeYear < year ∧ maxSafeYear < year + 400 * cycles)) :
    safeYear (year + 400 * cycles) = safeYear year := by
  have hentry (cycle : ℤ) : safeYearsEntry (year + 400 * cycles) cycle =
      safeYearsEntry year cycle := by
    unfold safeYearsEntry minSafeYear maxSafeYear at *
    split_ifs
    all_goals first | rfl | omega
  have houtside (n : ℤ) (hn : n < minSafeYear ∨ maxSafeYear < n) :
      ¬(n ≥ minSafeYear ∧ n ≤ maxSafeYear) := by omega
  unfold safeYear
  rw [yearCycle_eq hyear, yearCycle_eq hcycles, cyclePlace_cycle h, ok_bind, ok_bind, hentry,
    if_neg (houtside _ (h.imp And.left And.left)), if_neg (houtside _ (h.imp And.right And.right))]

/-! ### Safe years -/

/-- The answer for a year, as far as dates need it. -/
def Suits (year : ℤ) (answer : Except Fault ℤ) : Prop :=
  match answer with
  | .ok safe => minSafeYear ≤ safe ∧ safe ≤ maxSafeYear ∧ Alike year safe
  | .error _ => False

instance (year : ℤ) (answer : Except Fault ℤ) : Decidable (Suits year answer) :=
  match answer with
  | .ok safe => inferInstanceAs
      (Decidable (minSafeYear ≤ safe ∧ safe ≤ maxSafeYear ∧ Alike year safe))
  | .error _ => inferInstanceAs (Decidable False)

theorem suits_low : ∀ n < 400, Suits (1571 + (n : ℕ)) (safeYear (1571 + (n : ℕ))) := by
  decide +kernel

theorem suits_high : ∀ n < 400, Suits (2038 + (n : ℕ)) (safeYear (2038 + (n : ℕ))) := by
  decide +kernel

theorem safeYear_suits {year : ℤ} (h : InReach year) : Suits year (safeYear year) := by
  by_cases hinside : year ≥ minSafeYear ∧ year ≤ maxSafeYear
  · unfold safeYear
    rw [if_pos hinside]
    exact ⟨hinside.1, hinside.2, alike_self year⟩
  · -- the year among the 400 next to the safe ones
    obtain ⟨first, cycles, n, hn, hyear, hreach, hside, hfirst⟩ : ∃ first cycles : ℤ, ∃ n < 400,
        year + 400 * cycles = first + (n : ℕ) ∧ InReach (year + 400 * cycles) ∧
        ((year < minSafeYear ∧ year + 400 * cycles < minSafeYear) ∨
          (maxSafeYear < year ∧ maxSafeYear < year + 400 * cycles)) ∧
        ∀ n < 400, Suits (first + (n : ℕ)) (safeYear (first + (n : ℕ))) := by
      unfold minSafeYear maxSafeYear InReach at *
      by_cases hlow : year < 1971
      · exact ⟨1571, (1970 - year) / 400, (year + 400 * ((1970 - year) / 400) - 1571).toNat,
          by omega, by omega, by omega, by omega, suits_low⟩
      · exact ⟨2038, -((year - 2038) / 400), (year - 400 * ((year - 2038) / 400) - 2038).toNat,
          by omega, by omega, by omega, by omega, suits_high⟩
    have hsuits := hfirst n hn
    rw [← hyear, safeYear_cycle h hreach hside] at hsuits
    generalize safeYear year = answer at hsuits ⊢
    cases answer with
    | error fault => exact hsuits
    | ok safe => exact ⟨hsuits.1, hsuits.2.1, hsuits.2.2.cycle cycles⟩

theorem safeYear_spec {year : ℤ} (h : InReach year) : ∃ safe, safeYear year = .ok safe ∧
    minSafeYear ≤ safe ∧ safe ≤ maxSafeYear ∧ Alike year safe := by
  have hsuits := safeYear_suits h
  generalize safeYear year = answer at hsuits ⊢
  cases answer with
  | error fault => exact absurd hsuits not_false
  | ok safe => exact ⟨safe, rfl, hsuits⟩

/-- For every year in reach there is one of the 32-bit times that starts on the same day of the
    week and has the same length, behind a year that does and before one that starts on the same
    day. -/
theorem safeYear_alike {year : ℤ} (h : InReach year) : ∃ safe, safeYear year = .ok safe ∧
    minSafeYear ≤ safe ∧ safe ≤ maxSafeYear ∧
    GregorianCalendar.isLeap year = GregorianCalendar.isLeap safe ∧
    firstWeekday year = firstWeekday safe ∧
    GregorianCalendar.isLeap (year - 1) = GregorianCalendar.isLeap (safe - 1) ∧
    firstWeekday (year - 1) = firstWeekday (safe - 1) ∧
    firstWeekday (year + 1) = firstWeekday (safe + 1) := by
  obtain ⟨safe, hsafe, hmin, hmax, halike⟩ := safeYear_spec h
  exact ⟨safe, hsafe, hmin, hmax, (alike_iff year safe).mp halike⟩

theorem safeYear_alike_far : ∃ safe, safeYear 8000000000000000000 = .ok safe ∧
    minSafeYear ≤ safe ∧ safe ≤ maxSafeYear ∧
    GregorianCalendar.isLeap 8000000000000000000 = GregorianCalendar.isLeap safe ∧
    firstWeekday 8000000000000000000 = firstWeekday safe ∧
    GregorianCalendar.isLeap (8000000000000000000 - 1) = GregorianCalendar.isLeap (safe - 1) ∧
    firstWeekday (8000000000000000000 - 1) = firstWeekday (safe - 1) ∧
    firstWeekday (8000000000000000000 + 1) = firstWeekday (safe + 1) :=
  safeYear_alike (by decide)

/-! ### The seconds between two years -/

theorem daysBefore_calendar (year : ℤ) :
    daysBefore (year + 1) = daysBefore year + lengthOfYear (isLeap (year - 1900)) := by
  have := daysBefore_next (year - 1900)
  rwa [show year - 1900 + 1 + 1900 = year + 1 by omega, Int.sub_add_cancel] at this

theorem yearsBetween_up {leftYear rightYear : ℤ} (seconds : ℤ) (h : rightYear ≤ leftYear) :
    yearsBetween leftYear rightYear true seconds =
      .ok (seconds + (daysBefore leftYear - daysBefore rightYear) * 86400) := by
  fun_induction yearsBetween leftYear rightYear true seconds with
  | case1 seconds =>
    congr 1
    omega
  | case2 rightYear seconds hne total _ hlt ih =>
    have hnext := daysBefore_calendar rightYear
    rw [ih (by omega)]
    congr 1
    omega
  | case3 rightYear seconds hne _ hge => omega
  | case4 rightYear seconds hne total hfalse hlt ih => exact absurd rfl hfalse
  | case5 rightYear seconds hne hfalse hge => exact absurd rfl hfalse

theorem yearsBetween_down {leftYear rightYear : ℤ} (seconds : ℤ) (h : leftYear ≤ rightYear) :
    yearsBetween leftYear rightYear false seconds =
      .ok (seconds + (daysBefore (rightYear + 1) - daysBefore (leftYear + 1)) * 86400) := by
  fun_induction yearsBetween leftYear rightYear false seconds with
  | case1 seconds =>
    congr 1
    omega
  | case2 rightYear seconds hne total htrue hlt ih => exact absurd htrue Bool.false_ne_true
  | case3 rightYear seconds hne htrue hge => exact absurd htrue Bool.false_ne_true
  | case4 rightYear seconds hne total _ hlt ih =>
    have hnext := daysBefore_calendar rightYear
    rw [ih (by omega), show rightYear - 1 + 1 = rightYear by omega]
    congr 1
    omega
  | case5 rightYear seconds hne _ hge => omega

theorem cycles_fit (cycles : ℤ) (h : -5368709 ≤ cycles ∧ cycles ≤ 5368709) :
    toInt cycles = cycles ∧ int (cycles * 400) = .ok (cycles * 400) := by
  rw [toInt_eq_iff]
  unfold intMin intMax
  refine ⟨by omega, int_of_mem ?_⟩
  unfold intMin intMax
  omega

/-- The loop from a year that was moved by whole cycles. Between years of one length it does not
    matter from which end the lengths are taken. -/
theorem yearsBetween_moved {leftYear rightYear : ℤ} (cycles seconds : ℤ)
    (halike : Alike leftYear rightYear)
    (hup : leftYear > rightYear → rightYear ≤ leftYear + 400 * cycles)
    (hdown : leftYear ≤ rightYear → leftYear + 400 * cycles ≤ rightYear) :
    (yearsBetween (leftYear + 400 * cycles) rightYear (decide (leftYear > rightYear)) seconds >>=
      fun total => pure (total * if decide (leftYear > rightYear) = true then 1 else -1)) =
    .ok ((if leftYear > rightYear then seconds else -seconds) +
      (daysBefore leftYear - daysBefore rightYear + 146097 * cycles) * 86400) := by
  have hlength : daysBefore (leftYear + 1) - daysBefore leftYear =
      daysBefore (rightYear + 1) - daysBefore rightYear := by
    rw [daysBefore_succ, daysBefore_succ, halike.leap]
    omega
  by_cases h : leftYear > rightYear
  · rw [decide_eq_true h, yearsBetween_up _ (hup h), ok_bind, daysBefore_cycle, if_pos rfl,
      if_pos h]
    change Except.ok _ = Except.ok _
    congr 1
    omega
  · rw [decide_eq_false h, yearsBetween_down _ (hdown (not_lt.mp h)), ok_bind,
      show leftYear + 400 * cycles + 1 = leftYear + 1 + 400 * cycles by omega, daysBefore_cycle,
      if_neg Bool.false_ne_true, if_neg h]
    change Except.ok _ = Except.ok _
    congr 1
    omega

theorem secondsBetweenYears_eq {leftYear rightYear : ℤ}
    (hleft : intMin + 1900 ≤ leftYear ∧ leftYear ≤ intMax)
    (hright : minSafeYear ≤ rightYear ∧ rightYear ≤ maxSafeYear)
    (halike : Alike leftYear rightYear) : secondsBetweenYears leftYear rightYear =
      .ok ((daysBefore leftYear - daysBefore rightYear) * 86400) := by
  have hcycle : secondsInGregorianCycle = 146097 * 86400 := by decide
  unfold intMin intMax at hleft
  unfold minSafeYear maxSafeYear at hright
  unfold secondsBetweenYears
  dsimp only
  by_cases hhigh : leftYear > 2400
  · have hparts := tdiv_tmod (leftYear - 2400) (b := 400) (by omega)
    generalize (leftYear - 2400).tdiv 400 = cycles at *
    obtain ⟨hcycles, hyears⟩ := cycles_fit cycles (by omega)
    rw [if_pos hhigh, hcycles, hyears, ok_bind,
      show leftYear - cycles * 400 = leftYear + 400 * -cycles by omega]
    refine (yearsBetween_moved (-cycles) (cycles * secondsInGregorianCycle) halike
      (by omega) (by omega)).trans ?_
    rw [if_pos (by omega), hcycle]
    congr 1
    omega
  rw [if_neg hhigh]
  by_cases hlow : leftYear < 1600
  · have hparts := tdiv_tmod (leftYear - 1600) (b := 400) (by omega)
    generalize (leftYear - 1600).tdiv 400 = cycles at *
    obtain ⟨hcycles, hyears⟩ := cycles_fit cycles (by omega)
    rw [if_pos hlow, hcycles, hyears, ok_bind,
      show leftYear + cycles * 400 = leftYear + 400 * cycles by omega]
    refine (yearsBetween_moved cycles (cycles * secondsInGregorianCycle) halike
      (by omega) (by omega)).trans ?_
    rw [if_neg (by omega), hcycle]
    congr 1
    omega
  · rw [if_neg hlow]
    have hmoved := yearsBetween_moved 0 0 halike (by omega) (by omega)
    rw [Int.mul_zero, Int.add_zero] at hmoved
    refine hmoved.trans ?_
    congr 1
    split_ifs <;> omega

end Shashlik.Time64
