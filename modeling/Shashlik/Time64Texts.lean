import Mathlib.Data.List.Nodup
import Shashlik.Time64Dates

set_option autoImplicit false

/-!
# Dates as texts

`asctime64` writes every date that `check_tm` accepts into an array of 35 characters, and its
fields can be read back from there.
-/
namespace Shashlik.Time64

/-! ### Numbers -/

theorem toDigits_injective {m n : ℕ} (h : Nat.toDigits 10 m = Nat.toDigits 10 n) : m = n := by
  rw [← @Nat.ofDigitChars_ten_toDigits m, h, Nat.ofDigitChars_ten_toDigits]

theorem dash_not_mem_toDigits (n : ℕ) : '-' ∉ Nat.toDigits 10 n := fun h =>
  absurd (Nat.isDigit_of_mem_toDigits (by decide) (by decide) h) (by decide)

theorem digits_one (n : ℤ) :
    digits 1 n = (if n < 0 then ['-'] else []) ++ Nat.toDigits 10 n.natAbs := by
  have hzeros : 1 - (Nat.toDigits 10 n.natAbs).length = 0 := by
    have := @Nat.length_toDigits_pos 10 n.natAbs
    omega
  unfold digits
  dsimp only
  rw [hzeros, List.replicate_zero, List.append_nil]

theorem digits_one_injective {m n : ℤ} (h : digits 1 m = digits 1 n) : m = n := by
  have hdash (k : ℕ) (text : List Char) : '-' :: text ≠ Nat.toDigits 10 k := fun heq =>
    dash_not_mem_toDigits k (heq ▸ List.mem_cons_self)
  rw [digits_one, digits_one] at h
  split_ifs at h with hm hn hn
  · have := toDigits_injective (List.append_cancel_left h)
    omega
  · exact absurd h (hdash _ _)
  · exact absurd h.symm (hdash _ _)
  · have := toDigits_injective (List.append_cancel_left h)
    omega

theorem length_digits_one_le {n : ℤ} (h : intMin ≤ n ∧ n ≤ intMax) :
    (digits 1 n).length ≤ 11 := by
  have hlength : (Nat.toDigits 10 n.natAbs).length ≤ 10 := by
    unfold intMin intMax at h
    rw [Nat.length_toDigits_le_iff (by decide) (by decide)]
    omega
  rw [digits_one, List.length_append]
  split_ifs
  · rw [List.length_singleton]
    omega
  · rw [List.length_nil]
    omega

theorem short_numbers : ∀ n < 100, (digits 2 (n : ℕ)).length = 2 ∧ (padded (n : ℕ)).length = 3 ∧
    Nat.ofDigitChars 10 (digits 2 (n : ℕ)) 0 = n ∧
    Nat.ofDigitChars 10 ((padded (n : ℕ)).dropWhile (fun c => c = ' ')) 0 = n := by
  decide +kernel

theorem digits_two {m : ℤ} (h : 0 ≤ m ∧ m < 100) : (digits 2 m).length = 2 ∧
    ∀ n, 0 ≤ n ∧ n < 100 → digits 2 m = digits 2 n → m = n := by
  obtain ⟨k, rfl⟩ := Int.eq_ofNat_of_zero_le h.1
  have hk := short_numbers k (by omega)
  refine ⟨hk.1, fun n hn heq => ?_⟩
  obtain ⟨j, rfl⟩ := Int.eq_ofNat_of_zero_le hn.1
  have hj := short_numbers j (by omega)
  rw [← hk.2.2.1, heq, hj.2.2.1]

theorem padded_day {m : ℤ} (h : 0 ≤ m ∧ m < 100) : (padded m).length = 3 ∧
    ∀ n, 0 ≤ n ∧ n < 100 → padded m = padded n → m = n := by
  obtain ⟨k, rfl⟩ := Int.eq_ofNat_of_zero_le h.1
  have hk := short_numbers k (by omega)
  refine ⟨hk.2.1, fun n hn heq => ?_⟩
  obtain ⟨j, rfl⟩ := Int.eq_ofNat_of_zero_le hn.1
  have hj := short_numbers j (by omega)
  rw [← hk.2.2.2, heq, hj.2.2.2]

/-! ### Names -/

theorem entry_name {table : List (List Char)} (hlength : ∀ name ∈ table, name.length = 3)
    (hnodup : table.Nodup) {i : ℤ} (hi : 0 ≤ i ∧ i < table.length) :
    ∃ name, entry table i = .ok name ∧ name.length = 3 ∧
      ∀ j : ℤ, 0 ≤ j ∧ j < table.length → entry table j = .ok name → i = j := by
  obtain ⟨k, rfl⟩ := Int.eq_ofNat_of_zero_le hi.1
  have hk : k < table.length := by omega
  refine ⟨table[k], entry_natCast _ _ _ (List.getElem?_eq_getElem hk),
    hlength _ (List.getElem_mem hk), fun j hj hentry => ?_⟩
  obtain ⟨m, rfl⟩ := Int.eq_ofNat_of_zero_le hj.1
  have hm : m < table.length := by omega
  rw [entry_natCast _ _ _ (List.getElem?_eq_getElem hm)] at hentry
  have hkm : m = k := (List.Nodup.getElem_inj_iff hnodup).mp (Except.ok.inj hentry)
  rw [hkm]

theorem entry_wdayName {i : ℤ} (hi : 0 ≤ i ∧ i ≤ 6) : ∃ name, entry wdayName i = .ok name ∧
    name.length = 3 ∧ ∀ j, 0 ≤ j ∧ j ≤ 6 → entry wdayName j = .ok name → i = j := by
  have hlast : (wdayName.length : ℤ) = 7 := by decide
  obtain ⟨name, hentry, hlength, hinj⟩ := entry_name
    (show ∀ name ∈ wdayName, name.length = 3 by decide) (by decide)
    (show 0 ≤ i ∧ i < wdayName.length by omega)
  exact ⟨name, hentry, hlength, fun j hj => hinj j (by omega)⟩

theorem entry_monName {i : ℤ} (hi : 0 ≤ i ∧ i ≤ 11) : ∃ name, entry monName i = .ok name ∧
    name.length = 3 ∧ ∀ j, 0 ≤ j ∧ j ≤ 11 → entry monName j = .ok name → i = j := by
  have hlast : (monName.length : ℤ) = 12 := by decide
  obtain ⟨name, hentry, hlength, hinj⟩ := entry_name
    (show ∀ name ∈ monName, name.length = 3 by decide) (by decide)
    (show 0 ≤ i ∧ i < monName.length by omega)
  exact ⟨name, hentry, hlength, fun j hj => hinj j (by omega)⟩

/-! ### Dates -/

theorem Checked.mday_lt {p : Tm} (h : Checked p) : 0 ≤ p.tmMday ∧ p.tmMday < 100 := by
  have := h.mday
  have := GregorianCalendar.monthLength_bounds (isLeap p.tmYear) p.tmMon.toNat
  omega

/-- Two texts of the same form with equal parts, read from the left: every part but the year has
    a fixed width. -/
theorem printed_injective {wday mon wday' mon' : List Char} {p q : Tm} {year year' : ℤ}
    (hwday : wday.length = wday'.length) (hmon : mon.length = mon'.length) (hp : Checked p)
    (hq : Checked q) (h : printed wday mon p year = printed wday' mon' q year') :
    wday = wday' ∧ mon = mon' ∧ p.tmMday = q.tmMday ∧ p.tmHour = q.tmHour ∧ p.tmMin = q.tmMin ∧
      p.tmSec = q.tmSec ∧ year = year' := by
  have hmday := padded_day hp.mday_lt
  have hmday' := padded_day hq.mday_lt
  have hhour := digits_two (m := p.tmHour) (by have := hp.hour; omega)
  have hhour' := digits_two (m := q.tmHour) (by have := hq.hour; omega)
  have hmin := digits_two (m := p.tmMin) (by have := hp.min; omega)
  have hmin' := digits_two (m := q.tmMin) (by have := hq.min; omega)
  have hsec := digits_two (m := p.tmSec) (by have := hp.sec; omega)
  have hsec' := digits_two (m := q.tmSec) (by have := hq.sec; omega)
  unfold printed at h
  obtain ⟨h1, h⟩ := List.append_inj h hwday
  obtain ⟨h2, h⟩ := List.append_inj (List.cons.inj h).2 hmon
  obtain ⟨h3, h⟩ := List.append_inj h (hmday.1.trans hmday'.1.symm)
  obtain ⟨h4, h⟩ := List.append_inj (List.cons.inj h).2 (hhour.1.trans hhour'.1.symm)
  obtain ⟨h5, h⟩ := List.append_inj (List.cons.inj h).2 (hmin.1.trans hmin'.1.symm)
  obtain ⟨h6, h⟩ := List.append_inj (List.cons.inj h).2 (hsec.1.trans hsec'.1.symm)
  refine ⟨h1, h2, hmday.2 _ hq.mday_lt h3, hhour.2 _ ?_ h4, hmin.2 _ ?_ h5, hsec.2 _ ?_ h6,
    digits_one_injective (List.append_cancel_right (List.cons.inj h).2)⟩
  · have := hq.hour
    omega
  · have := hq.min
    omega
  · have := hq.sec
    omega

theorem length_printed_le {wday mon : List Char} {p : Tm} {year : ℤ} (hwday : wday.length = 3)
    (hmon : mon.length = 3) (hp : Checked p) (hyear : intMin ≤ year ∧ year ≤ intMax) :
    (printed wday mon p year).length ≤ 32 := by
  have hmday := (padded_day hp.mday_lt).1
  have hhour := (digits_two (m := p.tmHour) (by have := hp.hour; omega)).1
  have hmin := (digits_two (m := p.tmMin) (by have := hp.min; omega)).1
  have hsec := (digits_two (m := p.tmSec) (by have := hp.sec; omega)).1
  have hyear := length_digits_one_le hyear
  have hnewline : "\n".toList.length = 1 := rfl
  unfold printed
  simp only [List.length_append, List.length_cons, hwday, hmon, hmday, hhour, hmin, hsec, hnewline]
  omega

theorem asctime64_checked {p : Tm} (hp : Checked p) : ∃ wday mon,
    entry wdayName p.tmWday = .ok wday ∧ wday.length = 3 ∧
    entry monName p.tmMon = .ok mon ∧ mon.length = 3 ∧
    asctime64 p = .ok (some (printed wday mon p (1900 + p.tmYear))) := by
  obtain ⟨wday, hwday, hlength, -⟩ := entry_wdayName hp.wday
  obtain ⟨mon, hmon, hlength', -⟩ := entry_monName hp.mon
  have hyear : intMin ≤ 1900 + p.tmYear ∧ 1900 + p.tmYear ≤ intMax := by
    have := hp.year
    omega
  have hle := length_printed_le hlength hlength' hp hyear
  refine ⟨wday, mon, hwday, hlength, hmon, hlength', ?_⟩
  unfold asctime64 asctime64R
  rw [if_neg (by rw [not_or, not_not, not_not]; exact ⟨hp.wday, hp.mon⟩), hwday, ok_bind, hmon,
    ok_bind, int_of_mem hyear]
  exact if_pos (by unfold staticReturnString; omega)

/-- A date that `check_tm` accepts is written inside the static array, and another one with the
    same text differs from it at most in what is not written. -/
theorem asctime64_of_accepted {p : Tm} (hp : checkTm p = .ok ()) : ∃ text,
    asctime64 p = .ok (some text) ∧ text.length + 1 ≤ staticReturnString ∧
    ∀ q, checkTm q = .ok () → asctime64 q = .ok (some text) →
      q = { p with tmYday := q.tmYday, tmIsdst := q.tmIsdst } := by
  rw [checkTm_eq_ok_iff] at hp
  obtain ⟨wday, mon, hwday, hwlen, hmon, hmlen, htext⟩ := asctime64_checked hp
  refine ⟨_, htext, ?_, fun q hq hqtext => ?_⟩
  · have hyear : intMin ≤ 1900 + p.tmYear ∧ 1900 + p.tmYear ≤ intMax := by
      have := hp.year
      omega
    have := length_printed_le hwlen hmlen hp hyear
    unfold staticReturnString
    omega
  · rw [checkTm_eq_ok_iff] at hq
    obtain ⟨wday', mon', hwday', hwlen', hmon', hmlen', htext'⟩ := asctime64_checked hq
    have hsame := Option.some.inj (Except.ok.inj (htext'.symm.trans hqtext))
    obtain ⟨rfl, rfl, hmday, hhour, hmin, hsec, hyear⟩ :=
      printed_injective (hwlen'.trans hwlen.symm) (hmlen'.trans hmlen.symm) hq hp hsame
    obtain ⟨_, hwname, -, hwinj⟩ := entry_wdayName hp.wday
    obtain ⟨_, hmname, -, hminj⟩ := entry_monName hp.mon
    have hw := hwinj q.tmWday hq.wday (hwday'.trans (hwday.symm.trans hwname))
    have hm := hminj q.tmMon hq.mon (hmon'.trans (hmon.symm.trans hmname))
    have hy : q.tmYear = p.tmYear := by omega
    rw [hw, hm, ← hmday, ← hhour, ← hmin, ← hsec, ← hy]

theorem asctime64_last_date : ∃ text,
    asctime64 ⟨59, 59, 23, 31, 11, 2147481747, 5, 364, 0⟩ = .ok (some text) ∧
    text.length + 1 ≤ staticReturnString ∧ ∀ q, checkTm q = .ok () →
      asctime64 q = .ok (some text) →
      q = ⟨59, 59, 23, 31, 11, 2147481747, 5, q.tmYday, q.tmIsdst⟩ :=
  asctime64_of_accepted (p := ⟨59, 59, 23, 31, 11, 2147481747, 5, 364, 0⟩) (by decide)

end Shashlik.Time64
