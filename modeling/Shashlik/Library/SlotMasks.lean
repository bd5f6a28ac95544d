import Mathlib.Data.Nat.Bitwise
import Mathlib.Data.List.Basic
import Mathlib.Tactic.Common

set_option autoImplicit false

/-!
# Slot masks

A machine word whose bits say which slots of a row are taken: first fit, taking, releasing,
and the comparison that tells a full row. A slot is a stretch of a region of memory, so its
number is found again from the distance to the start of the region.
-/
namespace SlotMasks

section Masks
variable {n : ℕ}

theorem getLsbD_one_shiftLeft (k i : ℕ) :
    (1#n <<< k).getLsbD i = (decide (i < n) && decide (i = k)) := by
  rw [← BitVec.twoPow_eq, BitVec.getLsbD_twoPow]
  grind

theorem and_slot_eq_zero_iff (mask : BitVec n) {k : ℕ} (hk : k < n) :
    mask &&& (1#n <<< k) = 0 ↔ mask.getLsbD k = false := by
  constructor
  · intro hzero
    have hbit := congrArg (fun x : BitVec n => x.getLsbD k) hzero
    simpa [getLsbD_one_shiftLeft, hk] using hbit
  · intro hclear
    apply BitVec.eq_of_getLsbD_eq
    intro i hi
    rw [BitVec.getLsbD_and, getLsbD_one_shiftLeft]
    by_cases hik : i = k
    · subst hik
      simp [hclear]
    · simp [hik]

theorem getLsbD_take (mask : BitVec n) {k : ℕ} (hk : k < n) (i : ℕ) :
    (mask ||| 1#n <<< k).getLsbD i = (mask.getLsbD i || decide (i = k)) := by
  rw [BitVec.getLsbD_or, getLsbD_one_shiftLeft]
  grind

theorem getLsbD_release (mask : BitVec n) (k i : ℕ) :
    (mask &&& ~~~(1#n <<< k)).getLsbD i = (mask.getLsbD i && !decide (i = k)) := by
  rw [BitVec.getLsbD_and, BitVec.getLsbD_not, getLsbD_one_shiftLeft]
  by_cases hi : i < n
  · simp [hi]
  · simp [BitVec.getLsbD_of_ge mask i (Nat.le_of_not_lt hi)]

theorem toNat_row {slots : ℕ} (hslots : slots < n) :
    ((1#n <<< slots) - 1).toNat = 2 ^ slots - 1 := by
  have hone : (1 : BitVec n).toNat = 1 := BitVec.toNat_one (by omega)
  have hlt : 2 ^ slots < 2 ^ n := Nat.pow_lt_pow_right (by decide) hslots
  have hpos := Nat.two_pow_pos slots
  rw [← BitVec.twoPow_eq, BitVec.toNat_sub_of_le, BitVec.toNat_twoPow_of_lt hslots, hone]
  rw [BitVec.le_def, BitVec.toNat_twoPow_of_lt hslots, hone]
  omega

theorem full_iff (mask : BitVec n) {slots : ℕ} (hslots : slots < n)
    (hbelow : ∀ i, mask.getLsbD i = true → i < slots) :
    (1#n <<< slots) - 1 ≤ mask ↔ ∀ i < slots, mask.getLsbD i = true := by
  have hlt : mask.toNat < 2 ^ slots := by
    apply Nat.lt_pow_two_of_testBit
    intro i hi
    rw [BitVec.testBit_toNat, Bool.eq_false_iff]
    exact fun hbit => absurd (hbelow i hbit) (Nat.not_lt.mpr hi)
  rw [BitVec.le_def, toNat_row hslots]
  constructor
  · intro hfull i hi
    have hmask : mask.toNat = 2 ^ slots - 1 := by omega
    rw [← BitVec.testBit_toNat, hmask, Nat.testBit_two_pow_sub_one]
    exact decide_eq_true hi
  · intro hbits
    have hmask : mask.toNat = 2 ^ slots - 1 := by
      apply Nat.eq_of_testBit_eq
      intro i
      rw [BitVec.testBit_toNat, Nat.testBit_two_pow_sub_one]
      by_cases hi : i < slots
      · rw [hbits i hi, decide_eq_true hi]
      · rw [decide_eq_false hi, Bool.eq_false_iff]
        exact fun hbit => hi (hbelow i hbit)
    omega

end Masks

/-- First fit: the first number with the property, if there is one. -/
theorem findIdx_range_spec {p : ℕ → Bool} {slots i : ℕ} (hi : i < slots) (hp : p i = true) :
    (List.range slots).findIdx p < slots ∧ p ((List.range slots).findIdx p) = true := by
  have hlt : (List.range slots).findIdx p < (List.range slots).length :=
    List.findIdx_lt_length_of_exists ⟨i, List.mem_range.mpr hi, hp⟩
  refine ⟨by simpa using hlt, ?_⟩
  have hfound := List.findIdx_getElem (w := hlt)
  simpa using hfound

section Addresses

theorem borrowed_div_mod_eq_iff {P size k : ℕ} (hsize : 0 < size) (hlt : size < P) (hk : k < P) :
    (P * (P - 1) + k * size) / size % P = k ↔ size ∣ P - 1 := by
  rw [Nat.add_mul_div_right _ _ hsize]
  constructor
  · intro hmod
    -- the quotient is a multiple `m` of `P`, and `size * m` is squeezed between multiples of `P`
    have hmultiple : P ∣ P * (P - 1) / size := by
      have hsplit := Nat.div_add_mod (P * (P - 1) / size + k) P
      exact ⟨(P * (P - 1) / size + k) / P, by omega⟩
    obtain ⟨m, hm⟩ := hmultiple
    have hlower : P * (m * size) ≤ P * (P - 1) := by
      calc
        _ = P * m * size := by rw [Nat.mul_assoc]
        _ = P * (P - 1) / size * size := by rw [hm]
        _ ≤ P * (P - 1) := Nat.div_mul_le_self _ _
    have hupper : P * (P - 1) < P * (m * size + 1) := by
      calc
        _ < (P * (P - 1) / size + 1) * size := Nat.lt_mul_of_div_lt (Nat.lt_succ_self _) hsize
        _ = P * (m * size) + size := by rw [hm, Nat.add_mul, Nat.one_mul, Nat.mul_assoc]
        _ < P * (m * size) + P := by omega
        _ = P * (m * size + 1) := by rw [Nat.mul_add, Nat.mul_one]
    have hle := Nat.le_of_mul_le_mul_left hlower (by omega)
    have hge := Nat.lt_of_mul_lt_mul_left hupper
    exact ⟨m, by rw [Nat.mul_comm]; omega⟩
  · rintro ⟨m, hm⟩
    have hquotient : P * (P - 1) / size = m * P := by
      rw [hm, Nat.mul_left_comm, Nat.mul_div_cancel_left _ hsize, Nat.mul_comm]
    rw [hquotient, Nat.add_comm, Nat.add_mul_mod_self_right, Nat.mod_eq_of_lt hk]

/-- The number of a slot is found again from the sign-extended addresses exactly when both lie
    in one half of the address space, or the size of a slot happens to divide the borrow. -/
theorem slot_of_addresses_iff {n v : ℕ} (hv : v = 2 * n) (start d size : BitVec n) {k : ℕ}
    (hsize : 0 < size.toNat) (hd : d.toNat = k * size.toNat)
    (hfits : start.toNat + d.toNat < 2 ^ n) :
    ((((start + d).signExtend v - start.signExtend v) / size.setWidth v).setWidth n).toNat = k ↔
      (start + d).msb = start.msb ∨ size.toNat ∣ 2 ^ n - 1 := by
  have hwide : 2 ^ v = 2 ^ n * 2 ^ n := by rw [hv, Nat.two_mul, Nat.pow_add]
  have hpos : 0 < 2 ^ n := Nat.two_pow_pos n
  have hle : 2 ^ n ≤ 2 ^ v := Nat.pow_le_pow_right (by decide) (by omega)
  have hborrow : 2 ^ n * (2 ^ n - 1) = 2 ^ v - 2 ^ n := by rw [Nat.mul_sub_one, hwide]
  have hk : k < 2 ^ n := by
    have hself := Nat.le_mul_of_pos_right k hsize
    omega
  have hsum : (start + d).toNat = start.toNat + k * size.toNat := by
    rw [BitVec.toNat_add, Nat.mod_eq_of_lt hfits, hd]
  rw [hd] at hfits
  rw [BitVec.toNat_setWidth, BitVec.toNat_udiv, BitVec.toNat_sub, BitVec.toNat_signExtend,
    BitVec.toNat_signExtend, BitVec.toNat_setWidth_of_le (by omega),
    BitVec.toNat_setWidth_of_le (by omega), BitVec.toNat_setWidth_of_le (by omega), hsum]
  by_cases hsame : (start + d).msb = start.msb
  · -- the same upper half is added to both, and cancels
    refine iff_of_true ?_ (Or.inl hsame)
    rw [hsame]
    have hhalf : (if start.msb = true then 2 ^ v - 2 ^ n else 0) ≤ 2 ^ v - 2 ^ n := by
      split
      · exact Nat.le_refl _
      · exact Nat.zero_le _
    generalize (if start.msb = true then 2 ^ v - 2 ^ n else 0) = half at hhalf
    have hdistance : 2 ^ v - (start.toNat + half) + (start.toNat + k * size.toNat + half) =
        2 ^ v + k * size.toNat := by omega
    have hlt : k * size.toNat < 2 ^ v := by omega
    rw [hdistance, Nat.add_mod_left, Nat.mod_eq_of_lt hlt, Nat.mul_div_cancel _ hsize,
      Nat.mod_eq_of_lt hk]
  · -- only the slot lies in the upper half
    have hlow : start.msb = false := by
      rw [BitVec.msb_eq_decide, BitVec.msb_eq_decide, hsum] at hsame
      rw [BitVec.msb_eq_decide, decide_eq_false_iff_not]
      intro hhigh
      exact hsame (by rw [decide_eq_true hhigh, decide_eq_true (by omega)])
    have hhigh : (start + d).msb = true := by simpa [hlow] using hsame
    rw [or_iff_right hsame, hlow, hhigh, if_pos rfl, if_neg (by decide), Nat.add_zero]
    have hdistance : 2 ^ v - start.toNat + (start.toNat + k * size.toNat + (2 ^ v - 2 ^ n)) =
        2 ^ v + (2 ^ n * (2 ^ n - 1) + k * size.toNat) := by omega
    have hlt : 2 ^ n * (2 ^ n - 1) + k * size.toNat < 2 ^ v := by omega
    rw [hdistance, Nat.add_mod_left, Nat.mod_eq_of_lt hlt]
    exact borrowed_div_mod_eq_iff hsize size.isLt hk

end Addresses

end SlotMasks
