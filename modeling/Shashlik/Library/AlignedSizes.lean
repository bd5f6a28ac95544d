import Mathlib.Data.Nat.Bitwise
import Mathlib.Tactic.Common

set_option autoImplicit false

/-!
# Aligned sizes

Sizes of a machine word rounded up to a multiple of a power of two, the way C programs do it:
add the alignment less one, and clear the low bits with a mask.
-/
namespace AlignedSizes

variable {n : ℕ}

/-- `(x + (align - 1)) & ~(align - 1)`. -/
def alignUp (align x : BitVec n) : BitVec n := (x + (align - 1)) &&& ~~~(align - 1)

theorem and_not_mask (x mask : BitVec n) (k : ℕ) (hmask : mask.toNat = 2 ^ k - 1) :
    x &&& ~~~mask = (x >>> k) <<< k := by
  apply BitVec.eq_of_getLsbD_eq
  intro i hi
  have bit : mask.getLsbD i = decide (i < k) := by
    rw [← BitVec.testBit_toNat, hmask, Nat.testBit_two_pow_sub_one]
  rw [BitVec.getLsbD_and, BitVec.getLsbD_not, bit, BitVec.getLsbD_shiftLeft,
    BitVec.getLsbD_ushiftRight]
  by_cases low : i < k
  · simp [low]
  · simp [low, hi, Nat.add_sub_of_le (Nat.le_of_not_lt low)]

theorem toNat_and_not_mask (x mask : BitVec n) (k : ℕ) (hmask : mask.toNat = 2 ^ k - 1) :
    (x &&& ~~~mask).toNat = x.toNat / 2 ^ k * 2 ^ k := by
  rw [and_not_mask x mask k hmask, BitVec.toNat_shiftLeft, BitVec.toNat_ushiftRight,
    Nat.shiftLeft_eq, Nat.shiftRight_eq_div_pow]
  exact Nat.mod_eq_of_lt ((Nat.div_mul_le_self x.toNat (2 ^ k)).trans_lt x.isLt)

theorem toNat_alignUp (align x : BitVec n) (k : ℕ) (halign : (align - 1).toNat = 2 ^ k - 1)
    (hx : x.toNat + (2 ^ k - 1) < 2 ^ n) :
    (alignUp align x).toNat = (x.toNat + (2 ^ k - 1)) / 2 ^ k * 2 ^ k := by
  rw [alignUp, toNat_and_not_mask _ _ k halign, BitVec.toNat_add, halign, Nat.mod_eq_of_lt hx]

/-- A sum that wraps is rounded to zero. -/
theorem le_toNat_alignUp {align x : BitVec n} (k : ℕ) (halign : (align - 1).toNat = 2 ^ k - 1)
    (h : alignUp align x ≠ 0) : x.toNat ≤ (alignUp align x).toNat := by
  have hpos := Nat.two_pow_pos k
  by_cases hx : x.toNat + (2 ^ k - 1) < 2 ^ n
  · have hrounded := Nat.lt_div_mul_add (a := x.toNat + (2 ^ k - 1)) hpos
    rw [toNat_alignUp align x k halign hx]
    omega
  · exfalso
    apply h
    apply BitVec.eq_of_toNat_eq
    have hmask := (align - 1).isLt
    have hlt := x.isLt
    have hwrapped : (x.toNat + (2 ^ k - 1)) % 2 ^ n < 2 ^ k := by
      rw [Nat.mod_eq_sub_mod (Nat.le_of_not_lt hx), Nat.mod_eq_of_lt (by omega)]
      omega
    rw [alignUp, toNat_and_not_mask _ _ k halign, BitVec.toNat_add, halign,
      Nat.div_eq_of_lt hwrapped, Nat.zero_mul]
    rfl

/-! ### Up to a power of two

Every bit is spread over the places below it, a shift at a time, until all of them are ones. -/

/-- Each bit of `x` stands in `y` at its own place and the `d - 1` places below. -/
def Smears (d x y : ℕ) : Prop :=
  ∀ i, y.testBit i = true ↔ ∃ e, e < d ∧ x.testBit (i + e) = true

theorem smears_self (x : ℕ) : Smears 1 x x := by
  intro i
  constructor
  · exact fun h => ⟨0, Nat.one_pos, h⟩
  · rintro ⟨e, he, h⟩
    rwa [Nat.lt_one_iff.mp he] at h

theorem Smears.shift {d x y : ℕ} (h : Smears d x y) : Smears (d + d) x (y ||| y >>> d) := by
  intro i
  rw [Nat.testBit_or, Nat.testBit_shiftRight, Bool.or_eq_true, h i, h (d + i)]
  constructor
  · rintro (⟨e, he, hbit⟩ | ⟨e, he, hbit⟩)
    · exact ⟨e, by omega, hbit⟩
    · exact ⟨d + e, by omega, by rwa [show i + (d + e) = d + i + e by omega]⟩
  · rintro ⟨e, he, hbit⟩
    by_cases hlow : e < d
    · exact Or.inl ⟨e, hlow, hbit⟩
    · exact Or.inr ⟨e - d, by omega, by rwa [show d + i + (e - d) = i + e by omega]⟩

theorem Smears.add_one {d x y : ℕ} (h : Smears d x y) (hx : x < 2 ^ d) :
    ∃ b, b ≤ d ∧ y + 1 = 2 ^ b ∧ x < 2 ^ b := by
  by_cases hzero : x = 0
  · subst hzero
    refine ⟨0, Nat.zero_le d, ?_, Nat.one_pos⟩
    have hy : y = 0 := by
      refine Nat.eq_of_testBit_eq fun i => ?_
      rw [Nat.zero_testBit, ← Bool.not_eq_true, h i]
      rintro ⟨e, -, hbit⟩
      rw [Nat.zero_testBit] at hbit
      cases hbit
    rw [hy, Nat.pow_zero]
  · have hlow := Nat.log2_self_le hzero
    have hhigh : x < 2 ^ (x.log2 + 1) := Nat.lt_log2_self
    have hb : x.log2 + 1 ≤ d := (Nat.pow_lt_pow_iff_right Nat.one_lt_two).mp (hlow.trans_lt hx)
    have hy : y = 2 ^ (x.log2 + 1) - 1 := by
      refine Nat.eq_of_testBit_eq fun i => ?_
      rw [Nat.testBit_two_pow_sub_one, Bool.eq_iff_iff, h i, decide_eq_true_eq]
      constructor
      · rintro ⟨e, -, hbit⟩
        have hplace := (Nat.ge_two_pow_of_testBit hbit).trans_lt hhigh
        have := (Nat.pow_lt_pow_iff_right Nat.one_lt_two).mp hplace
        omega
      · intro hi
        exact ⟨x.log2 - i, by omega, by
          rw [show i + (x.log2 - i) = x.log2 by omega]
          exact Nat.testBit_log2 hzero⟩
    have hpos := Nat.two_pow_pos (x.log2 + 1)
    exact ⟨x.log2 + 1, hb, by omega, hhigh⟩

end AlignedSizes
