import Mathlib.Logic.Function.Basic
import Mathlib.Data.List.TakeWhile
import Mathlib.Tactic.Common

set_option autoImplicit false

/-!
# Memory and C strings

Memory is a byte for every address, counted from the start of the object of interest, so
that a write past the end of the object lands on the bytes behind it. A C string is the run
of bytes up to the first zero.
-/
namespace CStrings

abbrev Memory := ℕ → UInt8

/-- What `strlen` and `strcpy` see of a byte sequence. -/
def cString (bytes : List UInt8) : List UInt8 := bytes.takeWhile (fun b => b ≠ 0)

def dump (m : Memory) (n : ℕ) : List UInt8 := (List.range n).map m

def writeAll (m : Memory) (ws : List (ℕ × UInt8)) : Memory :=
  ws.foldl (fun m w => Function.update m w.1 w.2) m

def writesFrom : ℕ → List UInt8 → List (ℕ × UInt8)
  | _, [] => []
  | dst, b :: bs => (dst, b) :: writesFrom (dst + 1) bs

/-- The writes of `strcpy`, the terminator included. -/
def strcpyWrites (dst : ℕ) (src : List UInt8) : List (ℕ × UInt8) :=
  writesFrom dst (cString src ++ [0])

theorem cString_append_zero (s rest : List UInt8) (h : 0 ∉ s) :
    cString (s ++ 0 :: rest) = s := by
  induction s with
  | nil => simp [cString]
  | cons b s ih =>
    simp only [List.mem_cons, not_or] at h
    have hb : b ≠ 0 := fun e => h.1 e.symm
    have hs : List.takeWhile (fun b => b ≠ 0) (s ++ 0 :: rest) = s := ih h.2
    simpa [cString, hb] using hs

theorem cString_of_not_mem (s : List UInt8) (h : 0 ∉ s) : cString s = s := by
  apply List.takeWhile_eq_self_iff.mpr
  intro b hb
  have hne : b ≠ 0 := fun e => h (e ▸ hb)
  simpa using hne

theorem length_cString_le (bytes : List UInt8) : (cString bytes).length ≤ bytes.length :=
  (List.takeWhile_prefix _).length_le

theorem writeAll_append (m : Memory) (ws ws' : List (ℕ × UInt8)) :
    writeAll m (ws ++ ws') = writeAll (writeAll m ws) ws' := List.foldl_append

theorem writeAll_writesFrom (bs : List UInt8) (m : Memory) (dst i : ℕ) :
    writeAll m (writesFrom dst bs) i =
      if dst ≤ i then bs.getD (i - dst) (m i) else m i := by
  induction bs generalizing m dst with
  | nil => simp [writesFrom, writeAll]
  | cons b bs ih =>
    change writeAll (Function.update m dst b) (writesFrom (dst + 1) bs) i = _
    rw [ih]
    rcases Nat.lt_trichotomy i dst with h | h | h
    · simp [show ¬ dst + 1 ≤ i by omega, show ¬ dst ≤ i by omega, show i ≠ dst by omega]
    · subst h
      rw [if_neg (by omega), if_pos (Nat.le_refl _)]
      simp
    · have hsub : i - dst = (i - (dst + 1)) + 1 := by omega
      simp [show dst + 1 ≤ i by omega, show dst ≤ i by omega, show i ≠ dst by omega, hsub]

theorem cString_dump (m : Memory) (start n : ℕ) (s : List UInt8) (hz : 0 ∉ s)
    (hs : ∀ (i : ℕ) (hi : i < s.length), m (start + i) = s[i])
    (hend : m (start + s.length) = 0) (hn : start + s.length < n) :
    cString ((dump m n).drop start) = s := by
  have hsplit : (dump m n).drop start = s ++ 0 :: (dump m n).drop (start + s.length + 1) := by
    apply List.ext_getElem
    · simp [dump]; omega
    · intro i hi hi'
      simp only [dump, List.length_drop, List.length_map, List.length_range] at hi
      simp only [dump, List.getElem_drop, List.getElem_map, List.getElem_range]
      rcases Nat.lt_trichotomy i s.length with h | h | h
      · rw [List.getElem_append_left h, hs i h]
      · subst h
        rw [List.getElem_append_right (Nat.le_refl _)]
        simpa using hend
      · rw [List.getElem_append_right (by omega)]
        obtain ⟨j, hj⟩ : ∃ j, i - s.length = j + 1 := ⟨i - s.length - 1, by omega⟩
        simp only [hj, List.getElem_cons_succ, List.getElem_drop, List.getElem_map,
          List.getElem_range]
        congr 1
        omega
  rw [hsplit, cString_append_zero s _ hz]

end CStrings
