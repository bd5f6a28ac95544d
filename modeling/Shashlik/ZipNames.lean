import Mathlib.Data.Fintype.Basic
import Mathlib.Tactic.IntervalCases
import Shashlik.Library.ByteFields

set_option autoImplicit false

/-!
# Names in zip archives

Which byte sequences `IsValidEntryName` takes for the name of an entry.
-/
namespace Shashlik.ZipNames
open ByteFields

/-- The two loops. A continuation byte is due as long as `first` has its highest bit. -/
def scanName (m : Memory) : UInt8 → ℕ → ℕ → Option Bool
  | first, _, 0 => some (first &&& 0x80 == 0)
  | first, place, length + 1 => do
    let byte ← m place
    if first &&& 0x80 ≠ 0 then
      if byte &&& 0xc0 ≠ 0x80 then some false
      else scanName m (first <<< 1) (place + 1) length
    else if byte = 0 then some false
    else if byte &&& 0x80 = 0 then scanName m 0 (place + 1) length
    else if byte &&& 0xc0 = 0x80 ∨ byte &&& 0xfe = 0xfe then some false
    else scanName m (byte <<< 1) (place + 1) length

def isValidEntryName (m : Memory) (entry_name length : ℕ) : Option Bool :=
  scanName m 0 entry_name length

/-! ### The sequences -/

def leadingOnes (byte : UInt8) : ℕ :=
  if byte.toNat < 0x80 then 0 else if byte.toNat < 0xc0 then 1 else if byte.toNat < 0xe0 then 2
  else if byte.toNat < 0xf0 then 3 else if byte.toNat < 0xf8 then 4
  else if byte.toNat < 0xfc then 5 else if byte.toNat < 0xfe then 6
  else if byte.toNat < 0xff then 7 else 8

def Leads (byte : UInt8) : Prop := byte ≠ 0 ∧ leadingOnes byte ≠ 1 ∧ leadingOnes byte < 7

/-- Sequences of a first byte and as many continuation bytes as it says. -/
inductive Sequences : List UInt8 → Prop
  | nil : Sequences []
  | cons {lead : UInt8} {continuation rest : List UInt8} (hlead : Leads lead)
      (hlength : continuation.length = leadingOnes lead - 1)
      (hcontinuation : ∀ byte ∈ continuation, leadingOnes byte = 1) (hrest : Sequences rest) :
      Sequences (lead :: (continuation ++ rest))

/-- The rest of a sequence that so many continuation bytes are missing of, and more sequences. -/
def Completes (missing : ℕ) (bytes : List UInt8) : Prop :=
  ∃ continuation rest, bytes = continuation ++ rest ∧ continuation.length = missing ∧
    (∀ byte ∈ continuation, leadingOnes byte = 1) ∧ Sequences rest

theorem forall_byte {P : UInt8 → Prop} (h : ∀ n : Fin 256, P (UInt8.ofNat n)) (byte : UInt8) :
    P byte := by
  have hbyte := h ⟨byte.toNat, byte.toNat_lt⟩
  rwa [UInt8.ofNat_toNat] at hbyte

theorem leadingOnes_high (byte : UInt8) : byte &&& 0x80 ≠ 0 ↔ leadingOnes byte ≠ 0 := by
  revert byte
  exact forall_byte (by decide +kernel)

theorem leadingOnes_shift (byte : UInt8) :
    leadingOnes byte ≠ 0 → leadingOnes (byte <<< 1) = leadingOnes byte - 1 := by
  revert byte
  exact forall_byte (by decide +kernel)

theorem leadingOnes_continuation (byte : UInt8) : byte &&& 0xc0 = 0x80 ↔ leadingOnes byte = 1 := by
  revert byte
  exact forall_byte (by decide +kernel)

theorem leadingOnes_last (byte : UInt8) : byte &&& 0xfe = 0xfe ↔ 7 ≤ leadingOnes byte := by
  revert byte
  exact forall_byte (by decide +kernel)

theorem leads_single {byte : UInt8} (hzero : byte ≠ 0) (h : leadingOnes byte = 0) : Leads byte :=
  ⟨hzero, by omega, by omega⟩

theorem completes_nil (missing : ℕ) : Completes missing [] ↔ missing = 0 := by
  constructor
  · rintro ⟨continuation, rest, happend, rfl, -, -⟩
    rw [(List.append_eq_nil_iff.mp happend.symm).1, List.length_nil]
  · rintro rfl
    exact ⟨[], [], rfl, rfl, fun _ h => absurd h List.not_mem_nil, .nil⟩

theorem completes_zero (bytes : List UInt8) : Completes 0 bytes ↔ Sequences bytes := by
  constructor
  · rintro ⟨continuation, rest, rfl, hlength, -, hrest⟩
    rwa [List.length_eq_zero_iff.mp hlength]
  · exact fun h => ⟨[], bytes, rfl, rfl, fun _ hmem => absurd hmem List.not_mem_nil, h⟩

theorem completes_succ (missing : ℕ) (byte : UInt8) (bytes : List UInt8) :
    Completes (missing + 1) (byte :: bytes) ↔ leadingOnes byte = 1 ∧ Completes missing bytes := by
  constructor
  · rintro ⟨continuation, rest, happend, hlength, hcontinuation, hrest⟩
    cases continuation with
    | nil => cases hlength
    | cons first continuation =>
      rw [List.cons_append, List.cons.injEq] at happend
      obtain ⟨rfl, rfl⟩ := happend
      rw [List.forall_mem_cons] at hcontinuation
      exact ⟨hcontinuation.1, continuation, rest, rfl, Nat.succ.inj hlength, hcontinuation.2, hrest⟩
  · rintro ⟨hbyte, continuation, rest, rfl, rfl, hcontinuation, hrest⟩
    exact ⟨byte :: continuation, rest, rfl, rfl, List.forall_mem_cons.mpr ⟨hbyte, hcontinuation⟩,
      hrest⟩

theorem sequences_cons (lead : UInt8) (bytes : List UInt8) :
    Sequences (lead :: bytes) ↔ Leads lead ∧ Completes (leadingOnes lead - 1) bytes := by
  constructor
  · intro h
    cases h with
    | cons hlead hlength hcontinuation hrest =>
      exact ⟨hlead, _, _, rfl, hlength, hcontinuation, hrest⟩
  · rintro ⟨hlead, continuation, rest, rfl, hlength, hcontinuation, hrest⟩
    exact .cons hlead hlength hcontinuation hrest

/-! ### The scan -/

theorem scanName_eq {m : Memory} {place : ℕ} {bytes : List UInt8} (h : Stands m place bytes)
    (first : UInt8) : ∃ valid, scanName m first place bytes.length = some valid ∧
      (valid = true ↔ Completes (leadingOnes first) bytes) := by
  induction bytes generalizing place first with
  | nil =>
    refine ⟨_, rfl, ?_⟩
    rw [completes_nil, beq_iff_eq]
    exact not_iff_not.mp (leadingOnes_high first)
  | cons byte bytes ih =>
    rw [stands_cons] at h
    obtain ⟨hbyte, hbytes⟩ := h
    rw [List.length_cons, scanName, hbyte]
    simp only [Option.bind_eq_bind, Option.bind_some]
    by_cases hdue : first &&& 0x80 ≠ 0
    · have hsome : leadingOnes first = leadingOnes (first <<< 1) + 1 := by
        have hones := (leadingOnes_high first).mp hdue
        rw [leadingOnes_shift first hones]
        omega
      rw [if_pos hdue, hsome, completes_succ]
      by_cases hcontinuation : byte &&& 0xc0 = 0x80
      · rw [if_neg (not_not.mpr hcontinuation)]
        obtain ⟨valid, hvalid, hiff⟩ := ih hbytes (first <<< 1)
        exact ⟨valid, hvalid, hiff.trans
          (and_iff_right ((leadingOnes_continuation byte).mp hcontinuation)).symm⟩
      · rw [if_pos hcontinuation]
        exact ⟨false, rfl, by
          simp [← leadingOnes_continuation, hcontinuation]⟩
    · have hnone : leadingOnes first = 0 := not_not.mp (mt (leadingOnes_high first).mpr hdue)
      rw [if_neg hdue, hnone, completes_zero, sequences_cons]
      by_cases hzero : byte = 0
      · rw [if_pos hzero]
        exact ⟨false, rfl, by simp [Leads, hzero]⟩
      · rw [if_neg hzero]
        by_cases hsingle : byte &&& 0x80 = 0
        · have hones : leadingOnes byte = 0 :=
            not_not.mp (mt (leadingOnes_high byte).mpr (not_not.mpr hsingle))
          rw [if_pos hsingle, hones]
          obtain ⟨valid, hvalid, hiff⟩ := ih hbytes 0
          exact ⟨valid, hvalid, hiff.trans (and_iff_right (leads_single hzero hones)).symm⟩
        · have hones : leadingOnes byte ≠ 0 := (leadingOnes_high byte).mp hsingle
          rw [if_neg hsingle]
          by_cases hinvalid : byte &&& 0xc0 = 0x80 ∨ byte &&& 0xfe = 0xfe
          · rw [if_pos hinvalid]
            rw [leadingOnes_continuation, leadingOnes_last] at hinvalid
            refine ⟨false, rfl, ?_⟩
            simp only [Bool.false_eq_true, false_iff, not_and, Leads]
            omega
          · rw [if_neg hinvalid]
            rw [leadingOnes_continuation, leadingOnes_last] at hinvalid
            obtain ⟨valid, hvalid, hiff⟩ := ih hbytes (byte <<< 1)
            rw [leadingOnes_shift byte hones] at hiff
            exact ⟨valid, hvalid, hiff.trans
              (and_iff_right ⟨hzero, by omega, by omega⟩).symm⟩

theorem isValidEntryName_eq {m : Memory} {place : ℕ} {bytes : List UInt8}
    (h : Stands m place bytes) : ∃ valid, isValidEntryName m place bytes.length = some valid ∧
      (valid = true ↔ Sequences bytes) := by
  obtain ⟨valid, hvalid, hiff⟩ := scanName_eq h 0
  exact ⟨valid, hvalid, hiff.trans (completes_zero bytes)⟩

theorem scanName_readable {m : Memory} {first : UInt8} {place length : ℕ}
    (h : scanName m first place length = some true) :
    ∃ bytes, load m place length = some bytes := by
  induction length generalizing first place with
  | zero => exact ⟨[], rfl⟩
  | succ length ih =>
    rw [scanName, Option.bind_eq_bind, Option.bind_eq_some_iff] at h
    obtain ⟨byte, hbyte, h⟩ := h
    have hrest : ∃ first', scanName m first' (place + 1) length = some true := by
      split_ifs at h <;> first | exact ⟨_, h⟩ | cases h
    obtain ⟨first', hrest⟩ := hrest
    obtain ⟨bytes, hbytes⟩ := ih hrest
    exact ⟨byte :: bytes, by rw [load, hbyte, hbytes]; rfl⟩

theorem isValidEntryName_true {m : Memory} {place length : ℕ}
    (h : isValidEntryName m place length = some true) :
    ∃ bytes, load m place length = some bytes ∧ Sequences bytes := by
  obtain ⟨bytes, hbytes⟩ := scanName_readable h
  obtain ⟨valid, hvalid, hiff⟩ := isValidEntryName_eq (stands_of_load hbytes)
  rw [load_length hbytes] at hvalid
  rw [isValidEntryName] at h hvalid
  rw [h, Option.some.injEq] at hvalid
  exact ⟨bytes, hbytes, hiff.mp hvalid.symm⟩

theorem sequences_append {bytes rest : List UInt8} (h : Sequences bytes) (hrest : Sequences rest) :
    Sequences (bytes ++ rest) := by
  induction h with
  | nil => exact hrest
  | cons hlead hlength hcontinuation _ ih =>
    rw [List.cons_append, List.append_assoc]
    exact .cons hlead hlength hcontinuation ih

/-! ### UTF-8 -/

theorem leadingOnes_ofNat {n : ℕ} (h : n < 256) :
    leadingOnes (UInt8.ofNat n) = if n < 0x80 then 0 else if n < 0xc0 then 1
      else if n < 0xe0 then 2 else if n < 0xf0 then 3 else if n < 0xf8 then 4
      else if n < 0xfc then 5 else if n < 0xfe then 6 else if n < 0xff then 7 else 8 := by
  rw [leadingOnes, UInt8.toNat_ofNat_of_lt' h]

theorem leadingOnes_tail (n : ℕ) : leadingOnes (UInt8.ofNat (n % 0x40 + 0x80)) = 1 := by
  rw [leadingOnes_ofNat (by omega)]
  split_ifs <;> omega

theorem ofNat_ne_zero {n : ℕ} (h : n < 256) (hpos : 0 < n) : UInt8.ofNat n ≠ 0 := by
  intro hzero
  have hnat := congrArg UInt8.toNat hzero
  rw [UInt8.toNat_ofNat_of_lt' h] at hnat
  exact absurd hnat (Nat.pos_iff_ne_zero.mp hpos)

theorem sequences_char {c : Char} (h : c ≠ '\x00') : Sequences (String.utf8EncodeChar c) := by
  have hpos : 0 < c.val.toNat := by
    refine Nat.pos_of_ne_zero fun hzero => h (Char.ext ?_)
    exact UInt32.toNat_inj.mp hzero
  have hlt : c.val.toNat < 0x110000 := by
    rcases c.valid with hlow | ⟨-, hhigh⟩
    · exact Nat.lt_trans hlow (by decide)
    · exact hhigh
  have hstart (lead : ℕ) (continuation : List UInt8) (hlead : lead < 256) (hone : 0 < lead)
      (hleads : leadingOnes (UInt8.ofNat lead) ≠ 1 ∧ leadingOnes (UInt8.ofNat lead) < 7)
      (hlength : continuation.length = leadingOnes (UInt8.ofNat lead) - 1)
      (hcontinuation : ∀ byte ∈ continuation, leadingOnes byte = 1) :
      Sequences (UInt8.ofNat lead :: continuation) := by
    rw [sequences_cons]
    exact ⟨⟨ofNat_ne_zero hlead hone, hleads⟩, continuation, [], by rw [List.append_nil], hlength,
      hcontinuation, .nil⟩
  unfold String.utf8EncodeChar
  dsimp only
  split_ifs with h1 h2 h3
  · have hones : leadingOnes (UInt8.ofNat c.val.toNat) = 0 := by
      rw [leadingOnes_ofNat (by omega), if_pos (by omega)]
    exact hstart _ _ (by omega) hpos (by omega) (by rw [hones]; rfl)
      fun _ hmem => absurd hmem List.not_mem_nil
  · have hones : leadingOnes (UInt8.ofNat (c.val.toNat / 64 % 0x20 + 0xc0)) = 2 := by
      rw [leadingOnes_ofNat (by omega)]
      split_ifs <;> omega
    exact hstart _ _ (by omega) (by omega) (by omega) (by rw [hones]; rfl)
      (List.forall_mem_singleton.mpr (leadingOnes_tail _))
  · have hones : leadingOnes (UInt8.ofNat (c.val.toNat / 4096 % 0x10 + 0xe0)) = 3 := by
      rw [leadingOnes_ofNat (by omega)]
      split_ifs <;> omega
    exact hstart _ _ (by omega) (by omega) (by omega) (by rw [hones]; rfl)
      (List.forall_mem_cons.mpr ⟨leadingOnes_tail _,
        List.forall_mem_singleton.mpr (leadingOnes_tail _)⟩)
  · have hones : leadingOnes (UInt8.ofNat (c.val.toNat / 262144 % 0x08 + 0xf0)) = 4 := by
      rw [leadingOnes_ofNat (by omega)]
      split_ifs <;> omega
    exact hstart _ _ (by omega) (by omega) (by omega) (by rw [hones]; rfl)
      (List.forall_mem_cons.mpr ⟨leadingOnes_tail _, List.forall_mem_cons.mpr
        ⟨leadingOnes_tail _, List.forall_mem_singleton.mpr (leadingOnes_tail _)⟩⟩)

theorem sequences_utf8 {text : List Char} (h : '\x00' ∉ text) :
    Sequences (text.flatMap String.utf8EncodeChar) := by
  induction text with
  | nil => exact .nil
  | cons c text ih =>
    rw [List.mem_cons, not_or] at h
    rw [List.flatMap_cons]
    exact sequences_append (sequences_char (Ne.symm h.1)) (ih h.2)

/-- The check takes the sequences and nothing else, without a byte that it does not read, and so
    every text in UTF-8 that has no NUL. -/
theorem isValidEntryName_names (m : Memory) (place : ℕ) :
    (∀ bytes, Stands m place bytes → ∃ valid,
      isValidEntryName m place bytes.length = some valid ∧ (valid = true ↔ Sequences bytes)) ∧
    (∀ length, isValidEntryName m place length = some true →
      ∃ bytes, load m place length = some bytes ∧ Sequences bytes) ∧
    ∀ text : List Char, '\x00' ∉ text → Stands m place (text.flatMap String.utf8EncodeChar) →
      isValidEntryName m place (text.flatMap String.utf8EncodeChar).length = some true := by
  refine ⟨fun _ h => isValidEntryName_eq h, fun _ h => isValidEntryName_true h,
    fun text htext hstands => ?_⟩
  obtain ⟨valid, hvalid, hiff⟩ := isValidEntryName_eq hstands
  rw [hvalid, hiff.mpr (sequences_utf8 htext)]

end Shashlik.ZipNames
