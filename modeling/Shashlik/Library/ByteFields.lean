import Mathlib.Data.List.Basic
import Mathlib.Data.Option.Basic
import Mathlib.Data.Nat.Basic
import Mathlib.Tactic.Ring

set_option autoImplicit false

/-!
# Numbers in bytes

Fixed-width numbers, least byte first, and what stands in a memory of which some bytes may not be
readable.
-/
namespace Shashlik.ByteFields

/-- The number that bytes say. -/
def number : List UInt8 → ℕ
  | [] => 0
  | byte :: bytes => byte.toNat + 256 * number bytes

/-- A number in so many bytes. -/
def numeral : ℕ → ℕ → List UInt8
  | 0, _ => []
  | width + 1, value => UInt8.ofNat (value % 256) :: numeral width (value / 256)

@[simp]
theorem numeral_length (width value : ℕ) : (numeral width value).length = width := by
  induction width generalizing value with
  | zero => rfl
  | succ width ih => rw [numeral, List.length_cons, ih]

theorem number_lt (bytes : List UInt8) : number bytes < 256 ^ bytes.length := by
  induction bytes with
  | nil => exact Nat.one_pos
  | cons byte bytes ih =>
    have hbyte : byte.toNat < 256 := byte.toNat_lt
    rw [number, List.length_cons, Nat.pow_succ]
    omega

theorem number_numeral {width value : ℕ} (h : value < 256 ^ width) :
    number (numeral width value) = value := by
  induction width generalizing value with
  | zero =>
    rw [Nat.pow_zero] at h
    exact (Nat.lt_one_iff.mp h).symm
  | succ width ih =>
    rw [Nat.pow_succ] at h
    rw [numeral, number, ih (by omega), UInt8.toNat_ofNat_of_lt' (Nat.mod_lt _ (by decide))]
    exact Nat.mod_add_div value 256

theorem numeral_number (bytes : List UInt8) : numeral bytes.length (number bytes) = bytes := by
  induction bytes with
  | nil => rfl
  | cons byte bytes ih =>
    have hbyte : byte.toNat < 256 := byte.toNat_lt
    rw [List.length_cons, numeral, number, Nat.add_mul_mod_self_left, Nat.mod_eq_of_lt hbyte,
      UInt8.ofNat_toNat, Nat.add_mul_div_left _ _ (by decide), Nat.div_eq_of_lt hbyte,
      Nat.zero_add, ih]

/-! ### Memories -/

/-- The bytes at the places that can be read. -/
abbrev Memory := ℕ → Option UInt8

def ofBytes (buffer : List UInt8) : Memory := fun place => buffer[place]?

def load (m : Memory) (place : ℕ) : ℕ → Option (List UInt8)
  | 0 => some []
  | width + 1 => do
    let byte ← m place
    let bytes ← load m (place + 1) width
    some (byte :: bytes)

theorem load_congr {m m' : Memory} {place width : ℕ}
    (h : ∀ i, place ≤ i → i < place + width → m' i = m i) :
    load m' place width = load m place width := by
  induction width generalizing place with
  | zero => rfl
  | succ width ih =>
    rw [load, load, h place le_rfl (by omega), ih fun i hi hlt => h i (by omega) (by omega)]

theorem exists_load {m : Memory} {place width : ℕ}
    (h : ∀ i, place ≤ i → i < place + width → m i ≠ none) :
    ∃ bytes, load m place width = some bytes := by
  induction width generalizing place with
  | zero => exact ⟨[], rfl⟩
  | succ width ih =>
    obtain ⟨byte, hbyte⟩ := Option.ne_none_iff_exists'.mp (h place le_rfl (by omega))
    obtain ⟨bytes, hbytes⟩ := ih (show ∀ i, place + 1 ≤ i → i < place + 1 + width → m i ≠ none from
      fun i hi hlt => h i (by omega) (by omega))
    exact ⟨byte :: bytes, by rw [load, hbyte, hbytes]; rfl⟩

/-- Bytes that can be read at a place. -/
def Stands (m : Memory) (place : ℕ) (bytes : List UInt8) : Prop :=
  load m place bytes.length = some bytes

instance (m : Memory) (place : ℕ) (bytes : List UInt8) : Decidable (Stands m place bytes) :=
  inferInstanceAs (Decidable (_ = _))

section
variable {m : Memory} {place width : ℕ} {bytes rest : List UInt8}

theorem load_length (h : load m place width = some bytes) : bytes.length = width := by
  induction width generalizing place bytes with
  | zero =>
    cases h
    rfl
  | succ width ih =>
    simp only [load, Option.bind_eq_bind, Option.bind_eq_some_iff, Option.some.injEq] at h
    obtain ⟨byte, -, rest, hrest, rfl⟩ := h
    rw [List.length_cons, ih hrest]

theorem stands_of_load (h : load m place width = some bytes) : Stands m place bytes := by
  rw [Stands, load_length h, h]

@[simp]
theorem stands_nil : Stands m place [] := rfl

theorem stands_cons {byte : UInt8} :
    Stands m place (byte :: bytes) ↔ m place = some byte ∧ Stands m (place + 1) bytes := by
  simp only [Stands, List.length_cons, load, Option.bind_eq_bind, Option.bind_eq_some_iff,
    Option.some.injEq, List.cons.injEq]
  constructor
  · rintro ⟨b, hb, bs, hbs, rfl, rfl⟩
    exact ⟨hb, hbs⟩
  · rintro ⟨hb, hbs⟩
    exact ⟨byte, hb, bytes, hbs, rfl, rfl⟩

theorem stands_append :
    Stands m place (bytes ++ rest) ↔
      Stands m place bytes ∧ Stands m (place + bytes.length) rest := by
  induction bytes generalizing place with
  | nil => simp
  | cons byte bytes ih =>
    rw [List.cons_append, stands_cons, stands_cons, ih, and_assoc, List.length_cons,
      show place + (bytes.length + 1) = place + 1 + bytes.length by omega]

theorem stands_unique (h : Stands m place bytes) (h' : Stands m place rest)
    (hlength : bytes.length = rest.length) : bytes = rest := by
  rw [Stands, hlength] at h
  exact Option.some.inj (h.symm.trans h')

theorem Stands.congr {m' : Memory} (h : Stands m place bytes)
    (hagree : ∀ i, place ≤ i → i < place + bytes.length → m' i = m i) :
    Stands m' place bytes := by
  rw [Stands, load_congr hagree]
  exact h

theorem stands_ofBytes {buffer : List UInt8} :
    Stands (ofBytes buffer) place bytes ↔ (buffer.drop place).take bytes.length = bytes := by
  induction bytes generalizing place with
  | nil => simp
  | cons byte bytes ih =>
    rw [stands_cons, ih, ofBytes]
    by_cases hplace : place < buffer.length
    · rw [List.drop_eq_getElem_cons hplace, List.length_cons, List.take_succ_cons,
        List.getElem?_eq_getElem hplace, Option.some.injEq, List.cons.injEq]
    · rw [List.getElem?_eq_none (Nat.le_of_not_lt hplace),
        List.drop_eq_nil_of_le (Nat.le_of_not_lt hplace), List.take_nil]
      simp

theorem fits_of_stands {buffer : List UInt8} (h : Stands (ofBytes buffer) place bytes)
    (hsome : bytes ≠ []) : place + bytes.length ≤ buffer.length := by
  have hlength := congrArg List.length (stands_ofBytes.mp h)
  have hpos := List.length_pos_iff.mpr hsome
  rw [List.length_take, List.length_drop] at hlength
  omega

theorem load_isSome_of_stands (h : Stands m place bytes) {offset : ℕ}
    (hfits : offset + width ≤ bytes.length) :
    load m (place + offset) width = some ((bytes.drop offset).take width) := by
  have hsplit : bytes = bytes.take offset ++ ((bytes.drop offset).take width ++
      (bytes.drop offset).drop width) := by
    rw [List.take_append_drop, List.take_append_drop]
  rw [hsplit, stands_append, stands_append, List.length_take_of_le (by omega)] at h
  have hpart := h.2.1
  rwa [Stands, List.length_take_of_le (by rw [List.length_drop]; omega)] at hpart

end

theorem load_shift {m m' : Memory} {start : ℕ} (h : ∀ i, m' i = m (start + i)) (place width : ℕ) :
    load m' place width = load m (start + place) width := by
  induction width generalizing place with
  | zero => rfl
  | succ width ih => rw [load, load, h, ih, Nat.add_assoc]

theorem ofBytes_drop (file : List UInt8) (start i : ℕ) :
    ofBytes (file.drop start) i = ofBytes file (start + i) := List.getElem?_drop

theorem load_ofBytes {buffer : List UInt8} {place width : ℕ} (h : place + width ≤ buffer.length) :
    load (ofBytes buffer) place width = some ((buffer.drop place).take width) := by
  have hstands : Stands (ofBytes buffer) 0 buffer := by
    rw [stands_ofBytes, List.drop_zero, List.take_length]
  have hload := load_isSome_of_stands hstands h
  rwa [Nat.zero_add] at hload

/-! ### Fields -/

def le16 (x : UInt16) : List UInt8 := numeral 2 x.toNat

def le32 (x : UInt32) : List UInt8 := numeral 4 x.toNat

def uint16 (m : Memory) (place : ℕ) : Option UInt16 :=
  (load m place 2).map fun bytes => UInt16.ofNat (number bytes)

def uint32 (m : Memory) (place : ℕ) : Option UInt32 :=
  (load m place 4).map fun bytes => UInt32.ofNat (number bytes)

@[simp]
theorem le16_length (x : UInt16) : (le16 x).length = 2 := numeral_length 2 x.toNat

@[simp]
theorem le32_length (x : UInt32) : (le32 x).length = 4 := numeral_length 4 x.toNat

section
variable {m : Memory} {place : ℕ}

theorem load_number_iff {width value : ℕ} (h : value < 256 ^ width) :
    (∃ bytes, load m place width = some bytes ∧ number bytes = value) ↔
      Stands m place (numeral width value) := by
  rw [Stands, numeral_length]
  constructor
  · rintro ⟨bytes, hload, rfl⟩
    have hnumeral := numeral_number bytes
    rw [load_length hload] at hnumeral
    rw [hnumeral, hload]
  · exact fun hload => ⟨_, hload, number_numeral h⟩

theorem number_lt_of_load {width : ℕ} {bytes : List UInt8} (h : load m place width = some bytes) :
    number bytes < 256 ^ width := load_length h ▸ number_lt bytes

theorem uint16_eq_some_iff {x : UInt16} :
    uint16 m place = some x ↔ Stands m place (le16 x) := by
  rw [uint16, Option.map_eq_some_iff, le16, ← load_number_iff x.toNat_lt]
  refine exists_congr fun bytes => and_congr_right fun hload => ?_
  rw [← UInt16.toNat_inj, UInt16.toNat_ofNat_of_lt' (number_lt_of_load hload)]

theorem uint32_eq_some_iff {x : UInt32} :
    uint32 m place = some x ↔ Stands m place (le32 x) := by
  rw [uint32, Option.map_eq_some_iff, le32, ← load_number_iff x.toNat_lt]
  refine exists_congr fun bytes => and_congr_right fun hload => ?_
  rw [← UInt32.toNat_inj, UInt32.toNat_ofNat_of_lt' (number_lt_of_load hload)]

end

theorem uint16_drop (file : List UInt8) (start place : ℕ) :
    uint16 (ofBytes (file.drop start)) place = uint16 (ofBytes file) (start + place) := by
  rw [uint16, uint16, load_shift (ofBytes_drop file start)]

theorem uint32_drop (file : List UInt8) (start place : ℕ) :
    uint32 (ofBytes (file.drop start)) place = uint32 (ofBytes file) (start + place) := by
  rw [uint32, uint32, load_shift (ofBytes_drop file start)]

theorem uint16_congr {m m' : Memory} {place : ℕ}
    (h : ∀ i, place ≤ i → i < place + 2 → m' i = m i) : uint16 m' place = uint16 m place := by
  rw [uint16, uint16, load_congr h]

theorem uint32_congr {m m' : Memory} {place : ℕ}
    (h : ∀ i, place ≤ i → i < place + 4 → m' i = m i) : uint32 m' place = uint32 m place := by
  rw [uint32, uint32, load_congr h]

theorem exists_uint16 {m : Memory} {place : ℕ}
    (h : ∀ i, place ≤ i → i < place + 2 → m i ≠ none) : ∃ x, uint16 m place = some x := by
  obtain ⟨bytes, hbytes⟩ := exists_load h
  exact ⟨_, by rw [uint16, hbytes]; rfl⟩

theorem exists_uint32 {m : Memory} {place : ℕ}
    (h : ∀ i, place ≤ i → i < place + 4 → m i ≠ none) : ∃ x, uint32 m place = some x := by
  obtain ⟨bytes, hbytes⟩ := exists_load h
  exact ⟨_, by rw [uint32, hbytes]; rfl⟩

theorem ofBytes_ne_none {buffer : List UInt8} {i : ℕ} (h : i < buffer.length) :
    ofBytes buffer i ≠ none := by
  rw [ofBytes, List.getElem?_eq_getElem h]
  exact Option.some_ne_none _

theorem uint16_ofBytes {buffer : List UInt8} {place : ℕ} (h : place + 2 ≤ buffer.length) :
    ∃ x, uint16 (ofBytes buffer) place = some x :=
  exists_uint16 fun _ _ hlt => ofBytes_ne_none (Nat.lt_of_lt_of_le hlt h)

theorem uint32_ofBytes {buffer : List UInt8} {place : ℕ} (h : place + 4 ≤ buffer.length) :
    ∃ x, uint32 (ofBytes buffer) place = some x :=
  exists_uint32 fun _ _ hlt => ofBytes_ne_none (Nat.lt_of_lt_of_le hlt h)

end Shashlik.ByteFields
