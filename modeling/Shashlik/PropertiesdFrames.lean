import Shashlik.PropertiesdPaths

set_option autoImplicit false

/-!
# Client requests

The frames that a property client writes: a command byte, then the name in a fixed field and,
for a Set, the value in another one. Strings end with a NUL inside their field; the rest of
the field is filler.
-/
namespace Shashlik.PropertiesdFrames
open Settings CStrings SegmentPaths LatestWrites Propertiesd PropertiesdPaths

/-- A NUL-terminated string in a field of `size` bytes, and what follows it there. -/
structure Field (size : ℕ) where
  text : QByteArray
  filler : QByteArray
  no_nul : 0 ∉ text
  fits : text.length + 1 + filler.length = size

def Field.bytes {size : ℕ} (f : Field size) : QByteArray := f.text ++ 0 :: f.filler

structure GetFrame where
  name : Field PROPERTY_KEY_MAX
  valid : ValidName (fromLatin1 name.text)

structure SetFrame where
  name : Field PROPERTY_KEY_MAX
  value : Field PROP_VALUE_MAX
  valid : ValidName (fromLatin1 name.text)

inductive Frame where
  | get (f : GetFrame)
  | set (f : SetFrame)

def Frame.bytes : Frame → QByteArray
  | .get f => kSystemPropertyGet :: f.name.bytes
  | .set f => kSystemPropertySet :: (f.name.bytes ++ f.value.bytes)

def Frame.key : Frame → QString
  | .get f => fromLatin1 f.name.text
  | .set f => fromLatin1 f.name.text

@[simp] theorem Field.bytes_length {size : ℕ} (f : Field size) : f.bytes.length = size := by
  have h := f.fits
  simp only [Field.bytes, List.length_append, List.length_cons]
  omega

theorem Field.cString_bytes {size : ℕ} (f : Field size) : cString f.bytes = f.text :=
  cString_append_zero f.text f.filler f.no_nul

theorem cString_text {size : ℕ} (f : Field size) : cString f.text = f.text :=
  cString_of_not_mem f.text f.no_nul

theorem Field.text_length {size : ℕ} (f : Field size) : f.text.length < size := by
  have h := f.fits
  omega

theorem Field.fromLatin1_bytes {size : ℕ} (f : Field size) :
    fromLatin1 f.bytes = fromLatin1 f.text := by
  rw [fromLatin1, fromLatin1, f.cString_bytes, cString_text]

theorem toLatin1_char (b : UInt8) :
    (if (Char.ofNat b.toNat).toNat < 256 then UInt8.ofNat (Char.ofNat b.toNat).toNat else 63) =
      b := by
  have hb : b.toNat < 256 := b.toNat_lt
  have hc : (Char.ofNat b.toNat).toNat = b.toNat := by
    rw [Char.ofNat, dif_pos (show b.toNat.isValidChar from Or.inl (by omega))]
    rfl
  rw [hc, if_pos hb, UInt8.ofNat_toNat]

theorem toLatin1_fromLatin1 (bytes : QByteArray) : toLatin1 (fromLatin1 bytes) = cString bytes := by
  rw [toLatin1, fromLatin1, List.map_map]
  conv_rhs => rw [← List.map_id (cString bytes)]
  exact List.map_congr_left (fun b _ => toLatin1_char b)

def Frame.size : Frame → ℕ
  | .get _ => 1 + PROPERTY_KEY_MAX
  | .set _ => 1 + PROPERTY_KEY_MAX + PROP_VALUE_MAX

theorem Frame.bytes_length (f : Frame) : f.bytes.length = f.size := by
  cases f with
  | get f => simp only [Frame.bytes, Frame.size, List.length_cons, Field.bytes_length]; omega
  | set f =>
    simp only [Frame.bytes, Frame.size, List.length_cons, List.length_append, Field.bytes_length]
    omega

theorem Frame.size_bounds (f : Frame) : 2 ≤ f.size ∧ f.size ≤ requestSize := by
  cases f <;> simp [Frame.size, requestSize, PROP_NAME_MAX, PROPERTY_KEY_MAX, PROP_VALUE_MAX]

theorem Frame.not_short (f : Frame) : ¬ f.bytes.length < 2 := by
  rw [f.bytes_length, Nat.not_lt]
  exact f.size_bounds.1

theorem Frame.bytes_length_le (f : Frame) : f.bytes.length ≤ requestSize := by
  rw [f.bytes_length]
  exact f.size_bounds.2

theorem answer_getField (stack : Stack) (q : QSettings) (name : Field PROPERTY_KEY_MAX) :
    answer stack q (kSystemPropertyGet :: name.bytes) =
      (readProperty q (fromLatin1 name.text)).map
        (fun r => ⟨r.2, none, getReply stack (toLatin1 r.1)⟩) := by
  have hlength : ¬ (kSystemPropertyGet :: name.bytes).length < 2 := by
    rw [List.length_cons, Field.bytes_length]
    decide
  rw [answer_command_get stack q _ hlength rfl, List.drop_one, List.tail_cons,
    name.fromLatin1_bytes]

theorem answer_setField (stack : Stack) (q : QSettings) (name : Field PROPERTY_KEY_MAX)
    (value : Field PROP_VALUE_MAX) :
    answer stack q (kSystemPropertySet :: (name.bytes ++ value.bytes)) =
      (writeProperty q (fromLatin1 name.text) (fromLatin1 value.text)).map
        (fun q => ⟨q, some (fromLatin1 name.text, fromLatin1 value.text), setReply stack⟩) := by
  have hlength : ¬ (kSystemPropertySet :: (name.bytes ++ value.bytes)).length < 2 := by
    rw [List.length_cons, List.length_append, Field.bytes_length, Field.bytes_length]
    decide
  have hname : ((kSystemPropertySet :: (name.bytes ++ value.bytes)).drop 1).take
      PROPERTY_KEY_MAX = name.bytes := by
    rw [List.drop_one, List.tail_cons, List.take_append_of_le_length name.bytes_length.ge,
      List.take_of_length_le name.bytes_length.le]
  have hvalue : (kSystemPropertySet :: (name.bytes ++ value.bytes)).drop (PROPERTY_KEY_MAX + 1) =
      value.bytes := by
    rw [List.drop_succ_cons, List.drop_append_of_le_length name.bytes_length.ge,
      List.drop_of_length_le name.bytes_length.le, List.nil_append]
  rw [answer_command_set stack q _ hlength rfl, hname, hvalue, name.fromLatin1_bytes,
    value.fromLatin1_bytes]

theorem answer_get (stack : Stack) (q : QSettings) (f : GetFrame) (hq : q.groups = []) :
    answer stack q (Frame.get f).bytes =
      some ⟨q, none, getReply stack
        (toLatin1 ((cells.get q (propertyPath (fromLatin1 f.name.text))).getD []))⟩ := by
  rw [Frame.bytes, answer_getField, readProperty_eq q _ hq f.valid.named]
  rfl

theorem answer_set (stack : Stack) (q : QSettings) (f : SetFrame) (hq : q.groups = []) :
    answer stack q (Frame.set f).bytes =
      some ⟨cells.set q (propertyPath (fromLatin1 f.name.text)) (fromLatin1 f.value.text),
        some (fromLatin1 f.name.text, fromLatin1 f.value.text), setReply stack⟩ := by
  rw [Frame.bytes, answer_setField, writeProperty_eq q _ _ hq f.valid.named]
  rfl

theorem readRequest_frame (stack : Stack) (q : QSettings) (f : Frame) :
    readRequest stack q f.bytes = (answer stack q f.bytes).map (fun o => (o, [])) := by
  rw [readRequest, List.take_of_length_le f.bytes_length_le,
    List.drop_of_length_le f.bytes_length_le]

end Shashlik.PropertiesdFrames
