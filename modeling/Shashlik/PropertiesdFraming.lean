import Mathlib.Algebra.GroupWithZero.Nat
import Mathlib.Data.List.SplitLengths
import Mathlib.Data.List.TakeDrop
import Shashlik.PropertiesdReadYourWrites
import Shashlik.Library.StreamReads

set_option autoImplicit false

/-!
# Requests and the way they are delivered

`readRequest` runs once for each `readyRead` notification, reads up to 125 bytes of what is
buffered and takes them for one request. No state is kept between two notifications, so the
requests are told apart by the cuts of the transport alone.
-/
namespace Shashlik.PropertiesdFraming
open Settings CStrings SegmentPaths StreamReads Propertiesd PropertiesdPaths PropertiesdFrames
open PropertiesdReadYourWrites

inductive Kind where
  | get
  | set
  deriving DecidableEq

def Kind.size : Kind → ℕ
  | .get => 1 + PROPERTY_KEY_MAX
  | .set => 1 + PROPERTY_KEY_MAX + PROP_VALUE_MAX

def kindOf : Frame → Kind
  | .get _ => .get
  | .set _ => .set

theorem size_eq (f : Frame) : f.size = (kindOf f).size := by
  cases f <;> rfl

abbrev Effect := Option (QString × QString) × QByteArray

def effectsOf (o : Outcome) : List Effect :=
  if o.update = none ∧ o.reply = [] then [] else [(o.update, o.reply)]

/-- One call of `readRequest` for each arriving chunk: the bytes that are still unread in the
    end and the effects in order. -/
def deliver (stack : Stack) :
    QSettings → QByteArray → List QByteArray → Option (QByteArray × List Effect)
  | _, dev, [] => some (dev, [])
  | q, dev, c :: cs =>
    (readRequest stack q (dev ++ c)).bind (fun r =>
      (deliver stack r.1.settings r.2 cs).map (fun r' => (r'.1, effectsOf r.1 ++ r'.2)))

def stream (fs : List Frame) : QByteArray := (fs.map Frame.bytes).flatten

/-- A way to deliver frames of the given kinds: the sizes of the chunks in which their bytes
    arrive. A notification always brings at least one byte. -/
structure Delivery (kinds : List Kind) where
  sizes : List ℕ
  pos : ∀ n ∈ sizes, 0 < n
  total : sizes.sum = (kinds.map Kind.size).sum

/-- The delivery has the updates and replies of every frame delivered alone, one for each
    request, and leaves nothing unread. -/
def FramedAs (stack : Stack) (q : QSettings) (fs : List Frame) (sizes : List ℕ) : Prop :=
  ∃ es, deliver stack q [] (fs.map Frame.bytes) = some ([], es) ∧ es.length = fs.length ∧
    deliver stack q [] (sizes.splitLengths (stream fs)) = some ([], es)

/-- Every read takes one whole frame, or all of a frame but its last byte with that byte read
    by itself afterwards. -/
def ReadsWhole : List Kind → List ℕ → Prop
  | [], ns => ns = []
  | k :: ks, ns =>
    ∃ ns', (ns = k.size :: ns' ∨ ns = (k.size - 1) :: 1 :: ns') ∧ ReadsWhole ks ns'

def handle (stack : Stack) (q : QSettings) (b : QByteArray) : Option (QSettings × List Effect) :=
  (answer stack q b).map (fun o => (o.settings, effectsOf o))

theorem deliver_eq (stack : Stack) (q : QSettings) (dev : QByteArray) (cs : List QByteArray) :
    deliver stack q dev cs = (serve (handle stack) q (blocks requestSize dev cs)).map
      (fun r => (leftover requestSize dev cs, r.2)) := by
  induction cs generalizing q dev with
  | nil => rfl
  | cons c cs ih =>
    simp only [deliver, blocks, leftover, serve, readRequest, handle]
    cases answer stack q ((dev ++ c).take requestSize) with
    | none => rfl
    | some o => simp [ih, Function.comp_def]

theorem deliver_eq_some {stack : Stack} {q : QSettings} {cs : List QByteArray}
    {es : List Effect} :
    deliver stack q [] cs = some ([], es) ↔
      (∃ q', serve (handle stack) q (blocks requestSize [] cs) = some (q', es)) ∧
        leftover requestSize [] cs = [] := by
  rw [deliver_eq]
  cases serve (handle stack) q (blocks requestSize [] cs) with
  | none => simp
  | some r => simp [Prod.ext_iff, and_comm]

section Frames
variable (stack : Stack)

theorem fromLatin1_dropLast {size : ℕ} (f : Field size) :
    fromLatin1 f.bytes.dropLast = fromLatin1 f.text := by
  have hstring : cString f.bytes.dropLast = f.text := by
    cases hf : f.filler with
    | nil => simp [Field.bytes, hf, cString_of_not_mem _ f.no_nul]
    | cons b bs =>
      rw [Field.bytes, hf, List.dropLast_append_of_ne_nil (List.cons_ne_nil _ _),
        List.dropLast_cons_of_ne_nil (List.cons_ne_nil _ _)]
      exact cString_append_zero _ _ f.no_nul
  rw [fromLatin1, fromLatin1, hstring, cString_text]

theorem Field.bytes_ne_nil {size : ℕ} (f : Field size) : f.bytes ≠ [] := by
  simp [Field.bytes]

theorem answer_dropLast (q : QSettings) (f : Frame) :
    answer stack q f.bytes.dropLast = answer stack q f.bytes := by
  have hlen : ¬ f.bytes.dropLast.length < 2 := by
    rw [List.length_dropLast, f.bytes_length]
    cases f <;> simp [Frame.size, PROPERTY_KEY_MAX, PROP_VALUE_MAX]
  cases f with
  | get f =>
    have hbytes : (Frame.get f).bytes.dropLast = kSystemPropertyGet :: f.name.bytes.dropLast :=
      List.dropLast_cons_of_ne_nil (Field.bytes_ne_nil f.name)
    rw [answer_command_get stack q _ (Frame.get f).not_short rfl]
    rw [hbytes] at hlen ⊢
    rw [answer_command_get stack q _ hlen rfl]
    simp only [List.drop_succ_cons, List.drop_zero, fromLatin1_dropLast, Frame.bytes,
      f.name.fromLatin1_bytes]
  | set f =>
    have hbytes : (Frame.set f).bytes.dropLast =
        kSystemPropertySet :: (f.name.bytes ++ f.value.bytes.dropLast) := by
      rw [Frame.bytes, List.dropLast_cons_of_ne_nil (by simp [Field.bytes_ne_nil]),
        List.dropLast_append_of_ne_nil (Field.bytes_ne_nil f.value)]
    rw [answer_command_set stack q _ (Frame.set f).not_short rfl]
    rw [hbytes] at hlen ⊢
    rw [answer_command_set stack q _ hlen rfl]
    have hname : ∀ rest : QByteArray,
        (f.name.bytes ++ rest).take PROPERTY_KEY_MAX = f.name.bytes := fun rest => by
      rw [List.take_append_of_le_length f.name.bytes_length.ge,
        List.take_of_length_le f.name.bytes_length.le]
    have hvalue : ∀ rest : QByteArray, (f.name.bytes ++ rest).drop PROPERTY_KEY_MAX = rest :=
      fun rest => by
        rw [List.drop_append_of_le_length f.name.bytes_length.ge,
          List.drop_of_length_le f.name.bytes_length.le, List.nil_append]
    simp only [List.drop_succ_cons, List.drop_zero, Frame.bytes, hname, hvalue,
      fromLatin1_dropLast, f.value.fromLatin1_bytes]

theorem handle_get (q : QSettings) (f : GetFrame) (hq : q.groups = []) :
    handle stack q (Frame.get f).bytes =
      some (q, [(none, getReply stack (storedValue q (fromLatin1 f.name.text)))]) := by
  rw [handle, answer_get stack q f hq, Option.map_some, effectsOf, if_neg]
  · rfl
  · simp [getReply, dump]

theorem handle_set (q : QSettings) (f : SetFrame) (hq : q.groups = []) :
    handle stack q (Frame.set f).bytes =
      some (cells.set q (propertyPath (fromLatin1 f.name.text)) (fromLatin1 f.value.text),
        [(some (fromLatin1 f.name.text, fromLatin1 f.value.text), setReply stack)]) := by
  rw [handle, answer_set stack q f hq, Option.map_some, effectsOf, if_neg]
  simp

theorem handle_frame (q : QSettings) (f : Frame) (hq : q.groups = []) :
    ∃ q' e, q'.groups = [] ∧ handle stack q f.bytes = some (q', [e]) := by
  cases f with
  | get f => exact ⟨q, _, hq, handle_get stack q f hq⟩
  | set f =>
    exact ⟨cells.set q (propertyPath (fromLatin1 f.name.text)) (fromLatin1 f.value.text), _, hq,
      handle_set stack q f hq⟩

theorem serve_frames (q : QSettings) (fs : List Frame) (hq : q.groups = []) :
    ∃ q' es, serve (handle stack) q (fs.map Frame.bytes) = some (q', es) ∧
      es.length = fs.length := by
  induction fs generalizing q with
  | nil => exact ⟨q, [], rfl, rfl⟩
  | cons f fs ih =>
    obtain ⟨q₁, e, hq₁, he⟩ := handle_frame stack q f hq
    obtain ⟨q', es, hes, hlen⟩ := ih q₁ hq₁
    refine ⟨q', e :: es, ?_, by simp [hlen]⟩
    rw [List.map_cons, serve_cons _ he, hes]
    rfl

theorem blocks_of_le (cs : List QByteArray) (h : ∀ c ∈ cs, c.length ≤ requestSize) :
    blocks requestSize [] cs = cs ∧ leftover requestSize [] cs = [] := by
  induction cs with
  | nil => exact ⟨rfl, rfl⟩
  | cons c cs ih =>
    have hc := h c List.mem_cons_self
    have hrest := ih (fun c' hc' => h c' (List.mem_cons_of_mem _ hc'))
    simp only [blocks, leftover, List.nil_append, List.take_of_length_le hc,
      List.drop_of_length_le hc]
    exact ⟨by rw [hrest.1], hrest.2⟩

theorem deliver_alone (q : QSettings) (fs : List Frame) (hq : q.groups = []) :
    ∃ q' es, serve (handle stack) q (fs.map Frame.bytes) = some (q', es) ∧
      deliver stack q [] (fs.map Frame.bytes) = some ([], es) ∧ es.length = fs.length := by
  obtain ⟨q', es, hserve, hlen⟩ := serve_frames stack q fs hq
  have hfit : ∀ c ∈ fs.map Frame.bytes, c.length ≤ requestSize := by
    intro c hc
    obtain ⟨f, _, rfl⟩ := List.mem_map.mp hc
    exact f.bytes_length_le
  obtain ⟨hblocks, hleft⟩ := blocks_of_le _ hfit
  refine ⟨q', es, hserve, ?_, hlen⟩
  rw [deliver_eq_some, hblocks]
  exact ⟨⟨q', hserve⟩, hleft⟩

theorem handle_short (q : QSettings) (b : QByteArray) (h : b.length < 2) :
    handle stack q b = some (q, []) := by
  rw [handle, answer_short stack q b h]
  rfl

theorem handle_unknown (q : QSettings) (b : QByteArray)
    (h : b.headD 0 = kSystemPropertyUnknown) : handle stack q b = some (q, []) := by
  rw [handle, answer_unknown stack q b h]
  rfl

theorem serve_of_readsWhole (q : QSettings) (fs : List Frame) (bs : List QByteArray)
    (hq : q.groups = []) (hflat : bs.flatten = stream fs)
    (hw : ReadsWhole (fs.map kindOf) (bs.map List.length)) :
    serve (handle stack) q bs = serve (handle stack) q (fs.map Frame.bytes) := by
  induction fs generalizing q bs with
  | nil =>
    have hnil : bs = [] := List.map_eq_nil_iff.mp hw
    rw [hnil, List.map_nil]
  | cons f fs ih =>
    obtain ⟨q₁, e, hq₁, he⟩ := handle_frame stack q f hq
    have hsize := f.bytes_length.trans (size_eq f)
    obtain ⟨ns', hns | hns, hw'⟩ := hw
    · obtain ⟨b, bs', rfl, hb, rfl⟩ := List.map_eq_cons_iff.mp hns
      obtain ⟨rfl, hrest⟩ := List.append_inj hflat (hb.trans hsize.symm)
      rw [List.map_cons, serve_cons _ he, serve_cons _ he, ih q₁ bs' hq₁ hrest hw']
    · obtain ⟨b, bs₁, rfl, hb, hns₁⟩ := List.map_eq_cons_iff.mp hns
      obtain ⟨c, bs', rfl, hc, rfl⟩ := List.map_eq_cons_iff.mp hns₁
      have hne : f.bytes ≠ [] := by cases f <;> exact List.cons_ne_nil _ _
      have hsplit : b ++ (c ++ bs'.flatten) =
          f.bytes.dropLast ++ ([f.bytes.getLast hne] ++ stream fs) := by
        rw [← List.append_assoc _ _ (stream fs), List.dropLast_append_getLast]
        exact hflat
      have hlen : b.length = f.bytes.dropLast.length := by
        rw [List.length_dropLast, hsize]
        exact hb
      obtain ⟨rfl, hrest⟩ := List.append_inj hsplit hlen
      obtain ⟨rfl, hrest'⟩ := List.append_inj hrest hc
      have he' : handle stack q f.bytes.dropLast = some (q₁, [e]) := by
        rw [handle, answer_dropLast]
        exact he
      rw [List.map_cons, serve_cons _ he', serve_cons _ he,
        serve_cons _ (handle_short stack q₁ _ (by simp)), ih q₁ bs' hq₁ hrest' hw']
      simp

end Frames

theorem ReadsWhole.sum {ks : List Kind} {ns : List ℕ} (h : ReadsWhole ks ns) :
    ns.sum = (ks.map Kind.size).sum := by
  induction ks generalizing ns with
  | nil =>
    have hnil : ns = [] := h
    rw [hnil]
    rfl
  | cons k ks ih =>
    have hpos : 0 < k.size := by cases k <;> decide
    obtain ⟨ns', rfl | rfl, hw⟩ := h
    · simp [ih hw]
    · simp only [List.sum_cons, List.map_cons, ih hw]
      omega

theorem length_stream (fs : List Frame) :
    (stream fs).length = ((fs.map kindOf).map Kind.size).sum := by
  simp only [stream, List.length_flatten, List.map_map]
  congr 1
  exact List.map_congr_left (fun f _ => f.bytes_length.trans (size_eq f))

theorem blocks_of_delivery {kinds : List Kind} (d : Delivery kinds) (fs : List Frame)
    (hk : fs.map kindOf = kinds) :
    (blocks requestSize [] (d.sizes.splitLengths (stream fs))).map List.length =
        StreamReads.sizes requestSize 0 d.sizes ∧
      (blocks requestSize [] (d.sizes.splitLengths (stream fs))).flatten ++
        leftover requestSize [] (d.sizes.splitLengths (stream fs)) = stream fs := by
  have htotal : d.sizes.sum = (stream fs).length := by rw [length_stream, hk, d.total]
  constructor
  · rw [map_length_blocks, List.map_splitLengths_length _ _ htotal.le]
    rfl
  · rw [flatten_blocks, List.nil_append, List.flatten_splitLengths _ _ htotal.ge]

theorem framed_of_readsWhole {kinds : List Kind} (d : Delivery kinds)
    (hw : ReadsWhole kinds (StreamReads.sizes requestSize 0 d.sizes)) (stack : Stack)
    (q : QSettings) (fs : List Frame) (hk : fs.map kindOf = kinds) (hq : q.groups = []) :
    FramedAs stack q fs d.sizes := by
  obtain ⟨hlengths, hbytes⟩ := blocks_of_delivery d fs hk
  have hleft : leftover requestSize [] (d.sizes.splitLengths (stream fs)) = [] := by
    have hlen := congrArg List.length hbytes
    rw [List.length_append, List.length_flatten, hlengths, hw.sum, length_stream, hk] at hlen
    exact List.length_eq_zero_iff.mp (by omega)
  rw [hleft, List.append_nil] at hbytes
  obtain ⟨q', es, hserve, halone, hlen⟩ := deliver_alone stack q fs hq
  refine ⟨es, halone, hlen, ?_⟩
  rw [deliver_eq_some, serve_of_readsWhole stack q fs _ hq hbytes (by rw [hlengths, hk]; exact hw)]
  exact ⟨⟨q', hserve⟩, hleft⟩

section Necessity

/-! Frames without filler, on a store that they leave as it is, need every byte but the
last. -/

def fullName : Field PROPERTY_KEY_MAX := ⟨List.replicate 31 97, [], by decide, by decide⟩

def fullValue : Field PROP_VALUE_MAX :=
  ⟨List.replicate 91 98, [], by decide +kernel, by decide +kernel⟩

theorem length_fromLatin1 (bytes : QByteArray) (h : 0 ∉ bytes) :
    (fromLatin1 bytes).length = bytes.length := by
  rw [fromLatin1, List.length_map, cString_of_not_mem bytes h]

theorem zero_not_mem_replicate (n : ℕ) : (0 : UInt8) ∉ List.replicate n 97 := fun h =>
  absurd (List.eq_of_mem_replicate h) (by decide)

theorem validName_replicate (n : ℕ) (hn : 0 < n) :
    ValidName (fromLatin1 (List.replicate n 97)) := by
  have heq : fromLatin1 (List.replicate n 97) = List.replicate n 'a' := by
    rw [fromLatin1, cString_of_not_mem _ (zero_not_mem_replicate n), List.map_replicate]
    rfl
  have hother : ∀ c, c ≠ 'a' → c ∉ fromLatin1 (List.replicate n 97) := by
    rw [heq]
    exact fun c hc h => hc (List.eq_of_mem_replicate h)
  refine ⟨proper_of_not_mem '.' _ ?_ (hother '.' (by decide)), hother '/' (by decide)⟩
  rw [heq, Ne, List.replicate_eq_nil_iff]
  omega

def fullFrame : Kind → Frame
  | .get => .get ⟨fullName, validName_replicate 31 (by decide)⟩
  | .set => .set ⟨fullName, fullValue, validName_replicate 31 (by decide)⟩

def fullStore : QSettings :=
  cells.set QSettings.empty (propertyPath (fromLatin1 fullName.text)) (fromLatin1 fullValue.text)

theorem fullStore_set :
    cells.set fullStore (propertyPath (fromLatin1 fullName.text)) (fromLatin1 fullValue.text) =
      fullStore := by
  simp only [fullStore, cells, AList.insert_insert]

def fullEffect : Kind → Effect
  | .get => (none, getReply plainStack fullValue.text)
  | .set => (some (fromLatin1 fullName.text, fromLatin1 fullValue.text), setReply plainStack)

theorem kindOf_fullFrame (k : Kind) : kindOf (fullFrame k) = k := by
  cases k <;> rfl

theorem storedValue_fullStore (n : ℕ) (hn : 0 < n) :
    storedValue fullStore (fromLatin1 (List.replicate n 97)) =
      if n = 31 then fullValue.text else [] := by
  have hname : fromLatin1 (List.replicate n 97) = fromLatin1 fullName.text ↔ n = 31 := by
    constructor
    · intro h
      have hl := congrArg List.length h
      rwa [length_fromLatin1 _ (zero_not_mem_replicate n), length_fromLatin1 _ fullName.no_nul,
        List.length_replicate] at hl
    · rintro rfl
      rfl
  have hset := storedValue_set QSettings.empty (fromLatin1 fullName.text)
    (fromLatin1 (List.replicate n 97)) (fromLatin1 fullValue.text)
    (validName_replicate 31 (by decide)) (validName_replicate n hn)
  simp only [hname, toLatin1_fromLatin1, cString_text] at hset
  rw [fullStore, hset]
  rfl

theorem handle_fullFrame (k : Kind) :
    handle plainStack fullStore (fullFrame k).bytes = some (fullStore, [fullEffect k]) := by
  cases k with
  | get =>
    have hvalue := storedValue_fullStore 31 (by decide)
    rw [fullFrame, handle_get _ _ _ rfl, fullEffect]
    change some (fullStore, [(none, getReply plainStack
      (storedValue fullStore (fromLatin1 (List.replicate 31 97))))]) = _
    rw [hvalue, if_pos rfl]
  | set =>
    rw [fullFrame, handle_set _ _ _ rfl]
    change some (cells.set fullStore (propertyPath (fromLatin1 fullName.text))
      (fromLatin1 fullValue.text), _) = _
    rw [fullStore_set]
    rfl

def recognized (e : Effect) : Bool := e ≠ (none, [48, 48])

def isCommand (b : UInt8) : Bool := b = kSystemPropertyGet ∨ b = kSystemPropertySet

theorem length_effectsOf_le (o : Outcome) : (effectsOf o).length ≤ 1 := by
  unfold effectsOf
  split <;> simp

theorem length_handle_le (stack : Stack) {q q' : QSettings} {b : QByteArray} {es : List Effect}
    (h : handle stack q b = some (q', es)) : es.length ≤ 1 := by
  obtain ⟨o, _, ho⟩ := Option.map_eq_some_iff.mp h
  rw [← (Prod.mk.inj ho).2]
  exact length_effectsOf_le o

theorem countP_handle_le (stack : Stack) (q : QSettings) (b : QByteArray) (q' : QSettings)
    (es : List Effect) (h : handle stack q b = some (q', es)) :
    es.countP recognized ≤ b.countP isCommand := by
  by_cases hcommand : isCommand (b.headD 0)
  · have hmark : 1 ≤ b.countP isCommand := by
      cases b with
      | nil => exact absurd hcommand (by decide)
      | cons x b =>
        have hx : isCommand x = true := hcommand
        rw [List.countP_cons_of_pos hx]
        exact Nat.le_add_left 1 _
    exact (List.countP_le_length.trans (length_handle_le stack h)).trans hmark
  · have hnone : ∀ e ∈ es, ¬ recognized e = true := by
      simp only [isCommand, decide_eq_true_eq, not_or] at hcommand
      obtain ⟨o, ho, he⟩ := Option.map_eq_some_iff.mp h
      rw [← (Prod.mk.inj he).2]
      simp only [answer, if_neg hcommand.1, if_neg hcommand.2] at ho
      intro e hmem
      split at ho
      · simp only [Option.some.injEq] at ho
        simp [← ho, effectsOf] at hmem
      · split at ho
        · simp only [Option.some.injEq] at ho
          simp [← ho, effectsOf] at hmem
        · split at ho
          · simp only [Option.some.injEq] at ho
            simp [← ho, effectsOf] at hmem
          · simp only [Option.some.injEq] at ho
            rw [← ho] at hmem
            have heq : e = (none, [48, 48]) := by simpa [effectsOf] using hmem
            simp [recognized, heq]
    rw [List.countP_eq_zero.mpr hnone]
    exact Nat.zero_le _

theorem countP_stream (ks : List Kind) :
    (stream (ks.map fullFrame)).countP isCommand = ks.length := by
  induction ks with
  | nil => rfl
  | cons k ks ih =>
    have hone : (fullFrame k).bytes.countP isCommand = 1 := by cases k <;> decide +kernel
    simp only [stream, List.map_cons, List.flatten_cons, List.countP_append, List.length_cons]
    rw [hone]
    change 1 + (stream (ks.map fullFrame)).countP isCommand = _
    rw [ih, Nat.add_comm]

theorem recognized_fullEffect (k : Kind) : recognized (fullEffect k) = true := by
  cases k with
  | get =>
    have hlen : (getReply plainStack fullValue.text).length = PROP_VALUE_MAX + 1 := by
      simp [getReply, dump]
    have hne : getReply plainStack fullValue.text ≠ [48, 48] := fun h => by
      rw [h] at hlen
      exact absurd hlen (by decide)
    simp [recognized, fullEffect, hne]
  | set => simp [recognized, fullEffect]

theorem get_cut (b c : QByteArray) (q : QSettings) (hb : (fullFrame .get).bytes = b ++ c)
    (hne : c ≠ []) (h : handle plainStack fullStore b = some (q, [fullEffect .get])) :
    c.length = 1 := by
  have hlen : b.length + c.length = 33 := by
    rw [← List.length_append, ← hb]
    rfl
  have hpos := List.length_pos_iff.mpr hne
  by_contra hmore
  have hshort : ¬ b.length < 2 := fun hlt => by
    rw [handle_short _ _ _ hlt] at h
    simp at h
  have htake : b = kSystemPropertyGet :: List.replicate (b.length - 1) 97 := by
    have hfront : b = (kSystemPropertyGet :: List.replicate 31 97 ++ [0]).take b.length :=
      (List.take_left' rfl).symm.trans (congrArg (List.take b.length) hb.symm)
    obtain ⟨m, hm⟩ : ∃ m, b.length = m + 1 := ⟨b.length - 1, by omega⟩
    rw [hm] at hfront ⊢
    rw [hfront, List.take_append_of_le_length (by simp; omega), List.take_succ_cons,
      List.take_replicate]
    congr 2
    omega
  have hname : fromLatin1 (b.drop 1) = fromLatin1 (List.replicate (b.length - 1) 97) := by
    conv_lhs => rw [htake]
    rfl
  have hvalid := validName_replicate (b.length - 1) (by omega)
  have hstored := storedValue_fullStore (b.length - 1) (by omega)
  rw [if_neg (by omega)] at hstored
  have hreply : getReply plainStack [] = getReply plainStack fullValue.text := by
    rw [handle, answer_command_get plainStack fullStore b hshort (by rw [htake]; rfl), hname,
      readProperty_eq fullStore _ rfl hvalid.named, Option.map_some, Option.map_some,
      effectsOf] at h
    change some (fullStore, if _ then _ else [((none : Option (QString × QString)),
      getReply plainStack (storedValue fullStore (fromLatin1 (List.replicate (b.length - 1) 97))))])
      = _ at h
    rw [hstored, if_neg (by simp [getReply, dump]), fullEffect, Option.some.injEq,
      Prod.mk.injEq, List.cons.injEq, Prod.mk.injEq] at h
    exact h.2.1.2
  have hview := congrArg replyView hreply
  rw [replyView_getReply _ _ (by decide), replyView_getReply _ _ (by decide +kernel)] at hview
  exact absurd hview (by decide +kernel)

theorem set_cut (b c : QByteArray) (q : QSettings) (hb : (fullFrame .set).bytes = b ++ c)
    (hne : c ≠ []) (h : handle plainStack fullStore b = some (q, [fullEffect .set])) :
    c.length = 1 := by
  have hlen : b.length + c.length = 125 := by
    rw [← List.length_append, ← hb]
    decide +kernel
  have hpos := List.length_pos_iff.mpr hne
  by_contra hmore
  have hshort : ¬ b.length < 2 := fun hlt => by
    rw [handle_short _ _ _ hlt] at h
    simp at h
  have hcommand : b.headD 0 = kSystemPropertySet := by
    cases b with
    | nil => exact absurd (by simp) hshort
    | cons x b => exact (List.cons.inj hb).1.symm
  have hvalue : fromLatin1 (b.drop (PROPERTY_KEY_MAX + 1)) = fromLatin1 fullValue.text := by
    rw [handle, answer_command_set plainStack fullStore b hshort hcommand, Option.map_map] at h
    obtain ⟨q', _, hq'⟩ := Option.map_eq_some_iff.mp h
    have heffect := (Prod.mk.inj hq').2
    simp only [effectsOf, reduceCtorEq, false_and, ↓reduceIte, fullEffect, List.cons.injEq,
      Prod.mk.injEq, Option.some.injEq] at heffect
    exact heffect.1.1.2
  have hlong := congrArg List.length hvalue
  rw [length_fromLatin1 _ fullValue.no_nul, fromLatin1, List.length_map] at hlong
  have hle := length_cString_le (b.drop (PROPERTY_KEY_MAX + 1))
  rw [hlong, List.length_drop] at hle
  simp only [fullValue, List.length_replicate, PROPERTY_KEY_MAX] at hle
  omega

theorem frame_cut (k : Kind) (b c : QByteArray) (q : QSettings)
    (hb : (fullFrame k).bytes = b ++ c) (hne : c ≠ [])
    (h : handle plainStack fullStore b = some (q, [fullEffect k])) : c.length = 1 := by
  cases k with
  | get => exact get_cut b c q hb hne h
  | set => exact set_cut b c q hb hne h

theorem countP_fullEffects (ks : List Kind) :
    (ks.map fullEffect).countP recognized = ks.length := by
  rw [List.countP_map, List.countP_eq_length.mpr]
  exact fun k _ => recognized_fullEffect k

theorem countP_prefix (k : Kind) (ks : List Kind) (b rest : QByteArray) (hne : b ≠ [])
    (h : stream ((k :: ks).map fullFrame) = b ++ rest) : 1 ≤ b.countP isCommand := by
  cases b with
  | nil => exact absurd rfl hne
  | cons x b =>
    have hx : isCommand x = true := by
      cases k with
      | get =>
        have hhead : kSystemPropertyGet = x := (List.cons.inj h).1
        rw [← hhead]
        rfl
      | set =>
        have hhead : kSystemPropertySet = x := (List.cons.inj h).1
        rw [← hhead]
        rfl
    rw [List.countP_cons_of_pos hx]
    exact Nat.le_add_left 1 _

theorem first_block (k : Kind) (ks : List Kind) (b : QByteArray) (bs : List QByteArray)
    (q : QSettings) (hne : b ≠ [])
    (hflat : (b :: bs).flatten = stream ((k :: ks).map fullFrame))
    (hserve : serve (handle plainStack) fullStore (b :: bs) =
      some (q, (k :: ks).map fullEffect)) :
    ∃ q₁, handle plainStack fullStore b = some (q₁, [fullEffect k]) ∧
      serve (handle plainStack) q₁ bs = some (q, ks.map fullEffect) := by
  obtain ⟨q₁, os₁, os₂, hb, hbs, hos⟩ := serve_cons_eq_some hserve
  have hrest := count_effects_le (handle plainStack) recognized isCommand
    (countP_handle_le plainStack) q₁ q bs os₂ hbs
  rw [List.flatten_cons] at hflat
  have hcommand := countP_prefix k ks b bs.flatten hne hflat.symm
  have hmarks := congrArg (List.countP isCommand) hflat
  rw [countP_stream, List.countP_append, List.length_cons] at hmarks
  have htotal := congrArg (List.countP recognized) hos
  rw [countP_fullEffects, List.countP_append, List.length_cons] at htotal
  have hone := length_handle_le plainStack hb
  have hle : os₁.countP recognized ≤ os₁.length := List.countP_le_length
  obtain ⟨e, rfl⟩ : ∃ e, os₁ = [e] := List.length_eq_one_iff.mp (by omega)
  obtain ⟨rfl, rfl⟩ := List.cons.inj hos
  exact ⟨q₁, hb, hbs⟩

theorem eq_nil_of_prefix (ks : List Kind) (b rest : QByteArray)
    (h : stream (ks.map fullFrame) = b ++ rest) (hcount : ks.length ≤ rest.countP isCommand) :
    b = [] := by
  by_contra hne
  cases ks with
  | nil => exact hne (List.append_eq_nil_iff.mp h.symm).1
  | cons k ks =>
    have hcommand := countP_prefix k ks b rest hne h
    have hmarks := congrArg (List.countP isCommand) h
    rw [countP_stream, List.countP_append] at hmarks
    omega

theorem rest_of_cut (ks : List Kind) (bs : List QByteArray) (q : QSettings)
    (hne : ∀ b ∈ bs, b ≠ []) (hflat : bs.flatten = 0 :: stream (ks.map fullFrame))
    (hserve : serve (handle plainStack) fullStore bs = some (q, ks.map fullEffect)) :
    ∃ bs', bs = [0] :: bs' ∧ bs'.flatten = stream (ks.map fullFrame) ∧
      serve (handle plainStack) fullStore bs' = some (q, ks.map fullEffect) := by
  cases bs with
  | nil => exact absurd hflat (by simp)
  | cons b bs =>
    cases b with
    | nil => exact absurd rfl (hne [] List.mem_cons_self)
    | cons x b =>
      have hcons : x :: (b ++ bs.flatten) = 0 :: stream (ks.map fullFrame) := hflat
      obtain ⟨rfl, hrest⟩ := List.cons.inj hcons
      have hskip := handle_unknown plainStack fullStore (0 :: b) rfl
      rw [serve_cons bs hskip] at hserve
      obtain ⟨r, hr, hq⟩ := Option.map_eq_some_iff.mp hserve
      obtain ⟨rfl, heffects⟩ := Prod.mk.inj hq
      rw [List.nil_append] at heffects
      have hserve' : serve (handle plainStack) fullStore bs = some (r.1, ks.map fullEffect) := by
        rw [hr, ← heffects]
      have hcount := count_effects_le (handle plainStack) recognized isCommand
        (countP_handle_le plainStack) fullStore r.1 bs _ hserve'
      rw [countP_fullEffects] at hcount
      obtain rfl := eq_nil_of_prefix ks b bs.flatten hrest.symm hcount
      exact ⟨bs, rfl, hrest, hserve'⟩

theorem last_byte_cut (k : Kind) (b c : QByteArray) (q : QSettings)
    (hc : (fullFrame k).bytes = b ++ c) (hne : c ≠ [])
    (h : handle plainStack fullStore b = some (q, [fullEffect k])) :
    c = [0] ∧ q = fullStore ∧ b.length = k.size - 1 := by
  obtain ⟨x, rfl⟩ := List.length_eq_one_iff.mp (frame_cut k b c q hc hne h)
  have hx : x = 0 := by
    have hgetLast := congrArg (List.getLastD · 1) hc
    rw [List.getLastD_concat] at hgetLast
    cases k <;> exact hgetLast.symm.trans (by decide +kernel)
  have hdrop : b = (fullFrame k).bytes.dropLast := by rw [hc, List.dropLast_concat]
  have hlength : b.length = k.size - 1 := by
    rw [hdrop, List.length_dropLast, (fullFrame k).bytes_length, size_eq, kindOf_fullFrame]
  rw [hdrop, handle, answer_dropLast, ← handle, handle_fullFrame, Option.some.injEq,
    Prod.mk.injEq] at h
  exact ⟨by rw [hx], h.1.symm, hlength⟩

theorem readsWhole_of_serve (ks : List Kind) (bs : List QByteArray) (q : QSettings)
    (hne : ∀ b ∈ bs, b ≠ []) (hflat : bs.flatten = stream (ks.map fullFrame))
    (hserve : serve (handle plainStack) fullStore bs = some (q, ks.map fullEffect)) :
    ReadsWhole ks (bs.map List.length) := by
  induction ks generalizing bs with
  | nil =>
    cases bs with
    | nil => rfl
    | cons b bs =>
      have hnil := (List.append_eq_nil_iff.mp hflat).1
      exact absurd hnil (hne b List.mem_cons_self)
  | cons k ks ih =>
    have hsize := (fullFrame k).bytes_length.trans (size_eq (fullFrame k))
    rw [kindOf_fullFrame] at hsize
    cases bs with
    | nil =>
      have hlen := congrArg List.length (List.append_eq_nil_iff.mp hflat.symm).1
      rw [hsize] at hlen
      cases k <;> exact absurd hlen (by decide)
    | cons b bs =>
      have hne' := fun b' h => hne b' (List.mem_cons_of_mem _ h)
      obtain ⟨q₁, hb, hbs⟩ :=
        first_block k ks b bs q (hne b List.mem_cons_self) hflat hserve
      have hcount := count_effects_le (handle plainStack) recognized isCommand
        (countP_handle_le plainStack) q₁ q bs _ hbs
      rw [countP_fullEffects] at hcount
      have hsplit : b ++ bs.flatten = (fullFrame k).bytes ++ stream (ks.map fullFrame) := hflat
      rcases List.append_eq_append_iff.mp hsplit with ⟨c, hc, hrest⟩ | ⟨c, hc, hrest⟩
      · by_cases hcut : c = []
        · -- the block is the frame
          subst hcut
          rw [List.append_nil] at hc
          rw [← hc, handle_fullFrame, Option.some.injEq, Prod.mk.injEq] at hb
          obtain ⟨rfl, _⟩ := hb
          rw [List.map_cons, ← hc, hsize]
          exact ⟨_, Or.inl rfl, ih bs hne' hrest hbs⟩
        · -- the frame was cut before its last byte
          obtain ⟨rfl, rfl, hlength⟩ := last_byte_cut k b c q₁ hc hcut hb
          obtain ⟨bs', rfl, hflat', hserve'⟩ := rest_of_cut ks bs q hne' hrest hbs
          have hwhole := ih bs' (fun b' h => hne' b' (List.mem_cons_of_mem _ h)) hflat' hserve'
          refine ⟨_, Or.inr ?_, hwhole⟩
          rw [List.map_cons, hlength]
          rfl
      · -- the block goes on behind the frame
        obtain rfl := eq_nil_of_prefix ks c bs.flatten hrest hcount
        rw [List.append_nil] at hc
        rw [hc, handle_fullFrame, Option.some.injEq, Prod.mk.injEq] at hb
        obtain ⟨rfl, _⟩ := hb
        rw [List.map_cons, hc, hsize]
        exact ⟨_, Or.inl rfl, ih bs hne' hrest.symm hbs⟩

theorem serve_fullFrames (ks : List Kind) :
    serve (handle plainStack) fullStore ((ks.map fullFrame).map Frame.bytes) =
      some (fullStore, ks.map fullEffect) := by
  induction ks with
  | nil => rfl
  | cons k ks ih =>
    rw [List.map_cons, List.map_cons, serve_cons _ (handle_fullFrame k), ih]
    rfl

theorem readsWhole_of_framed {kinds : List Kind} (d : Delivery kinds)
    (h : FramedAs plainStack fullStore (kinds.map fullFrame) d.sizes) :
    ReadsWhole kinds (StreamReads.sizes requestSize 0 d.sizes) := by
  have hk : (kinds.map fullFrame).map kindOf = kinds := by
    rw [List.map_map]
    exact List.map_id'' kindOf_fullFrame kinds
  obtain ⟨es, halone, _, hall⟩ := h
  obtain ⟨q', es', hserve, halone', _⟩ :=
    deliver_alone plainStack fullStore (kinds.map fullFrame) rfl
  rw [serve_fullFrames, Option.some.injEq, Prod.mk.injEq] at hserve
  have hes : es = kinds.map fullEffect := by
    rw [halone, Option.some.injEq, Prod.mk.injEq] at halone'
    rw [halone'.2, ← hserve.2]
  obtain ⟨⟨q, hq⟩, hleft⟩ := deliver_eq_some.mp hall
  obtain ⟨hlengths, hbytes⟩ := blocks_of_delivery d (kinds.map fullFrame) hk
  rw [hleft, List.append_nil] at hbytes
  have hchunks : ∀ c ∈ d.sizes.splitLengths (stream (kinds.map fullFrame)), c ≠ [] := by
    intro c hc hnil
    have hmem := List.mem_map_of_mem (f := List.length) hc
    rw [List.map_splitLengths_length _ _ (by rw [length_stream, hk, d.total]), hnil] at hmem
    exact absurd (d.pos 0 hmem) (Nat.lt_irrefl 0)
  rw [← hlengths]
  exact readsWhole_of_serve kinds _ q
    (blocks_ne_nil requestSize (by decide) [] _ hchunks) hbytes (hes ▸ hq)

end Necessity

/-- However the frames are filled, a delivery has the effects of the frames delivered alone
    and leaves nothing unread exactly when every read takes a whole frame, or a frame but its
    last byte and then that byte alone. -/
theorem delivery_keeps_framing (kinds : List Kind) (d : Delivery kinds) :
    (∀ (stack : Stack) (entries : AList (fun _ : QString => QString)) (fs : List Frame),
      fs.map kindOf = kinds → FramedAs stack ⟨entries, []⟩ fs d.sizes) ↔
      ReadsWhole kinds (StreamReads.sizes requestSize 0 d.sizes) := by
  constructor
  · intro h
    apply readsWhole_of_framed d
    apply h plainStack
    rw [List.map_map]
    exact List.map_id'' kindOf_fullFrame kinds
  · intro hw stack entries fs hk
    exact framed_of_readsWhole d hw stack ⟨entries, []⟩ fs hk rfl

def mergedGets : Delivery [.get, .get] := ⟨[66], by decide, by decide⟩

theorem merged_gets_lose_framing :
    ¬ FramedAs plainStack fullStore [fullFrame .get, fullFrame .get] mergedGets.sizes := by
  intro h
  obtain ⟨ns', hns | hns, _⟩ := readsWhole_of_framed mergedGets h
  · exact absurd (List.cons.inj hns).1 (by decide)
  · exact absurd (List.cons.inj hns).1 (by decide)

end Shashlik.PropertiesdFraming
