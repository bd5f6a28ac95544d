import Shashlik.GrallocBalance
import Shashlik.Library.SlotMasks

set_option autoImplicit false

/-!
# The framebuffer

The framebuffer is initialised by the first call for a buffer of the screen: the driver is
asked for the sizes, the handle is published, and the memory is mapped. What a call then does
to one slot of it is worked out here, from the addresses and the mask.
-/
namespace Shashlik.GrallocFramebuffer
open AlignedSizes SlotMasks Gralloc Gralloc.World GrallocGeometry GrallocBalance

/-- What the driver is trusted with: no row or screen is empty, the screens fit the address
    space, and there are at least two and at most 31 of them. -/
def Driver (a : FramebufferAnswers) : Prop :=
  ∀ info finfo, a.varScreeninfoAgain = .ok info → a.fixScreeninfoAgain = .ok finfo →
    0 < finfo.lineLength.toNat * info.yres.toNat ∧
      finfo.lineLength.toNat * info.yresVirtual.toNat < 2 ^ 32 ∧
        2 ≤ info.yresVirtual.toNat / info.yres.toNat ∧
          info.yresVirtual.toNat / info.yres.toNat ≤ 31

def bufferSize (m : PrivateModule) : ℕ := m.finfo.lineLength.toNat * m.info.yres.toNat

/-- The arguments that are checked before anything else. -/
def Accepted (format : PixelFormat) (pHandle pStride : Bool) : Prop :=
  pHandle = true ∧ pStride = true ∧ (bufferFormat format).isSome = true

/-- A framebuffer that cannot be initialised is not so for lack of memory: no call that ends
    the initialisation fails with `ENOMEM`, and a driver without memory leaves an `errno`
    that is neither that nor 0. -/
def InitAnswers (w : World) (a : FramebufferAnswers) : Prop :=
  match openDevice w a with
  | (.error e, _) => e ≠ enomem
  | (.ok _, _) =>
    match readScreeninfo a with
    | .error code => code ≠ 0 ∧ code ≠ -enomem
    | .ok (_, info, finfo) =>
      let fbSize := roundUpToPageSize (finfo.lineLength * info.yresVirtual)
      a.mmap ≠ .error enomem ∧ (fbSize ≠ 0 → ∀ start, a.mmap = .ok start → w.Unmapped start fbSize)

/-! ### The initialisation -/

theorem openFile_frame (w : World) (answer : Answer ℤ) (f : File) :
    (w.openFile answer f).2.module = w.module ∧ (w.openFile answer f).2.mappings = w.mappings := by
  unfold openFile
  split
  · exact ⟨rfl, rfl⟩
  · split <;> exact ⟨rfl, rfl⟩

theorem openDevice_frame (w : World) (a : FramebufferAnswers) :
    (openDevice w a).2.module = w.module ∧ (openDevice w a).2.mappings = w.mappings := by
  have hfirst := openFile_frame w a.openGraphics .framebuffer
  unfold openDevice
  generalize w.openFile a.openGraphics .framebuffer = r at hfirst ⊢
  obtain ⟨e | fd, w₁⟩ := r
  · have hsecond := openFile_frame w₁ a.openDev .framebuffer
    exact ⟨hsecond.1.trans hfirst.1, hsecond.2.trans hfirst.2⟩
  · exact hfirst

theorem dup_frame (w : World) (answer : Answer ℤ) (fd : ℤ) :
    (w.dup answer fd).2.module = w.module ∧ (w.dup answer fd).2.mappings = w.mappings := by
  unfold World.dup
  split
  · exact ⟨rfl, rfl⟩
  · rename_i f hf
    have hopened := openFile_frame w answer f
    generalize w.openFile answer f = r at hopened ⊢
    obtain ⟨e | fd', w₁⟩ := r
    · exact hopened
    · exact hopened

theorem readScreeninfo_ok {a : FramebufferAnswers} {flags : BitVec 32} {info : VarScreeninfo}
    {finfo : FixScreeninfo} (h : readScreeninfo a = .ok (flags, info, finfo)) :
    a.varScreeninfoAgain = .ok info ∧ a.fixScreeninfoAgain = .ok finfo := by
  unfold readScreeninfo at h
  split at h
  · simp at h
  split at h
  · simp at h
  simp only at h
  split at h
  · simp at h
  rename_i info' hinfo
  split at h
  · simp at h
  rename_i finfo' hfinfo
  split at h
  · simp at h
  · simp only [Except.ok.injEq, Prod.mk.injEq] at h
    obtain ⟨-, rfl, rfl⟩ := h
    exact ⟨hinfo, hfinfo⟩

theorem readScreeninfo_error {a : FramebufferAnswers} {code : ℤ}
    (h : readScreeninfo a = .error code) : code ≤ 0 := by
  have hneg {e : Errno} (he : (.error (-(e : ℤ)) : Except ℤ
      (BitVec 32 × VarScreeninfo × FixScreeninfo)) = .error code) : code ≤ 0 := by
    have hcode := Except.error.inj he
    omega
  unfold readScreeninfo at h
  split at h
  · exact hneg h
  split at h
  · exact hneg h
  simp only at h
  split at h
  · exact hneg h
  split at h
  · exact hneg h
  split at h
  · have hcode := Except.error.inj h
    omega
  · simp at h

/-- The module after the driver was asked, with a framebuffer that may be mapped or not. -/
structure Published (a : FramebufferAnswers) (m : PrivateModule) (framebuffer : PrivateHandle) :
    Prop where
  framebuffer : m.framebuffer = some framebuffer
  info : a.varScreeninfoAgain = .ok m.info
  finfo : a.fixScreeninfoAgain = .ok m.finfo
  numBuffers : m.numBuffers = m.info.yresVirtual / m.info.yres
  bufferMask : m.bufferMask = 0

theorem neg_errno_eq_iff {e e' : Errno} : -(e : ℤ) = -(e' : ℤ) ↔ e = e' := by
  constructor
  · intro h
    exact PNat.eq (by omega)
  · rintro rfl
    rfl

theorem mapFrameBufferLocked_publishes {w w₁ : World} {a : FramebufferAnswers} {fd : ℤ}
    {flags : BitVec 32} {info : VarScreeninfo} {finfo : FixScreeninfo}
    (hnone : w.module.framebuffer = none) (hopen : openDevice w a = (.ok fd, w₁))
    (hread : readScreeninfo a = .ok (flags, info, finfo)) (hyres : info.yres ≠ 0) :
    ∃ (w₂ : World) (framebuffer : PrivateHandle), w₂.mappings = w.mappings ∧
      Published a w₂.module framebuffer ∧ framebuffer.base = 0 ∧ w₂.module.info = info ∧
      w₂.module.finfo = finfo ∧
      mapFrameBufferLocked w a =
        match w₂.mmap a.mmap (roundUpToPageSize (finfo.lineLength * info.yresVirtual)) fd with
        | (.error e, w) => (some (-(e : ℤ)), w)
        | (.ok vaddr, w) =>
          (some 0, { w with
            module := { w.module with
              framebuffer := some { framebuffer with base := vaddr.signExtend 64 } } }) := by
  have hnew : ¬ w.module.framebuffer.isSome = true := by simp [hnone]
  obtain ⟨hinfo, hfinfo⟩ := readScreeninfo_ok hread
  have hopened := openDevice_frame w a
  rw [hopen] at hopened
  have hdup := dup_frame w₁ a.dup fd
  unfold mapFrameBufferLocked
  rw [if_neg hnew, hopen]
  simp only [hread, if_neg hyres]
  refine ⟨_, _, ?_, ?_, ?_, ?_, ?_, rfl⟩
  · exact hdup.2.trans hopened.2
  · exact ⟨rfl, hinfo, hfinfo, rfl, rfl⟩
  · rfl
  · rfl
  · rfl

theorem unmapped_congr {w w' : World} (h : w.mappings = w'.mappings) :
    w.Unmapped = w'.Unmapped := by
  unfold Unmapped
  rw [h]

theorem initAnswers_iff {w w₁ : World} {a : FramebufferAnswers} {fd : ℤ} {flags : BitVec 32}
    {info : VarScreeninfo} {finfo : FixScreeninfo} (hopen : openDevice w a = (.ok fd, w₁))
    (hread : readScreeninfo a = .ok (flags, info, finfo)) :
    InitAnswers w a ↔ a.mmap ≠ .error enomem ∧
      (roundUpToPageSize (finfo.lineLength * info.yresVirtual) ≠ 0 → ∀ start, a.mmap = .ok start →
        w.Unmapped start (roundUpToPageSize (finfo.lineLength * info.yresVirtual))) := by
  rw [InitAnswers, hopen]
  simp only [hread]

theorem mapFrameBufferLocked_cases {w : World} {a : FramebufferAnswers} (driver : Driver a)
    (hnone : w.module.framebuffer = none) :
    (∃ code w', mapFrameBufferLocked w a = (some code, w') ∧ w'.module = w.module ∧ code ≤ 0 ∧
      (InitAnswers w a ↔ code ≠ 0 ∧ code ≠ -enomem)) ∨
    (∃ (e : Errno) (w' : World) (framebuffer : PrivateHandle),
      mapFrameBufferLocked w a = (some (-(e : ℤ)), w') ∧ Published a w'.module framebuffer ∧
        framebuffer.base = 0 ∧ (InitAnswers w a ↔ e ≠ enomem)) ∨
    (∃ (w' : World) (framebuffer : PrivateHandle) (start : Address) (m : Mapping),
      mapFrameBufferLocked w a = (some 0, w') ∧ Published a w'.module framebuffer ∧
        framebuffer.base = start.signExtend 64 ∧ start ≠ 0 ∧
          w'.mappings.lookup start = some m ∧ m.length ≠ 0 ∧
            m.length = roundUpToPageSize (w'.module.finfo.lineLength * w'.module.info.yresVirtual) ∧
              start.toNat + m.length.toNat ≤ 2 ^ 32 ∧ InitAnswers w a) := by
  have hnew : ¬ w.module.framebuffer.isSome = true := by simp [hnone]
  have hframe := openDevice_frame w a
  rcases hopen : openDevice w a with ⟨e | fd, w₁⟩
  · left
    have hpos := e.pos
    rw [hopen] at hframe
    refine ⟨-(e : ℤ), w₁, ?_, hframe.1, by omega, ?_⟩
    · rw [mapFrameBufferLocked, if_neg hnew, hopen]
    have hzero : -(e : ℤ) ≠ 0 := by omega
    rw [InitAnswers, hopen]
    exact ⟨fun hne => ⟨hzero, fun heq => hne (neg_errno_eq_iff.mp heq)⟩,
      fun h heq => h.2 (neg_errno_eq_iff.mpr heq)⟩
  cases hread : readScreeninfo a with
  | error code =>
    left
    rw [hopen] at hframe
    refine ⟨code, w₁, ?_, hframe.1, readScreeninfo_error hread, ?_⟩
    · rw [mapFrameBufferLocked, if_neg hnew, hopen]
      simp only [hread]
    · rw [InitAnswers, hopen]
      simp only [hread]
  | ok answers =>
    right
    obtain ⟨flags, info, finfo⟩ := answers
    obtain ⟨hinfo, hfinfo⟩ := readScreeninfo_ok hread
    have hyres : info.yres ≠ 0 := by
      intro hzero
      have hpos := (driver info finfo hinfo hfinfo).1
      simp [hzero] at hpos
    obtain ⟨w₂, framebuffer, hmappings, hpublished, hbase, rfl, rfl, hequation⟩ :=
      mapFrameBufferLocked_publishes hnone hopen hread hyres
    rw [hequation, initAnswers_iff hopen hread, unmapped_congr hmappings.symm]
    generalize hfbSize :
      roundUpToPageSize (w₂.module.finfo.lineLength * w₂.module.info.yresVirtual) = fbSize
    rcases hmap : w₂.mmap a.mmap fbSize fd with ⟨e | start, w₃⟩
    · left
      obtain ⟨rfl, -, herrno⟩ := mmap_failed hmap
      exact ⟨e, w₃, framebuffer, rfl, hpublished, hbase, herrno⟩
    · right
      obtain ⟨hanswer, hlength, hfree, rfl⟩ := mmap_free hmap
      refine ⟨_, _, start, _, rfl, ⟨rfl, hpublished.info, hpublished.finfo, hpublished.numBuffers,
        hpublished.bufferMask⟩, rfl, hfree.1, AList.lookup_insert _, hlength, hfbSize.symm,
        hfree.2.1, ?_⟩
      refine ⟨by simp [hanswer], fun _ start' hstart' => ?_⟩
      obtain rfl : start = start' := by simpa [hanswer] using hstart'
      exact hfree

/-! ### A framebuffer in use -/

/-- The sizes of the driver, as the module computes with them. -/
structure Screens (m : PrivateModule) : Prop where
  two_le : 2 ≤ m.numBuffers.toNat
  le : m.numBuffers.toNat ≤ 31
  product : (m.finfo.lineLength * m.info.yres).toNat = bufferSize m
  size_pos : 0 < bufferSize m
  fits : m.numBuffers.toNat * bufferSize m ≤ (m.finfo.lineLength * m.info.yresVirtual).toNat

theorem Published.screens {a : FramebufferAnswers} {m : PrivateModule}
    {framebuffer : PrivateHandle} (h : Published a m framebuffer) (hdriver : Driver a) :
    Screens m := by
  obtain ⟨hpos, hlt, htwo, hle⟩ := hdriver m.info m.finfo h.info h.finfo
  have hnumBuffers : m.numBuffers.toNat = m.info.yresVirtual.toNat / m.info.yres.toNat := by
    rw [h.numBuffers, BitVec.toNat_udiv]
  have hrows : m.numBuffers.toNat * m.info.yres.toNat ≤ m.info.yresVirtual.toNat := by
    rw [hnumBuffers]
    exact Nat.div_mul_le_self _ _
  have hfits : m.numBuffers.toNat * bufferSize m ≤
      m.finfo.lineLength.toNat * m.info.yresVirtual.toNat := by
    calc
      _ = m.finfo.lineLength.toNat * (m.numBuffers.toNat * m.info.yres.toNat) := by
        rw [bufferSize, Nat.mul_left_comm]
      _ ≤ m.finfo.lineLength.toNat * m.info.yresVirtual.toNat := Nat.mul_le_mul_left _ hrows
  have hone : bufferSize m ≤ m.numBuffers.toNat * bufferSize m :=
    Nat.le_mul_of_pos_left _ (by omega)
  refine ⟨by omega, by omega, ?_, hpos, ?_⟩
  · rw [BitVec.toNat_mul]
    exact Nat.mod_eq_of_lt (hone.trans_lt (hfits.trans_lt hlt))
  · rw [BitVec.toNat_mul, Nat.mod_eq_of_lt hlt]
    exact hfits

theorem Screens.numBuffers_ne_one {m : PrivateModule} (h : Screens m) : m.numBuffers ≠ 1 := by
  intro hone
  have htwo := h.two_le
  rw [hone] at htwo
  exact absurd htwo (by decide)

theorem Screens.lt_width {m : PrivateModule} (h : Screens m) : m.numBuffers.toNat < 32 :=
  h.le.trans_lt (by decide)

/-- The framebuffer is mapped at `start`, and all its slots lie in the mapping. -/
structure Mapped (w : World) (start : Address) : Prop where
  framebuffer : ∃ framebuffer, w.module.framebuffer = some framebuffer ∧
    framebuffer.base = start.signExtend 64
  start_ne : start ≠ 0
  mapping : ∃ m, w.mappings.lookup start = some m ∧
    w.module.numBuffers.toNat * bufferSize w.module ≤ m.length.toNat ∧
      start.toNat + m.length.toNat ≤ 2 ^ 32

def slot (m : PrivateModule) (hnd : PrivateHandle) : ℕ := hnd.offset.toNat / bufferSize m

structure IsSlot (m : PrivateModule) (start : Address) (hnd : PrivateHandle) : Prop where
  magic : hnd.magic = sMagic
  flags : hnd.flags = privFlagsFramebuffer
  base : hnd.base = (start + hnd.offset).signExtend 64
  slot_lt : slot m hnd < m.numBuffers.toNat
  offset : hnd.offset.toNat = slot m hnd * bufferSize m

theorem setWidth_signExtend (x : Address) : (x.signExtend 64).setWidth 32 = x := by
  apply BitVec.eq_of_getLsbD_eq
  intro i hi
  rw [BitVec.getLsbD_setWidth, BitVec.getLsbD_signExtend]
  simp [hi, Nat.lt_trans hi (show 32 < 64 by decide)]

theorem msb_signExtend (x : Address) : (x.signExtend 64).msb = x.msb := by
  rw [BitVec.msb_signExtend]
  simp

theorem IsSlot.address {w : World} {start : Address} {hnd : PrivateHandle}
    (h : IsSlot w.module start hnd) (hscreens : Screens w.module) (hmapped : Mapped w start) :
    ∃ m, w.mappings.lookup start = some m ∧
      (hnd.base.setWidth 32).toNat = start.toNat + slot w.module hnd * bufferSize w.module ∧
      slot w.module hnd * bufferSize w.module + bufferSize w.module ≤ m.length.toNat ∧
      start.toNat + m.length.toNat ≤ 2 ^ 32 := by
  obtain ⟨m, hm, hslots, hend⟩ := hmapped.mapping
  have hnext : (slot w.module hnd + 1) * bufferSize w.module ≤
      w.module.numBuffers.toNat * bufferSize w.module := Nat.mul_le_mul_right _ h.slot_lt
  have hpos := hscreens.size_pos
  rw [Nat.succ_mul] at hnext
  refine ⟨m, hm, ?_, by omega, hend⟩
  rw [h.base, setWidth_signExtend, BitVec.toNat_add, h.offset]
  exact Nat.mod_eq_of_lt (by omega)

/-! ### Taking a slot -/

def slotHandle (m : PrivateModule) (start : Address) (fd : ℤ) (size : BitVec 32) : PrivateHandle :=
  let vaddr :=
    start + m.finfo.lineLength * m.info.yres *
      BitVec.ofNat 32 (findSlot m.bufferMask m.numBuffers)
  { PrivateHandle.new fd size privFlagsFramebuffer none none with
    base := vaddr.signExtend 64
    offset := vaddr - start }

theorem allocFramebuffer_init_failed {w w' : World} {a : Answers} {code : ℤ} (size : BitVec 32)
    (hnone : w.module.framebuffer = none)
    (hmap : mapFrameBufferLocked w a.framebuffer = (some code, w')) (hcode : code < 0) :
    grallocAllocFramebufferLocked w a size = (.failed code, w') := by
  unfold grallocAllocFramebufferLocked
  rw [if_pos (by simp [hnone]), hmap]
  exact if_pos hcode

theorem allocFramebuffer_init {w w' : World} {a : Answers} (size : BitVec 32)
    (hnone : w.module.framebuffer = none)
    (hmap : mapFrameBufferLocked w a.framebuffer = (some 0, w'))
    (hframebuffer : w'.module.framebuffer ≠ none) :
    grallocAllocFramebufferLocked w a size = grallocAllocFramebufferLocked w' a size := by
  have hsome : ¬ w'.module.framebuffer.isNone = true := by simpa using hframebuffer
  unfold grallocAllocFramebufferLocked
  rw [if_pos (by simp [hnone]), if_neg hsome, hmap]

theorem allocFramebuffer_init_nothing {w w' : World} {a : Answers} (size : BitVec 32)
    (hnone : w.module.framebuffer = none)
    (hmap : mapFrameBufferLocked w a.framebuffer = (some 0, w'))
    (hnumBuffers : w'.module.numBuffers = 0) :
    grallocAllocFramebufferLocked w a size = (.failed (-enomem), w') := by
  unfold grallocAllocFramebufferLocked
  rw [if_pos (by simp [hnone]), hmap]
  simp only
  rw [if_neg (by decide), if_neg (by simp [hnumBuffers]), if_neg (by simp [hnumBuffers]),
    if_pos (by simp [hnumBuffers, BitVec.le_def])]

theorem allocFramebuffer_full {w : World} {framebuffer : PrivateHandle} (a : Answers)
    (size : BitVec 32) (hframebuffer : w.module.framebuffer = some framebuffer)
    (hone : w.module.numBuffers ≠ 1) (hlt : w.module.numBuffers.toNat < 32)
    (hfull : (1#32 <<< w.module.numBuffers) - 1 ≤ w.module.bufferMask) :
    grallocAllocFramebufferLocked w a size = (.failed (-enomem), w) := by
  unfold grallocAllocFramebufferLocked
  rw [if_neg (by simp [hframebuffer])]
  simp only
  rw [if_neg (by decide), if_neg hone, if_neg (Nat.not_le.mpr hlt), if_pos hfull]

theorem allocFramebuffer_takes {w : World} {framebuffer : PrivateHandle} (a : Answers)
    (size : BitVec 32) (hframebuffer : w.module.framebuffer = some framebuffer)
    (hone : w.module.numBuffers ≠ 1) (hlt : w.module.numBuffers.toNat < 32)
    (hfull : ¬ (1#32 <<< w.module.numBuffers) - 1 ≤ w.module.bufferMask) :
    ∃ fd w', grallocAllocFramebufferLocked w a size =
        (⟨0, some (slotHandle w.module (framebuffer.base.setWidth 32) fd size), none⟩, w') ∧
      w'.mappings = w.mappings ∧
      w'.module = { w.module with
        bufferMask :=
          if findSlot w.module.bufferMask w.module.numBuffers < w.module.numBuffers.toNat then
            w.module.bufferMask ||| (1#32 <<< findSlot w.module.bufferMask w.module.numBuffers)
          else w.module.bufferMask } := by
  have hdup := dup_frame w a.dup framebuffer.fd
  unfold grallocAllocFramebufferLocked
  rw [if_neg (by simp [hframebuffer])]
  simp only
  rw [if_neg (by decide), if_neg hone, if_neg (Nat.not_le.mpr hlt), if_neg hfull, hframebuffer]
  refine ⟨_, _, rfl, hdup.2, ?_⟩
  simp only [hdup.1, hframebuffer]

theorem findSlot_spec {mask numBuffers : BitVec 32} (hle : numBuffers.toNat ≤ 31) {i : ℕ}
    (hi : i < numBuffers.toNat) (hfree : mask.getLsbD i = false) :
    findSlot mask numBuffers < numBuffers.toNat ∧
      mask.getLsbD (findSlot mask numBuffers) = false := by
  have hfound := findIdx_range_spec (p := fun i => mask &&& (1#32 <<< i) = 0) hi
    (decide_eq_true ((and_slot_eq_zero_iff mask (by omega)).mpr hfree))
  refine ⟨hfound.1, ?_⟩
  exact (and_slot_eq_zero_iff mask (hfound.1.trans_le (hle.trans (by decide)))).mp
    (of_decide_eq_true hfound.2)

theorem slotHandle_isSlot {m : PrivateModule} (hscreens : Screens m) (start : Address) (fd : ℤ)
    (size : BitVec 32) (hslot : findSlot m.bufferMask m.numBuffers < m.numBuffers.toNat) :
    IsSlot m start (slotHandle m start fd size) ∧
      slot m (slotHandle m start fd size) = findSlot m.bufferMask m.numBuffers := by
  have hoffset : (slotHandle m start fd size).offset =
      m.finfo.lineLength * m.info.yres * BitVec.ofNat 32 (findSlot m.bufferMask m.numBuffers) := by
    rw [slotHandle]
    simp only
    rw [BitVec.add_comm, BitVec.add_sub_cancel]
  have hdistance : (slotHandle m start fd size).offset.toNat =
      findSlot m.bufferMask m.numBuffers * bufferSize m := by
    have hlt := (Nat.mul_le_mul_right (bufferSize m) hslot.le).trans_lt
      (hscreens.fits.trans_lt (BitVec.isLt _))
    have hword : findSlot m.bufferMask m.numBuffers < 2 ^ 32 :=
      hslot.trans_le (hscreens.le.trans (by decide))
    rw [hoffset, BitVec.toNat_mul, hscreens.product, BitVec.toNat_ofNat, Nat.mod_eq_of_lt hword,
      Nat.mul_comm, Nat.mod_eq_of_lt hlt]
  have hnumber : slot m (slotHandle m start fd size) = findSlot m.bufferMask m.numBuffers := by
    rw [slot, hdistance, Nat.mul_div_cancel _ hscreens.size_pos]
  refine ⟨⟨rfl, rfl, ?_, ?_, ?_⟩, hnumber⟩
  · rw [hoffset]
    rfl
  · rw [hnumber]
    exact hslot
  · rw [hnumber, hdistance]

theorem append_failed (live : List PrivateHandle) (code : ℤ) :
    live ++ (Outcome.failed code).handle.toList = live := List.append_nil live

theorem grallocAlloc_refused {w : World} {a : Answers} {width height : BitVec 32}
    {format : PixelFormat} {usage : BitVec 32} {pHandle pStride : Bool}
    (h : ¬ Accepted format pHandle pStride) :
    grallocAlloc w a width height format usage pHandle pStride = (.failed (-einval), w) := by
  unfold grallocAlloc
  split
  · rfl
  · rename_i hpointers
    cases hformat : bufferFormat format with
    | none => rfl
    | some formats =>
      exact absurd ⟨by simpa using fun h => hpointers (Or.inl h),
        by simpa using fun h => hpointers (Or.inr h), by simp [hformat]⟩ h

theorem grallocAlloc_accepted (w : World) (a : Answers) (width height : BitVec 32)
    {format : PixelFormat} {usage : BitVec 32} {pHandle pStride : Bool}
    (h : Accepted format pHandle pStride) (forScreen : usage &&& grallocUsageHwFb ≠ 0) :
    ∃ size, ∀ r w', grallocAllocFramebufferLocked w a size = (r, w') → r.code ≤ 0 →
      (grallocAlloc w a width height format usage pHandle pStride).1.code = r.code ∧
        (grallocAlloc w a width height format usage pHandle pStride).1.handle = r.handle ∧
          (grallocAlloc w a width height format usage pHandle pStride).2 = w' := by
  obtain ⟨rfl, rfl, hformat⟩ := h
  obtain ⟨⟨bpp, wlBufferFormat⟩, hformat⟩ := Option.isSome_iff_exists.mp hformat
  refine ⟨bytesPerRow width bpp * height, fun r w' hr hcode => ?_⟩
  unfold grallocAlloc
  rw [if_neg (by simp)]
  simp only [hformat, if_pos forScreen, hr]
  split
  · exact ⟨rfl, rfl, rfl⟩
  · exact ⟨by simp only; omega, rfl, rfl⟩

/-! ### Giving a slot back -/

theorem freeSlot_module {w : World} {framebuffer : PrivateHandle} {hnd : PrivateHandle}
    (hframebuffer : w.module.framebuffer = some framebuffer)
    (hsize : w.module.finfo.lineLength * w.module.info.yres ≠ 0) :
    (freeSlot w hnd).module = { w.module with
      bufferMask := w.module.bufferMask &&& ~~~(1#32 <<< ((hnd.base - framebuffer.base) /
        (w.module.finfo.lineLength * w.module.info.yres).setWidth 64).setWidth 32) } := by
  unfold freeSlot
  simp only [hframebuffer]
  rw [if_neg hsize]
  split
  · -- shifted out, the bit clears nothing of the mask
    rename_i hindex
    have hshifted : 1#32 <<< ((hnd.base - framebuffer.base) /
        (w.module.finfo.lineLength * w.module.info.yres).setWidth 64).setWidth 32 = 0#32 := by
      rw [BitVec.shiftLeft_eq', BitVec.shiftLeft_eq_zero hindex]
    rw [hshifted, BitVec.not_zero, BitVec.and_allOnes, ← hframebuffer]
    rfl
  · rfl

theorem valid_of_magic {hnd : PrivateHandle} (hmagic : hnd.magic = sMagic) :
    ¬ PrivateHandle.validate (some hnd) < 0 := by
  simp [PrivateHandle.validate, hmagic]

theorem grallocFree_slot {w : World} {hnd : PrivateHandle} (hmagic : hnd.magic = sMagic)
    (hflags : hnd.flags = privFlagsFramebuffer) :
    (grallocFree w (some hnd)).2.module = (freeSlot w hnd).module ∧
      (grallocFree w (some hnd)).2.mappings = w.mappings := by
  have hslot : hnd.flags &&& privFlagsFramebuffer ≠ 0 := by
    rw [hflags]
    decide
  unfold grallocFree
  simp only
  rw [if_neg (valid_of_magic hmagic), if_pos hslot]
  refine ⟨?_, ?_⟩
  · cases hnd.pool <;> rfl
  · exact (wlShmPoolDestroy_mappings _ _).trans (freeSlot_mappings w hnd)

end Shashlik.GrallocFramebuffer
