import Shashlik.GrallocArithmetic
import Shashlik.GrallocRuns

set_option autoImplicit false

/-!
# What an allocation reports

0 should stand for a buffer that was delivered, and a negative code for everything else. The
shared path has exits that return 0 with nothing delivered, a slot may lie outside of what is
mapped, and the sizes of the driver are divided by unseen.
-/
namespace Shashlik.GrallocReports
open SystemRuns SlotMasks AlignedSizes Gralloc Gralloc.World GrallocGeometry GrallocBalance
  GrallocFramebuffer GrallocEffects GrallocArithmetic GrallocRuns

/-- The handle's base is mapped: to its own file, or as a part of the framebuffer. -/
def HandleMapped (w : World) (hnd : PrivateHandle) : Prop :=
  if IsSlotHandle hnd then
    ∃ framebuffer m, w.module.framebuffer = some framebuffer ∧ framebuffer.base ≠ 0 ∧
      w.mappings.lookup (framebuffer.base.setWidth 32) = some m ∧
      (framebuffer.base.setWidth 32).toNat ≤ (hnd.base.setWidth 32).toNat ∧
      (hnd.base.setWidth 32).toNat < (framebuffer.base.setWidth 32).toNat + m.length.toNat
  else
    hnd.base ≠ 0 ∧ hnd.size ≠ 0 ∧
      w.mappings.lookup (hnd.base.setWidth 32) = some ⟨hnd.size, hnd.fd⟩

/-- A valid, mapped handle was stored, and the stride. -/
def Delivered (width : BitVec 32) (format : PixelFormat) (r : Outcome × World) : Prop :=
  (∃ hnd, r.1.handle = some hnd ∧ PrivateHandle.validate (some hnd) = 0 ∧
    HandleMapped r.2 hnd) ∧
  ∃ bpp wlBufferFormat, bufferFormat format = some (bpp, wlBufferFormat) ∧
    r.1.stride = some (pixelStride width bpp)

/-- The call returns, with 0 exactly if it delivered and with a negative code otherwise. -/
def ReportsExactly (w : World) (width : BitVec 32) (format : PixelFormat) (r : Outcome × World) :
    Prop :=
  r.2.faults = w.faults ∧ (r.1.code = 0 ↔ Delivered width format r) ∧
    (r.1.code ≠ 0 → r.1.code < 0)

def PoolMade (w : World) (a : Answers) : Prop :=
  w.module.shm = true ∧ ∃ pool, a.pool = some pool ∧ pool ∉ w.pools

def BufferMade (w : World) (a : Answers) : Prop :=
  ∃ buffer, a.buffer = some buffer ∧ buffer ∉ w.buffers

def slotOffset (m : PrivateModule) : BitVec 32 :=
  m.finfo.lineLength * m.info.yres * BitVec.ofNat 32 (findSlot m.bufferMask m.numBuffers)

/-- The mask has room for the slots, and where one is free, the framebuffer is mapped as far as
    there. -/
def SlotMapped (m : PrivateModule) : Prop :=
  ∀ framebuffer, m.framebuffer = some framebuffer → m.numBuffers ≠ 1 → m.numBuffers.toNat < 32 ∧
    (¬ Full m → framebuffer.base ≠ 0 ∧ (slotOffset m).toNat < framebuffer.size.toNat)

/-- A driver whose answers are all taken has rows, and if its memory can be mapped, less than 32
    screens. -/
def InitServes (w : World) (a : FramebufferAnswers) : Prop :=
  ∀ flags info finfo, Answered w a flags info finfo →
    info.yres ≠ 0 ∧ (InitSafe w a → (info.yresVirtual / info.yres).toNat < 32)

/-- For the screen, the initialisation serves if it is due, and a slot that is free is mapped; for
    a client the file, its first mapping, the pool and the `wl_buffer` can be made. -/
def Serves (w : World) (a : Answers) (width height : BitVec 32) (format : PixelFormat)
    (usage : BitVec 32) : Prop :=
  ∀ bpp wlBufferFormat, bufferFormat format = some (bpp, wlBufferFormat) →
    if ForScreen usage then
      (w.module.framebuffer = none → InitServes w a.framebuffer) ∧ SlotMapped w.module
    else FileMade w a.file (sizeMap width height bpp) ∧ DataMapped w a (sizeMap width height bpp) ∧
      PoolMade w a ∧ BufferMade w a

theorem reportsExactly_failed {w w' : World} (hfaults : w'.faults = w.faults) (width : BitVec 32)
    (format : PixelFormat) {code : ℤ} (hcode : code < 0) :
    ReportsExactly w width format (.failed code, w') := by
  refine ⟨hfaults, iff_of_false (Int.ne_of_lt hcode) ?_, fun _ => hcode⟩
  rintro ⟨⟨hnd, hhnd, -⟩, -⟩
  exact absurd hhnd (by simp [Outcome.failed])

theorem not_reportsExactly {w : World} {width : BitVec 32} {format : PixelFormat}
    {r : Outcome × World} (hcode : r.1.code = 0) (hnone : r.1.handle = none) :
    ¬ ReportsExactly w width format r := by
  intro h
  obtain ⟨⟨hnd, hhnd, -⟩, -⟩ := h.2.1.mp hcode
  exact absurd (hnone.symm.trans hhnd) (by simp)

/-! ### For a client -/

theorem wlShmCreatePool_made {w : World} {a : Answers} (h : PoolMade w a) (fd : ℤ)
    (size : BitVec 32) :
    ∃ pool, w.wlShmCreatePool a.pool fd size =
      (some pool, { w with pools := w.pools.insert pool ⟨fd, size⟩ }) := by
  obtain ⟨hshm, pool, hanswer, hfree⟩ := h
  refine ⟨pool, ?_⟩
  unfold wlShmCreatePool
  rw [if_neg (by simp [hshm]), hanswer]
  exact if_neg hfree

theorem wlShmCreatePool_not_made {w : World} {a : Answers} (h : ¬ PoolMade w a) (fd : ℤ)
    (size : BitVec 32) : (w.wlShmCreatePool a.pool fd size).1 = none := by
  unfold wlShmCreatePool
  split
  · rfl
  rename_i hshm
  split
  · rfl
  rename_i pool hanswer
  split
  · rfl
  · rename_i hfree
    exact absurd ⟨by simpa using hshm, pool, hanswer, hfree⟩ h

theorem wlShmPoolCreateBuffer_not_made {w : World} {a : Answers} (h : ¬ BufferMade w a)
    (pool : Address) (offset width height stride format : BitVec 32) :
    (w.wlShmPoolCreateBuffer a.buffer (some pool) offset width height stride format).1 = none := by
  unfold wlShmPoolCreateBuffer
  simp only
  split
  · rfl
  rename_i buffer hanswer
  split
  · rfl
  · rename_i hfree
    exact absurd ⟨buffer, hanswer, hfree⟩ h

theorem shareMapped_outcome (w : World) (a : Answers) (fd : ℤ)
    (width height size stride format : BitVec 32) :
    (¬ (PoolMade w a ∧ BufferMade w a) ∧
      (shareMapped w a fd width height size stride format).1 = ⟨0, none, some stride⟩) ∨
    ((PoolMade w a ∧ BufferMade w a) ∧
      (shareMapped w a fd width height size stride format).2.faults = w.faults ∧
      ((∃ e : Errno, (shareMapped w a fd width height size stride format).1 = .failed (-e)) ∨
        ∃ hnd, (shareMapped w a fd width height size stride format).1 =
          ⟨0, some hnd, some stride⟩)) := by
  unfold shareMapped
  by_cases hpool : PoolMade w a
  · obtain ⟨pool, hcreated⟩ := wlShmCreatePool_made hpool fd (height * stride)
    rw [hcreated]
    simp only
    by_cases hbuffer : BufferMade w a
    · obtain ⟨buffer, hanswer, hfree⟩ := hbuffer
      right
      refine ⟨⟨hpool, buffer, hanswer, hfree⟩, ?_⟩
      simp only [wlShmPoolCreateBuffer, hanswer, if_neg hfree]
      obtain ⟨hnd, w', hmapped, -, -, -, -, hfaults, -⟩ | ⟨e, hnd, hmapped⟩ :=
        mapBuffer_cases _ a.mapBuffer fd size (some pool) (some buffer)
      · rw [hmapped]
        exact ⟨hfaults, Or.inr ⟨hnd, rfl⟩⟩
      · have hpos := e.pos
        rw [hmapped]
        simp only
        rw [if_pos (show -(e : ℤ) < 0 by omega), if_neg (show ¬ -(e : ℤ) = 0 by omega)]
        exact ⟨rfl, Or.inl ⟨e, rfl⟩⟩
    · left
      refine ⟨fun h => hbuffer h.2, ?_⟩
      have hnone := wlShmPoolCreateBuffer_not_made
        (w := { w with pools := w.pools.insert pool ⟨fd, height * stride⟩ }) hbuffer pool 0 width
        height stride format
      generalize World.wlShmPoolCreateBuffer _ a.buffer (some pool) 0 width height stride format = r
        at hnone ⊢
      obtain ⟨buffer, w₁⟩ := r
      obtain rfl : buffer = none := hnone
      rfl
  · left
    refine ⟨fun h => hpool h.1, ?_⟩
    have hnone := wlShmCreatePool_not_made hpool fd (height * stride)
    generalize w.wlShmCreatePool a.pool fd (height * stride) = r at hnone ⊢
    obtain ⟨pool, w₁⟩ := r
    obtain rfl : pool = none := hnone
    rfl

theorem shareBuffer_reports (w : World) (a : Answers) (width height : BitVec 32)
    {format : PixelFormat} {bpp wlBufferFormat : BitVec 32}
    (hformat : bufferFormat format = some (bpp, wlBufferFormat)) :
    ReportsExactly w width format (shareBuffer w a width height (byteSize width height bpp)
      (pixelStride width bpp) wlBufferFormat) ↔
    FileMade w a.file (sizeMap width height bpp) ∧ DataMapped w a (sizeMap width height bpp) ∧
      PoolMade w a ∧ BufferMade w a := by
  rw [sizeMap]
  obtain ⟨hnot, hfailed, -⟩ | ⟨hmade, hmapped, fd, start, w₂, -, -, hmodule, hpools, hbuffers,
      hfaults, hrest⟩ := shareBuffer_cases w a width height (byteSize width height bpp)
        (pixelStride width bpp) wlBufferFormat
  · refine iff_of_false (not_reportsExactly ?_ ?_) fun h => hnot ⟨h.1, h.2.1⟩
    · rw [hfailed]
      rfl
    · rw [hfailed]
      rfl
  have hsame : PoolMade w₂ a ∧ BufferMade w₂ a ↔ PoolMade w a ∧ BufferMade w a := by
    rw [PoolMade, BufferMade, PoolMade, BufferMade, hmodule, hpools, hbuffers]
  rw [and_iff_right hmade, and_iff_right hmapped, ← hsame]
  rcases hr : shareBuffer w a width height (byteSize width height bpp) (pixelStride width bpp)
    wlBufferFormat with ⟨r, w'⟩
  obtain ⟨-, -, hdelivered⟩ := shareBuffer_effects hr
  rw [hr] at hrest
  obtain ⟨hnot, houtcome⟩ | ⟨hall, hfaults₂, ⟨e, houtcome⟩ | ⟨hnd, houtcome⟩⟩ :=
    shareMapped_outcome w₂ a fd width height (byteSize width height bpp) (pixelStride width bpp)
      wlBufferFormat
  · rw [← hrest] at houtcome
    refine iff_of_false (not_reportsExactly ?_ ?_) hnot
    · exact congrArg Outcome.code houtcome
    · exact congrArg Outcome.handle houtcome
  · rw [← hrest] at houtcome hfaults₂
    obtain rfl : r = .failed (-e) := houtcome
    have hpos := e.pos
    exact iff_of_true
      (reportsExactly_failed (hfaults₂.trans hfaults) width format (by omega)) hall
  · rw [← hrest] at houtcome hfaults₂
    obtain rfl : r = ⟨0, some hnd, some (pixelStride width bpp)⟩ := houtcome
    obtain ⟨new, -, hflags, -, -⟩ := hdelivered hnd rfl
    have hmapping := new.mapping hflags
    have hslot : ¬ IsSlotHandle hnd := not_not.mpr hflags
    refine iff_of_true ⟨hfaults₂.trans hfaults,
      iff_of_true rfl ⟨⟨hnd, rfl, ?_, ?_⟩, bpp, wlBufferFormat, hformat, rfl⟩,
      fun hne => absurd rfl hne⟩ hall
    · exact if_neg (not_not.mpr new.magic)
    · rw [HandleMapped, if_neg hslot]
      exact ⟨hmapping.base, hmapping.size, hmapping.mapped⟩

/-! ### For the screen -/

theorem slot_inside_iff {start offset length : BitVec 32}
    (hend : start.toNat + length.toNat ≤ 2 ^ 32) :
    (start.toNat ≤ (start + offset).toNat ∧ (start + offset).toNat < start.toNat + length.toNat) ↔
      offset.toNat < length.toNat := by
  have hoffset := offset.isLt
  rw [BitVec.toNat_add]
  omega

theorem slotHandle_mapped_iff {s : State} (h : Consistent s) {framebuffer : PrivateHandle}
    (hpublished : s.world.module.framebuffer = some framebuffer) {w' : World} {mask : BitVec 32}
    (hmodule : w'.module = { s.world.module with bufferMask := mask })
    (hmappings : w'.mappings = s.world.mappings) (fd : ℤ) (size : BitVec 32) :
    HandleMapped w' (slotHandle s.world.module (framebuffer.base.setWidth 32) fd size) ↔
      framebuffer.base ≠ 0 ∧ (slotOffset s.world.module).toNat < framebuffer.size.toNat := by
  have hscreen := h.screen framebuffer hpublished
  have hbase : (slotHandle s.world.module (framebuffer.base.setWidth 32) fd size).base.setWidth 32 =
      framebuffer.base.setWidth 32 + slotOffset s.world.module := setWidth_signExtend _
  have hslot : IsSlotHandle (slotHandle s.world.module (framebuffer.base.setWidth 32) fd size) :=
    slotHandle_flags _ _ _ _
  rw [HandleMapped, if_pos hslot, hbase, hmodule, hmappings]
  constructor
  · rintro ⟨framebuffer', m, hpublished', hne, hm, hle, hlt⟩
    obtain rfl := Option.some.inj (hpublished.symm.trans hpublished')
    obtain ⟨fd', hmapped⟩ := hscreen.mapped hne
    obtain rfl := Option.some.inj (hmapped.mapping.symm.trans hm)
    exact ⟨hne, (slot_inside_iff hmapped.end_le).mp ⟨hle, hlt⟩⟩
  · rintro ⟨hne, hlt⟩
    obtain ⟨fd', hmapped⟩ := hscreen.mapped hne
    obtain ⟨hle, hlt'⟩ := (slot_inside_iff hmapped.end_le).mpr hlt
    exact ⟨framebuffer, _, hpublished, hne, hmapped.mapping, hle, hlt'⟩

theorem full_of_none {m : PrivateModule} (h : m.numBuffers = 0) : Full m := by
  have hzero : (1#32 <<< (0 : BitVec 32)) - 1 = 0 := by decide
  rw [Full, h, hzero, BitVec.le_def]
  exact Nat.zero_le _

theorem takes_reports {s : State} (h : Consistent s) (width : BitVec 32) {format : PixelFormat}
    {bpp wlBufferFormat size : BitVec 32}
    (hformat : bufferFormat format = some (bpp, wlBufferFormat)) {r : Outcome} {w' : World}
    (takes : Takes s.world size r w') :
    ReportsExactly s.world width format
      (if r.code < 0 then r else ⟨0, r.handle, some (pixelStride width bpp)⟩, w') ↔
        SlotMapped s.world.module := by
  have hstored (hnd : PrivateHandle) (hmagic : hnd.magic = sMagic)
      (hfaults : w'.faults = s.world.faults) :
      ReportsExactly s.world width format (⟨0, some hnd, some (pixelStride width bpp)⟩, w') ↔
        HandleMapped w' hnd := by
    constructor
    · intro hreports
      obtain ⟨⟨hnd', hhnd', -, hmapped⟩, -⟩ := hreports.2.1.mp rfl
      obtain rfl := Option.some.inj hhnd'
      exact hmapped
    · intro hmapped
      refine ⟨hfaults, iff_of_true rfl ⟨⟨hnd, rfl, if_neg (not_not.mpr hmagic), hmapped⟩, bpp,
        wlBufferFormat, hformat, rfl⟩, fun hne => absurd rfl hne⟩
  cases takes with
  | failed e w' hmodule _ hwhy hfaults =>
    have hpos := e.pos
    rw [if_pos (show (Outcome.failed (-(e : ℤ))).code < 0 by simp only [Outcome.failed]; omega)]
    refine iff_of_true (reportsExactly_failed hfaults width format (by omega)) ?_
    intro framebuffer _ hmany
    obtain ⟨hnarrow, hfull⟩ := hwhy.resolve_left hmany
    exact ⟨hnarrow, fun hfree => absurd hfull hfree⟩
  | shifted hmany hwide =>
    rw [if_neg (show ¬ (Outcome.failed 0).code < 0 from Int.lt_irrefl 0)]
    refine iff_of_false (not_reportsExactly rfl rfl) fun hmapped => ?_
    cases hframebuffer : s.world.module.framebuffer with
    | none =>
      rw [(h.absent hframebuffer).numBuffers] at hwide
      exact absurd hwide (by decide)
    | some framebuffer =>
      exact Nat.not_lt.mpr hwide (hmapped framebuffer hframebuffer hmany).1
  | lost hnone _ hfree => exact absurd (full_of_none (h.absent hnone).numBuffers) hfree
  | own hnd w' hone _ _ new _ hflags _ _ hfaults =>
    have hslot : ¬ IsSlotHandle hnd := not_not.mpr hflags
    have hmapping := new.mapping hflags
    rw [if_neg (Int.lt_irrefl 0), hstored hnd new.magic hfaults, HandleMapped, if_neg hslot]
    exact iff_of_true ⟨hmapping.base, hmapping.size, hmapping.mapped⟩
      fun framebuffer _ hmany => absurd hone hmany
  | slot framebuffer fd w' hpublished hmany hnarrow hfree hmodule _ hmappings new hfaults =>
    rw [if_neg (Int.lt_irrefl 0), hstored _ new.magic hfaults,
      slotHandle_mapped_iff h hpublished hmodule hmappings]
    constructor
    · intro hinside framebuffer' hpublished' _
      obtain rfl := Option.some.inj (hpublished.symm.trans hpublished')
      exact ⟨hnarrow, fun _ => hinside⟩
    · intro hall
      exact (hall framebuffer hpublished hmany).2 hfree

theorem findSlot_zero (numBuffers : BitVec 32) : findSlot 0 numBuffers = 0 := by
  unfold findSlot
  cases numBuffers.toNat with
  | zero => rfl
  | succ n =>
    rw [List.range_succ_eq_map, List.findIdx_cons]
    simp

theorem slotMapped_of_initialises {w w' : World} {a : FramebufferAnswers} {code : ℤ}
    (hnone : w.module.framebuffer = none) (h : Initialises w a (some code) w') (hcode : 0 ≤ code) :
    SlotMapped w'.module ↔ InitServes w a := by
  generalize hreturned : some code = returned at h
  cases h with
  | absent code' w' _ hmodule _ _ hunanswered _ =>
    refine iff_of_true (fun framebuffer hpublished => ?_)
      fun flags info finfo hanswered => absurd hanswered (hunanswered flags info finfo)
    rw [hmodule, hnone] at hpublished
    exact absurd hpublished (by simp)
  | divided w' framebuffer flags info finfo _ _ _ _ _ _ _ _ => exact absurd hreturned (by simp)
  | unmapped e w' framebuffer flags info finfo _ _ _ _ _ _ _ _ =>
    obtain rfl := Option.some.inj hreturned
    have hpos := e.pos
    omega
  | mapped w' framebuffer flags info finfo start fd hanswered hyres hmodule _ hbase hstart hsize
      hsize_ne _ _ _ _ _ _ _ hsafe _ =>
    have hnumBuffers : w'.module.numBuffers = info.yresVirtual / info.yres := by
      rw [hmodule]
      rfl
    have hmapped : framebuffer.base ≠ 0 ∧ (slotOffset w'.module).toNat < framebuffer.size.toNat := by
      have hoffset : slotOffset w'.module = 0 := by
        rw [hmodule]
        simp only [slotOffset, publishedModule, findSlot_zero]
        exact BitVec.mul_zero
      refine ⟨fun hzero => hstart ?_, ?_⟩
      · rw [← setWidth_signExtend start, ← hbase, hzero]
        rfl
      · rw [hoffset, hsize]
        exact toNat_pos hsize_ne
    constructor
    · intro hslots flags' info' finfo' hanswered'
      obtain ⟨-, rfl, -⟩ : flags = flags' ∧ info = info' ∧ finfo = finfo' := by
        simpa using Except.ok.inj (hanswered.2.symm.trans hanswered'.2)
      refine ⟨hyres, fun _ => ?_⟩
      rw [← hnumBuffers]
      by_cases hone : w'.module.numBuffers = 1
      · rw [hone]
        decide
      · exact (hslots framebuffer (by rw [hmodule]; rfl) hone).1
    · intro hserves framebuffer' hpublished _
      obtain rfl : framebuffer = framebuffer' := by
        simpa [hmodule, publishedModule] using hpublished
      refine ⟨?_, fun _ => hmapped⟩
      rw [hnumBuffers]
      exact (hserves flags info finfo hanswered).2 hsafe

theorem initServes_iff_of_failed {w w' : World} {a : FramebufferAnswers} {code : Option ℤ}
    (h : Initialises w a code w') (hcode : ∀ returned, code = some returned → returned < 0) :
    InitServes w a ↔ code ≠ none := by
  cases h with
  | absent code' w' _ _ _ _ hunanswered _ =>
    exact iff_of_true
      (fun flags info finfo hanswered => absurd hanswered (hunanswered flags info finfo)) (by simp)
  | divided w' framebuffer flags info finfo hanswered hyres _ _ _ _ _ _ =>
    exact iff_of_false (fun hserves => (hserves flags info finfo hanswered).1 hyres)
      (not_not.mpr rfl)
  | unmapped e w' framebuffer flags info finfo hanswered hyres _ _ _ _ hunsafe _ =>
    refine iff_of_true (fun flags' info' finfo' hanswered' => ?_) (by simp)
    obtain ⟨-, rfl, -⟩ : flags = flags' ∧ info = info' ∧ finfo = finfo' := by
      simpa using Except.ok.inj (hanswered.2.symm.trans hanswered'.2)
    exact ⟨hyres, fun hsafe => absurd hsafe hunsafe⟩
  | mapped w' framebuffer flags info finfo start fd _ _ _ _ _ _ _ _ _ _ _ _ _ _ _ _ _ =>
    exact absurd (hcode 0 rfl) (Int.lt_irrefl 0)

theorem initialises_faults {w w' : World} {a : FramebufferAnswers} {code : Option ℤ}
    (h : Initialises w a code w') (hcode : code ≠ none) : w'.faults = w.faults := by
  cases h with
  | absent code' w' _ _ _ _ _ hfaults => exact hfaults
  | divided w' framebuffer flags info finfo _ _ _ _ _ _ _ _ => exact absurd rfl hcode
  | unmapped e w' framebuffer flags info finfo _ _ _ _ _ _ _ hfaults => exact hfaults
  | mapped w' framebuffer flags info finfo start fd _ _ _ _ _ _ _ _ _ _ _ _ _ _ _ _ hfaults =>
    exact hfaults

theorem screenAllocates_reports {s : State} (h : Consistent s) (width : BitVec 32)
    {format : PixelFormat} {bpp wlBufferFormat size : BitVec 32}
    (hformat : bufferFormat format = some (bpp, wlBufferFormat)) {a : Answers} {r : Outcome}
    {w' : World} (allocates : ScreenAllocates s.world a size r w') :
    ReportsExactly s.world width format
      (if r.code < 0 then r else ⟨0, r.handle, some (pixelStride width bpp)⟩, w') ↔
        (s.world.module.framebuffer = none → InitServes s.world a.framebuffer) ∧
          SlotMapped s.world.module := by
  have hvacuous (hnone : s.world.module.framebuffer = none) : SlotMapped s.world.module :=
    fun framebuffer hsome => absurd (hnone.symm.trans hsome) (by simp)
  cases allocates with
  | failed code w' hnone hinit hcode =>
    have hinitialises := initialises_of_eq hnone hinit
    have hserves := (initServes_iff_of_failed hinitialises fun returned hreturned =>
      Option.some.inj hreturned ▸ hcode).mpr (by simp)
    rw [if_pos (show (Outcome.failed code).code < 0 from hcode)]
    exact iff_of_true (reportsExactly_failed (initialises_faults hinitialises (by simp)) width format
      hcode) ⟨fun _ => hserves, hvacuous hnone⟩
  | divided w' hnone hinit =>
    have hserves := initServes_iff_of_failed (initialises_of_eq hnone hinit) (by simp)
    rw [if_neg (show ¬ (Outcome.failed 0).code < 0 from Int.lt_irrefl 0)]
    exact iff_of_false (not_reportsExactly rfl rfl) fun hall => hserves.mp (hall.1 hnone) rfl
  | first code w₁ r w' hnone hinit hcode htakes =>
    have hinitialises := initialises_of_eq hnone hinit
    have hreports := takes_reports (h.initialise hnone hinitialises) width hformat htakes
    rw [slotMapped_of_initialises hnone hinitialises hcode] at hreports
    rw [and_iff_left (hvacuous hnone), forall_prop_of_true hnone, ← hreports]
    simp only [ReportsExactly, initialises_faults hinitialises (Option.some_ne_none code)]
  | again r w' hsome htakes =>
    rw [takes_reports h width hformat htakes]
    exact (and_iff_right fun hnone => absurd hnone hsome).symm

/-- In every state of a run, an allocation reports exactly what it delivered if and only if the
    calls that it makes serve it. -/
theorem reports_exactly_iff (w : World) (es : List Event) (a : Answers) (width height : BitVec 32)
    (format : PixelFormat) (usage : BitVec 32) :
    ReportsExactly (run step (start w) es).world width format
      (grallocAlloc (run step (start w) es).world a width height format usage true true) ↔
        Serves (run step (start w) es).world a width height format usage := by
  have h := consistent_run w es
  generalize run step (start w) es = s at h ⊢
  rw [Serves]
  cases hformat : bufferFormat format with
  | none =>
    have hrefused : ¬ Accepted format true true := by simp [Accepted, hformat]
    rw [grallocAlloc_refused hrefused]
    exact iff_of_true (reportsExactly_failed rfl width format (by decide))
      fun bpp wlBufferFormat hknown => absurd hknown (by simp)
  | some known =>
    obtain ⟨bpp, wlBufferFormat⟩ := known
    have hknown (P : BitVec 32 → Prop) :
        (∀ bpp' wlBufferFormat', some (bpp, wlBufferFormat) = some (bpp', wlBufferFormat') →
          P bpp') ↔ P bpp := by
      constructor
      · exact fun hall => hall bpp wlBufferFormat rfl
      · intro hbpp bpp' wlBufferFormat' heq
        rw [← (Prod.mk.inj (Option.some.inj heq)).1]
        exact hbpp
    rw [hknown]
    by_cases hscreen : ForScreen usage
    · rw [if_pos hscreen]
      have hallocates := allocFramebuffer_allocates s.world a (bytesPerRow width bpp * height)
      rw [grallocAlloc_of_screen hformat hscreen]
      exact screenAllocates_reports h width hformat hallocates
    · rw [if_neg hscreen, shareBuffer_of_grallocAlloc hformat (not_not.mp hscreen)]
      exact shareBuffer_reports s.world a width height hformat

theorem no_file_reported_as_success :
    (grallocAlloc (run step (start loaded) []).world withoutFile 1 1 .rgba8888 0 true true).1 =
        .failed 0 ∧
    ¬ ReportsExactly (run step (start loaded) []).world 1 .rgba8888 (grallocAlloc
      (run step (start loaded) []).world withoutFile 1 1 .rgba8888 0 true true) := by
  have houtcome : (grallocAlloc (run step (start loaded) []).world withoutFile 1 1 .rgba8888 0 true
      true).1 = .failed 0 := by decide +kernel
  exact ⟨houtcome, not_reportsExactly (congrArg Outcome.code houtcome)
    (congrArg Outcome.handle houtcome)⟩

end Shashlik.GrallocReports
