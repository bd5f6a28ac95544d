import Mathlib.Data.List.InsertIdx
import Shashlik.GrallocFramebuffer

set_option autoImplicit false

/-!
# Slots of the framebuffer

A buffer for the screen is a slot of the mapped framebuffer. A bit of `bufferMask` says that
it is taken, and `gralloc_free` finds the bit again from the distance of two addresses. A
framebuffer that could not be mapped is kept all the same, and addresses are 32-bit numbers
that were extended with their sign: these are the two ways to lose a slot.
-/
namespace Shashlik.GrallocSlots
open AlignedSizes SlotMasks SystemRuns Gralloc Gralloc.World GrallocGeometry GrallocBalance
open GrallocFramebuffer

/-- A call for a slot; a buffer is freed by its place among the live handles. -/
inductive Call where
  | alloc (a : Answers) (width height : BitVec 32) (format : PixelFormat) (usage : BitVec 32)
    (pHandle pStride : Bool) (forScreen : usage &&& grallocUsageHwFb ≠ 0)
    (driver : Driver a.framebuffer)
  | free (i : ℕ)

/-- `wl_shm_pool_destroy` of a slot's null pool only adds a fault, which nothing here looks at. -/
def step (s : Session) : Call → Session
  | .alloc a width height format usage pHandle pStride _ _ =>
    let r := grallocAlloc s.world a width height format usage pHandle pStride
    ⟨r.2, s.live ++ r.1.handle.toList⟩
  | .free i =>
    match s.live[i]? with
    | none => s
    | some hnd => ⟨(grallocFree s.world (some hnd)).2, s.live.eraseIdx i⟩

def load (w : World) : World := { w with module := ⟨none, 0, 0, 0, none, false, ⟨0, 0, 0⟩, ⟨0, 0⟩⟩ }

def Held (s : Session) (i : ℕ) : Prop :=
  ∃ hnd ∈ s.live, hnd.flags &&& privFlagsFramebuffer ≠ 0 ∧
    hnd.offset.toNat = i * bufferSize s.world.module

/-- The buffer lies in what is mapped of the framebuffer. -/
def Inside (w : World) (hnd : PrivateHandle) : Prop :=
  ∃ framebuffer m, w.module.framebuffer = some framebuffer ∧ framebuffer.base ≠ 0 ∧
    w.mappings.lookup (framebuffer.base.setWidth 32) = some m ∧
    (framebuffer.base.setWidth 32).toNat ≤ (hnd.base.setWidth 32).toNat ∧
    (hnd.base.setWidth 32).toNat + bufferSize w.module ≤
      (framebuffer.base.setWidth 32).toNat + m.length.toNat

structure SlotsKept (s : Session) : Prop where
  bits : ∀ i, s.world.module.bufferMask.getLsbD i = true ↔ Held s i
  distinct : s.live.Pairwise (fun hnd hnd' => hnd.base ≠ hnd'.base)
  inside : ∀ hnd ∈ s.live, Inside s.world hnd

def AllHeld (s : Session) : Prop :=
  s.world.module.framebuffer ≠ none ∧ ∀ i < s.world.module.numBuffers.toNat, Held s i

/-- What a step should do: keep the slots, and answer `ENOMEM` exactly when all are held. -/
def Kept (s : Session) (c : Call) : Prop :=
  SlotsKept (step s c) ∧
    match c with
    | .alloc a width height format usage pHandle pStride _ _ =>
      (grallocAlloc s.world a width height format usage pHandle pStride).1.code = -enomem ↔
        Accepted format pHandle pStride ∧ AllHeld s
    | .free _ => True

/-- An accepted call finds the framebuffer mapped or initialises it; a freed slot lies in the
    half of the address space in which the framebuffer starts, or the size of a slot divides
    the borrow between the halves. -/
def StepSafe (s : Session) : Call → Prop
  | .alloc a _ _ format _ pHandle pStride _ _ =>
    Accepted format pHandle pStride →
      match s.world.module.framebuffer with
      | none => InitAnswers s.world a.framebuffer
      | some framebuffer => framebuffer.base ≠ 0
  | .free i =>
    ∀ hnd framebuffer, s.live[i]? = some hnd → s.world.module.framebuffer = some framebuffer →
      hnd.base.msb = framebuffer.base.msb ∨ bufferSize s.world.module ∣ 2 ^ 32 - 1

/-- The mask has the slots of the live handles, which are different slots. -/
structure Serving (s : Session) (start : Address) : Prop where
  screens : Screens s.world.module
  mapped : Mapped s.world start
  handles : ∀ hnd ∈ s.live, IsSlot s.world.module start hnd
  nodup : (s.live.map (slot s.world.module)).Nodup
  bits : ∀ i, s.world.module.bufferMask.getLsbD i = true ↔ i ∈ s.live.map (slot s.world.module)

theorem Serving.held_iff {s : Session} {start : Address} (h : Serving s start) (i : ℕ) :
    Held s i ↔ i ∈ s.live.map (slot s.world.module) := by
  rw [List.mem_map]
  constructor
  · rintro ⟨hnd, hhnd, -, hoffset⟩
    refine ⟨hnd, hhnd, ?_⟩
    rw [slot, hoffset, Nat.mul_div_cancel _ h.screens.size_pos]
  · rintro ⟨hnd, hhnd, rfl⟩
    refine ⟨hnd, hhnd, ?_, (h.handles hnd hhnd).offset⟩
    rw [(h.handles hnd hhnd).flags]
    decide

theorem Serving.slotsKept {s : Session} {start : Address} (h : Serving s start) :
    SlotsKept s := by
  obtain ⟨framebuffer, hframebuffer, hbase⟩ := h.mapped.framebuffer
  refine ⟨fun i => (h.bits i).trans (h.held_iff i).symm, ?_, fun hnd hhnd => ?_⟩
  · have hslots := List.pairwise_map.mp h.nodup
    refine hslots.imp_of_mem fun {hnd hnd'} hhnd hhnd' hne heq => hne ?_
    have haddress := congrArg (BitVec.setWidth 32) heq
    rw [(h.handles hnd hhnd).base, (h.handles hnd' hhnd').base, setWidth_signExtend,
      setWidth_signExtend] at haddress
    rw [slot, slot, BitVec.add_right_inj start |>.mp haddress]
  · obtain ⟨m, hm, haddress, hend, -⟩ := (h.handles hnd hhnd).address h.screens h.mapped
    have hstart : framebuffer.base.setWidth 32 = start := by rw [hbase, setWidth_signExtend]
    refine ⟨framebuffer, m, hframebuffer, ?_, ?_, ?_, ?_⟩
    · intro hzero
      apply h.mapped.start_ne
      rw [← hstart, hzero]
      rfl
    · rw [hstart]
      exact hm
    · rw [hstart, haddress]
      omega
    · rw [hstart, haddress]
      omega

section InUse
variable {s : Session} {start : Address}

theorem Serving.slot_lt (h : Serving s start) {i : ℕ}
    (hi : s.world.module.bufferMask.getLsbD i = true) : i < s.world.module.numBuffers.toNat := by
  obtain ⟨hnd, hhnd, rfl⟩ := List.mem_map.mp ((h.bits i).mp hi)
  exact (h.handles hnd hhnd).slot_lt

theorem Serving.full_iff (h : Serving s start) :
    (1#32 <<< s.world.module.numBuffers) - 1 ≤ s.world.module.bufferMask ↔ AllHeld s := by
  obtain ⟨framebuffer, hframebuffer, -⟩ := h.mapped.framebuffer
  rw [BitVec.shiftLeft_eq', SlotMasks.full_iff _ h.screens.lt_width fun i => h.slot_lt, AllHeld,
    and_iff_right (by simp [hframebuffer])]
  exact forall₂_congr fun i _ => (h.bits i).trans (h.held_iff i).symm

theorem Serving.exists_free (h : Serving s start) (hfree : ¬ AllHeld s) :
    ∃ i < s.world.module.numBuffers.toNat, s.world.module.bufferMask.getLsbD i = false := by
  obtain ⟨framebuffer, hframebuffer, -⟩ := h.mapped.framebuffer
  by_contra hnone
  refine hfree ⟨by simp [hframebuffer], fun i hi => ?_⟩
  rw [h.held_iff, ← h.bits]
  by_contra hclear
  exact hnone ⟨i, hi, by simpa using hclear⟩

theorem Serving.update (h : Serving s start) {w' : World} {live' : List PrivateHandle}
    {mask : BitVec 32} (hmappings : w'.mappings = s.world.mappings)
    (hmodule : w'.module = { s.world.module with bufferMask := mask })
    (hhandles : ∀ hnd ∈ live', IsSlot s.world.module start hnd)
    (hnodup : (live'.map (slot s.world.module)).Nodup)
    (hbits : ∀ i, mask.getLsbD i = true ↔ i ∈ live'.map (slot s.world.module)) :
    Serving ⟨w', live'⟩ start := by
  obtain ⟨⟨framebuffer, hframebuffer, hbase⟩, hstart, m, hm, hslots, hend⟩ := h.mapped
  obtain ⟨htwo, hle, hproduct, hpos, hfits⟩ := h.screens
  refine ⟨?_, ⟨?_, hstart, m, ?_, ?_, hend⟩, fun hnd hhnd => ?_, ?_, ?_⟩
  · rw [hmodule]
    exact ⟨htwo, hle, hproduct, hpos, hfits⟩
  · rw [hmodule]
    exact ⟨framebuffer, hframebuffer, hbase⟩
  · rw [hmappings]
    exact hm
  · rw [hmodule]
    exact hslots
  · obtain ⟨hmagic, hflags, haddress, hlt, hoffset⟩ := hhandles hnd hhnd
    rw [hmodule]
    exact ⟨hmagic, hflags, haddress, hlt, hoffset⟩
  · rw [hmodule]
    exact hnodup
  · rw [hmodule]
    exact hbits

theorem Serving.take (h : Serving s start) (hfree : ¬ AllHeld s) (fd : ℤ) (size : BitVec 32)
    {w' : World} (hmappings : w'.mappings = s.world.mappings)
    (hmodule : w'.module = { s.world.module with
      bufferMask :=
        if findSlot s.world.module.bufferMask s.world.module.numBuffers <
            s.world.module.numBuffers.toNat then
          s.world.module.bufferMask |||
            (1#32 <<< findSlot s.world.module.bufferMask s.world.module.numBuffers)
        else s.world.module.bufferMask }) :
    Serving ⟨w', s.live ++ [slotHandle s.world.module start fd size]⟩ start := by
  obtain ⟨i, hi, hclear⟩ := h.exists_free hfree
  obtain ⟨hslot, hclearSlot⟩ := findSlot_spec h.screens.le hi hclear
  obtain ⟨hisSlot, hnumber⟩ := slotHandle_isSlot h.screens start fd size hslot
  rw [if_pos hslot] at hmodule
  refine h.update hmappings hmodule (fun hnd hhnd => ?_) ?_ fun j => ?_
  · obtain hold | hnew := List.mem_append.mp hhnd
    · exact h.handles hnd hold
    · rw [List.mem_singleton.mp hnew]
      exact hisSlot
  · rw [List.map_append, List.map_singleton, hnumber, List.nodup_append]
    refine ⟨h.nodup, List.nodup_singleton _, fun j hj k hk hjk => ?_⟩
    rw [← h.bits, hjk, List.mem_singleton.mp hk, hclearSlot] at hj
    exact absurd hj (by decide)
  · have hlt := h.screens.le
    rw [getLsbD_take _ (by omega), Bool.or_eq_true, h.bits, decide_eq_true_iff, List.map_append,
      List.map_singleton, hnumber, List.mem_append, List.mem_singleton]

theorem Serving.index_iff (h : Serving s start) {hnd framebuffer : PrivateHandle}
    (hhnd : hnd ∈ s.live) (hframebuffer : s.world.module.framebuffer = some framebuffer) :
    (((hnd.base - framebuffer.base) / (s.world.module.finfo.lineLength *
      s.world.module.info.yres).setWidth 64).setWidth 32).toNat = slot s.world.module hnd ↔
        hnd.base.msb = framebuffer.base.msb ∨ bufferSize s.world.module ∣ 2 ^ 32 - 1 := by
  obtain ⟨framebuffer', hframebuffer', hbase⟩ := h.mapped.framebuffer
  obtain rfl : framebuffer = framebuffer' :=
    Option.some.inj (hframebuffer.symm.trans hframebuffer')
  have hisSlot := h.handles hnd hhnd
  have hproduct := h.screens.product
  obtain ⟨m, -, -, hinside, hend⟩ := hisSlot.address h.screens h.mapped
  have hpos := h.screens.size_pos
  have hnumber := slot_of_addresses_iff (v := 64) rfl start hnd.offset
    (s.world.module.finfo.lineLength * s.world.module.info.yres) (k := slot s.world.module hnd)
    (hproduct ▸ hpos) (by rw [hisSlot.offset, hproduct]) (by rw [hisSlot.offset]; omega)
  rw [hisSlot.base, hbase, hnumber, hproduct, msb_signExtend, msb_signExtend]

theorem map_eraseIdx {f : PrivateHandle → ℕ} {live : List PrivateHandle} {i : ℕ}
    {hnd : PrivateHandle} (hnodup : (live.map f).Nodup) (hhnd : live[i]? = some hnd) :
    (live.eraseIdx i).map f = (live.map f).erase (f hnd) := by
  obtain ⟨hi, rfl⟩ := List.getElem?_eq_some_iff.mp hhnd
  rw [← List.eraseIdx_map, ← hnodup.erase_getElem i (by simpa using hi), List.getElem_map]

theorem Serving.free (h : Serving s start) {i : ℕ} {hnd framebuffer : PrivateHandle}
    (hhnd : s.live[i]? = some hnd) (hframebuffer : s.world.module.framebuffer = some framebuffer) :
    (SlotsKept (step s (.free i)) ↔
      hnd.base.msb = framebuffer.base.msb ∨ bufferSize s.world.module ∣ 2 ^ 32 - 1) ∧
    (hnd.base.msb = framebuffer.base.msb ∨ bufferSize s.world.module ∣ 2 ^ 32 - 1 →
      Serving (step s (.free i)) start) := by
  have hmem : hnd ∈ s.live := List.mem_of_getElem? hhnd
  have hisSlot := h.handles hnd hmem
  have hsize : s.world.module.finfo.lineLength * s.world.module.info.yres ≠ 0 := by
    intro hzero
    have hproduct := h.screens.product
    have hpos := h.screens.size_pos
    rw [hzero] at hproduct
    simp at hproduct
    omega
  have hstep : step s (.free i) =
      ⟨(grallocFree s.world (some hnd)).2, s.live.eraseIdx i⟩ := by
    simp only [step, hhnd]
  obtain ⟨hmodule, hmappings⟩ := grallocFree_slot hisSlot.magic hisSlot.flags (w := s.world)
  rw [freeSlot_module hframebuffer hsize, BitVec.shiftLeft_eq'] at hmodule
  have hindex := h.index_iff hmem hframebuffer
  generalize BitVec.toNat _ = index at hmodule hindex
  rw [hstep, ← hindex]
  have hserving (hfound : index = slot s.world.module hnd) :
      Serving ⟨(grallocFree s.world (some hnd)).2, s.live.eraseIdx i⟩ start := by
    refine h.update hmappings hmodule (fun hnd' hhnd' => ?_) ?_ fun j => ?_
    · exact h.handles hnd' (List.mem_of_mem_eraseIdx hhnd')
    · rw [map_eraseIdx h.nodup hhnd]
      exact h.nodup.erase _
    · rw [getLsbD_release, Bool.and_eq_true, h.bits, map_eraseIdx h.nodup hhnd,
        h.nodup.mem_erase_iff, hfound]
      simp [and_comm]
  refine ⟨⟨fun hkept => ?_, fun hfound => (hserving hfound).slotsKept⟩, hserving⟩
  by_contra hlost
  -- the bit of the freed slot is still set, and no live handle has that slot
  have hset : (grallocFree s.world (some hnd)).2.module.bufferMask.getLsbD
      (slot s.world.module hnd) = true := by
    rw [hmodule, getLsbD_release, (h.bits _).mpr (List.mem_map_of_mem hmem)]
    simpa using fun heq => hlost heq.symm
  obtain ⟨hnd', hhnd', -, hoffset⟩ := (hkept.bits _).mp hset
  have hsame : slot s.world.module hnd' = slot s.world.module hnd := by
    rw [slot, hoffset, hmodule]
    exact Nat.mul_div_cancel _ h.screens.size_pos
  have hleft := List.mem_map_of_mem (f := slot s.world.module) hhnd'
  rw [hsame, map_eraseIdx h.nodup hhnd, h.nodup.mem_erase_iff] at hleft
  exact hleft.1 rfl

theorem Serving.alloc (h : Serving s start) (a : Answers) (size : BitVec 32) :
    (AllHeld s ∧
      grallocAllocFramebufferLocked s.world a size = (.failed (-enomem), s.world)) ∨
    (¬ AllHeld s ∧ ∃ hnd w',
      grallocAllocFramebufferLocked s.world a size = (⟨0, some hnd, none⟩, w') ∧
        Serving ⟨w', s.live ++ [hnd]⟩ start) := by
  obtain ⟨framebuffer, hframebuffer, hbase⟩ := h.mapped.framebuffer
  by_cases hall : AllHeld s
  · exact Or.inl ⟨hall, allocFramebuffer_full a size hframebuffer h.screens.numBuffers_ne_one
      h.screens.lt_width (h.full_iff.mpr hall)⟩
  · right
    have hfull := mt h.full_iff.mp hall
    obtain ⟨fd, w', hequation, hmappings, hmodule⟩ :=
      allocFramebuffer_takes a size hframebuffer h.screens.numBuffers_ne_one h.screens.lt_width hfull
    rw [hbase, setWidth_signExtend] at hequation
    exact ⟨hall, _, w', hequation, h.take hall fd size hmappings hmodule⟩

end InUse

/-! ### Runs -/

section Alloc
variable {s : Session} {a : Answers} {width height : BitVec 32} {format : PixelFormat}
  {usage : BitVec 32} {pHandle pStride : Bool} {forScreen : usage &&& grallocUsageHwFb ≠ 0}
  {driver : Driver a.framebuffer}

theorem step_refused (a : Answers) (width height : BitVec 32)
    (forScreen : usage &&& grallocUsageHwFb ≠ 0) (driver : Driver a.framebuffer)
    (h : ¬ Accepted format pHandle pStride) (hs : SlotsKept s) :
    step s (.alloc a width height format usage pHandle pStride forScreen driver) = s ∧
      Kept s (.alloc a width height format usage pHandle pStride forScreen driver) := by
  have hstep : step s (.alloc a width height format usage pHandle pStride forScreen driver) = s := by
    simp only [step, grallocAlloc_refused h, append_failed]
  refine ⟨hstep, ?_, ?_⟩
  · rw [hstep]
    exact hs
  · simp only [grallocAlloc_refused h]
    exact iff_of_false (by decide) (fun hall => h hall.1)

theorem step_accepted (s : Session) (a : Answers) (width height : BitVec 32)
    (forScreen : usage &&& grallocUsageHwFb ≠ 0) (driver : Driver a.framebuffer)
    (h : Accepted format pHandle pStride) :
    ∃ size, ∀ r w', grallocAllocFramebufferLocked s.world a size = (r, w') → r.code ≤ 0 →
      step s (.alloc a width height format usage pHandle pStride forScreen driver) =
          ⟨w', s.live ++ r.handle.toList⟩ ∧
        (Kept s (.alloc a width height format usage pHandle pStride forScreen driver) ↔
          SlotsKept ⟨w', s.live ++ r.handle.toList⟩ ∧ (r.code = -enomem ↔ AllHeld s)) := by
  obtain ⟨size, hsize⟩ := grallocAlloc_accepted s.world a width height h forScreen
  refine ⟨size, fun r w' hr hcode => ?_⟩
  obtain ⟨hcode', hhandle, hworld⟩ := hsize r w' hr hcode
  have hstep : step s (.alloc a width height format usage pHandle pStride forScreen driver) =
      ⟨w', s.live ++ r.handle.toList⟩ := by
    simp only [step, hhandle, hworld]
  refine ⟨hstep, ?_⟩
  rw [Kept, hstep]
  simp only [hcode']
  rw [and_iff_right h]

end Alloc

/-- The module is as it was loaded, or has a framebuffer that is not mapped, or is in use. -/
inductive Reached (s : Session) : Prop where
  | loaded (framebuffer : s.world.module.framebuffer = none)
    (numBuffers : s.world.module.numBuffers = 0) (bufferMask : s.world.module.bufferMask = 0)
    (live : s.live = [])
  | unmapped (framebuffer : ∃ fb, s.world.module.framebuffer = some fb ∧ fb.base = 0)
    (screens : Screens s.world.module) (bufferMask : s.world.module.bufferMask = 0)
    (live : s.live = [])
  | serving (start : Address) (serving : Serving s start)

theorem slotsKept_nil {w : World} {live : List PrivateHandle} (hmask : w.module.bufferMask = 0)
    (hlive : live = []) : SlotsKept ⟨w, live⟩ := by
  subst hlive
  refine ⟨fun i => ?_, List.Pairwise.nil, fun hnd hhnd => absurd hhnd List.not_mem_nil⟩
  simp [hmask, Held]

theorem Reached.slotsKept {s : Session} (h : Reached s) : SlotsKept s := by
  cases h with
  | loaded _ _ hmask hlive => exact slotsKept_nil hmask hlive
  | unmapped _ _ hmask hlive => exact slotsKept_nil hmask hlive
  | serving start h => exact h.slotsKept

theorem not_allHeld_of_nil {s : Session} (hslots : s.world.module.framebuffer ≠ none →
    0 < s.world.module.numBuffers.toNat) (hlive : s.live = []) : ¬ AllHeld s := by
  rintro ⟨hframebuffer, hall⟩
  obtain ⟨hnd, hhnd, -⟩ := hall 0 (hslots hframebuffer)
  rw [hlive] at hhnd
  exact absurd hhnd List.not_mem_nil

theorem serving_of_mapped {a : FramebufferAnswers} {w : World} {framebuffer : PrivateHandle}
    {start : Address} {m : Mapping} (hpublished : Published a w.module framebuffer)
    (hdriver : Driver a) (hbase : framebuffer.base = start.signExtend 64) (hstart : start ≠ 0)
    (hm : w.mappings.lookup start = some m) (hlength : m.length ≠ 0)
    (hsize : m.length =
      roundUpToPageSize (w.module.finfo.lineLength * w.module.info.yresVirtual))
    (hend : start.toNat + m.length.toNat ≤ 2 ^ 32) : Serving ⟨w, []⟩ start := by
  have hscreens := hpublished.screens hdriver
  rw [hsize] at hlength
  have hrounded := le_toNat_alignUp 12 rfl hlength
  refine ⟨hscreens, ⟨⟨framebuffer, hpublished.framebuffer, hbase⟩, hstart, m, hm, ?_, hend⟩,
    fun hnd hhnd => absurd hhnd List.not_mem_nil, List.nodup_nil, fun i => ?_⟩
  · rw [hsize]
    exact hscreens.fits.trans hrounded
  · simp [hpublished.bufferMask]

section Steps
variable {s : Session} {a : Answers} {width height : BitVec 32} {format : PixelFormat}
  {usage : BitVec 32} {pHandle pStride : Bool} {forScreen : usage &&& grallocUsageHwFb ≠ 0}
  {driver : Driver a.framebuffer}

theorem Serving.step_alloc {start : Address} (h : Serving s start) (a : Answers)
    (width height : BitVec 32) (forScreen : usage &&& grallocUsageHwFb ≠ 0)
    (driver : Driver a.framebuffer) (haccepted : Accepted format pHandle pStride) :
    Kept s (.alloc a width height format usage pHandle pStride forScreen driver) ∧
      Serving (step s (.alloc a width height format usage pHandle pStride forScreen driver))
        start := by
  obtain ⟨size, hsize⟩ := step_accepted s a width height forScreen driver haccepted
  obtain ⟨hall, hequation⟩ | ⟨hfree, hnd, w', hequation, hserving⟩ := h.alloc a size
  · obtain ⟨hstep, hkept⟩ := hsize _ _ hequation (by decide)
    rw [append_failed] at hstep hkept
    rw [hkept, hstep]
    exact ⟨⟨h.slotsKept, iff_of_true rfl hall⟩, h⟩
  · obtain ⟨hstep, hkept⟩ := hsize _ _ hequation (Int.le_refl 0)
    have hcode : (0 : ℤ) ≠ -enomem := by decide
    rw [hkept, hstep]
    exact ⟨⟨hserving.slotsKept, iff_of_false hcode hfree⟩, hserving⟩

theorem unmapped_step_alloc {framebuffer : PrivateHandle}
    (hframebuffer : s.world.module.framebuffer = some framebuffer) (hbase : framebuffer.base = 0)
    (hscreens : Screens s.world.module) (hmask : s.world.module.bufferMask = 0)
    (haccepted : Accepted format pHandle pStride) :
    ¬ Kept s (.alloc a width height format usage pHandle pStride forScreen driver) := by
  obtain ⟨size, hsize⟩ := step_accepted s a width height forScreen driver haccepted
  have htwo := hscreens.two_le
  have hfull : ¬ (1#32 <<< s.world.module.numBuffers) - 1 ≤ s.world.module.bufferMask := by
    rw [BitVec.shiftLeft_eq', SlotMasks.full_iff _ hscreens.lt_width (by simp [hmask]), hmask]
    exact fun hall => absurd (hall 0 (by omega)) (by simp)
  obtain ⟨fd, w', hequation, -, hmodule⟩ := allocFramebuffer_takes a size hframebuffer
    hscreens.numBuffers_ne_one hscreens.lt_width hfull
  obtain ⟨-, hkept⟩ := hsize _ _ hequation (Int.le_refl 0)
  rw [hkept]
  rintro ⟨hslots, -⟩
  obtain ⟨framebuffer', m, hframebuffer', hne, -⟩ :=
    hslots.inside (slotHandle s.world.module (framebuffer.base.setWidth 32) fd size)
      (List.mem_append_right _ (List.mem_singleton_self _))
  rw [hmodule] at hframebuffer'
  obtain rfl : framebuffer = framebuffer' :=
    Option.some.inj (hframebuffer.symm.trans hframebuffer')
  exact hne hbase

theorem loaded_step_alloc (hframebuffer : s.world.module.framebuffer = none)
    (hnumBuffers : s.world.module.numBuffers = 0) (hmask : s.world.module.bufferMask = 0)
    (hlive : s.live = []) (haccepted : Accepted format pHandle pStride) :
    (Kept s (.alloc a width height format usage pHandle pStride forScreen driver) ↔
      InitAnswers s.world a.framebuffer) ∧
    (InitAnswers s.world a.framebuffer →
      Reached (step s (.alloc a width height format usage pHandle pStride forScreen driver))) := by
  obtain ⟨size, hsize⟩ := step_accepted s a width height forScreen driver haccepted
  have hfree : ¬ AllHeld s := not_allHeld_of_nil (fun h => absurd hframebuffer h) hlive
  obtain ⟨code, w', hmap, hmodule, hcode, hanswers⟩ |
      ⟨e, w', framebuffer, hmap, hpublished, hbase, hanswers⟩ |
      ⟨w', framebuffer, start, m, hmap, hpublished, hbase, hstart, hm, hlength, hm', hend,
        hanswers⟩ := mapFrameBufferLocked_cases driver hframebuffer
  · have hkeep : SlotsKept ⟨w', s.live⟩ := slotsKept_nil (by rw [hmodule, hmask]) hlive
    have hreached : Reached ⟨w', s.live⟩ := by
      refine Reached.loaded ?_ ?_ ?_ hlive
      · rw [hmodule, hframebuffer]
      · rw [hmodule, hnumBuffers]
      · rw [hmodule, hmask]
    by_cases hzero : code = 0
    · subst hzero
      obtain ⟨-, hkept⟩ := hsize _ _
        (allocFramebuffer_init_nothing size hframebuffer hmap (by rw [hmodule, hnumBuffers]))
        (by decide)
      have hbad : ¬ InitAnswers s.world a.framebuffer := fun h => (hanswers.mp h).1 rfl
      refine ⟨iff_of_false ?_ hbad, fun h => absurd h hbad⟩
      rw [hkept]
      exact fun h => hfree (h.2.mp rfl)
    · have hneg : code < 0 := by omega
      obtain ⟨hstep, hkept⟩ := hsize _ _
        (allocFramebuffer_init_failed size hframebuffer hmap hneg) hcode
      rw [append_failed] at hstep hkept
      rw [hkept, hanswers, hstep]
      refine ⟨?_, fun _ => hreached⟩
      rw [and_iff_right hkeep, and_iff_right hzero, iff_false_right hfree]
      rfl
  · have hscreens := hpublished.screens driver
    have hneg : -(e : ℤ) < 0 := by
      have hpos := e.pos
      omega
    obtain ⟨hstep, hkept⟩ := hsize _ _
      (allocFramebuffer_init_failed size hframebuffer hmap hneg) hneg.le
    rw [append_failed] at hstep hkept
    rw [hkept, hanswers, hstep]
    refine ⟨?_, fun _ => Reached.unmapped ⟨framebuffer, hpublished.framebuffer, hbase⟩ hscreens
      hpublished.bufferMask hlive⟩
    rw [and_iff_right (slotsKept_nil hpublished.bufferMask hlive), iff_false_right hfree]
    exact not_congr neg_errno_eq_iff
  · have hserving := serving_of_mapped hpublished driver hbase hstart hm hlength hm' hend
    have hempty : ¬ AllHeld ⟨w', []⟩ :=
      not_allHeld_of_nil (fun _ => by have := hserving.screens.two_le; omega) rfl
    obtain ⟨hall, -⟩ | ⟨-, hnd, w'', hequation, hserving'⟩ := hserving.alloc a size
    · exact absurd hall hempty
    · rw [← allocFramebuffer_init size hframebuffer hmap (by simp [hpublished.framebuffer])]
        at hequation
      obtain ⟨hstep, hkept⟩ := hsize _ _ hequation (Int.le_refl 0)
      have hcode : (0 : ℤ) ≠ -enomem := by decide
      have hlive' : s.live ++ (some hnd).toList = [] ++ [hnd] := by
        rw [hlive]
        rfl
      rw [hkept, hstep, hlive']
      exact ⟨iff_of_true ⟨hserving'.slotsKept, iff_of_false hcode hfree⟩ hanswers,
        fun _ => Reached.serving start hserving'⟩

end Steps

theorem Reached.step_iff {s : Session} (h : Reached s) (c : Call) :
    (Kept s c ↔ StepSafe s c) ∧ (StepSafe s c → Reached (step s c)) := by
  cases c with
  | alloc a width height format usage pHandle pStride forScreen driver =>
    by_cases haccepted : Accepted format pHandle pStride
    · rw [StepSafe, forall_prop_of_true haccepted]
      cases h with
      | loaded hframebuffer hnumBuffers hmask hlive =>
        simp only [hframebuffer]
        exact loaded_step_alloc hframebuffer hnumBuffers hmask hlive haccepted
      | unmapped hframebuffer hscreens hmask hlive =>
        obtain ⟨framebuffer, hframebuffer, hbase⟩ := hframebuffer
        simp only [hframebuffer]
        exact ⟨iff_of_false (unmapped_step_alloc hframebuffer hbase hscreens hmask haccepted)
          (fun hne => hne hbase), fun hne => absurd hbase hne⟩
      | serving start h =>
        obtain ⟨framebuffer, hframebuffer, hbase⟩ := h.mapped.framebuffer
        obtain ⟨hkept, hserving⟩ := h.step_alloc a width height forScreen driver haccepted
        simp only [hframebuffer]
        refine ⟨iff_of_true hkept fun hzero => h.mapped.start_ne ?_,
          fun _ => Reached.serving start hserving⟩
        rw [← setWidth_signExtend start, ← hbase, hzero]
        rfl
    · obtain ⟨hstep, hkept⟩ := step_refused a width height forScreen driver haccepted h.slotsKept
      rw [hstep]
      exact ⟨iff_of_true hkept fun hyes => absurd hyes haccepted, fun _ => h⟩
  | free i =>
    cases hhnd : s.live[i]? with
    | none =>
      have hstep : step s (.free i) = s := by simp only [step, hhnd]
      have hsafe : StepSafe s (.free i) := fun hnd framebuffer hsome =>
        absurd (hhnd.symm.trans hsome) (by simp)
      rw [Kept, hstep]
      exact ⟨iff_of_true ⟨h.slotsKept, trivial⟩ hsafe, fun _ => h⟩
    | some hnd =>
      cases h with
      | loaded _ _ _ hlive => simp [hlive] at hhnd
      | unmapped _ _ _ hlive => simp [hlive] at hhnd
      | serving start h =>
        obtain ⟨framebuffer, hframebuffer, -⟩ := h.mapped.framebuffer
        obtain ⟨hkept, hserving⟩ := h.free hhnd hframebuffer
        have hsafe : StepSafe s (.free i) ↔
            hnd.base.msb = framebuffer.base.msb ∨ bufferSize s.world.module ∣ 2 ^ 32 - 1 := by
          constructor
          · intro hall
            exact hall hnd framebuffer hhnd hframebuffer
          · intro hfound hnd' framebuffer' hhnd' hframebuffer'
            obtain rfl := Option.some.inj (hhnd.symm.trans hhnd')
            obtain rfl := Option.some.inj (hframebuffer.symm.trans hframebuffer')
            exact hfound
        rw [hsafe, ← hkept, Kept, and_true]
        exact ⟨Iff.rfl, fun h => Reached.serving start (hserving (hkept.mp h))⟩

/-- In every run from the loaded module, the slots are kept and `ENOMEM` is exact at all steps
    if and only if all steps are safe. -/
theorem slots_kept_iff (w : World) (calls : List Call) :
    Along step Kept ⟨load w, []⟩ calls ↔ Along step StepSafe ⟨load w, []⟩ calls :=
  along_congr step Reached Kept StepSafe (fun _ c h => (h.step_iff c).2)
    (fun _ c h => (h.step_iff c).1) ⟨load w, []⟩ calls (Reached.loaded rfl rfl rfl rfl)

def unmappable : Answers :=
  { granted with
    framebuffer :=
      ⟨.ok 3, .error emfile, .ok ⟨4096#32, 8192#32⟩, .ok ⟨1#32, 1#32, 0#32⟩, fun info => .ok info,
        .ok ⟨1#32, 2#32, 0#32⟩, .ok ⟨4096#32, 8192#32⟩, 0, .ok 4, .error einval⟩
    dup := .ok 5 }

theorem unmappable_driver : Driver unmappable.framebuffer := by
  intro info finfo hinfo hfinfo
  obtain rfl := Except.ok.inj hinfo
  obtain rfl := Except.ok.inj hfinfo
  decide

def unmappableCall : Call :=
  .alloc unmappable 1 1 .rgba8888 grallocUsageHwFb true true (by decide) unmappable_driver

theorem slot_of_unmapped_framebuffer :
    (run step ⟨load loaded, []⟩ [unmappableCall, unmappableCall]).live.map (·.base) = [0] ∧
      (run step ⟨load loaded, []⟩ [unmappableCall, unmappableCall]).world.mappings.entries = [] ∧
        ¬ Along step Kept ⟨load loaded, []⟩ [unmappableCall, unmappableCall] := by
  have hbase : (run step ⟨load loaded, []⟩ [unmappableCall, unmappableCall]).live.map (·.base) =
      [0] := by decide +kernel
  have hmappings : (run step ⟨load loaded, []⟩
      [unmappableCall, unmappableCall]).world.mappings.entries = [] := by decide +kernel
  refine ⟨hbase, hmappings, fun hkept => ?_⟩
  have hslots : SlotsKept (run step ⟨load loaded, []⟩ [unmappableCall, unmappableCall]) :=
    hkept.2.1.1
  generalize run step ⟨load loaded, []⟩ [unmappableCall, unmappableCall] = s
    at hbase hmappings hslots
  obtain ⟨hnd, live, hlive⟩ : ∃ hnd live, s.live = hnd :: live := by
    cases hs : s.live with
    | nil => simp [hs] at hbase
    | cons hnd live => exact ⟨hnd, live, rfl⟩
  obtain ⟨framebuffer, m, -, -, hm, -⟩ := hslots.inside hnd (by simp [hlive])
  have hentry := AList.mem_lookup_iff.mp hm
  rw [hmappings] at hentry
  exact absurd hentry List.not_mem_nil

end Shashlik.GrallocSlots
