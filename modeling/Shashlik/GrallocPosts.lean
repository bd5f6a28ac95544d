import Shashlik.GrallocRuns

set_option autoImplicit false

/-!
# Posting a buffer for the screen

A slot of a framebuffer with several screens is shown by panning to it, and a buffer of its own
is copied to a framebuffer with one. The rows of the one and the bytes of the other were computed
by the allocation, and the bounds by the initialisation.
-/
namespace Shashlik.GrallocPosts
open SystemRuns AlignedSizes SlotMasks Gralloc Gralloc.World GrallocGeometry GrallocFramebuffer
  GrallocEffects GrallocRuns

/-- What the driver is trusted with: no screen is empty, there are at least one and at most 31 of
    them, and their bytes fit the address space. -/
def DisplayDriver (a : FramebufferAnswers) : Prop :=
  ∀ info finfo, a.varScreeninfoAgain = .ok info → a.fixScreeninfoAgain = .ok finfo →
    0 < finfo.lineLength.toNat * info.yres.toNat ∧
      info.yres.toNat ≤ info.yresVirtual.toNat ∧
        info.yresVirtual.toNat / info.yres.toNat ≤ 31 ∧
          finfo.lineLength.toNat * info.yresVirtual.toNat < 2 ^ 32

/-- The driver shows other rows when it is asked to, but keeps its sizes. -/
def KeepsSizes (putVscreeninfo : VarScreeninfo → Answer VarScreeninfo) : Prop :=
  ∀ info granted, putVscreeninfo info = .ok granted →
    granted.yres = info.yres ∧ granted.yresVirtual = info.yresVirtual

def DriverTrusted : Event → Prop
  | .alloc a _ _ _ _ _ _ => DisplayDriver a.framebuffer
  | .openFramebuffer a => DisplayDriver a
  | .post _ putVscreeninfo => KeepsSizes putVscreeninfo
  | .free _ => True

structure TrustedEvent where
  event : Event
  trusted : DriverTrusted event

/-- The frees come back here also from a null pool, so that slots can be given back. -/
def runTrusted (w : World) (es : List TrustedEvent) : State :=
  run act (start w) (es.map TrustedEvent.event)

/-- The mapping is there, and the bytes from its start lie in it. -/
def Covers (w : World) (base : BitVec 64) (m : Mapping) (length : BitVec 32) : Prop :=
  base ≠ 0 ∧ w.mappings.lookup (base.setWidth 32) = some m ∧ length.toNat ≤ m.length.toNat

/-- The post pans to the rows of the buffer's slot, which are rows of the framebuffer, or copies
    one screen from the buffer's own memory to the mapped framebuffer. -/
def PostInBounds (s : State) (b : Buffer)
    (putVscreeninfo : VarScreeninfo → Answer VarScreeninfo) : Prop :=
  match (fbPost s.world putVscreeninfo (some b.handle)).2.1 with
  | none => False
  | some (.pan yoffset) => s.world.module.numBuffers ≠ 1 ∧
      yoffset.toNat = slot s.world.module b.handle * s.world.module.info.yres.toNat ∧
        yoffset.toNat + s.world.module.info.yres.toNat ≤ s.world.module.info.yresVirtual.toNat
  | some (.copy dst src length) => s.world.module.numBuffers = 1 ∧
      length.toNat = bufferSize s.world.module ∧
        Covers s.world src ⟨b.handle.size, b.handle.fd⟩ length ∧
          ∃ m, Covers s.world dst m length ∧ s.world.files.lookup m.fd = some .framebuffer

/-- The one screen to which buffers are copied is mapped. -/
def CopiesReach (s : State) : Prop :=
  s.world.module.numBuffers = 1 → ∀ framebuffer, s.world.module.framebuffer = some framebuffer →
    framebuffer.base = 0 → ∀ b ∈ s.live, ¬ ForScreen b.usage

/-! ### The sizes of the driver -/

structure Sized (m : PrivateModule) : Prop where
  pos : 0 < bufferSize m
  numBuffers : m.numBuffers.toNat = m.info.yresVirtual.toNat / m.info.yres.toNat
  yres_le : m.info.yres.toNat ≤ m.info.yresVirtual.toNat
  le : m.numBuffers.toNat ≤ 31
  fits : m.finfo.lineLength.toNat * m.info.yresVirtual.toNat < 2 ^ 32

theorem sized_publishedModule {a : FramebufferAnswers} (driver : DisplayDriver a)
    {flags : BitVec 32} {info : VarScreeninfo} {finfo : FixScreeninfo}
    (hread : readScreeninfo a = .ok (flags, info, finfo)) (m : PrivateModule)
    (framebuffer : PrivateHandle) : Sized (publishedModule m framebuffer flags info finfo) := by
  obtain ⟨hinfo, hfinfo⟩ := readScreeninfo_ok hread
  obtain ⟨hpos, hle, hscreens, hfits⟩ := driver info finfo hinfo hfinfo
  have hnumBuffers : (info.yresVirtual / info.yres).toNat =
      info.yresVirtual.toNat / info.yres.toNat := BitVec.toNat_udiv
  exact ⟨hpos, hnumBuffers, hle, hnumBuffers.trans_le hscreens, hfits⟩

structure SameSizes (m m' : PrivateModule) : Prop extends SameScreen m m' where
  yres : m'.info.yres = m.info.yres
  yresVirtual : m'.info.yresVirtual = m.info.yresVirtual

theorem SameSizes.of_mask {m m' : PrivateModule} {mask : BitVec 32}
    (h : m' = { m with bufferMask := mask }) : SameSizes m m' := by
  refine ⟨.of_mask h, ?_, ?_⟩ <;> rw [h]

theorem sameSizes_posts {w : World} {hnd : PrivateHandle}
    {putVscreeninfo : VarScreeninfo → Answer VarScreeninfo} (trusted : KeepsSizes putVscreeninfo)
    {r : ℤ × Option Display × World} (h : Posts w hnd putVscreeninfo r) :
    SameSizes w.module r.2.2.module := by
  have hsame := sameScreen_posts h
  cases h with
  | lost _ => exact ⟨hsame, rfl, rfl⟩
  | divided framebuffer _ _ _ => exact ⟨hsame, rfl, rfl⟩
  | refused e framebuffer _ _ _ _ => exact ⟨hsame, rfl, rfl⟩
  | shown granted framebuffer _ _ _ hanswer =>
    obtain ⟨hyres, hyresVirtual⟩ := trusted _ granted hanswer
    exact ⟨hsame, hyres, hyresVirtual⟩
  | copied framebuffer _ _ => exact ⟨hsame, rfl, rfl⟩

theorem Sized.same {m m' : PrivateModule} (h : Sized m) (same : SameSizes m m') : Sized m' := by
  obtain ⟨hpos, hnumBuffers, hyres, hle, hfits⟩ := h
  refine ⟨?_, ?_, ?_, ?_, ?_⟩
  · rw [bufferSize, same.finfo, same.yres]
    exact hpos
  · rw [same.numBuffers, same.yres, same.yresVirtual]
    exact hnumBuffers
  · rw [same.yres, same.yresVirtual]
    exact hyres
  · rw [same.numBuffers]
    exact hle
  · rw [same.finfo, same.yresVirtual]
    exact hfits

theorem Sized.rows_le {m : PrivateModule} (h : Sized m) :
    m.numBuffers.toNat * m.info.yres.toNat ≤ m.info.yresVirtual.toNat := by
  rw [h.numBuffers]
  exact Nat.div_mul_le_self _ _

theorem Sized.bufferSize_le {m : PrivateModule} (h : Sized m) :
    bufferSize m ≤ m.finfo.lineLength.toNat * m.info.yresVirtual.toNat :=
  Nat.mul_le_mul_left _ h.yres_le

theorem Sized.product {m : PrivateModule} (h : Sized m) :
    (m.finfo.lineLength * m.info.yres).toNat = bufferSize m := by
  rw [BitVec.toNat_mul]
  exact Nat.mod_eq_of_lt (h.bufferSize_le.trans_lt h.fits)

theorem Sized.lineLength_pos {m : PrivateModule} (h : Sized m) : 0 < m.finfo.lineLength.toNat :=
  Nat.pos_of_mul_pos_right h.pos

theorem Sized.screens {m : PrivateModule} (h : Sized m) (hmany : m.numBuffers ≠ 1) :
    Screens m := by
  have hyres : 0 < m.info.yres.toNat := Nat.pos_of_mul_pos_left h.pos
  have hone : 1 ≤ m.numBuffers.toNat := by
    rw [h.numBuffers]
    exact (Nat.one_le_div_iff hyres).mpr h.yres_le
  have hne : m.numBuffers.toNat ≠ 1 := fun he => hmany (BitVec.eq_of_toNat_eq he)
  refine ⟨by omega, h.le, h.product, h.pos, ?_⟩
  rw [BitVec.toNat_mul, Nat.mod_eq_of_lt h.fits, bufferSize, Nat.mul_left_comm]
  exact Nat.mul_le_mul_left _ h.rows_le

/-! ### The slots of the live buffers -/

/-- The slots that are taken, by the mask or by a live buffer, are slots of the framebuffer, and
    the other buffers for the screen and the framebuffer have the sizes of the driver. -/
structure SlotsFit (m : PrivateModule) (live : List Buffer) : Prop where
  sized : Sized m
  mask : ∀ i, m.bufferMask.getLsbD i = true → i < m.numBuffers.toNat
  slots : ∀ b ∈ live, IsSlotHandle b.handle → slot m b.handle < m.numBuffers.toNat ∧
    b.handle.offset.toNat = slot m b.handle * bufferSize m
  own : ∀ b ∈ live, ForScreen b.usage → ¬ IsSlotHandle b.handle →
    b.handle.size = roundUpToPageSize (m.finfo.lineLength * m.info.yres)
  screen : ∀ framebuffer, m.framebuffer = some framebuffer → framebuffer.base ≠ 0 →
    framebuffer.size = fbSize m.info m.finfo

theorem SlotsFit.same {m m' : PrivateModule} {live live' : List Buffer} (h : SlotsFit m live)
    (same : SameSizes m m') (mask : ∀ i, m'.bufferMask.getLsbD i = true → i < m.numBuffers.toNat)
    (slots : ∀ b ∈ live', IsSlotHandle b.handle → slot m b.handle < m.numBuffers.toNat ∧
      b.handle.offset.toNat = slot m b.handle * bufferSize m)
    (own : ∀ b ∈ live', ForScreen b.usage → ¬ IsSlotHandle b.handle →
      b.handle.size = roundUpToPageSize (m.finfo.lineLength * m.info.yres)) :
    SlotsFit m' live' := by
  have hsize : bufferSize m' = bufferSize m := by rw [bufferSize, bufferSize, same.finfo, same.yres]
  refine ⟨h.sized.same same, ?_, fun b hb hslot => ?_, ?_, fun framebuffer hpublished => ?_⟩
  · rw [same.numBuffers]
    exact mask
  · rw [slot, hsize, same.numBuffers]
    exact slots b hb hslot
  · rw [same.finfo, same.yres]
    exact own
  · rw [fbSize, same.finfo, same.yresVirtual]
    exact h.screen framebuffer (same.framebuffer.symm.trans hpublished)

theorem SlotsFit.findSlot_lt {m : PrivateModule} {live : List Buffer} (h : SlotsFit m live)
    (hfree : ¬ Full m) : findSlot m.bufferMask m.numBuffers < m.numBuffers.toNat := by
  have hlt : m.numBuffers.toNat < 32 := h.sized.le.trans_lt (by decide)
  rw [Full, BitVec.shiftLeft_eq', full_iff _ hlt h.mask] at hfree
  push Not at hfree
  obtain ⟨i, hi, hclear⟩ := hfree
  exact (findSlot_spec h.sized.le hi (by simpa using hclear)).1

theorem SlotsFit.takes {w w' : World} {live : List Buffer} {size : BitVec 32} {r : Outcome}
    (h : SlotsFit w.module live) (takes : Takes w size r w') (serial : ℕ) (usage : BitVec 32) :
    SlotsFit w'.module (live ++ r.handle.toList.map (fun hnd => ⟨serial, hnd, usage⟩)) := by
  cases takes with
  | failed e w' hmodule _ _ _ =>
    rw [hmodule]
    simpa [Outcome.failed] using h
  | shifted _ _ => simpa [Outcome.failed, World.fault] using h
  | lost _ _ _ => simpa [Outcome.failed, World.fault] using h
  | own hnd w' _ hmodule _ _ _ hflags _ hsize _ =>
    have hslot : ¬ IsSlotHandle hnd := not_not.mpr hflags
    rw [hmodule]
    refine ⟨h.sized, h.mask, fun b hb hb' => ?_, fun b hb hscreen hb' => ?_, h.screen⟩
    · obtain hold | hnew := List.mem_append.mp hb
      · exact h.slots b hold hb'
      · obtain rfl : b = ⟨serial, hnd, usage⟩ := List.mem_singleton.mp hnew
        exact absurd hb' hslot
    · obtain hold | hnew := List.mem_append.mp hb
      · exact h.own b hold hscreen hb'
      · obtain rfl : b = ⟨serial, hnd, usage⟩ := List.mem_singleton.mp hnew
        exact hsize
  | slot framebuffer fd w' _ hmany _ hfree hmodule _ _ _ _ =>
    have hlt := h.findSlot_lt hfree
    have hword : findSlot w.module.bufferMask w.module.numBuffers < 32 :=
      hlt.trans_le (h.sized.le.trans (by decide))
    obtain ⟨hisSlot, hnumber⟩ := slotHandle_isSlot (h.sized.screens hmany)
      (framebuffer.base.setWidth 32) fd size hlt
    refine h.same (.of_mask hmodule) (fun i hi => ?_) (fun b hb hb' => ?_)
      fun b hb hscreen hb' => ?_
    · rw [hmodule, takenMask, if_pos hlt, getLsbD_take _ hword, Bool.or_eq_true,
        decide_eq_true_iff] at hi
      obtain hold | rfl := hi
      · exact h.mask i hold
      · exact hlt
    · obtain hold | hnew := List.mem_append.mp hb
      · exact h.slots b hold hb'
      · obtain rfl := List.mem_singleton.mp hnew
        exact ⟨hisSlot.slot_lt, hisSlot.offset⟩
    · obtain hold | hnew := List.mem_append.mp hb
      · exact h.own b hold hscreen hb'
      · obtain rfl := List.mem_singleton.mp hnew
        exact absurd (slotHandle_flags _ _ _ _) hb'

def Fits (s : State) : Prop := s.world.module.framebuffer ≠ none → SlotsFit s.world.module s.live

theorem fits_initialise {s : State} (h : Consistent s) {a : FramebufferAnswers}
    (driver : DisplayDriver a) {code : Option ℤ} {w' : World} (hnone : s.world.module.framebuffer = none)
    (hinit : Initialises s.world a code w') : Fits { s with world := w' } := by
  have hlive := (h.absent hnone).live
  have hpublished {framebuffer : PrivateHandle} {flags : BitVec 32} {info : VarScreeninfo}
      {finfo : FixScreeninfo} (hread : readScreeninfo a = .ok (flags, info, finfo))
      (hmodule : w'.module = publishedModule s.world.module framebuffer flags info finfo)
      (hsize : framebuffer.base ≠ 0 → framebuffer.size = fbSize info finfo) :
      SlotsFit w'.module s.live := by
    rw [hmodule]
    refine ⟨sized_publishedModule driver hread _ _, fun i hi => ?_, fun b hb hslot => ?_,
      fun b hb hscreen => absurd hscreen (hlive b hb), fun framebuffer' hpublished => ?_⟩
    · simp [publishedModule] at hi
    · exact absurd hslot ((h.present b hb).shared (hlive b hb)).1
    · obtain rfl : framebuffer = framebuffer' := Option.some.inj hpublished
      exact hsize
  intro hsome
  cases hinit with
  | absent code w' _ hmodule _ _ _ _ =>
    simp only [hmodule] at hsome
    exact absurd hnone hsome
  | divided w' framebuffer flags info finfo hanswered hyres _ _ _ _ _ _ =>
    obtain ⟨hinfo, hfinfo⟩ := readScreeninfo_ok hanswered.2
    have hpos := (driver info finfo hinfo hfinfo).1
    simp [hyres] at hpos
  | unmapped e w' framebuffer flags info finfo hanswered _ hmodule _ hbase _ _ _ =>
    exact hpublished hanswered.2 hmodule fun hne => absurd hbase hne
  | mapped w' framebuffer flags info finfo start fd hanswered _ hmodule _ _ _ hsize _ _ _ _ _ _ _ _
      _ _ =>
    exact hpublished hanswered.2 hmodule fun _ => hsize

theorem Fits.allocates {s : State} (h : Consistent s) (fits : Fits s) {a : Answers}
    (driver : DisplayDriver a.framebuffer) {width height : BitVec 32} {format : PixelFormat}
    {usage : BitVec 32} {pHandle pStride : Bool} {r : Outcome} {w' : World}
    (allocates : Allocates s.world a width height format usage pHandle pStride r w') :
    Fits (s.allocated usage r w') := by
  cases allocates with
  | refused _ =>
    rw [allocated_failed rfl]
    exact fits
  | shared bpp wlBufferFormat r w' _ _ hclient hshare =>
    obtain ⟨-, hmodule, hdelivered⟩ := shareBuffer_effects hshare
    intro hsome
    simp only [State.allocated, hmodule] at hsome ⊢
    refine ⟨(fits hsome).sized, (fits hsome).mask, fun b hb hslot => ?_,
      fun b hb hscreen hslot => ?_, (fits hsome).screen⟩
    · obtain hold | hnew := List.mem_append.mp hb
      · exact (fits hsome).slots b hold hslot
      · obtain ⟨hnd, hhnd, rfl⟩ := List.mem_map.mp hnew
        exact absurd (hdelivered hnd (Option.mem_toList.mp hhnd)).2.2.1 hslot
    · obtain hold | hnew := List.mem_append.mp hb
      · exact (fits hsome).own b hold hscreen hslot
      · obtain ⟨hnd, hhnd, rfl⟩ := List.mem_map.mp hnew
        exact absurd hclient hscreen
  | screen bpp wlBufferFormat r w' _ _ _ hallocates =>
    have hfits : Fits (s.allocated usage r w') := by
      cases hallocates with
      | failed code w' hnone hinit _ =>
        rw [allocated_failed rfl]
        exact fits_initialise h driver hnone (initialises_of_eq hnone hinit)
      | divided w' hnone hinit =>
        rw [allocated_failed rfl]
        exact fits_initialise h driver hnone (initialises_of_eq hnone hinit)
      | first code w₁ r w' hnone hinit _ htakes =>
        intro hsome
        have hinitialised := fits_initialise h driver hnone (initialises_of_eq hnone hinit)
        obtain ⟨mask, hmodule⟩ := takes_module htakes
        have hsome₁ : w₁.module.framebuffer ≠ none := by
          simpa only [State.allocated, hmodule] using hsome
        exact (hinitialised hsome₁).takes htakes s.nextSerial usage
      | again r w' hsome htakes => exact fun _ => (fits hsome).takes htakes s.nextSerial usage
    split
    · exact hfits
    · exact hfits

theorem Fits.act {s : State} (h : Consistent s) (fits : Fits s) (e : Event)
    (trusted : DriverTrusted e) : Fits (act s e) := by
  cases e with
  | alloc a width height format usage pHandle pStride =>
    rw [act_alloc]
    exact fits.allocates h trusted (grallocAlloc_allocates _ _ _ _ _ _ _ _)
  | free i =>
    cases hi : s.live[i]? with
    | none =>
      rw [act_free_none hi]
      exact fits
    | some b =>
      have hmagic := (h.present b (List.mem_of_getElem? hi)).magic
      obtain ⟨kept, hmodule⟩ := (grallocFree_frees s.world hmagic).2.module
      rw [act_free hi]
      intro hsome
      simp only [hmodule] at hsome
      refine (fits hsome).same (.of_mask hmodule) (fun j hj => ?_)
        (fun b' hb' => (fits hsome).slots b' (List.mem_of_mem_eraseIdx hb'))
        fun b' hb' => (fits hsome).own b' (List.mem_of_mem_eraseIdx hb')
      -- a free only clears bits of the mask
      rw [hmodule, BitVec.getLsbD_and, Bool.and_eq_true] at hj
      exact (fits hsome).mask j hj.1
  | openFramebuffer a =>
    by_cases hnone : s.world.module.framebuffer = none
    · exact fits_initialise h trusted hnone (mapFrameBufferLocked_initialises s.world a hnone)
    · rw [act_open_again a hnone]
      exact fits
  | post i putVscreeninfo =>
    cases hi : s.live[i]? with
    | none =>
      rw [act_post_none putVscreeninfo hi]
      exact fits
    | some b =>
      have hmagic := (h.present b (List.mem_of_getElem? hi)).magic
      have hposts := fbPost_posts s.world putVscreeninfo hmagic
      have hsame := sameSizes_posts trusted hposts
      rw [act_post putVscreeninfo hi]
      intro hsome
      simp only [hsame.framebuffer] at hsome
      refine (fits hsome).same hsame (fun j hj => (fits hsome).mask j ?_) (fits hsome).slots
        (fits hsome).own
      rw [posts_mask hposts] at hj
      exact hj

theorem consistent_runTrusted (w : World) (es : List TrustedEvent) :
    Consistent (runTrusted w es) ∧ Fits (runTrusted w es) := by
  refine run_invariant GrallocRuns.act (fun s => Consistent s ∧ Fits s)
    (fun _ e => DriverTrusted e) (fun s e h trusted => ⟨h.1.act e, h.2.act h.1 e trusted⟩)
    (start w) _ ⟨consistent_start w, ?_⟩ (along_of_forall _ DriverTrusted _ _ fun e he => ?_)
  · exact fun hsome => absurd rfl hsome
  · obtain ⟨e', -, rfl⟩ := List.mem_map.mp he
    exact e'.trusted

/-! ### Posts -/

theorem panRow_inside {s : State} (h : Consistent s) {b : Buffer} (hb : b ∈ s.live)
    (hslot : IsSlotHandle b.handle) (fits : SlotsFit s.world.module s.live)
    {framebuffer : PrivateHandle} (hpublished : s.world.module.framebuffer = some framebuffer) :
    (panRow s.world.module framebuffer b.handle).toNat =
        slot s.world.module b.handle * s.world.module.info.yres.toNat ∧
      (panRow s.world.module framebuffer b.handle).toNat + s.world.module.info.yres.toNat ≤
        s.world.module.info.yresVirtual.toNat := by
  obtain ⟨hlt, hoffset⟩ := fits.slots b hb hslot
  have hrow : (panRow s.world.module framebuffer b.handle).toNat =
      slot s.world.module b.handle * s.world.module.info.yres.toNat := by
    rw [panRow_toNat h hb hslot hpublished, hoffset, bufferSize, Nat.mul_left_comm,
      Nat.mul_div_cancel_left _ fits.sized.lineLength_pos]
  refine ⟨hrow, ?_⟩
  calc
    _ = (slot s.world.module b.handle + 1) * s.world.module.info.yres.toNat := by
      rw [hrow, Nat.succ_mul]
    _ ≤ s.world.module.numBuffers.toNat * s.world.module.info.yres.toNat :=
      Nat.mul_le_mul_right _ hlt
    _ ≤ s.world.module.info.yresVirtual.toNat := fits.sized.rows_le

theorem bufferSize_le_fbSize {m : PrivateModule} (h : Sized m) (hsize : fbSize m.info m.finfo ≠ 0) :
    bufferSize m ≤ (fbSize m.info m.finfo).toNat := by
  have hrounded : (m.finfo.lineLength * m.info.yresVirtual).toNat ≤ (fbSize m.info m.finfo).toNat :=
    le_toNat_alignUp 12 (by decide) hsize
  rw [BitVec.toNat_mul, Nat.mod_eq_of_lt h.fits] at hrounded
  exact h.bufferSize_le.trans hrounded

theorem covers_own {s : State} (h : Consistent s) (fits : SlotsFit s.world.module s.live)
    {b : Buffer} (hb : b ∈ s.live) (hscreen : ForScreen b.usage) (hslot : ¬ IsSlotHandle b.handle) :
    Covers s.world b.handle.base ⟨b.handle.size, b.handle.fd⟩
      (s.world.module.finfo.lineLength * s.world.module.info.yres) := by
  obtain ⟨hbase, hsize, hmapping⟩ := (h.present b hb).mapping hslot
  have hown := fits.own b hb hscreen hslot
  refine ⟨hbase, hmapping, ?_⟩
  rw [hown] at hsize
  rw [hown]
  exact le_toNat_alignUp 12 (by decide) hsize

theorem covers_framebuffer {s : State} (h : Consistent s) (fits : SlotsFit s.world.module s.live)
    {framebuffer : PrivateHandle} (hpublished : s.world.module.framebuffer = some framebuffer)
    (hbase : framebuffer.base ≠ 0) :
    ∃ m, Covers s.world framebuffer.base m
        (s.world.module.finfo.lineLength * s.world.module.info.yres) ∧
      s.world.files.lookup m.fd = some .framebuffer := by
  obtain ⟨fd, hmapped⟩ := (h.screen framebuffer hpublished).mapped hbase
  refine ⟨_, ⟨hbase, hmapped.mapping, ?_⟩, hmapped.device⟩
  have hsize := hmapped.size_ne
  rw [fits.screen framebuffer hpublished hbase] at hsize ⊢
  rw [fits.sized.product]
  exact bufferSize_le_fbSize fits.sized hsize

theorem postInBounds_iff {s : State} (h : Consistent s) (fits : SlotsFit s.world.module s.live)
    {framebuffer : PrivateHandle} (hpublished : s.world.module.framebuffer = some framebuffer)
    {b : Buffer} (hb : b ∈ s.live) (hscreen : ForScreen b.usage)
    (putVscreeninfo : VarScreeninfo → Answer VarScreeninfo) :
    PostInBounds s b putVscreeninfo ↔
      (s.world.module.numBuffers = 1 → framebuffer.base ≠ 0) := by
  have hslots := (h.screen framebuffer hpublished).slots b hb
  have hpan (hslot : IsSlotHandle b.handle) := panRow_inside h hb hslot fits hpublished
  have hposts := fbPost_posts s.world putVscreeninfo (h.present b hb).magic
  have hsame {framebuffer' : PrivateHandle}
      (hpublished' : s.world.module.framebuffer = some framebuffer') : framebuffer = framebuffer' :=
    Option.some.inj (hpublished.symm.trans hpublished')
  rw [PostInBounds]
  generalize fbPost s.world putVscreeninfo (some b.handle) = r at hposts ⊢
  cases hposts with
  | lost hnone => exact absurd (hnone.symm.trans hpublished) (by simp)
  | divided framebuffer' _ _ hline =>
    have hpos := fits.sized.lineLength_pos
    rw [hline] at hpos
    exact absurd hpos (by decide)
  | refused e framebuffer' hpublished' hslot _ _ =>
    obtain rfl := hsame hpublished'
    obtain ⟨hmany, -⟩ := hslots hslot
    exact iff_of_true ⟨hmany, hpan hslot⟩ fun hone => absurd hone hmany
  | shown granted framebuffer' hpublished' hslot _ _ =>
    obtain rfl := hsame hpublished'
    obtain ⟨hmany, -⟩ := hslots hslot
    exact iff_of_true ⟨hmany, hpan hslot⟩ fun hone => absurd hone hmany
  | copied framebuffer' hpublished' hflags =>
    obtain rfl := hsame hpublished'
    have hslot : ¬ IsSlotHandle b.handle := not_not.mpr hflags
    have hone := (h.screen framebuffer hpublished).own b hb hscreen hslot
    rw [forall_prop_of_true hone]
    constructor
    · rintro ⟨-, -, -, m, hcovers, -⟩
      exact hcovers.1
    · intro hbase
      exact ⟨hone, fits.sized.product, covers_own h fits hb hscreen hslot,
        covers_framebuffer h fits hpublished hbase⟩

/-- In every state of a run with a trusted driver, all posts of the live buffers for the screen
    stay in bounds exactly if the one screen to which they may be copied is mapped. -/
theorem posts_in_bounds_iff (w : World) (es : List TrustedEvent) :
    (∀ b ∈ (runTrusted w es).live, ForScreen b.usage → ∀ putVscreeninfo,
      PostInBounds (runTrusted w es) b putVscreeninfo) ↔ CopiesReach (runTrusted w es) := by
  obtain ⟨h, fits⟩ := consistent_runTrusted w es
  generalize runTrusted w es = s at h fits ⊢
  constructor
  · intro hposts hone framebuffer hpublished hbase b hb hscreen
    have hfits := fits (by rw [hpublished]; simp)
    have hpost := hposts b hb hscreen .ok
    rw [postInBounds_iff h hfits hpublished hb hscreen] at hpost
    exact hpost hone hbase
  · intro hreach b hb hscreen putVscreeninfo
    have hsome : s.world.module.framebuffer ≠ none := fun hnone =>
      (h.absent hnone).live b hb hscreen
    obtain ⟨framebuffer, hpublished⟩ := Option.ne_none_iff_exists'.mp hsome
    rw [postInBounds_iff h (fits hsome) hpublished hb hscreen]
    exact fun hone hbase => hreach hone framebuffer hpublished hbase b hb hscreen

def unmappedScreen : Answers :=
  { screenAnswers (.error einval) with
    framebuffer := { (screenAnswers (.error einval)).framebuffer with
      varScreeninfoAgain := .ok ⟨1#32, 1#32, 0#32⟩ }
    ashmem := .ok 20 }

theorem unmappedScreen_driver : DisplayDriver unmappedScreen.framebuffer := by
  intro info finfo hinfo hfinfo
  obtain rfl := Except.ok.inj hinfo
  obtain rfl := Except.ok.inj hfinfo
  decide

def unmappedTwice : List TrustedEvent :=
  [⟨allocScreen unmappedScreen, unmappedScreen_driver⟩,
    ⟨allocScreen unmappedScreen, unmappedScreen_driver⟩]

theorem copy_to_unmapped_screen :
    (runTrusted loaded unmappedTwice).live.map (fun b =>
        (fbPost (runTrusted loaded unmappedTwice).world .ok (some b.handle)).2.1) =
      [some (.copy 0 0x20000#64 4096#32)] ∧
    ¬ ∀ b ∈ (runTrusted loaded unmappedTwice).live, ForScreen b.usage → ∀ putVscreeninfo,
      PostInBounds (runTrusted loaded unmappedTwice) b putVscreeninfo := by
  refine ⟨by decide +kernel, fun hposts => ?_⟩
  obtain ⟨h, fits⟩ := consistent_runTrusted loaded unmappedTwice
  have hone : (runTrusted loaded unmappedTwice).world.module.numBuffers = 1 := by decide +kernel
  have hpublished : (runTrusted loaded unmappedTwice).world.module.framebuffer =
      some (PrivateHandle.new 11 4096#32 0 none none) := by decide +kernel
  have husages : (runTrusted loaded unmappedTwice).live.map (·.usage) = [grallocUsageHwFb] := by
    decide +kernel
  generalize runTrusted loaded unmappedTwice = s at hposts h fits hone hpublished husages
  obtain ⟨b, hb, husage⟩ : ∃ b ∈ s.live, b.usage = grallocUsageHwFb :=
    List.mem_map.mp (by rw [husages]; exact List.mem_singleton.mpr rfl)
  have hscreen : ForScreen b.usage := by
    rw [husage]
    decide
  have hbase := (postInBounds_iff h (fits (by rw [hpublished]; simp)) hpublished hb hscreen
    .ok).mp (hposts b hb hscreen .ok)
  exact hbase hone rfl

end Shashlik.GrallocPosts
