import Mathlib.Data.List.Pairwise
import Shashlik.GrallocEffects

set_option autoImplicit false

/-!
# Runs of the allocator

The allocator as its clients see it: buffers are allocated with any usage, freed and posted,
and the framebuffer is opened, in any order and with any answers of the system, until a call ends
the process. In every state of a run each live buffer still has what it was given, and nobody
else has it.
-/
namespace Shashlik.GrallocRuns
open SystemRuns Gralloc Gralloc.World GrallocGeometry GrallocBalance GrallocFramebuffer
  GrallocEffects

/-- A buffer that was returned and not yet freed, and the usage it was asked for. The program
    has no serials: they stand for the addresses of the handles. -/
structure Buffer where
  serial : ℕ
  handle : PrivateHandle
  usage : BitVec 32

structure State where
  world : World
  live : List Buffer
  nextSerial : ℕ
  /-- The buffer that `currentBuffer` points to. -/
  posted : Option ℕ

inductive Event where
  | alloc (a : Answers) (width height : BitVec 32) (format : PixelFormat) (usage : BitVec 32)
    (pHandle pStride : Bool)
  /-- Buffers are freed and posted by their place among the live ones. -/
  | free (i : ℕ)
  | openFramebuffer (a : FramebufferAnswers)
  | post (i : ℕ) (putVscreeninfo : VarScreeninfo → Answer VarScreeninfo)

def setsCurrent (code : ℤ) : Option Display → Bool
  | some (.pan _) => code = 0
  | _ => false

/-- What the event does; a call that does not return is followed past its fault. -/
def act (s : State) : Event → State
  | .alloc a width height format usage pHandle pStride =>
    let r := grallocAlloc s.world a width height format usage pHandle pStride
    { s with
      world := r.2
      live := s.live ++ r.1.handle.toList.map (fun hnd => ⟨s.nextSerial, hnd, usage⟩)
      nextSerial := s.nextSerial + 1 }
  | .free i =>
    match s.live[i]? with
    | none => s
    | some b =>
      { s with world := (grallocFree s.world (some b.handle)).2, live := s.live.eraseIdx i }
  | .openFramebuffer a => { s with world := (mapFrameBuffer s.world a).2 }
  | .post i putVscreeninfo =>
    match s.live[i]? with
    | none => s
    | some b =>
      let r := fbPost s.world putVscreeninfo (some b.handle)
      { s with
        world := r.2.2
        posted := if setsCurrent r.1 r.2.1 then some b.serial else s.posted }

def State.faulted (s : State) (faults : List Fault) : State :=
  { s with world := { s.world with faults := faults } }

/-- A fault ends the run: of the call in which it happens nothing else is seen, and after it there
    are no calls. -/
def step (s : State) (e : Event) : State :=
  if s.world.faults = [] then
    if (act s e).world.faults = [] then act s e else s.faulted (act s e).world.faults
  else s

/-- The module as the process loads it; whether `wl_shm` is there is left open. -/
def loadModule (w : World) : World :=
  { w with module := ⟨none, 0, 0, 0, none, w.module.shm, ⟨0, 0, 0⟩, ⟨0, 0⟩⟩, faults := [] }

def start (w : World) : State := ⟨loadModule w, [], 0, none⟩

def ForScreen (usage : BitVec 32) : Prop := usage &&& grallocUsageHwFb ≠ 0

instance (usage : BitVec 32) : Decidable (ForScreen usage) :=
  inferInstanceAs (Decidable (_ ≠ _))

def IsSlotHandle (hnd : PrivateHandle) : Prop := hnd.flags &&& privFlagsFramebuffer ≠ 0

instance (hnd : PrivateHandle) : Decidable (IsSlotHandle hnd) :=
  inferInstanceAs (Decidable (_ ≠ _))

/-! ### What the live buffers have -/

structure Present (w : World) (b : Buffer) : Prop where
  magic : b.handle.magic = sMagic
  fd : b.handle.fd < 0 ∨ b.handle.fd ∈ w.files
  mapping : ¬ IsSlotHandle b.handle → b.handle.base ≠ 0 ∧ b.handle.size ≠ 0 ∧
    w.mappings.lookup (b.handle.base.setWidth 32) = some ⟨b.handle.size, b.handle.fd⟩
  pool : ∀ p, b.handle.pool = some p → ∃ size, w.pools.lookup p = some ⟨b.handle.fd, size⟩
  shared : ¬ ForScreen b.usage →
    ¬ IsSlotHandle b.handle ∧ 0 ≤ b.handle.fd ∧ b.handle.pool ≠ none
  screen : ForScreen b.usage → b.handle.pool = none

structure Apart (b b' : Buffer) : Prop where
  serial : b.serial ≠ b'.serial
  fd : 0 ≤ b.handle.fd → b.handle.fd ≠ b'.handle.fd
  base : ¬ IsSlotHandle b.handle → ¬ IsSlotHandle b'.handle →
    b.handle.base.setWidth 32 ≠ b'.handle.base.setWidth 32
  pool : ∀ p, b.handle.pool = some p → b'.handle.pool ≠ some p

theorem Apart.symm {b b' : Buffer} (h : Apart b b') : Apart b' b := by
  refine ⟨h.serial.symm, fun hfd he => ?_, fun hb' hb he => h.base hb hb' he.symm, ?_⟩
  · exact h.fd (he ▸ hfd) he.symm
  · exact fun p hp' hp => h.pool p hp hp'

/-- The memory of the framebuffer, which is mapped once and for all. -/
structure ScreenMapped (w : World) (live : List Buffer) (framebuffer : PrivateHandle)
    (fd : ℤ) : Prop where
  size_ne : framebuffer.size ≠ 0
  mapping : w.mappings.lookup (framebuffer.base.setWidth 32) = some ⟨framebuffer.size, fd⟩
  end_le : (framebuffer.base.setWidth 32).toNat + framebuffer.size.toNat ≤ 2 ^ 32
  device : w.files.lookup fd = some .framebuffer
  fd_nonneg : 0 ≤ fd
  apart : ∀ b ∈ live, b.handle.fd ≠ fd ∧ (¬ IsSlotHandle b.handle →
    b.handle.base.setWidth 32 ≠ framebuffer.base.setWidth 32)

/-- The framebuffer as it was published, and the buffers for the screen. -/
structure Screen (w : World) (live : List Buffer) (framebuffer : PrivateHandle) : Prop where
  fd : framebuffer.fd < 0 ∨ framebuffer.fd ∈ w.files
  fdApart : 0 ≤ framebuffer.fd → ∀ b ∈ live, b.handle.fd ≠ framebuffer.fd
  base : framebuffer.base = (framebuffer.base.setWidth 32).signExtend 64
  mapped : framebuffer.base ≠ 0 → ∃ fd, ScreenMapped w live framebuffer fd
  slots : ∀ b ∈ live, IsSlotHandle b.handle → w.module.numBuffers ≠ 1 ∧
    b.handle.base = (framebuffer.base.setWidth 32 + b.handle.offset).signExtend 64
  own : ∀ b ∈ live, ForScreen b.usage → ¬ IsSlotHandle b.handle → w.module.numBuffers = 1

/-- As long as there is no framebuffer, nothing was made for the screen. -/
structure Absent (w : World) (live : List Buffer) : Prop where
  numBuffers : w.module.numBuffers = 0
  currentBuffer : w.module.currentBuffer = none
  live : ∀ b ∈ live, ¬ ForScreen b.usage

structure Consistent (s : State) : Prop where
  present : ∀ b ∈ s.live, Present s.world b
  apart : s.live.Pairwise Apart
  serial : ∀ b ∈ s.live, b.serial < s.nextSerial
  absent : s.world.module.framebuffer = none → Absent s.world s.live
  screen : ∀ framebuffer, s.world.module.framebuffer = some framebuffer →
    Screen s.world s.live framebuffer

theorem consistent_start (w : World) : Consistent (start w) where
  present b hb := absurd hb List.not_mem_nil
  apart := List.Pairwise.nil
  serial b hb := absurd hb List.not_mem_nil
  absent _ := ⟨rfl, rfl, fun b hb => absurd hb List.not_mem_nil⟩
  screen framebuffer h := absurd h (by simp [start, loadModule])

/-! ### Growing worlds -/

theorem Present.extends {w w' : World} {b : Buffer} (h : Present w b) (held : Extends w w') :
    Present w' b := by
  refine ⟨h.magic, h.fd.imp_right held.mem_files, fun hslot => ?_, fun p hp => ?_, h.shared,
    h.screen⟩
  · obtain ⟨hbase, hsize, hlookup⟩ := h.mapping hslot
    exact ⟨hbase, hsize, held.mappings _ _ hsize hlookup⟩
  · obtain ⟨size, hpool⟩ := h.pool p hp
    exact ⟨size, held.pools _ _ hpool⟩

/-- What the module keeps of its screen: the mask, `currentBuffer` and the information that a
    driver gives back may differ. -/
structure SameScreen (m m' : PrivateModule) : Prop where
  framebuffer : m'.framebuffer = m.framebuffer
  numBuffers : m'.numBuffers = m.numBuffers
  finfo : m'.finfo = m.finfo

theorem SameScreen.of_eq {m m' : PrivateModule} (h : m' = m) : SameScreen m m' := by
  rw [h]
  exact ⟨rfl, rfl, rfl⟩

theorem SameScreen.of_mask {m m' : PrivateModule} {mask : BitVec 32}
    (h : m' = { m with bufferMask := mask }) : SameScreen m m' := by
  rw [h]
  exact ⟨rfl, rfl, rfl⟩

theorem sameScreen_posts {w : World} {hnd : PrivateHandle}
    {putVscreeninfo : VarScreeninfo → Answer VarScreeninfo} {r : ℤ × Option Display × World}
    (h : Posts w hnd putVscreeninfo r) : SameScreen w.module r.2.2.module := by
  cases h with
  | lost _ => exact .of_eq rfl
  | divided framebuffer _ _ _ => exact .of_eq rfl
  | refused e framebuffer _ _ _ _ => exact ⟨rfl, rfl, rfl⟩
  | shown granted framebuffer _ _ _ _ => exact ⟨rfl, rfl, rfl⟩
  | copied framebuffer _ _ => exact .of_eq rfl

theorem ScreenMapped.extends {w w' : World} {live : List Buffer} {framebuffer : PrivateHandle}
    {fd : ℤ} (h : ScreenMapped w live framebuffer fd) (held : Extends w w') :
    ScreenMapped w' live framebuffer fd :=
  ⟨h.size_ne, held.mappings _ _ h.size_ne h.mapping, h.end_le, held.files _ _ h.device,
    h.fd_nonneg, h.apart⟩

theorem Screen.extends {w w' : World} {live : List Buffer} {framebuffer : PrivateHandle}
    (h : Screen w live framebuffer) (held : Extends w w')
    (same : SameScreen w.module w'.module) : Screen w' live framebuffer := by
  refine ⟨h.fd.imp_right held.mem_files, h.fdApart, h.base, fun hbase => ?_, ?_, ?_⟩
  · obtain ⟨fd, hmapped⟩ := h.mapped hbase
    exact ⟨fd, hmapped.extends held⟩
  · rw [same.numBuffers]
    exact h.slots
  · rw [same.numBuffers]
    exact h.own

theorem Consistent.extends {s s' : State} (h : Consistent s)
    (held : Extends s.world s'.world) (same : SameScreen s.world.module s'.world.module)
    (current : s.world.module.framebuffer = none →
      s'.world.module.currentBuffer = s.world.module.currentBuffer)
    (live : s'.live = s.live) (serial : s.nextSerial ≤ s'.nextSerial) : Consistent s' := by
  refine ⟨?_, ?_, ?_, fun hnone => ?_, fun framebuffer hsome => ?_⟩
  · rw [live]
    exact fun b hb => (h.present b hb).extends held
  · rw [live]
    exact h.apart
  · rw [live]
    exact fun b hb => (h.serial b hb).trans_le serial
  · rw [same.framebuffer] at hnone
    obtain ⟨hnumBuffers, hcurrent, hlive⟩ := h.absent hnone
    rw [live]
    exact ⟨same.numBuffers.trans hnumBuffers, (current hnone).trans hcurrent, hlive⟩
  · rw [same.framebuffer] at hsome
    rw [live]
    exact (h.screen framebuffer hsome).extends held same

theorem Consistent.initialise {s : State} (h : Consistent s) {a : FramebufferAnswers}
    {code : Option ℤ} {w' : World} (hnone : s.world.module.framebuffer = none)
    (hinit : Initialises s.world a code w') : Consistent { s with world := w' } := by
  have hlive := (h.absent hnone).live
  have hslot : ∀ b ∈ s.live, ¬ IsSlotHandle b.handle := fun b hb =>
    ((h.present b hb).shared (hlive b hb)).1
  have hfds {fd : ℤ} (hnew : NewFd s.world w' fd) :
      (fd < 0 ∨ fd ∈ w'.files) ∧ (0 ≤ fd → ∀ b ∈ s.live, b.handle.fd ≠ fd) := by
    refine ⟨hnew.imp_right And.right, fun hfd b hb he => ?_⟩
    obtain hneg | ⟨hfree, -⟩ := hnew
    · exact absurd hneg (Int.not_lt.mpr hfd)
    · exact hfree (he ▸ (h.present b hb).fd.resolve_left (Int.not_lt.mpr (he ▸ hfd)))
  have hunmapped {framebuffer : PrivateHandle} (held : Extends s.world w')
      (hpublished : w'.module.framebuffer = some framebuffer)
      (hfd : NewFd s.world w' framebuffer.fd) (hbase : framebuffer.base = 0) :
      Consistent { s with world := w' } := by
    refine ⟨fun b hb => (h.present b hb).extends held, h.apart, h.serial, fun habsent => ?_,
      fun framebuffer' hsome => ?_⟩
    · exact absurd (hpublished.symm.trans habsent) (by simp)
    · obtain rfl := Option.some.inj (hpublished.symm.trans hsome)
      refine ⟨(hfds hfd).1, (hfds hfd).2, ?_, fun hne => absurd hbase hne,
        fun b hb hb' => absurd hb' (hslot b hb), fun b hb hb' => absurd hb' (hlive b hb)⟩
      rw [hbase]
      decide
  cases hinit with
  | absent code w' _ hmodule held _ _ _ =>
    exact h.extends held (.of_eq hmodule) (fun _ => by rw [hmodule]) rfl (Nat.le_refl _)
  | divided w' framebuffer flags info finfo _ _ hmodule hfd hbase held _ _ =>
    exact hunmapped held (by rw [hmodule]) hfd hbase
  | unmapped e w' framebuffer flags info finfo _ _ hmodule hfd hbase held _ _ =>
    exact hunmapped held (by rw [hmodule]; rfl) hfd hbase
  | mapped w' framebuffer flags info finfo start fd _ _ hmodule hfbFd hbase hstart hsize hsize_ne
      hmapping hend hdevice hfd_nonneg hfd hnew held _ _ =>
    have haddress : framebuffer.base.setWidth 32 = start := by rw [hbase, setWidth_signExtend]
    refine ⟨fun b hb => (h.present b hb).extends held, h.apart, h.serial, fun habsent => ?_,
      fun framebuffer' hsome => ?_⟩
    · simp [hmodule, publishedModule] at habsent
    · obtain rfl : framebuffer = framebuffer' := by
        simpa [hmodule, publishedModule] using hsome
      refine ⟨(hfds hfbFd).1, (hfds hfbFd).2, by rw [haddress, hbase],
        fun _ => ⟨fd, by rw [hsize]; exact hsize_ne, ?_, ?_, hdevice, hfd_nonneg,
          fun b hb => ⟨?_, fun _ => ?_⟩⟩,
        fun b hb hb' => absurd hb' (hslot b hb), fun b hb hb' => absurd hb' (hlive b hb)⟩
      · rw [haddress, hsize]
        exact hmapping
      · rw [haddress, hsize]
        exact hend
      · have hshared := (h.present b hb).shared (hlive b hb)
        have hopen := (h.present b hb).fd.resolve_left (Int.not_lt.mpr hshared.2.1)
        exact fun he => hfd (he ▸ hopen)
      · obtain ⟨-, hsize', hlookup⟩ := (h.present b hb).mapping (hslot b hb)
        rw [haddress]
        intro he
        rw [he] at hlookup
        exact hnew _ hsize' hlookup

/-! ### A new buffer -/

theorem Present.apart_new {w w' : World} {b : Buffer} (h : Present w b) {hnd : PrivateHandle}
    (new : NewHandle w w' hnd) {serial : ℕ} (hserial : b.serial < serial) (usage : BitVec 32) :
    Apart b ⟨serial, hnd, usage⟩ := by
  refine ⟨Nat.ne_of_lt hserial, fun hfd he => ?_, fun hslot hslot' he => ?_, fun p hp hp' => ?_⟩
  · have hmem := h.fd.resolve_left (Int.not_lt.mpr hfd)
    obtain hneg | ⟨hfree, -⟩ := new.fd
    · exact absurd (he ▸ hfd) (Int.not_le.mpr hneg)
    · exact hfree (he ▸ hmem)
  · obtain ⟨-, hsize, hlookup⟩ := h.mapping hslot
    have hnew := (new.mapping (not_not.mp hslot')).unmapped ⟨b.handle.size, b.handle.fd⟩ hsize
    rw [← he] at hnew
    exact hnew hlookup
  · obtain ⟨size, hpool⟩ := h.pool p hp
    exact (new.pool p hp').1 (AList.lookup_isSome.mp (by rw [hpool]; rfl))

/-- What a new handle has to be for the buffers to stay consistent. -/
structure Suitable (m : PrivateModule) (hnd : PrivateHandle) (usage : BitVec 32) : Prop where
  shared : ¬ ForScreen usage → ¬ IsSlotHandle hnd ∧ 0 ≤ hnd.fd ∧ hnd.pool ≠ none
  screen : ForScreen usage → hnd.pool = none ∧ m.framebuffer ≠ none
  slot : IsSlotHandle hnd → m.numBuffers ≠ 1 ∧ ∀ framebuffer, m.framebuffer = some framebuffer →
    hnd.base = (framebuffer.base.setWidth 32 + hnd.offset).signExtend 64
  own : ForScreen usage → ¬ IsSlotHandle hnd → m.numBuffers = 1

theorem ScreenMapped.apart_new {w w' : World} {live : List Buffer}
    {framebuffer hnd : PrivateHandle} {fd : ℤ} (h : ScreenMapped w live framebuffer fd)
    (new : NewHandle w w' hnd) (serial : ℕ) (usage : BitVec 32) :
    ScreenMapped w (live ++ [⟨serial, hnd, usage⟩]) framebuffer fd := by
  refine ⟨h.size_ne, h.mapping, h.end_le, h.device, h.fd_nonneg, fun b hb => ?_⟩
  obtain hold | hnew := List.mem_append.mp hb
  · exact h.apart b hold
  · rw [List.mem_singleton.mp hnew]
    refine ⟨fun he => ?_, fun hslot he => ?_⟩
    · obtain hneg | ⟨hfree, -⟩ := new.fd
      · exact absurd (he ▸ hneg) (Int.not_lt.mpr h.fd_nonneg)
      · exact hfree (he ▸ mem_files_of_lookup h.device)
    · have hunmapped := (new.mapping (not_not.mp hslot)).unmapped ⟨framebuffer.size, fd⟩ h.size_ne
      rw [he] at hunmapped
      exact hunmapped h.mapping

theorem Consistent.add {s : State} (h : Consistent s) {w' : World} {hnd : PrivateHandle}
    {usage : BitVec 32} (new : NewHandle s.world w' hnd) (held : Extends s.world w')
    (same : SameScreen s.world.module w'.module)
    (current : w'.module.currentBuffer = s.world.module.currentBuffer)
    (suitable : Suitable s.world.module hnd usage) :
    Consistent ⟨w', s.live ++ [⟨s.nextSerial, hnd, usage⟩], s.nextSerial + 1, s.posted⟩ := by
  have hmem (P : Buffer → Prop) (hold : ∀ b ∈ s.live, P b)
      (hnew : P ⟨s.nextSerial, hnd, usage⟩) :
      ∀ b ∈ s.live ++ [⟨s.nextSerial, hnd, usage⟩], P b := by
    intro b hb
    obtain hb | hb := List.mem_append.mp hb
    · exact hold b hb
    · exact List.mem_singleton.mp hb ▸ hnew
  refine ⟨hmem _ (fun b hb => (h.present b hb).extends held) ?_, ?_,
    hmem _ (fun b hb => Nat.lt_succ_of_lt (h.serial b hb)) (Nat.lt_succ_self _),
    fun hnone => ?_, fun framebuffer hsome => ?_⟩
  · refine ⟨new.magic, new.fd.imp_right And.right, fun hslot => ?_,
      fun p hp => (new.pool p hp).2, suitable.shared, fun hscreen => (suitable.screen hscreen).1⟩
    have hmapping := new.mapping (not_not.mp hslot)
    exact ⟨hmapping.base, hmapping.size, hmapping.mapped⟩
  · refine List.pairwise_append.mpr ⟨h.apart, List.pairwise_singleton _ _, fun b hb b' hb' => ?_⟩
    rw [List.mem_singleton.mp hb']
    exact (h.present b hb).apart_new new (h.serial b hb) usage
  · have hnone' : s.world.module.framebuffer = none := same.framebuffer.symm.trans hnone
    obtain ⟨hnumBuffers, hcurrent, hlive⟩ := h.absent hnone'
    exact ⟨same.numBuffers.trans hnumBuffers, current.trans hcurrent,
      hmem _ hlive fun hscreen => (suitable.screen hscreen).2 hnone'⟩
  · have hsome' : s.world.module.framebuffer = some framebuffer :=
      same.framebuffer.symm.trans hsome
    have hscreen := h.screen framebuffer hsome'
    have hadded : Screen s.world (s.live ++ [⟨s.nextSerial, hnd, usage⟩]) framebuffer := by
      refine ⟨hscreen.fd, fun hfd => hmem _ (hscreen.fdApart hfd) fun he => ?_, hscreen.base,
        fun hbase => ?_, hmem _ hscreen.slots fun hslot => ?_, hmem _ hscreen.own suitable.own⟩
      · have hopen := hscreen.fd.resolve_left (Int.not_lt.mpr hfd)
        obtain hneg | ⟨hfree, -⟩ := new.fd
        · exact absurd (he ▸ hneg) (Int.not_lt.mpr hfd)
        · exact hfree (he ▸ hopen)
      · obtain ⟨fd, hmapped⟩ := hscreen.mapped hbase
        exact ⟨fd, hmapped.apart_new new s.nextSerial usage⟩
      · exact ⟨(suitable.slot hslot).1, (suitable.slot hslot).2 framebuffer hsome'⟩
    exact hadded.extends held same

/-! ### A buffer that is freed -/

theorem mem_eraseIdx_apart {live : List Buffer} (h : live.Pairwise Apart) {i : ℕ} {b : Buffer}
    (hi : live[i]? = some b) : ∀ b' ∈ live.eraseIdx i, Apart b b' := by
  obtain ⟨hlt, rfl⟩ := List.getElem?_eq_some_iff.mp hi
  intro b' hb'
  obtain ⟨j, hne, hj⟩ := List.mem_eraseIdx_iff_getElem?.mp hb'
  obtain ⟨hjlt, rfl⟩ := List.getElem?_eq_some_iff.mp hj
  rcases Nat.lt_or_gt_of_ne hne with hlt' | hlt'
  · exact (List.pairwise_iff_getElem.mp h j i hjlt hlt hlt').symm
  · exact List.pairwise_iff_getElem.mp h i j hlt hjlt hlt'

theorem Present.frees {w w' : World} {b b' : Buffer} (h : Present w b') (apart : Apart b b')
    (frees : Frees w b.handle w') : Present w' b' := by
  refine ⟨h.magic, ?_, fun hslot => ?_, fun p hp => ?_, h.shared, h.screen⟩
  · rcases Int.lt_or_le b'.handle.fd 0 with hneg | hfd
    · exact Or.inl hneg
    · have hmem := h.fd.resolve_left (Int.not_lt.mpr hfd)
      rw [frees.files, AList.mem_erase]
      exact Or.inr ⟨apart.symm.fd hfd, hmem⟩
  · obtain ⟨hbase, hsize, hlookup⟩ := h.mapping hslot
    refine ⟨hbase, hsize, ?_⟩
    rw [frees.mappings]
    split
    · rename_i hown
      have hne := apart.symm.base hslot (not_not.mpr hown.1)
      exact (AList.lookup_erase_ne hne).trans hlookup
    · exact hlookup
  · obtain ⟨size, hpool⟩ := h.pool p hp
    refine ⟨size, ?_⟩
    rw [frees.pools]
    split
    · exact hpool
    · rename_i pool hpool'
      have hne : p ≠ pool := fun he => apart.pool pool hpool' (he ▸ hp)
      exact (AList.lookup_erase_ne hne).trans hpool

theorem ScreenMapped.frees {w w' : World} {live : List Buffer} {framebuffer : PrivateHandle}
    {fd : ℤ} (h : ScreenMapped w live framebuffer fd) {i : ℕ} {b : Buffer}
    (hi : live[i]? = some b) (frees : Frees w b.handle w') :
    ScreenMapped w' (live.eraseIdx i) framebuffer fd := by
  obtain ⟨hfd, hbase⟩ := h.apart b (List.mem_of_getElem? hi)
  refine ⟨h.size_ne, ?_, h.end_le, ?_, h.fd_nonneg,
    fun b' hb' => h.apart b' (List.mem_of_mem_eraseIdx hb')⟩
  · rw [frees.mappings]
    split
    · rename_i hown
      exact (AList.lookup_erase_ne (hbase (not_not.mpr hown.1)).symm).trans h.mapping
    · exact h.mapping
  · rw [frees.files]
    exact (AList.lookup_erase_ne hfd.symm).trans h.device

theorem Consistent.free {s : State} (h : Consistent s) {i : ℕ} {b : Buffer}
    (hi : s.live[i]? = some b) {w' : World} (frees : Frees s.world b.handle w') :
    Consistent { s with world := w', live := s.live.eraseIdx i } := by
  have hapart := mem_eraseIdx_apart h.apart hi
  have hsub : ∀ b' ∈ s.live.eraseIdx i, b' ∈ s.live := fun b' => List.mem_of_mem_eraseIdx
  obtain ⟨kept, hmodule⟩ := frees.module
  refine ⟨fun b' hb' => (h.present b' (hsub b' hb')).frees (hapart b' hb') frees,
    h.apart.sublist (List.eraseIdx_sublist s.live i), fun b' hb' => h.serial b' (hsub b' hb'),
    fun hnone => ?_, fun framebuffer hsome => ?_⟩
  · simp only [hmodule] at hnone ⊢
    obtain ⟨hnumBuffers, hcurrent, hlive⟩ := h.absent hnone
    refine ⟨?_, ?_, fun b' hb' => hlive b' (hsub b' hb')⟩
    · rw [hmodule]
      exact hnumBuffers
    · rw [hmodule]
      exact hcurrent
  · have hsome' : s.world.module.framebuffer = some framebuffer := by
      rw [hmodule] at hsome
      exact hsome
    have hscreen := h.screen framebuffer hsome'
    refine ⟨?_, fun hfd b' hb' => hscreen.fdApart hfd b' (hsub b' hb'), hscreen.base,
      fun hbase => ?_, fun b' hb' => ?_, fun b' hb' => ?_⟩
    · rcases Int.lt_or_le framebuffer.fd 0 with hneg | hfd
      · exact Or.inl hneg
      · have hne := (hscreen.fdApart hfd b (List.mem_of_getElem? hi)).symm
        rw [frees.files, AList.mem_erase]
        exact Or.inr ⟨hne, hscreen.fd.resolve_left (Int.not_lt.mpr hfd)⟩
    · obtain ⟨fd, hmapped⟩ := hscreen.mapped hbase
      exact ⟨fd, hmapped.frees hi frees⟩
    · rw [hmodule]
      exact hscreen.slots b' (hsub b' hb')
    · rw [hmodule]
      exact hscreen.own b' (hsub b' hb')

/-! ### The steps -/

def State.allocated (s : State) (usage : BitVec 32) (r : Outcome) (w' : World) : State :=
  { s with
    world := w'
    live := s.live ++ r.handle.toList.map (fun hnd => ⟨s.nextSerial, hnd, usage⟩)
    nextSerial := s.nextSerial + 1 }

theorem allocated_failed {s : State} {usage : BitVec 32} {r : Outcome} {w' : World}
    (h : r.handle = none) :
    s.allocated usage r w' = { s with world := w', nextSerial := s.nextSerial + 1 } := by
  rw [State.allocated, h]
  simp

theorem allocated_some {s : State} {usage : BitVec 32} {r : Outcome} {w' : World}
    {hnd : PrivateHandle} (h : r.handle = some hnd) :
    s.allocated usage r w' =
      ⟨w', s.live ++ [⟨s.nextSerial, hnd, usage⟩], s.nextSerial + 1, s.posted⟩ := by
  rw [State.allocated, h]
  rfl

theorem Consistent.framebuffer_of_one {s : State} (h : Consistent s)
    (hone : s.world.module.numBuffers = 1) : s.world.module.framebuffer ≠ none := by
  intro hnone
  rw [(h.absent hnone).numBuffers] at hone
  exact absurd hone (by decide)

theorem slotHandle_base (m : PrivateModule) (start : Address) (fd : ℤ) (size : BitVec 32) :
    (slotHandle m start fd size).base =
      (start + (slotHandle m start fd size).offset).signExtend 64 := by
  rw [slotHandle]
  dsimp only
  rw [BitVec.add_comm start, BitVec.add_sub_cancel, BitVec.add_comm]

theorem Consistent.takes {s : State} (h : Consistent s) {usage size : BitVec 32} {r : Outcome}
    {w' : World} (forScreen : ForScreen usage) (takes : Takes s.world size r w') :
    Consistent (s.allocated usage r w') := by
  cases takes with
  | failed e w' hmodule held _ _ =>
    rw [allocated_failed rfl]
    exact h.extends held (.of_eq hmodule) (fun _ => by rw [hmodule]) rfl (Nat.le_succ _)
  | shifted _ _ =>
    rw [allocated_failed rfl]
    exact h.extends (.of_eq rfl rfl rfl) (.of_eq rfl) (fun _ => rfl) rfl (Nat.le_succ _)
  | lost hnone _ _ =>
    rw [allocated_failed rfl]
    exact h.extends (.of_eq rfl rfl rfl) (.of_eq rfl) (fun _ => rfl) rfl (Nat.le_succ _)
  | own hnd w' hone hmodule held new _ hflags hpool _ _ =>
    have hslot : ¬ IsSlotHandle hnd := not_not.mpr hflags
    rw [allocated_some rfl]
    exact h.add new held (.of_eq hmodule) (by rw [hmodule])
      ⟨fun hclient => absurd forScreen hclient,
        fun _ => ⟨hpool, h.framebuffer_of_one hone⟩, fun hs => absurd hs hslot,
        fun _ _ => hone⟩
  | slot framebuffer fd w' hpublished hmany _ _ hmodule held _ new _ =>
    rw [allocated_some rfl]
    refine h.add new held ?_ (by rw [hmodule]) ⟨fun hclient => absurd forScreen hclient,
      fun _ => ⟨rfl, by rw [hpublished]; simp⟩,
      fun _ => ⟨hmany, fun framebuffer' hpublished' => ?_⟩,
      fun _ hs => absurd (slotHandle_flags _ _ _ _) hs⟩
    · exact .of_mask hmodule
    · obtain rfl : framebuffer = framebuffer' :=
        Option.some.inj (hpublished.symm.trans hpublished')
      exact slotHandle_base _ _ _ _

theorem Consistent.screenAllocates {s : State} (h : Consistent s) {a : Answers}
    {usage size : BitVec 32} {r : Outcome} {w' : World} (forScreen : ForScreen usage)
    (allocates : ScreenAllocates s.world a size r w') : Consistent (s.allocated usage r w') := by
  cases allocates with
  | failed code w' hnone hinit _ =>
    have hinitialised := h.initialise hnone (initialises_of_eq hnone hinit)
    rw [allocated_failed rfl]
    exact hinitialised.extends (Extends.refl _) (.of_eq rfl) (fun _ => rfl) rfl (Nat.le_succ _)
  | divided w' hnone hinit =>
    have hinitialised := h.initialise hnone (initialises_of_eq hnone hinit)
    rw [allocated_failed rfl]
    exact hinitialised.extends (Extends.refl _) (.of_eq rfl) (fun _ => rfl) rfl (Nat.le_succ _)
  | first code w₁ r w' hnone hinit _ htakes =>
    exact (h.initialise hnone (initialises_of_eq hnone hinit)).takes forScreen htakes
  | again r w' _ htakes => exact h.takes forScreen htakes

theorem Consistent.allocates {s : State} (h : Consistent s) {a : Answers}
    {width height : BitVec 32} {format : PixelFormat} {usage : BitVec 32} {pHandle pStride : Bool}
    {r : Outcome} {w' : World}
    (allocates : Allocates s.world a width height format usage pHandle pStride r w') :
    Consistent (s.allocated usage r w') := by
  cases allocates with
  | refused _ =>
    rw [allocated_failed rfl]
    exact h.extends (Extends.refl _) (.of_eq rfl) (fun _ => rfl) rfl (Nat.le_succ _)
  | shared bpp wlBufferFormat r w' _ _ hclient hshare =>
    obtain ⟨held, hmodule, hdelivered⟩ := shareBuffer_effects hshare
    cases hhandle : r.handle with
    | none =>
      rw [allocated_failed hhandle]
      exact h.extends held (.of_eq hmodule) (fun _ => by rw [hmodule]) rfl (Nat.le_succ _)
    | some hnd =>
      obtain ⟨new, hfd, hflags, hpool, -⟩ := hdelivered hnd hhandle
      rw [allocated_some hhandle]
      exact h.add new held (.of_eq hmodule) (by rw [hmodule])
        ⟨fun _ => ⟨not_not.mpr hflags, hfd, hpool⟩, fun hscreen => absurd hclient hscreen,
          fun hs => absurd hflags hs, fun hscreen => absurd hclient hscreen⟩
  | screen bpp wlBufferFormat r w' _ _ hscreen hallocates =>
    have hconsistent := h.screenAllocates hscreen hallocates
    split
    · exact hconsistent
    · exact hconsistent

theorem Consistent.posts {s : State} (h : Consistent s) {b : Buffer}
    {putVscreeninfo : VarScreeninfo → Answer VarScreeninfo} {r : ℤ × Option Display × World}
    (posts : Posts s.world b.handle putVscreeninfo r) (posted : Option ℕ) :
    Consistent { s with world := r.2.2, posted := posted } := by
  have hsame := sameScreen_posts posts
  cases posts with
  | lost _ =>
    exact h.extends (.of_eq rfl rfl rfl) hsame (fun _ => rfl) rfl (Nat.le_refl _)
  | divided framebuffer _ _ _ =>
    exact h.extends (.of_eq rfl rfl rfl) hsame (fun _ => rfl) rfl (Nat.le_refl _)
  | refused e framebuffer _ _ _ _ =>
    exact h.extends (.of_eq rfl rfl rfl) hsame (fun _ => rfl) rfl (Nat.le_refl _)
  | shown granted framebuffer hpublished _ _ _ =>
    refine h.extends (.of_eq rfl rfl rfl) hsame (fun hnone => ?_) rfl (Nat.le_refl _)
    exact absurd (hnone.symm.trans hpublished) (by simp)
  | copied framebuffer _ _ =>
    exact h.extends (.of_eq rfl rfl rfl) hsame (fun _ => rfl) rfl (Nat.le_refl _)

theorem act_alloc (s : State) (a : Answers) (width height : BitVec 32) (format : PixelFormat)
    (usage : BitVec 32) (pHandle pStride : Bool) :
    act s (.alloc a width height format usage pHandle pStride) = s.allocated usage
      (grallocAlloc s.world a width height format usage pHandle pStride).1
      (grallocAlloc s.world a width height format usage pHandle pStride).2 := rfl

theorem act_free_none {s : State} {i : ℕ} (hi : s.live[i]? = none) : act s (.free i) = s := by
  simp only [act, hi]

theorem act_free {s : State} {i : ℕ} {b : Buffer} (hi : s.live[i]? = some b) :
    act s (.free i) =
      { s with world := (grallocFree s.world (some b.handle)).2, live := s.live.eraseIdx i } := by
  simp only [act, hi]

theorem act_post_none {s : State} {i : ℕ}
    (putVscreeninfo : VarScreeninfo → Answer VarScreeninfo) (hi : s.live[i]? = none) :
    act s (.post i putVscreeninfo) = s := by
  simp only [act, hi]

theorem act_post {s : State} {i : ℕ} {b : Buffer}
    (putVscreeninfo : VarScreeninfo → Answer VarScreeninfo) (hi : s.live[i]? = some b) :
    act s (.post i putVscreeninfo) =
      { s with
        world := (fbPost s.world putVscreeninfo (some b.handle)).2.2
        posted := if setsCurrent (fbPost s.world putVscreeninfo (some b.handle)).1
          (fbPost s.world putVscreeninfo (some b.handle)).2.1 then some b.serial else s.posted } := by
  simp only [act, hi]

theorem act_open_again {s : State} (a : FramebufferAnswers)
    (h : s.world.module.framebuffer ≠ none) : act s (.openFramebuffer a) = s := by
  simp only [act, mapFrameBuffer, mapFrameBufferLocked_again s.world a h]

theorem Consistent.act {s : State} (h : Consistent s) (e : Event) : Consistent (act s e) := by
  cases e with
  | alloc a width height format usage pHandle pStride =>
    rw [act_alloc]
    exact h.allocates (grallocAlloc_allocates _ _ _ _ _ _ _ _)
  | free i =>
    cases hi : s.live[i]? with
    | none =>
      rw [act_free_none hi]
      exact h
    | some b =>
      have hmagic := (h.present b (List.mem_of_getElem? hi)).magic
      rw [act_free hi]
      exact h.free hi (grallocFree_frees s.world hmagic).2
  | openFramebuffer a =>
    by_cases hnone : s.world.module.framebuffer = none
    · exact h.initialise hnone (mapFrameBufferLocked_initialises s.world a hnone)
    · rw [act_open_again a hnone]
      exact h
  | post i putVscreeninfo =>
    cases hi : s.live[i]? with
    | none =>
      rw [act_post_none putVscreeninfo hi]
      exact h
    | some b =>
      have hmagic := (h.present b (List.mem_of_getElem? hi)).magic
      rw [act_post putVscreeninfo hi]
      exact h.posts (fbPost_posts s.world putVscreeninfo hmagic) _

theorem step_cases (s : State) (e : Event) :
    (s.world.faults = [] ∧ (act s e).world.faults = [] ∧ step s e = act s e) ∨
      ((s.world.faults = [] → (act s e).world.faults ≠ []) ∧
        ∃ faults, step s e = s.faulted faults) := by
  unfold step
  by_cases hlives : s.world.faults = []
  · rw [if_pos hlives]
    by_cases hreturns : (act s e).world.faults = []
    · rw [if_pos hreturns]
      exact Or.inl ⟨hlives, hreturns, rfl⟩
    · rw [if_neg hreturns]
      exact Or.inr ⟨fun _ => hreturns, _, rfl⟩
  · rw [if_neg hlives]
    exact Or.inr ⟨fun h => absurd h hlives, s.world.faults, rfl⟩

theorem Consistent.faulted {s : State} (h : Consistent s) (faults : List Fault) :
    Consistent (s.faulted faults) :=
  h.extends (.of_eq rfl rfl rfl) (.of_eq rfl) (fun _ => rfl) rfl (Nat.le_refl _)

theorem Consistent.step {s : State} (h : Consistent s) (e : Event) : Consistent (step s e) := by
  obtain ⟨-, -, hact⟩ | ⟨-, faults, hstopped⟩ := step_cases s e
  · rw [hact]
    exact h.act e
  · rw [hstopped]
    exact h.faulted faults

theorem consistent_run (w : World) (es : List Event) : Consistent (run step (start w) es) :=
  run_invariant_always step Consistent (fun _ e h => h.step e) (start w) es (consistent_start w)

theorem setWidth_sub (x y : BitVec 64) :
    (x - y).setWidth 32 = x.setWidth 32 - y.setWidth 32 := by
  apply BitVec.eq_of_toNat_eq
  rw [BitVec.toNat_setWidth, BitVec.toNat_sub, BitVec.toNat_sub, BitVec.toNat_setWidth,
    BitVec.toNat_setWidth]
  omega

theorem panRow_toNat {s : State} (consistent : Consistent s) {b : Buffer} (hb : b ∈ s.live)
    (hslot : IsSlotHandle b.handle) {framebuffer : PrivateHandle}
    (hpublished : s.world.module.framebuffer = some framebuffer) :
    (panRow s.world.module framebuffer b.handle).toNat =
      b.handle.offset.toNat / s.world.module.finfo.lineLength.toNat := by
  have hscreen := consistent.screen framebuffer hpublished
  have hdistance : (b.handle.base - framebuffer.base).setWidth 32 = b.handle.offset := by
    rw [(hscreen.slots b hb hslot).2, hscreen.base, setWidth_signExtend, setWidth_sub,
      setWidth_signExtend, setWidth_signExtend, BitVec.add_comm, BitVec.add_sub_cancel]
  rw [panRow, hdistance, BitVec.toNat_udiv]

def screenAnswers (mmap : Answer Address) : Answers :=
  { granted with
    framebuffer :=
      ⟨.ok 10, .error emfile, .ok ⟨4096#32, 8192#32⟩, .ok ⟨1#32, 1#32, 0#32⟩, fun info => .ok info,
        .ok ⟨1#32, 2#32, 0#32⟩, .ok ⟨4096#32, 8192#32⟩, 0, .ok 11, mmap⟩
    dup := .ok 12 }

def allocScreen (a : Answers) : Event := .alloc a 1 1 .rgba8888 grallocUsageHwFb true true

end Shashlik.GrallocRuns
