import Shashlik.GrallocFramebuffer

set_option autoImplicit false

/-!
# What the calls add and take

An allocation, failed or not, only adds to what the process holds, and what a new handle
refers to was not held before. A free takes away what its handle refers to. These are the
facts about single calls that the properties of whole runs rest on.
-/
namespace Shashlik.GrallocEffects
open AlignedSizes Gralloc Gralloc.World GrallocGeometry GrallocBalance GrallocFramebuffer

/-- Everything that is held stays as it is. A mapping of no bytes is not held. -/
structure Extends (w w' : World) : Prop where
  files : ∀ fd f, w.files.lookup fd = some f → w'.files.lookup fd = some f
  mappings : ∀ start m, m.length ≠ 0 → w.mappings.lookup start = some m →
    w'.mappings.lookup start = some m
  pools : ∀ pool p, w.pools.lookup pool = some p → w'.pools.lookup pool = some p

theorem Extends.refl (w : World) : Extends w w :=
  ⟨fun _ _ h => h, fun _ _ _ h => h, fun _ _ h => h⟩

theorem Extends.trans {w w' w'' : World} (h : Extends w w') (h' : Extends w' w'') :
    Extends w w'' :=
  ⟨fun fd f hf => h'.files fd f (h.files fd f hf),
    fun start m hlength hm => h'.mappings start m hlength (h.mappings start m hlength hm),
    fun pool p hp => h'.pools pool p (h.pools pool p hp)⟩

theorem Extends.of_eq {w w' : World} (hfiles : w'.files = w.files)
    (hmappings : w'.mappings = w.mappings) (hpools : w'.pools = w.pools) : Extends w w' := by
  refine ⟨fun fd f h => ?_, fun start m _ h => ?_, fun pool p h => ?_⟩
  · rw [hfiles]
    exact h
  · rw [hmappings]
    exact h
  · rw [hpools]
    exact h

theorem mem_files_of_lookup {w : World} {fd : ℤ} {f : File} (h : w.files.lookup fd = some f) :
    fd ∈ w.files := AList.lookup_isSome.mp (by rw [h]; rfl)

theorem Extends.mem_files {w w' : World} (h : Extends w w') {fd : ℤ} (hfd : fd ∈ w.files) :
    fd ∈ w'.files := by
  obtain ⟨f, hf⟩ := Option.isSome_iff_exists.mp (AList.lookup_isSome.mpr hfd)
  exact mem_files_of_lookup (h.files fd f hf)

theorem Extends.mem_pools {w w' : World} (h : Extends w w') {pool : Address}
    (hpool : pool ∈ w.pools) : pool ∈ w'.pools := by
  obtain ⟨p, hp⟩ := Option.isSome_iff_exists.mp (AList.lookup_isSome.mpr hpool)
  exact AList.lookup_isSome.mp (by rw [h.pools pool p hp]; rfl)

theorem Extends.set_files {w w' : World} (h : Extends w w') {fd : ℤ} (hfd : fd ∉ w.files)
    {files : AList (fun _ : ℤ => File)}
    (hfiles : ∀ fd', fd' ≠ fd → files.lookup fd' = w'.files.lookup fd') :
    Extends w { w' with files := files } := by
  refine ⟨fun fd' f hf => ?_, h.mappings, h.pools⟩
  have hne : fd' ≠ fd := fun he => hfd (he ▸ mem_files_of_lookup hf)
  exact (hfiles fd' hne).trans (h.files fd' f hf)

theorem Extends.open_file {w w' : World} (h : Extends w w') {fd : ℤ} (hfd : fd ∉ w.files)
    (f : File) : Extends w { w' with files := w'.files.insert fd f } :=
  h.set_files hfd fun _ hne => AList.lookup_insert_ne hne

theorem Extends.close_file {w w' : World} (h : Extends w w') {fd : ℤ} (hfd : fd ∉ w.files) :
    Extends w (w'.close fd) :=
  h.set_files hfd fun _ hne => AList.lookup_erase_ne hne

theorem Extends.map {w w' : World} (h : Extends w w') {start : Address} {length : BitVec 32}
    (hlength : length ≠ 0) (hfree : w'.Unmapped start length) (fd : ℤ) :
    Extends w { w' with mappings := w'.mappings.insert start ⟨length, fd⟩ } := by
  refine ⟨h.files, fun start' m hm hlookup => ?_, h.pools⟩
  have hkept := h.mappings start' m hm hlookup
  have hne : start' ≠ start := by
    rintro rfl
    exact Unmapped.lookup_ne hfree hlength hm hkept
  exact (AList.lookup_insert_ne hne).trans hkept

theorem Extends.create_pool {w w' : World} (h : Extends w w') {pool : Address}
    (hpool : pool ∉ w'.pools) (p : ShmPool) :
    Extends w { w' with pools := w'.pools.insert pool p } := by
  refine ⟨h.files, h.mappings, fun pool' p' hp => ?_⟩
  have hkept := h.pools pool' p' hp
  have hne : pool' ≠ pool := fun he =>
    hpool (he ▸ AList.lookup_isSome.mp (by rw [hkept]; rfl))
  exact (AList.lookup_insert_ne hne).trans hkept

/-! ### Single calls -/

theorem openFile_cases (w : World) (answer : Answer ℤ) (f : File) :
    (∃ fd, 0 ≤ fd ∧ fd ∉ w.files ∧
      w.openFile answer f = (.ok fd, { w with files := w.files.insert fd f })) ∨
    (∃ e, w.openFile answer f = (.error e, w)) := by
  by_cases h : ∃ fd, answer = .ok fd ∧ 0 ≤ fd ∧ fd ∉ w.files
  · obtain ⟨fd, hanswer, hfd, hfree⟩ := h
    exact Or.inl ⟨fd, hfd, hfree, openFile_ok hanswer hfd hfree f⟩
  · exact Or.inr (openFile_failed h f)

theorem dup_cases (w : World) (answer : Answer ℤ) (fd : ℤ) :
    (∃ fd' f, 0 ≤ fd' ∧ fd' ∉ w.files ∧ w.files.lookup fd = some f ∧
      w.dup answer fd = (fd', { w with files := w.files.insert fd' f })) ∨
    w.dup answer fd = (-1, w) := by
  unfold World.dup
  cases hf : w.files.lookup fd with
  | none => exact Or.inr rfl
  | some f =>
    obtain ⟨fd', hfd, hfree, hopen⟩ | ⟨e, hopen⟩ := openFile_cases w answer f
    · left
      exact ⟨fd', f, hfd, hfree, rfl, by simp only [hopen]⟩
    · right
      simp only [hopen]

theorem createTmpfileCloexec_extends {w w' : World} {a : FileAnswers} {fd : ℤ}
    (h : createTmpfileCloexec w a = (fd, w')) :
    Extends w w' ∧ w'.module = w.module ∧ (0 ≤ fd → fd ∉ w.files) := by
  unfold createTmpfileCloexec at h
  obtain ⟨fd', hfd', hfree, hopen⟩ | ⟨e, hopen⟩ := openFile_cases w a.mkstemp (.memory 0)
  · have hopened := (Extends.refl w).open_file hfree (.memory 0)
    rw [hopen] at h
    simp only [setCloexecOrClose] at h
    rw [if_neg (by omega)] at h
    split at h
    · obtain ⟨rfl, rfl⟩ := Prod.mk.inj h
      exact ⟨hopened.close_file hfree, rfl, fun hneg => absurd hneg (by decide)⟩
    split at h
    · obtain ⟨rfl, rfl⟩ := Prod.mk.inj h
      exact ⟨hopened.close_file hfree, rfl, fun hneg => absurd hneg (by decide)⟩
    · obtain ⟨rfl, rfl⟩ := Prod.mk.inj h
      exact ⟨hopened, rfl, fun _ => hfree⟩
  · rw [hopen] at h
    obtain ⟨rfl, rfl⟩ := Prod.mk.inj h
    exact ⟨Extends.refl w, rfl, fun hneg => absurd hneg (by decide)⟩

theorem osCreateAnonymousFile_extends {w w' : World} {a : FileAnswers} {size : BitVec 32}
    {fd : ℤ} (h : osCreateAnonymousFile w a size = (fd, w')) :
    Extends w w' ∧ w'.module = w.module ∧ (0 ≤ fd → fd ∉ w.files) := by
  unfold osCreateAnonymousFile at h
  split at h
  · obtain ⟨rfl, rfl⟩ := Prod.mk.inj h
    exact ⟨Extends.refl w, rfl, fun hneg => absurd hneg (by decide)⟩
  split at h
  · obtain ⟨rfl, rfl⟩ := Prod.mk.inj h
    exact ⟨Extends.refl w, rfl, fun hneg => absurd hneg (by decide)⟩
  rcases hopen : createTmpfileCloexec w a with ⟨fd', w₁⟩
  obtain ⟨hopened, hmodule, hfree⟩ := createTmpfileCloexec_extends hopen
  simp only [hopen] at h
  split at h
  · obtain ⟨rfl, rfl⟩ := Prod.mk.inj h
    exact ⟨hopened, hmodule, fun hneg => absurd hneg (by decide)⟩
  rename_i hfd
  have hnew := hfree (Int.not_lt.mp hfd)
  by_cases hsize : 0 ≤ size.toInt ∧ a.ftruncate = .ok ()
  · rw [ftruncate_eq hsize.1 hsize.2] at h
    obtain ⟨rfl, rfl⟩ := Prod.mk.inj h
    exact ⟨hopened.open_file hnew _, hmodule, fun _ => hnew⟩
  · obtain ⟨e, hfailed⟩ := ftruncate_failed (w := w₁) hsize fd'
    rw [hfailed] at h
    obtain ⟨rfl, rfl⟩ := Prod.mk.inj h
    have hpos := e.pos
    exact ⟨hopened.close_file hnew, hmodule, fun hneg => by omega⟩

theorem mmap_extends {w w' : World} {answer : Answer Address} {length : BitVec 32} {fd : ℤ}
    {r : Answer Address} (h : w.mmap answer length fd = (r, w')) :
    Extends w w' ∧ w'.module = w.module := by
  obtain ⟨start, -, hlength, hfree, hmap⟩ | ⟨e, hmap, -⟩ := mmap_cases w answer length fd
  · rw [hmap] at h
    obtain ⟨-, rfl⟩ := Prod.mk.inj h
    exact ⟨(Extends.refl w).map hlength hfree fd, rfl⟩
  · rw [hmap] at h
    obtain ⟨-, rfl⟩ := Prod.mk.inj h
    exact ⟨Extends.refl w, rfl⟩

theorem wlShmCreatePool_extends {w w' : World} {answer : Option Address} {fd : ℤ}
    {size : BitVec 32} {pool : Option Address}
    (h : w.wlShmCreatePool answer fd size = (pool, w')) :
    Extends w w' ∧ w'.module = w.module ∧
      ∀ p, pool = some p → p ∉ w.pools ∧ w'.pools.lookup p = some ⟨fd, size⟩ := by
  unfold wlShmCreatePool at h
  split at h
  · obtain ⟨rfl, rfl⟩ := Prod.mk.inj h
    exact ⟨Extends.of_eq rfl rfl rfl, rfl, fun p hp => absurd hp (by simp)⟩
  cases answer with
  | none =>
    obtain ⟨rfl, rfl⟩ := Prod.mk.inj h
    exact ⟨Extends.refl w, rfl, fun p hp => absurd hp (by simp)⟩
  | some p =>
    simp only at h
    split at h
    · obtain ⟨rfl, rfl⟩ := Prod.mk.inj h
      exact ⟨Extends.refl w, rfl, fun p hp => absurd hp (by simp)⟩
    · rename_i hfree
      obtain ⟨rfl, rfl⟩ := Prod.mk.inj h
      refine ⟨(Extends.refl w).create_pool hfree _, rfl, fun p' hp' => ?_⟩
      obtain rfl := Option.some.inj hp'
      exact ⟨hfree, AList.lookup_insert _⟩

theorem wlShmPoolCreateBuffer_extends {w w' : World} {answer pool : Option Address}
    {offset width height stride format : BitVec 32} {buffer : Option Address}
    (h : w.wlShmPoolCreateBuffer answer pool offset width height stride format = (buffer, w')) :
    Extends w w' ∧ w'.module = w.module ∧ w'.pools = w.pools := by
  unfold wlShmPoolCreateBuffer at h
  split at h
  · obtain ⟨-, rfl⟩ := Prod.mk.inj h
    exact ⟨Extends.of_eq rfl rfl rfl, rfl, rfl⟩
  split at h
  · obtain ⟨-, rfl⟩ := Prod.mk.inj h
    exact ⟨Extends.refl w, rfl, rfl⟩
  split at h
  · obtain ⟨-, rfl⟩ := Prod.mk.inj h
    exact ⟨Extends.refl w, rfl, rfl⟩
  · obtain ⟨-, rfl⟩ := Prod.mk.inj h
    exact ⟨Extends.of_eq rfl rfl rfl, rfl, rfl⟩

/-- The bytes that a handle of its own memory refers to, which were not mapped before. -/
structure NewMapping (w w' : World) (hnd : PrivateHandle) : Prop where
  base : hnd.base ≠ 0
  size : hnd.size ≠ 0
  mapped : w'.mappings.lookup (hnd.base.setWidth 32) = some ⟨hnd.size, hnd.fd⟩
  unmapped : ∀ m, m.length ≠ 0 → w.mappings.lookup (hnd.base.setWidth 32) ≠ some m

theorem setWidth_setWidth (x : Address) : (x.setWidth 64).setWidth 32 = x := by
  rw [BitVec.setWidth_setWidth_of_le x (by decide), BitVec.setWidth_eq]

theorem mapBuffer_cases (w : World) (answer : Answer Address) (fd : ℤ) (size : BitVec 32)
    (pool wlBuffer : Option Address) :
    (∃ (hnd : PrivateHandle) (w' : World),
      mapBuffer w answer (.new fd size 0 pool wlBuffer) = (0, hnd, w') ∧ Extends w w' ∧
        w'.module = w.module ∧ w'.files = w.files ∧ w'.pools = w.pools ∧ w'.faults = w.faults ∧
          NewMapping w w' hnd ∧ ∃ base, hnd = { PrivateHandle.new fd size 0 pool wlBuffer with base := base }) ∨
    (∃ (e : Errno) (hnd : PrivateHandle),
      mapBuffer w answer (.new fd size 0 pool wlBuffer) = (-(e : ℤ), hnd, w)) := by
  have hflags : (PrivateHandle.new fd size 0 pool wlBuffer).flags &&& privFlagsFramebuffer = 0 := by
    simp [PrivateHandle.new]
  have hsize : (PrivateHandle.new fd size 0 pool wlBuffer).size = size := rfl
  have hfd : (PrivateHandle.new fd size 0 pool wlBuffer).fd = fd := rfl
  rw [mapBuffer, grallocMap, if_pos hflags, hsize, hfd]
  obtain ⟨start, -, hlength, hfree, hmap⟩ | ⟨e, hmap, -⟩ := mmap_cases w answer size fd
  · left
    have hstart : ((start + 0#32).setWidth 64).setWidth 32 = start := by
      rw [BitVec.add_zero, setWidth_setWidth]
    rw [hmap]
    refine ⟨_, _, rfl, (Extends.refl w).map hlength hfree fd, rfl, rfl, rfl, rfl, ?_, _, rfl⟩
    refine ⟨fun hzero => hfree.1 ?_, hlength, ?_, fun m hm => ?_⟩
    · change (start + 0#32).setWidth 64 = 0#64 at hzero
      rw [← hstart, hzero]
      rfl
    · change AList.lookup (((start + 0#32).setWidth 64).setWidth 32) _ = _
      rw [hstart]
      exact AList.lookup_insert _
    · change w.mappings.lookup (((start + 0#32).setWidth 64).setWidth 32) ≠ _
      rw [hstart]
      exact Unmapped.lookup_ne hfree hlength hm
  · right
    rw [hmap]
    exact ⟨e, _, rfl⟩

/-! ### The initialisation of the framebuffer -/

theorem openDevice_cases (w : World) (a : FramebufferAnswers) :
    (∃ fd, 0 ≤ fd ∧ fd ∉ w.files ∧
      openDevice w a = (.ok fd, { w with files := w.files.insert fd .framebuffer })) ∨
    (∃ e, openDevice w a = (.error e, w)) := by
  unfold openDevice
  obtain ⟨fd, hfd, hfree, hopen⟩ | ⟨e, hopen⟩ := openFile_cases w a.openGraphics .framebuffer
  · rw [hopen]
    exact Or.inl ⟨fd, hfd, hfree, rfl⟩
  · rw [hopen]
    obtain ⟨fd, hfd, hfree, hopen'⟩ | ⟨e', hopen'⟩ := openFile_cases w a.openDev .framebuffer
    · exact Or.inl ⟨fd, hfd, hfree, hopen'⟩
    · exact Or.inr ⟨e', hopen'⟩

def publishedModule (m : PrivateModule) (framebuffer : PrivateHandle) (flags : BitVec 32)
    (info : VarScreeninfo) (finfo : FixScreeninfo) : PrivateModule :=
  { m with
    framebuffer := some framebuffer
    flags := flags
    numBuffers := info.yresVirtual / info.yres
    bufferMask := 0
    info := info
    finfo := finfo }

def fbSize (info : VarScreeninfo) (finfo : FixScreeninfo) : BitVec 32 :=
  roundUpToPageSize (finfo.lineLength * info.yresVirtual)

/-- Whatever an initialisation has begun comes to an end: a driver that answers has rows and
    memory, which can be mapped. -/
def InitSafe (w : World) (a : FramebufferAnswers) : Prop :=
  match openDevice w a with
  | (.error _, _) => True
  | (.ok _, _) =>
    match readScreeninfo a with
    | .error code => code ≠ 0
    | .ok (_, info, finfo) =>
      info.yres ≠ 0 ∧ fbSize info finfo ≠ 0 ∧
        ∃ start, a.mmap = .ok start ∧ w.Unmapped start (fbSize info finfo)

/-- The device is opened and all its answers are taken. -/
def Answered (w : World) (a : FramebufferAnswers) (flags : BitVec 32) (info : VarScreeninfo)
    (finfo : FixScreeninfo) : Prop :=
  (∃ fd w', openDevice w a = (.ok fd, w')) ∧ readScreeninfo a = .ok (flags, info, finfo)

/-- A descriptor that a failed call did not give, or that was free before. -/
def NewFd (w w' : World) (fd : ℤ) : Prop := fd < 0 ∨ fd ∉ w.files ∧ fd ∈ w'.files

theorem NewFd.extends {w w' w'' : World} {fd : ℤ} (h : NewFd w w' fd) (held : Extends w' w'') :
    NewFd w w'' fd := h.imp_right fun hfd => ⟨hfd.1, held.mem_files hfd.2⟩

/-- What an initialisation does: nothing to the module, or it publishes a framebuffer without
    memory, from which it comes back or not, or one that is mapped. -/
inductive Initialises (w : World) (a : FramebufferAnswers) : Option ℤ → World → Prop where
  | absent (code : ℤ) (w' : World) (code_le : code ≤ 0) (module : w'.module = w.module)
    (held : Extends w w') (safe : InitSafe w a ↔ code ≠ 0)
    (unanswered : ∀ flags info finfo, ¬ Answered w a flags info finfo)
    (faults : w'.faults = w.faults) : Initialises w a (some code) w'
  | divided (w' : World) (framebuffer : PrivateHandle) (flags : BitVec 32)
    (info : VarScreeninfo) (finfo : FixScreeninfo) (answered : Answered w a flags info finfo)
    (yres : info.yres = 0)
    (module : w'.module = { w.module with
      framebuffer := some framebuffer, flags := flags, info := info, finfo := finfo })
    (fd : NewFd w w' framebuffer.fd) (base : framebuffer.base = 0) (held : Extends w w')
    (safe : ¬ InitSafe w a) (faults : w'.faults = .divisionByZero :: w.faults) :
    Initialises w a none w'
  | unmapped (e : Errno) (w' : World) (framebuffer : PrivateHandle) (flags : BitVec 32)
    (info : VarScreeninfo) (finfo : FixScreeninfo) (answered : Answered w a flags info finfo)
    (yres : info.yres ≠ 0)
    (module : w'.module = publishedModule w.module framebuffer flags info finfo)
    (fd : NewFd w w' framebuffer.fd) (base : framebuffer.base = 0) (held : Extends w w')
    (safe : ¬ InitSafe w a) (faults : w'.faults = w.faults) :
    Initialises w a (some (-(e : ℤ))) w'
  | mapped (w' : World) (framebuffer : PrivateHandle) (flags : BitVec 32) (info : VarScreeninfo)
    (finfo : FixScreeninfo) (start : Address) (fd : ℤ)
    (answered : Answered w a flags info finfo) (yres : info.yres ≠ 0)
    (module : w'.module = publishedModule w.module framebuffer flags info finfo)
    (fbFd : NewFd w w' framebuffer.fd)
    (base : framebuffer.base = start.signExtend 64) (start_ne : start ≠ 0)
    (size : framebuffer.size = fbSize info finfo) (size_ne : fbSize info finfo ≠ 0)
    (mapping : w'.mappings.lookup start = some ⟨fbSize info finfo, fd⟩)
    (end_le : start.toNat + (fbSize info finfo).toNat ≤ 2 ^ 32)
    (device : w'.files.lookup fd = some .framebuffer) (fd_nonneg : 0 ≤ fd) (fd_new : fd ∉ w.files)
    (start_new : ∀ m, m.length ≠ 0 → w.mappings.lookup start ≠ some m) (held : Extends w w')
    (safe : InitSafe w a) (faults : w'.faults = w.faults) : Initialises w a (some 0) w'

structure Opened (w w' : World) (fd : ℤ) (framebuffer : PrivateHandle) (info : VarScreeninfo)
    (finfo : FixScreeninfo) : Prop where
  held : Extends w w'
  mappings : w'.mappings = w.mappings
  device : w'.files.lookup fd = some .framebuffer
  faults : w'.faults = w.faults
  base : framebuffer.base = 0
  size : framebuffer.size = fbSize info finfo
  newFd : NewFd w w' framebuffer.fd

theorem mapFrameBufferLocked_eq {w w₁ : World} {a : FramebufferAnswers} {fd : ℤ}
    {flags : BitVec 32} {info : VarScreeninfo} {finfo : FixScreeninfo}
    (hnone : w.module.framebuffer = none) (hopen : openDevice w a = (.ok fd, w₁))
    (hread : readScreeninfo a = .ok (flags, info, finfo)) :
    ∃ (w₂ : World) (framebuffer : PrivateHandle), Opened w w₂ fd framebuffer info finfo ∧
      mapFrameBufferLocked w a =
        if info.yres = 0 then
          (none, { w₂ with
            module := { w.module with
              framebuffer := some framebuffer, flags := flags, info := info, finfo := finfo }
            faults := .divisionByZero :: w₂.faults })
        else
          match World.mmap
            { w₂ with module := publishedModule w.module framebuffer flags info finfo }
              a.mmap (fbSize info finfo) fd with
          | (.error e, w) => (some (-(e : ℤ)), w)
          | (.ok vaddr, w) =>
            (some 0, { w with
              module := { w.module with
                framebuffer := some { framebuffer with base := vaddr.signExtend 64 } } }) := by
  have hnew : ¬ w.module.framebuffer.isSome = true := by simp [hnone]
  obtain ⟨fd', -, hfree, hopen'⟩ | ⟨e, hopen'⟩ := openDevice_cases w a
  · obtain ⟨hfd, rfl⟩ : fd' = fd ∧ _ = w₁ := by simpa [hopen'] using hopen
    subst hfd
    have hopened := (Extends.refl w).open_file hfree .framebuffer
    unfold mapFrameBufferLocked
    rw [if_neg hnew, hopen']
    simp only [hread]
    rcases hdup : World.dup _ a.dup fd' with ⟨fbFd, w₃⟩
    have hstage : Opened w w₃ fd' (.new fbFd (fbSize info finfo) 0 none none) info finfo ∧
        w₃.module = w.module := by
      obtain ⟨fd'', f, -, hfree', hlookup, hdup'⟩ | hdup' := dup_cases
        { w with files := w.files.insert fd' .framebuffer } a.dup fd'
      · obtain ⟨rfl, rfl⟩ := Prod.mk.inj (hdup.symm.trans hdup')
        have hnew' : fbFd ∉ w.files := fun hmem =>
          hfree' ((AList.mem_insert _).mpr (Or.inr hmem))
        have hne : fd' ≠ fbFd := by
          rintro rfl
          exact hfree' ((AList.mem_insert _).mpr (Or.inl rfl))
        refine ⟨⟨hopened.open_file hnew' f, rfl, ?_, rfl, rfl, rfl,
          Or.inr ⟨hnew', (AList.mem_insert _).mpr (Or.inl rfl)⟩⟩, rfl⟩
        exact (AList.lookup_insert_ne hne).trans (AList.lookup_insert _)
      · obtain ⟨rfl, rfl⟩ := Prod.mk.inj (hdup.symm.trans hdup')
        exact ⟨⟨hopened, rfl, AList.lookup_insert _, rfl, rfl, rfl, Or.inl (Int.negSucc_lt_zero 0)⟩, rfl⟩
    obtain ⟨hopened₃, hmodule₃⟩ := hstage
    refine ⟨w₃, _, hopened₃, ?_⟩
    simp only [hmodule₃]
    rfl
  · exact absurd (hopen'.symm.trans hopen) (by simp)

theorem mapFrameBufferLocked_initialises (w : World) (a : FramebufferAnswers)
    (hnone : w.module.framebuffer = none) :
    Initialises w a (mapFrameBufferLocked w a).1 (mapFrameBufferLocked w a).2 := by
  have hnew : ¬ w.module.framebuffer.isSome = true := by simp [hnone]
  obtain ⟨fd, hfd, hfree, hopen⟩ | ⟨e, hopen⟩ := openDevice_cases w a
  · have hopened := (Extends.refl w).open_file hfree .framebuffer
    cases hread : readScreeninfo a with
    | error code =>
      have hequation : mapFrameBufferLocked w a =
          (some code, { w with files := w.files.insert fd .framebuffer }) := by
        rw [mapFrameBufferLocked, if_neg hnew, hopen]
        simp only [hread]
      rw [hequation]
      refine .absent code _ (readScreeninfo_error hread) rfl hopened ?_ ?_ rfl
      · rw [InitSafe, hopen]
        simp only [hread]
      · rintro flags info finfo ⟨-, hok⟩
        exact absurd (hread.symm.trans hok) (by simp)
    | ok answers =>
      obtain ⟨flags, info, finfo⟩ := answers
      have hanswered : Answered w a flags info finfo := ⟨⟨fd, _, hopen⟩, hread⟩
      obtain ⟨w₂, framebuffer, hw₂, hequation⟩ := mapFrameBufferLocked_eq hnone hopen hread
      have hsafe : InitSafe w a ↔ info.yres ≠ 0 ∧ fbSize info finfo ≠ 0 ∧
          ∃ start, a.mmap = .ok start ∧ w₂.Unmapped start (fbSize info finfo) := by
        rw [InitSafe, hopen, unmapped_congr hw₂.mappings]
        simp only [hread]
      rw [hequation]
      by_cases hyres : info.yres = 0
      · rw [if_pos hyres]
        exact .divided _ framebuffer flags info finfo hanswered hyres rfl hw₂.newFd hw₂.base
          (hw₂.held.trans (Extends.of_eq rfl rfl rfl)) (fun h => (hsafe.mp h).1 hyres)
          (by rw [hw₂.faults])
      rw [if_neg hyres]
      have hpublished : Extends w
          { w₂ with module := publishedModule w.module framebuffer flags info finfo } :=
        hw₂.held.trans (Extends.of_eq rfl rfl rfl)
      obtain ⟨start, hanswer, hlength, hunmapped, hmap⟩ | ⟨e, hmap, hfailed, -⟩ := mmap_cases
        { w₂ with module := publishedModule w.module framebuffer flags info finfo } a.mmap
          (fbSize info finfo) fd
      · rw [hmap]
        refine .mapped _ { framebuffer with base := start.signExtend 64 } flags info finfo start fd
          hanswered hyres rfl ?_ rfl hunmapped.1 hw₂.size hlength (AList.lookup_insert _)
          hunmapped.2.1 hw₂.device hfd hfree (fun m hm => ?_) ?_
          (hsafe.mpr ⟨hyres, hlength, start, hanswer, hunmapped⟩) hw₂.faults
        · exact hw₂.newFd.extends (((Extends.refl w₂).map hlength hunmapped fd).trans
            (Extends.of_eq rfl rfl rfl))
        · rw [← hw₂.mappings]
          exact Unmapped.lookup_ne hunmapped hlength hm
        · exact (hpublished.map hlength hunmapped fd).trans (Extends.of_eq rfl rfl rfl)
      · rw [hmap]
        exact .unmapped e _ framebuffer flags info finfo hanswered hyres rfl hw₂.newFd hw₂.base
          hpublished (fun h => hfailed (hsafe.mp h).2) hw₂.faults
  · have hpos := e.pos
    have hequation : mapFrameBufferLocked w a = (some (-(e : ℤ)), w) := by
      rw [mapFrameBufferLocked, if_neg hnew, hopen]
    rw [hequation]
    refine .absent _ w (by omega) rfl (Extends.refl w) ?_ ?_ rfl
    · rw [InitSafe, hopen]
      exact iff_of_true trivial (by omega)
    · rintro flags info finfo ⟨⟨fd, w', hok⟩, -⟩
      exact absurd (hopen.symm.trans hok) (by simp)

theorem initialises_of_eq {w w' : World} {a : FramebufferAnswers} {code : Option ℤ}
    (hnone : w.module.framebuffer = none) (h : mapFrameBufferLocked w a = (code, w')) :
    Initialises w a code w' := by
  have hinit := mapFrameBufferLocked_initialises w a hnone
  rw [h] at hinit
  exact hinit

theorem mapFrameBufferLocked_again (w : World) (a : FramebufferAnswers)
    (h : w.module.framebuffer ≠ none) : mapFrameBufferLocked w a = (some 0, w) := by
  rw [mapFrameBufferLocked, if_pos (Option.isSome_iff_ne_none.mpr h)]

/-! ### A new handle -/

/-- What a handle refers to was free before, and is held now. -/
structure NewHandle (w w' : World) (hnd : PrivateHandle) : Prop where
  magic : hnd.magic = sMagic
  fd : NewFd w w' hnd.fd
  mapping : hnd.flags &&& privFlagsFramebuffer = 0 → NewMapping w w' hnd
  pool : ∀ p, hnd.pool = some p → p ∉ w.pools ∧ ∃ size, w'.pools.lookup p = some ⟨hnd.fd, size⟩

theorem NewMapping.before {w w₁ w' : World} {hnd : PrivateHandle} (h : NewMapping w₁ w' hnd)
    (held : Extends w w₁) : NewMapping w w' hnd :=
  ⟨h.base, h.size, h.mapped,
    fun m hm hlookup => h.unmapped m hm (held.mappings _ m hm hlookup)⟩

theorem NewHandle.before {w w₁ w' : World} {hnd : PrivateHandle} (h : NewHandle w₁ w' hnd)
    (held : Extends w w₁) : NewHandle w w' hnd := by
  refine ⟨h.magic, ?_, fun hflags => (h.mapping hflags).before held, fun p hp => ?_⟩
  · obtain hneg | ⟨hfree, hmem⟩ := h.fd
    · exact Or.inl hneg
    · exact Or.inr ⟨fun hold => hfree (held.mem_files hold), hmem⟩
  · obtain ⟨hfree, hpool⟩ := h.pool p hp
    exact ⟨fun hold => hfree (held.mem_pools hold), hpool⟩

theorem shareBuffer_effects {w w' : World} {a : Answers} {r : Outcome}
    {width height size stride format : BitVec 32}
    (h : shareBuffer w a width height size stride format = (r, w')) :
    Extends w w' ∧ w'.module = w.module ∧
      ∀ hnd, r.handle = some hnd → NewHandle w w' hnd ∧ 0 ≤ hnd.fd ∧
        hnd.flags &&& privFlagsFramebuffer = 0 ∧ hnd.pool ≠ none ∧ hnd.size = size := by
  have hnothing {w₁ : World} {r₁ : Outcome} (hhandle : r₁.handle = none)
      (hheld : Extends w w₁) (hmodule : w₁.module = w.module)
      (he : (r₁, w₁) = (r, w')) : Extends w w' ∧ w'.module = w.module ∧
      ∀ hnd, r.handle = some hnd → NewHandle w w' hnd ∧ 0 ≤ hnd.fd ∧
        hnd.flags &&& privFlagsFramebuffer = 0 ∧ hnd.pool ≠ none ∧ hnd.size = size := by
    obtain ⟨rfl, rfl⟩ := Prod.mk.inj he
    exact ⟨hheld, hmodule, fun hnd hhnd => absurd hhnd (by rw [hhandle]; simp)⟩
  unfold shareBuffer at h
  rcases hfile : osCreateAnonymousFile w a.file (height * stride) with ⟨fd, w₁⟩
  obtain ⟨hheld₁, hmodule₁, hfree⟩ := osCreateAnonymousFile_extends hfile
  simp only [hfile] at h
  split at h
  · exact hnothing rfl hheld₁ hmodule₁ h
  rename_i hfd
  have hnew := hfree (Int.not_lt.mp hfd)
  rcases hmap : w₁.mmap a.dataMap (height * stride) fd with ⟨e | start, w₂⟩
  · obtain ⟨hheld₂, hmodule₂⟩ := mmap_extends hmap
    simp only [hmap] at h
    exact hnothing rfl ((hheld₁.trans hheld₂).close_file hnew) (hmodule₂.trans hmodule₁) h
  obtain ⟨hheld₂, hmodule₂⟩ := mmap_extends hmap
  rcases hpool : w₂.wlShmCreatePool a.pool fd (height * stride) with ⟨pool, w₃⟩
  obtain ⟨hheld₃, hmodule₃, hpools⟩ := wlShmCreatePool_extends hpool
  simp only [hmap, hpool] at h
  rcases hbuffer : w₃.wlShmPoolCreateBuffer a.buffer pool 0 width height stride format with
    ⟨buffer, w₄⟩
  obtain ⟨hheld₄, hmodule₄, hpools₄⟩ := wlShmPoolCreateBuffer_extends hbuffer
  have hheld : Extends w w₄ := ((hheld₁.trans hheld₂).trans hheld₃).trans hheld₄
  have hmodule : w₄.module = w.module :=
    ((hmodule₄.trans hmodule₃).trans hmodule₂).trans hmodule₁
  simp only [hbuffer] at h
  cases buffer with
  | none => exact hnothing rfl hheld hmodule h
  | some buffer =>
    obtain ⟨p, rfl, -⟩ := wlShmPoolCreateBuffer_ok hbuffer
    simp only at h
    obtain ⟨hnd, w₅, hmapped, hheld₅, hmodule₅, hfiles₅, hpools₅, -, hmapping, base, rfl⟩ |
        ⟨e, hnd, hmapped⟩ := mapBuffer_cases w₄ a.mapBuffer fd size (some p) (some buffer)
    · simp only [hmapped, ↓reduceIte, lt_irrefl] at h
      obtain ⟨rfl, rfl⟩ := Prod.mk.inj h
      refine ⟨hheld.trans hheld₅, hmodule₅.trans hmodule, fun hnd hhnd => ?_⟩
      obtain rfl := Option.some.inj hhnd
      obtain ⟨hunused, hlookup⟩ := hpools p rfl
      have hopened : fd ∈ w₁.files :=
        mem_files_of_lookup (osCreateAnonymousFile_ok hfile (Int.not_lt.mp hfd))
      refine ⟨⟨rfl, Or.inr ⟨hnew, ?_⟩, fun _ => hmapping.before hheld, fun p' hp' => ?_⟩,
        Int.not_lt.mp hfd, BitVec.zero_and, by simp [PrivateHandle.new], rfl⟩
      · exact (((hheld₂.trans hheld₃).trans hheld₄).trans hheld₅).mem_files hopened
      · obtain rfl : p = p' := Option.some.inj hp'
        have hbefore : p ∉ w.pools := fun hold => hunused ((hheld₁.trans hheld₂).mem_pools hold)
        refine ⟨hbefore, height * stride, ?_⟩
        rw [hpools₅, hpools₄]
        exact hlookup
    · have hpos := e.pos
      simp only [hmapped] at h
      rw [if_pos (show -(e : ℤ) < 0 by omega)] at h
      exact hnothing (if_neg (show ¬ -(e : ℤ) = 0 by omega)) hheld hmodule h

theorem grallocAllocBuffer_effects (w : World) (a : Answers) (size : BitVec 32) :
    (∃ (hnd : PrivateHandle) (w' : World), grallocAllocBuffer w a size = (⟨0, some hnd, none⟩, w') ∧
      Extends w w' ∧ w'.module = w.module ∧ NewHandle w w' hnd ∧ 0 ≤ hnd.fd ∧
        hnd.flags &&& privFlagsFramebuffer = 0 ∧ hnd.pool = none ∧
          hnd.size = roundUpToPageSize size ∧ w'.faults = w.faults) ∨
    (∃ (e : Errno) (w' : World), grallocAllocBuffer w a size = (.failed (-(e : ℤ)), w') ∧
      Extends w w' ∧ w'.module = w.module ∧ w'.faults = w.faults) := by
  unfold grallocAllocBuffer
  obtain ⟨fd, hfd, hfree, hopen⟩ | ⟨e, hopen⟩ :=
    openFile_cases w a.ashmem (.memory (roundUpToPageSize size).toNat)
  · have hopened := (Extends.refl w).open_file hfree (.memory (roundUpToPageSize size).toNat)
    simp only [hopen]
    obtain ⟨hnd, w', hmapped, hheld, hmodule, hfiles, -, hfaults, hmapping, base, rfl⟩ |
        ⟨e, hnd, hmapped⟩ :=
      mapBuffer_cases { w with files := w.files.insert fd (.memory (roundUpToPageSize size).toNat) }
        a.mapBuffer fd (roundUpToPageSize size) none none
    · left
      rw [hmapped]
      refine ⟨_, w', rfl, hopened.trans hheld, hmodule, ?_, hfd, BitVec.zero_and, rfl, rfl,
        hfaults⟩
      refine ⟨rfl, Or.inr ⟨hfree, ?_⟩, fun _ => hmapping.before hopened, fun p hp => ?_⟩
      · rw [hfiles]
        exact (AList.mem_insert _).mpr (Or.inl rfl)
      · exact absurd hp (by simp [PrivateHandle.new])
    · right
      have hpos := e.pos
      rw [hmapped]
      refine ⟨e, _, ?_, hopened, rfl, rfl⟩
      simp only
      rw [if_neg (by omega)]
      rfl
  · simp only [hopen]
    exact Or.inr ⟨e, w, rfl, Extends.refl w, rfl, rfl⟩

/-- The part of `gralloc_alloc_framebuffer_locked` after the initialisation. -/
def takeBuffer (w : World) (a : Answers) (size : BitVec 32) : Outcome × World :=
  let m := w.module
  let bufferSize := m.finfo.lineLength * m.info.yres
  if m.numBuffers = 1 then grallocAllocBuffer w a bufferSize
  else if 32 ≤ m.numBuffers.toNat then (.failed 0, w.fault .shiftOutOfRange)
  else if m.bufferMask ≥ (1#32 <<< m.numBuffers) - 1 then (.failed (-enomem), w)
  else
    match m.framebuffer with
    | none => (.failed 0, w.fault .nullFramebuffer)
    | some framebuffer =>
      let (fd, w) := w.dup a.dup framebuffer.fd
      let slot := findSlot m.bufferMask m.numBuffers
      let bufferMask := if slot < m.numBuffers.toNat then m.bufferMask ||| (1#32 <<< slot)
        else m.bufferMask
      (⟨0, some (slotHandle m (framebuffer.base.setWidth 32) fd size), none⟩,
        { w with module := { w.module with bufferMask := bufferMask } })

theorem grallocAllocFramebufferLocked_eq (w : World) (a : Answers) (size : BitVec 32) :
    grallocAllocFramebufferLocked w a size =
      match (if w.module.framebuffer.isNone then mapFrameBufferLocked w a.framebuffer
        else (some 0, w)) with
      | (none, w) => (.failed 0, w)
      | (some err, w) => if err < 0 then (.failed err, w) else takeBuffer w a size := rfl

/-- No slot is left, by the comparison of the mask. -/
def Full (m : PrivateModule) : Prop := (1#32 <<< m.numBuffers) - 1 ≤ m.bufferMask

def takenMask (m : PrivateModule) : BitVec 32 :=
  if findSlot m.bufferMask m.numBuffers < m.numBuffers.toNat then
    m.bufferMask ||| (1#32 <<< findSlot m.bufferMask m.numBuffers)
  else m.bufferMask

inductive Takes (w : World) (size : BitVec 32) : Outcome → World → Prop where
  | failed (e : Errno) (w' : World) (module : w'.module = w.module) (held : Extends w w')
    (why : w.module.numBuffers = 1 ∨ w.module.numBuffers.toNat < 32 ∧ Full w.module)
    (faults : w'.faults = w.faults) : Takes w size (.failed (-(e : ℤ))) w'
  | shifted (many : w.module.numBuffers ≠ 1) (wide : 32 ≤ w.module.numBuffers.toNat) :
    Takes w size (.failed 0) (w.fault .shiftOutOfRange)
  | lost (framebuffer : w.module.framebuffer = none) (many : w.module.numBuffers ≠ 1)
    (free : ¬ Full w.module) : Takes w size (.failed 0) (w.fault .nullFramebuffer)
  | own (hnd : PrivateHandle) (w' : World) (one : w.module.numBuffers = 1)
    (module : w'.module = w.module) (held : Extends w w') (new : NewHandle w w' hnd)
    (fd_nonneg : 0 ≤ hnd.fd) (flags : hnd.flags &&& privFlagsFramebuffer = 0)
    (pool : hnd.pool = none)
    (sized : hnd.size = roundUpToPageSize (w.module.finfo.lineLength * w.module.info.yres))
    (faults : w'.faults = w.faults) : Takes w size ⟨0, some hnd, none⟩ w'
  | slot (framebuffer : PrivateHandle) (fd : ℤ) (w' : World)
    (published : w.module.framebuffer = some framebuffer) (many : w.module.numBuffers ≠ 1)
    (narrow : w.module.numBuffers.toNat < 32) (free : ¬ Full w.module)
    (module : w'.module = { w.module with bufferMask := takenMask w.module })
    (held : Extends w w') (mappings : w'.mappings = w.mappings)
    (new : NewHandle w w' (slotHandle w.module (framebuffer.base.setWidth 32) fd size))
    (faults : w'.faults = w.faults) :
    Takes w size ⟨0, some (slotHandle w.module (framebuffer.base.setWidth 32) fd size), none⟩ w'

theorem slotHandle_flags (m : PrivateModule) (start : Address) (fd : ℤ) (size : BitVec 32) :
    (slotHandle m start fd size).flags &&& privFlagsFramebuffer ≠ 0 := by
  simp [slotHandle, PrivateHandle.new, privFlagsFramebuffer]

theorem takeBuffer_takes (w : World) (a : Answers) (size : BitVec 32) :
    Takes w size (takeBuffer w a size).1 (takeBuffer w a size).2 := by
  unfold takeBuffer
  dsimp only
  by_cases hone : w.module.numBuffers = 1
  · rw [if_pos hone]
    obtain ⟨hnd, w', hequation, hheld, hmodule, hnew, hfd, hflags, hpool, hsize, hfaults⟩ |
        ⟨e, w', hequation, hheld, hmodule, hfaults⟩ :=
      grallocAllocBuffer_effects w a (w.module.finfo.lineLength * w.module.info.yres)
    · rw [hequation]
      exact .own hnd w' hone hmodule hheld hnew hfd hflags hpool hsize hfaults
    · rw [hequation]
      exact .failed e w' hmodule hheld (Or.inl hone) hfaults
  rw [if_neg hone]
  by_cases hwide : 32 ≤ w.module.numBuffers.toNat
  · rw [if_pos hwide]
    exact .shifted hone hwide
  rw [if_neg hwide]
  have hnarrow := Nat.not_le.mp hwide
  by_cases hfull : Full w.module
  · rw [if_pos (show w.module.bufferMask ≥ (1#32 <<< w.module.numBuffers) - 1 from hfull)]
    exact .failed enomem w rfl (Extends.refl w) (Or.inr ⟨hnarrow, hfull⟩) rfl
  rw [if_neg (show ¬ w.module.bufferMask ≥ (1#32 <<< w.module.numBuffers) - 1 from hfull)]
  cases hframebuffer : w.module.framebuffer with
  | none => exact .lost hframebuffer hone hfull
  | some framebuffer =>
    obtain ⟨fd, f, hfd, hfree, -, hdup⟩ | hdup := dup_cases w a.dup framebuffer.fd
    · simp only [hdup]
      refine .slot framebuffer fd _ hframebuffer hone hnarrow hfull ?_ ?_ rfl
        ⟨rfl, Or.inr ⟨hfree, ?_⟩, ?_, ?_⟩ rfl
      · simp only [takenMask, hframebuffer]
      · exact ((Extends.refl w).open_file hfree f).trans (Extends.of_eq rfl rfl rfl)
      · exact (AList.mem_insert _).mpr (Or.inl rfl)
      · exact fun hflags => absurd hflags (slotHandle_flags _ _ _ _)
      · exact fun p hp => absurd hp (by simp [slotHandle, PrivateHandle.new])
    · simp only [hdup]
      refine .slot framebuffer (-1) _ hframebuffer hone hnarrow hfull ?_
        (Extends.of_eq rfl rfl rfl) rfl
        ⟨rfl, Or.inl (by simp [slotHandle, PrivateHandle.new]), ?_, ?_⟩ rfl
      · simp only [takenMask, hframebuffer]
      · exact fun hflags => absurd hflags (slotHandle_flags _ _ _ _)
      · exact fun p hp => absurd hp (by simp [slotHandle, PrivateHandle.new])

theorem takes_module {w w' : World} {size : BitVec 32} {r : Outcome} (h : Takes w size r w') :
    ∃ mask, w'.module = { w.module with bufferMask := mask } := by
  cases h with
  | failed e w' hmodule _ _ _ => exact ⟨_, hmodule⟩
  | shifted _ _ => exact ⟨_, rfl⟩
  | lost _ _ _ => exact ⟨_, rfl⟩
  | own hnd w' _ hmodule _ _ _ _ _ _ _ => exact ⟨_, hmodule⟩
  | slot framebuffer fd w' _ _ _ _ hmodule _ _ _ _ => exact ⟨_, hmodule⟩

inductive ScreenAllocates (w : World) (a : Answers) (size : BitVec 32) : Outcome → World → Prop
    where
  | failed (code : ℤ) (w' : World) (absent : w.module.framebuffer = none)
    (init : mapFrameBufferLocked w a.framebuffer = (some code, w')) (code_neg : code < 0) :
    ScreenAllocates w a size (.failed code) w'
  | divided (w' : World) (absent : w.module.framebuffer = none)
    (init : mapFrameBufferLocked w a.framebuffer = (none, w')) :
    ScreenAllocates w a size (.failed 0) w'
  | first (code : ℤ) (w₁ : World) (r : Outcome) (w' : World)
    (absent : w.module.framebuffer = none)
    (init : mapFrameBufferLocked w a.framebuffer = (some code, w₁)) (code_nonneg : 0 ≤ code)
    (takes : Takes w₁ size r w') : ScreenAllocates w a size r w'
  | again (r : Outcome) (w' : World) (present : w.module.framebuffer ≠ none)
    (takes : Takes w size r w') : ScreenAllocates w a size r w'

theorem allocFramebuffer_allocates (w : World) (a : Answers) (size : BitVec 32) :
    ScreenAllocates w a size (grallocAllocFramebufferLocked w a size).1
      (grallocAllocFramebufferLocked w a size).2 := by
  rw [grallocAllocFramebufferLocked_eq]
  by_cases hnone : w.module.framebuffer = none
  · rw [if_pos (by rw [hnone]; rfl)]
    rcases hinit : mapFrameBufferLocked w a.framebuffer with ⟨_ | code, w₁⟩
    · exact .divided w₁ hnone hinit
    dsimp only
    by_cases hcode : code < 0
    · rw [if_pos hcode]
      exact .failed code w₁ hnone hinit hcode
    · rw [if_neg hcode]
      exact .first code w₁ _ _ hnone hinit (Int.not_lt.mp hcode) (takeBuffer_takes w₁ a size)
  · rw [if_neg (by rw [Option.isNone_iff_eq_none]; exact hnone)]
    dsimp only
    rw [if_neg (Int.lt_irrefl 0)]
    exact .again _ _ hnone (takeBuffer_takes w a size)

inductive Allocates (w : World) (a : Answers) (width height : BitVec 32) (format : PixelFormat)
    (usage : BitVec 32) (pHandle pStride : Bool) : Outcome → World → Prop where
  | refused (h : ¬ Accepted format pHandle pStride) :
    Allocates w a width height format usage pHandle pStride (.failed (-einval)) w
  | shared (bpp wlBufferFormat : BitVec 32) (r : Outcome) (w' : World)
    (accepted : Accepted format pHandle pStride)
    (known : bufferFormat format = some (bpp, wlBufferFormat))
    (forClient : usage &&& grallocUsageHwFb = 0)
    (share : shareBuffer w a width height (bytesPerRow width bpp * height)
      (bytesPerRow width bpp / bpp) wlBufferFormat = (r, w')) :
    Allocates w a width height format usage pHandle pStride r w'
  | screen (bpp wlBufferFormat : BitVec 32) (r : Outcome) (w' : World)
    (accepted : Accepted format pHandle pStride)
    (known : bufferFormat format = some (bpp, wlBufferFormat))
    (forScreen : usage &&& grallocUsageHwFb ≠ 0)
    (allocates : ScreenAllocates w a (bytesPerRow width bpp * height) r w') :
    Allocates w a width height format usage pHandle pStride
      (if r.code < 0 then r else ⟨0, r.handle, some (bytesPerRow width bpp / bpp)⟩) w'

theorem grallocAlloc_of_screen {w : World} {a : Answers} {width height bpp : BitVec 32}
    {format : PixelFormat} {wlBufferFormat usage : BitVec 32}
    (hformat : bufferFormat format = some (bpp, wlBufferFormat))
    (husage : usage &&& grallocUsageHwFb ≠ 0) :
    grallocAlloc w a width height format usage true true =
      (if (grallocAllocFramebufferLocked w a (bytesPerRow width bpp * height)).1.code < 0
        then (grallocAllocFramebufferLocked w a (bytesPerRow width bpp * height)).1
        else ⟨0, (grallocAllocFramebufferLocked w a (bytesPerRow width bpp * height)).1.handle,
          some (bytesPerRow width bpp / bpp)⟩,
        (grallocAllocFramebufferLocked w a (bytesPerRow width bpp * height)).2) := by
  unfold grallocAlloc
  rw [if_neg (by simp)]
  simp only [hformat, if_pos husage]
  split <;> rfl

theorem grallocAlloc_allocates (w : World) (a : Answers) (width height : BitVec 32)
    (format : PixelFormat) (usage : BitVec 32) (pHandle pStride : Bool) :
    Allocates w a width height format usage pHandle pStride
      (grallocAlloc w a width height format usage pHandle pStride).1
      (grallocAlloc w a width height format usage pHandle pStride).2 := by
  by_cases haccepted : Accepted format pHandle pStride
  · obtain ⟨rfl, rfl, hformat⟩ := haccepted
    obtain ⟨⟨bpp, wlBufferFormat⟩, hknown⟩ := Option.isSome_iff_exists.mp hformat
    by_cases hclient : usage &&& grallocUsageHwFb = 0
    · rw [shareBuffer_of_grallocAlloc hknown hclient]
      exact .shared bpp wlBufferFormat _ _ ⟨rfl, rfl, hformat⟩ hknown hclient rfl
    · have hallocates := allocFramebuffer_allocates w a (bytesPerRow width bpp * height)
      rw [grallocAlloc_of_screen hknown hclient]
      exact .screen bpp wlBufferFormat _ _ ⟨rfl, rfl, hformat⟩ hknown hclient hallocates
  · rw [grallocAlloc_refused haccepted]
    exact .refused haccepted

theorem allocates_module {w w' : World} {a : Answers} {width height : BitVec 32}
    {format : PixelFormat} {usage : BitVec 32} {pHandle pStride : Bool} {r : Outcome}
    (h : Allocates w a width height format usage pHandle pStride r w') :
    (¬ (Accepted format pHandle pStride ∧ usage &&& grallocUsageHwFb ≠ 0 ∧
        w.module.framebuffer = none) ∧
      ∃ mask, w'.module = { w.module with bufferMask := mask }) ∨
    ((Accepted format pHandle pStride ∧ usage &&& grallocUsageHwFb ≠ 0 ∧
        w.module.framebuffer = none) ∧
      ∃ mask, w'.module =
        { (mapFrameBufferLocked w a.framebuffer).2.module with bufferMask := mask }) := by
  cases h with
  | refused hrefused => exact Or.inl ⟨fun h => hrefused h.1, _, rfl⟩
  | shared bpp wlBufferFormat r w' _ _ hclient hshare =>
    exact Or.inl ⟨fun h => h.2.1 hclient, _, (shareBuffer_effects hshare).2.1⟩
  | screen bpp wlBufferFormat r w' haccepted _ hscreen hallocates =>
    cases hallocates with
    | failed code w' hnone hinit _ =>
      rw [hinit]
      exact Or.inr ⟨⟨haccepted, hscreen, hnone⟩, _, rfl⟩
    | divided w' hnone hinit =>
      rw [hinit]
      exact Or.inr ⟨⟨haccepted, hscreen, hnone⟩, _, rfl⟩
    | first code w₁ r w' hnone hinit _ htakes =>
      rw [hinit]
      exact Or.inr ⟨⟨haccepted, hscreen, hnone⟩, takes_module htakes⟩
    | again r w' hsome htakes => exact Or.inl ⟨fun h => hsome h.2.2, takes_module htakes⟩

/-! ### Giving back and showing -/

theorem maskKept_all (m : PrivateModule) :
    m = { m with bufferMask := m.bufferMask &&& BitVec.allOnes 32 } := by
  rw [BitVec.and_allOnes]

theorem freeSlot_effects (w : World) (hnd : PrivateHandle) :
    (freeSlot w hnd).files = w.files ∧ (freeSlot w hnd).mappings = w.mappings ∧
      (freeSlot w hnd).pools = w.pools ∧ (freeSlot w hnd).buffers = w.buffers ∧
        ∃ kept, (freeSlot w hnd).module =
          { w.module with bufferMask := w.module.bufferMask &&& kept } := by
  obtain ⟨f, hfault⟩ | ⟨kept, hkept⟩ := freeSlot_cases w hnd
  · rw [hfault]
    exact ⟨rfl, rfl, rfl, rfl, _, maskKept_all w.module⟩
  · rw [hkept]
    exact ⟨rfl, rfl, rfl, rfl, kept, rfl⟩

/-- What a free leaves of what the process holds: all but what the handle refers to. -/
structure Frees (w : World) (hnd : PrivateHandle) (w' : World) : Prop where
  files : w'.files = w.files.erase hnd.fd
  mappings : w'.mappings = if hnd.flags &&& privFlagsFramebuffer = 0 ∧ hnd.base ≠ 0 then
    w.mappings.erase (hnd.base.setWidth 32) else w.mappings
  pools : w'.pools = match hnd.pool with
    | none => w.pools
    | some pool => w.pools.erase pool
  buffers : w'.buffers = w.buffers
  module : ∃ kept, w'.module = { w.module with bufferMask := w.module.bufferMask &&& kept }

theorem grallocFree_frees (w : World) {hnd : PrivateHandle} (hmagic : hnd.magic = sMagic) :
    (grallocFree w (some hnd)).1 = 0 ∧ Frees w hnd (grallocFree w (some hnd)).2 := by
  have hdestroy (w₁ : World) (hw₁ : w₁.files = w.files ∧ w₁.buffers = w.buffers ∧
      w₁.pools = w.pools ∧ ∃ kept, w₁.module =
        { w.module with bufferMask := w.module.bufferMask &&& kept })
      (hmappings : w₁.mappings = if hnd.flags &&& privFlagsFramebuffer = 0 ∧ hnd.base ≠ 0 then
        w.mappings.erase (hnd.base.setWidth 32) else w.mappings) :
      Frees w hnd ((w₁.wlShmPoolDestroy hnd.pool).close hnd.fd) := by
    obtain ⟨hfiles, hbuffers, hpools, hmodule⟩ := hw₁
    cases hpool : hnd.pool with
    | none =>
      refine ⟨?_, hmappings, ?_, hbuffers, hmodule⟩
      · rw [← hfiles]
        rfl
      · rw [hpool]
        exact hpools
    | some pool =>
      refine ⟨?_, hmappings, ?_, hbuffers, hmodule⟩
      · rw [← hfiles]
        rfl
      · rw [hpool, ← hpools]
        rfl
  have hall := maskKept_all w.module
  unfold grallocFree
  dsimp only
  rw [if_neg (valid_of_magic hmagic)]
  refine ⟨rfl, ?_⟩
  by_cases hflags : hnd.flags &&& privFlagsFramebuffer = 0
  · rw [if_neg (not_not.mpr hflags)]
    unfold terminateBuffer grallocUnmap
    by_cases hbase : hnd.base = 0
    · rw [if_neg (not_not.mpr hbase)]
      exact hdestroy w ⟨rfl, rfl, rfl, _, hall⟩ (by rw [if_neg fun h => h.2 hbase])
    · rw [if_pos hbase, if_pos hflags]
      exact hdestroy _ ⟨rfl, rfl, rfl, _, hall⟩ (by rw [if_pos ⟨hflags, hbase⟩]; rfl)
  · rw [if_pos hflags]
    obtain ⟨hfiles, hmappings, hpools, hbuffers, hmodule⟩ := freeSlot_effects w hnd
    exact hdestroy _ ⟨hfiles, hbuffers, hpools, hmodule⟩
      (by rw [if_neg fun h => hflags h.1]; exact hmappings)

/-- The row to which a post of the handle pans. -/
def panRow (m : PrivateModule) (framebuffer hnd : PrivateHandle) : BitVec 32 :=
  (hnd.base - framebuffer.base).setWidth 32 / m.finfo.lineLength

def panned (m : PrivateModule) (yoffset : BitVec 32) : PrivateModule :=
  { m with info := { m.info with yoffset := yoffset } }

inductive Posts (w : World) (hnd : PrivateHandle)
    (putVscreeninfo : VarScreeninfo → Answer VarScreeninfo) :
    ℤ × Option Display × World → Prop where
  | lost (framebuffer : w.module.framebuffer = none) :
    Posts w hnd putVscreeninfo (0, none, w.fault .nullFramebuffer)
  | divided (framebuffer : PrivateHandle) (published : w.module.framebuffer = some framebuffer)
    (flags : hnd.flags &&& privFlagsFramebuffer ≠ 0) (line : w.module.finfo.lineLength = 0) :
    Posts w hnd putVscreeninfo (0, none, w.fault .divisionByZero)
  | refused (e : Errno) (framebuffer : PrivateHandle)
    (published : w.module.framebuffer = some framebuffer)
    (flags : hnd.flags &&& privFlagsFramebuffer ≠ 0) (line : w.module.finfo.lineLength ≠ 0)
    (answer : putVscreeninfo (panned w.module (panRow w.module framebuffer hnd)).info = .error e) :
    Posts w hnd putVscreeninfo (-(e : ℤ), some (.pan (panRow w.module framebuffer hnd)),
      { w with module := panned w.module (panRow w.module framebuffer hnd) })
  | shown (granted : VarScreeninfo) (framebuffer : PrivateHandle)
    (published : w.module.framebuffer = some framebuffer)
    (flags : hnd.flags &&& privFlagsFramebuffer ≠ 0) (line : w.module.finfo.lineLength ≠ 0)
    (answer : putVscreeninfo (panned w.module (panRow w.module framebuffer hnd)).info =
      .ok granted) :
    Posts w hnd putVscreeninfo (0, some (.pan (panRow w.module framebuffer hnd)),
      { w with module := { w.module with info := granted, currentBuffer := some hnd } })
  | copied (framebuffer : PrivateHandle) (published : w.module.framebuffer = some framebuffer)
    (flags : hnd.flags &&& privFlagsFramebuffer = 0) :
    Posts w hnd putVscreeninfo (0, some (.copy framebuffer.base hnd.base
      (w.module.finfo.lineLength * w.module.info.yres)), w)

theorem posts_mask {w : World} {hnd : PrivateHandle}
    {putVscreeninfo : VarScreeninfo → Answer VarScreeninfo} {r : ℤ × Option Display × World}
    (h : Posts w hnd putVscreeninfo r) : r.2.2.module.bufferMask = w.module.bufferMask := by
  cases h with
  | lost _ => rfl
  | divided framebuffer _ _ _ => rfl
  | refused e framebuffer _ _ _ _ => rfl
  | shown granted framebuffer _ _ _ _ => rfl
  | copied framebuffer _ _ => rfl

theorem fbPost_posts (w : World) (putVscreeninfo : VarScreeninfo → Answer VarScreeninfo)
    {hnd : PrivateHandle} (hmagic : hnd.magic = sMagic) :
    Posts w hnd putVscreeninfo (fbPost w putVscreeninfo (some hnd)) := by
  unfold fbPost
  dsimp only
  rw [if_neg (valid_of_magic hmagic)]
  split
  · rename_i hframebuffer
    exact .lost hframebuffer
  · rename_i framebuffer hframebuffer
    by_cases hflags : hnd.flags &&& privFlagsFramebuffer = 0
    · rw [if_neg (not_not.mpr hflags)]
      exact .copied framebuffer hframebuffer hflags
    · rw [if_pos hflags]
      by_cases hline : w.module.finfo.lineLength = 0
      · rw [if_pos hline]
        exact .divided framebuffer hframebuffer hflags hline
      · rw [if_neg hline]
        cases hanswer : putVscreeninfo (panned w.module (panRow w.module framebuffer hnd)).info with
        | error e =>
          simp only [panned, panRow] at hanswer
          simp only [hanswer]
          exact .refused e framebuffer hframebuffer hflags hline hanswer
        | ok granted =>
          simp only [panned, panRow] at hanswer
          simp only [hanswer]
          exact .shown granted framebuffer hframebuffer hflags hline hanswer

end Shashlik.GrallocEffects
