import Shashlik.GrallocGeometry
import Shashlik.Library.SystemRuns

set_option autoImplicit false

/-!
# What the allocator holds

A shared buffer takes a descriptor, a mapping, a pool and a `wl_buffer`. The allocator also
maps the file once more for itself and never unmaps that, it never destroys the `wl_buffer`,
and a failure after the first mapping gives nothing back: the books are balanced only as long
as no call gets that far.
-/
namespace Shashlik.GrallocBalance
open Gralloc Gralloc.World GrallocGeometry SystemRuns

/-- A call for shared memory; a buffer is freed by its place among the live handles. -/
inductive Call where
  | alloc (a : Answers) (width height : BitVec 32) (format : PixelFormat) (usage : BitVec 32)
    (pHandle pStride : Bool) (shared : usage &&& grallocUsageHwFb = 0)
  | free (i : ℕ)

/-- The world, and the handles that were returned and not yet freed. -/
structure Session where
  world : World
  live : List PrivateHandle

def Session.step (s : Session) : Call → Session
  | .alloc a width height format usage pHandle pStride _ =>
    let r := grallocAlloc s.world a width height format usage pHandle pStride
    ⟨r.2, s.live ++ r.1.handle.toList⟩
  | .free i =>
    match s.live[i]? with
    | none => s
    | some hnd => ⟨(grallocFree s.world (some hnd)).2, s.live.eraseIdx i⟩

/-- Held is what was held before and one of each kind for every live handle. -/
structure Balanced (before w : World) (live : List PrivateHandle) : Prop where
  files : ∀ fd, fd ∈ w.files ↔ fd ∈ before.files ∨ ∃ hnd ∈ live, hnd.fd = fd
  mappings : ∀ start m, w.mappings.lookup start = some m ↔
    before.mappings.lookup start = some m ∨
      ∃ hnd ∈ live, hnd.base.setWidth 32 = start ∧ m = ⟨hnd.size, hnd.fd⟩
  pools : ∀ pool, pool ∈ w.pools ↔ pool ∈ before.pools ∨ ∃ hnd ∈ live, hnd.pool = some pool
  buffers : ∀ buffer, buffer ∈ w.buffers ↔
    buffer ∈ before.buffers ∨ ∃ hnd ∈ live, hnd.wlBuffer = some buffer
  complete : ∀ hnd ∈ live, hnd.pool ≠ none ∧ hnd.wlBuffer ≠ none
  distinct : live.Pairwise (fun hnd hnd' => hnd.fd ≠ hnd'.fd ∧ hnd.base ≠ hnd'.base ∧
    hnd.pool ≠ hnd'.pool ∧ hnd.wlBuffer ≠ hnd'.wlBuffer)

structure FileMade (w : World) (a : FileAnswers) (size : BitVec 32) : Prop where
  xdgRuntimeDir : a.xdgRuntimeDir = true
  malloc : a.malloc = true
  mkstemp : ∃ fd, a.mkstemp = .ok fd ∧ 0 ≤ fd ∧ fd ∉ w.files
  fcntlGetfd : a.fcntlGetfd = true
  fcntlSetfd : a.fcntlSetfd = true
  size_nonneg : 0 ≤ size.toInt
  ftruncate : a.ftruncate = .ok ()

def DataMapped (w : World) (a : Answers) (size : BitVec 32) : Prop :=
  size ≠ 0 ∧ ∃ start, a.dataMap = .ok start ∧ w.Unmapped start size

/-- The call gets past the first mapping of the new file. -/
def PassesDataMap (w : World) : Call → Prop
  | .alloc a width height format _ pHandle pStride _ =>
    pHandle = true ∧ pStride = true ∧ ∃ bpp wlBufferFormat,
      bufferFormat format = some (bpp, wlBufferFormat) ∧
        FileMade w a.file (height * (bytesPerRow width bpp / bpp)) ∧
          DataMapped w a (height * (bytesPerRow width bpp / bpp))
  | .free _ => False

structure SameHeld (w w' : World) : Prop where
  files : ∀ fd, fd ∈ w'.files ↔ fd ∈ w.files
  mappings : w'.mappings = w.mappings
  pools : w'.pools = w.pools
  buffers : w'.buffers = w.buffers

theorem SameHeld.refl (w : World) : SameHeld w w := ⟨fun _ => Iff.rfl, rfl, rfl, rfl⟩

theorem SameHeld.trans {w w' w'' : World} (h : SameHeld w w') (h' : SameHeld w' w'') :
    SameHeld w w'' :=
  ⟨fun fd => (h'.files fd).trans (h.files fd), h'.mappings.trans h.mappings,
    h'.pools.trans h.pools, h'.buffers.trans h.buffers⟩

theorem SameHeld.balanced {before w w' : World} {live : List PrivateHandle} (h : SameHeld w w')
    (hb : Balanced before w live) : Balanced before w' live := by
  refine ⟨fun fd => (h.files fd).trans (hb.files fd), ?_, ?_, ?_, hb.complete, hb.distinct⟩
  · rw [h.mappings]
    exact hb.mappings
  · rw [h.pools]
    exact hb.pools
  · rw [h.buffers]
    exact hb.buffers

theorem sameHeld_close {w : World} {fd : ℤ} (hfd : fd ∉ w.files)
    {files : AList (fun _ : ℤ => File)} (hfiles : ∀ fd', fd' ∈ files ↔ fd' = fd ∨ fd' ∈ w.files) :
    SameHeld w ({ w with files := files }.close fd) := by
  refine ⟨fun fd' => ?_, rfl, rfl, rfl⟩
  change fd' ∈ files.erase fd ↔ _
  rw [AList.mem_erase, hfiles]
  constructor
  · exact fun h => h.2.resolve_left h.1
  · exact fun h => ⟨fun he => hfd (he ▸ h), Or.inr h⟩

/-! ### The file -/

theorem openFile_ok {w : World} {answer : Answer ℤ} {fd : ℤ} (hanswer : answer = .ok fd)
    (hfd : 0 ≤ fd) (hfree : fd ∉ w.files) (f : File) :
    w.openFile answer f = (.ok fd, { w with files := w.files.insert fd f }) := by
  rw [hanswer, openFile, if_pos ⟨hfd, hfree⟩]

theorem openFile_failed {w : World} {answer : Answer ℤ}
    (h : ¬ ∃ fd, answer = .ok fd ∧ 0 ≤ fd ∧ fd ∉ w.files) (f : File) :
    ∃ e, w.openFile answer f = (.error e, w) := by
  unfold openFile
  split
  · exact ⟨_, rfl⟩
  · rename_i fd
    exact ⟨_, if_neg fun hfd => h ⟨fd, rfl, hfd⟩⟩

theorem createTmpfileCloexec_ok {w : World} {a : FileAnswers} {fd : ℤ}
    (hmkstemp : a.mkstemp = .ok fd) (hfd : 0 ≤ fd) (hfree : fd ∉ w.files)
    (hgetfd : a.fcntlGetfd = true) (hsetfd : a.fcntlSetfd = true) :
    createTmpfileCloexec w a = (fd, { w with files := w.files.insert fd (.memory 0) }) := by
  rw [createTmpfileCloexec, openFile_ok hmkstemp hfd hfree]
  simp only [setCloexecOrClose]
  rw [if_neg (by omega), if_neg (by simp [hgetfd]), if_neg (by simp [hsetfd])]

theorem createTmpfileCloexec_failed {w : World} {a : FileAnswers}
    (h : ¬ ((∃ fd, a.mkstemp = .ok fd ∧ 0 ≤ fd ∧ fd ∉ w.files) ∧ a.fcntlGetfd = true ∧
      a.fcntlSetfd = true)) :
    (createTmpfileCloexec w a).1 < 0 ∧ SameHeld w (createTmpfileCloexec w a).2 := by
  by_cases hmkstemp : ∃ fd, a.mkstemp = .ok fd ∧ 0 ≤ fd ∧ fd ∉ w.files
  · obtain ⟨fd, hanswer, hfd, hfree⟩ := hmkstemp
    have hclosed : SameHeld w ({ w with files := w.files.insert fd (.memory 0) }.close fd) :=
      sameHeld_close hfree (fun _ => AList.mem_insert _)
    rw [createTmpfileCloexec, openFile_ok hanswer hfd hfree]
    simp only [setCloexecOrClose]
    rw [if_neg (by omega)]
    split
    · exact ⟨Int.negSucc_lt_zero 5, hclosed⟩
    · split
      · exact ⟨Int.negSucc_lt_zero 6, hclosed⟩
      · rename_i hgetfd hsetfd
        exact absurd ⟨⟨fd, hanswer, hfd, hfree⟩, by simpa using hgetfd, by simpa using hsetfd⟩ h
  · obtain ⟨e, hopen⟩ := openFile_failed hmkstemp (.memory 0)
    rw [createTmpfileCloexec, hopen]
    exact ⟨Int.negSucc_lt_zero 0, SameHeld.refl w⟩

theorem ftruncate_eq {w : World} {answer : Answer Unit} {length : BitVec 32}
    (hlength : 0 ≤ length.toInt) (h : answer = .ok ()) (fd : ℤ) :
    Gralloc.ftruncate w answer fd length =
      (.ok (), { w with files := w.files.insert fd (.memory length.toNat) }) := by
  rw [h]
  exact if_neg (by omega)

theorem ftruncate_failed {w : World} {answer : Answer Unit} {length : BitVec 32}
    (h : ¬ (0 ≤ length.toInt ∧ answer = .ok ())) (fd : ℤ) :
    ∃ e, Gralloc.ftruncate w answer fd length = (.error e, w) := by
  by_cases hlength : length.toInt < 0
  · exact ⟨_, if_pos hlength⟩
  · cases answer with
    | error e => exact ⟨e, if_neg hlength⟩
    | ok u => exact absurd ⟨by omega, rfl⟩ h

theorem osCreateAnonymousFile_of_made {w : World} {a : FileAnswers} {size : BitVec 32}
    (h : FileMade w a size) : ∃ fd, 0 ≤ fd ∧ fd ∉ w.files ∧
      osCreateAnonymousFile w a size = (fd, { w with
        files := (w.files.insert fd (.memory 0)).insert fd (.memory size.toNat) }) := by
  obtain ⟨fd, hmkstemp, hfd, hfree⟩ := h.mkstemp
  have hsize := h.size_nonneg
  refine ⟨fd, hfd, hfree, ?_⟩
  rw [osCreateAnonymousFile, if_neg (by simp [h.xdgRuntimeDir]), if_neg (by simp [h.malloc]),
    createTmpfileCloexec_ok hmkstemp hfd hfree h.fcntlGetfd h.fcntlSetfd]
  simp only
  rw [if_neg (by omega), ftruncate_eq hsize h.ftruncate]

theorem osCreateAnonymousFile_of_not_made {w : World} {a : FileAnswers} {size : BitVec 32}
    (h : ¬ FileMade w a size) :
    (osCreateAnonymousFile w a size).1 < 0 ∧
      SameHeld w (osCreateAnonymousFile w a size).2 := by
  unfold osCreateAnonymousFile
  split
  · exact ⟨Int.negSucc_lt_zero 3, SameHeld.refl w⟩
  rename_i hxdg
  split
  · exact ⟨Int.negSucc_lt_zero 2, SameHeld.refl w⟩
  rename_i hmalloc
  by_cases hopened : (∃ fd, a.mkstemp = .ok fd ∧ 0 ≤ fd ∧ fd ∉ w.files) ∧
      a.fcntlGetfd = true ∧ a.fcntlSetfd = true
  · obtain ⟨⟨fd, hmkstemp, hfd, hfree⟩, hgetfd, hsetfd⟩ := hopened
    have hclosed : SameHeld w ({ w with files := w.files.insert fd (.memory 0) }.close fd) :=
      sameHeld_close hfree (fun _ => AList.mem_insert _)
    rw [createTmpfileCloexec_ok hmkstemp hfd hfree hgetfd hsetfd]
    simp only
    rw [if_neg (by omega)]
    -- only the size is left to fail
    have hsize : ¬ (0 ≤ size.toInt ∧ a.ftruncate = .ok ()) := fun hok =>
      h ⟨by simpa using hxdg, by simpa using hmalloc, ⟨fd, hmkstemp, hfd, hfree⟩, hgetfd, hsetfd,
        hok.1, hok.2⟩
    obtain ⟨e, hfailed⟩ := ftruncate_failed hsize fd
    rw [hfailed]
    refine ⟨?_, hclosed⟩
    have hpos := e.pos
    simp only
    omega
  · obtain ⟨hneg, hsame⟩ := createTmpfileCloexec_failed hopened
    generalize createTmpfileCloexec w a = r at hneg hsame ⊢
    obtain ⟨fd, w₁⟩ := r
    simp only
    rw [if_pos hneg]
    exact ⟨Int.negSucc_lt_zero 1, hsame⟩

/-! ### The mappings

An address that is mapped stays mapped by all that a call does after it, and what it maps
itself lies elsewhere. -/

/-- The mapping is still there, and no handle in what the call stored has that address. -/
structure Keeps (start : Address) (m : Mapping) (r : Outcome × World) : Prop where
  mapped : r.2.mappings.lookup start = some m
  elsewhere : ∀ hnd, r.1.handle = some hnd → hnd.base.setWidth 32 ≠ start

theorem toNat_pos {n : ℕ} {x : BitVec n} (h : x ≠ 0) : 0 < x.toNat :=
  Nat.pos_of_ne_zero fun h0 => h (BitVec.eq_of_toNat_eq h0)

theorem Unmapped.lookup_ne {w : World} {start : Address} {length : BitVec 32} {m : Mapping}
    (h : w.Unmapped start length) (hlength : length ≠ 0) (hm : m.length ≠ 0) :
    w.mappings.lookup start ≠ some m := by
  intro hlookup
  have hdisjoint := h.2.2 ⟨start, m⟩ (AList.mem_lookup_iff.mp hlookup)
  have hpos := toNat_pos hlength
  have hpos' := toNat_pos hm
  simp only at hdisjoint
  omega

theorem mmap_keeps {w w' : World} {answer : Answer Address} {length : BitVec 32} {fd : ℤ}
    {start start' : Address} {m : Mapping} (hm : w.mappings.lookup start = some m)
    (hlength : m.length ≠ 0) (h : w.mmap answer length fd = (.ok start', w')) :
    start' ≠ start ∧ w'.mappings.lookup start = some m := by
  obtain ⟨-, hpos, hfree, -⟩ := mmap_free h
  have hne : start' ≠ start := by
    rintro rfl
    exact Unmapped.lookup_ne hfree hpos hlength hm
  refine ⟨hne, ?_⟩
  rw [mmap_ok h]
  exact (AList.lookup_insert_ne hne.symm).trans hm

theorem wlShmCreatePool_mappings (w : World) (answer : Option Address) (fd : ℤ)
    (size : BitVec 32) : (w.wlShmCreatePool answer fd size).2.mappings = w.mappings := by
  unfold wlShmCreatePool
  split
  · rfl
  · split
    · rfl
    · split <;> rfl

theorem wlShmPoolCreateBuffer_mappings (w : World) (answer pool : Option Address)
    (offset width height stride format : BitVec 32) :
    (w.wlShmPoolCreateBuffer answer pool offset width height stride format).2.mappings =
      w.mappings := by
  unfold wlShmPoolCreateBuffer
  split
  · rfl
  · split
    · rfl
    · split <;> rfl

theorem mapBuffer_keeps {w w' : World} {start : Address} {m : Mapping} {answer : Answer Address}
    {hnd mapped : PrivateHandle} {err : ℤ} (hm : w.mappings.lookup start = some m)
    (hlength : m.length ≠ 0) (hflags : hnd.flags &&& privFlagsFramebuffer = 0)
    (hoffset : hnd.offset = 0#32) (h : mapBuffer w answer hnd = (err, mapped, w')) :
    w'.mappings.lookup start = some m ∧ (err = 0 → mapped.base.setWidth 32 ≠ start) := by
  unfold mapBuffer grallocMap at h
  rw [if_pos hflags] at h
  split at h
  · rename_i e w₁ hmmap
    obtain ⟨rfl, -, rfl⟩ : -(e : ℤ) = err ∧ _ ∧ w₁ = w' := by simpa using h
    have hpos := e.pos
    rw [(mmap_failed hmmap).1]
    exact ⟨hm, fun h0 => by omega⟩
  · rename_i start' w₁ hmmap
    obtain ⟨-, rfl, rfl⟩ : _ ∧ _ = mapped ∧ w₁ = w' := by simpa using h
    obtain ⟨hne, hkept⟩ := mmap_keeps hm hlength hmmap
    refine ⟨hkept, fun _ => ?_⟩
    have haddress : ((start' + hnd.offset).setWidth 64).setWidth 32 = start' := by
      rw [hoffset, BitVec.add_zero, BitVec.setWidth_setWidth_of_le start' (by decide),
        BitVec.setWidth_eq]
    rw [haddress]
    exact hne

def shareMapped (w : World) (a : Answers) (fd : ℤ) (width height size stride format : BitVec 32) :
    Outcome × World :=
  match w.wlShmCreatePool a.pool fd (height * stride) with
  | (pool, w) =>
    match w.wlShmPoolCreateBuffer a.buffer pool 0 width height stride format with
    | (none, w) => (⟨0, none, some stride⟩, w)
    | (some buffer, w) =>
      match mapBuffer w a.mapBuffer (.new fd size 0 pool (some buffer)) with
      | (err, hnd, w) =>
        let handle := if err = 0 then some hnd else none
        if err < 0 then (⟨err, handle, none⟩, w) else (⟨0, handle, some stride⟩, w)

theorem shareMapped_keeps {w : World} {start : Address} {m : Mapping}
    (hm : w.mappings.lookup start = some m) (hlength : m.length ≠ 0) (a : Answers) (fd : ℤ)
    (width height size stride format : BitVec 32) :
    Keeps start m (shareMapped w a fd width height size stride format) := by
  unfold shareMapped
  have hpool := wlShmCreatePool_mappings w a.pool fd (height * stride)
  generalize w.wlShmCreatePool a.pool fd (height * stride) = r₁ at hpool ⊢
  obtain ⟨pool, w₁⟩ := r₁
  have hbuffer := wlShmPoolCreateBuffer_mappings w₁ a.buffer pool 0 width height stride format
  simp only
  generalize w₁.wlShmPoolCreateBuffer a.buffer pool 0 width height stride format = r₂
    at hbuffer ⊢
  obtain ⟨buffer, w₂⟩ := r₂
  have hm₂ : w₂.mappings.lookup start = some m := by
    rw [show w₂.mappings = w.mappings from hbuffer.trans hpool]
    exact hm
  cases buffer with
  | none => exact ⟨hm₂, fun hnd h => absurd h (by simp)⟩
  | some buffer =>
    simp only
    rcases hmapped : mapBuffer w₂ a.mapBuffer (.new fd size 0 pool (some buffer)) with
      ⟨err, hnd, w₃⟩
    obtain ⟨hkept, hne⟩ := mapBuffer_keeps hm₂ hlength (by simp [PrivateHandle.new]) rfl hmapped
    simp only
    have helsewhere : ∀ hnd', (if err = 0 then some hnd else none) = some hnd' →
        hnd'.base.setWidth 32 ≠ start := by
      intro hnd' hhnd'
      split at hhnd'
      · rename_i herr
        obtain rfl := Option.some.inj hhnd'
        exact hne herr
      · simp at hhnd'
    split
    · exact ⟨hkept, helsewhere⟩
    · exact ⟨hkept, helsewhere⟩

theorem shareBuffer_of_no_file {w w₁ : World} {a : Answers} {fd : ℤ}
    {width height size stride format : BitVec 32}
    (hfile : osCreateAnonymousFile w a.file (height * stride) = (fd, w₁)) (hfd : fd < 0) :
    shareBuffer w a width height size stride format = (.failed 0, w₁) := by
  simp only [shareBuffer, hfile]
  rw [if_pos hfd]

theorem shareBuffer_of_not_mapped {w w₁ w₂ : World} {a : Answers} {fd : ℤ} {e : Errno}
    {width height size stride format : BitVec 32}
    (hfile : osCreateAnonymousFile w a.file (height * stride) = (fd, w₁)) (hfd : 0 ≤ fd)
    (hmap : w₁.mmap a.dataMap (height * stride) fd = (.error e, w₂)) :
    shareBuffer w a width height size stride format = (.failed 0, w₂.close fd) := by
  simp only [shareBuffer, hfile, hmap]
  rw [if_neg (by omega)]

theorem shareBuffer_of_mapped {w w₁ w₂ : World} {a : Answers} {fd : ℤ} {start : Address}
    {width height size stride format : BitVec 32}
    (hfile : osCreateAnonymousFile w a.file (height * stride) = (fd, w₁)) (hfd : 0 ≤ fd)
    (hmap : w₁.mmap a.dataMap (height * stride) fd = (.ok start, w₂)) :
    shareBuffer w a width height size stride format =
      shareMapped w₂ a fd width height size stride format := by
  unfold shareBuffer
  simp only [hfile, hmap]
  rw [if_neg (by omega)]
  rfl

theorem shareBuffer_cases (w : World) (a : Answers) (width height size stride format : BitVec 32) :
    (¬ (FileMade w a.file (height * stride) ∧ DataMapped w a (height * stride)) ∧
      (shareBuffer w a width height size stride format).1 = .failed 0 ∧
      SameHeld w (shareBuffer w a width height size stride format).2) ∨
    (FileMade w a.file (height * stride) ∧ DataMapped w a (height * stride) ∧
      ∃ fd start w₂, w.Unmapped start (height * stride) ∧
        w₂.mappings = w.mappings.insert start ⟨height * stride, fd⟩ ∧
        w₂.module = w.module ∧ w₂.pools = w.pools ∧ w₂.buffers = w.buffers ∧
        w₂.faults = w.faults ∧ shareBuffer w a width height size stride format =
          shareMapped w₂ a fd width height size stride format) := by
  by_cases hmade : FileMade w a.file (height * stride)
  · obtain ⟨fd, hfd, hfree, hfile⟩ := osCreateAnonymousFile_of_made hmade
    rcases hmap : World.mmap _ a.dataMap (height * stride) fd with ⟨e | start, w₂⟩
    · left
      obtain ⟨rfl, hunmapped, -⟩ := mmap_failed hmap
      rw [shareBuffer_of_not_mapped hfile hfd hmap]
      refine ⟨fun h => hunmapped h.2, rfl, sameHeld_close hfree fun fd' => ?_⟩
      rw [AList.mem_insert, AList.mem_insert]
      exact ⟨fun h => h.elim Or.inl id, Or.inr⟩
    · right
      obtain ⟨hanswer, hpos, hunmapped, hw₂⟩ := mmap_free hmap
      refine ⟨hmade, ⟨hpos, start, hanswer, hunmapped⟩, fd, start, w₂, hunmapped, ?_, ?_, ?_, ?_, ?_,
        shareBuffer_of_mapped hfile hfd hmap⟩ <;> rw [hw₂]
  · left
    obtain ⟨hneg, hsame⟩ := osCreateAnonymousFile_of_not_made hmade
    rcases hfile : osCreateAnonymousFile w a.file (height * stride) with ⟨fd, w₁⟩
    rw [hfile] at hneg hsame
    rw [shareBuffer_of_no_file hfile hneg]
    exact ⟨fun h => hmade h.1, rfl, hsame⟩

/-! ### Runs -/

theorem grallocAlloc_cases (w : World) (a : Answers) (width height : BitVec 32)
    (format : PixelFormat) (usage : BitVec 32) (pHandle pStride : Bool)
    (shared : usage &&& grallocUsageHwFb = 0) :
    (grallocAlloc w a width height format usage pHandle pStride =
        (.failed (-einval), w) ∧
      ¬ (pHandle = true ∧ pStride = true ∧ ∃ format', bufferFormat format = some format')) ∨
    (pHandle = true ∧ pStride = true ∧ ∃ bpp wlBufferFormat,
      bufferFormat format = some (bpp, wlBufferFormat) ∧
        grallocAlloc w a width height format usage pHandle pStride =
          shareBuffer w a width height (bytesPerRow width bpp * height)
            (bytesPerRow width bpp / bpp) wlBufferFormat) := by
  by_cases hpointers : pHandle = true ∧ pStride = true
  · obtain ⟨rfl, rfl⟩ := hpointers
    rcases hformat : bufferFormat format with _ | ⟨bpp, wlBufferFormat⟩
    · left
      refine ⟨?_, fun h => ?_⟩
      · simp [grallocAlloc, hformat]
      · obtain ⟨-, -, format', hformat'⟩ := h
        simp at hformat'
    · right
      exact ⟨rfl, rfl, bpp, wlBufferFormat, rfl, shareBuffer_of_grallocAlloc hformat shared⟩
  · left
    refine ⟨?_, fun h => hpointers ⟨h.1, h.2.1⟩⟩
    rw [grallocAlloc, if_pos]
    by_cases hhandle : pHandle = true
    · exact Or.inr (by simpa using fun h => hpointers ⟨hhandle, h⟩)
    · exact Or.inl (by simpa using hhandle)

section Alloc
variable {w : World} {a : Answers} {width height : BitVec 32} {format : PixelFormat}
  {usage : BitVec 32} {pHandle pStride : Bool} {shared : usage &&& grallocUsageHwFb = 0}

theorem alloc_of_not_passes
    (h : ¬ PassesDataMap w (.alloc a width height format usage pHandle pStride shared)) :
    (grallocAlloc w a width height format usage pHandle pStride).1.handle = none ∧
      SameHeld w (grallocAlloc w a width height format usage pHandle pStride).2 := by
  obtain ⟨hfailed, -⟩ | ⟨hh, hs, bpp, wlBufferFormat, hformat, hshare⟩ :=
    grallocAlloc_cases w a width height format usage pHandle pStride shared
  · rw [hfailed]
    exact ⟨rfl, SameHeld.refl w⟩
  · rw [hshare]
    obtain ⟨-, hfailed, hsame⟩ | ⟨hmade, hmapped, -⟩ := shareBuffer_cases w a width height
      (bytesPerRow width bpp * height) (bytesPerRow width bpp / bpp) wlBufferFormat
    · exact ⟨congrArg Outcome.handle hfailed, hsame⟩
    · exact absurd ⟨hh, hs, bpp, wlBufferFormat, hformat, hmade, hmapped⟩ h

theorem alloc_of_passes
    (h : PassesDataMap w (.alloc a width height format usage pHandle pStride shared)) :
    ∃ start m, m.length ≠ 0 ∧ w.mappings.lookup start ≠ some m ∧
      Keeps start m (grallocAlloc w a width height format usage pHandle pStride) := by
  obtain ⟨hh, hs, bpp, wlBufferFormat, hformat, hmade, hmapped⟩ := h
  obtain ⟨-, hunknown⟩ | ⟨-, -, bpp', wlBufferFormat', hformat', hshare⟩ :=
    grallocAlloc_cases w a width height format usage pHandle pStride shared
  · exact absurd ⟨hh, hs, _, hformat⟩ hunknown
  obtain ⟨rfl, rfl⟩ : bpp = bpp' ∧ wlBufferFormat = wlBufferFormat' := by
    simpa [hformat] using hformat'
  rw [hshare]
  obtain ⟨hnot, -⟩ | ⟨-, -, fd, start, w₂, hfree, hw₂, -, -, -, -, hrest⟩ := shareBuffer_cases w a width
    height (bytesPerRow width bpp * height) (bytesPerRow width bpp / bpp) wlBufferFormat
  · exact absurd ⟨hmade, hmapped⟩ hnot
  · refine ⟨start, ⟨height * (bytesPerRow width bpp / bpp), fd⟩, hmapped.1,
      Unmapped.lookup_ne hfree hmapped.1 hmapped.1, ?_⟩
    rw [hrest]
    apply shareMapped_keeps _ hmapped.1
    rw [hw₂]
    exact AList.lookup_insert _

theorem alloc_keeps {start : Address} {m : Mapping} (hm : w.mappings.lookup start = some m)
    (hlength : m.length ≠ 0) (shared : usage &&& grallocUsageHwFb = 0) :
    Keeps start m (grallocAlloc w a width height format usage pHandle pStride) := by
  obtain ⟨hfailed, -⟩ | ⟨-, -, bpp, wlBufferFormat, -, hshare⟩ :=
    grallocAlloc_cases w a width height format usage pHandle pStride shared
  · rw [hfailed]
    exact ⟨hm, fun hnd h => absurd h (by simp [Outcome.failed])⟩
  · rw [hshare]
    obtain ⟨-, hfailed, hsame⟩ | ⟨-, hmapped, fd, start', w₂, hfree, hw₂, -, -, -, -, hrest⟩ :=
      shareBuffer_cases w a width height (bytesPerRow width bpp * height)
        (bytesPerRow width bpp / bpp) wlBufferFormat
    · refine ⟨?_, fun hnd h => absurd h (by rw [hfailed]; simp [Outcome.failed])⟩
      rw [hsame.mappings]
      exact hm
    · rw [hrest]
      apply shareMapped_keeps _ hlength
      have hne : start ≠ start' := by
        rintro rfl
        exact Unmapped.lookup_ne hfree hmapped.1 hlength hm
      rw [hw₂]
      exact (AList.lookup_insert_ne hne).trans hm

end Alloc

theorem freeSlot_cases (w : World) (hnd : PrivateHandle) :
    (∃ f, freeSlot w hnd = w.fault f) ∨
      ∃ kept, freeSlot w hnd =
        { w with module := { w.module with bufferMask := w.module.bufferMask &&& kept } } := by
  unfold freeSlot
  split
  · exact Or.inl ⟨_, rfl⟩
  dsimp only
  split
  · exact Or.inl ⟨_, rfl⟩
  split
  · exact Or.inl ⟨_, rfl⟩
  · exact Or.inr ⟨_, rfl⟩

theorem freeSlot_mappings (w : World) (hnd : PrivateHandle) :
    (freeSlot w hnd).mappings = w.mappings := by
  obtain ⟨f, hfault⟩ | ⟨kept, hkept⟩ := freeSlot_cases w hnd
  · rw [hfault]
    rfl
  · rw [hkept]

theorem wlShmPoolDestroy_mappings (w : World) (pool : Option Address) :
    (w.wlShmPoolDestroy pool).mappings = w.mappings := by
  cases pool <;> rfl

theorem grallocFree_keeps {w : World} {hnd : PrivateHandle} {start : Address} {m : Mapping}
    (hm : w.mappings.lookup start = some m) (hne : hnd.base.setWidth 32 ≠ start) :
    (grallocFree w (some hnd)).2.mappings.lookup start = some m := by
  have hterminated : (terminateBuffer w hnd).mappings.lookup start = some m := by
    unfold terminateBuffer grallocUnmap
    split
    · split
      · exact (AList.lookup_erase_ne hne.symm).trans hm
      · exact hm
    · exact hm
  unfold grallocFree
  simp only
  split
  · exact hm
  · change (World.wlShmPoolDestroy _ hnd.pool).mappings.lookup start = _
    rw [wlShmPoolDestroy_mappings]
    split
    · rw [freeSlot_mappings]
      exact hm
    · exact hterminated

/-- There is a mapping that was not there before, and no live handle has it. -/
def Leaked (before : World) (s : Session) : Prop :=
  ∃ start m, m.length ≠ 0 ∧ before.mappings.lookup start ≠ some m ∧
    s.world.mappings.lookup start = some m ∧ ∀ hnd ∈ s.live, hnd.base.setWidth 32 ≠ start

theorem Leaked.not_balanced {before : World} {s : Session} (h : Leaked before s) :
    ¬ Balanced before s.world s.live := by
  obtain ⟨start, m, -, hnew, hm, hlive⟩ := h
  intro hbalanced
  obtain hold | ⟨hnd, hhnd, hstart, -⟩ := (hbalanced.mappings start m).mp hm
  · exact hnew hold
  · exact hlive hnd hhnd hstart

theorem leaked_of_keeps {before : World} {live : List PrivateHandle} {start : Address}
    {m : Mapping} {r : Outcome × World} (hkeeps : Keeps start m r) (hlength : m.length ≠ 0)
    (hnew : before.mappings.lookup start ≠ some m)
    (hlive : ∀ hnd ∈ live, hnd.base.setWidth 32 ≠ start) :
    Leaked before ⟨r.2, live ++ r.1.handle.toList⟩ := by
  refine ⟨start, m, hlength, hnew, hkeeps.mapped, fun hnd hhnd => ?_⟩
  obtain hold | hreturned := List.mem_append.mp hhnd
  · exact hlive hnd hold
  · exact hkeeps.elsewhere hnd (Option.mem_toList.mp hreturned)

theorem Leaked.step {before : World} {s : Session} (h : Leaked before s) (c : Call) :
    Leaked before (s.step c) := by
  obtain ⟨start, m, hlength, hnew, hm, hlive⟩ := h
  cases c with
  | alloc a width height format usage pHandle pStride shared =>
    exact leaked_of_keeps (alloc_keeps hm hlength shared) hlength hnew hlive
  | free i =>
    simp only [Session.step]
    cases hhnd : s.live[i]? with
    | none => exact ⟨start, m, hlength, hnew, hm, hlive⟩
    | some hnd =>
      have hmem : hnd ∈ s.live := List.mem_of_getElem? hhnd
      exact ⟨start, m, hlength, hnew, grallocFree_keeps hm (hlive hnd hmem),
        fun hnd' hhnd' => hlive hnd' (List.mem_of_mem_eraseIdx hhnd')⟩

structure Untouched (before : World) (s : Session) : Prop where
  live : s.live = []
  same : SameHeld before s.world

theorem balanced_start (before : World) : Balanced before before [] where
  files fd := by simp
  mappings start m := by simp
  pools pool := by simp
  buffers buffer := by simp
  complete hnd hhnd := absurd hhnd List.not_mem_nil
  distinct := List.Pairwise.nil

theorem Untouched.balanced {before : World} {s : Session} (h : Untouched before s) :
    Balanced before s.world s.live := by
  rw [h.live]
  exact h.same.balanced (balanced_start before)

theorem Untouched.step {before : World} {s : Session} (h : Untouched before s) {c : Call}
    (hc : ¬ PassesDataMap s.world c) : Untouched before (s.step c) := by
  cases c with
  | alloc a width height format usage pHandle pStride shared =>
    obtain ⟨hnone, hsame⟩ := alloc_of_not_passes hc
    refine ⟨?_, h.same.trans hsame⟩
    change s.live ++ Option.toList _ = []
    rw [hnone, h.live]
    rfl
  | free i =>
    have hfree : s.step (.free i) = s := by
      simp only [Session.step]
      rw [h.live]
      rfl
    rw [hfree]
    exact h

theorem Untouched.leaked {before : World} {s : Session} (h : Untouched before s) {c : Call}
    (hc : PassesDataMap s.world c) : Leaked before (s.step c) := by
  cases c with
  | alloc a width height format usage pHandle pStride shared =>
    obtain ⟨start, m, hlength, hnew, hkeeps⟩ := alloc_of_passes hc
    apply leaked_of_keeps hkeeps hlength
    · rw [← h.same.mappings]
      exact hnew
    · rw [h.live]
      exact fun hnd hhnd => absurd hhnd List.not_mem_nil
  | free i => exact absurd hc id

/-- The books are balanced after a run exactly when none of its calls got past the first
    mapping: then nothing was returned either. -/
theorem balanced_iff (before : World) (calls : List Call) :
    Balanced before (run Session.step ⟨before, []⟩ calls).world
        (run Session.step ⟨before, []⟩ calls).live ↔
      Along Session.step (fun s c => ¬ PassesDataMap s.world c) ⟨before, []⟩ calls :=
  run_iff_along Session.step (Untouched before) (Leaked before)
    (fun s => Balanced before s.world s.live) (fun s c => ¬ PassesDataMap s.world c)
    (fun _ _ h hc => h.step hc) (fun _ _ h hc => h.leaked (not_not.mp hc))
    (fun _ c h => h.step c) (fun _ h => h.balanced) (fun _ h => h.not_balanced) ⟨before, []⟩
    calls ⟨rfl, SameHeld.refl before⟩

theorem freed_pixel_leaves_mapping :
    (run Session.step ⟨loaded, []⟩ [.alloc granted 1 1 .rgba8888 0 true true rfl, .free 0]).live =
        [] ∧
      ¬ Balanced loaded
        (run Session.step ⟨loaded, []⟩ [.alloc granted 1 1 .rgba8888 0 true true rfl, .free 0]).world
        (run Session.step ⟨loaded, []⟩
          [.alloc granted 1 1 .rgba8888 0 true true rfl, .free 0]).live := by
  have hlive : (run Session.step ⟨loaded, []⟩
      [.alloc granted 1 1 .rgba8888 0 true true rfl, .free 0]).live = [] := by decide +kernel
  refine ⟨hlive, fun hbalanced => ?_⟩
  have hmapped : (run Session.step ⟨loaded, []⟩
      [.alloc granted 1 1 .rgba8888 0 true true rfl, .free 0]).world.mappings.lookup 0x10000#32 =
        some ⟨1, 3⟩ := by decide +kernel
  obtain hold | ⟨hnd, hhnd, -⟩ := (hbalanced.mappings _ _).mp hmapped
  · exact absurd hold (by simp [loaded])
  · rw [hlive] at hhnd
    exact absurd hhnd List.not_mem_nil

end Shashlik.GrallocBalance
