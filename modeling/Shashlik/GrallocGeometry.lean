import Shashlik.Gralloc

set_option autoImplicit false

/-!
# Sizes of a shared buffer

One picture has three sizes: the bytes of the file, the bytes that the handle records and the
clients map, and the rows as the compositor reads them. The allocator computes the first and
the last of them from `stride`, which counts pixels, and the second from `bpr`, which counts
bytes.
-/
namespace Shashlik.GrallocGeometry
open AlignedSizes Gralloc Gralloc.World

def rowBytes (width bpp : ℕ) : ℕ := (width * bpp + 3) / 4 * 4

theorem bytesPerRow_toNat (width bpp : BitVec 32)
    (h : rowBytes width.toNat bpp.toNat < 2 ^ 32) :
    (bytesPerRow width bpp).toNat = rowBytes width.toNat bpp.toNat := by
  unfold rowBytes at h ⊢
  have product : (width * bpp).toNat = width.toNat * bpp.toNat := by
    rw [BitVec.toNat_mul]
    exact Nat.mod_eq_of_lt (by omega)
  exact (toNat_alignUp 4#32 _ 2 (by decide) (by omega)).trans (by rw [product]; rfl)

theorem bpp_cases {format : PixelFormat} {bpp wlBufferFormat : BitVec 32}
    (h : bufferFormat format = some (bpp, wlBufferFormat)) :
    bpp = 2#32 ∨ bpp = 3#32 ∨ bpp = 4#32 := by
  cases format <;> simp only [bufferFormat, Option.some.injEq, Prod.mk.injEq, reduceCtorEq] at h
  all_goals simp [← h.1]

/-! The calls of the allocator, where they succeed. -/

theorem ftruncate_ok {w w' : World} {answer : Answer Unit} {fd : ℤ} {length : BitVec 32}
    (h : ftruncate w answer fd length = (.ok (), w')) :
    w'.files.lookup fd = some (.memory length.toNat) := by
  unfold ftruncate at h
  split at h
  · simp at h
  · split at h
    · simp at h
    · obtain rfl : _ = w' := by simpa using h
      exact AList.lookup_insert w.files

theorem osCreateAnonymousFile_ok {w w' : World} {a : FileAnswers} {size : BitVec 32} {fd : ℤ}
    (h : osCreateAnonymousFile w a size = (fd, w')) (hfd : 0 ≤ fd) :
    w'.files.lookup fd = some (.memory size.toNat) := by
  unfold osCreateAnonymousFile at h
  split at h
  · simp only [Prod.mk.injEq] at h
    omega
  split at h
  · simp only [Prod.mk.injEq] at h
    omega
  split at h
  rename_i opened _ _
  split at h
  · simp only [Prod.mk.injEq] at h
    omega
  split at h
  · rename_i e _ _
    have := e.pos
    simp only [Prod.mk.injEq] at h
    omega
  · rename_i truncated
    obtain ⟨rfl, rfl⟩ : opened = fd ∧ _ = w' := by simpa using h
    exact ftruncate_ok truncated

theorem mmap_cases (w : World) (answer : Answer Address) (length : BitVec 32) (fd : ℤ) :
    (∃ start, answer = .ok start ∧ length ≠ 0 ∧ w.Unmapped start length ∧
      w.mmap answer length fd =
        (.ok start, { w with mappings := w.mappings.insert start ⟨length, fd⟩ })) ∨
    (∃ e, w.mmap answer length fd = (.error e, w) ∧
      ¬ (length ≠ 0 ∧ ∃ start, answer = .ok start ∧ w.Unmapped start length) ∧
      ((answer ≠ .error enomem ∧
        (length ≠ 0 → ∀ start, answer = .ok start → w.Unmapped start length)) ↔ e ≠ enomem)) := by
  unfold mmap
  cases answer with
  | error e => exact Or.inr ⟨e, rfl, by simp, by simp⟩
  | ok start =>
    by_cases hlength : length = 0
    · exact Or.inr ⟨einval, if_pos hlength, fun h => h.1 hlength,
        iff_of_true ⟨by simp, fun hne => absurd hlength hne⟩ (by decide)⟩
    · by_cases hfree : w.Unmapped start length
      · exact Or.inl ⟨start, rfl, hlength, hfree, (if_neg hlength).trans (if_pos hfree)⟩
      · refine Or.inr ⟨enomem, (if_neg hlength).trans (if_neg hfree), ?_, ?_⟩
        · rintro ⟨-, start', hstart', hfree'⟩
          obtain rfl := Except.ok.inj hstart'
          exact hfree hfree'
        · exact iff_of_false (fun h => hfree (h.2 hlength start rfl)) (fun h => h rfl)

theorem mmap_free {w w' : World} {answer : Answer Address} {length : BitVec 32} {fd : ℤ}
    {start : Address} (h : w.mmap answer length fd = (.ok start, w')) :
    answer = .ok start ∧ length ≠ 0 ∧ w.Unmapped start length ∧
      w' = { w with mappings := w.mappings.insert start ⟨length, fd⟩ } := by
  obtain ⟨start', hanswer, hlength, hfree, hmap⟩ | ⟨e, hmap, -⟩ := mmap_cases w answer length fd
  · rw [hmap] at h
    obtain ⟨rfl, rfl⟩ : start' = start ∧ _ = w' := by simpa using h
    exact ⟨hanswer, hlength, hfree, rfl⟩
  · simp [hmap] at h

theorem mmap_ok {w w' : World} {answer : Answer Address} {length : BitVec 32} {fd : ℤ}
    {start : Address} (h : w.mmap answer length fd = (.ok start, w')) :
    w' = { w with mappings := w.mappings.insert start ⟨length, fd⟩ } := (mmap_free h).2.2.2

theorem mmap_failed {w w' : World} {answer : Answer Address} {length : BitVec 32} {fd : ℤ}
    {e : Errno} (h : w.mmap answer length fd = (.error e, w')) :
    w' = w ∧ ¬ (length ≠ 0 ∧ ∃ start, answer = .ok start ∧ w.Unmapped start length) ∧
      ((answer ≠ .error enomem ∧
        (length ≠ 0 → ∀ start, answer = .ok start → w.Unmapped start length)) ↔ e ≠ enomem) := by
  obtain ⟨start', -, -, -, hmap⟩ | ⟨e', hmap, hrest⟩ := mmap_cases w answer length fd
  · simp [hmap] at h
  · rw [hmap] at h
    obtain ⟨rfl, rfl⟩ : e' = e ∧ w = w' := by simpa using h
    exact ⟨rfl, hrest⟩

theorem wlShmCreatePool_ok {w w' : World} {answer : Option Address} {fd : ℤ}
    {size : BitVec 32} {pool : Address}
    (h : w.wlShmCreatePool answer fd size = (some pool, w')) :
    w' = { w with pools := w.pools.insert pool ⟨fd, size⟩ } := by
  unfold wlShmCreatePool at h
  split at h
  · simp at h
  · split at h
    · simp at h
    · split at h
      · simp at h
      · obtain ⟨rfl, rfl⟩ : _ = pool ∧ _ = w' := by simpa using h
        rfl

theorem wlShmPoolCreateBuffer_ok {w w' : World} {answer pool : Option Address}
    {offset width height stride format : BitVec 32} {buffer : Address}
    (h : w.wlShmPoolCreateBuffer answer pool offset width height stride format =
      (some buffer, w')) :
    ∃ p, pool = some p ∧
      w' = { w with
        buffers := w.buffers.insert buffer ⟨p, offset, width, height, stride, format⟩ } := by
  unfold wlShmPoolCreateBuffer at h
  split at h
  · simp at h
  · rename_i p
    split at h
    · simp at h
    · split at h
      · simp at h
      · obtain ⟨rfl, rfl⟩ : _ = buffer ∧ _ = w' := by simpa using h
        exact ⟨p, rfl, rfl⟩

theorem mapBuffer_ok {w w' : World} {answer : Answer Address} {hnd mapped : PrivateHandle}
    (hflags : hnd.flags &&& privFlagsFramebuffer = 0)
    (h : mapBuffer w answer hnd = (0, mapped, w')) :
    ∃ start, mapped = { hnd with base := (start + hnd.offset).setWidth 64 } ∧
      w' = { w with mappings := w.mappings.insert start ⟨hnd.size, hnd.fd⟩ } := by
  unfold mapBuffer grallocMap at h
  rw [if_pos hflags] at h
  split at h
  · rename_i e _ _
    have := e.pos
    simp only [Prod.mk.injEq] at h
    omega
  · rename_i start _ hmap
    obtain ⟨rfl, rfl⟩ : _ = mapped ∧ _ = w' := by simpa using h
    exact ⟨start, rfl, mmap_ok hmap⟩

theorem shareBuffer_delivers {w w' : World} {a : Answers} {r : Outcome} {hnd : PrivateHandle}
    {width height size stride format : BitVec 32}
    (h : shareBuffer w a width height size stride format = (r, w'))
    (hhandle : r.handle = some hnd) :
    ∃ fd w₁ start w₂ pool w₃ buffer w₄,
      osCreateAnonymousFile w a.file (height * stride) = (fd, w₁) ∧ 0 ≤ fd ∧
      w₁.mmap a.dataMap (height * stride) fd = (.ok start, w₂) ∧
      w₂.wlShmCreatePool a.pool fd (height * stride) = (pool, w₃) ∧
      w₃.wlShmPoolCreateBuffer a.buffer pool 0 width height stride format = (some buffer, w₄) ∧
      mapBuffer w₄ a.mapBuffer (.new fd size 0 pool (some buffer)) = (0, hnd, w') := by
  unfold shareBuffer at h
  rcases hfile : osCreateAnonymousFile w a.file (height * stride) with ⟨fd, w₁⟩
  simp only [hfile] at h
  by_cases hfd : fd < 0
  · obtain ⟨rfl, -⟩ : Outcome.failed 0 = r ∧ _ := by simpa [hfd] using h
    simp [Outcome.failed] at hhandle
  rw [if_neg hfd] at h
  rcases hmap : w₁.mmap a.dataMap (height * stride) fd with ⟨e | start, w₂⟩
  · obtain ⟨rfl, -⟩ : Outcome.failed 0 = r ∧ _ := by simpa [hmap] using h
    simp [Outcome.failed] at hhandle
  rcases hpool : w₂.wlShmCreatePool a.pool fd (height * stride) with ⟨pool, w₃⟩
  simp only [hmap, hpool] at h
  rcases hbuffer : w₃.wlShmPoolCreateBuffer a.buffer pool 0 width height stride format with
    ⟨_ | buffer, w₄⟩
  · simp only [hbuffer, Prod.mk.injEq] at h
    simp [← h.1] at hhandle
  rcases hmapped : mapBuffer w₄ a.mapBuffer (.new fd size 0 pool (some buffer)) with
    ⟨err, mapped, w₅⟩
  simp only [hbuffer, hmapped] at h
  by_cases herr : err = 0
  · subst herr
    obtain ⟨rfl, rfl⟩ : ⟨0, some mapped, some stride⟩ = r ∧ w₅ = w' := by simpa using h
    obtain rfl : mapped = hnd := by simpa using hhandle
    exact ⟨fd, w₁, start, w₂, pool, w₃, buffer, w₄, rfl, by omega, hmap, hpool, hbuffer, hmapped⟩
  · simp only [herr, if_false] at h
    split at h
    all_goals
      simp only [Prod.mk.injEq] at h
      simp [← h.1] at hhandle

/-- What a handle of shared memory stands for: a file of `height * stride` bytes that the
    compositor reads in rows of `stride` bytes, and a mapping of `size` bytes. -/
structure Shared (w : World) (hnd : PrivateHandle) (width height size stride : BitVec 32) : Prop
    where
  handleSize : hnd.size = size
  file : w.files.lookup hnd.fd = some (.memory (height * stride).toNat)
  mapping : w.mappings.lookup (hnd.base.setWidth 32) = some ⟨hnd.size, hnd.fd⟩
  pool : ∃ pool, hnd.pool = some pool ∧ w.pools.lookup pool = some ⟨hnd.fd, height * stride⟩
  buffer : ∃ buffer b, hnd.wlBuffer = some buffer ∧ w.buffers.lookup buffer = some b ∧
    b.width = width ∧ b.height = height ∧ b.stride = stride

theorem shareBuffer_shared {w w' : World} {a : Answers} {r : Outcome} {hnd : PrivateHandle}
    {width height size stride format : BitVec 32}
    (h : shareBuffer w a width height size stride format = (r, w'))
    (hhandle : r.handle = some hnd) : Shared w' hnd width height size stride := by
  obtain ⟨fd, w₁, start, w₂, pool, w₃, buffer, w₄, hfile, hfd, hmap, hpool, hbuffer, hmapped⟩ :=
    shareBuffer_delivers h hhandle
  have hlength := osCreateAnonymousFile_ok hfile hfd
  have hw₂ := mmap_ok hmap
  obtain ⟨p, rfl, hw₄⟩ := wlShmPoolCreateBuffer_ok hbuffer
  have hw₃ := wlShmCreatePool_ok hpool
  obtain ⟨mapped, rfl, rfl⟩ := mapBuffer_ok (by simp [PrivateHandle.new]) hmapped
  subst hw₄ hw₃ hw₂
  refine ⟨rfl, hlength, ?_, ⟨p, rfl, AList.lookup_insert _⟩,
    ⟨buffer, _, rfl, AList.lookup_insert _, rfl, rfl, rfl⟩⟩
  have address : ((mapped + 0#32).setWidth 64).setWidth 32 = mapped := by
    rw [BitVec.add_zero, BitVec.setWidth_setWidth_of_le mapped (by decide), BitVec.setWidth_eq]
  change AList.lookup (((mapped + 0#32).setWidth 64).setWidth 32) (AList.insert mapped _ _) = _
  rw [address]
  exact AList.lookup_insert _

/-- The file has the size of the handle, and no byte that is mapped lies beyond its end. -/
def FileCoversMapping (w : World) (hnd : PrivateHandle) : Prop :=
  ∀ m length, w.mappings.lookup (hnd.base.setWidth 32) = some m →
    w.files.lookup hnd.fd = some (.memory length) →
      hnd.size.toNat ≤ length ∧ m.length.toNat ≤ length

/-- The compositor reads rows that hold a row of the picture each, and stays in the pool. -/
def RowsFit (w : World) (hnd : PrivateHandle) (width height bpp : BitVec 32) : Prop :=
  ∀ p b pool buffer, hnd.pool = some p → w.pools.lookup p = some pool →
    hnd.wlBuffer = some b → w.buffers.lookup b = some buffer →
      width.toNat * bpp.toNat ≤ buffer.stride.toNat ∧
        buffer.stride.toNat * height.toNat ≤ pool.size.toNat

theorem shareBuffer_of_grallocAlloc {w : World} {a : Answers} {width height bpp : BitVec 32}
    {format : PixelFormat} {wlBufferFormat usage : BitVec 32}
    (hformat : bufferFormat format = some (bpp, wlBufferFormat))
    (husage : usage &&& grallocUsageHwFb = 0) :
    grallocAlloc w a width height format usage true true =
      shareBuffer w a width height (bytesPerRow width bpp * height) (bytesPerRow width bpp / bpp)
        wlBufferFormat := by
  simp [grallocAlloc, hformat, husage]

theorem row_le_stride_iff {width bpp : ℕ} (hwidth : 0 < width)
    (hbpp : bpp = 2 ∨ bpp = 3 ∨ bpp = 4) :
    width * bpp ≤ rowBytes width bpp / bpp ↔ bpp = 2 ∧ width = 1 := by
  unfold rowBytes
  rcases hbpp with rfl | rfl | rfl <;> omega

theorem sizes_toNat {width height bpp : BitVec 32} (hheight : 0 < height.toNat)
    (hfits : rowBytes width.toNat bpp.toNat * height.toNat < 2 ^ 32) :
    (bytesPerRow width bpp * height).toNat = rowBytes width.toNat bpp.toNat * height.toNat ∧
      (bytesPerRow width bpp / bpp).toNat = rowBytes width.toNat bpp.toNat / bpp.toNat ∧
      (height * (bytesPerRow width bpp / bpp)).toNat =
        height.toNat * (rowBytes width.toNat bpp.toNat / bpp.toNat) := by
  have row := bytesPerRow_toNat width bpp ((Nat.le_mul_of_pos_right _ hheight).trans_lt hfits)
  have stride : (bytesPerRow width bpp / bpp).toNat =
      rowBytes width.toNat bpp.toNat / bpp.toNat := by
    rw [BitVec.toNat_udiv, row]
  refine ⟨?_, stride, ?_⟩
  · rw [BitVec.toNat_mul, row, Nat.mod_eq_of_lt hfits]
  · rw [BitVec.toNat_mul, stride]
    apply Nat.mod_eq_of_lt
    calc
      _ ≤ height.toNat * rowBytes width.toNat bpp.toNat :=
        Nat.mul_le_mul_left _ (Nat.div_le_self _ _)
      _ < 2 ^ 32 := by rwa [Nat.mul_comm]

theorem file_lt_size {width height bpp : ℕ} (hwidth : 0 < width) (hheight : 0 < height)
    (hbpp : bpp = 2 ∨ bpp = 3 ∨ bpp = 4) :
    height * (rowBytes width bpp / bpp) < rowBytes width bpp * height := by
  have row : 0 < rowBytes width bpp := by
    unfold rowBytes
    rcases hbpp with rfl | rfl | rfl <;> omega
  rw [Nat.mul_comm]
  exact Nat.mul_lt_mul_of_pos_right (Nat.div_lt_self row (by omega)) hheight

theorem toNat_pos_of_toInt_pos {x : BitVec 32} (h : 0 < x.toInt) : 0 < x.toNat := by
  rw [BitVec.toInt_eq_toNat_cond] at h
  split at h <;> omega

theorem Shared.rowsFit_iff {w : World} {hnd : PrivateHandle} {width height size stride : BitVec 32}
    (h : Shared w hnd width height size stride) (bpp : BitVec 32) :
    RowsFit w hnd width height bpp ↔
      width.toNat * bpp.toNat ≤ stride.toNat ∧
        stride.toNat * height.toNat ≤ (height * stride).toNat := by
  obtain ⟨p, hp, hpool⟩ := h.pool
  obtain ⟨b, buffer, hb, hbuffer, -, -, rfl⟩ := h.buffer
  constructor
  · intro fit
    exact fit p b _ buffer hp hpool hb hbuffer
  · intro fit p' b' pool' buffer' hp' hpool' hb' hbuffer'
    obtain rfl : p = p' := Option.some.inj (hp.symm.trans hp')
    obtain rfl : b = b' := Option.some.inj (hb.symm.trans hb')
    obtain rfl := Option.some.inj (hpool.symm.trans hpool')
    obtain rfl := Option.some.inj (hbuffer.symm.trans hbuffer')
    exact fit

/-- The file is shorter than the mapping in every buffer delivered, and the rows overlap in
    all but a column of two-byte pixels. -/
theorem buffer_outgrows_file (w : World) (a : Answers) (width height : BitVec 32)
    (format : PixelFormat) (usage bpp wlBufferFormat : BitVec 32) (hnd : PrivateHandle)
    (hwidth : 0 < width.toInt) (hheight : 0 < height.toInt)
    (hformat : bufferFormat format = some (bpp, wlBufferFormat))
    (husage : usage &&& grallocUsageHwFb = 0)
    (hfits : rowBytes width.toNat bpp.toNat * height.toNat < 2 ^ 32)
    (hhandle : (grallocAlloc w a width height format usage true true).1.handle = some hnd) :
    ¬ FileCoversMapping (grallocAlloc w a width height format usage true true).2 hnd ∧
      (RowsFit (grallocAlloc w a width height format usage true true).2 hnd width height bpp ↔
        bpp = 2#32 ∧ width = 1#32) := by
  rw [shareBuffer_of_grallocAlloc hformat husage] at hhandle ⊢
  generalize hr : shareBuffer w a width height _ _ wlBufferFormat = r at hhandle ⊢
  have shared := shareBuffer_shared hr hhandle
  have width_pos := toNat_pos_of_toInt_pos hwidth
  have height_pos := toNat_pos_of_toInt_pos hheight
  obtain ⟨size, stride, file⟩ := sizes_toNat height_pos hfits
  have pixel : bpp.toNat = 2 ∨ bpp.toNat = 3 ∨ bpp.toNat = 4 := by
    rcases bpp_cases hformat with rfl | rfl | rfl <;> simp
  constructor
  · intro covers
    have bound := (covers _ _ shared.mapping shared.file).1
    rw [shared.handleSize, size, file] at bound
    exact absurd (file_lt_size width_pos height_pos pixel) (Nat.not_lt.mpr bound)
  · have inPool : (bytesPerRow width bpp / bpp).toNat * height.toNat ≤
        (height * (bytesPerRow width bpp / bpp)).toNat := by rw [file, stride, Nat.mul_comm]
    rw [shared.rowsFit_iff bpp, and_iff_left inPool, stride, row_le_stride_iff width_pos pixel]
    simp [← BitVec.toNat_inj]

def loaded : World where
  module := ⟨none, 0, 0, 0, none, true, ⟨0, 0, 0⟩, ⟨0, 0⟩⟩
  files := ∅
  mappings := ∅
  pools := ∅
  buffers := ∅
  faults := []

def granted : Answers where
  file := ⟨true, true, .ok 3, true, true, .ok ()⟩
  dataMap := .ok 0x10000#32
  pool := some 0x1000#32
  buffer := some 0x2000#32
  mapBuffer := .ok 0x20000#32
  ashmem := .error 2
  framebuffer :=
    ⟨.error 2, .error 2, .error 2, .error 2, fun _ => .error 2, .error 2, .error 2, 2, .error 2,
      .error 2⟩
  dup := .error 2

def pixelHandle (size : BitVec 32) : PrivateHandle :=
  ⟨3, sMagic, 0, size, 0, some 0x1000#32, some 0x2000#32, 0x20000#64⟩

theorem column_outgrows_file :
    (grallocAlloc loaded granted 1 2 .rgb565 0 true true).1.handle = some (pixelHandle 8) ∧
      ¬ FileCoversMapping (grallocAlloc loaded granted 1 2 .rgb565 0 true true).2
        (pixelHandle 8) ∧
      RowsFit (grallocAlloc loaded granted 1 2 .rgb565 0 true true).2 (pixelHandle 8) 1 2 2 := by
  have delivered : (grallocAlloc loaded granted 1 2 .rgb565 0 true true).1.handle =
      some (pixelHandle 8) := by decide +kernel
  have sizes := buffer_outgrows_file loaded granted 1 2 .rgb565 0 2 0 (pixelHandle 8)
    (by decide) (by decide) rfl (by decide) (by decide) delivered
  exact ⟨delivered, sizes.1, sizes.2.mpr ⟨rfl, rfl⟩⟩

theorem one_pixel_outgrows_file :
    (grallocAlloc loaded granted 1 1 .rgba8888 0 true true).1 =
      ⟨0, some (pixelHandle 4), some 1⟩ ∧
    ¬ (FileCoversMapping (grallocAlloc loaded granted 1 1 .rgba8888 0 true true).2 (pixelHandle 4) ∧
      RowsFit (grallocAlloc loaded granted 1 1 .rgba8888 0 true true).2 (pixelHandle 4) 1 1 4) := by
  refine ⟨by decide +kernel, fun agree => ?_⟩
  have covered := (agree.1 ⟨4, 3⟩ 1 (by decide +kernel) (by decide +kernel)).1
  exact absurd covered (by decide)

end Shashlik.GrallocGeometry
