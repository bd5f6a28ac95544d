import Shashlik.GrallocEffects

set_option autoImplicit false

/-!
# The arithmetic of a buffer's sizes

The row, the size and the stride of a buffer are computed in words of 32 bits from a width and a
height that nobody checks.
-/
namespace Shashlik.GrallocArithmetic
open AlignedSizes Gralloc Gralloc.World GrallocGeometry GrallocFramebuffer GrallocEffects

/-- `size`, `stride` and `size_map`. -/
def byteSize (width height bpp : BitVec 32) : BitVec 32 := bytesPerRow width bpp * height
def pixelStride (width bpp : BitVec 32) : BitVec 32 := bytesPerRow width bpp / bpp
def sizeMap (width height bpp : BitVec 32) : BitVec 32 := height * pixelStride width bpp

theorem shareBuffer_stride {w w' : World} {a : Answers} {r : Outcome}
    {width height size stride format : BitVec 32}
    (h : shareBuffer w a width height size stride format = (r, w')) :
    r.stride = none ∨ r.stride = some stride := by
  unfold shareBuffer at h
  dsimp only at h
  split at h
  · exact Or.inl (congrArg (fun r : Outcome × World => r.1.stride) h).symm
  split at h
  · exact Or.inl (congrArg (fun r : Outcome × World => r.1.stride) h).symm
  split at h
  · exact Or.inr (congrArg (fun r : Outcome × World => r.1.stride) h).symm
  split at h
  · exact Or.inl (congrArg (fun r : Outcome × World => r.1.stride) h).symm
  · exact Or.inr (congrArg (fun r : Outcome × World => r.1.stride) h).symm

theorem takes_size {w w' : World} {size : BitVec 32} {r : Outcome} (h : Takes w size r w') :
    r.stride = none ∧
      ∀ hnd, r.handle = some hnd → hnd.flags &&& privFlagsFramebuffer ≠ 0 → hnd.size = size := by
  have hfailed (code : ℤ) (hnd : PrivateHandle) : (Outcome.failed code).handle ≠ some hnd := by
    simp [Outcome.failed]
  cases h with
  | failed e w' _ _ _ _ => exact ⟨rfl, fun hnd hhnd => absurd hhnd (hfailed _ hnd)⟩
  | shifted _ _ => exact ⟨rfl, fun hnd hhnd => absurd hhnd (hfailed _ hnd)⟩
  | lost _ _ _ => exact ⟨rfl, fun hnd hhnd => absurd hhnd (hfailed _ hnd)⟩
  | own hnd w' _ _ _ _ _ hflags _ _ _ =>
    refine ⟨rfl, fun hnd' hhnd' hslot => absurd ?_ hslot⟩
    rw [← Option.some.inj hhnd']
    exact hflags
  | slot framebuffer fd w' _ _ _ _ _ _ _ _ _ =>
    refine ⟨rfl, fun hnd' hhnd' _ => ?_⟩
    rw [← Option.some.inj hhnd']
    rfl

theorem screenAllocates_size {w w' : World} {a : Answers} {size : BitVec 32} {r : Outcome}
    (h : ScreenAllocates w a size r w') : r.stride = none ∧
      ∀ hnd, r.handle = some hnd → hnd.flags &&& privFlagsFramebuffer ≠ 0 → hnd.size = size := by
  cases h with
  | failed code w' _ _ _ => exact ⟨rfl, fun hnd hhnd => absurd hhnd (by simp [Outcome.failed])⟩
  | divided w' _ _ => exact ⟨rfl, fun hnd hhnd => absurd hhnd (by simp [Outcome.failed])⟩
  | first code w₁ r w' _ _ _ htakes => exact takes_size htakes
  | again r w' _ htakes => exact takes_size htakes

/-- What the call stores is this stride and this size; only a buffer of its own for the screen has
    the size of the screen instead. -/
structure Stores (usage stride size : BitVec 32) (r : Outcome) : Prop where
  stride : ∀ stored, r.stride = some stored → stored = stride
  size : ∀ hnd, r.handle = some hnd →
    usage &&& grallocUsageHwFb = 0 ∨ hnd.flags &&& privFlagsFramebuffer ≠ 0 → hnd.size = size

theorem grallocAlloc_stores (w : World) (a : Answers) (width height : BitVec 32)
    {format : PixelFormat} (usage : BitVec 32) (pHandle pStride : Bool)
    {bpp wlBufferFormat : BitVec 32}
    (hformat : bufferFormat format = some (bpp, wlBufferFormat)) :
    Stores usage (pixelStride width bpp) (byteSize width height bpp)
      (grallocAlloc w a width height format usage pHandle pStride).1 := by
  have hallocates := grallocAlloc_allocates w a width height format usage pHandle pStride
  generalize grallocAlloc w a width height format usage pHandle pStride = r at hallocates ⊢
  obtain ⟨r, w'⟩ := r
  dsimp only at hallocates ⊢
  have hsame {bpp' wlBufferFormat' : BitVec 32}
      (hformat' : bufferFormat format = some (bpp', wlBufferFormat')) : bpp = bpp' := by
    rw [hformat] at hformat'
    exact (Prod.mk.inj (Option.some.inj hformat')).1
  cases hallocates with
  | refused _ =>
    exact ⟨fun stride h => absurd h (by simp [Outcome.failed]),
      fun hnd h => absurd h (by simp [Outcome.failed])⟩
  | shared bpp' wlBufferFormat' r w' _ hformat' _ hshare =>
    obtain rfl := hsame hformat'
    constructor
    · intro stride hstride
      obtain hnone | hsome := shareBuffer_stride hshare
      · exact absurd (hnone.symm.trans hstride) (by simp)
      · exact Option.some.inj (hstride.symm.trans hsome)
    · intro hnd hhnd _
      exact ((shareBuffer_effects hshare).2.2 hnd hhnd).2.2.2.2
  | screen bpp' wlBufferFormat' r w' _ hformat' hscreen hallocates =>
    obtain rfl := hsame hformat'
    obtain ⟨hnone, hsize⟩ := screenAllocates_size hallocates
    have hslot (hnd : PrivateHandle)
        (hor : usage &&& grallocUsageHwFb = 0 ∨ hnd.flags &&& privFlagsFramebuffer ≠ 0) :
        hnd.flags &&& privFlagsFramebuffer ≠ 0 := hor.resolve_left hscreen
    split
    · exact ⟨fun stride h => absurd (hnone.symm.trans h) (by simp),
        fun hnd hhnd hor => hsize hnd hhnd (hslot hnd hor)⟩
    · exact ⟨fun stride h => (Option.some.inj h).symm,
        fun hnd hhnd hor => hsize hnd hhnd (hslot hnd hor)⟩

/-! ### Without a bound on the words -/

/-- A stride and a size are those of the integers: the product and the rounding of a row are an
    `int`, the size a `size_t`, and `size_map` an `int` again. -/
structure Unwrapped (width height bpp stride size : BitVec 32) : Prop where
  width_pos : 0 < width.toInt
  height_pos : 0 < height.toInt
  width_le : width.toNat ≤ stride.toNat
  rows_le : stride.toNat * bpp.toNat * height.toNat ≤ size.toNat
  size : size.toNat = height.toNat * rowBytes width.toNat bpp.toNat
  row_lt : width.toNat * bpp.toNat + 3 < 2 ^ 31
  size_lt : rowBytes width.toNat bpp.toNat * height.toNat < 2 ^ 32
  map_lt : height.toNat * stride.toNat < 2 ^ 31

/-- The picture has pixels, its row fits an `int`, and its rows fit the address space. -/
def Fits (width height bpp : BitVec 32) : Prop :=
  0 < width.toInt ∧ 0 < height.toInt ∧ width.toNat * bpp.toNat + 3 < 2 ^ 31 ∧
    rowBytes width.toNat bpp.toNat * height.toNat < 2 ^ 32

instance (width height bpp : BitVec 32) : Decidable (Fits width height bpp) :=
  inferInstanceAs (Decidable (_ ∧ _ ∧ _ ∧ _))

theorem le_rowBytes (width bpp : ℕ) : width * bpp ≤ rowBytes width bpp := by
  unfold rowBytes
  omega

theorem unwrapped_iff {width height bpp : BitVec 32}
    (hbpp : bpp = 2#32 ∨ bpp = 3#32 ∨ bpp = 4#32) :
    Unwrapped width height bpp (pixelStride width bpp) (byteSize width height bpp) ↔
      Fits width height bpp := by
  constructor
  · intro h
    exact ⟨h.width_pos, h.height_pos, h.row_lt, h.size_lt⟩
  · rintro ⟨hwidth, hheight, hrow, hsize⟩
    have hpixel : 2 ≤ bpp.toNat := by rcases hbpp with rfl | rfl | rfl <;> decide
    obtain ⟨hbyteSize, hstride, -⟩ := sizes_toNat (toNat_pos_of_toInt_pos hheight) hsize
    have hwidth_le : width.toNat ≤ rowBytes width.toNat bpp.toNat / bpp.toNat :=
      (Nat.le_div_iff_mul_le (by omega)).mpr (le_rowBytes _ _)
    have hrows : rowBytes width.toNat bpp.toNat / bpp.toNat * bpp.toNat ≤
        rowBytes width.toNat bpp.toNat := Nat.div_mul_le_self _ _
    refine ⟨hwidth, hheight, ?_, ?_, ?_, hrow, hsize, ?_⟩
    · rw [pixelStride, hstride]
      exact hwidth_le
    · rw [pixelStride, byteSize, hstride, hbyteSize]
      exact Nat.mul_le_mul_right _ hrows
    · rw [byteSize, hbyteSize, Nat.mul_comm]
    · rw [pixelStride, hstride]
      -- a pixel has at least two bytes, so that half the size bounds the pixels
      have hhalf : 2 * (height.toNat * (rowBytes width.toNat bpp.toNat / bpp.toNat)) < 2 ^ 32 := by
        calc
          _ ≤ bpp.toNat * (height.toNat * (rowBytes width.toNat bpp.toNat / bpp.toNat)) :=
            Nat.mul_le_mul_right _ hpixel
          _ = rowBytes width.toNat bpp.toNat / bpp.toNat * bpp.toNat * height.toNat := by
            rw [Nat.mul_comm, Nat.mul_assoc, Nat.mul_comm]
          _ ≤ rowBytes width.toNat bpp.toNat * height.toNat := Nat.mul_le_mul_right _ hrows
          _ < 2 ^ 32 := hsize
      omega

/-- No call with this size that returns no error has computed with sizes that wrap, and the sizes
    that it stores are those. -/
def GeometryKept (width height : BitVec 32) (format : PixelFormat) : Prop :=
  ∀ (w : World) (a : Answers) (usage bpp wlBufferFormat : BitVec 32),
    bufferFormat format = some (bpp, wlBufferFormat) →
      0 ≤ (grallocAlloc w a width height format usage true true).1.code →
        Unwrapped width height bpp (pixelStride width bpp) (byteSize width height bpp) ∧
          Stores usage (pixelStride width bpp) (byteSize width height bpp)
            (grallocAlloc w a width height format usage true true).1

def withoutFile : Answers :=
  { granted with file := ⟨false, true, .ok 3, true, true, .ok ()⟩ }

theorem alloc_without_file (width height : BitVec 32) {format : PixelFormat}
    {bpp wlBufferFormat : BitVec 32} (hformat : bufferFormat format = some (bpp, wlBufferFormat)) :
    (grallocAlloc loaded withoutFile width height format 0 true true).1 = .failed 0 := by
  rw [shareBuffer_of_grallocAlloc hformat (by decide)]
  rfl

theorem geometry_kept_iff (width height : BitVec 32) (format : PixelFormat) :
    GeometryKept width height format ↔
      ∀ bpp wlBufferFormat, bufferFormat format = some (bpp, wlBufferFormat) →
        Fits width height bpp := by
  constructor
  · intro hkept bpp wlBufferFormat hformat
    have hcode := congrArg Outcome.code (alloc_without_file width height hformat)
    exact (unwrapped_iff (bpp_cases hformat)).mp
      (hkept _ _ 0 bpp wlBufferFormat hformat (Int.le_of_eq hcode.symm)).1
  · intro hfits w a usage bpp wlBufferFormat hformat _
    exact ⟨(unwrapped_iff (bpp_cases hformat)).mpr (hfits bpp wlBufferFormat hformat),
      grallocAlloc_stores w a width height usage true true hformat⟩

theorem wrapped_size_delivered :
    (grallocAlloc loaded { granted with mapBuffer := .ok 0x80000000#32 } 0x10000#32 0x4001#32
      .rgba8888 0 true true).1 =
        ⟨0, some { pixelHandle 0x40000 with base := 0x80000000#64 }, some 0x10000#32⟩ ∧
    ¬ GeometryKept 0x10000#32 0x4001#32 .rgba8888 := by
  have houtcome : (grallocAlloc loaded { granted with mapBuffer := .ok 0x80000000#32 } 0x10000#32
      0x4001#32 .rgba8888 0 true true).1 =
        ⟨0, some { pixelHandle 0x40000 with base := 0x80000000#64 }, some 0x10000#32⟩ := by
    decide +kernel
  refine ⟨houtcome, fun hkept => ?_⟩
  obtain ⟨hunwrapped, -⟩ := hkept loaded { granted with mapBuffer := .ok 0x80000000#32 } 0
    4#32 wlShmFormatArgb8888 rfl (by rw [houtcome])
  exact absurd hunwrapped.size (by decide)

end Shashlik.GrallocArithmetic
