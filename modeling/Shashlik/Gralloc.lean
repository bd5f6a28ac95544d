import Mathlib.Data.List.AList
import Mathlib.Data.PNat.Defs
import Shashlik.Library.AlignedSizes

set_option autoImplicit false

/-!
# The graphics memory allocator

`gralloc_alloc` makes a buffer that the application draws into and the Wayland compositor
shows: an unlinked file, mapped by the allocator and shared with the compositor as a `wl_shm`
pool. Buffers for the screen itself are slots of the framebuffer device instead. Words are
those of the 32-bit build. The answers of the kernel and of the Wayland library are free; a
name they could not give, because it is in use, counts as a failed call.
-/
namespace Shashlik.Gralloc
open AlignedSizes

abbrev Address := BitVec 32

abbrev Errno := ℕ+

abbrev Answer (α : Type) := Except Errno α

def enomem : Errno := 12
def einval : Errno := 22
def emfile : Errno := 24

inductive PixelFormat where
  | rgba8888
  | rgbx8888
  | bgra8888
  | rgb888
  | rgb565
  | rawSensor
  | other
  deriving DecidableEq

def grallocUsageHwFb : BitVec 32 := 0x1000#32
def privFlagsFramebuffer : BitVec 32 := 1#32
def pageFlip : BitVec 32 := 1#32
def sMagic : BitVec 32 := 0x3141592#32
/-- `NUM_BUFFERS`, the screens asked for. -/
def numScreens : BitVec 32 := 2#32

def wlShmFormatArgb8888 : BitVec 32 := 0#32
def wlShmFormatXrgb8888 : BitVec 32 := 1#32

structure PrivateHandle where
  fd : ℤ
  magic : BitVec 32
  flags : BitVec 32
  size : BitVec 32
  offset : BitVec 32
  pool : Option Address
  wlBuffer : Option Address
  base : BitVec 64
  deriving DecidableEq

def PrivateHandle.new (fd : ℤ) (size flags : BitVec 32) (pool wlBuffer : Option Address) :
    PrivateHandle :=
  ⟨fd, sMagic, flags, size, 0, pool, wlBuffer, 0⟩

def PrivateHandle.validate : Option PrivateHandle → ℤ
  | none => -einval
  | some hnd => if hnd.magic ≠ sMagic then -einval else 0

structure FixScreeninfo where
  lineLength : BitVec 32
  smemLen : BitVec 32
  deriving DecidableEq

structure VarScreeninfo where
  yres : BitVec 32
  yresVirtual : BitVec 32
  yoffset : BitVec 32
  deriving DecidableEq

/-- `private_module_t`. `shm` says that `waylandClient->getShm()` is there to be used. -/
structure PrivateModule where
  framebuffer : Option PrivateHandle
  flags : BitVec 32
  numBuffers : BitVec 32
  bufferMask : BitVec 32
  currentBuffer : Option PrivateHandle
  shm : Bool
  info : VarScreeninfo
  finfo : FixScreeninfo

inductive File where
  | memory (length : ℕ)
  | framebuffer
  deriving DecidableEq

structure Mapping where
  length : BitVec 32
  fd : ℤ
  deriving DecidableEq

structure ShmPool where
  fd : ℤ
  size : BitVec 32
  deriving DecidableEq

/-- `stride` counts bytes, as the Wayland protocol has it. -/
structure WlBuffer where
  pool : Address
  offset : BitVec 32
  width : BitVec 32
  height : BitVec 32
  stride : BitVec 32
  format : BitVec 32
  deriving DecidableEq

/-- What ends the process, or leaves it undefined: the call in which it happens does not return,
    and what it gives means nothing. -/
inductive Fault where
  | nullShm
  | nullPool
  | nullFramebuffer
  | divisionByZero
  | shiftOutOfRange
  deriving DecidableEq

structure World where
  module : PrivateModule
  files : AList (fun _ : ℤ => File)
  mappings : AList (fun _ : Address => Mapping)
  pools : AList (fun _ : Address => ShmPool)
  buffers : AList (fun _ : Address => WlBuffer)
  faults : List Fault

namespace World

def fault (w : World) (f : Fault) : World := { w with faults := f :: w.faults }

def openFile (w : World) (answer : Answer ℤ) (f : File) : Answer ℤ × World :=
  match answer with
  | .error e => (.error e, w)
  | .ok fd =>
    if 0 ≤ fd ∧ fd ∉ w.files then (.ok fd, { w with files := w.files.insert fd f })
    else (.error emfile, w)

def close (w : World) (fd : ℤ) : World := { w with files := w.files.erase fd }

def dup (w : World) (answer : Answer ℤ) (fd : ℤ) : ℤ × World :=
  match w.files.lookup fd with
  | none => (-1, w)
  | some f =>
    match w.openFile answer f with
    | (.error _, w) => (-1, w)
    | (.ok fd, w) => (fd, w)

/-- Nothing is mapped there yet, and the end does not pass the address space. -/
def Unmapped (w : World) (start : Address) (length : BitVec 32) : Prop :=
  start ≠ 0 ∧ start.toNat + length.toNat ≤ 2 ^ 32 ∧
    ∀ m ∈ w.mappings.entries, start.toNat + length.toNat ≤ m.1.toNat ∨
      m.1.toNat + m.2.length.toNat ≤ start.toNat

instance (w : World) (start : Address) (length : BitVec 32) :
    Decidable (w.Unmapped start length) :=
  inferInstanceAs (Decidable (_ ∧ _ ∧ ∀ m ∈ w.mappings.entries, _))

def mmap (w : World) (answer : Answer Address) (length : BitVec 32) (fd : ℤ) :
    Answer Address × World :=
  match answer with
  | .error e => (.error e, w)
  | .ok start =>
    if length = 0 then (.error einval, w)
    else if w.Unmapped start length then
      (.ok start, { w with mappings := w.mappings.insert start ⟨length, fd⟩ })
    else (.error enomem, w)

def munmap (w : World) (start : Address) : World :=
  { w with mappings := w.mappings.erase start }

def wlShmCreatePool (w : World) (answer : Option Address) (fd : ℤ) (size : BitVec 32) :
    Option Address × World :=
  if w.module.shm = false then (none, w.fault .nullShm)
  else
    match answer with
    | none => (none, w)
    | some pool =>
      if pool ∈ w.pools then (none, w)
      else (some pool, { w with pools := w.pools.insert pool ⟨fd, size⟩ })

def wlShmPoolCreateBuffer (w : World) (answer pool : Option Address)
    (offset width height stride format : BitVec 32) : Option Address × World :=
  match pool with
  | none => (none, w.fault .nullPool)
  | some pool =>
    match answer with
    | none => (none, w)
    | some buffer =>
      if buffer ∈ w.buffers then (none, w)
      else
        (some buffer,
          { w with
            buffers := w.buffers.insert buffer ⟨pool, offset, width, height, stride, format⟩ })

def wlShmPoolDestroy (w : World) : Option Address → World
  | none => w.fault .nullPool
  | some pool => { w with pools := w.pools.erase pool }

end World

structure FileAnswers where
  xdgRuntimeDir : Bool
  malloc : Bool
  mkstemp : Answer ℤ
  fcntlGetfd : Bool
  fcntlSetfd : Bool
  ftruncate : Answer Unit

def setCloexecOrClose (w : World) (a : FileAnswers) (fd : ℤ) : ℤ × World :=
  if fd = -1 then (-5, w)
  else if a.fcntlGetfd = false then (-6, w.close fd)
  else if a.fcntlSetfd = false then (-7, w.close fd)
  else (fd, w)

def createTmpfileCloexec (w : World) (a : FileAnswers) : ℤ × World :=
  match w.openFile a.mkstemp (.memory 0) with
  | (.error _, w) => (-1, w)
  | (.ok fd, w) => setCloexecOrClose w a fd

def ftruncate (w : World) (answer : Answer Unit) (fd : ℤ) (length : BitVec 32) :
    Answer Unit × World :=
  if length.toInt < 0 then (.error einval, w)
  else
    match answer with
    | .error e => (.error e, w)
    | .ok () => (.ok (), { w with files := w.files.insert fd (.memory length.toNat) })

def osCreateAnonymousFile (w : World) (a : FileAnswers) (size : BitVec 32) : ℤ × World :=
  if a.xdgRuntimeDir = false then (-4, w)
  else if a.malloc = false then (-3, w)
  else
    match createTmpfileCloexec w a with
    | (fd, w) =>
      if fd < 0 then (-2, w)
      else
        match ftruncate w a.ftruncate fd size with
        | (.error e, w) => (-e, w.close fd)
        | (.ok (), w) => (fd, w)

def roundUpToPageSize (x : BitVec 32) : BitVec 32 := alignUp 4096#32 x

def grallocMap (w : World) (answer : Answer Address) (hnd : PrivateHandle) :
    ℤ × PrivateHandle × World :=
  if hnd.flags &&& privFlagsFramebuffer = 0 then
    match w.mmap answer hnd.size hnd.fd with
    | (.error e, w) => (-e, hnd, w)
    | (.ok start, w) => (0, { hnd with base := (start + hnd.offset).setWidth 64 }, w)
  else (0, hnd, w)

def grallocUnmap (w : World) (hnd : PrivateHandle) : World :=
  if hnd.flags &&& privFlagsFramebuffer = 0 then w.munmap (hnd.base.setWidth 32) else w

def mapBuffer (w : World) (answer : Answer Address) (hnd : PrivateHandle) :
    ℤ × PrivateHandle × World :=
  grallocMap w answer hnd

def terminateBuffer (w : World) (hnd : PrivateHandle) : World :=
  if hnd.base ≠ 0 then grallocUnmap w hnd else w

/-- How the calls of one `mapFrameBufferLocked` come out. `errno` is what an earlier call left
    there, and `putVscreeninfo` what the driver makes of a request. -/
structure FramebufferAnswers where
  openGraphics : Answer ℤ
  openDev : Answer ℤ
  fixScreeninfo : Answer FixScreeninfo
  varScreeninfo : Answer VarScreeninfo
  putVscreeninfo : VarScreeninfo → Answer VarScreeninfo
  varScreeninfoAgain : Answer VarScreeninfo
  fixScreeninfoAgain : Answer FixScreeninfo
  errno : ℕ
  dup : Answer ℤ
  mmap : Answer Address

def openDevice (w : World) (a : FramebufferAnswers) : Answer ℤ × World :=
  match w.openFile a.openGraphics .framebuffer with
  | (.ok fd, w) => (.ok fd, w)
  | (.error _, w) => w.openFile a.openDev .framebuffer

def readScreeninfo (a : FramebufferAnswers) :
    Except ℤ (BitVec 32 × VarScreeninfo × FixScreeninfo) :=
  match a.fixScreeninfo with
  | .error e => .error (-e)
  | .ok _ =>
    match a.varScreeninfo with
    | .error e => .error (-e)
    | .ok info =>
      let request := { info with yresVirtual := info.yres * numScreens, yoffset := 0 }
      let (flags, info) :=
        match a.putVscreeninfo request with
        | .error _ => (pageFlip &&& ~~~pageFlip, { request with yresVirtual := info.yres })
        | .ok info => (pageFlip, info)
      let flags := if info.yresVirtual < info.yres * 2 then flags &&& ~~~pageFlip else flags
      match a.varScreeninfoAgain with
      | .error e => .error (-e)
      | .ok info =>
        match a.fixScreeninfoAgain with
        | .error e => .error (-e)
        -- no call has failed here, so `errno` may be 0
        | .ok finfo => if finfo.smemLen = 0 then .error (-a.errno) else .ok (flags, info, finfo)

/-- The handle is published before the division and the `mmap`. No code comes back from a
    division by zero. -/
def mapFrameBufferLocked (w : World) (a : FramebufferAnswers) : Option ℤ × World :=
  if w.module.framebuffer.isSome then (some 0, w)
  else
    match openDevice w a with
    | (.error e, w) => (some (-e), w)
    | (.ok fd, w) =>
      match readScreeninfo a with
      | .error code => (some code, w)
      | .ok (flags, info, finfo) =>
        let fbSize := roundUpToPageSize (finfo.lineLength * info.yresVirtual)
        let (fbFd, w) := w.dup a.dup fd
        let framebuffer := PrivateHandle.new fbFd fbSize 0 none none
        let w := { w with
          module := { w.module with
            framebuffer := some framebuffer, flags := flags, info := info, finfo := finfo } }
        if info.yres = 0 then (none, w.fault .divisionByZero)
        else
          let w := { w with
            module := { w.module with
              numBuffers := info.yresVirtual / info.yres, bufferMask := 0 } }
          match w.mmap a.mmap fbSize fd with
          | (.error e, w) => (some (-e), w)
          | (.ok vaddr, w) =>
            (some 0, { w with
              module := { w.module with
                framebuffer := some { framebuffer with base := vaddr.signExtend 64 } } })

/-- `mapFrameBuffer`, which `fb_device_open` calls: the same under the module's lock. -/
def mapFrameBuffer (w : World) (a : FramebufferAnswers) : Option ℤ × World :=
  mapFrameBufferLocked w a

structure Answers where
  file : FileAnswers
  dataMap : Answer Address
  pool : Option Address
  buffer : Option Address
  mapBuffer : Answer Address
  ashmem : Answer ℤ
  framebuffer : FramebufferAnswers
  dup : Answer ℤ

structure Outcome where
  code : ℤ
  handle : Option PrivateHandle
  stride : Option (BitVec 32)
  deriving DecidableEq

def Outcome.failed (code : ℤ) : Outcome := ⟨code, none, none⟩

def grallocAllocBuffer (w : World) (a : Answers) (size : BitVec 32) : Outcome × World :=
  let size := roundUpToPageSize size
  match w.openFile a.ashmem (.memory size.toNat) with
  | (.error e, w) => (.failed (-e), w)
  | (.ok fd, w) =>
    match mapBuffer w a.mapBuffer (.new fd size 0 none none) with
    | (err, hnd, w) => (⟨err, if err = 0 then some hnd else none, none⟩, w)

def findSlot (bufferMask numBuffers : BitVec 32) : ℕ :=
  (List.range numBuffers.toNat).findIdx (fun i => bufferMask &&& (1#32 <<< i) = 0)

def grallocAllocFramebufferLocked (w : World) (a : Answers) (size : BitVec 32) :
    Outcome × World :=
  match (if w.module.framebuffer.isNone then mapFrameBufferLocked w a.framebuffer
    else (some 0, w)) with
  | (none, w) => (.failed 0, w)
  | (some err, w) =>
    if err < 0 then (.failed err, w)
    else
      let m := w.module
      let bufferSize := m.finfo.lineLength * m.info.yres
      if m.numBuffers = 1 then grallocAllocBuffer w a bufferSize
      else if 32 ≤ m.numBuffers.toNat then (.failed 0, w.fault .shiftOutOfRange)
      else if m.bufferMask ≥ (1#32 <<< m.numBuffers) - 1 then (.failed (-enomem), w)
      else
        -- a pointer that is null is followed
        match m.framebuffer with
        | none => (.failed 0, w.fault .nullFramebuffer)
        | some framebuffer =>
          let (fd, w) := w.dup a.dup framebuffer.fd
          let slot := findSlot m.bufferMask m.numBuffers
          let start : BitVec 32 := framebuffer.base.setWidth 32
          let vaddr := start + bufferSize * BitVec.ofNat 32 slot
          let hnd := { PrivateHandle.new fd size privFlagsFramebuffer none none with
            base := vaddr.signExtend 64
            offset := vaddr - start }
          let bufferMask := if slot < m.numBuffers.toNat then m.bufferMask ||| (1#32 <<< slot)
            else m.bufferMask
          (⟨0, some hnd, none⟩,
            { w with module := { w.module with bufferMask := bufferMask } })

/-- `bpp` and `wlBufferFormat` for a format; RGB_565 and RAW_SENSOR keep the initial format. -/
def bufferFormat : PixelFormat → Option (BitVec 32 × BitVec 32)
  | .rgba8888 => some (4#32, wlShmFormatArgb8888)
  | .rgbx8888 => some (4#32, wlShmFormatArgb8888)
  | .bgra8888 => some (4#32, wlShmFormatArgb8888)
  | .rgb888 => some (3#32, wlShmFormatXrgb8888)
  | .rgb565 => some (2#32, 0#32)
  | .rawSensor => some (2#32, 0#32)
  | .other => none

def bytesPerRow (width bpp : BitVec 32) : BitVec 32 := alignUp 4#32 (width * bpp)

def shareBuffer (w : World) (a : Answers) (width height size stride format : BitVec 32) :
    Outcome × World :=
  let sizeMap := height * stride
  match osCreateAnonymousFile w a.file sizeMap with
  | (fd, w) =>
    -- these two failures return 0 with nothing stored
    if fd < 0 then (.failed 0, w)
    else
      match w.mmap a.dataMap sizeMap fd with
      | (.error _, w) => (.failed 0, w.close fd)
      | (.ok _, w) =>
        match w.wlShmCreatePool a.pool fd sizeMap with
        | (pool, w) =>
          match w.wlShmPoolCreateBuffer a.buffer pool 0 width height stride format with
          | (none, w) => (⟨0, none, some stride⟩, w)
          | (some buffer, w) =>
            match mapBuffer w a.mapBuffer (.new fd size 0 pool (some buffer)) with
            | (err, hnd, w) =>
              let handle := if err = 0 then some hnd else none
              if err < 0 then (⟨err, handle, none⟩, w) else (⟨0, handle, some stride⟩, w)

/-- `pHandle` and `pStride` say whether these pointers are not null. -/
def grallocAlloc (w : World) (a : Answers) (width height : BitVec 32) (format : PixelFormat)
    (usage : BitVec 32) (pHandle pStride : Bool) : Outcome × World :=
  if pHandle = false ∨ pStride = false then (.failed (-einval), w)
  else
    match bufferFormat format with
    | none => (.failed (-einval), w)
    | some (bpp, wlBufferFormat) =>
      let bpr := bytesPerRow width bpp
      let size := bpr * height
      let stride := bpr / bpp
      if usage &&& grallocUsageHwFb ≠ 0 then
        match grallocAllocFramebufferLocked w a size with
        | (r, w) => if r.code < 0 then (r, w) else (⟨0, r.handle, some stride⟩, w)
      else shareBuffer w a width height size stride wlBufferFormat

/-- `m->bufferMask &= ~(1<<index)`, with the slot computed from the addresses. -/
def freeSlot (w : World) (hnd : PrivateHandle) : World :=
  match w.module.framebuffer with
  | none => w.fault .nullFramebuffer
  | some framebuffer =>
    let bufferSize := w.module.finfo.lineLength * w.module.info.yres
    if bufferSize = 0 then w.fault .divisionByZero
    else
      let index : BitVec 32 := ((hnd.base - framebuffer.base) / bufferSize.setWidth 64).setWidth 32
      if 32 ≤ index.toNat then w.fault .shiftOutOfRange
      else
        { w with
          module := { w.module with bufferMask := w.module.bufferMask &&& ~~~(1#32 <<< index) } }

def grallocFree (w : World) (handle : Option PrivateHandle) : ℤ × World :=
  match handle with
  | none => (PrivateHandle.validate none, w)
  | some hnd =>
    if PrivateHandle.validate (some hnd) < 0 then (-einval, w)
    else
      let w := if hnd.flags &&& privFlagsFramebuffer ≠ 0 then freeSlot w hnd
        else terminateBuffer w hnd
      (0, (w.wlShmPoolDestroy hnd.pool).close hnd.fd)

/-- What a post does to the screen. -/
inductive Display where
  | pan (yoffset : BitVec 32)
  | copy (dst src : BitVec 64) (length : BitVec 32)
  deriving DecidableEq

/-- `putVscreeninfo` is what the driver makes of the request: one that it grants comes back as the
    driver has it, in `info`. -/
def fbPost (w : World) (putVscreeninfo : VarScreeninfo → Answer VarScreeninfo)
    (handle : Option PrivateHandle) : ℤ × Option Display × World :=
  match handle with
  | none => (-einval, none, w)
  | some hnd =>
    if PrivateHandle.validate (some hnd) < 0 then (-einval, none, w)
    else
      match w.module.framebuffer with
      | none => (0, none, w.fault .nullFramebuffer)
      | some framebuffer =>
        if hnd.flags &&& privFlagsFramebuffer ≠ 0 then
          if w.module.finfo.lineLength = 0 then (0, none, w.fault .divisionByZero)
          else
            let offset : BitVec 32 := (hnd.base - framebuffer.base).setWidth 32
            let info := { w.module.info with yoffset := offset / w.module.finfo.lineLength }
            let w := { w with module := { w.module with info := info } }
            match putVscreeninfo info with
            | .error e => (-e, some (.pan info.yoffset), w)
            | .ok granted =>
              (0, some (.pan info.yoffset),
                { w with
                  module := { w.module with info := granted, currentBuffer := some hnd } })
        else
          (0, some (.copy framebuffer.base hnd.base
            (w.module.finfo.lineLength * w.module.info.yres)), w)

end Shashlik.Gralloc
