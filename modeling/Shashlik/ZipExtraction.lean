import Shashlik.ZipEntries

set_option autoImplicit false

/-!
# Extracting entries

An entry is copied or inflated to a writer a buffer at a time. What zlib does with a stream is a
parameter, of which its documentation says how it goes on.
-/
namespace Shashlik.ZipArchives
open ByteFields

/-! ### Writers -/

/-- Where the data goes. A file can fail to take it. -/
structure Writer where
  limit : ℕ
  written : List UInt8
  /-- Whether a write fails once so many bytes have been written. -/
  refuses : ℕ → Bool

/-- `size_t` has 32 bits, so that the sum can come out small again. -/
def Writer.append (writer : Writer) (buf : List UInt8) : Option Writer :=
  if (UInt32.ofNat writer.written.length + UInt32.ofNat buf.length).toNat > writer.limit then none
  else if writer.refuses writer.written.length then none
  else some { writer with written := writer.written ++ buf }

def memoryWriter (size : ℕ) : Writer := ⟨size, [], fun _ => false⟩

inductive Creation where
  | seek
  | allocate
  | truncate

def fileWriter (fails : Creation → Bool) (refuses : ℕ → Bool) (entry : ZipEntry) : Option Writer :=
  let declaredLength := entry.uncompressedLength.toNat
  if fails .seek then none
  else if 0 < declaredLength ∧ fails .allocate then none
  else if fails .truncate then none
  else some ⟨declaredLength, [], refuses⟩

/-! ### Copying -/

def kBufSize : ℕ := 32768

/-- A read of the descriptor at its position, the n-th of the loop, if it gives all bytes. -/
def readBlock (host : Host) (n pos size : ℕ) : Option (List UInt8) :=
  readAtOffset host (.readBlock n) size pos

structure Progress where
  pos : ℕ
  blocks : ℕ
  writer : Writer

/-- The loop of `CopyEntryToWriter`, with so many bytes to come. Its checksum is not used. -/
def copyLoop (host : Host) : ℕ → ℕ → Progress → Option (ℤ × Progress)
  | _, 0, s => some (0, s)
  | 0, _ + 1, _ => none
  | fuel + 1, remaining + 1, s =>
    let blockSize := min kBufSize (remaining + 1)
    match readBlock host s.blocks s.pos blockSize with
    | none => some (kIoError, s)
    | some buf =>
      let s := { s with pos := s.pos + blockSize, blocks := s.blocks + 1 }
      match s.writer.append buf with
      | none => some (kIoError, s)
      | some writer => copyLoop host fuel (remaining + 1 - blockSize) { s with writer := writer }

def copyEntryToWriter (host : Host) (pos : ℕ) (entry : ZipEntry) (writer : Writer) :
    Option (ℤ × Progress) :=
  copyLoop host entry.uncompressedLength.toNat entry.uncompressedLength.toNat ⟨pos, 0, writer⟩

/-! ### Inflating -/

def Z_OK : ℤ := 0
def Z_STREAM_END : ℤ := 1

/-- What a call of `inflate` makes of its input and of the room for its output. -/
structure Inflated (σ : Type) where
  zerr : ℤ
  consumed : ℕ
  produced : List UInt8
  state : σ

structure Zlib (σ : Type) where
  inflateInit2 : Option σ
  inflate : σ → List UInt8 → ℕ → Inflated σ
  consumed_le : ∀ state availIn availOut, (inflate state availIn availOut).consumed ≤ availIn.length
  produced_le : ∀ state availIn availOut,
    (inflate state availIn availOut).produced.length ≤ availOut

structure InflateProgress (σ : Type) extends Progress where
  zstream : σ
  availIn : List UInt8
  compressedLength : ℕ
  writeBuf : List UInt8
  totalOut : UInt32

section
variable {σ : Type}

def refill (host : Host) (s : InflateProgress σ) : Option (InflateProgress σ) :=
  if s.availIn = [] then
    let getSize := min kBufSize s.compressedLength
    (readBlock host s.blocks s.pos getSize).map fun buf =>
      { s with
        pos := s.pos + getSize
        blocks := s.blocks + 1
        availIn := buf
        compressedLength := s.compressedLength - getSize }
  else some s

def flush (zerr : ℤ) (s : InflateProgress σ) : Option (InflateProgress σ) :=
  if s.writeBuf.length = kBufSize ∨ (zerr = Z_STREAM_END ∧ s.writeBuf.length ≠ 0) then
    (s.writer.append s.writeBuf).map fun writer => { s with writer := writer, writeBuf := [] }
  else some s

def inflateLoop (host : Host) (z : Zlib σ) :
    ℕ → InflateProgress σ → Option (ℤ × InflateProgress σ)
  | 0, _ => none
  | fuel + 1, s =>
    match refill host s with
    | none => some (kIoError, s)
    | some s =>
      let r := z.inflate s.zstream s.availIn (kBufSize - s.writeBuf.length)
      let s := { s with
        zstream := r.state
        availIn := s.availIn.drop r.consumed
        writeBuf := s.writeBuf ++ r.produced
        totalOut := s.totalOut + UInt32.ofNat r.produced.length }
      if r.zerr ≠ Z_OK ∧ r.zerr ≠ Z_STREAM_END then some (kZlibError, s)
      else
        match flush r.zerr s with
        | none => some (kInconsistentInformation, s)
        | some s => if r.zerr = Z_OK then inflateLoop host z fuel s else some (0, s)

def inflateEntryToWriter (host : Host) (z : Zlib σ) (fuel pos : ℕ) (entry : ZipEntry)
    (writer : Writer) : Option (ℤ × Progress) := do
  match z.inflateInit2 with
  | none => some (kZlibError, ⟨pos, 0, writer⟩)
  | some zstream =>
    let (result, s) ← inflateLoop host z fuel
      ⟨⟨pos, 0, writer⟩, zstream, [], entry.compressedLength.toNat, [], 0⟩
    if result ≠ 0 then some (result, s.toProgress)
    else if s.totalOut ≠ entry.uncompressedLength ∨ s.compressedLength ≠ 0 then
      some (kInconsistentInformation, s.toProgress)
    else some (0, s.toProgress)

/-! ### Extracting -/

def kOptSignature : UInt32 := 0x08074b50

def updateEntryFromDataDescriptor (host : Host) (pos : ℕ) (entry : ZipEntry) :
    Option (ℤ × ZipEntry) := do
  match readAtOffset host .readDescriptor 16 pos with
  | none => some (kIoError, entry)
  | some ddBuf =>
    let ddSignature ← uint32 (ofBytes ddBuf) 0
    let offset := if ddSignature = kOptSignature then 4 else 0
    let crc32 ← uint32 (ofBytes ddBuf) offset
    let compressedSize ← uint32 (ofBytes ddBuf) (offset + 4)
    let uncompressedSize ← uint32 (ofBytes ddBuf) (offset + 8)
    some (0, { entry with
      crc32 := crc32
      compressedLength := compressedSize
      uncompressedLength := uncompressedSize })

def extractData (host : Host) (z : Zlib σ) (fuel : ℕ) (entry : ZipEntry) (writer : Writer) :
    Option (ℤ × Progress) :=
  if entry.method = kCompressStored then copyEntryToWriter host entry.offset entry writer
  else if entry.method = kCompressDeflated then
    inflateEntryToWriter host z fuel entry.offset entry writer
  else some (-1, ⟨entry.offset, 0, writer⟩)

/-- `ExtractToWriter`. The checksum is not compared. -/
def extractToWriter (host : Host) (z : Zlib σ) (fuel : ℕ) (entry : ZipEntry) (writer : Writer) :
    Option (ℤ × ZipEntry × Writer) := do
  if host.fails .seekData then some (kIoError, entry, writer)
  else
    let (returnValue, s) ← extractData host z fuel entry writer
    if returnValue = 0 ∧ entry.hasDataDescriptor then
      let (returnValue, entry) ← updateEntryFromDataDescriptor host s.pos entry
      some (returnValue, entry, s.writer)
    else some (returnValue, entry, s.writer)

def extractToMemory (host : Host) (z : Zlib σ) (fuel : ℕ) (entry : ZipEntry) (size : ℕ) :
    Option (ℤ × ZipEntry × Writer) := extractToWriter host z fuel entry (memoryWriter size)

def extractEntryToFile (host : Host) (z : Zlib σ) (fuel : ℕ) (fails : Creation → Bool)
    (refuses : ℕ → Bool) (entry : ZipEntry) : Option (ℤ × ZipEntry × Option Writer) :=
  match fileWriter fails refuses entry with
  | none => some (kIoError, entry, none)
  | some writer =>
    (extractToWriter host z fuel entry writer).map fun r => (r.1, r.2.1, some r.2.2)

end

/-! ### What the writer gets -/

theorem toNat_add_ofNat {x : UInt32} {n : ℕ} (h : x.toNat + n < 2 ^ 32) :
    (x + UInt32.ofNat n).toNat = x.toNat + n := by
  have hn : (UInt32.ofNat n).toNat = n :=
    UInt32.toNat_ofNat_of_lt' (by unfold UInt32.size; omega)
  rw [UInt32.toNat_add, hn, Nat.mod_eq_of_lt h]

theorem toNat_ofNat_add {n m : ℕ} (h : n + m < 2 ^ 32) :
    (UInt32.ofNat n + UInt32.ofNat m).toNat = n + m := by
  have hn : (UInt32.ofNat n).toNat = n :=
    UInt32.toNat_ofNat_of_lt' (by unfold UInt32.size; omega)
  rw [toNat_add_ofNat (by rw [hn]; exact h), hn]

/-- With so little room a buffer more does not take the sum over 32 bits. -/
def Writer.Narrow (writer : Writer) : Prop := writer.limit + kBufSize < 2 ^ 32

section
variable {writer writer' : Writer} {buf : List UInt8}

theorem append_eq_some (h : writer.append buf = some writer') :
    writer' = { writer with written := writer.written ++ buf } := by
  rw [Writer.append] at h
  split_ifs at h with hlimit hrefuses
  cases h
  rfl

theorem append_bound (h : writer.append buf = some writer') (hnarrow : writer.Narrow)
    (hwritten : writer.written.length ≤ writer.limit) (hbuf : buf.length ≤ kBufSize) :
    writer'.written.length ≤ writer'.limit := by
  rw [append_eq_some h, List.length_append]
  rw [Writer.Narrow] at hnarrow
  rw [Writer.append, toNat_ofNat_add (by omega)] at h
  split_ifs at h with hlimit hrefuses
  exact Nat.le_of_not_gt hlimit

theorem append_of_fits (hlimit : writer.limit < 2 ^ 32)
    (hfits : writer.written.length + buf.length ≤ writer.limit)
    (hrefuses : ∀ n, writer.refuses n = false) :
    writer.append buf = some { writer with written := writer.written ++ buf } := by
  rw [Writer.append, toNat_ofNat_add (hfits.trans_lt hlimit), if_neg (Nat.not_lt_of_le hfits),
    hrefuses, if_neg Bool.false_ne_true]

end

theorem readBlock_eq_some {host : Host} {n pos size : ℕ} {buf : List UInt8}
    (h : readBlock host n pos size = some buf) :
    buf.length = size ∧ buf = (host.file.drop pos).take size := by
  obtain ⟨-, hlength, hstands⟩ := readAtOffset_iff.mp h
  rw [stands_ofBytes, hlength] at hstands
  exact ⟨hlength, hstands.symm⟩

theorem readBlock_of_fits {host : Host} {n pos size : ℕ}
    (hreads : host.fails (.readBlock n) = false) (hfits : pos + size ≤ host.file.length) :
    readBlock host n pos size = some ((host.file.drop pos).take size) := by
  have hlength : ((host.file.drop pos).take size).length = size := by
    rw [List.length_take, List.length_drop]
    omega
  exact readAtOffset_iff.mpr ⟨hreads, hlength, stands_ofBytes.mpr (by rw [hlength])⟩

theorem take_drop_add (file : List UInt8) (pos n m : ℕ) :
    (file.drop pos).take (n + m) = (file.drop pos).take n ++ (file.drop (pos + n)).take m := by
  rw [List.take_add, List.drop_drop]

theorem copyLoop_sound (host : Host) {fuel remaining : ℕ} {s : Progress}
    (hfuel : remaining ≤ fuel) (hnarrow : s.writer.Narrow)
    (hlimit : s.writer.written.length ≤ s.writer.limit) :
    ∃ status s', copyLoop host fuel remaining s = some (status, s') ∧
      s'.writer.limit = s.writer.limit ∧ s'.writer.written.length ≤ s'.writer.limit ∧
      ∃ n, n ≤ remaining ∧
        s'.writer.written = s.writer.written ++ (host.file.drop s.pos).take n ∧
        (status = 0 → n = remaining ∧ s'.pos = s.pos + remaining ∧
          s'.writer.written.length = s.writer.written.length + remaining) := by
  induction fuel generalizing remaining s with
  | zero =>
    obtain rfl := Nat.le_zero.mp hfuel
    exact ⟨0, s, rfl, rfl, hlimit, 0, le_rfl, by rw [List.take_zero, List.append_nil],
      fun _ => ⟨rfl, rfl, rfl⟩⟩
  | succ fuel ih =>
    cases remaining with
    | zero =>
      exact ⟨0, s, rfl, rfl, hlimit, 0, le_rfl, by rw [List.take_zero, List.append_nil],
        fun _ => ⟨rfl, rfl, rfl⟩⟩
    | succ remaining =>
      have hbuf : kBufSize = 32768 := rfl
      rw [copyLoop]
      cases hread : readBlock host s.blocks s.pos (min kBufSize (remaining + 1)) with
      | none =>
        exact ⟨_, s, rfl, rfl, hlimit, 0, Nat.zero_le _, by rw [List.take_zero, List.append_nil],
          fun hstatus => absurd hstatus (by decide)⟩
      | some buf =>
        obtain ⟨hlength, hdata⟩ := readBlock_eq_some hread
        cases happend : s.writer.append buf with
        | none =>
          refine ⟨kIoError, ⟨s.pos + min kBufSize (remaining + 1), s.blocks + 1, s.writer⟩,
            by simp only [happend], rfl, hlimit, 0, Nat.zero_le _, ?_,
            fun hstatus => absurd hstatus (by decide)⟩
          rw [List.take_zero, List.append_nil]
        | some writer =>
          have hwritten := append_bound happend hnarrow hlimit (by omega)
          obtain rfl := append_eq_some happend
          obtain ⟨status, s', hloop, hlimit', hbound, n, hn, hwritten', hdone⟩ :=
            ih (show remaining + 1 - min kBufSize (remaining + 1) ≤ fuel by omega)
              (show (Progress.mk (s.pos + min kBufSize (remaining + 1)) (s.blocks + 1)
                { s.writer with written := s.writer.written ++ buf }).writer.Narrow from hnarrow)
              hwritten
          refine ⟨status, s', by simp only [happend]; exact hloop, hlimit', hbound,
            min kBufSize (remaining + 1) + n, by omega, ?_, fun hstatus => ?_⟩
          · rw [hwritten', take_drop_add, ← hdata, List.append_assoc]
          · obtain ⟨hall, hpos, hlen⟩ := hdone hstatus
            dsimp only at hpos hlen
            rw [List.length_append, hlength] at hlen
            exact ⟨by omega, by omega, by omega⟩

theorem copyLoop_complete {host : Host} {fuel remaining : ℕ} {s : Progress}
    (hfuel : remaining ≤ fuel) (hreads : ∀ n, host.fails (.readBlock n) = false)
    (hfile : s.pos + remaining ≤ host.file.length) (hlimit : s.writer.limit < 2 ^ 32)
    (hroom : s.writer.written.length + remaining ≤ s.writer.limit)
    (hwrites : ∀ n, s.writer.refuses n = false) :
    ∃ s', copyLoop host fuel remaining s = some (0, s') := by
  induction fuel generalizing remaining s with
  | zero =>
    obtain rfl := Nat.le_zero.mp hfuel
    exact ⟨s, rfl⟩
  | succ fuel ih =>
    cases remaining with
    | zero => exact ⟨s, rfl⟩
    | succ remaining =>
      have hbuf : kBufSize = 32768 := rfl
      have hlength : ((host.file.drop s.pos).take (min kBufSize (remaining + 1))).length =
          min kBufSize (remaining + 1) := by
        rw [List.length_take, List.length_drop]
        omega
      rw [copyLoop, readBlock_of_fits (hreads _) (by omega)]
      simp only [append_of_fits hlimit (show s.writer.written.length +
        ((host.file.drop s.pos).take (min kBufSize (remaining + 1))).length ≤ s.writer.limit by
          rw [hlength]; omega) hwrites]
      refine ih (by omega) (by dsimp only; omega) hlimit ?_ hwrites
      dsimp only
      rw [List.length_append, hlength]
      omega

/-! ### Inflated entries -/

section
variable {σ : Type} {host : Host} {s s' : InflateProgress σ}

theorem refill_eq_some (h : refill host s = some s') :
    s'.pos + s'.compressedLength = s.pos + s.compressedLength ∧
      s'.availIn.length + s'.compressedLength = s.availIn.length + s.compressedLength ∧
      s'.writer = s.writer ∧ s'.zstream = s.zstream ∧ s'.writeBuf = s.writeBuf ∧
      s'.totalOut = s.totalOut := by
  have hbuf : kBufSize = 32768 := rfl
  rw [refill] at h
  split_ifs at h with hempty
  · obtain ⟨buf, hread, rfl⟩ := Option.map_eq_some_iff.mp h
    have hlength := (readBlock_eq_some hread).1
    rw [hempty]
    refine ⟨?_, ?_, rfl, rfl, rfl, rfl⟩
    · dsimp only
      omega
    · dsimp only
      rw [List.length_nil]
      omega
  · cases h
    exact ⟨rfl, rfl, rfl, rfl, rfl, rfl⟩

theorem flush_eq_some {zerr : ℤ} (h : flush zerr s = some s') :
    s' = { s with writer := s'.writer, writeBuf := s'.writeBuf } ∧
      s'.writer = { s.writer with written := s'.writer.written } ∧
      s'.writer.written ++ s'.writeBuf = s.writer.written ++ s.writeBuf ∧
      (s.writeBuf.length ≤ kBufSize → s'.writeBuf.length < kBufSize) ∧
      (zerr = Z_STREAM_END → s'.writeBuf = []) ∧
      (s.writer.Narrow → s.writer.written.length ≤ s.writer.limit → s.writeBuf.length ≤ kBufSize →
        s'.writer.written.length ≤ s'.writer.limit) := by
  rw [flush] at h
  split_ifs at h with hfull
  · obtain ⟨writer, happend, rfl⟩ := Option.map_eq_some_iff.mp h
    have hbound := append_bound happend
    obtain rfl := append_eq_some happend
    exact ⟨rfl, rfl, List.append_nil _, fun _ => Nat.zero_lt_succ _, fun _ => rfl, hbound⟩
  · cases h
    rw [not_or, not_and, not_not] at hfull
    exact ⟨rfl, rfl, rfl, fun hle => Nat.lt_of_le_of_ne hle hfull.1,
      fun hend => List.length_eq_zero_iff.mp (hfull.2 hend), fun _ hbound _ => hbound⟩

/-- What is written so far and what has been inflated, read and left to read add up. -/
structure Counted (base stop : ℕ) (s : InflateProgress σ) : Prop where
  narrow : s.writer.Narrow
  bound : s.writer.written.length ≤ s.writer.limit
  room : s.writeBuf.length < kBufSize
  output : base + s.totalOut.toNat = s.writer.written.length + s.writeBuf.length
  input : s.pos + s.compressedLength = stop

/-- The input that is left and the output for which there is room. -/
def InflateProgress.left (s : InflateProgress σ) : ℕ :=
  s.availIn.length + s.compressedLength +
    (s.writer.limit + kBufSize - (s.writer.written.length + s.writeBuf.length))

/-- With `Z_OK` some input has been taken or some output given. -/
def Zlib.Progresses (z : Zlib σ) : Prop := ∀ state availIn availOut,
  (z.inflate state availIn availOut).zerr = Z_OK →
    0 < (z.inflate state availIn availOut).consumed +
      (z.inflate state availIn availOut).produced.length

theorem inflateLoop_succ (host : Host) (z : Zlib σ) {base stop : ℕ} (hs : Counted base stop s) :
    (∃ status s', (∀ fuel, inflateLoop host z (fuel + 1) s = some (status, s')) ∧
      s'.writer.limit = s.writer.limit ∧ s'.writer.written.length ≤ s'.writer.limit ∧
      (status = 0 → Counted base stop s' ∧ s'.writeBuf = [])) ∨
    ∃ s', (∀ fuel, inflateLoop host z (fuel + 1) s = inflateLoop host z fuel s') ∧
      s'.writer.limit = s.writer.limit ∧ Counted base stop s' ∧
      (z.Progresses → s'.left < s.left) := by
  have hstop (status : ℤ) (hstatus : status ≠ 0) (s' : InflateProgress σ)
      (hloop : ∀ fuel, inflateLoop host z (fuel + 1) s = some (status, s'))
      (hwriter : s'.writer = s.writer) :
      ∃ status s', (∀ fuel, inflateLoop host z (fuel + 1) s = some (status, s')) ∧
        s'.writer.limit = s.writer.limit ∧ s'.writer.written.length ≤ s'.writer.limit ∧
        (status = 0 → Counted base stop s' ∧ s'.writeBuf = []) :=
    ⟨status, s', hloop, by rw [hwriter], by rw [hwriter]; exact hs.bound, fun h =>
      absurd h hstatus⟩
  simp only [inflateLoop] at hstop ⊢
  cases hrefill : refill host s with
  | none =>
    rw [hrefill] at hstop
    exact Or.inl (hstop _ (by decide) s (fun _ => rfl) rfl)
  | some s₁ =>
    rw [hrefill] at hstop
    obtain ⟨hinput, hleft, hwriter, -, hbuf, hout⟩ := refill_eq_some hrefill
    have hconsumed := z.consumed_le s₁.zstream s₁.availIn (kBufSize - s₁.writeBuf.length)
    have hproduced := z.produced_le s₁.zstream s₁.availIn (kBufSize - s₁.writeBuf.length)
    have hprogress (hz : z.Progresses) :=
      hz s₁.zstream s₁.availIn (kBufSize - s₁.writeBuf.length)
    dsimp only at hstop ⊢
    generalize z.inflate s₁.zstream s₁.availIn (kBufSize - s₁.writeBuf.length) = r
      at hstop hconsumed hproduced hprogress ⊢
    have hroom := hs.room
    have houtput := hs.output
    by_cases hzerr : r.zerr ≠ Z_OK ∧ r.zerr ≠ Z_STREAM_END
    · simp only [if_pos hzerr] at hstop ⊢
      exact Or.inl (hstop _ (by decide) _ (fun _ => rfl) hwriter)
    simp only [if_neg hzerr] at hstop ⊢
    generalize hstep : ({ s₁ with
      zstream := r.state
      availIn := s₁.availIn.drop r.consumed
      writeBuf := s₁.writeBuf ++ r.produced
      totalOut := s₁.totalOut + UInt32.ofNat r.produced.length } : InflateProgress σ) = s₂
      at hstop ⊢
    cases hflush : flush r.zerr s₂ with
    | none =>
      rw [hflush] at hstop
      exact Or.inl (hstop _ (by decide) s₂ (fun _ => rfl) (by rw [← hstep]; exact hwriter))
    | some s₃ =>
      obtain ⟨hfields, hlimit, hsplit, hfull, hlast, hbound⟩ := flush_eq_some hflush
      subst hstep
      dsimp only at hfields hlimit hsplit hfull hlast hbound
      rw [hwriter] at hlimit hsplit hbound
      rw [hbuf] at hsplit hfull hproduced
      have hlength := congrArg List.length hsplit
      simp only [List.length_append] at hlength hfull
      have hlimit₃ : s₃.writer.limit = s.writer.limit := by rw [hlimit]
      have hnarrow : s.writer.limit + kBufSize < 2 ^ 32 := hs.narrow
      have hwritten := hs.bound
      have htotal : (s.totalOut + UInt32.ofNat r.produced.length).toNat =
          s.totalOut.toNat + r.produced.length := toNat_add_ofNat (by omega)
      have hcounted : Counted base stop s₃ :=
        { narrow := by
            rw [Writer.Narrow, hlimit₃]
            exact hs.narrow
          bound := hbound hs.narrow hs.bound (by
            rw [List.length_append, hbuf]
            omega)
          room := hfull (by omega)
          output := by
            rw [show s₃.totalOut = s₁.totalOut + UInt32.ofNat r.produced.length by rw [hfields],
              hout, htotal]
            omega
          input := by
            rw [show s₃.pos = s₁.pos by rw [hfields],
              show s₃.compressedLength = s₁.compressedLength by rw [hfields], hinput, hs.input] }
      by_cases hok : r.zerr = Z_OK
      · refine Or.inr ⟨s₃, fun fuel => if_pos hok, hlimit₃, hcounted, fun hz => ?_⟩
        have hmore := hprogress hz hok
        have hbounds := hs.bound
        have havail : s₃.availIn.length = s₁.availIn.length - r.consumed := by
          rw [hfields]
          exact List.length_drop
        have hcompressed : s₃.compressedLength = s₁.compressedLength := by rw [hfields]
        rw [InflateProgress.left, InflateProgress.left, hlimit₃]
        omega
      · have hend : r.zerr = Z_STREAM_END := by
          by_contra hne
          exact hzerr ⟨hok, hne⟩
        exact Or.inl ⟨0, s₃, fun _ => if_neg hok, hlimit₃, hcounted.bound,
          fun _ => ⟨hcounted, hlast hend⟩⟩

theorem inflateLoop_sound {z : Zlib σ} {base stop fuel : ℕ} {status : ℤ}
    (hs : Counted base stop s) (h : inflateLoop host z fuel s = some (status, s')) :
    s'.writer.limit = s.writer.limit ∧ s'.writer.written.length ≤ s'.writer.limit ∧
      (status = 0 → Counted base stop s' ∧ s'.writeBuf = []) := by
  induction fuel generalizing s with
  | zero => cases h
  | succ fuel ih =>
    rcases inflateLoop_succ host z hs with
      ⟨status', s₁, hloop, hlimit, hbound, hdone⟩ | ⟨s₁, hloop, hlimit, hcounted, -⟩
    · rw [hloop] at h
      cases h
      exact ⟨hlimit, hbound, hdone⟩
    · rw [hloop] at h
      obtain ⟨hlimit', hbound, hdone⟩ := ih hcounted h
      exact ⟨hlimit'.trans hlimit, hbound, hdone⟩

/-- The loop ends if zlib goes on when it says so, for it does not take more than there is. -/
theorem inflateLoop_ends (host : Host) {z : Zlib σ} (hz : z.Progresses) {base stop fuel : ℕ}
    (hs : Counted base stop s) (hfuel : s.left < fuel) :
    ∃ r, inflateLoop host z fuel s = some r := by
  induction fuel generalizing s with
  | zero => exact absurd hfuel (Nat.not_lt_zero _)
  | succ fuel ih =>
    rcases inflateLoop_succ host z hs with
      ⟨status, s', hloop, -⟩ | ⟨s', hloop, -, hcounted, hleft⟩
    · exact ⟨_, hloop fuel⟩
    · rw [hloop]
      exact ih hcounted (Nat.lt_of_lt_of_le (hleft hz) (Nat.le_of_lt_succ hfuel))

theorem inflateEntryToWriter_ends (host : Host) {z : Zlib σ} (hz : z.Progresses) {fuel : ℕ}
    (pos : ℕ) {entry : ZipEntry} {writer : Writer} (hnarrow : writer.Narrow)
    (hwriter : writer.written.length ≤ writer.limit)
    (hfuel : entry.compressedLength.toNat + writer.limit + kBufSize < fuel) :
    ∃ status p, inflateEntryToWriter host z fuel pos entry writer = some (status, p) ∧
      p.writer.limit = writer.limit ∧ p.writer.written.length ≤ p.writer.limit ∧
      (status = 0 → p.pos = pos + entry.compressedLength.toNat ∧
        p.writer.written.length = writer.written.length + entry.uncompressedLength.toNat) := by
  rw [inflateEntryToWriter]
  cases z.inflateInit2 with
  | none =>
    exact ⟨kZlibError, _, rfl, rfl, hwriter, fun hstatus => absurd hstatus (by decide)⟩
  | some zstream =>
    have hcounted : Counted writer.written.length (pos + entry.compressedLength.toNat)
        (⟨⟨pos, 0, writer⟩, zstream, [], entry.compressedLength.toNat, [], 0⟩ :
          InflateProgress σ) :=
      { narrow := hnarrow
        bound := hwriter
        room := Nat.zero_lt_succ _
        output := rfl
        input := rfl }
    obtain ⟨⟨status, s⟩, hloop⟩ := inflateLoop_ends host hz hcounted
      (show InflateProgress.left _ < fuel by
        rw [InflateProgress.left]
        dsimp only
        rw [List.length_nil]
        omega)
    obtain ⟨hlimit, hbound, hdone⟩ := inflateLoop_sound hcounted hloop
    simp only [hloop, Option.bind_eq_bind, Option.bind_some]
    by_cases hstatus : status ≠ 0
    · exact ⟨status, _, if_pos hstatus, hlimit, hbound, fun h => absurd h hstatus⟩
    rw [if_neg hstatus]
    by_cases hlengths : s.totalOut ≠ entry.uncompressedLength ∨ s.compressedLength ≠ 0
    · exact ⟨_, _, if_pos hlengths, hlimit, hbound, fun h => absurd h (by decide)⟩
    · rw [if_neg hlengths]
      rw [not_or, not_not, not_not] at hlengths
      obtain ⟨hfinal, hempty⟩ := hdone (not_not.mp hstatus)
      have houtput := hfinal.output
      have hinput := hfinal.input
      rw [hlengths.1, hempty, List.length_nil] at houtput
      exact ⟨0, _, rfl, hlimit, hbound, fun _ => ⟨by omega, by omega⟩⟩

end

/-! ### Every entry -/

/-- The lengths and the checksum behind the data, with a signature before them or without. -/
def Descriptor (file : List UInt8) (pos : ℕ) (entry entry' : ZipEntry) : Prop :=
  ∃ signature, uint32 (ofBytes file) pos = some signature ∧
    ∃ place, place = (if signature = kOptSignature then pos + 4 else pos) ∧
      uint32 (ofBytes file) place = some entry'.crc32 ∧
      uint32 (ofBytes file) (place + 4) = some entry'.compressedLength ∧
      uint32 (ofBytes file) (place + 8) = some entry'.uncompressedLength ∧
      entry' = { entry with
        crc32 := entry'.crc32
        compressedLength := entry'.compressedLength
        uncompressedLength := entry'.uncompressedLength }

theorem Descriptor.unique {file : List UInt8} {pos : ℕ} {entry entry₁ entry₂ : ZipEntry}
    (h₁ : Descriptor file pos entry entry₁) (h₂ : Descriptor file pos entry entry₂) :
    entry₁ = entry₂ := by
  obtain ⟨_, hsignature, _, rfl, hcrc32, hcompressed, huncompressed, heq⟩ := h₁
  obtain ⟨_, hsignature', _, rfl, hcrc32', hcompressed', huncompressed', heq'⟩ := h₂
  obtain rfl := Option.some.inj (hsignature.symm.trans hsignature')
  rw [heq, heq', Option.some.inj (hcrc32.symm.trans hcrc32'),
    Option.some.inj (hcompressed.symm.trans hcompressed'),
    Option.some.inj (huncompressed.symm.trans huncompressed')]

theorem updateEntryFromDataDescriptor_ends (host : Host) (pos : ℕ) (entry : ZipEntry) :
    updateEntryFromDataDescriptor host pos entry = some (kIoError, entry) ∨
    ∃ entry', updateEntryFromDataDescriptor host pos entry = some (0, entry') ∧
      Descriptor host.file pos entry entry' := by
  rw [updateEntryFromDataDescriptor]
  cases hread : readAtOffset host .readDescriptor 16 pos with
  | none => exact Or.inl rfl
  | some ddBuf =>
    obtain ⟨-, hlength, hstands⟩ := readAtOffset_iff.mp hread
    have hfour (i : ℕ) (hi : i + 4 ≤ 16) : ∃ x, uint32 (ofBytes ddBuf) i = some x ∧
        uint32 (ofBytes host.file) (pos + i) = some x := by
      obtain ⟨x, hx⟩ := uint32_ofBytes (show i + 4 ≤ ddBuf.length by omega)
      exact ⟨x, hx, by rw [← uint32_drop, buffer_uint32 hlength hstands i hi, hx]⟩
    obtain ⟨signature, hsignature, hfirst⟩ := hfour 0 (by decide)
    have hoffset : (if signature = kOptSignature then 4 else 0) ≤ 4 := by
      split_ifs <;> decide
    have hplace : pos + (if signature = kOptSignature then 4 else 0) =
        if signature = kOptSignature then pos + 4 else pos := by
      split_ifs <;> rfl
    obtain ⟨crc32, hcrc32, hcrc32'⟩ :=
      hfour (if signature = kOptSignature then 4 else 0) (by omega)
    obtain ⟨compressed, hcompressed, hcompressed'⟩ :=
      hfour ((if signature = kOptSignature then 4 else 0) + 4) (by omega)
    obtain ⟨uncompressed, huncompressed, huncompressed'⟩ :=
      hfour ((if signature = kOptSignature then 4 else 0) + 8) (by omega)
    rw [← Nat.add_assoc, hplace] at hcompressed' huncompressed'
    rw [hplace] at hcrc32'
    refine Or.inr ⟨{ entry with
      crc32 := crc32
      compressedLength := compressed
      uncompressedLength := uncompressed }, ?_, signature, hfirst, _, rfl, hcrc32', hcompressed',
      huncompressed', rfl⟩
    simp only [hsignature, Option.bind_eq_bind, Option.bind_some, hcrc32, hcompressed,
      huncompressed]

/-- What an extraction leaves in a writer of some room, and what it says. -/
structure Extracted (host : Host) (entry : ZipEntry) (room : ℕ) (status : ℤ) (entry' : ZipEntry)
    (written : List UInt8) : Prop where
  bound : written.length ≤ room
  failed : status ≠ 0 → entry' = entry
  whole : status = 0 → written.length = entry.uncompressedLength.toNat
  data : status = 0 → ∃ length,
    ((entry.method = kCompressStored ∧ length = entry.uncompressedLength.toNat ∧
        written = (host.file.drop entry.offset).take length) ∨
      (entry.method = kCompressDeflated ∧ length = entry.compressedLength.toNat)) ∧
    if entry.hasDataDescriptor then Descriptor host.file (entry.offset + length) entry entry'
    else entry' = entry

theorem extractData_ends {σ : Type} (host : Host) {z : Zlib σ} (hz : z.Progresses) {fuel : ℕ}
    {entry : ZipEntry} {writer : Writer} (hnarrow : writer.Narrow) (hempty : writer.written = [])
    (hfuel : entry.compressedLength.toNat + writer.limit + kBufSize < fuel) :
    ∃ status p, extractData host z fuel entry writer = some (status, p) ∧
      p.writer.written.length ≤ writer.limit ∧
      (status = 0 → p.writer.written.length = entry.uncompressedLength.toNat ∧ ∃ length,
        ((entry.method = kCompressStored ∧ length = entry.uncompressedLength.toNat ∧
          p.writer.written = (host.file.drop entry.offset).take length) ∨
        (entry.method = kCompressDeflated ∧ length = entry.compressedLength.toNat)) ∧
        p.pos = entry.offset + length) := by
  have hwriter : writer.written.length ≤ writer.limit := by
    rw [hempty]
    exact Nat.zero_le _
  rw [extractData]
  by_cases hstored : entry.method = kCompressStored
  · rw [if_pos hstored]
    obtain ⟨status, p, hloop, hlimit, hbound, n, -, hwritten, hdone⟩ := copyLoop_sound host
      (le_refl entry.uncompressedLength.toNat)
      (show (Progress.mk entry.offset 0 writer).writer.Narrow from hnarrow) hwriter
    refine ⟨status, p, hloop, hbound.trans_eq hlimit, fun hstatus => ?_⟩
    obtain ⟨rfl, hpos, hlength⟩ := hdone hstatus
    dsimp only at hlength hwritten
    rw [hempty] at hlength hwritten
    rw [List.length_nil, Nat.zero_add] at hlength
    rw [List.nil_append] at hwritten
    exact ⟨hlength, _, Or.inl ⟨hstored, rfl, hwritten⟩, hpos⟩
  rw [if_neg hstored]
  by_cases hdeflated : entry.method = kCompressDeflated
  · rw [if_pos hdeflated]
    obtain ⟨status, p, hinflate, hlimit, hbound, hdone⟩ :=
      inflateEntryToWriter_ends host hz entry.offset hnarrow hwriter hfuel
    refine ⟨status, p, hinflate, hbound.trans_eq hlimit, fun hstatus => ?_⟩
    obtain ⟨hpos, hlength⟩ := hdone hstatus
    rw [hempty, List.length_nil, Nat.zero_add] at hlength
    exact ⟨hlength, _, Or.inr ⟨hdeflated, rfl⟩, hpos⟩
  · rw [if_neg hdeflated]
    exact ⟨-1, _, rfl, hwriter, fun hstatus => absurd hstatus (by decide)⟩

theorem extractToWriter_ends {σ : Type} (host : Host) {z : Zlib σ} (hz : z.Progresses) {fuel : ℕ}
    {entry : ZipEntry} {writer : Writer} (hnarrow : writer.Narrow) (hempty : writer.written = [])
    (hfuel : entry.compressedLength.toNat + writer.limit + kBufSize < fuel) :
    ∃ status entry' writer', extractToWriter host z fuel entry writer =
      some (status, entry', writer') ∧
      Extracted host entry writer.limit status entry' writer'.written := by
  rw [extractToWriter]
  by_cases hseek : host.fails .seekData = true
  · refine ⟨kIoError, entry, writer, if_pos hseek, ?_, fun _ => rfl, ?_, ?_⟩
    · rw [hempty]
      exact Nat.zero_le _
    · exact fun hstatus => absurd hstatus (by decide)
    · exact fun hstatus => absurd hstatus (by decide)
  rw [if_neg hseek]
  obtain ⟨status, p, hrun, hbound, hdone⟩ := extractData_ends host hz hnarrow hempty hfuel
  rw [hrun]
  simp only [Option.bind_eq_bind, Option.bind_some]
  by_cases hdescriptor : status = 0 ∧ entry.hasDataDescriptor = true
  · rw [if_pos hdescriptor]
    obtain ⟨hlength, length, hdata, hpos⟩ := hdone hdescriptor.1
    rcases updateEntryFromDataDescriptor_ends host p.pos entry with
      hupdate | ⟨entry', hupdate, hread⟩
    · rw [hupdate]
      refine ⟨kIoError, entry, p.writer, rfl, hbound, fun _ => rfl, ?_, ?_⟩
      · exact fun hstatus => absurd hstatus (by decide)
      · exact fun hstatus => absurd hstatus (by decide)
    · rw [hupdate]
      refine ⟨0, entry', p.writer, rfl, hbound, fun hstatus => absurd rfl hstatus,
        fun _ => hlength, fun _ => ⟨length, hdata, ?_⟩⟩
      rw [if_pos hdescriptor.2, ← hpos]
      exact hread
  · rw [if_neg hdescriptor]
    refine ⟨status, entry, p.writer, rfl, hbound, fun _ => rfl, fun hstatus => (hdone hstatus).1,
      fun hstatus => ?_⟩
    obtain ⟨-, length, hdata, -⟩ := hdone hstatus
    refine ⟨length, hdata, ?_⟩
    rw [if_neg fun hflag => hdescriptor ⟨hstatus, hflag⟩]

/-- Whatever an archive says of an entry and whatever zlib makes of its data, extracting it ends,
    keeps inside the room it is given, and succeeds only with all of the data. The room is such
    that no sum of 32 bits runs over. -/
theorem extract_ends {σ : Type} (host : Host) {z : Zlib σ} (hz : z.Progresses) (entry : ZipEntry)
    (size fuel : ℕ) (fails : Creation → Bool) (refuses : ℕ → Bool) :
    (size + kBufSize < 2 ^ 32 → entry.compressedLength.toNat + size + kBufSize < fuel →
      ∃ status entry' writer, extractToMemory host z fuel entry size =
        some (status, entry', writer) ∧
        Extracted host entry size status entry' writer.written) ∧
    (entry.uncompressedLength.toNat + kBufSize < 2 ^ 32 →
      entry.compressedLength.toNat + entry.uncompressedLength.toNat + kBufSize < fuel →
      ∃ status entry' writer, extractEntryToFile host z fuel fails refuses entry =
        some (status, entry', writer) ∧ (writer = none → status = kIoError ∧ entry' = entry) ∧
        ∀ w ∈ writer, Extracted host entry entry.uncompressedLength.toNat status entry'
          w.written) := by
  constructor
  · intro hnarrow hfuel
    exact extractToWriter_ends host hz (show (memoryWriter size).Narrow from hnarrow) rfl hfuel
  intro hnarrow hfuel
  rw [extractEntryToFile]
  cases hcreate : fileWriter fails refuses entry with
  | none => exact ⟨kIoError, entry, none, rfl, fun _ => ⟨rfl, rfl⟩, fun _ hw => by cases hw⟩
  | some writer =>
    have hnew : writer = ⟨entry.uncompressedLength.toNat, [], refuses⟩ := by
      rw [fileWriter] at hcreate
      split_ifs at hcreate
      exact (Option.some.inj hcreate).symm
    subst hnew
    obtain ⟨status, entry', writer', hextract, hextracted⟩ :=
      extractToWriter_ends host hz
        (show (Writer.mk entry.uncompressedLength.toNat [] refuses).Narrow from hnarrow) rfl hfuel
    refine ⟨status, entry', some writer', ?_, fun hnone => (by cases hnone), fun w hw => ?_⟩
    · dsimp only
      rw [hextract]
      rfl
    · obtain rfl := Option.some.inj hw
      exact hextracted

/-- A zlib that knows one stream, which it gets in as many parts as the caller likes. -/
def expecting (stream output : List UInt8) : Zlib (List UInt8 × List UInt8) where
  inflateInit2 := some (stream, output)
  inflate s availIn availOut :=
    if availIn = s.1.take availIn.length then
      let produced := if s.1.drop availIn.length = [] then s.2.take availOut else []
      ⟨if s.1.drop availIn.length = [] ∧ s.2.drop produced.length = [] then Z_STREAM_END
        else if availIn = [] ∧ produced = [] then -5 else Z_OK,
        availIn.length, produced, (s.1.drop availIn.length, s.2.drop produced.length)⟩
    else ⟨-3, 0, [], s⟩
  consumed_le s availIn availOut := by
    split
    · exact le_rfl
    · exact Nat.zero_le _
  produced_le s availIn availOut := by
    split
    · dsimp only
      split
      · exact List.length_take_le _ _
      · exact Nat.zero_le _
    · exact Nat.zero_le _

theorem expecting_progresses (stream output : List UInt8) :
    (expecting stream output).Progresses := by
  intro s availIn availOut hok
  by_cases htaken : availIn = s.1.take availIn.length
  · simp only [expecting, if_pos htaken] at hok ⊢
    generalize (if s.1.drop availIn.length = [] then s.2.take availOut else []) = produced
      at hok ⊢
    by_contra hnone
    have hstuck : availIn = [] ∧ produced = [] := by
      constructor
      · exact List.length_eq_zero_iff.mp (by omega)
      · exact List.length_eq_zero_iff.mp (by omega)
    rw [if_pos hstuck] at hok
    split_ifs at hok
    · exact absurd hok (by decide)
    · exact absurd hok (by decide)
  · simp only [expecting, if_neg htaken] at hok
    exact absurd hok (by decide)

theorem extract_ends_block :
    (∃ status entry' writer, extractToMemory (Host.ofFile [1, 1, 0, 0xfe, 0xff, 7])
      (expecting [1, 1, 0, 0xfe, 0xff, 7] [7]) 40000 ⟨8, 0, false, 0, 6, 1, 0⟩ 4 =
      some (status, entry', writer) ∧
      Extracted (Host.ofFile [1, 1, 0, 0xfe, 0xff, 7]) ⟨8, 0, false, 0, 6, 1, 0⟩ 4 status entry'
        writer.written) ∧
    ∃ status entry' writer, extractEntryToFile (Host.ofFile [1, 1, 0, 0xfe, 0xff, 7])
      (expecting [1, 1, 0, 0xfe, 0xff, 7] [7]) 40000 (fun _ => false) (fun _ => false)
        ⟨8, 0, false, 0, 6, 1, 0⟩ = some (status, entry', writer) ∧
      (writer = none → status = kIoError ∧ entry' = ⟨8, 0, false, 0, 6, 1, 0⟩) ∧
      ∀ w ∈ writer, Extracted (Host.ofFile [1, 1, 0, 0xfe, 0xff, 7]) ⟨8, 0, false, 0, 6, 1, 0⟩ 1
        status entry' w.written :=
  ⟨(extract_ends _ (expecting_progresses _ _) ⟨8, 0, false, 0, 6, 1, 0⟩ 4 40000 (fun _ => false)
      (fun _ => false)).1 (by decide) (by decide),
    (extract_ends _ (expecting_progresses _ _) ⟨8, 0, false, 0, 6, 1, 0⟩ 4 40000 (fun _ => false)
      (fun _ => false)).2 (by decide) (by decide)⟩

end Shashlik.ZipArchives
