import Shashlik.ZipStreams

set_option autoImplicit false

/-!
# Round trips

A file that is laid out as an archive is opened, and each of its entries is found and comes out
with the content that went into it.
-/
namespace Shashlik.ZipArchives
open ByteFields ZipNames

/-! ### Entries in bytes -/

/-- An entry as it lies in an archive. What is said of it twice is the same in both places, but
    for the checksum and the lengths in a local header before a data descriptor. -/
structure Member where
  /-- The place of the local header. -/
  offset : ℕ
  name : List UInt8
  versionMadeBy : UInt16
  versionNeeded : UInt16
  flags : UInt16
  method : UInt16
  modTime : UInt16
  modDate : UInt16
  crc32 : UInt32
  payload : List UInt8
  content : List UInt8
  localCrc32 : UInt32
  localCompressedSize : UInt32
  localUncompressedSize : UInt32
  localExtra : List UInt8
  /-- Whether the data descriptor has its signature. -/
  signed : Bool
  extra : List UInt8
  comment : List UInt8
  startDisk : UInt16
  internalAttributes : UInt16
  externalAttributes : UInt32

namespace Member

def compressedLength (m : Member) : UInt32 := UInt32.ofNat m.payload.length
def uncompressedLength (m : Member) : UInt32 := UInt32.ofNat m.content.length

def hasDataDescriptor (m : Member) : Bool := decide (m.flags &&& kGPBDDFlagMask ≠ 0)

def fields (m : Member) (crc32 compressedSize uncompressedSize : UInt32) : List UInt8 :=
  le16 m.versionNeeded ++ le16 m.flags ++ le16 m.method ++ le16 m.modTime ++ le16 m.modDate ++
    le32 crc32 ++ le32 compressedSize ++ le32 uncompressedSize ++
    le16 (UInt16.ofNat m.name.length)

def header (m : Member) : List UInt8 :=
  le32 LocalFileHeader.kSignature ++
    m.fields m.localCrc32 m.localCompressedSize m.localUncompressedSize ++
    le16 (UInt16.ofNat m.localExtra.length) ++ m.name ++ m.localExtra

def descriptor (m : Member) : List UInt8 :=
  (if m.signed then le32 kOptSignature else []) ++
    (le32 m.crc32 ++ le32 m.compressedLength ++ le32 m.uncompressedLength)

def localRecord (m : Member) : List UInt8 :=
  m.header ++ m.payload ++ if m.hasDataDescriptor then m.descriptor else []

def centralRecord (m : Member) : List UInt8 :=
  le32 CentralDirectoryRecord.kSignature ++ le16 m.versionMadeBy ++
    m.fields m.crc32 m.compressedLength m.uncompressedLength ++
    le16 (UInt16.ofNat m.extra.length) ++ le16 (UInt16.ofNat m.comment.length) ++
    le16 m.startDisk ++ le16 m.internalAttributes ++ le32 m.externalAttributes ++
    le32 (UInt32.ofNat m.offset) ++ m.name ++ m.extra ++ m.comment

/-- What opening an archive reads of its record. -/
def record (m : Member) : Record :=
  ⟨m.name, UInt16.ofNat m.extra.length, UInt16.ofNat m.comment.length, UInt32.ofNat m.offset⟩

/-- What finding it says. -/
def entry (m : Member) : ZipEntry :=
  { method := m.method
    modTime := m.modTime.toUInt32
    hasDataDescriptor := m.hasDataDescriptor
    crc32 := m.crc32
    compressedLength := m.compressedLength
    uncompressedLength := m.uncompressedLength
    offset := m.offset + m.header.length }

/-- The lengths have room in their fields, and the name is one that can be found. A descriptor
    without a signature does not begin like one that has it. -/
structure Fits (m : Member) : Prop where
  named : m.name ≠ []
  valid : Sequences m.name
  name : m.name.length < 2 ^ 16
  localExtra : m.localExtra.length < 2 ^ 16
  extra : m.extra.length < 2 ^ 16
  comment : m.comment.length < 2 ^ 16
  content : m.content.length < 2 ^ 32
  stored : m.method = kCompressStored → m.payload = m.content
  agrees : m.hasDataDescriptor = false → m.localCrc32 = m.crc32 ∧
    m.localCompressedSize = m.compressedLength ∧ m.localUncompressedSize = m.uncompressedLength
  told : m.hasDataDescriptor = true → m.signed = false → m.crc32 ≠ kOptSignature

end Member

def directory (ms : List Member) : List UInt8 := ms.flatMap Member.centralRecord

/-- The end record of an archive on one disk. -/
def endRecord (ms : List Member) (cdStartOffset : ℕ) (comment : List UInt8) : List UInt8 :=
  le32 EocdRecord.kSignature ++ le16 0 ++ le16 0 ++ le16 (UInt16.ofNat ms.length) ++
    le16 (UInt16.ofNat ms.length) ++ le32 (UInt32.ofNat (directory ms).length) ++
    le32 (UInt32.ofNat cdStartOffset) ++ le16 (UInt16.ofNat comment.length) ++ comment

/-- A file that has these members before its directory, in any order and with anything between
    them, and behind the directory an end record. The numbers have room, no name comes twice, and
    behind the end record nothing looks like another one. -/
structure LaidOut (file : List UInt8) (cdStartOffset eocd : ℕ) (ms : List Member)
    (comment : List UInt8) : Prop where
  some : ms ≠ []
  fits : ∀ m ∈ ms, m.Fits
  count : ms.length < 2 ^ 16
  distinct : (ms.map Member.name).Nodup
  room : comment.length < 2 ^ 16
  small : file.length ≤ 0xffffffff
  locals : ∀ m ∈ ms, Stands (ofBytes file) m.offset m.localRecord ∧
    m.offset + m.localRecord.length ≤ cdStartOffset
  centrals : Stands (ofBytes file) cdStartOffset (directory ms)
  behind : cdStartOffset + (directory ms).length ≤ eocd
  ending : Stands (ofBytes file) eocd (endRecord ms cdStartOffset comment)
  ends : eocd + EocdRecord.size + comment.length = file.length
  last : ∀ j, eocd < j → j + EocdRecord.size ≤ file.length → ¬ Magic file j

theorem directory_cons (m : Member) (ms : List Member) :
    directory (m :: ms) = m.centralRecord ++ directory ms := List.flatMap_cons

theorem directory_append (ms ms' : List Member) :
    directory (ms ++ ms') = directory ms ++ directory ms' := List.flatMap_append

theorem records_name (ms : List Member) :
    (ms.map Member.record).map Record.name = ms.map Member.name := List.map_map

theorem Member.header_length (m : Member) :
    m.header.length = LocalFileHeader.size + m.name.length + m.localExtra.length := by
  simp only [header, fields, List.length_append, le16_length, le32_length]
  rfl

theorem Member.centralRecord_length (m : Member) :
    m.centralRecord.length = CentralDirectoryRecord.size + m.name.length + m.extra.length +
      m.comment.length := by
  simp only [centralRecord, fields, List.length_append, le16_length, le32_length]
  rfl

theorem Member.Fits.record_length {m : Member} (h : m.Fits) :
    m.record.length = m.centralRecord.length := by
  rw [Record.length, record, UInt16.toNat_ofNat_of_lt' h.extra,
    UInt16.toNat_ofNat_of_lt' h.comment, centralRecord_length]

theorem Member.centralRecord_fields {m : Member} {cd : Memory} {cdr : ℕ}
    (h : Stands cd cdr m.centralRecord) :
    CentralDirectoryRecord.recordSignature cd cdr = some CentralDirectoryRecord.kSignature ∧
    CentralDirectoryRecord.compressionMethod cd cdr = some m.method ∧
    CentralDirectoryRecord.lastModTime cd cdr = some m.modTime ∧
    CentralDirectoryRecord.crc32 cd cdr = some m.crc32 ∧
    CentralDirectoryRecord.compressedSize cd cdr = some m.compressedLength ∧
    CentralDirectoryRecord.uncompressedSize cd cdr = some m.uncompressedLength ∧
    CentralDirectoryRecord.fileNameLength cd cdr = some (UInt16.ofNat m.name.length) ∧
    CentralDirectoryRecord.extraFieldLength cd cdr = some (UInt16.ofNat m.extra.length) ∧
    CentralDirectoryRecord.commentLength cd cdr = some (UInt16.ofNat m.comment.length) ∧
    CentralDirectoryRecord.localFileHeaderOffset cd cdr = some (UInt32.ofNat m.offset) ∧
    Stands cd (cdr + CentralDirectoryRecord.size) m.name := by
  simp only [centralRecord, fields, stands_append, ← uint16_eq_some_iff, ← uint32_eq_some_iff,
    List.length_append, le16_length, le32_length, Nat.reduceAdd] at h
  obtain ⟨⟨⟨⟨⟨⟨⟨⟨⟨⟨⟨hsignature, -⟩,
    ⟨⟨⟨⟨⟨⟨⟨⟨-, -⟩, hmethod⟩, hmodTime⟩, -⟩, hcrc32⟩, hcompressed⟩, huncompressed⟩, hname⟩⟩,
    hextra⟩, hcomment⟩, -⟩, -⟩, -⟩, hoffset⟩, htext⟩, -⟩, -⟩ := h
  exact ⟨hsignature, hmethod, hmodTime, hcrc32, hcompressed, huncompressed, hname, hextra,
    hcomment, hoffset, htext⟩

theorem Member.Fits.reads {m : Member} (hm : m.Fits) {cd : Memory} {cdr : ℕ}
    (h : Stands cd cdr m.centralRecord) : Reads cd cdr m.record := by
  obtain ⟨hsignature, -, -, -, -, -, hname, hextra, hcomment, hoffset, htext⟩ :=
    centralRecord_fields h
  exact
    { signature := hsignature
      localHeaderOffset := hoffset
      nameLength := hname
      fits := hm.name
      extraLength := hextra
      commentLength := hcomment
      name := htext }

theorem directory_records {cd : Memory} {length cdStartOffset ptr : ℕ} {ms : List Member}
    (hms : ∀ m ∈ ms, m.Fits ∧ m.offset < cdStartOffset) (h : Stands cd ptr (directory ms))
    (hlength : ptr + (directory ms).length ≤ length) (hsmall : cdStartOffset < 2 ^ 32) :
    Directory cd length cdStartOffset ptr (ms.map Member.record) := by
  induction ms generalizing ptr with
  | nil => trivial
  | cons m ms ih =>
    obtain ⟨hm, hoffset⟩ := hms m List.mem_cons_self
    rw [directory_cons, stands_append] at h
    rw [directory_cons, List.length_append] at hlength
    rw [List.map_cons, Directory, hm.record_length]
    refine ⟨hm.reads h.1, hm.valid, ?_, by omega, ?_⟩
    · rw [Member.record]
      dsimp only
      rw [UInt32.toNat_ofNat_of_lt' (hoffset.trans hsmall)]
      exact hoffset
    · exact ih (fun m' hm' => hms m' (List.mem_cons_of_mem m hm')) h.2 (by omega)

theorem mem_slots_records {ptr : ℕ} {ms : List Member} (hms : ∀ m ∈ ms, m.Fits)
    {slot : ZipEntryName} (h : slot ∈ slots ptr (ms.map Member.record)) :
    ∃ before m after, ms = before ++ m :: after ∧ slot =
      ⟨ptr + (directory before).length + CentralDirectoryRecord.size, m.name⟩ := by
  induction ms generalizing ptr with
  | nil => exact absurd h List.not_mem_nil
  | cons m ms ih =>
    have hm := hms m List.mem_cons_self
    rw [List.map_cons, slots, List.mem_cons, hm.record_length] at h
    rcases h with rfl | h
    · exact ⟨[], m, ms, rfl, rfl⟩
    · obtain ⟨before, m', after, rfl, rfl⟩ :=
        ih (fun m' hm' => hms m' (List.mem_cons_of_mem m hm')) h
      refine ⟨m :: before, m', after, rfl, ?_⟩
      rw [directory_cons, List.length_append, ← Nat.add_assoc]

theorem Member.Fits.header_of_stands {m : Member} (hm : m.Fits) {file : List UInt8}
    (h : Stands (ofBytes file) m.offset m.header) : Header file m.offset m.name m.entry := by
  have hlength := m.header_length
  simp only [header, fields, stands_append, ← uint16_eq_some_iff, ← uint32_eq_some_iff,
    List.length_append, le16_length, le32_length, Nat.reduceAdd] at h
  obtain ⟨⟨⟨⟨hsignature,
    ⟨⟨⟨⟨⟨⟨⟨⟨-, hflags⟩, -⟩, -⟩, -⟩, hcrc32⟩, hcompressed⟩, huncompressed⟩, hname⟩⟩,
    hextra⟩, htext⟩, -⟩ := h
  exact
    { signature := (uint32_drop file m.offset 0).trans hsignature
      flags := ⟨m.flags, (uint16_drop file m.offset 6).trans hflags, rfl⟩
      sizes := fun hnone => by
        obtain ⟨hsameCrc32, hsameCompressed, hsameUncompressed⟩ := hm.agrees hnone
        rw [hsameCrc32] at hcrc32
        rw [hsameCompressed] at hcompressed
        rw [hsameUncompressed] at huncompressed
        exact ⟨(uint32_drop file m.offset 18).trans hcompressed,
          (uint32_drop file m.offset 22).trans huncompressed,
          (uint32_drop file m.offset 14).trans hcrc32⟩
      nameLength := (uint16_drop file m.offset 26).trans hname
      text := htext
      dataOffset := ⟨UInt16.ofNat m.localExtra.length,
        (uint16_drop file m.offset 28).trans hextra, by
          rw [UInt16.toNat_ofNat_of_lt' hm.localExtra, entry]
          dsimp only
          omega⟩ }

theorem Member.Fits.descriptor_of_stands {m : Member} (hm : m.Fits)
    (hflag : m.hasDataDescriptor = true) {file : List UInt8} {pos : ℕ}
    (h : Stands (ofBytes file) pos m.descriptor) : Descriptor file pos m.entry m.entry := by
  rw [descriptor] at h
  cases hsigned : m.signed with
  | true =>
    rw [hsigned] at h
    simp only [if_true, stands_append, ← uint32_eq_some_iff, List.length_append,
      le32_length] at h
    obtain ⟨hsignature, ⟨hcrc32, hcompressed⟩, huncompressed⟩ := h
    exact ⟨kOptSignature, hsignature, pos + 4, (if_pos rfl).symm, hcrc32, hcompressed,
      huncompressed, rfl⟩
  | false =>
    rw [hsigned] at h
    simp only [Bool.false_eq_true, if_false, List.nil_append, stands_append,
      ← uint32_eq_some_iff, List.length_append, le32_length] at h
    obtain ⟨⟨hcrc32, hcompressed⟩, huncompressed⟩ := h
    exact ⟨m.crc32, hcrc32, pos, (if_neg (hm.told hflag hsigned)).symm, hcrc32, hcompressed,
      huncompressed, rfl⟩

section
variable {host : Host} {cdStartOffset eocd : ℕ} {ms : List Member} {comment : List UInt8}

theorem LaidOut.offsets (h : LaidOut host.file cdStartOffset eocd ms comment) :
    (UInt32.ofNat cdStartOffset).toNat = cdStartOffset ∧
    (UInt32.ofNat (directory ms).length).toNat = (directory ms).length := by
  have hsmall := h.small
  have hbehind := h.behind
  have hends := h.ends
  constructor
  · exact UInt32.toNat_ofNat_of_lt' (by unfold UInt32.size; omega)
  · exact UInt32.toNat_ofNat_of_lt' (by unfold UInt32.size; omega)

theorem LaidOut.endRecord (h : LaidOut host.file cdStartOffset eocd ms comment) :
    EndRecord host.file eocd (UInt16.ofNat ms.length) (UInt32.ofNat (directory ms).length)
      (UInt32.ofNat cdStartOffset) := by
  have hending := h.ending
  simp only [ZipArchives.endRecord, stands_append, ← uint16_eq_some_iff, ← uint32_eq_some_iff,
    List.length_append, le16_length, le32_length, Nat.reduceAdd] at hending
  obtain ⟨⟨⟨⟨⟨⟨⟨⟨hmagic, -⟩, -⟩, -⟩, hcount⟩, hsize⟩, hoffset⟩, hcomment⟩, -⟩ := hending
  exact
    { magic := hmagic
      last := h.last
      ends := ⟨UInt16.ofNat comment.length, hcomment, by
        rw [UInt16.toNat_ofNat_of_lt' h.room]
        exact h.ends⟩
      numRecords := hcount
      cdSize := hsize
      cdStartOffset := hoffset }

theorem LaidOut.stands_mapped (h : LaidOut host.file cdStartOffset eocd ms comment) :
    Stands (host.mapped cdStartOffset (directory ms).length) 0 (directory ms) := by
  have hbehind := h.behind
  have hends := h.ends
  have hall : Stands (ofBytes (host.file.drop cdStartOffset)) 0 (directory ms) := by
    rw [stands_ofBytes, List.drop_zero]
    exact stands_ofBytes.mp h.centrals
  refine hall.congr fun i _ hi => ?_
  rw [Nat.zero_add] at hi
  rw [host.mapped_file _ _ _ hi (by omega), ofBytes_drop]
  rfl

theorem LaidOut.member (h : LaidOut host.file cdStartOffset eocd ms comment) {m : Member}
    (hmem : m ∈ ms) : Stands (ofBytes host.file) m.offset m.header ∧
      Stands (ofBytes host.file) m.entry.offset m.payload ∧
      (m.hasDataDescriptor = true →
        Stands (ofBytes host.file) (m.entry.offset + m.payload.length) m.descriptor) ∧
      m.entry.offset + m.payload.length ≤ cdStartOffset := by
  obtain ⟨hlocal, hinside⟩ := h.locals m hmem
  rw [Member.localRecord, stands_append, stands_append, List.length_append] at hlocal
  rw [Member.localRecord, List.length_append, List.length_append] at hinside
  refine ⟨hlocal.1.1, hlocal.1.2, fun hflag => ?_, ?_⟩
  · have hdescriptor := hlocal.2
    rw [if_pos hflag, ← Nat.add_assoc] at hdescriptor
    exact hdescriptor
  · rw [Member.entry]
    dsimp only
    omega

theorem LaidOut.offset_lt (h : LaidOut host.file cdStartOffset eocd ms comment) {m : Member}
    (hmem : m ∈ ms) : m.offset + LocalFileHeader.size < cdStartOffset := by
  obtain ⟨-, -, -, hends⟩ := h.member hmem
  have hheader := m.header_length
  have hname := List.length_pos_iff.mpr (h.fits m hmem).named
  rw [Member.entry] at hends
  dsimp only at hends
  omega

theorem LaidOut.isArchive (h : LaidOut host.file cdStartOffset eocd ms comment)
    (hcalls : ∀ call, host.fails call = false) :
    IsArchive host eocd (UInt32.ofNat (directory ms).length) (UInt32.ofNat cdStartOffset)
      (ms.map Member.record) := by
  obtain ⟨hstart, hsize⟩ := h.offsets
  have hsmall := h.small
  have hbehind := h.behind
  have hends := h.ends
  exact
    { small := h.small
      calls := fun call _ => hcalls call
      fits := by
        rw [List.length_map]
        exact h.count
      some := fun hnone => h.some (List.map_eq_nil_iff.mp hnone)
      endRecord := by
        rw [List.length_map]
        exact h.endRecord
      bounds := by
        rw [UInt32.toNat_add, hstart, hsize]
        exact (Nat.mod_le _ _).trans h.behind
      directory := by
        rw [hstart, hsize]
        exact directory_records (fun m hmem =>
            ⟨h.fits m hmem, Nat.lt_of_le_of_lt (Nat.le_add_right _ _) (h.offset_lt hmem)⟩)
          h.stands_mapped (Nat.zero_add _).le (by omega)
      distinct := by
        rw [records_name]
        exact h.distinct }

theorem LaidOut.located (h : LaidOut host.file cdStartOffset eocd ms comment)
    {before after : List Member} {m : Member} (hsplit : ms = before ++ m :: after) :
    Located host.file (host.mapped cdStartOffset (directory ms).length) cdStartOffset
      (directory before).length m.name m.entry := by
  have hmem : m ∈ ms := hsplit ▸ List.mem_append_right before List.mem_cons_self
  have hm := h.fits m hmem
  have hsmall := h.small
  have hbehind := h.behind
  have hends := h.ends
  obtain ⟨hheader, -, -, hinside⟩ := h.member hmem
  have hoffset := h.offset_lt hmem
  have hplace : (UInt32.ofNat m.offset).toNat = m.offset :=
    UInt32.toNat_ofNat_of_lt' (by unfold UInt32.size; omega)
  have hpayload : m.compressedLength.toNat = m.payload.length :=
    UInt32.toNat_ofNat_of_lt' (by unfold UInt32.size; omega)
  have hrecord : Stands (host.mapped cdStartOffset (directory ms).length)
      (directory before).length m.centralRecord := by
    have hall := h.stands_mapped
    rw [show directory ms = directory before ++ (m.centralRecord ++ directory after) by
      rw [hsplit, directory_append, directory_cons]] at hall ⊢
    rw [stands_append, stands_append, Nat.zero_add] at hall
    exact hall.2.1
  obtain ⟨-, hmethod, hmodTime, hcrc32, hcompressed, huncompressed, -, -, -, hlocal, -⟩ :=
    Member.centralRecord_fields hrecord
  exact
    { method := hmethod
      modTime := ⟨m.modTime, hmodTime, rfl⟩
      crc32 := hcrc32
      compressedLength := hcompressed
      uncompressedLength := huncompressed
      header := ⟨UInt32.ofNat m.offset, hlocal, by rw [hplace]; exact hoffset, by
        rw [hplace]
        exact hm.header_of_stands hheader⟩
      ends := by
        rw [show m.entry.compressedLength = m.compressedLength from rfl, hpayload]
        exact hinside
      stored := fun hmethod => by
        rw [show m.entry.uncompressedLength = m.uncompressedLength from rfl,
          Member.uncompressedLength, UInt32.toNat_ofNat_of_lt' hm.content, ← hm.stored hmethod]
        exact hinside }

/-- A file that is laid out as an archive is opened, each of its members is found and comes out
    with the content that went in, and no other name is found. -/
theorem archive_round_trip {σ : Type} {z : Zlib σ} {will : σ → List UInt8 → List UInt8 → Prop}
    (hz : z.Decodes will) (h : LaidOut host.file cdStartOffset eocd ms comment)
    (hpacks : ∀ m ∈ ms, Packs z will m.method m.payload m.content)
    (hcalls : ∀ call, host.fails call = false) :
    ∃ archive, openArchiveFd host = some (0, archive) ∧
      (∀ m ∈ ms, ∀ data, findEntry host archive m.name data = some (0, m.entry) ∧
        ∀ fuel size, m.payload.length + m.content.length < fuel → m.content.length ≤ size →
          size + kBufSize < 2 ^ 32 →
          ∃ writer, extractToMemory host z fuel m.entry size = some (0, m.entry, writer) ∧
            writer.written = m.content) ∧
      ∀ name, name ≠ [] → name ∉ ms.map Member.name → ∀ data,
        findEntry host archive name data = some (kEntryNotFound, data) := by
  have harchive := h.isArchive hcalls
  obtain ⟨hstart, hsize⟩ := h.offsets
  obtain ⟨archive, hopen, hopened⟩ := openArchiveFd_complete harchive
  obtain ⟨hashTable, hsome, htable, hroom⟩ := hopened.table
  refine ⟨archive, hopen, fun m hmem data => ?_, fun name hname habsent data => ?_⟩
  · have hm := h.fits m hmem
    rcases findEntry_name host hm.named hsome htable hroom data with
      ⟨slot, hslot, htext, hfind⟩ | ⟨habsent, -⟩
    · obtain ⟨before, m', after, hsplit, rfl⟩ := mem_slots_records h.fits hslot
      -- the names are all different, so that the slot is the one of the member
      obtain rfl : m' = m := List.inj_on_of_nodup_map h.distinct
        (hsplit ▸ List.mem_append_right before List.mem_cons_self) hmem htext
      obtain ⟨-, hdata, hdescriptor, hinside⟩ := h.member hmem
      have hends := h.ends
      have hbehind := h.behind
      have hsmall := h.small
      refine ⟨?_, fun fuel size hfuel hfits hnarrow => ?_⟩
      · have hplace : (directory before).length ≤ (directory ms).length := by
          rw [hsplit, directory_append, List.length_append]
          exact Nat.le_add_right _ _
        rw [hfind]
        refine findSlot_complete (Nat.le_add_left _ _) ?_ hm.name (hcalls _) (hcalls _) ?_
        · rw [hopened.length, hsize]
          dsimp only
          omega
        · rw [hopened.map, hopened.offset, hstart, hsize]
          dsimp only
          rw [Nat.zero_add, Nat.add_sub_cancel]
          exact h.located hsplit
      · have heocd : EocdRecord.size = 22 := rfl
        exact extractToMemory_complete hz hcalls (hpacks m' hmem) hdata (by omega)
          (UInt32.toNat_ofNat_of_lt' (by unfold UInt32.size; omega))
          (UInt32.toNat_ofNat_of_lt' hm.content)
          (fun hflag => hm.descriptor_of_stands hflag (hdescriptor hflag)) hfits hnarrow hfuel
    · rw [records_name] at habsent
      exact absurd (List.mem_map_of_mem hmem) habsent
  · rcases findEntry_name host hname hsome htable hroom data with
      ⟨slot, hslot, htext, -⟩ | ⟨-, hfind⟩
    · obtain ⟨before, m, after, hsplit, rfl⟩ := mem_slots_records h.fits hslot
      refine absurd (List.mem_map.mpr ⟨m, ?_, htext⟩) habsent
      rw [hsplit]
      exact List.mem_append_right before List.mem_cons_self
    · exact hfind

end

/-- A stored and a deflated member of one content. The lengths of the second one are said by a
    data descriptor that has no signature. -/
def sampleMembers : List Member :=
  [⟨52, [0x61], 0x314, 20, 0, kCompressStored, 0x6020, 0x4a21, 5, [7], [7], 5, 1, 1, [], false,
      [], [], 0, 1, 0x81a40000⟩,
    ⟨0, [0xc3, 0xa9], 0x314, 20, 8, kCompressDeflated, 0x6020, 0x4a21, 5, [1, 1, 0, 0xfe, 0xff, 7],
      [7], 0, 0, 0, [], false, [0, 0], [0x21], 0, 0, 0x81a40000⟩]

def sampleArchive : List UInt8 :=
  (sampleMembers.reverse.flatMap fun m => m.localRecord ++ List.replicate m.name.length 0) ++
    directory sampleMembers ++ endRecord sampleMembers 85 []

theorem sampleArchive_laidOut :
    LaidOut (Host.ofFile sampleArchive).file 85 183 sampleMembers [] where
  some := by decide
  fits := by
    have hlead (byte : UInt8) (hbyte : leadingOnes byte = 0 ∧ byte ≠ 0) : Sequences [byte] :=
      .cons (leads_single hbyte.2 hbyte.1) (by rw [hbyte.1]; rfl)
        (fun _ hmem => absurd hmem List.not_mem_nil) .nil
    have htext : Sequences [0xc3, 0xa9] :=
      .cons ⟨by decide, by decide, by decide⟩ (show [(0xa9 : UInt8)].length = _ by decide)
        (fun byte hbyte => by
          rw [List.mem_singleton.mp hbyte]
          decide) .nil
    intro m hmem
    rcases List.mem_cons.mp hmem with rfl | hmem
    · exact ⟨by decide, hlead 0x61 (by decide), by decide, by decide, by decide, by decide,
        by decide, fun _ => rfl, fun _ => ⟨rfl, rfl, rfl⟩, fun hflag => absurd hflag (by decide)⟩
    · obtain rfl := List.mem_singleton.mp hmem
      exact ⟨by decide, htext, by decide, by decide, by decide, by decide, by decide,
        fun hmethod => absurd hmethod (by decide), fun hflag => absurd hflag (by decide),
        fun _ _ => by decide⟩
  count := by decide
  distinct := by decide
  room := by decide
  small := by decide +kernel
  locals := by decide +kernel
  centrals := by decide +kernel
  behind := by decide +kernel
  ending := by decide +kernel
  ends := by decide +kernel
  last := fun j hj hle => by
    have hlength : sampleArchive.length = 205 := by decide +kernel
    have hsize : EocdRecord.size = 22 := rfl
    rw [show (Host.ofFile sampleArchive).file = sampleArchive from rfl, hlength] at hle
    omega

theorem archive_round_trip_sample : ∃ archive,
    openArchiveFd (Host.ofFile sampleArchive) = some (0, archive) ∧
    (∀ m ∈ sampleMembers, ∀ data,
      findEntry (Host.ofFile sampleArchive) archive m.name data = some (0, m.entry) ∧
      ∀ fuel size, m.payload.length + m.content.length < fuel → m.content.length ≤ size →
        size + kBufSize < 2 ^ 32 →
        ∃ writer, extractToMemory (Host.ofFile sampleArchive)
          (expecting [1, 1, 0, 0xfe, 0xff, 7] [7]) fuel m.entry size =
          some (0, m.entry, writer) ∧ writer.written = m.content) ∧
    ∀ name, name ≠ [] → name ∉ sampleMembers.map Member.name → ∀ data,
      findEntry (Host.ofFile sampleArchive) archive name data = some (kEntryNotFound, data) := by
  refine archive_round_trip (expecting_decodes _ _) sampleArchive_laidOut (fun m hmem => ?_)
    fun _ => rfl
  rcases List.mem_cons.mp hmem with rfl | hmem
  · exact Or.inl ⟨rfl, rfl⟩
  · obtain rfl := List.mem_singleton.mp hmem
    exact Or.inr ⟨rfl, _, rfl, rfl⟩

end Shashlik.ZipArchives
