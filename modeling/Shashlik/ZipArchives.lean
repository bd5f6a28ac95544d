import Shashlik.Library.ProbeTables
import Shashlik.ZipNames

set_option autoImplicit false

/-!
# Zip archives

Opening an archive for reading, looking entries up by name and going through all of them. A
function has no outcome where the process reads a byte that is not there for it, or where a loop
does not end.
-/
namespace Shashlik.ZipArchives
open ByteFields ZipNames

/-! ### The file -/

inductive Call where
  | seekEnd
  | seekTail
  | readTail
  | createMap
  | readHeader
  | readName
  | seekData
  | readBlock (n : ℕ)
  | readDescriptor
  deriving DecidableEq

/-- An open file. A mapping has the bytes of the file where it covers them; what can be read
    around them is not said. -/
structure Host where
  file : List UInt8
  /-- Whether a call gives less than it was asked for. -/
  fails : Call → Bool
  mapped : ℕ → ℕ → Memory
  mapped_file : ∀ offset length i, i < length → offset + i < file.length →
    mapped offset length i = file[offset + i]?

/-- A file on which no call fails, in a memory that reads as zero around it. -/
def Host.ofFile (file : List UInt8) : Host where
  file := file
  fails _ := false
  mapped offset _ i := some (file[offset + i]?.getD 0)
  mapped_file offset _ i _ h := by rw [List.getElem?_eq_getElem h, Option.getD_some]

def kIterationEnd : ℤ := -1
def kZlibError : ℤ := -2
def kInvalidFile : ℤ := -3
def kInvalidHandle : ℤ := -4
def kDuplicateEntry : ℤ := -5
def kEmptyArchive : ℤ := -6
def kEntryNotFound : ℤ := -7
def kInvalidOffset : ℤ := -8
def kInconsistentInformation : ℤ := -9
def kInvalidEntryName : ℤ := -10
def kIoError : ℤ := -11
def kMmapFailed : ℤ := -12

def kGPBDDFlagMask : UInt16 := 0x0008
def kMaxCommentLen : ℕ := 65535

/-! ### Records, as they lie in memory -/

namespace EocdRecord

def kSignature : UInt32 := 0x06054b50
def size : ℕ := 22

def signature (m : Memory) (eocd : ℕ) : Option UInt32 := uint32 m eocd
def numRecords (m : Memory) (eocd : ℕ) : Option UInt16 := uint16 m (eocd + 10)
def cdSize (m : Memory) (eocd : ℕ) : Option UInt32 := uint32 m (eocd + 12)
def cdStartOffset (m : Memory) (eocd : ℕ) : Option UInt32 := uint32 m (eocd + 16)
def commentLength (m : Memory) (eocd : ℕ) : Option UInt16 := uint16 m (eocd + 20)

end EocdRecord

def kMaxEOCDSearch : ℕ := kMaxCommentLen + EocdRecord.size

namespace CentralDirectoryRecord

def kSignature : UInt32 := 0x02014b50
def size : ℕ := 46

def recordSignature (m : Memory) (cdr : ℕ) : Option UInt32 := uint32 m cdr
def compressionMethod (m : Memory) (cdr : ℕ) : Option UInt16 := uint16 m (cdr + 10)
def lastModTime (m : Memory) (cdr : ℕ) : Option UInt16 := uint16 m (cdr + 12)
def crc32 (m : Memory) (cdr : ℕ) : Option UInt32 := uint32 m (cdr + 16)
def compressedSize (m : Memory) (cdr : ℕ) : Option UInt32 := uint32 m (cdr + 20)
def uncompressedSize (m : Memory) (cdr : ℕ) : Option UInt32 := uint32 m (cdr + 24)
def fileNameLength (m : Memory) (cdr : ℕ) : Option UInt16 := uint16 m (cdr + 28)
def extraFieldLength (m : Memory) (cdr : ℕ) : Option UInt16 := uint16 m (cdr + 30)
def commentLength (m : Memory) (cdr : ℕ) : Option UInt16 := uint16 m (cdr + 32)
def localFileHeaderOffset (m : Memory) (cdr : ℕ) : Option UInt32 := uint32 m (cdr + 42)

end CentralDirectoryRecord

namespace LocalFileHeader

def kSignature : UInt32 := 0x04034b50
def size : ℕ := 30

def lfhSignature (m : Memory) : Option UInt32 := uint32 m 0
def gpbFlags (m : Memory) : Option UInt16 := uint16 m 6
def crc32 (m : Memory) : Option UInt32 := uint32 m 14
def compressedSize (m : Memory) : Option UInt32 := uint32 m 18
def uncompressedSize (m : Memory) : Option UInt32 := uint32 m 22
def fileNameLength (m : Memory) : Option UInt16 := uint16 m 26
def extraFieldLength (m : Memory) : Option UInt16 := uint16 m 28

end LocalFileHeader

/-! ### The hash table -/

/-- Where a name stands in the central directory, and the bytes it has. -/
structure ZipEntryName where
  name : ℕ
  text : List UInt8
  deriving DecidableEq

abbrev HashTable := ProbeTables.Table ZipEntryName

def roundUpPower2 (val : UInt32) : UInt32 :=
  let val := val - 1
  let val := val ||| val >>> 1
  let val := val ||| val >>> 2
  let val := val ||| val >>> 4
  let val := val ||| val >>> 8
  let val := val ||| val >>> 16
  val + 1

def computeHash (name : List UInt8) : UInt32 :=
  name.foldl (fun hash byte => hash * 31 + byte.toUInt32) 0

/-- The loop that `EntryToIndex` and `AddToHash` have in common: from the slot of the hash to
    the one of the name or a free one. -/
def probe (hashTable : HashTable) (hashTableSize : UInt32) (name : List UInt8) : Option ℕ :=
  ProbeTables.search ZipEntryName.text (fun ent => (ent + 1) &&& (hashTableSize.toNat - 1))
    hashTable name hashTable.length ((computeHash name).toNat &&& (hashTableSize.toNat - 1))

def entryToIndex (hashTable : HashTable) (hashTableSize : UInt32) (name : List UInt8) :
    Option ℤ := do
  let ent ← probe hashTable hashTableSize name
  match hashTable[ent]? with
  | none => none
  | some none => some kEntryNotFound
  | some (some _) => some ent

def addToHash (hashTable : HashTable) (hashTableSize : UInt32) (name : ZipEntryName) :
    Option (ℤ × HashTable) := do
  let ent ← probe hashTable hashTableSize name.text
  match hashTable[ent]? with
  | none => none
  | some none => some (0, hashTable.set ent (some name))
  | some (some _) => some (kDuplicateEntry, hashTable)

/-! ### Opening -/

structure ZipArchive where
  directoryOffset : ℕ := 0
  directoryMap : Memory := fun _ => none
  directoryLength : ℕ := 0
  numEntries : UInt16 := 0
  hashTableSize : UInt32 := 0
  hashTable : Option HashTable := none

def scanBackward (scanBuffer : Memory) : ℕ → Option (Option ℕ)
  | 0 => do
    let found ← atEocd 0
    if found then some (some 0) else some none
  | i + 1 => do
    let found ← atEocd (i + 1)
    if found then some (some (i + 1)) else scanBackward scanBuffer i
where
  atEocd (i : ℕ) : Option Bool := do
    let byte ← scanBuffer i
    if byte = 0x50 then
      let signature ← EocdRecord.signature scanBuffer i
      some (signature == EocdRecord.kSignature)
    else some false

def mapCentralDirectory0 (host : Host) (archive : ZipArchive) (fileLength readAmount : ℕ) :
    Option (ℤ × ZipArchive) := do
  let searchStart := fileLength - readAmount
  if host.fails .seekTail then some (kIoError, archive)
  else if host.fails .readTail then some (kIoError, archive)
  else
    let scanBuffer := ofBytes ((host.file.drop searchStart).take readAmount)
    match ← scanBackward scanBuffer (readAmount - EocdRecord.size) with
    | none => some (kInvalidFile, archive)
    | some i =>
      let eocdOffset := searchStart + i
      let commentLength ← EocdRecord.commentLength scanBuffer i
      let calculatedLength := eocdOffset + EocdRecord.size + commentLength.toNat
      if calculatedLength ≠ fileLength then some (kInvalidFile, archive)
      else
        let cdStartOffset ← EocdRecord.cdStartOffset scanBuffer i
        let cdSize ← EocdRecord.cdSize scanBuffer i
        -- a sum of 32 bits
        if (cdStartOffset + cdSize).toNat > eocdOffset then some (kInvalidOffset, archive)
        else
          let numRecords ← EocdRecord.numRecords scanBuffer i
          if numRecords = 0 then some (kEmptyArchive, archive)
          else if host.fails .createMap then some (kMmapFailed, archive)
          else some (0, { archive with
            directoryMap := host.mapped cdStartOffset.toNat cdSize.toNat
            directoryLength := cdSize.toNat
            numEntries := numRecords
            directoryOffset := cdStartOffset.toNat })

def mapCentralDirectory (host : Host) (archive : ZipArchive) : Option (ℤ × ZipArchive) :=
  let fileLength := host.file.length
  if host.fails .seekEnd then some (kInvalidFile, archive)
  else if fileLength > 0xffffffff then some (kInvalidFile, archive)
  else if fileLength < EocdRecord.size then some (kInvalidFile, archive)
  else mapCentralDirectory0 host archive fileLength (min kMaxEOCDSearch fileLength)

/-- The loop over the central directory, with so many entries to come. -/
def addEntries (archive : ZipArchive) : ℕ → ℕ → HashTable → Option (ℤ × HashTable)
  | 0, _, table => some (0, table)
  | entries + 1, ptr, table => do
    let cd := archive.directoryMap
    let recordSignature ← CentralDirectoryRecord.recordSignature cd ptr
    if recordSignature ≠ CentralDirectoryRecord.kSignature then some (-1, table)
    else if ptr + CentralDirectoryRecord.size > archive.directoryLength then some (-1, table)
    else
      let localHeaderOffset ← CentralDirectoryRecord.localFileHeaderOffset cd ptr
      if localHeaderOffset.toNat ≥ archive.directoryOffset then some (-1, table)
      else
        let fileNameLength ← CentralDirectoryRecord.fileNameLength cd ptr
        let extraLength ← CentralDirectoryRecord.extraFieldLength cd ptr
        let commentLength ← CentralDirectoryRecord.commentLength cd ptr
        let fileName := ptr + CentralDirectoryRecord.size
        let valid ← isValidEntryName cd fileName fileNameLength.toNat
        if ¬ valid then some (-1, table)
        else
          let text ← load cd fileName fileNameLength.toNat
          let (addResult, table) ← addToHash table archive.hashTableSize ⟨fileName, text⟩
          if addResult ≠ 0 then some (addResult, table)
          else
            let ptr := ptr + CentralDirectoryRecord.size + fileNameLength.toNat +
              extraLength.toNat + commentLength.toNat
            if ptr > archive.directoryLength then some (-1, table)
            else addEntries archive entries ptr table

/-- At most three quarters of the table are in use. -/
def hashTableSize (numEntries : UInt16) : UInt32 :=
  roundUpPower2 (UInt32.ofNat (1 + numEntries.toNat * 4 / 3))

def parseZipArchive (archive : ZipArchive) : Option (ℤ × ZipArchive) := do
  let archive := { archive with hashTableSize := hashTableSize archive.numEntries }
  let (result, hashTable) ← addEntries archive archive.numEntries.toNat 0
    (List.replicate archive.hashTableSize.toNat none)
  some (result, { archive with hashTable := some hashTable })

def openArchiveInternal (host : Host) (archive : ZipArchive) : Option (ℤ × ZipArchive) := do
  let (result, archive) ← mapCentralDirectory host archive
  if result ≠ 0 then some (result, archive)
  else
    let (result, archive) ← parseZipArchive archive
    if result ≠ 0 then some (result, archive) else some (0, archive)

def openArchiveFd (host : Host) : Option (ℤ × ZipArchive) := openArchiveInternal host {}

/-! ### Entries -/

structure ZipEntry where
  method : UInt16
  modTime : UInt32
  hasDataDescriptor : Bool
  crc32 : UInt32
  compressedLength : UInt32
  uncompressedLength : UInt32
  offset : ℕ
  deriving DecidableEq

def kCompressStored : UInt16 := 0
def kCompressDeflated : UInt16 := 8

def readAtOffset (host : Host) (call : Call) (len off : ℕ) : Option (List UInt8) :=
  if host.fails call then none
  else if ((host.file.drop off).take len).length = len then some ((host.file.drop off).take len)
  else none

def fillEntry (cd : Memory) (cdr : ℕ) (data : ZipEntry) : Option ZipEntry := do
  let method ← CentralDirectoryRecord.compressionMethod cd cdr
  let modTime ← CentralDirectoryRecord.lastModTime cd cdr
  let crc32 ← CentralDirectoryRecord.crc32 cd cdr
  let compressedLength ← CentralDirectoryRecord.compressedSize cd cdr
  let uncompressedLength ← CentralDirectoryRecord.uncompressedSize cd cdr
  some { data with
    method := method
    modTime := modTime.toUInt32
    crc32 := crc32
    compressedLength := compressedLength
    uncompressedLength := uncompressedLength }

def checkSizes (lfh : Memory) (data : ZipEntry) : Option (ℤ × ZipEntry) := do
  let gpbFlags ← LocalFileHeader.gpbFlags lfh
  if gpbFlags &&& kGPBDDFlagMask = 0 then
    let data := { data with hasDataDescriptor := false }
    let compressedSize ← LocalFileHeader.compressedSize lfh
    let uncompressedSize ← LocalFileHeader.uncompressedSize lfh
    let crc32 ← LocalFileHeader.crc32 lfh
    if data.compressedLength ≠ compressedSize ∨ data.uncompressedLength ≠ uncompressedSize ∨
        data.crc32 ≠ crc32 then
      some (kInconsistentInformation, data)
    else some (0, data)
  else some (0, { data with hasDataDescriptor := true })

def checkName (host : Host) (cdOffset localHeaderOffset : ℕ) (lfh : Memory) (name : List UInt8) :
    Option ℤ := do
  let fileNameLength ← LocalFileHeader.fileNameLength lfh
  if fileNameLength.toNat = name.length then
    let nameOffset := localHeaderOffset + LocalFileHeader.size
    if nameOffset + fileNameLength.toNat > cdOffset then some kInvalidOffset
    else
      match readAtOffset host .readName name.length nameOffset with
      | none => some kIoError
      | some nameBuf => some (if name ≠ nameBuf then kInconsistentInformation else 0)
  else some kInconsistentInformation

def checkData (cdOffset localHeaderOffset : ℕ) (lfh : Memory) (data : ZipEntry) :
    Option (ℤ × ZipEntry) := do
  let fileNameLength ← LocalFileHeader.fileNameLength lfh
  let extraFieldLength ← LocalFileHeader.extraFieldLength lfh
  let dataOffset := localHeaderOffset + LocalFileHeader.size + fileNameLength.toNat +
    extraFieldLength.toNat
  if dataOffset > cdOffset then some (kInvalidOffset, data)
  else if dataOffset + data.compressedLength.toNat > cdOffset then some (kInvalidOffset, data)
  else if data.method = kCompressStored ∧
      dataOffset + data.uncompressedLength.toNat > cdOffset then
    some (kInvalidOffset, data)
  else some (0, { data with offset := dataOffset })

def findSlot (host : Host) (archive : ZipArchive) (slot : ZipEntryName) (data : ZipEntry) :
    Option (ℤ × ZipEntry) := do
  if slot.name < CentralDirectoryRecord.size ∨
      slot.name - CentralDirectoryRecord.size > archive.directoryLength then
    some (kInvalidOffset, data)
  else
    let cdr := slot.name - CentralDirectoryRecord.size
    let cdOffset := archive.directoryOffset
    let data ← fillEntry archive.directoryMap cdr data
    let localHeaderOffset ←
      CentralDirectoryRecord.localFileHeaderOffset archive.directoryMap cdr
    if localHeaderOffset.toNat + LocalFileHeader.size ≥ cdOffset then some (kInvalidOffset, data)
    else
      match readAtOffset host .readHeader LocalFileHeader.size localHeaderOffset.toNat with
      | none => some (kIoError, data)
      | some lfhBuf =>
        let lfh := ofBytes lfhBuf
        let lfhSignature ← LocalFileHeader.lfhSignature lfh
        if lfhSignature ≠ LocalFileHeader.kSignature then some (kInvalidOffset, data)
        else
          let (result, data) ← checkSizes lfh data
          if result ≠ 0 then some (result, data)
          else
            let result ← checkName host cdOffset localHeaderOffset.toNat lfh slot.text
            if result ≠ 0 then some (result, data)
            else checkData cdOffset localHeaderOffset.toNat lfh data

def findEntry (host : Host) (archive : ZipArchive) (entryName : List UInt8) (data : ZipEntry) :
    Option (ℤ × ZipEntry) := do
  if entryName.length = 0 then some (kInvalidEntryName, data)
  else
    let hashTable ← archive.hashTable
    let ent ← entryToIndex hashTable archive.hashTableSize entryName
    if ent < 0 then some (ent, data)
    else
      match hashTable[ent.toNat]? with
      | some (some slot) => findSlot host archive slot data
      | _ => none

/-! ### Iteration -/

structure IterationHandle where
  position : ℕ
  prefixText : List UInt8
  deriving DecidableEq

def startIteration (archive : ZipArchive) (optionalPrefix : Option (List UInt8)) :
    ℤ × Option IterationHandle :=
  if archive.hashTable = none then (kInvalidHandle, none)
  else (0, some ⟨0, optionalPrefix.getD []⟩)

def memcmp (m : Memory) : ℕ → List UInt8 → Option Bool
  | _, [] => some true
  | place, byte :: bytes => do
    let other ← m place
    if other = byte then memcmp m (place + 1) bytes else some false

/-- The first of these slots whose name is asked for, and how many slots come before it. -/
def nextSlot (cd : Memory) (prefixText : List UInt8) :
    List (Option ZipEntryName) → Option (Option (ℕ × ZipEntryName))
  | [] => some none
  | none :: slots => do
    let found ← nextSlot cd prefixText slots
    some (found.map fun found => (found.1 + 1, found.2))
  | some slot :: slots => do
    let asked ← memcmp cd slot.name prefixText
    if asked then some (some (0, slot))
    else
      let found ← nextSlot cd prefixText slots
      some (found.map fun found => (found.1 + 1, found.2))

/-- `Next`. The name is set only where the entry has been found. -/
def next (host : Host) (archive : ZipArchive) (handle : IterationHandle) (data : ZipEntry)
    (name : Option (List UInt8)) :
    Option (ℤ × IterationHandle × ZipEntry × Option (List UInt8)) := do
  match archive.hashTable with
  | none => some (kInvalidHandle, handle, data, name)
  | some hashTable =>
    match ← nextSlot archive.directoryMap handle.prefixText (hashTable.drop handle.position) with
    | none => some (kIterationEnd, { handle with position := 0 }, data, name)
    | some (before, slot) =>
      let handle := { handle with position := handle.position + before + 1 }
      let (error, data) ← findSlot host archive slot data
      if error = 0 then some (0, handle, data, some slot.text)
      else some (error, handle, data, name)

end Shashlik.ZipArchives
