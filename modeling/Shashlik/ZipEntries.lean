import Shashlik.ZipOpening

set_option autoImplicit false

/-!
# Entries of an archive

What `FindEntry` says of a name, and when it says anything: the record of the central directory
and the local header that it points to have to agree, and the data has to end before the
directory.
-/
namespace Shashlik.ZipArchives
open ByteFields ZipNames

/-- A local header at a place of the file that agrees with what is known of an entry. -/
structure Header (file : List UInt8) (offset : ℕ) (name : List UInt8) (data : ZipEntry) :
    Prop where
  signature : LocalFileHeader.lfhSignature (ofBytes (file.drop offset)) =
    some LocalFileHeader.kSignature
  flags : ∃ flags, LocalFileHeader.gpbFlags (ofBytes (file.drop offset)) = some flags ∧
    data.hasDataDescriptor = decide (flags &&& kGPBDDFlagMask ≠ 0)
  sizes : data.hasDataDescriptor = false →
    LocalFileHeader.compressedSize (ofBytes (file.drop offset)) = some data.compressedLength ∧
    LocalFileHeader.uncompressedSize (ofBytes (file.drop offset)) =
      some data.uncompressedLength ∧
    LocalFileHeader.crc32 (ofBytes (file.drop offset)) = some data.crc32
  nameLength : LocalFileHeader.fileNameLength (ofBytes (file.drop offset)) =
    some (UInt16.ofNat name.length)
  text : Stands (ofBytes file) (offset + LocalFileHeader.size) name
  dataOffset : ∃ extraLength,
    LocalFileHeader.extraFieldLength (ofBytes (file.drop offset)) = some extraLength ∧
    data.offset = offset + LocalFileHeader.size + name.length + extraLength.toNat

/-- An entry as the record at a place of the directory and its local header say it. -/
structure Located (file : List UInt8) (cd : Memory) (cdOffset cdr : ℕ) (name : List UInt8)
    (data : ZipEntry) : Prop where
  method : CentralDirectoryRecord.compressionMethod cd cdr = some data.method
  modTime : ∃ modTime, CentralDirectoryRecord.lastModTime cd cdr = some modTime ∧
    data.modTime = modTime.toUInt32
  crc32 : CentralDirectoryRecord.crc32 cd cdr = some data.crc32
  compressedLength : CentralDirectoryRecord.compressedSize cd cdr = some data.compressedLength
  uncompressedLength : CentralDirectoryRecord.uncompressedSize cd cdr =
    some data.uncompressedLength
  header : ∃ offset, CentralDirectoryRecord.localFileHeaderOffset cd cdr = some offset ∧
    offset.toNat + LocalFileHeader.size < cdOffset ∧ Header file offset.toNat name data
  ends : data.offset + data.compressedLength.toNat ≤ cdOffset
  stored : data.method = kCompressStored → data.offset + data.uncompressedLength.toNat ≤ cdOffset

section
variable {cd lfh : Memory} {cdr : ℕ} {data data' : ZipEntry}

theorem fillEntry_iff : fillEntry cd cdr data = some data' ↔
    CentralDirectoryRecord.compressionMethod cd cdr = some data'.method ∧
    (∃ modTime, CentralDirectoryRecord.lastModTime cd cdr = some modTime ∧
      data'.modTime = modTime.toUInt32) ∧
    CentralDirectoryRecord.crc32 cd cdr = some data'.crc32 ∧
    CentralDirectoryRecord.compressedSize cd cdr = some data'.compressedLength ∧
    CentralDirectoryRecord.uncompressedSize cd cdr = some data'.uncompressedLength ∧
    data'.hasDataDescriptor = data.hasDataDescriptor ∧ data'.offset = data.offset := by
  simp only [fillEntry, Option.bind_eq_bind, Option.bind_eq_some_iff]
  constructor
  · rintro ⟨method, hmethod, modTime, hmodTime, crc32, hcrc32, compressed, hcompressed,
      uncompressed, huncompressed, h⟩
    cases h
    exact ⟨hmethod, ⟨modTime, hmodTime, rfl⟩, hcrc32, hcompressed, huncompressed, rfl, rfl⟩
  · rintro ⟨hmethod, ⟨modTime, hmodTime, htime⟩, hcrc32, hcompressed, huncompressed, hflag,
      hoffset⟩
    refine ⟨_, hmethod, _, hmodTime, _, hcrc32, _, hcompressed, _, huncompressed, ?_⟩
    cases data'
    simp_all only

theorem checkSizes_iff : checkSizes lfh data = some (0, data') ↔
    ∃ flags, LocalFileHeader.gpbFlags lfh = some flags ∧
      data' = { data with hasDataDescriptor := decide (flags &&& kGPBDDFlagMask ≠ 0) } ∧
      (flags &&& kGPBDDFlagMask = 0 →
        LocalFileHeader.compressedSize lfh = some data.compressedLength ∧
        LocalFileHeader.uncompressedSize lfh = some data.uncompressedLength ∧
        LocalFileHeader.crc32 lfh = some data.crc32) := by
  rw [checkSizes, Option.bind_eq_bind, Option.bind_eq_some_iff]
  refine exists_congr fun flags => and_congr_right fun _ => ?_
  by_cases hflags : flags &&& kGPBDDFlagMask = 0
  · rw [if_pos hflags]
    simp only [Option.bind_eq_bind, Option.bind_eq_some_iff, hflags, ne_eq, not_true_eq_false,
      decide_false, forall_const]
    constructor
    · rintro ⟨compressed, hcompressed, uncompressed, huncompressed, crc32, hcrc32, h⟩
      split_ifs at h with hdiffer
      · exact absurd (Prod.mk.inj (Option.some.inj h)).1 (by decide)
      · simp only [not_or, not_not] at hdiffer
        obtain ⟨rfl, rfl, rfl⟩ := hdiffer
        exact ⟨(Prod.mk.inj (Option.some.inj h)).2.symm, hcompressed, huncompressed, hcrc32⟩
    · rintro ⟨rfl, hcompressed, huncompressed, hcrc32⟩
      refine ⟨_, hcompressed, _, huncompressed, _, hcrc32, ?_⟩
      rw [if_neg (by simp)]
  · rw [if_neg hflags, Option.some.injEq, Prod.mk.injEq]
    simp only [true_and, hflags, ne_eq, not_false_eq_true, decide_true, false_imp_iff, and_true]
    exact eq_comm

theorem checkData_iff {cdOffset localHeaderOffset : ℕ} :
    checkData cdOffset localHeaderOffset lfh data = some (0, data') ↔
      ∃ fileNameLength extraFieldLength, LocalFileHeader.fileNameLength lfh = some fileNameLength ∧
        LocalFileHeader.extraFieldLength lfh = some extraFieldLength ∧
        data' = { data with offset := localHeaderOffset + LocalFileHeader.size +
          fileNameLength.toNat + extraFieldLength.toNat } ∧
        data'.offset + data.compressedLength.toNat ≤ cdOffset ∧
        (data.method = kCompressStored →
          data'.offset + data.uncompressedLength.toNat ≤ cdOffset) := by
  have herror (d : ZipEntry) : some (kInvalidOffset, d) ≠ some (0, data') :=
    fun h => absurd (Prod.mk.inj (Option.some.inj h)).1 (by decide)
  simp only [checkData, Option.bind_eq_bind, Option.bind_eq_some_iff]
  constructor
  · rintro ⟨fileNameLength, hname, extraFieldLength, hextra, h⟩
    split_ifs at h with hdata hcompressed hstored
    · exact absurd h (herror _)
    · exact absurd h (herror _)
    · exact absurd h (herror _)
    · obtain ⟨-, rfl⟩ := Prod.mk.inj (Option.some.inj h)
      exact ⟨_, _, hname, hextra, rfl, Nat.le_of_not_gt hcompressed, fun hmethod =>
        Nat.le_of_not_gt fun hgt => hstored ⟨hmethod, hgt⟩⟩
  · rintro ⟨fileNameLength, extraFieldLength, hname, hextra, rfl, hcompressed, hstored⟩
    refine ⟨_, hname, _, hextra, ?_⟩
    dsimp only at hcompressed hstored
    rw [if_neg (by omega), if_neg (Nat.not_lt_of_le hcompressed), if_neg fun h =>
      absurd h.2 (Nat.not_lt_of_le (hstored h.1))]

end

theorem readAtOffset_iff {host : Host} {call : Call} {len off : ℕ} {bytes : List UInt8} :
    readAtOffset host call len off = some bytes ↔
      host.fails call = false ∧ bytes.length = len ∧ Stands (ofBytes host.file) off bytes := by
  rw [readAtOffset, stands_ofBytes]
  by_cases hfails : host.fails call = true
  · rw [if_pos hfails, hfails]
    simp
  · rw [if_neg hfails, Bool.eq_false_iff.mpr hfails]
    constructor
    · intro h
      split_ifs at h with hlength
      rw [← Option.some.inj h, hlength]
      exact ⟨rfl, rfl, rfl⟩
    · rintro ⟨-, rfl, hbytes⟩
      rw [hbytes, if_pos rfl]

theorem checkName_iff {host : Host} {cdOffset localHeaderOffset : ℕ} {lfh : Memory}
    {name : List UInt8} (hfits : name.length < 2 ^ 16) :
    checkName host cdOffset localHeaderOffset lfh name = some 0 ↔
      LocalFileHeader.fileNameLength lfh = some (UInt16.ofNat name.length) ∧
      localHeaderOffset + LocalFileHeader.size + name.length ≤ cdOffset ∧
      host.fails .readName = false ∧
      Stands (ofBytes host.file) (localHeaderOffset + LocalFileHeader.size) name := by
  have hlength : (UInt16.ofNat name.length).toNat = name.length :=
    UInt16.toNat_ofNat_of_lt' hfits
  rw [checkName, Option.bind_eq_bind, Option.bind_eq_some_iff]
  constructor
  · rintro ⟨fileNameLength, hname, h⟩
    by_cases hsame : fileNameLength.toNat = name.length
    · replace h := (if_pos hsame).symm.trans h
      have hfield : fileNameLength = UInt16.ofNat name.length := by
        rw [← hsame, UInt16.ofNat_toNat]
      by_cases hbounds : localHeaderOffset + LocalFileHeader.size + fileNameLength.toNat > cdOffset
      · exact absurd (Option.some.inj ((if_pos hbounds).symm.trans h)) (by decide)
      · replace h := (if_neg hbounds).symm.trans h
        cases hread : readAtOffset host .readName name.length
            (localHeaderOffset + LocalFileHeader.size) with
        | none =>
          rw [hread] at h
          exact absurd (Option.some.inj h) (by decide)
        | some nameBuf =>
          rw [hread] at h
          replace h := Option.some.inj h
          by_cases hdiffer : name ≠ nameBuf
          · rw [if_pos hdiffer] at h
            exact absurd h (by decide)
          · obtain rfl := not_not.mp hdiffer
            obtain ⟨hfails, -, hstands⟩ := readAtOffset_iff.mp hread
            rw [hsame] at hbounds
            exact ⟨hname.trans (congrArg some hfield), Nat.le_of_not_gt hbounds, hfails, hstands⟩
    · exact absurd (Option.some.inj ((if_neg hsame).symm.trans h)) (by decide)
  · rintro ⟨hname, hbounds, hfails, hstands⟩
    refine ⟨_, hname, ?_⟩
    rw [if_pos hlength, hlength, if_neg (Nat.not_lt_of_le hbounds),
      readAtOffset_iff.mpr ⟨hfails, rfl, hstands⟩]
    simp

theorem buffer_field {file : List UInt8} {offset size : ℕ} {buf : List UInt8}
    (hlength : buf.length = size) (h : Stands (ofBytes file) offset buf)
    (i : ℕ) (hi : i < size) : ofBytes buf i = ofBytes (file.drop offset) i := by
  rw [stands_ofBytes, hlength] at h
  rw [← h, ofBytes, ofBytes, List.getElem?_take_of_lt hi]

theorem buffer_uint16 {file : List UInt8} {offset size : ℕ} {buf : List UInt8}
    (hlength : buf.length = size) (h : Stands (ofBytes file) offset buf)
    (i : ℕ) (hi : i + 2 ≤ size) :
    uint16 (ofBytes (file.drop offset)) i = uint16 (ofBytes buf) i :=
  uint16_congr fun j _ hlt => (buffer_field hlength h j (Nat.lt_of_lt_of_le hlt hi)).symm

theorem buffer_uint32 {file : List UInt8} {offset size : ℕ} {buf : List UInt8}
    (hlength : buf.length = size) (h : Stands (ofBytes file) offset buf)
    (i : ℕ) (hi : i + 4 ≤ size) :
    uint32 (ofBytes (file.drop offset)) i = uint32 (ofBytes buf) i :=
  uint32_congr fun j _ hlt => (buffer_field hlength h j (Nat.lt_of_lt_of_le hlt hi)).symm

theorem Header.exists_buffer {file : List UInt8} {offset : ℕ} {name : List UInt8}
    {data : ZipEntry} (h : Header file offset name data) :
    ∃ lfhBuf : List UInt8, lfhBuf.length = LocalFileHeader.size ∧
      Stands (ofBytes file) offset lfhBuf := by
  obtain ⟨extraLength, hextra, -⟩ := h.dataOffset
  have hfits := fits_of_stands (uint16_eq_some_iff.mp hextra)
    (List.ne_nil_of_length_pos (by rw [le16_length]; decide))
  rw [le16_length, List.length_drop] at hfits
  have hload := load_ofBytes (show offset + LocalFileHeader.size ≤ file.length by
    unfold LocalFileHeader.size
    omega)
  exact ⟨_, load_length hload, stands_of_load hload⟩

section
variable {host : Host} {archive : ZipArchive} {slot : ZipEntryName} {data data' : ZipEntry}

theorem slot_inside (hslot : CentralDirectoryRecord.size ≤ slot.name)
    (hlength : slot.name - CentralDirectoryRecord.size ≤ archive.directoryLength) :
    ¬ (slot.name < CentralDirectoryRecord.size ∨
      slot.name - CentralDirectoryRecord.size > archive.directoryLength) := by omega

theorem findSlot_sound (hslot : CentralDirectoryRecord.size ≤ slot.name)
    (hlength : slot.name - CentralDirectoryRecord.size ≤ archive.directoryLength)
    (hfits : slot.text.length < 2 ^ 16) (h : findSlot host archive slot data = some (0, data')) :
    host.fails .readHeader = false ∧ host.fails .readName = false ∧
      Located host.file archive.directoryMap archive.directoryOffset
        (slot.name - CentralDirectoryRecord.size) slot.text data' := by
  have herror (result : ℤ) (hresult : result ≠ 0) (d : ZipEntry) :
      some (result, d) ≠ some (0, data') :=
    fun h => hresult (Prod.mk.inj (Option.some.inj h)).1
  rw [findSlot, if_neg (slot_inside hslot hlength)] at h
  obtain ⟨filled, hfill, h⟩ := Option.bind_eq_some_iff.mp h
  obtain ⟨offset, hoffset, h⟩ := Option.bind_eq_some_iff.mp h
  by_cases hbounds : offset.toNat + LocalFileHeader.size ≥ archive.directoryOffset
  · exact absurd ((if_pos hbounds).symm.trans h) (herror _ (by decide) _)
  replace h := (if_neg hbounds).symm.trans h
  cases hread : readAtOffset host .readHeader LocalFileHeader.size offset.toNat with
  | none =>
    rw [hread] at h
    exact absurd h (herror _ (by decide) _)
  | some lfhBuf =>
    rw [hread] at h
    obtain ⟨hheader, hlength, hstands⟩ := readAtOffset_iff.mp hread
    have htwo := buffer_uint16 hlength hstands
    have hfour := buffer_uint32 hlength hstands
    obtain ⟨signature, hsignature, h⟩ := Option.bind_eq_some_iff.mp h
    by_cases hmagic : signature ≠ LocalFileHeader.kSignature
    · exact absurd ((if_pos hmagic).symm.trans h) (herror _ (by decide) _)
    replace h := (if_neg hmagic).symm.trans h
    obtain ⟨⟨result, sized⟩, hsizes, h⟩ := Option.bind_eq_some_iff.mp h
    by_cases hresult : result ≠ 0
    · exact absurd ((if_pos hresult).symm.trans h) (herror _ hresult _)
    replace h := (if_neg hresult).symm.trans h
    rw [not_not.mp hresult] at hsizes
    obtain ⟨named, hname, h⟩ := Option.bind_eq_some_iff.mp h
    by_cases hnamed : named ≠ 0
    · exact absurd ((if_pos hnamed).symm.trans h) (herror _ hnamed _)
    replace h := (if_neg hnamed).symm.trans h
    rw [not_not.mp hnamed] at hname
    obtain ⟨hmethod, hmodTime, hcrc32, hcompressed, huncompressed, -, -⟩ := fillEntry_iff.mp hfill
    obtain ⟨flags, hflags, rfl, hagree⟩ := checkSizes_iff.mp hsizes
    obtain ⟨hnameLength, hinside, hreadName, htext⟩ := (checkName_iff hfits).mp hname
    obtain ⟨nameLength, extraLength, hlength', hextra, rfl, hends, hstored⟩ := checkData_iff.mp h
    obtain rfl := Option.some.inj (hnameLength.symm.trans hlength')
    refine ⟨hheader, hreadName, hmethod, hmodTime, hcrc32, hcompressed, huncompressed,
      ⟨offset, hoffset, Nat.lt_of_not_ge hbounds, ?_⟩, hends, hstored⟩
    exact
      { signature := (hfour 0 (by decide)).trans (hsignature.trans
          (congrArg some (not_not.mp hmagic)))
        flags := ⟨flags, (htwo 6 (by decide)).trans hflags, rfl⟩
        sizes := fun hflag => by
          have hzero : flags &&& kGPBDDFlagMask = 0 := by
            rwa [decide_eq_false_iff_not, not_not] at hflag
          obtain ⟨hc, hu, hsum⟩ := hagree hzero
          exact ⟨(hfour 18 (by decide)).trans hc, (hfour 22 (by decide)).trans hu,
            (hfour 14 (by decide)).trans hsum⟩
        nameLength := (htwo 26 (by decide)).trans hnameLength
        text := htext
        dataOffset := ⟨extraLength, (htwo 28 (by decide)).trans hextra, by
          rw [UInt16.toNat_ofNat_of_lt' hfits]⟩ }

theorem findSlot_complete (hslot : CentralDirectoryRecord.size ≤ slot.name)
    (hlength : slot.name - CentralDirectoryRecord.size ≤ archive.directoryLength)
    (hfits : slot.text.length < 2 ^ 16) (hheader : host.fails .readHeader = false)
    (hreadName : host.fails .readName = false)
    (hlocated : Located host.file archive.directoryMap archive.directoryOffset
      (slot.name - CentralDirectoryRecord.size) slot.text data') :
    findSlot host archive slot data = some (0, data') := by
  rw [findSlot, if_neg (slot_inside hslot hlength)]
  obtain ⟨offset, hoffset, hbounds, hlocal⟩ := hlocated.header
  obtain ⟨extraLength, hextra, hdataOffset⟩ := hlocal.dataOffset
  obtain ⟨flags, hflags, hdescriptor⟩ := hlocal.flags
  obtain ⟨lfhBuf, hlength, hstands⟩ := hlocal.exists_buffer
  have htwo := buffer_uint16 hlength hstands
  have hfour := buffer_uint32 hlength hstands
  have hends := hlocated.ends
  let filled : ZipEntry :=
    { data' with hasDataDescriptor := data.hasDataDescriptor, offset := data.offset }
  let sized : ZipEntry := { data' with offset := data.offset }
  have hfill : fillEntry archive.directoryMap (slot.name - CentralDirectoryRecord.size) data =
      some filled := fillEntry_iff.mpr ⟨hlocated.method, hlocated.modTime, hlocated.crc32,
    hlocated.compressedLength, hlocated.uncompressedLength, rfl, rfl⟩
  have hsizes : checkSizes (ofBytes lfhBuf) filled = some (0, sized) := by
    refine checkSizes_iff.mpr ⟨flags, (htwo 6 (by decide)).symm.trans hflags, ?_, fun hzero => ?_⟩
    · rw [← hdescriptor]
    · obtain ⟨hc, hu, hsum⟩ := hlocal.sizes (by
        rw [hdescriptor, decide_eq_false_iff_not, not_not]
        exact hzero)
      exact ⟨(hfour 18 (by decide)).symm.trans hc, (hfour 22 (by decide)).symm.trans hu,
        (hfour 14 (by decide)).symm.trans hsum⟩
  have hname : checkName host archive.directoryOffset offset.toNat (ofBytes lfhBuf) slot.text =
      some 0 := (checkName_iff hfits).mpr ⟨(htwo 26 (by decide)).symm.trans hlocal.nameLength,
    by omega, hreadName, hlocal.text⟩
  have hdata : checkData archive.directoryOffset offset.toNat (ofBytes lfhBuf) sized =
      some (0, data') := by
    refine checkData_iff.mpr ⟨_, extraLength, (htwo 26 (by decide)).symm.trans hlocal.nameLength,
      (htwo 28 (by decide)).symm.trans hextra, ?_, hends, hlocated.stored⟩
    rw [UInt16.toNat_ofNat_of_lt' hfits, ← hdataOffset]
  refine Option.bind_eq_some_iff.mpr ⟨filled, hfill, Option.bind_eq_some_iff.mpr
    ⟨offset, hoffset, (if_neg (Nat.not_le_of_lt hbounds)).trans ?_⟩⟩
  rw [readAtOffset_iff.mpr ⟨hheader, hlength, hstands⟩]
  refine Option.bind_eq_some_iff.mpr ⟨_, (hfour 0 (by decide)).symm.trans hlocal.signature,
    (if_neg (not_not.mpr rfl)).trans (Option.bind_eq_some_iff.mpr ⟨_, hsizes, ?_⟩)⟩
  exact (if_neg (not_not.mpr rfl)).trans (Option.bind_eq_some_iff.mpr
    ⟨0, hname, (if_neg (not_not.mpr rfl)).trans hdata⟩)

theorem findSlot_iff (hslot : CentralDirectoryRecord.size ≤ slot.name)
    (hlength : slot.name - CentralDirectoryRecord.size ≤ archive.directoryLength)
    (hfits : slot.text.length < 2 ^ 16) :
    findSlot host archive slot data = some (0, data') ↔
      host.fails .readHeader = false ∧ host.fails .readName = false ∧
      Located host.file archive.directoryMap archive.directoryOffset
        (slot.name - CentralDirectoryRecord.size) slot.text data' := by
  constructor
  · exact findSlot_sound hslot hlength hfits
  · rintro ⟨hheader, hreadName, hlocated⟩
    exact findSlot_complete hslot hlength hfits hheader hreadName hlocated

end

/-! ### Names -/

theorem mem_slots {cd : Memory} {length directoryOffset ptr : ℕ} {rs : List Record}
    (h : Directory cd length directoryOffset ptr rs) {slot : ZipEntryName}
    (hslot : slot ∈ slots ptr rs) : ∃ r ∈ rs, ∃ cdr,
      slot = ⟨cdr + CentralDirectoryRecord.size, r.name⟩ ∧ Reads cd cdr r ∧
      cdr + r.length ≤ length := by
  induction rs generalizing ptr with
  | nil => exact absurd hslot List.not_mem_nil
  | cons r rs ih =>
    obtain ⟨hreads, -, -, hend, hrest⟩ := h
    rcases List.mem_cons.mp hslot with rfl | hslot
    · exact ⟨r, List.mem_cons_self, ptr, rfl, hreads, hend⟩
    · obtain ⟨other, hother, cdr, hcdr⟩ := ih hrest hslot
      exact ⟨other, List.mem_cons_of_mem r hother, cdr, hcdr⟩

theorem findEntry_name (host : Host) {archive : ZipArchive} {name : List UInt8}
    (hname : name ≠ []) {rs : List Record} {hashTable : HashTable}
    (hsome : archive.hashTable = some hashTable)
    (htable : NameTable hashTable archive.hashTableSize (slots 0 rs))
    (hroom : rs.length < hashTable.length) (data : ZipEntry) :
    (∃ slot ∈ slots 0 rs, slot.text = name ∧
      findEntry host archive name data = findSlot host archive slot data) ∨
    (name ∉ rs.map Record.name ∧
      findEntry host archive name data = some (kEntryNotFound, data)) := by
  have hlength : name.length ≠ 0 := fun h => hname (List.length_eq_zero_iff.mp h)
  rw [findEntry, if_neg hlength, hsome]
  simp only [Option.bind_eq_bind, Option.bind_some]
  rcases htable.entryToIndex_eq (by rwa [slots_length]) name with
    ⟨slot, ent, hslot, htext, hent, hindex⟩ | ⟨hnone, hindex⟩
  · refine Or.inl ⟨slot, hslot, htext, ?_⟩
    rw [hindex, Option.bind_some, if_neg (Int.not_lt.mpr (Int.natCast_nonneg ent)),
      Int.toNat_natCast, hent]
  · rw [slots_text] at hnone
    refine Or.inr ⟨hnone, ?_⟩
    rw [hindex, Option.bind_some, if_pos (by decide)]

/-- `FindEntry` of every name in every archive that has been opened: a name that is not in the
    directory is not found, and another one is if and only if its local header agrees. -/
theorem findEntry_opened {host : Host} {archive : ZipArchive}
    (h : openArchiveFd host = some (0, archive)) : ∃ eocd cdSize cdStartOffset rs,
      IsArchive host eocd cdSize cdStartOffset rs ∧
      ∀ (fails : Call → Bool) (name : List UInt8) (data : ZipEntry), name ≠ [] →
        (name ∉ rs.map Record.name → findEntry { host with fails := fails } archive name data =
          some (kEntryNotFound, data)) ∧
        ∀ data', findEntry { host with fails := fails } archive name data = some (0, data') ↔
          fails .readHeader = false ∧ fails .readName = false ∧
          ∃ cdr, ⟨cdr + CentralDirectoryRecord.size, name⟩ ∈ slots 0 rs ∧
            Located host.file (host.mapped cdStartOffset.toNat cdSize.toNat)
              cdStartOffset.toNat cdr name data' := by
  obtain ⟨eocd, cdSize, cdStartOffset, rs, harchive, hopened⟩ := openArchiveFd_sound h
  refine ⟨eocd, cdSize, cdStartOffset, rs, harchive, fun fails name data hname => ?_⟩
  obtain ⟨hashTable, hsome, htable, hroom⟩ := hopened.table
  have hslot {slot : ZipEntryName} (hmem : slot ∈ slots 0 rs) (data' : ZipEntry) :
      findSlot { host with fails := fails } archive slot data = some (0, data') ↔
        fails .readHeader = false ∧ fails .readName = false ∧
        Located host.file (host.mapped cdStartOffset.toNat cdSize.toNat) cdStartOffset.toNat
          (slot.name - CentralDirectoryRecord.size) slot.text data' := by
    obtain ⟨r, -, cdr, rfl, hreads, hend⟩ := mem_slots harchive.directory hmem
    rw [Record.length] at hend
    rw [← hopened.map, ← hopened.offset]
    exact findSlot_iff (Nat.le_add_left _ _)
      (by rw [hopened.length, Nat.add_sub_cancel]; omega) hreads.fits
  rcases findEntry_name { host with fails := fails } hname hsome htable hroom data with
    ⟨slot, hmem, htext, hfind⟩ | ⟨hnone, hfind⟩
  · constructor
    · intro hnew
      refine absurd ?_ hnew
      rw [← slots_text 0 rs, ← htext]
      exact List.mem_map_of_mem hmem
    · intro data'
      rw [hfind, hslot hmem data', htext]
      obtain ⟨r, -, cdr, rfl, -⟩ := mem_slots harchive.directory hmem
      refine and_congr_right fun _ => and_congr_right fun _ => ?_
      constructor
      · exact fun hlocated => ⟨cdr, htext ▸ hmem, hlocated⟩
      · rintro ⟨cdr', hmem', hlocated⟩
        have hsame := htable.holds.keys_injective hmem hmem' htext
        rw [ZipEntryName.mk.injEq, Nat.add_right_cancel_iff] at hsame
        rw [hsame.1]
        exact hlocated
  · constructor
    · exact fun _ => hfind
    · intro data'
      rw [hfind]
      refine iff_of_false (fun heq => ?_) ?_
      · exact absurd (Prod.mk.inj (Option.some.inj heq)).1 (by decide)
      · rintro ⟨-, -, cdr, hmem, -⟩
        refine hnone ?_
        rw [← slots_text 0 rs]
        exact List.mem_map_of_mem hmem

theorem findEntry_opened_sample : ∃ archive eocd cdSize cdStartOffset rs,
    IsArchive (Host.ofFile sampleFile) eocd cdSize cdStartOffset rs ∧
    ∀ (fails : Call → Bool) (name : List UInt8) (data : ZipEntry), name ≠ [] →
      (name ∉ rs.map Record.name →
        findEntry { Host.ofFile sampleFile with fails := fails } archive name data =
          some (kEntryNotFound, data)) ∧
      ∀ data', findEntry { Host.ofFile sampleFile with fails := fails } archive name data =
          some (0, data') ↔
        fails .readHeader = false ∧ fails .readName = false ∧
        ∃ cdr, ⟨cdr + CentralDirectoryRecord.size, name⟩ ∈ slots 0 rs ∧
          Located sampleFile
            ((Host.ofFile sampleFile).mapped cdStartOffset.toNat cdSize.toNat)
            cdStartOffset.toNat cdr name data' := by
  obtain ⟨archive, hopen⟩ := sampleFile_opens
  exact ⟨archive, findEntry_opened hopen⟩

end Shashlik.ZipArchives
