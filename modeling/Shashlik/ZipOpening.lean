import Shashlik.ZipDirectories

set_option autoImplicit false

/-!
# Opening archives

The end record is the last one of the file, and its comment ends the file. What the process reads
around the mapping of the directory does not reach further than a name can be long.
-/
namespace Shashlik.ZipArchives
open ByteFields ZipNames

/-! ### The end record -/

/-- The magic number of an end record stands at a place of the file. -/
def Magic (file : List UInt8) (eocd : ℕ) : Prop :=
  EocdRecord.signature (ofBytes file) eocd = some EocdRecord.kSignature

instance (file : List UInt8) (eocd : ℕ) : Decidable (Magic file eocd) :=
  inferInstanceAs (Decidable (_ = _))

theorem atEocd_eq {buffer : List UInt8} {i : ℕ} (h : i + 4 ≤ buffer.length) :
    scanBackward.atEocd (ofBytes buffer) i = some (decide (Magic buffer i)) := by
  obtain ⟨signature, hsignature⟩ := uint32_ofBytes h
  have hbyte : ofBytes buffer i = some buffer[i] := List.getElem?_eq_getElem (by omega)
  have hmagic : Magic buffer i ↔ signature = EocdRecord.kSignature := by
    rw [Magic, EocdRecord.signature, hsignature, Option.some.injEq]
  rw [scanBackward.atEocd, hbyte]
  simp only [Option.bind_eq_bind, Option.bind_some]
  by_cases hfirst : buffer[i] = 0x50
  · rw [if_pos hfirst, EocdRecord.signature, hsignature, Option.bind_some, Option.some.injEq,
      Bool.eq_iff_iff, beq_iff_eq, decide_eq_true_eq, hmagic]
  · rw [if_neg hfirst, Option.some.injEq, eq_comm, decide_eq_false_iff_not]
    intro hstands
    have hbytes := uint32_eq_some_iff.mp hstands
    rw [show le32 EocdRecord.kSignature = [0x50, 0x4b, 0x05, 0x06] by decide, stands_cons,
      hbyte] at hbytes
    exact hfirst (Option.some.inj hbytes.1)

theorem scanBackward_eq {buffer : List UInt8} {i : ℕ} (h : i + 4 ≤ buffer.length) :
    ∃ found, scanBackward (ofBytes buffer) i = some found ∧
      (found = none → ∀ j, j ≤ i → ¬ Magic buffer j) ∧ ∀ k, found = some k ↔
        k ≤ i ∧ Magic buffer k ∧ ∀ j, k < j → j ≤ i → ¬ Magic buffer j := by
  induction i with
  | zero =>
    rw [scanBackward, atEocd_eq h]
    simp only [Option.bind_eq_bind, Option.bind_some, decide_eq_true_eq]
    by_cases hmagic : Magic buffer 0
    · refine ⟨some 0, if_pos hmagic, fun hnone => (by cases hnone), fun k => ?_⟩
      constructor
      · rintro ⟨⟩
        exact ⟨le_rfl, hmagic, fun j hj hle => absurd hj (Nat.not_lt_of_le hle)⟩
      · rintro ⟨hk, -, -⟩
        rw [Nat.le_zero.mp hk]
    · refine ⟨none, if_neg hmagic, fun _ j hj => (Nat.le_zero.mp hj) ▸ hmagic, fun k => ?_⟩
      constructor
      · intro hsome
        cases hsome
      · rintro ⟨hk, hfound, -⟩
        exact absurd ((Nat.le_zero.mp hk) ▸ hfound) hmagic
  | succ i ih =>
    rw [scanBackward, atEocd_eq h]
    simp only [Option.bind_eq_bind, Option.bind_some, decide_eq_true_eq]
    by_cases hmagic : Magic buffer (i + 1)
    · refine ⟨some (i + 1), if_pos hmagic, fun hnone => (by cases hnone), fun k => ?_⟩
      constructor
      · rintro ⟨⟩
        exact ⟨le_rfl, hmagic, fun j hj hle => absurd hj (Nat.not_lt_of_le hle)⟩
      · rintro ⟨hk, -, hlast⟩
        by_contra hne
        exact hlast (i + 1) (Nat.lt_of_le_of_ne hk fun heq => hne (heq ▸ rfl)) le_rfl hmagic
    · obtain ⟨found, hscan, hnone, hfound⟩ := ih (by omega)
      refine ⟨found, (if_neg hmagic).trans hscan, fun hf j hj => ?_, fun k => (hfound k).trans ?_⟩
      · rcases Nat.le_succ_iff.mp hj with hle | rfl
        · exact hnone hf j hle
        · exact hmagic
      constructor
      · rintro ⟨hk, hkm, hlast⟩
        refine ⟨Nat.le_succ_of_le hk, hkm, fun j hkj hj => ?_⟩
        rcases Nat.le_succ_iff.mp hj with hle | rfl
        · exact hlast j hkj hle
        · exact hmagic
      · rintro ⟨hk, hkm, hlast⟩
        refine ⟨?_, hkm, fun j hkj hj => hlast j hkj (Nat.le_succ_of_le hj)⟩
        rcases Nat.le_succ_iff.mp hk with hle | rfl
        · exact hle
        · exact absurd hkm hmagic

/-- The last end record of a file, whose comment ends the file. -/
structure EndRecord (file : List UInt8) (eocd : ℕ) (numRecords : UInt16)
    (cdSize cdStartOffset : UInt32) : Prop where
  magic : Magic file eocd
  last : ∀ j, eocd < j → j + EocdRecord.size ≤ file.length → ¬ Magic file j
  ends : ∃ commentLength, EocdRecord.commentLength (ofBytes file) eocd = some commentLength ∧
    eocd + EocdRecord.size + commentLength.toNat = file.length
  numRecords : EocdRecord.numRecords (ofBytes file) eocd = some numRecords
  cdSize : EocdRecord.cdSize (ofBytes file) eocd = some cdSize
  cdStartOffset : EocdRecord.cdStartOffset (ofBytes file) eocd = some cdStartOffset

theorem magic_drop (file : List UInt8) (start place : ℕ) :
    Magic (file.drop start) place ↔ Magic file (start + place) := by
  rw [Magic, Magic, EocdRecord.signature, EocdRecord.signature, uint32_drop]

theorem scan_file {file : List UInt8} {start : ℕ} (h : start + EocdRecord.size ≤ file.length) :
    ∃ found, scanBackward (ofBytes (file.drop start))
        (file.length - start - EocdRecord.size) = some found ∧
      (found = none → ∀ j, start ≤ j → j + EocdRecord.size ≤ file.length → ¬ Magic file j) ∧
      ∀ k, found = some k ↔ start + k + EocdRecord.size ≤ file.length ∧ Magic file (start + k) ∧
        ∀ j, start + k < j → j + EocdRecord.size ≤ file.length → ¬ Magic file j := by
  unfold EocdRecord.size at h ⊢
  obtain ⟨found, hscan, hnone, hfound⟩ := scanBackward_eq
    (show file.length - start - 22 + 4 ≤ (file.drop start).length by rw [List.length_drop]; omega)
  refine ⟨found, hscan, fun hf j hj hle hmagic => hnone hf (j - start) (by omega) ?_,
    fun k => (hfound k).trans ?_⟩
  · rwa [magic_drop, Nat.add_sub_of_le hj]
  rw [magic_drop]
  constructor
  · rintro ⟨hk, hmagic, hlast⟩
    refine ⟨by omega, hmagic, fun j hj hle hj' => hlast (j - start) (by omega) (by omega) ?_⟩
    rwa [magic_drop, Nat.add_sub_of_le (by omega)]
  · rintro ⟨hk, hmagic, hlast⟩
    refine ⟨by omega, hmagic, fun j hj hle hj' => ?_⟩
    rw [magic_drop] at hj'
    exact hlast (start + j) (by omega) (by omega) hj'

def ZipArchive.withDirectory (archive : ZipArchive) (host : Host) (numRecords : UInt16)
    (cdSize cdStartOffset : UInt32) : ZipArchive :=
  { archive with
    directoryMap := host.mapped cdStartOffset.toNat cdSize.toNat
    directoryLength := cdSize.toNat
    numEntries := numRecords
    directoryOffset := cdStartOffset.toNat }

/-- The search finds the last end record, whatever it makes of it. -/
theorem mapCentralDirectory0_eq {host : Host} (archive : ZipArchive) {start : ℕ}
    (hstart : start + EocdRecord.size ≤ host.file.length)
    (hseek : host.fails .seekTail = false) (hread : host.fails .readTail = false) :
    (∃ eocd commentLength numRecords cdSize cdStartOffset, start ≤ eocd ∧
      eocd + EocdRecord.size ≤ host.file.length ∧ Magic host.file eocd ∧
      (∀ j, eocd < j → j + EocdRecord.size ≤ host.file.length → ¬ Magic host.file j) ∧
      EocdRecord.commentLength (ofBytes host.file) eocd = some commentLength ∧
      EocdRecord.numRecords (ofBytes host.file) eocd = some numRecords ∧
      EocdRecord.cdSize (ofBytes host.file) eocd = some cdSize ∧
      EocdRecord.cdStartOffset (ofBytes host.file) eocd = some cdStartOffset ∧
      mapCentralDirectory0 host archive host.file.length (host.file.length - start) = some (
        if eocd + EocdRecord.size + commentLength.toNat ≠ host.file.length then
          (kInvalidFile, archive)
        else if (cdStartOffset + cdSize).toNat > eocd then (kInvalidOffset, archive)
        else if numRecords = 0 then (kEmptyArchive, archive)
        else if host.fails .createMap then (kMmapFailed, archive)
        else (0, archive.withDirectory host numRecords cdSize cdStartOffset))) ∨
    ((∀ j, start ≤ j → j + EocdRecord.size ≤ host.file.length → ¬ Magic host.file j) ∧
      mapCentralDirectory0 host archive host.file.length (host.file.length - start) =
        some (kInvalidFile, archive)) := by
  have hsize : EocdRecord.size = 22 := rfl
  have hbuffer : (host.file.drop start).take (host.file.length - start) = host.file.drop start :=
    List.take_of_length_le (List.length_drop ▸ le_rfl)
  have hsub : host.file.length - (host.file.length - start) = start := by omega
  obtain ⟨found, hscan, hnone, hfound⟩ := scan_file hstart
  rw [mapCentralDirectory0, hseek, hread]
  simp only [Bool.false_eq_true, if_false, hsub, hbuffer, hscan, Option.bind_eq_bind,
    Option.bind_some]
  cases found with
  | none =>
    exact Or.inr ⟨hnone rfl, rfl⟩
  | some i =>
    obtain ⟨hi, hmagic, hlast⟩ := (hfound i).mp rfl
    obtain ⟨commentLength, hcomment⟩ := uint16_ofBytes
      (show start + i + 20 + 2 ≤ host.file.length by omega)
    obtain ⟨numRecords, hnum⟩ := uint16_ofBytes
      (show start + i + 10 + 2 ≤ host.file.length by omega)
    obtain ⟨cdSize, hcdSize⟩ := uint32_ofBytes
      (show start + i + 12 + 4 ≤ host.file.length by omega)
    obtain ⟨cdStartOffset, hcdStart⟩ := uint32_ofBytes
      (show start + i + 16 + 4 ≤ host.file.length by omega)
    refine Or.inl ⟨start + i, commentLength, numRecords, cdSize, cdStartOffset,
      Nat.le_add_right _ _, hi, hmagic, hlast, hcomment, hnum, hcdSize, hcdStart, ?_⟩
    simp only [EocdRecord.commentLength, EocdRecord.numRecords, EocdRecord.cdSize,
      EocdRecord.cdStartOffset, uint16_drop, uint32_drop, ← Nat.add_assoc, hcomment, hnum, hcdSize,
      hcdStart, Option.bind_some]
    split_ifs <;> rfl

theorem mapCentralDirectory_iff {host : Host} {archive archive' : ZipArchive} :
    mapCentralDirectory host archive = some (0, archive') ↔
      host.file.length ≤ 0xffffffff ∧
      (∀ call ∈ [Call.seekEnd, .seekTail, .readTail, .createMap], host.fails call = false) ∧
      ∃ eocd numRecords cdSize cdStartOffset,
        EndRecord host.file eocd numRecords cdSize cdStartOffset ∧
        (cdStartOffset + cdSize).toNat ≤ eocd ∧ numRecords ≠ 0 ∧
        archive' = archive.withDirectory host numRecords cdSize cdStartOffset := by
  have herror (result : ℤ) (hresult : result ≠ 0) : some (result, archive) ≠ some (0, archive') :=
    fun h => hresult (Prod.mk.inj (Option.some.inj h)).1
  have hsize : EocdRecord.size = 22 := rfl
  have hsearch : kMaxEOCDSearch = 65557 := rfl
  have hamount : min kMaxEOCDSearch host.file.length =
      host.file.length - (host.file.length - kMaxEOCDSearch) := by omega
  rw [mapCentralDirectory]
  constructor
  · intro h
    by_cases hseek : host.fails .seekEnd = true
    · exact absurd ((if_pos hseek).symm.trans h) (herror _ (by decide))
    replace h := (if_neg hseek).symm.trans h
    by_cases hlong : host.file.length > 0xffffffff
    · exact absurd ((if_pos hlong).symm.trans h) (herror _ (by decide))
    replace h := (if_neg hlong).symm.trans h
    by_cases hshort : host.file.length < EocdRecord.size
    · exact absurd ((if_pos hshort).symm.trans h) (herror _ (by decide))
    replace h := (if_neg hshort).symm.trans h
    by_cases htail : host.fails .seekTail = true
    · rw [mapCentralDirectory0] at h
      exact absurd ((if_pos htail).symm.trans h) (herror _ (by decide))
    by_cases hread : host.fails .readTail = true
    · rw [mapCentralDirectory0] at h
      exact absurd ((if_pos hread).symm.trans ((if_neg htail).symm.trans h)) (herror _ (by decide))
    rw [hamount] at h
    rcases mapCentralDirectory0_eq archive
      (show host.file.length - kMaxEOCDSearch + EocdRecord.size ≤ host.file.length by omega)
      (Bool.eq_false_iff.mpr htail) (Bool.eq_false_iff.mpr hread) with
      ⟨eocd, commentLength, numRecords, cdSize, cdStartOffset, hstart, hfits, hmagic, hlast,
        hcomment, hnum, hcdSize, hcdStart, heq⟩ | ⟨-, heq⟩
    · rw [heq] at h
      by_cases hend : eocd + EocdRecord.size + commentLength.toNat ≠ host.file.length
      · rw [if_pos hend] at h
        exact absurd h (herror _ (by decide))
      rw [if_neg hend] at h
      by_cases hbounds : (cdStartOffset + cdSize).toNat > eocd
      · rw [if_pos hbounds] at h
        exact absurd h (herror _ (by decide))
      rw [if_neg hbounds] at h
      by_cases hnone : numRecords = 0
      · rw [if_pos hnone] at h
        exact absurd h (herror _ (by decide))
      rw [if_neg hnone] at h
      by_cases hmap : host.fails .createMap = true
      · rw [if_pos hmap] at h
        exact absurd h (herror _ (by decide))
      rw [if_neg hmap, Option.some.injEq, Prod.mk.injEq] at h
      refine ⟨Nat.le_of_not_gt hlong, ?_, eocd, numRecords, cdSize, cdStartOffset,
        ⟨hmagic, hlast, ⟨commentLength, hcomment, not_not.mp hend⟩, hnum, hcdSize, hcdStart⟩,
        Nat.le_of_not_gt hbounds, hnone, h.2.symm⟩
      simp only [List.forall_mem_cons, Bool.eq_false_iff]
      exact ⟨hseek, htail, hread, hmap, fun _ hmem => absurd hmem List.not_mem_nil⟩
    · exact absurd (heq.symm.trans h) (herror _ (by decide))
  · rintro ⟨hsmall, hcalls, eocd, numRecords, cdSize, cdStartOffset, hend, hbounds, hsome, rfl⟩
    simp only [List.forall_mem_cons] at hcalls
    obtain ⟨hseek, htail, hread, hmap, -⟩ := hcalls
    obtain ⟨commentLength, hcomment, hlength⟩ := hend.ends
    have hcommentLength := commentLength.toNat_lt
    have hlong : ¬ host.file.length < EocdRecord.size := by omega
    refine (if_neg (Bool.eq_false_iff.mp hseek)).trans ((if_neg (Nat.not_lt_of_le hsmall)).trans
      ((if_neg hlong).trans ?_))
    rw [hamount]
    rcases mapCentralDirectory0_eq archive
      (show host.file.length - kMaxEOCDSearch + EocdRecord.size ≤ host.file.length by omega)
      htail hread with
      ⟨eocd', commentLength', numRecords', cdSize', cdStartOffset', hstart, hfits, hmagic, hlast,
        hcomment', hnum, hcdSize, hcdStart, heq⟩ | ⟨hnone, -⟩
    · have hsame : eocd' = eocd := by
        rcases Nat.lt_trichotomy eocd' eocd with hlt | rfl | hgt
        · exact absurd hend.magic (hlast eocd hlt (by omega))
        · rfl
        · exact absurd hmagic (hend.last eocd' hgt hfits)
      subst hsame
      obtain rfl := Option.some.inj (hcomment.symm.trans hcomment')
      obtain rfl := Option.some.inj (hend.numRecords.symm.trans hnum)
      obtain rfl := Option.some.inj (hend.cdSize.symm.trans hcdSize)
      obtain rfl := Option.some.inj (hend.cdStartOffset.symm.trans hcdStart)
      rw [heq, if_neg (not_not.mpr hlength), if_neg (Nat.not_lt_of_le hbounds), if_neg hsome, hmap,
        if_neg Bool.false_ne_true]
    · exact absurd hend.magic (hnone eocd (by omega) (by omega))

/-! ### Archives -/

/-- A file that can be opened, with the records of its central directory. -/
structure IsArchive (host : Host) (eocd : ℕ) (cdSize cdStartOffset : UInt32)
    (rs : List Record) : Prop where
  small : host.file.length ≤ 0xffffffff
  calls : ∀ call ∈ [Call.seekEnd, .seekTail, .readTail, .createMap], host.fails call = false
  fits : rs.length < 2 ^ 16
  some : rs ≠ []
  endRecord : EndRecord host.file eocd (UInt16.ofNat rs.length) cdSize cdStartOffset
  bounds : (cdStartOffset + cdSize).toNat ≤ eocd
  directory : Directory (host.mapped cdStartOffset.toNat cdSize.toNat) cdSize.toNat
    cdStartOffset.toNat 0 rs
  distinct : (rs.map Record.name).Nodup

/-- An archive after it has been opened. -/
structure Opened (host : Host) (cdSize cdStartOffset : UInt32) (rs : List Record)
    (archive : ZipArchive) : Prop where
  map : archive.directoryMap = host.mapped cdStartOffset.toNat cdSize.toNat
  length : archive.directoryLength = cdSize.toNat
  offset : archive.directoryOffset = cdStartOffset.toNat
  table : ∃ hashTable, archive.hashTable = Option.some hashTable ∧
    NameTable hashTable archive.hashTableSize (slots 0 rs) ∧ rs.length < hashTable.length

theorem openArchiveFd_iff {host : Host} {archive' : ZipArchive} :
    openArchiveFd host = some (0, archive') ↔ ∃ archive, mapCentralDirectory host {} =
      some (0, archive) ∧ parseZipArchive archive = some (0, archive') := by
  rw [openArchiveFd, openArchiveInternal, Option.bind_eq_bind, Option.bind_eq_some_iff]
  constructor
  · rintro ⟨⟨result, archive⟩, hmap, h⟩
    by_cases hresult : result ≠ 0
    · have hstatus := (if_pos hresult).symm.trans h
      exact absurd (Prod.mk.inj (Option.some.inj hstatus)).1 hresult
    · replace h := (if_neg hresult).symm.trans h
      rw [not_not] at hresult
      subst hresult
      obtain ⟨⟨parsed, archive₁⟩, hparse, h⟩ := Option.bind_eq_some_iff.mp h
      refine ⟨archive, hmap, ?_⟩
      by_cases hparsed : parsed ≠ 0
      · have hstatus := (if_pos hparsed).symm.trans h
        exact absurd (Prod.mk.inj (Option.some.inj hstatus)).1 hparsed
      · replace h := (if_neg hparsed).symm.trans h
        rw [not_not] at hparsed
        rw [hparse, hparsed, ← h]
  · rintro ⟨archive, hmap, hparse⟩
    refine ⟨_, hmap, (if_neg (not_not.mpr rfl)).trans ?_⟩
    rw [hparse]
    rfl

theorem parseZipArchive_iff {archive archive' : ZipArchive} :
    parseZipArchive archive = some (0, archive') ↔ ∃ hashTable,
      addEntries { archive with hashTableSize := hashTableSize archive.numEntries }
        archive.numEntries.toNat 0
        (List.replicate (hashTableSize archive.numEntries).toNat none) = some (0, hashTable) ∧
      archive' = { archive with
        hashTableSize := hashTableSize archive.numEntries
        hashTable := some hashTable } := by
  rw [parseZipArchive, Option.bind_eq_bind, Option.bind_eq_some_iff]
  constructor
  · rintro ⟨⟨result, hashTable⟩, hadd, h⟩
    obtain ⟨rfl, rfl⟩ := Prod.mk.inj (Option.some.inj h)
    exact ⟨hashTable, hadd, rfl⟩
  · rintro ⟨hashTable, hadd, rfl⟩
    exact ⟨_, hadd, rfl⟩

theorem parseZipArchive_sound {archive archive' : ZipArchive}
    (h : parseZipArchive archive = some (0, archive')) :
    ∃ rs, rs.length = archive.numEntries.toNat ∧
      Directory archive.directoryMap archive.directoryLength archive.directoryOffset 0 rs ∧
      (rs.map Record.name).Nodup ∧
      archive'.directoryMap = archive.directoryMap ∧
      archive'.directoryLength = archive.directoryLength ∧
      archive'.directoryOffset = archive.directoryOffset ∧
      ∃ hashTable, archive'.hashTable = some hashTable ∧
        NameTable hashTable archive'.hashTableSize (slots 0 rs) ∧
        rs.length < hashTable.length := by
  obtain ⟨hashTable, hadd, rfl⟩ := parseZipArchive_iff.mp h
  obtain ⟨b, hsize, hroom⟩ := hashTableSize_eq archive.numEntries
  obtain ⟨rs, hcount, hdirectory, hnodup, -, htable⟩ := addEntries_sound
    (nameTable_empty archive.numEntries)
    (by rw [List.length_replicate, hsize, List.length_nil, Nat.zero_add]; exact hroom) hadd
  refine ⟨rs, hcount, hdirectory, hnodup, rfl, rfl, rfl, hashTable, rfl, htable, ?_⟩
  rw [htable.full, hcount]
  exact hroom.trans_eq hsize.symm

theorem parseZipArchive_complete {archive : ZipArchive} {rs : List Record}
    (hcount : rs.length = archive.numEntries.toNat)
    (hdirectory : Directory archive.directoryMap archive.directoryLength
      archive.directoryOffset 0 rs) (hnodup : (rs.map Record.name).Nodup) :
    ∃ archive', parseZipArchive archive = some (0, archive') := by
  obtain ⟨b, hsize, hroom⟩ := hashTableSize_eq archive.numEntries
  let sized := { archive with hashTableSize := hashTableSize archive.numEntries }
  have htable : NameTable (List.replicate (hashTableSize archive.numEntries).toNat none)
      sized.hashTableSize [] := nameTable_empty archive.numEntries
  obtain ⟨hashTable, hadd⟩ := addEntries_complete htable
    (by rw [List.length_replicate, hsize, List.length_nil, Nat.zero_add, hcount]; exact hroom)
    hdirectory hnodup (fun _ _ hmem => absurd hmem List.not_mem_nil)
  rw [hcount] at hadd
  exact ⟨_, parseZipArchive_iff.mpr ⟨hashTable, hadd, rfl⟩⟩

theorem openArchiveFd_sound {host : Host} {archive : ZipArchive}
    (h : openArchiveFd host = some (0, archive)) : ∃ eocd cdSize cdStartOffset rs,
      IsArchive host eocd cdSize cdStartOffset rs ∧
      Opened host cdSize cdStartOffset rs archive := by
  obtain ⟨mapped, hmap, hparse⟩ := openArchiveFd_iff.mp h
  obtain ⟨hsmall, hcalls, eocd, numRecords, cdSize, cdStartOffset, hend, hbounds, hsome, rfl⟩ :=
    mapCentralDirectory_iff.mp hmap
  obtain ⟨rs, hcount, hdirectory, hnodup, hdirectoryMap, hlength, hoffset, htable⟩ :=
    parseZipArchive_sound hparse
  have hnum : UInt16.ofNat rs.length = numRecords := by
    rw [hcount]
    exact UInt16.ofNat_toNat
  have hfits : rs.length < 2 ^ 16 := hcount ▸ numRecords.toNat_lt
  refine ⟨eocd, cdSize, cdStartOffset, rs, ⟨hsmall, hcalls, hfits, ?_, by rwa [hnum], hbounds,
    hdirectory, hnodup⟩, ⟨hdirectoryMap, hlength, hoffset, htable⟩⟩
  rintro rfl
  exact hsome (UInt16.toNat_inj.mp hcount.symm)

theorem openArchiveFd_complete {host : Host} {eocd : ℕ} {cdSize cdStartOffset : UInt32}
    {rs : List Record} (h : IsArchive host eocd cdSize cdStartOffset rs) :
    ∃ archive, openArchiveFd host = some (0, archive) ∧
      Opened host cdSize cdStartOffset rs archive := by
  have hcount : rs.length = (UInt16.ofNat rs.length).toNat :=
    (UInt16.toNat_ofNat_of_lt' h.fits).symm
  have hsome : UInt16.ofNat rs.length ≠ 0 := by
    intro hzero
    rw [hzero] at hcount
    exact h.some (List.length_eq_zero_iff.mp hcount)
  let mapped := ZipArchive.withDirectory {} host (UInt16.ofNat rs.length) cdSize cdStartOffset
  have hmap : mapCentralDirectory host {} = some (0, mapped) :=
    mapCentralDirectory_iff.mpr ⟨h.small, h.calls, eocd, _, cdSize, cdStartOffset, h.endRecord,
      h.bounds, hsome, rfl⟩
  obtain ⟨archive, hparse⟩ := parseZipArchive_complete
    (show rs.length = mapped.numEntries.toNat from hcount) h.directory h.distinct
  obtain ⟨rs', hcount', hdirectory, -, hdirectoryMap, hlength, hoffset, htable⟩ :=
    parseZipArchive_sound hparse
  obtain rfl := hdirectory.unique h.directory (hcount'.trans hcount.symm)
  exact ⟨archive, openArchiveFd_iff.mpr ⟨_, hmap, hparse⟩, hdirectoryMap, hlength, hoffset, htable⟩

/-- A file is opened if and only if it is an archive, and then with the names of its records. -/
theorem openArchiveFd_zero_iff (host : Host) :
    (∀ archive, openArchiveFd host = some (0, archive) → ∃ eocd cdSize cdStartOffset rs,
      IsArchive host eocd cdSize cdStartOffset rs ∧
      Opened host cdSize cdStartOffset rs archive) ∧
    ∀ eocd cdSize cdStartOffset rs, IsArchive host eocd cdSize cdStartOffset rs →
      ∃ archive, openArchiveFd host = some (0, archive) ∧
        Opened host cdSize cdStartOffset rs archive :=
  ⟨fun _ h => openArchiveFd_sound h, fun _ _ _ _ h => openArchiveFd_complete h⟩

/-! ### Every file -/

/-- What lies behind the mapping can be read for as long as a name may be. -/
def Readable (cd : Memory) (length : ℕ) : Prop := ∀ i, i < length + 65535 → cd i ≠ none

/-- The offset and the size of the directory have a sum of 32 bits. Only then does its bound, which
    is checked against the place of the end record, keep the directory inside the file. -/
def DirectoryInside (file : List UInt8) : Prop :=
  ∀ eocd numRecords cdSize cdStartOffset, EndRecord file eocd numRecords cdSize cdStartOffset →
    cdStartOffset.toNat + cdSize.toNat < 2 ^ 32

theorem EndRecord.inside {file : List UInt8} {eocd : ℕ} {numRecords : UInt16}
    {cdSize cdStartOffset : UInt32} (h : EndRecord file eocd numRecords cdSize cdStartOffset)
    (hinside : DirectoryInside file) (hbounds : (cdStartOffset + cdSize).toNat ≤ eocd) :
    cdStartOffset.toNat + cdSize.toNat ≤ file.length := by
  obtain ⟨commentLength, -, hlength⟩ := h.ends
  have hsum := hinside eocd numRecords cdSize cdStartOffset h
  rw [UInt32.toNat_add, Nat.mod_eq_of_lt hsum] at hbounds
  omega

theorem mapCentralDirectory_ends (host : Host) (archive : ZipArchive) :
    ∃ r, mapCentralDirectory host archive = some r := by
  have hsize : EocdRecord.size = 22 := rfl
  have hsearch : kMaxEOCDSearch = 65557 := rfl
  have hamount : min kMaxEOCDSearch host.file.length =
      host.file.length - (host.file.length - kMaxEOCDSearch) := by omega
  rw [mapCentralDirectory]
  by_cases hseek : host.fails .seekEnd = true
  · exact ⟨_, if_pos hseek⟩
  rw [if_neg hseek]
  by_cases hlong : host.file.length > 0xffffffff
  · exact ⟨_, if_pos hlong⟩
  rw [if_neg hlong]
  by_cases hshort : host.file.length < EocdRecord.size
  · exact ⟨_, if_pos hshort⟩
  rw [if_neg hshort]
  by_cases htail : host.fails .seekTail = true
  · exact ⟨_, by rw [mapCentralDirectory0]; exact if_pos htail⟩
  by_cases hread : host.fails .readTail = true
  · exact ⟨_, by
      rw [mapCentralDirectory0]
      exact (if_neg htail).trans (if_pos hread)⟩
  rw [hamount]
  rcases mapCentralDirectory0_eq archive
    (show host.file.length - kMaxEOCDSearch + EocdRecord.size ≤ host.file.length by omega)
    (Bool.eq_false_iff.mpr htail) (Bool.eq_false_iff.mpr hread) with
    ⟨_, _, _, _, _, -, -, -, -, -, -, -, -, heq⟩ | ⟨-, heq⟩
  · exact ⟨_, heq⟩
  · exact ⟨_, heq⟩

theorem exists_bind {α β : Type} {x : Option α} {f : α → Option β} {a : α} (hx : x = some a)
    (hf : ∃ b, f a = some b) : ∃ b, x.bind f = some b := by
  rw [hx]
  exact hf

theorem exists_ite {α : Type} {p : Prop} [Decidable p] {x y : Option α} (hx : ∃ a, x = some a)
    (hy : ∃ a, y = some a) : ∃ a, (if p then x else y) = some a := by
  by_cases hp : p
  · rwa [if_pos hp]
  · rwa [if_neg hp]

theorem addEntries_ends {archive : ZipArchive} {entries ptr : ℕ} {table : HashTable}
    {names : List ZipEntryName} (htable : NameTable table archive.hashTableSize names)
    (hroom : names.length + entries < table.length) (hptr : ptr ≤ archive.directoryLength)
    (hreadable : Readable archive.directoryMap archive.directoryLength) :
    ∃ r, addEntries archive entries ptr table = some r := by
  induction entries generalizing ptr table names with
  | zero => exact ⟨_, rfl⟩
  | succ entries ih =>
    have hsize : CentralDirectoryRecord.size = 46 := rfl
    have hfour (offset : ℕ) (hoffset : offset ≤ 42) :
        ∃ x, uint32 archive.directoryMap (ptr + offset) = some x :=
      exists_uint32 fun i _ hlt => hreadable i (by omega)
    have htwo (offset : ℕ) (hoffset : offset ≤ 42) :
        ∃ x, uint16 archive.directoryMap (ptr + offset) = some x :=
      exists_uint16 fun i _ hlt => hreadable i (by omega)
    obtain ⟨signature, hsignature⟩ := hfour 0 (by decide)
    obtain ⟨localHeaderOffset, hlocal⟩ := hfour 42 (by decide)
    obtain ⟨nameLength, hnameLength⟩ := htwo 28 (by decide)
    obtain ⟨extraLength, hextra⟩ := htwo 30 (by decide)
    obtain ⟨commentLength, hcomment⟩ := htwo 32 (by decide)
    rw [addEntries]
    refine exists_bind hsignature ?_
    refine exists_ite ⟨_, rfl⟩ ?_
    by_cases hend : ptr + CentralDirectoryRecord.size > archive.directoryLength
    · exact ⟨_, if_pos hend⟩
    rw [if_neg hend]
    refine exists_bind hlocal (exists_ite ⟨_, rfl⟩ ?_)
    refine exists_bind hnameLength (exists_bind hextra (exists_bind hcomment ?_))
    have hlength := nameLength.toNat_lt
    obtain ⟨name, hname⟩ := exists_load (show ∀ i, ptr + CentralDirectoryRecord.size ≤ i →
        i < ptr + CentralDirectoryRecord.size + nameLength.toNat → archive.directoryMap i ≠ none from
      fun i _ hlt => hreadable i (by omega))
    obtain ⟨valid, hvalid, -⟩ := isValidEntryName_eq (stands_of_load hname)
    rw [load_length hname] at hvalid
    refine exists_bind hvalid (exists_ite ⟨_, rfl⟩ (exists_bind hname ?_))
    by_cases hnew : name ∈ names.map ZipEntryName.text
    · exact exists_bind (htable.addToHash_duplicate hnew) ⟨_, if_pos (by decide)⟩
    · obtain ⟨table₁, hadd, htable'⟩ := htable.addToHash_new (by omega)
        (show (ZipEntryName.mk (ptr + CentralDirectoryRecord.size) name).text ∉ _ from hnew)
      refine exists_bind hadd ?_
      have hfull : table₁.length = table.length := by rw [htable'.full, htable.full]
      by_cases hadvance : ptr + CentralDirectoryRecord.size + nameLength.toNat +
          extraLength.toNat + commentLength.toNat > archive.directoryLength
      · exact ⟨_, (if_neg (not_not.mpr rfl)).trans (if_pos hadvance)⟩
      · obtain ⟨r, hr⟩ := ih htable' (by rw [List.length_cons, hfull]; omega)
          (Nat.le_of_not_gt hadvance)
        exact ⟨r, (if_neg (not_not.mpr rfl)).trans ((if_neg hadvance).trans hr)⟩

/-- An archive with one stored entry: the name `a` and the content `7`. -/
def sampleFile : List UInt8 :=
  [0x50, 0x4b, 0x03, 0x04, 0x14, 0, 0, 0, 0, 0, 0, 0, 0, 0, 0, 0, 0, 0, 1, 0, 0, 0, 1, 0, 0, 0,
    1, 0, 0, 0, 0x61, 7,
    0x50, 0x4b, 0x01, 0x02, 0x14, 0, 0x14, 0, 0, 0, 0, 0, 0, 0, 0, 0, 0, 0, 0, 0, 1, 0, 0, 0,
    1, 0, 0, 0, 1, 0, 0, 0, 0, 0, 0, 0, 0, 0, 0, 0, 0, 0, 0, 0, 0, 0, 0x61,
    0x50, 0x4b, 0x05, 0x06, 0, 0, 0, 0, 1, 0, 1, 0, 0x2f, 0, 0, 0, 0x20, 0, 0, 0, 0, 0]

theorem sampleFile_inside : DirectoryInside sampleFile := by
  intro eocd numRecords cdSize cdStartOffset h
  have hbound : ∀ place < sampleFile.length, Magic sampleFile place →
      EocdRecord.cdSize (ofBytes sampleFile) place = some 0x2f ∧
      EocdRecord.cdStartOffset (ofBytes sampleFile) place = some 0x20 := by
    decide +kernel
  obtain ⟨commentLength, -, hlength⟩ := h.ends
  have hplace : eocd < sampleFile.length := by
    have hsize : EocdRecord.size = 22 := rfl
    omega
  obtain ⟨hsize, hoffset⟩ := hbound eocd hplace h.magic
  obtain rfl := Option.some.inj (h.cdSize.symm.trans hsize)
  obtain rfl := Option.some.inj (h.cdStartOffset.symm.trans hoffset)
  decide

theorem sampleFile_opens : ∃ archive, openArchiveFd (Host.ofFile sampleFile) = some (0, archive) := by
  have hstatus : (openArchiveFd (Host.ofFile sampleFile)).map Prod.fst = some 0 := by
    decide +kernel
  obtain ⟨⟨_, archive⟩, hopen, rfl⟩ := Option.map_eq_some_iff.mp hstatus
  exact ⟨archive, hopen⟩

end Shashlik.ZipArchives
