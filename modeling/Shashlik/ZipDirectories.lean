import Shashlik.Library.AlignedSizes
import Shashlik.ZipArchives

set_option autoImplicit false

/-!
# Central directories

An archive is opened if and only if its file ends in an end record whose central directory is made
of as many records as it says, with valid names and no name twice. The hash table then holds
these names and no others.
-/
namespace Shashlik.ZipArchives
open ByteFields ZipNames ProbeTables AlignedSizes

/-! ### The size of the table -/

theorem smears_shift {d : ℕ} {x y : UInt32} (h : Smears d x.toNat y.toNat) (s : UInt32)
    (hs : s.toNat % 32 = d) : Smears (d + d) x.toNat (y ||| y >>> s).toNat := by
  rw [UInt32.toNat_or, UInt32.toNat_shiftRight, hs]
  exact h.shift

theorem roundUpPower2_eq {val : UInt32} (hpos : 0 < val.toNat) (hval : val.toNat ≤ 2 ^ 31) :
    ∃ b, (roundUpPower2 val).toNat = 2 ^ b ∧ val.toNat ≤ 2 ^ b := by
  have hpred : (val - 1).toNat = val.toNat - 1 :=
    UInt32.toNat_sub_of_le _ _ (UInt32.le_iff_toNat_le.mpr hpos)
  have h1 := smears_shift (smears_self (val - 1).toNat) 1 (by decide)
  have h2 := smears_shift h1 2 (by decide)
  have h4 := smears_shift h2 4 (by decide)
  have h8 := smears_shift h4 8 (by decide)
  have h16 := smears_shift h8 16 (by decide)
  obtain ⟨b, hb, hsum, hlt⟩ := h16.add_one (val - 1).toNat_lt
  have hb31 : b ≤ 31 := by
    by_contra hn
    have hbits := (h16 31).mp (by
      rw [show (31 : ℕ) = 32 - 1 by decide]
      have hall : b = 32 := by omega
      rw [hall] at hsum
      rw [show (_ : ℕ) = 2 ^ 32 - 1 from Nat.eq_sub_of_add_eq hsum, Nat.testBit_two_pow_sub_one]
      decide)
    obtain ⟨e, -, hbit⟩ := hbits
    have hge := Nat.ge_two_pow_of_testBit hbit
    have hpow : 2 ^ 31 ≤ 2 ^ (31 + e) := Nat.pow_le_pow_right (by decide) (by omega)
    omega
  have hpow : 2 ^ b ≤ 2 ^ 31 := Nat.pow_le_pow_right (by decide) hb31
  refine ⟨b, ?_, by omega⟩
  rw [roundUpPower2, UInt32.toNat_add]
  rw [show (1 : UInt32).toNat = 1 from rfl, hsum]
  exact Nat.mod_eq_of_lt (by omega)

theorem hashTableSize_eq (numEntries : UInt16) : ∃ b,
    (hashTableSize numEntries).toNat = 2 ^ b ∧ numEntries.toNat < 2 ^ b := by
  have hlt := numEntries.toNat_lt
  have hval : (UInt32.ofNat (1 + numEntries.toNat * 4 / 3)).toNat = 1 + numEntries.toNat * 4 / 3 :=
    UInt32.toNat_ofNat_of_lt' (by
      rw [UInt32.size]
      omega)
  obtain ⟨b, hsize, hle⟩ := roundUpPower2_eq (by rw [hval]; omega) (by rw [hval]; omega)
  exact ⟨b, hsize, by rw [hval] at hle; omega⟩

/-! ### The hash table -/

def home (name : List UInt8) : ℕ := (computeHash name).toNat

/-- A table of a size that is a power of two, with these names in it and room for more. -/
structure NameTable (table : HashTable) (size : UInt32) (names : List ZipEntryName) : Prop where
  holds : Holds ZipEntryName.text home table names
  powerOfTwo : ∃ b, size.toNat = 2 ^ b
  full : table.length = size.toNat

section
variable {table : HashTable} {size : UInt32} {names : List ZipEntryName}

theorem NameTable.probe_eq (h : NameTable table size names) (name : List UInt8) :
    probe table size name = find ZipEntryName.text home table name := by
  obtain ⟨b, hb⟩ := h.powerOfTwo
  have hnext : (fun ent => (ent + 1) &&& (size.toNat - 1)) = around table.length := by
    funext ent
    rw [around, h.full, hb, Nat.and_two_pow_sub_one_eq_mod]
  rw [probe, find, hnext, h.full, hb, Nat.and_two_pow_sub_one_eq_mod]
  rfl

theorem NameTable.addToHash_duplicate (h : NameTable table size names) {slot : ZipEntryName}
    (hslot : slot.text ∈ names.map ZipEntryName.text) :
    addToHash table size slot = some (kDuplicateEntry, table) := by
  obtain ⟨other, hother, htext⟩ := List.mem_map.mp hslot
  obtain ⟨p, hfind, hp⟩ := h.holds.find_item hother
  rw [htext] at hfind
  rw [addToHash, h.probe_eq, hfind]
  simp only [Option.bind_eq_bind, Option.bind_some, hp]

theorem NameTable.addToHash_new (h : NameTable table size names)
    (hroom : names.length < table.length) {slot : ZipEntryName}
    (hslot : slot.text ∉ names.map ZipEntryName.text) :
    ∃ table', addToHash table size slot = some (0, table') ∧
      NameTable table' size (slot :: names) := by
  obtain ⟨p, hfind, hp⟩ := h.holds.find_free hroom hslot
  refine ⟨table.set p (some slot), ?_, h.holds.set hfind hp, h.powerOfTwo, ?_⟩
  · rw [addToHash, h.probe_eq, hfind]
    simp only [Option.bind_eq_bind, Option.bind_some, hp]
  · rw [List.length_set, h.full]

theorem NameTable.entryToIndex_eq (h : NameTable table size names)
    (hroom : names.length < table.length) (name : List UInt8) :
    (∃ (slot : ZipEntryName) (ent : ℕ), slot ∈ names ∧ slot.text = name ∧
        table[ent]? = some (some slot) ∧ entryToIndex table size name = some (ent : ℤ)) ∨
      (name ∉ names.map ZipEntryName.text ∧
        entryToIndex table size name = some kEntryNotFound) := by
  by_cases hname : name ∈ names.map ZipEntryName.text
  · obtain ⟨slot, hslot, rfl⟩ := List.mem_map.mp hname
    obtain ⟨ent, hfind, hent⟩ := h.holds.find_item hslot
    refine Or.inl ⟨slot, ent, hslot, rfl, hent, ?_⟩
    rw [entryToIndex, h.probe_eq, hfind]
    simp only [Option.bind_eq_bind, Option.bind_some, hent]
  · obtain ⟨ent, hfind, hent⟩ := h.holds.find_free hroom hname
    refine Or.inr ⟨hname, ?_⟩
    rw [entryToIndex, h.probe_eq, hfind]
    simp only [Option.bind_eq_bind, Option.bind_some, hent]

end

theorem nameTable_empty (numEntries : UInt16) :
    NameTable (List.replicate (hashTableSize numEntries).toNat none) (hashTableSize numEntries)
      [] where
  holds := holds_replicate _ _ _
  powerOfTwo := (hashTableSize_eq numEntries).imp fun _ h => h.1
  full := List.length_replicate

/-! ### Records -/

structure Record where
  name : List UInt8
  extraLength : UInt16
  commentLength : UInt16
  localHeaderOffset : UInt32

def Record.length (r : Record) : ℕ :=
  CentralDirectoryRecord.size + r.name.length + r.extraLength.toNat + r.commentLength.toNat

/-- The record lies at a place of the directory. -/
structure Reads (cd : Memory) (ptr : ℕ) (r : Record) : Prop where
  signature : CentralDirectoryRecord.recordSignature cd ptr =
    some CentralDirectoryRecord.kSignature
  localHeaderOffset : CentralDirectoryRecord.localFileHeaderOffset cd ptr =
    some r.localHeaderOffset
  nameLength : CentralDirectoryRecord.fileNameLength cd ptr = some (UInt16.ofNat r.name.length)
  fits : r.name.length < 2 ^ 16
  extraLength : CentralDirectoryRecord.extraFieldLength cd ptr = some r.extraLength
  commentLength : CentralDirectoryRecord.commentLength cd ptr = some r.commentLength
  name : Stands cd (ptr + CentralDirectoryRecord.size) r.name

/-- Valid records that lie one after the other, up to some length. -/
def Directory (cd : Memory) (length directoryOffset : ℕ) : ℕ → List Record → Prop
  | _, [] => True
  | ptr, r :: rs =>
    Reads cd ptr r ∧ Sequences r.name ∧ r.localHeaderOffset.toNat < directoryOffset ∧
      ptr + r.length ≤ length ∧ Directory cd length directoryOffset (ptr + r.length) rs

theorem Reads.unique {cd : Memory} {ptr : ℕ} {r r' : Record} (h : Reads cd ptr r)
    (h' : Reads cd ptr r') : r = r' := by
  have hlength : r.name.length = r'.name.length := by
    have hsame := congrArg UInt16.toNat (Option.some.inj (h.nameLength.symm.trans h'.nameLength))
    rwa [UInt16.toNat_ofNat_of_lt' h.fits, UInt16.toNat_ofNat_of_lt' h'.fits] at hsame
  have hname := stands_unique h.name h'.name hlength
  have hextra := Option.some.inj (h.extraLength.symm.trans h'.extraLength)
  have hcomment := Option.some.inj (h.commentLength.symm.trans h'.commentLength)
  have hoffset := Option.some.inj (h.localHeaderOffset.symm.trans h'.localHeaderOffset)
  cases r
  cases r'
  simp_all only

theorem Directory.unique {cd : Memory} {length directoryOffset ptr : ℕ} {rs rs' : List Record}
    (h : Directory cd length directoryOffset ptr rs)
    (h' : Directory cd length directoryOffset ptr rs') (hlength : rs.length = rs'.length) :
    rs = rs' := by
  induction rs generalizing ptr rs' with
  | nil => exact (List.length_eq_zero_iff.mp hlength.symm).symm
  | cons r rs ih =>
    cases rs' with
    | nil => cases hlength
    | cons r' rs' =>
      obtain rfl := h.1.unique h'.1
      rw [ih h.2.2.2.2 h'.2.2.2.2 (Nat.succ.inj hlength)]

def slots : ℕ → List Record → List ZipEntryName
  | _, [] => []
  | ptr, r :: rs => ⟨ptr + CentralDirectoryRecord.size, r.name⟩ :: slots (ptr + r.length) rs

@[simp]
theorem slots_length (ptr : ℕ) (rs : List Record) : (slots ptr rs).length = rs.length := by
  induction rs generalizing ptr with
  | nil => rfl
  | cons r rs ih => rw [slots, List.length_cons, List.length_cons, ih]

@[simp]
theorem slots_text (ptr : ℕ) (rs : List Record) :
    (slots ptr rs).map ZipEntryName.text = rs.map Record.name := by
  induction rs generalizing ptr with
  | nil => rfl
  | cons r rs ih => rw [slots, List.map_cons, List.map_cons, ih]

theorem addEntries_succ {archive : ZipArchive} {entries ptr : ℕ} {table table' : HashTable} :
    addEntries archive (entries + 1) ptr table = some (0, table') ↔
      ∃ r table₁, Reads archive.directoryMap ptr r ∧ Sequences r.name ∧
        r.localHeaderOffset.toNat < archive.directoryOffset ∧
        addToHash table archive.hashTableSize ⟨ptr + CentralDirectoryRecord.size, r.name⟩ =
          some (0, table₁) ∧
        ptr + r.length ≤ archive.directoryLength ∧
        addEntries archive entries (ptr + r.length) table₁ = some (0, table') := by
  have herror (result : ℤ) (hresult : result ≠ 0) (t : HashTable) :
      some (result, t) ≠ some (0, table') :=
    fun h => hresult (Prod.mk.inj (Option.some.inj h)).1
  rw [addEntries]
  constructor
  · intro h
    obtain ⟨signature, hsignature, h⟩ := Option.bind_eq_some_iff.mp h
    by_cases hmagic : signature ≠ CentralDirectoryRecord.kSignature
    · rw [if_pos hmagic] at h
      exact absurd h (herror _ (by decide) _)
    rw [if_neg hmagic] at h
    by_cases hsize : ptr + CentralDirectoryRecord.size > archive.directoryLength
    · rw [if_pos hsize] at h
      exact absurd h (herror _ (by decide) _)
    rw [if_neg hsize] at h
    obtain ⟨localHeaderOffset, hlocal, h⟩ := Option.bind_eq_some_iff.mp h
    by_cases hoffset : localHeaderOffset.toNat ≥ archive.directoryOffset
    · rw [if_pos hoffset] at h
      exact absurd h (herror _ (by decide) _)
    rw [if_neg hoffset] at h
    obtain ⟨nameLength, hnameLength, h⟩ := Option.bind_eq_some_iff.mp h
    obtain ⟨extraLength, hextra, h⟩ := Option.bind_eq_some_iff.mp h
    obtain ⟨commentLength, hcomment, h⟩ := Option.bind_eq_some_iff.mp h
    obtain ⟨valid, hvalid, h⟩ := Option.bind_eq_some_iff.mp h
    by_cases hok : valid = true
    swap
    · rw [if_pos hok] at h
      exact absurd h (herror _ (by decide) _)
    rw [if_neg (not_not.mpr hok)] at h
    rw [hok] at hvalid
    obtain ⟨bytes, hbytes, hsequences⟩ := isValidEntryName_true hvalid
    obtain ⟨text, htext, h⟩ := Option.bind_eq_some_iff.mp h
    obtain rfl := Option.some.inj (hbytes.symm.trans htext)
    obtain ⟨⟨addResult, table₁⟩, hadd, h⟩ := Option.bind_eq_some_iff.mp h
    by_cases hadded : addResult ≠ 0
    · exact absurd ((if_pos hadded).symm.trans h) (herror _ hadded _)
    replace h := (if_neg hadded).symm.trans h
    rw [not_not] at hadded
    subst hadded
    have hlength := load_length hbytes
    by_cases hend : ptr + CentralDirectoryRecord.size + nameLength.toNat + extraLength.toNat +
        commentLength.toNat > archive.directoryLength
    · exact absurd ((if_pos hend).symm.trans h) (herror _ (by decide) _)
    replace h := (if_neg hend).symm.trans h
    refine ⟨⟨bytes, extraLength, commentLength, localHeaderOffset⟩, table₁, ?_, hsequences,
      Nat.lt_of_not_ge hoffset, hadd, ?_, ?_⟩
    · exact ⟨by rw [hsignature, not_not.mp hmagic], hlocal, by
        rw [hnameLength, hlength, UInt16.ofNat_toNat], by
        rw [hlength]
        exact nameLength.toNat_lt, hextra, hcomment, stands_of_load hbytes⟩
    · simp only [Record.length, hlength]
      omega
    · simp only [Record.length, hlength, ← Nat.add_assoc]
      exact h
  · rintro ⟨r, table₁, hreads, hsequences, hoffset, hadd, hend, h⟩
    obtain ⟨valid, hvalid, hiff⟩ := isValidEntryName_eq hreads.name
    rw [hiff.mpr hsequences] at hvalid
    have hlength : (UInt16.ofNat r.name.length).toNat = r.name.length :=
      UInt16.toNat_ofNat_of_lt' hreads.fits
    have hload : load archive.directoryMap (ptr + CentralDirectoryRecord.size) r.name.length =
      some r.name := hreads.name
    simp only [Record.length] at hend
    simp only [Record.length, ← Nat.add_assoc] at h
    simp only [hreads.signature, hreads.localHeaderOffset, hreads.nameLength, hreads.extraLength,
      hreads.commentLength, hlength, hvalid, hload, hadd, Option.bind_eq_bind, Option.bind_some,
      ne_eq, not_true_eq_false, if_false]
    rw [if_neg (by omega), if_neg (by omega), if_neg (by omega), h]

/-- A loop that ends well has met the records of a directory with new names, and has put these
    into the table. -/
theorem addEntries_sound {archive : ZipArchive} {entries ptr : ℕ} {table table' : HashTable}
    {names : List ZipEntryName} (htable : NameTable table archive.hashTableSize names)
    (hroom : names.length + entries < table.length)
    (h : addEntries archive entries ptr table = some (0, table')) :
    ∃ rs, rs.length = entries ∧
      Directory archive.directoryMap archive.directoryLength archive.directoryOffset ptr rs ∧
      (rs.map Record.name).Nodup ∧ (∀ r ∈ rs, r.name ∉ names.map ZipEntryName.text) ∧
      NameTable table' archive.hashTableSize (names ++ slots ptr rs) := by
  induction entries generalizing ptr table names with
  | zero =>
    rw [addEntries, Option.some.injEq, Prod.mk.injEq] at h
    refine ⟨[], rfl, trivial, List.nodup_nil, fun _ hmem => absurd hmem List.not_mem_nil, ?_⟩
    rw [slots, List.append_nil, ← h.2]
    exact htable
  | succ entries ih =>
    obtain ⟨r, table₁, hreads, hsequences, hoffset, hadd, hend, hrest⟩ := addEntries_succ.mp h
    have hnew : r.name ∉ names.map ZipEntryName.text := by
      intro hmem
      rw [htable.addToHash_duplicate hmem] at hadd
      exact absurd (Prod.mk.inj (Option.some.inj hadd)).1 (by decide)
    obtain ⟨table₂, hadd', htable'⟩ := htable.addToHash_new (by omega)
      (show (ZipEntryName.mk (ptr + CentralDirectoryRecord.size) r.name).text ∉ _ from hnew)
    rw [hadd, Option.some.injEq, Prod.mk.injEq] at hadd'
    obtain ⟨-, rfl⟩ := hadd'
    have hlength : table₁.length = table.length := by rw [htable'.full, htable.full]
    obtain ⟨rs, hrs, hdirectory, hnodup, hfresh, hholds⟩ := ih htable'
      (by rw [List.length_cons, hlength]; omega) hrest
    refine ⟨r :: rs, by rw [List.length_cons, hrs], ⟨hreads, hsequences, hoffset, hend, hdirectory⟩,
      ?_, ?_, ?_⟩
    · rw [List.map_cons, List.nodup_cons]
      refine ⟨fun hmem => ?_, hnodup⟩
      obtain ⟨other, hother, hname⟩ := List.mem_map.mp hmem
      exact hfresh other hother (List.mem_map.mpr ⟨_, List.mem_cons_self, hname.symm⟩)
    · rw [List.forall_mem_cons]
      refine ⟨hnew, fun other hother hmem => hfresh other hother ?_⟩
      rw [List.map_cons]
      exact List.mem_cons_of_mem _ hmem
    · exact { hholds with
        holds := ⟨hholds.holds.placed, hholds.holds.items.trans List.perm_middle.symm⟩ }

/-- A directory of records with new names is accepted. -/
theorem addEntries_complete {archive : ZipArchive} {ptr : ℕ} {rs : List Record}
    {table : HashTable} {names : List ZipEntryName}
    (htable : NameTable table archive.hashTableSize names)
    (hroom : names.length + rs.length < table.length)
    (hdirectory : Directory archive.directoryMap archive.directoryLength
      archive.directoryOffset ptr rs)
    (hnodup : (rs.map Record.name).Nodup)
    (hfresh : ∀ r ∈ rs, r.name ∉ names.map ZipEntryName.text) :
    ∃ table', addEntries archive rs.length ptr table = some (0, table') := by
  induction rs generalizing ptr table names with
  | nil => exact ⟨table, rfl⟩
  | cons r rs ih =>
    obtain ⟨hreads, hsequences, hoffset, hend, hrest⟩ := hdirectory
    rw [List.forall_mem_cons] at hfresh
    rw [List.map_cons, List.nodup_cons] at hnodup
    rw [List.length_cons] at hroom
    obtain ⟨table₁, hadd, htable'⟩ := htable.addToHash_new (by omega)
      (show (ZipEntryName.mk (ptr + CentralDirectoryRecord.size) r.name).text ∉ _ from hfresh.1)
    have hlength : table₁.length = table.length := by rw [htable'.full, htable.full]
    obtain ⟨table', hrun⟩ := ih htable' (by rw [List.length_cons, hlength]; omega) hrest hnodup.2
      (by
        intro other hother hmem
        rw [List.map_cons, List.mem_cons] at hmem
        rcases hmem with hsame | hmem
        · exact hnodup.1 (List.mem_map.mpr ⟨other, hother, hsame⟩)
        · exact hfresh.2 other hother hmem)
    exact ⟨table', addEntries_succ.mpr
      ⟨r, table₁, hreads, hsequences, hoffset, hadd, hend, hrun⟩⟩

end Shashlik.ZipArchives
