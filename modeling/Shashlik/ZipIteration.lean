import Shashlik.Library.SystemRuns
import Shashlik.ZipEntries

set_option autoImplicit false

/-!
# Going through an archive

`Next` is called again and again on one handle, with anything in between that only looks at the
archive. It visits the names that are asked for one after the other, tells the end, and starts
again.
-/
namespace Shashlik.ZipArchives
open ByteFields ProbeTables SystemRuns

/-! ### Lists that start again -/

section
variable {α ε : Type}

/-- The next item of what is left of a list; after the end it is the whole list again. -/
def cycle (all : List α) : List α → ε → List α × ε × Option α
  | [], e => (all, e, none)
  | a :: rest, e => (rest, e, some a)

theorem specRun_cycle (all : List α) (es : List ε) :
    specRun (cycle all) all es = all.drop (es.length % (all.length + 1)) := by
  induction es using List.reverseRecOn with
  | nil => rfl
  | append_singleton es e ih =>
    have hrun : specRun (cycle all) all (es ++ [e]) = (cycle all (specRun (cycle all) all es) e).1 :=
      run_append _ _ _ _
    have hlt : es.length % (all.length + 1) < all.length + 1 := Nat.mod_lt _ (Nat.succ_pos _)
    rw [hrun, ih, List.length_append, List.length_singleton, Nat.add_mod]
    by_cases hlast : es.length % (all.length + 1) = all.length
    · rw [hlast, List.drop_length, cycle]
      by_cases hone : all.length = 0
      · rw [List.length_eq_zero_iff.mp hone, List.drop_nil]
      · rw [Nat.mod_eq_of_lt (show 1 < all.length + 1 by omega), Nat.mod_self, List.drop_zero]
    · have hinside : es.length % (all.length + 1) < all.length := by omega
      rw [List.drop_eq_getElem_cons hinside, cycle,
        Nat.mod_eq_of_lt (show 1 < all.length + 1 by omega),
        Nat.mod_eq_of_lt (show es.length % (all.length + 1) + 1 < all.length + 1 by omega)]

theorem cycle_visits (all : List α) (es : List ε) (e : ε) :
    (cycle all (specRun (cycle all) all es) e).2 =
      (e, all[es.length % (all.length + 1)]?) := by
  rw [specRun_cycle]
  by_cases hinside : es.length % (all.length + 1) < all.length
  · rw [List.drop_eq_getElem_cons hinside, cycle, List.getElem?_eq_getElem hinside]
  · rw [List.drop_eq_nil_of_le (Nat.le_of_not_lt hinside), cycle,
      List.getElem?_eq_none (Nat.le_of_not_lt hinside)]

end

/-! ### Slots that are asked for -/

theorem memcmp_eq {m : Memory} {place : ℕ} {bytes : List UInt8}
    (h : ∀ i, place ≤ i → i < place + bytes.length → m i ≠ none) :
    memcmp m place bytes = some (decide (Stands m place bytes)) := by
  induction bytes generalizing place with
  | nil =>
    rw [memcmp, decide_eq_true stands_nil]
  | cons byte bytes ih =>
    rw [List.length_cons] at h
    obtain ⟨other, hother⟩ := Option.ne_none_iff_exists'.mp (h place le_rfl (by omega))
    rw [memcmp, hother, Option.bind_eq_bind, Option.bind_some]
    by_cases hsame : other = byte
    · rw [if_pos hsame, ih fun i hi hlt => h i (by omega) (by omega), Option.some.injEq,
        decide_eq_decide, stands_cons, hother, hsame]
      exact (and_iff_right rfl).symm
    · rw [if_neg hsame, Option.some.injEq, eq_comm, decide_eq_false_iff_not, stands_cons, hother]
      exact fun hstands => hsame (Option.some.inj hstands.1)

/-- The names of a table at which these bytes stand, whether or not the name is that long. -/
def asked (cd : Memory) (prefixText : List UInt8) (table : HashTable) : List ZipEntryName :=
  (stored table).filter fun slot => decide (Stands cd slot.name prefixText)

theorem nextSlot_eq {cd : Memory} {prefixText : List UInt8} {table : HashTable}
    (h : ∀ slot ∈ stored table, ∀ i, slot.name ≤ i → i < slot.name + prefixText.length →
      cd i ≠ none) :
    (nextSlot cd prefixText table = some none ∧ asked cd prefixText table = []) ∨
    ∃ before slot, nextSlot cd prefixText table = some (some (before, slot)) ∧
      slot ∈ stored table ∧
      asked cd prefixText table = slot :: asked cd prefixText (table.drop (before + 1)) := by
  induction table with
  | nil => exact Or.inl ⟨rfl, rfl⟩
  | cons entry table ih =>
    have hrest (hskip : asked cd prefixText (entry :: table) = asked cd prefixText table)
        (hnext : nextSlot cd prefixText (entry :: table) = (nextSlot cd prefixText table).map
          fun found => found.map fun found => (found.1 + 1, found.2))
        (hsub : ∀ slot ∈ stored table, slot ∈ stored (entry :: table)) :
        (nextSlot cd prefixText (entry :: table) = some none ∧
          asked cd prefixText (entry :: table) = []) ∨
        ∃ before slot, nextSlot cd prefixText (entry :: table) = some (some (before, slot)) ∧
          slot ∈ stored (entry :: table) ∧ asked cd prefixText (entry :: table) =
            slot :: asked cd prefixText ((entry :: table).drop (before + 1)) := by
      rcases ih fun slot hslot => h slot (hsub slot hslot) with
        ⟨hnone, hempty⟩ | ⟨before, slot, hfound, hmem, hasked⟩
      · exact Or.inl ⟨by rw [hnext, hnone]; rfl, hskip.trans hempty⟩
      · exact Or.inr ⟨before + 1, slot, by rw [hnext, hfound]; rfl, hsub slot hmem,
          hskip.trans hasked⟩
    cases entry with
    | none =>
      refine hrest rfl ?_ fun _ hslot => hslot
      rw [nextSlot]
      cases nextSlot cd prefixText table <;> rfl
    | some slot =>
      have hstored : stored (some slot :: table) = slot :: stored table := rfl
      have hcompare := memcmp_eq (h slot (by rw [hstored]; exact List.mem_cons_self))
      by_cases hstands : Stands cd slot.name prefixText
      · refine Or.inr ⟨0, slot, ?_, by rw [hstored]; exact List.mem_cons_self, ?_⟩
        · rw [nextSlot, hcompare, decide_eq_true hstands]
          rfl
        · simp only [asked, hstored, List.filter_cons, hstands, decide_true, if_true,
            Nat.zero_add, List.drop_one, List.tail_cons]
      · refine hrest ?_ ?_ fun other hother => by
          rw [hstored]
          exact List.mem_cons_of_mem slot hother
        · simp only [asked, hstored, List.filter_cons, hstands, decide_false, Bool.false_eq_true,
            if_false]
        · rw [nextSlot, hcompare, decide_eq_false hstands]
          cases nextSlot cd prefixText table <;> rfl

/-! ### Every slot of an archive has an outcome -/

theorem fillEntry_ends {cd : Memory} {cdr : ℕ}
    (h : ∀ i, cdr ≤ i → i < cdr + CentralDirectoryRecord.size → cd i ≠ none) (data : ZipEntry) :
    ∃ data', fillEntry cd cdr data = some data' := by
  have hsize : CentralDirectoryRecord.size = 46 := rfl
  have htwo (offset : ℕ) (hoffset : offset + 2 ≤ 46) : ∃ x, uint16 cd (cdr + offset) = some x :=
    exists_uint16 fun i hi hlt => h i (by omega) (by omega)
  have hfour (offset : ℕ) (hoffset : offset + 4 ≤ 46) : ∃ x, uint32 cd (cdr + offset) = some x :=
    exists_uint32 fun i hi hlt => h i (by omega) (by omega)
  obtain ⟨_, hmethod⟩ := htwo 10 (by decide)
  obtain ⟨_, hmodTime⟩ := htwo 12 (by decide)
  obtain ⟨_, hcrc32⟩ := hfour 16 (by decide)
  obtain ⟨_, hcompressed⟩ := hfour 20 (by decide)
  obtain ⟨_, huncompressed⟩ := hfour 24 (by decide)
  exact exists_bind hmethod (exists_bind hmodTime (exists_bind hcrc32 (exists_bind hcompressed
    (exists_bind huncompressed ⟨_, rfl⟩))))

theorem findSlot_ends {host : Host} {archive : ZipArchive} {slot : ZipEntryName}
    (hslot : CentralDirectoryRecord.size ≤ slot.name)
    (h : ∀ i, slot.name - CentralDirectoryRecord.size ≤ i → i < slot.name →
      archive.directoryMap i ≠ none) (data : ZipEntry) :
    ∃ r, findSlot host archive slot data = some r := by
  have hsize : CentralDirectoryRecord.size = 46 := rfl
  rw [findSlot]
  refine exists_ite ⟨_, rfl⟩ ?_
  obtain ⟨filled, hfill⟩ := fillEntry_ends (fun i hi hlt => h i hi (by omega)) data
  obtain ⟨offset, hoffset⟩ := exists_uint32 (show ∀ i,
    slot.name - CentralDirectoryRecord.size + 42 ≤ i →
    i < slot.name - CentralDirectoryRecord.size + 42 + 4 → archive.directoryMap i ≠ none from
      fun i hi hlt => h i (by omega) (by omega))
  refine exists_bind hfill (exists_bind hoffset (exists_ite ⟨_, rfl⟩ ?_))
  cases hread : readAtOffset host .readHeader LocalFileHeader.size offset.toNat with
  | none => exact ⟨_, rfl⟩
  | some lfhBuf =>
    have hlength : lfhBuf.length = 30 := (readAtOffset_iff.mp hread).2.1
    have htwo (i : ℕ) (hi : i + 2 ≤ 30) : ∃ x, uint16 (ofBytes lfhBuf) i = some x :=
      uint16_ofBytes (hi.trans_eq hlength.symm)
    have hfour (i : ℕ) (hi : i + 4 ≤ 30) : ∃ x, uint32 (ofBytes lfhBuf) i = some x :=
      uint32_ofBytes (hi.trans_eq hlength.symm)
    obtain ⟨_, hsignature⟩ := hfour 0 (by decide)
    obtain ⟨_, hflags⟩ := htwo 6 (by decide)
    obtain ⟨_, hcompressed⟩ := hfour 18 (by decide)
    obtain ⟨_, huncompressed⟩ := hfour 22 (by decide)
    obtain ⟨_, hcrc32⟩ := hfour 14 (by decide)
    obtain ⟨_, hnameLength⟩ := htwo 26 (by decide)
    obtain ⟨_, hextra⟩ := htwo 28 (by decide)
    have hsizes : ∃ r, checkSizes (ofBytes lfhBuf) filled = some r :=
      exists_bind hflags (exists_ite (exists_bind hcompressed (exists_bind huncompressed
        (exists_bind hcrc32 (exists_ite ⟨_, rfl⟩ ⟨_, rfl⟩)))) ⟨_, rfl⟩)
    have hname : ∃ result, checkName host archive.directoryOffset offset.toNat (ofBytes lfhBuf)
        slot.text = some result := by
      refine exists_bind hnameLength (exists_ite (exists_ite ⟨_, rfl⟩ ?_) ⟨_, rfl⟩)
      cases readAtOffset host .readName slot.text.length (offset.toNat + LocalFileHeader.size) with
      | none => exact ⟨_, rfl⟩
      | some _ => exact ⟨_, rfl⟩
    have hdata (sized : ZipEntry) : ∃ r, checkData archive.directoryOffset offset.toNat
        (ofBytes lfhBuf) sized = some r :=
      exists_bind hnameLength (exists_bind hextra
        (exists_ite ⟨_, rfl⟩ (exists_ite ⟨_, rfl⟩ (exists_ite ⟨_, rfl⟩ ⟨_, rfl⟩))))
    obtain ⟨⟨_, sized⟩, hsized⟩ := hsizes
    obtain ⟨_, hnamed⟩ := hname
    exact exists_bind hsignature (exists_ite ⟨_, rfl⟩ (exists_bind hsized (exists_ite ⟨_, rfl⟩
      (exists_bind hnamed (exists_ite ⟨_, rfl⟩ (hdata sized))))))

/-! ### Runs -/

/-- A call of `Next`: how the reads of the file go, and what stands where the answer goes. -/
structure NextCall where
  fails : Call → Bool
  data : ZipEntry
  name : Option (List UInt8)

def nextStep (host : Host) (archive : ZipArchive) (handle : IterationHandle) (call : NextCall) :
    Option (IterationHandle × ℤ × ZipEntry × Option (List UInt8)) := do
  let (error, handle, data, name) ←
    next { host with fails := call.fails } archive handle call.data call.name
  some (handle, error, data, name)

/-- What a call answers that has come to a slot, or to the end. -/
def Visits (host : Host) (archive : ZipArchive) (answer : ℤ × ZipEntry × Option (List UInt8))
    (visit : NextCall × Option ZipEntryName) : Prop :=
  match visit.2 with
  | none => answer = (kIterationEnd, visit.1.data, visit.1.name)
  | some slot => ∃ error data,
      findSlot { host with fails := visit.1.fails } archive slot visit.1.data =
        some (error, data) ∧
      answer = (error, data, if error = 0 then some slot.text else visit.1.name)

theorem nextStep_simulates {host : Host} {archive : ZipArchive} {hashTable : HashTable}
    (hsome : archive.hashTable = some hashTable) {prefixText : List UInt8}
    (hslots : ∀ slot ∈ stored hashTable, CentralDirectoryRecord.size ≤ slot.name ∧
      ∀ i, slot.name - CentralDirectoryRecord.size ≤ i → i < slot.name + prefixText.length →
        archive.directoryMap i ≠ none) :
    Simulates (nextStep host archive)
      (cycle (asked archive.directoryMap prefixText hashTable))
      (fun handle rest => handle.prefixText = prefixText ∧
        asked archive.directoryMap prefixText (hashTable.drop handle.position) = rest)
      (Visits host archive) := by
  rintro handle rest call ⟨htext, hrest⟩
  have hsub : ∀ slot ∈ stored (hashTable.drop handle.position), slot ∈ stored hashTable := by
    intro slot hslot
    exact ((List.drop_sublist _ _).filterMap id).subset hslot
  rw [nextStep, next, hsome]
  dsimp only
  rw [htext]
  rcases nextSlot_eq fun slot hslot i hi hlt =>
    (hslots slot (hsub slot hslot)).2 i (by omega) hlt with
    ⟨hnone, hempty⟩ | ⟨before, slot, hfound, hmem, hasked⟩
  · rw [hempty] at hrest
    subst hrest
    rw [hnone]
    exact ⟨_, _, rfl, ⟨rfl, rfl⟩, rfl⟩
  · rw [hasked] at hrest
    subst hrest
    obtain ⟨hplace, hreadable⟩ := hslots slot (hsub slot hmem)
    have hends : ∃ r, findSlot { host with fails := call.fails } archive slot call.data = some r :=
      findSlot_ends hplace (fun i hi hlt => hreadable i hi (Nat.lt_add_right _ hlt)) call.data
    obtain ⟨⟨error, data⟩, hdata⟩ := hends
    refine ⟨⟨handle.position + before + 1, prefixText⟩,
      (error, data, if error = 0 then some slot.text else call.name), ?_, ⟨rfl, ?_⟩,
      error, data, hdata, rfl⟩
    · simp only [hfound, hdata, Option.bind_eq_bind, Option.bind_some]
      by_cases herror : error = 0
      · rw [if_pos herror, if_pos herror, Option.bind_some, herror]
      · rw [if_neg herror, if_neg herror, Option.bind_some]
    · rw [List.drop_drop]
      rfl

theorem stands_prefix_iff {m : Memory} {place : ℕ} {bytes name : List UInt8}
    (hname : Stands m place name) (hlength : bytes.length ≤ name.length) :
    Stands m place bytes ↔ bytes <+: name := by
  have htake : Stands m place (name.take bytes.length) := by
    rw [← List.take_append_drop bytes.length name, stands_append] at hname
    exact hname.1
  have hsame : (name.take bytes.length).length = bytes.length := List.length_take_of_le hlength
  rw [List.prefix_iff_eq_take]
  constructor
  · exact fun hbytes => stands_unique hbytes htake hsame.symm
  · intro heq
    rwa [heq]

def sampleCalls : List NextCall :=
  [⟨fun _ => false, ⟨0, 0, false, 0, 0, 0, 0⟩, none⟩, ⟨fun _ => true, ⟨0, 0, false, 0, 0, 0, 0⟩, none⟩]

end Shashlik.ZipArchives
