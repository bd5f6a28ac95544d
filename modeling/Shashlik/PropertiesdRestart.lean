import Shashlik.PropertiesdPaths

set_option autoImplicit false

/-!
# A second life of the store

A restarted daemon opens the entries that its predecessor left and runs `initProperties`
again. The test for existing values asks for keys directly in the top-level group, but names
with a dot live in groups: the initial values are then written a second time.
-/
namespace Shashlik.PropertiesdRestart
open Settings SegmentPaths LatestWrites Propertiesd PropertiesdPaths

/-- A Set request as the device delivers it: any bytes up to the read limit, the name and the
    value terminated or not. -/
structure SetRequest where
  data : QByteArray
  stack : Stack
  is_set : data.headD 0 = kSystemPropertySet
  not_short : 2 ≤ data.length
  fits : data.length ≤ requestSize
  named : Named (fromLatin1 ((data.drop 1).take PROPERTY_KEY_MAX))

def SetRequest.key (r : SetRequest) : QString := fromLatin1 ((r.data.drop 1).take PROPERTY_KEY_MAX)

def SetRequest.value (r : SetRequest) : QString := fromLatin1 (r.data.drop (PROPERTY_KEY_MAX + 1))

def handleSet (q : QSettings) (r : SetRequest) : Option QSettings :=
  (readRequest r.stack q r.data).map (fun o => o.1.settings)

def firstLifetime (rs : List SetRequest) : Option QSettings :=
  (initProperties QSettings.empty).bind (fun q => rs.foldlM handleSet q)

def restart (q : QSettings) : Option QSettings := initProperties q.reopen

def Kept (q q' : QSettings) : Prop :=
  ∀ name, (readProperty q' name).map Prod.fst = (readProperty q name).map Prod.fst

def writesOf (rs : List SetRequest) : List (QString × QString) :=
  rs.map (fun r => (propertyPath r.key, r.value))

def initialEntries : List (QString × QString) :=
  initialWrites.map (fun p => (propertyPath p.1, p.2))

/-- A name stored outside all groups. -/
def TopLevel (name : QString) : Prop := '/' ∉ propertyPath name

instance (name : QString) : Decidable (TopLevel name) :=
  inferInstanceAs (Decidable ('/' ∉ propertyPath name))

/-- No property with an initial value was last set to another one. -/
def InitialValuesStand (rs : List SetRequest) : Prop :=
  ∀ path v w, latest initialEntries path = some v → latest (writesOf rs) path = some w → w = v

theorem handleSet_eq (q : QSettings) (r : SetRequest) (hq : q.groups = []) :
    handleSet q r = some (cells.set q (propertyPath r.key) r.value) := by
  have hset := answer_command_set r.stack q r.data (Nat.not_lt.mpr r.not_short) r.is_set
  have hwrite := writeProperty_eq q r.key r.value hq r.named
  rw [SetRequest.key, SetRequest.value] at hwrite
  rw [handleSet, readRequest, List.take_of_length_le r.fits, hset, hwrite]
  rfl

theorem foldlM_handleSet (q : QSettings) (rs : List SetRequest) (hq : q.groups = []) :
    rs.foldlM handleSet q =
      some (rs.foldl (fun q r => cells.set q (propertyPath r.key) r.value) q) := by
  induction rs generalizing q with
  | nil => rfl
  | cons r rs ih =>
    rw [List.foldlM_cons, handleSet_eq q r hq]
    exact ih _ hq

theorem firstLifetime_spec (rs : List SetRequest) :
    ∃ q, firstLifetime rs = some q ∧ q.groups = [] ∧
      ∀ path, cells.get q path = (latest (writesOf rs) path).or (latest initialEntries path) := by
  refine ⟨(rs.map (fun r => (r.key, r.value))).foldl
    (fun q p => cells.set q (propertyPath p.1) p.2)
    (initialWrites.foldl (fun q p => cells.set q (propertyPath p.1) p.2) QSettings.empty), ?_, ?_, ?_⟩
  · rw [firstLifetime, initProperties_empty, Option.bind_some,
      foldlM_handleSet _ _ (foldl_paths_groups _ _), List.foldl_map]
  · rw [foldl_paths_groups, foldl_paths_groups, QSettings.empty_groups]
  · intro path
    have hempty : cells.get QSettings.empty path = none := by simp [cells, QSettings.empty]
    rw [get_foldl_paths, get_foldl_paths, hempty, Option.or_none, List.map_map]
    rfl

theorem slash_mem_of_initial (path v : QString) (h : latest initialEntries path = some v) :
    '/' ∈ path := by
  obtain ⟨p, hp, he⟩ := List.mem_map.mp (mem_of_latest_eq_some initialEntries path v h)
  have hpath : propertyPath p.1 = path := (Prod.mk.inj he).1
  rw [← hpath, propertyPath_of_valid p.1 (initialWrites_valid p hp), substitute]
  exact List.mem_map.mpr ⟨'.', initialWrites_dotted p hp, by simp⟩

theorem childKeys_of_firstLifetime (q : QSettings) (rs : List SetRequest) (hq : q.groups = [])
    (hget : ∀ path, cells.get q path =
      (latest (writesOf rs) path).or (latest initialEntries path)) :
    q.childKeys = [] ↔ ∀ r ∈ rs, ¬ TopLevel r.key := by
  have hmem : ∀ path, path ∈ q.entries.keys ↔ cells.get q path ≠ none := fun path => by
    rw [← AList.mem_keys, ← AList.lookup_isSome, Option.isSome_iff_ne_none]
    rfl
  rw [QSettings.childKeys_eq_nil_iff q hq]
  simp only [TopLevel, not_not]
  constructor
  · intro hall r hr
    apply hall
    rw [hmem, hget]
    have hset : latest (writesOf rs) (propertyPath r.key) ≠ none := by
      rw [Ne, latest_eq_none_iff]
      intro hnone
      exact hnone _ (List.mem_map.mpr ⟨r, hr, rfl⟩) rfl
    simp [Option.or_eq_none_iff, hset]
  · intro hall path hpath
    rw [hmem, hget] at hpath
    cases hw : latest (writesOf rs) path with
    | some v =>
      obtain ⟨r, hr, he⟩ := List.mem_map.mp (mem_of_latest_eq_some _ path v hw)
      rw [← (Prod.mk.inj he).1]
      exact hall r hr
    | none =>
      cases hi : latest initialEntries path with
      | some v => exact slash_mem_of_initial path v hi
      | none => exact absurd (by simp [hw, hi]) hpath

theorem kept_iff (q q' : QSettings) (hq : q.groups = []) (hq' : q'.groups = []) :
    Kept q q' ↔ ∀ name, Named name →
      (cells.get q' (propertyPath name)).getD [] = (cells.get q (propertyPath name)).getD [] := by
  apply forall_congr'
  intro name
  by_cases h : Named name
  · simp [readProperty_eq q name hq h, readProperty_eq q' name hq' h, h]
  · rw [readProperty_of_not_named q name h, readProperty_of_not_named q' name h]
    split <;> simp [h]

theorem restart_rewrites (q : QSettings) (rs : List SetRequest) (hq : q.groups = [])
    (hget : ∀ path, cells.get q path =
      (latest (writesOf rs) path).or (latest initialEntries path))
    (htop : ∀ r ∈ rs, ¬ TopLevel r.key) :
    ∃ q', restart q = some q' ∧ (Kept q q' ↔ InitialValuesStand rs) := by
  have hnil : q.childKeys = [] := (childKeys_of_firstLifetime q rs hq hget).mpr htop
  have hwrites := writeProperties_eq q initialWrites hq
    (fun p hp => (initialWrites_valid p hp).named)
  refine ⟨_, by rw [restart, QSettings.reopen_of_groups q hq, initProperties,
    if_neg (not_not.mpr hnil), hwrites], ?_⟩
  rw [kept_iff q _ hq ((foldl_paths_groups _ _).trans hq)]
  simp only [get_foldl_paths, hget]
  change (∀ name, Named name → ((latest initialEntries (propertyPath name)).or _).getD [] = _) ↔ _
  constructor
  · intro hkept path v w hv hw
    obtain ⟨p, hp, he⟩ := List.mem_map.mp (mem_of_latest_eq_some initialEntries path v hv)
    have hk := hkept p.1 (initialWrites_valid p hp).named
    rw [(Prod.mk.inj he).1, hv, hw] at hk
    simpa using hk.symm
  · intro hstand name _
    cases hv : latest initialEntries (propertyPath name) with
    | none => simp
    | some v =>
      cases hw : latest (writesOf rs) (propertyPath name) with
      | none => simp
      | some w => simp [hstand _ v w hv hw]

/-- After any first lifetime the next start succeeds. It leaves every property as it was
    exactly when some Set was on a name stored at the top level, or the properties with an
    initial value still have it. -/
theorem properties_survive_restart (rs : List SetRequest) :
    ∃ q q', firstLifetime rs = some q ∧ restart q = some q' ∧
      (Kept q q' ↔ (∃ r ∈ rs, TopLevel r.key) ∨ InitialValuesStand rs) := by
  obtain ⟨q, hlife, hq, hget⟩ := firstLifetime_spec rs
  by_cases htop : ∃ r ∈ rs, TopLevel r.key
  · have hchild : q.childKeys ≠ [] := by
      obtain ⟨r, hr, ht⟩ := htop
      exact fun hnil => (childKeys_of_firstLifetime q rs hq hget).mp hnil r hr ht
    have hsame : restart q = some q := by
      rw [restart, QSettings.reopen_of_groups q hq, initProperties, if_pos hchild]
    exact ⟨q, q, hlife, hsame, iff_of_true (fun _ => rfl) (Or.inl htop)⟩
  · have hnone : ∀ r ∈ rs, ¬ TopLevel r.key := fun r hr ht => htop ⟨r, hr, ht⟩
    obtain ⟨q', hrestart, hiff⟩ := restart_rewrites q rs hq hget hnone
    exact ⟨q, q', hlife, hrestart, by rw [hiff, or_iff_right htop]⟩

def secureRequest : SetRequest where
  data := 2 :: ([114, 111, 46, 115, 101, 99, 117, 114, 101] ++ List.replicate 23 0) ++
    49 :: List.replicate 91 0
  stack := plainStack
  is_set := by decide
  not_short := by decide +kernel
  fits := by decide +kernel
  named := by decide

theorem restart_resets_ro_secure :
    ∃ q q', firstLifetime [secureRequest] = some q ∧ restart q = some q' ∧ ¬ Kept q q' := by
  obtain ⟨q, hlife, hq, hget⟩ := firstLifetime_spec [secureRequest]
  have htop : ∀ r ∈ [secureRequest], ¬ TopLevel r.key := by decide
  obtain ⟨q', hrestart, hiff⟩ := restart_rewrites q [secureRequest] hq hget htop
  refine ⟨q, q', hlife, hrestart, fun hkept => ?_⟩
  have hstand := hiff.mp hkept "ro/secure".toList "0".toList "1".toList
    (by decide +kernel) (by decide +kernel)
  exact absurd hstand (by decide)

end Shashlik.PropertiesdRestart
