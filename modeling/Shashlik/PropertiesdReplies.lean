import Shashlik.PropertiesdNames

set_option autoImplicit false

/-!
# The reply buffer of a Get

A Get copies the stored value into an array on the stack, behind one byte and in front of a
terminator of its own. What a Set may store is bounded by the read limit only, since the
truncated copy of the value is not the one that is stored.
-/
namespace Shashlik.PropertiesdReplies
open Settings CStrings LatestWrites Propertiesd PropertiesdPaths PropertiesdFrames
  PropertiesdRestart PropertiesdNames

/-- A Set frame as the device delivers it, short or not and under any name. -/
structure RawSet where
  data : QByteArray
  stack : Stack
  is_set : data.headD 0 = kSystemPropertySet
  fits : data.length ≤ requestSize

def RawSet.key (r : RawSet) : QString := fromLatin1 ((r.data.drop 1).take PROPERTY_KEY_MAX)

def RawSet.value (r : RawSet) : QString := fromLatin1 (r.data.drop (PROPERTY_KEY_MAX + 1))

def handleRaw (q : QSettings) (r : RawSet) : Option QSettings :=
  (readRequest r.stack q r.data).map (fun o => o.1.settings)

/-- The store after the first start and some Set frames, if none of them was undefined. -/
def storeAfter (rs : List RawSet) : Option QSettings :=
  (initProperties QSettings.empty).bind (fun q => rs.foldlM handleRaw q)

/-- The writes to the store; a Set without a name is ignored. -/
def rawWrites (rs : List RawSet) : List (QString × QString) :=
  (rs.filter (fun r => r.key ≠ [])).map (fun r => (propertyPath r.key, r.value))

/-- What a Get writes to `resp`, as pairs of an index and a byte. -/
def getWrites (q : QSettings) (r : GetRequest) : Option (List (ℕ × UInt8)) :=
  (readProperty q r.key).map (fun v => respWrites (toLatin1 v.1))

theorem handleGet_eq_dump (q : QSettings) (r : GetRequest) :
    handleGet q r =
      (getWrites q r).map (fun ws => dump (writeAll r.stack.byte ws) (PROP_VALUE_MAX + 1)) := by
  have hget := answer_command_get r.stack q r.data (Nat.not_lt.mpr r.not_short) r.is_get
  rw [handleGet, readRequest, List.take_of_length_le r.fits, hget, getWrites, GetRequest.key]
  simp only [Option.map_map]
  rfl

def requestWrites (q : QSettings) (data : QByteArray) : List (ℕ × UInt8) :=
  if data.length < 2 ∨ data.headD 0 ≠ kSystemPropertyGet then []
  else ((readProperty q (fromLatin1 (data.drop 1))).map
    (fun v => respWrites (toLatin1 v.1))).getD []

/-- `readRequest`, with no outcome where it writes behind the end of `resp`. -/
def readRequestInside (stack : Stack) (q : QSettings) (dev : QByteArray) :
    Option (Outcome × QByteArray) :=
  if ∀ w ∈ requestWrites q (dev.take requestSize), w.1 ≤ PROP_VALUE_MAX then
    readRequest stack q dev
  else none

theorem handleRaw_eq (q : QSettings) (r : RawSet) (hq : q.groups = []) :
    handleRaw q r = if r.key = [] then some q
      else if Named r.key then some (cells.set q (propertyPath r.key) r.value) else none := by
  rw [handleRaw, readRequest, List.take_of_length_le r.fits]
  by_cases hlen : r.data.length < 2
  · have hdrop : r.data.drop 1 = [] := List.drop_of_length_le (by omega)
    have hkey : r.key = [] := by
      rw [RawSet.key, hdrop]
      rfl
    rw [answer_short _ _ _ hlen, if_pos hkey]
    rfl
  · have hset := answer_command_set r.stack q r.data hlen r.is_set
    rw [← RawSet.key, ← RawSet.value] at hset
    rw [hset]
    by_cases hkey : r.key = []
    · simp [writeProperty, hkey]
    · rw [if_neg hkey]
      by_cases hnamed : Named r.key
      · rw [writeProperty_eq q _ _ hq hnamed, if_pos hnamed]
        rfl
      · have hnone := (writeProperty_eq_none_iff q r.key r.value).mpr ⟨hkey, not_not.mp hnamed⟩
        rw [if_neg hnamed, hnone]
        rfl

theorem foldlM_handleRaw (q q' : QSettings) (rs : List RawSet) (hq : q.groups = [])
    (h : rs.foldlM handleRaw q = some q') :
    q' = (rawWrites rs).foldl (fun q w => cells.set q w.1 w.2) q := by
  induction rs generalizing q with
  | nil => exact (Option.some.inj h).symm
  | cons r rs ih =>
    rw [List.foldlM_cons, handleRaw_eq q r hq] at h
    by_cases hkey : r.key = []
    · rw [if_pos hkey] at h
      simpa [rawWrites, hkey] using ih q hq h
    · rw [if_neg hkey] at h
      by_cases hnamed : Named r.key
      · rw [if_pos hnamed] at h
        simpa [rawWrites, hkey] using ih (cells.set q (propertyPath r.key) r.value) hq h
      · rw [if_neg hnamed] at h
        exact absurd h (by simp)

theorem foldl_writes_groups (q : QSettings) (ws : List (QString × QString)) :
    (ws.foldl (fun q w => cells.set q w.1 w.2) q).groups = q.groups := by
  induction ws generalizing q with
  | nil => rfl
  | cons w ws ih => exact ih _

theorem storeAfter_spec (rs : List RawSet) (q : QSettings) (h : storeAfter rs = some q) :
    q.groups = [] ∧
      ∀ path, cells.get q path = (latest (rawWrites rs) path).or (latest initialEntries path) := by
  rw [storeAfter, initProperties_empty, Option.bind_some] at h
  have hq := foldlM_handleRaw _ _ _ (foldl_paths_groups _ _) h
  refine ⟨?_, ?_⟩
  · rw [hq, foldl_writes_groups, foldl_paths_groups, QSettings.empty_groups]
  · intro path
    have hempty : cells.get QSettings.empty path = none := by simp [cells, QSettings.empty]
    rw [hq, cells.get_writes, get_foldl_paths, hempty, Option.or_none]
    rfl

theorem fst_mem_writesFrom (dst : ℕ) (bs : List UInt8) :
    ∀ w ∈ writesFrom dst bs, w.1 < dst + bs.length := by
  induction bs generalizing dst with
  | nil => simp [writesFrom]
  | cons b bs ih =>
    intro w hw
    rcases List.mem_cons.mp hw with rfl | hw
    · simp
    · have hrest := ih (dst + 1) w hw
      simp only [List.length_cons]
      omega

theorem respWrites_inside_iff (rv : QByteArray) :
    (∀ w ∈ respWrites rv, w.1 ≤ PROP_VALUE_MAX) ↔ rv.length ≤ 90 := by
  constructor
  · intro hall
    have hlast := hall (rv.length + 2, 0) (by simp [respWrites])
    simp only [PROP_VALUE_MAX] at hlast
    omega
  · intro hlen w hw
    simp only [respWrites, List.mem_append, List.mem_cons, List.not_mem_nil, or_false] at hw
    rcases hw with (rfl | hw) | rfl
    · simp
    · have hbound := fst_mem_writesFrom 1 _ w hw
      have hstring := length_cString_le rv
      rw [List.length_append, List.length_singleton] at hbound
      simp only [PROP_VALUE_MAX]
      omega
    · simp only [PROP_VALUE_MAX]
      omega

theorem initialWrites_short : ∀ p ∈ initialWrites, p.2.length ≤ 90 := by decide +kernel

theorem initialEntries_short (path value : QString)
    (h : latest initialEntries path = some value) : value.length ≤ 90 := by
  obtain ⟨p, hp, he⟩ := List.mem_map.mp (mem_of_latest_eq_some initialEntries path value h)
  rw [← (Prod.mk.inj he).2]
  exact initialWrites_short p hp

/-- A Get of any reachable store replies with its array as the writes leave it, and they stay
    inside exactly when the latest Set of the place it reads, if there was one, had a value of at
    most 90 bytes. -/
theorem get_stays_inside_iff (rs : List RawSet) (q : QSettings) (h : storeAfter rs = some q)
    (get : GetRequest) :
    (∀ ws, getWrites q get = some ws →
      handleGet q get = some (dump (writeAll get.stack.byte ws) (PROP_VALUE_MAX + 1)) ∧
        ∀ w ∈ ws, w.1 ≤ PROP_VALUE_MAX) ↔
      (Named get.key → ∀ value, latest (rawWrites rs) (propertyPath get.key) = some value →
        value.length ≤ 90) := by
  have hdump : ∀ ws, getWrites q get = some ws →
      handleGet q get = some (dump (writeAll get.stack.byte ws) (PROP_VALUE_MAX + 1)) := by
    intro ws hws
    rw [handleGet_eq_dump, hws, Option.map_some]
  simp only [forall_and, iff_true_intro hdump, true_and]
  obtain ⟨hq, hget⟩ := storeAfter_spec rs q h
  by_cases hnamed : Named get.key
  · have hlength : ∀ value, (toLatin1 value).length = value.length := fun value => List.length_map _
    simp only [getWrites, readProperty_eq q _ hq hnamed, hget, Option.map_some,
      Option.some.injEq, forall_eq', respWrites_inside_iff, hlength, hnamed, forall_const]
    cases hset : latest (rawWrites rs) (propertyPath get.key) with
    | some value => simp
    | none =>
      cases hinit : latest initialEntries (propertyPath get.key) with
      | none => simp
      | some value => simpa using initialEntries_short _ value hinit
  · rw [getWrites, readProperty_of_not_named q _ hnamed]
    refine iff_of_true ?_ (fun hn => absurd hn hnamed)
    intro ws hws
    split at hws
    · rw [← Option.some.inj hws, respWrites_inside_iff]
      simp [toLatin1]
    · exact absurd hws (by simp)

def setA (n : ℕ) (h : n ≤ 92) : RawSet where
  data := kSystemPropertySet :: (nameField ['a'] ++ List.replicate n 65)
  stack := plainStack
  is_set := rfl
  fits := by
    rw [List.length_cons, List.length_append, nameField_length ['a'] (by decide),
      List.length_replicate]
    simp only [requestSize, PROPERTY_KEY_MAX, PROP_NAME_MAX, PROP_VALUE_MAX]
    omega

def getA : GetRequest := getOf ['a'] (by decide)

theorem storeAfter_setA (n : ℕ) (h : n ≤ 92) : ∃ q, storeAfter [setA n h] = some q := by
  have hkey : (setA n h).key = ['a'] := by
    change fromLatin1 ((nameField ['a'] ++ List.replicate n 65).take PROPERTY_KEY_MAX) = ['a']
    rw [List.take_left' (nameField_length ['a'] (by decide))]
    decide
  apply Option.isSome_iff_exists.mp
  rw [storeAfter, initProperties_empty, Option.bind_some, List.foldlM_cons,
    handleRaw_eq _ _ (foldl_paths_groups _ _), if_neg (by simp [hkey]),
    if_pos (by rw [hkey]; decide)]
  rfl

theorem get_of_90_bytes_inside :
    ∃ q, storeAfter [setA 90 (by decide)] = some q ∧
      ∀ ws, getWrites q getA = some ws →
        handleGet q getA = some (dump (writeAll getA.stack.byte ws) (PROP_VALUE_MAX + 1)) ∧
          ∀ w ∈ ws, w.1 ≤ PROP_VALUE_MAX := by
  obtain ⟨q, hq⟩ := storeAfter_setA 90 (by decide)
  have hlatest : latest (rawWrites [setA 90 (by decide)]) (propertyPath getA.key) =
      some (List.replicate 90 'A') := by
    decide +kernel
  refine ⟨q, hq, (get_stays_inside_iff _ q hq getA).mpr fun _ value hvalue => ?_⟩
  rw [← Option.some.inj (hlatest.symm.trans hvalue), List.length_replicate]

theorem get_of_91_bytes_overruns :
    ∃ q ws, storeAfter [setA 91 (by decide)] = some q ∧
      getWrites q getA = some ws ∧ ∃ w ∈ ws, PROP_VALUE_MAX < w.1 := by
  obtain ⟨q, hq⟩ := storeAfter_setA 91 (by decide)
  obtain ⟨hgroups, hget⟩ := storeAfter_spec _ q hq
  have hlatest : latest (rawWrites [setA 91 (by decide)]) (propertyPath getA.key) =
      some (List.replicate 91 'A') := by
    decide +kernel
  have hvalue : cells.get q (propertyPath getA.key) = some (List.replicate 91 'A') := by
    rw [hget, hlatest]
    rfl
  refine ⟨q, respWrites (toLatin1 (List.replicate 91 'A')), hq, ?_, (93, 0), ?_, by decide⟩
  · rw [getWrites, readProperty_eq q _ hgroups (by decide), hvalue]
    rfl
  · rw [respWrites, toLatin1, List.length_map, List.length_replicate]
    exact List.mem_append_right _ (List.mem_singleton_self _)

end Shashlik.PropertiesdReplies
