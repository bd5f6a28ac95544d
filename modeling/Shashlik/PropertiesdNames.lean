import Shashlik.PropertiesdRestart
import Shashlik.PropertiesdReadYourWrites

set_option autoImplicit false

/-!
# Which names lead to which property

A name is cut at its dots, and the settings store cuts every group name and key once more at
'/'. The place a name leads to is then given by all these pieces, and by whether anything is
left of its last dot segment. A name of dots only has no segment to look up at all.
-/
namespace Shashlik.PropertiesdNames
open Settings CStrings SegmentPaths LatestWrites Propertiesd PropertiesdPaths PropertiesdFrames
  PropertiesdRestart

/-- The non-empty pieces of a name between dots and slashes. -/
def pieces (name : QString) : List QString := (splitGroups name).flatMap (segments '/')

/-- The last dot segment consists of slashes. -/
def EndsInSlashes (name : QString) : Prop := ∀ c ∈ (splitGroups name).getLastD [], c = '/'

instance (name : QString) : Decidable (EndsInSlashes name) :=
  decidable_of_iff (((splitGroups name).getLastD []).all (fun c => c = '/') = true)
    (by simp [EndsInSlashes])

def SamePlace (name name' : QString) : Prop :=
  pieces name = pieces name' ∧ (EndsInSlashes name ↔ EndsInSlashes name')

instance (name name' : QString) : Decidable (SamePlace name name') :=
  inferInstanceAs (Decidable (_ ∧ _))

theorem segments_normalizedKey (key : QString) :
    segments '/' (normalizedKey key) = segments '/' key := by
  by_cases hs : segments '/' key = []
  · simp [normalizedKey, hs, segments_nil]
  · have hcut := segments_joined '/' (segments '/' key) [] (pieces_segments '/' key)
    rw [← intercalate_append_sep '/' _ hs, segments_append_cons, segments_nil, List.append_nil,
      List.append_nil] at hcut
    exact hcut

theorem groupPrefix_normalized (names : List QString) :
    groupPrefix (names.map normalizedKey).reverse =
      joined '/' (names.flatMap (segments '/')) [] := by
  induction names using List.reverseRecOn with
  | nil => rfl
  | append_singleton names name ih =>
    rw [List.map_append, List.reverse_append, List.flatMap_append, ← joined_joined]
    change groupPrefix (names.map normalizedKey).reverse ++ _ = _
    rw [ih]
    by_cases hs : segments '/' name = []
    · simp [normalizedKey, hs, joined]
    · have hne : normalizedKey name ≠ [] := by
        intro hnil
        rw [← segments_normalizedKey, hnil, segments_nil] at hs
        exact hs rfl
      rw [if_neg hne, normalizedKey, intercalate_append_sep '/' _ hs]
      simp [joined]

theorem propertyPath_eq_joined (name : QString) :
    propertyPath name = joined '/' ((splitGroups name).dropLast.flatMap (segments '/'))
      (normalizedKey ((splitGroups name).getLastD [])) := by
  rw [propertyPath, groupPrefix_normalized]
  simp [joined]

theorem pieces_eq (name : QString) :
    pieces name = (splitGroups name).dropLast.flatMap (segments '/') ++
      segments '/' ((splitGroups name).getLastD []) := by
  rw [pieces]
  by_cases h : splitGroups name = []
  · simp [h, segments_nil]
  · conv_lhs => rw [← List.dropLast_append_getLast h]
    rw [List.getLastD_eq_getLast?, List.getLast?_eq_some_getLast h, Option.getD_some,
      List.flatMap_append]
    simp

theorem pieces_plain (names : List QString) : Pieces '/' (names.flatMap (segments '/')) := by
  intro piece hp
  obtain ⟨name, _, hp⟩ := List.mem_flatMap.mp hp
  exact pieces_segments '/' name piece hp

theorem segments_propertyPath (name : QString) :
    segments '/' (propertyPath name) = pieces name := by
  rw [propertyPath_eq_joined, segments_joined _ _ _ (pieces_plain _), segments_normalizedKey,
    pieces_eq]

theorem endsInSlashes_iff (name : QString) :
    EndsInSlashes name ↔ segments '/' ((splitGroups name).getLastD []) = [] :=
  (segments_eq_nil_iff '/' _).symm

theorem getLast?_joined_nil (ps : List QString) : ∀ c ∈ (joined '/' ps []).getLast?, c = '/' := by
  induction ps using List.reverseRecOn with
  | nil => simp [joined]
  | append_singleton ps p _ => simp [joined, ← List.append_assoc]

/-- The pieces of a name make its place; a last segment of slashes leaves a '/' at the end. -/
theorem propertyPath_eq (name : QString) :
    propertyPath name = if EndsInSlashes name then joined '/' (pieces name) []
      else ['/'].intercalate (pieces name) := by
  have hends := endsInSlashes_iff name
  rw [propertyPath_eq_joined, pieces_eq, normalizedKey]
  generalize (splitGroups name).getLastD [] = last at hends ⊢
  by_cases hs : segments '/' last = []
  · rw [if_pos (hends.mpr hs), hs, List.append_nil]
    rfl
  · obtain ⟨front, piece, hsplit⟩ : ∃ front piece, segments '/' last = front ++ [piece] :=
      ⟨_, _, (List.dropLast_append_getLast hs).symm⟩
    rw [if_neg (fun h => hs (hends.mp h)), hsplit, ← List.append_assoc, intercalate_concat, intercalate_concat,
      joined_joined]

theorem getLast?_propertyPath (name : QString) :
    (∀ c ∈ (propertyPath name).getLast?, c = '/') ↔ EndsInSlashes name := by
  rw [propertyPath_eq]
  by_cases hends : EndsInSlashes name
  · rw [if_pos hends]
    exact iff_of_true (getLast?_joined_nil _) hends
  · rw [if_neg hends]
    have hne : pieces name ≠ [] := by
      rw [pieces_eq]
      exact List.append_ne_nil_of_right_ne_nil _ (fun h => hends ((endsInSlashes_iff name).mpr h))
    obtain ⟨hlast, hslash⟩ := pieces_plain (splitGroups name) _ (List.getLast_mem hne)
    refine iff_of_false ?_ hends
    rw [← List.dropLast_append_getLast hne, intercalate_concat, joined,
      List.getLast?_append_of_ne_nil _ hlast, List.getLast?_eq_some_getLast hlast]
    intro hall
    exact hslash (hall _ rfl ▸ List.getLast_mem hlast)

theorem propertyPath_eq_iff (name name' : QString) :
    propertyPath name = propertyPath name' ↔ SamePlace name name' := by
  constructor
  · intro he
    refine ⟨?_, ?_⟩
    · rw [← segments_propertyPath, he, segments_propertyPath]
    · rw [← getLast?_propertyPath, he, getLast?_propertyPath]
  · rintro ⟨hpieces, hends⟩
    rw [propertyPath_eq, propertyPath_eq, hpieces]
    exact if_congr hends rfl rfl

/-- A Get request as the device delivers it: any bytes up to the read limit. -/
structure GetRequest where
  data : QByteArray
  stack : Stack
  is_get : data.headD 0 = kSystemPropertyGet
  not_short : 2 ≤ data.length
  fits : data.length ≤ requestSize

def GetRequest.key (r : GetRequest) : QString := fromLatin1 (r.data.drop 1)

/-- The names that both requests can carry and that the daemon does not refuse. -/
structure Accepted (name : QString) : Prop where
  not_empty : name ≠ []
  fits : name.length ≤ PROPERTY_KEY_MAX
  latin1 : ∀ c ∈ name, c.toNat ≠ 0 ∧ c.toNat < 256
  not_dots : ∃ c ∈ name, c ≠ '.'

def handleGet (q : QSettings) (r : GetRequest) : Option QByteArray :=
  (readRequest r.stack q r.data).map (fun o => o.1.reply)

/-- Over any stored entries, a Set of the one name leaves what a Get of the other returns. -/
def Undisturbed (name name' : QString) : Prop :=
  ∀ (entries : AList (fun _ : QString => QString)) (set : SetRequest) (get : GetRequest),
    set.key = name → get.key = name' →
      ∃ q, handleSet ⟨entries, []⟩ set = some q ∧ handleGet q get = handleGet ⟨entries, []⟩ get

theorem named_iff (name : QString) : Named name ↔ ∃ c ∈ name, c ≠ '.' := by
  have h := segments_eq_nil_iff '.' name
  rw [Named, splitGroups, Ne, h]
  push Not
  rfl

theorem handleGet_eq (q : QSettings) (r : GetRequest) (hq : q.groups = []) (h : Named r.key) :
    handleGet q r =
      some (getReply r.stack (toLatin1 ((cells.get q (propertyPath r.key)).getD []))) := by
  have hget := answer_command_get r.stack q r.data (Nat.not_lt.mpr r.not_short) r.is_get
  have hread := readProperty_eq q r.key hq h
  rw [GetRequest.key] at hread
  rw [handleGet, readRequest, List.take_of_length_le r.fits, hget, hread]
  rfl

theorem fromLatin1_name (name : QString) (h : ∀ c ∈ name, c.toNat ≠ 0 ∧ c.toNat < 256) (n : ℕ) :
    fromLatin1 (toLatin1 name ++ List.replicate n 0) = name := by
  have hbyte : ∀ c ∈ name, (if c.toNat < 256 then UInt8.ofNat c.toNat else 63).toNat = c.toNat := by
    intro c hc
    rw [if_pos (h c hc).2, UInt8.toNat_ofNat_of_lt' (h c hc).2]
  have hzero : 0 ∉ toLatin1 name := by
    intro hm
    obtain ⟨c, hc, he⟩ := List.mem_map.mp hm
    have hnat := hbyte c hc
    rw [he] at hnat
    exact (h c hc).1 hnat.symm
  have hcut : cString (toLatin1 name ++ List.replicate n 0) = toLatin1 name := by
    cases n with
    | zero => simpa using cString_of_not_mem _ hzero
    | succ n => exact cString_append_zero _ _ hzero
  rw [fromLatin1, hcut, toLatin1, List.map_map]
  conv_rhs => rw [← List.map_id name]
  apply List.map_congr_left
  intro c hc
  rw [Function.comp_apply, hbyte c hc, Char.ofNat_toNat]
  rfl

def nameField (name : QString) : QByteArray :=
  toLatin1 name ++ List.replicate (PROPERTY_KEY_MAX - name.length) 0

theorem nameField_length (name : QString) (h : name.length ≤ PROPERTY_KEY_MAX) :
    (nameField name).length = PROPERTY_KEY_MAX := by
  simp only [nameField, toLatin1, List.length_append, List.length_map, List.length_replicate]
  omega

def setToOne (name : QString) (h : Accepted name) : SetRequest where
  data := kSystemPropertySet :: (nameField name ++ [49])
  stack := plainStack
  is_set := rfl
  not_short := by simp
  fits := by
    simp [nameField_length name h.fits, requestSize, PROPERTY_KEY_MAX, PROP_NAME_MAX,
      PROP_VALUE_MAX]
  named := by
    have hfield : ((kSystemPropertySet :: (nameField name ++ [49])).drop 1).take PROPERTY_KEY_MAX =
        nameField name := List.take_left' (nameField_length name h.fits)
    rw [hfield, nameField, fromLatin1_name name h.latin1, named_iff]
    exact h.not_dots

def getOf (name : QString) (h : Accepted name) : GetRequest where
  data := kSystemPropertyGet :: nameField name
  stack := plainStack
  is_get := rfl
  not_short := by simp [nameField_length name h.fits, PROPERTY_KEY_MAX]
  fits := by
    simp [nameField_length name h.fits, requestSize, PROPERTY_KEY_MAX, PROP_NAME_MAX,
      PROP_VALUE_MAX]

theorem setToOne_key (name : QString) (h : Accepted name) : (setToOne name h).key = name := by
  change fromLatin1 ((nameField name ++ [49]).take PROPERTY_KEY_MAX) = name
  rw [List.take_left' (nameField_length name h.fits), nameField, fromLatin1_name name h.latin1]

theorem setToOne_value (name : QString) (h : Accepted name) : (setToOne name h).value = ['1'] := by
  change fromLatin1 ((nameField name ++ [49]).drop PROPERTY_KEY_MAX) = ['1']
  rw [List.drop_left' (nameField_length name h.fits)]
  decide

theorem getOf_key (name : QString) (h : Accepted name) : (getOf name h).key = name :=
  fromLatin1_name name h.latin1 _

theorem undisturbed_of_not_samePlace (name name' : QString) (h' : Accepted name')
    (hplace : ¬ SamePlace name name') : Undisturbed name name' := by
  intro entries set get hset hget
  refine ⟨_, handleSet_eq _ set rfl, ?_⟩
  have hnamed : Named get.key := hget ▸ (named_iff name').mpr h'.not_dots
  have hpath : propertyPath get.key ≠ propertyPath set.key := by
    rw [hset, hget]
    exact fun he => hplace ((propertyPath_eq_iff name name').mp he.symm)
  rw [handleGet_eq _ get rfl hnamed, handleGet_eq _ get rfl hnamed, cells.get_set, if_neg hpath]

theorem headD_getReply (stack : Stack) (rv : QByteArray) :
    (getReply stack rv).headD 0 = if rv.length < 1 then 0 else 1 := by
  change writeAll stack.byte (respWrites rv) 0 = _
  rw [PropertiesdReadYourWrites.respMemory_apply, if_neg (by omega), if_neg (by omega)]

theorem disturbed_of_samePlace (name name' : QString) (h : Accepted name) (h' : Accepted name')
    (hplace : SamePlace name name') : ¬ Undisturbed name name' := by
  intro hkept
  obtain ⟨q, hset, hget⟩ := hkept ∅ (setToOne name h) (getOf name' h') (setToOne_key name h)
    (getOf_key name' h')
  have hpath : propertyPath (getOf name' h').key = propertyPath (setToOne name h).key := by
    rw [setToOne_key, getOf_key]
    exact ((propertyPath_eq_iff name name').mpr hplace).symm
  have hnamed : Named (getOf name' h').key := by
    rw [getOf_key]
    exact (named_iff name').mpr h'.not_dots
  rw [handleSet_eq _ _ rfl] at hset
  rw [← Option.some.inj hset, handleGet_eq _ _ rfl hnamed, handleGet_eq _ _ rfl hnamed,
    cells.get_set, if_pos hpath, setToOne_value] at hget
  have hfirst := congrArg (fun r => r.headD 0) (Option.some.inj hget)
  simp only [headD_getReply] at hfirst
  simp [cells, toLatin1] at hfirst

/-- A Set of one accepted name leaves every Get of another as it was exactly when the names
    are different places. -/
theorem set_leaves_other_names (name name' : QString) (h : Accepted name) (h' : Accepted name') :
    Undisturbed name name' ↔ ¬ SamePlace name name' :=
  ⟨fun hkept hplace => disturbed_of_samePlace name name' h h' hplace hkept,
    undisturbed_of_not_samePlace name name' h'⟩

instance (name : QString) : Decidable (Accepted name) :=
  decidable_of_iff (name ≠ [] ∧ name.length ≤ PROPERTY_KEY_MAX ∧
      name.all (fun c => c.toNat ≠ 0 ∧ c.toNat < 256) = true ∧ name.any (fun c => c ≠ '.') = true)
    ⟨fun h => ⟨h.1, h.2.1, by simpa using h.2.2.1, by simpa using h.2.2.2⟩,
      fun h => ⟨h.not_empty, h.fits, by simpa using h.latin1, by simpa using h.not_dots⟩⟩

theorem set_leaves_ro_debuggable :
    Undisturbed "ro.secure".toList "ro.debuggable".toList ↔
      ¬ SamePlace "ro.secure".toList "ro.debuggable".toList :=
  set_leaves_other_names _ _ (by decide) (by decide)

theorem doubled_dot_disturbs :
    Accepted "ro.secure".toList ∧ Accepted "ro..secure".toList ∧
      "ro.secure".toList ≠ "ro..secure".toList ∧
      ¬ Undisturbed "ro.secure".toList "ro..secure".toList :=
  ⟨by decide, by decide, by decide,
    disturbed_of_samePlace _ _ (by decide) (by decide) (by decide +kernel)⟩

def OnlyDots (key : QByteArray) : Prop := key ≠ [] ∧ ∀ b ∈ key, b = 46

instance (key : QByteArray) : Decidable (OnlyDots key) :=
  decidable_of_iff (key ≠ [] ∧ key.all (fun b => b = 46) = true) (by simp [OnlyDots])

theorem readProperty_eq_none_iff (q : QSettings) (key : QString) :
    readProperty q key = none ↔ key ≠ [] ∧ splitGroups key = [] := by
  by_cases hk : key = []
  · simp [readProperty, hk]
  · rw [readProperty, if_neg hk]
    cases hlast : (splitGroups key).getLast? with
    | none => simp [hk, List.getLast?_eq_none_iff.mp hlast]
    | some last =>
      have hne : splitGroups key ≠ [] := fun h => by simp [h] at hlast
      simp only [hlast]
      simp [hne]

theorem writeProperty_eq_none_iff (q : QSettings) (key value : QString) :
    writeProperty q key value = none ↔ key ≠ [] ∧ splitGroups key = [] := by
  by_cases hk : key = []
  · simp [writeProperty, hk]
  · rw [writeProperty, if_neg hk]
    cases hlast : (splitGroups key).getLast? with
    | none => simp [hk, List.getLast?_eq_none_iff.mp hlast]
    | some last =>
      have hne : splitGroups key ≠ [] := fun h => by simp [h] at hlast
      simp only [hlast]
      simp [hne]

theorem onlyDots_iff (bytes : QByteArray) :
    fromLatin1 bytes ≠ [] ∧ splitGroups (fromLatin1 bytes) = [] ↔ OnlyDots (cString bytes) := by
  have hdot : ∀ b : UInt8, Char.ofNat b.toNat = '.' ↔ b = 46 := by
    intro b
    constructor
    · intro hb
      rw [← toLatin1_char b, hb]
      decide
    · rintro rfl
      rfl
  rw [OnlyDots, splitGroups, segments_eq_nil_iff, fromLatin1]
  simp [hdot]

theorem answer_eq_none_iff (stack : Stack) (q : QSettings) (data : QByteArray) :
    answer stack q data = none ↔
      data.headD 0 = kSystemPropertyGet ∧ OnlyDots (cString (data.drop 1)) ∨
        data.headD 0 = kSystemPropertySet ∧
          OnlyDots (cString ((data.drop 1).take PROPERTY_KEY_MAX)) := by
  by_cases hlen : data.length < 2
  · have hdrop : data.drop 1 = [] := List.drop_of_length_le (by omega)
    rw [answer_short stack q data hlen, hdrop]
    simp [OnlyDots, cString]
  · by_cases hget : data.headD 0 = kSystemPropertyGet
    · rw [answer_command_get stack q data hlen hget, hget, Option.map_eq_none_iff,
        readProperty_eq_none_iff, onlyDots_iff]
      simp [kSystemPropertyGet, kSystemPropertySet]
    · by_cases hset : data.headD 0 = kSystemPropertySet
      · rw [answer_command_set stack q data hlen hset, hset, Option.map_eq_none_iff,
          writeProperty_eq_none_iff, onlyDots_iff]
        simp [kSystemPropertyGet, kSystemPropertySet]
      · simp only [hget, hset, false_and, or_false, iff_false]
        simp only [answer, if_neg hlen, if_neg hget, if_neg hset]
        split_ifs <;> simp

/-- Handling a request ends in `last()` on an empty list exactly when the name it carries is
    not empty and has dots only. -/
theorem readRequest_defined_iff (stack : Stack) (q : QSettings) (data : QByteArray)
    (h : data.length ≤ requestSize) :
    readRequest stack q data ≠ none ↔
      ¬ (data.headD 0 = kSystemPropertyGet ∧ OnlyDots (cString (data.drop 1)) ∨
        data.headD 0 = kSystemPropertySet ∧
          OnlyDots (cString ((data.drop 1).take PROPERTY_KEY_MAX))) := by
  rw [readRequest, List.take_of_length_le h, Ne, Option.map_eq_none_iff, answer_eq_none_iff]

theorem readRequest_defined_of_list :
    [3, 46].length ≤ requestSize ∧ readRequest plainStack QSettings.empty [3, 46] ≠ none :=
  ⟨by decide, (readRequest_defined_iff plainStack QSettings.empty [3, 46] (by decide)).mpr
    (by decide)⟩

theorem get_of_dot_undefined :
    [1, 46].length ≤ requestSize ∧ readRequest plainStack QSettings.empty [1, 46] = none :=
  ⟨by decide, rfl⟩

end Shashlik.PropertiesdNames
