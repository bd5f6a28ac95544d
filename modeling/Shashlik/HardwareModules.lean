import Mathlib.Data.Int.Notation
import Mathlib.Data.List.Basic
import Mathlib.Tactic.Common

set_option autoImplicit false

/-!
# The lookup of hardware modules

`hw_get_module_by_class` looks for the library of a hardware module under names that system
properties give. One array takes the value of every lookup, also of those that fail. A
character of a text stands for one byte.
-/
namespace Shashlik.HardwareModules

def PROPERTY_VALUE_MAX : ℕ := 92
def PROPERTY_KEY_MAX : ℕ := 32
def PATH_MAX : ℕ := 4096
def ENOENT : ℤ := 2
def EINVAL : ℤ := 22

/-- How a lookup comes out. A property with the empty value is one that is not set. -/
inductive PropertyAnswer where
  | set (value : String) (nonempty : value ≠ "")
  | unset
  | unreachable

def PropertyAnswer.value : PropertyAnswer → Option String
  | .set value _ => some value
  | _ => none

/-- `hw_module_t`, of which only the id is looked at. -/
structure HwModule where
  id : String
  deriving DecidableEq

structure Library where
  moduleInfo : Option HwModule

structure Environment where
  /-- The library was built with `__LP64__`. -/
  lp64 : Bool
  readable : String → Bool
  /-- `access` refuses longer paths. -/
  short : ∀ path, readable path = true → path.length < PATH_MAX
  libraryPath1 : Option String
  property : String → PropertyAnswer
  dlopen : String → Option Library

def Environment.HAL_LIBRARY_PATH2 (env : Environment) : String :=
  if env.lp64 then "/vendor/lib64/hw" else "/vendor/lib/hw"

/-- `property_get` with a null default: the length, and what the array holds then. -/
def propertyGet (answer : PropertyAnswer) (value : String) : ℤ × String :=
  match answer with
  | .set v _ => (v.length, v)
  | .unset => (0, "")
  | .unreachable => (-1, value)

def snprintf (size : ℕ) (text : String) : String := String.ofList (text.toList.take (size - 1))

def modulePath (directory name subname : String) : String :=
  directory ++ "/" ++ name ++ "." ++ subname ++ ".so"

/-- The path as the array holds it, and the status. -/
def hwModuleExists (env : Environment) (name subname : String) : String × ℤ :=
  let path := snprintf PATH_MAX (modulePath env.HAL_LIBRARY_PATH2 name subname)
  if env.readable path then (path, 0)
  else
    -- printf writes "(null)" for the null pointer of a variable that is not set
    let path := snprintf PATH_MAX (modulePath (env.libraryPath1.getD "(null)") name subname)
    if env.readable path then (path, 0) else (path, -ENOENT)

def load (env : Environment) (id path : String) : ℤ × Option HwModule :=
  match env.dlopen path with
  | none => (-EINVAL, none)
  | some library =>
    match library.moduleInfo with
    | none => (-EINVAL, none)
    | some hmi => if id ≠ hmi.id then (-EINVAL, none) else (0, some hmi)

/-- The subnames tried so far, and the path with which the search has ended. -/
structure Search where
  tried : List String
  found : Option String

def tryModule (env : Environment) (name subname : String) (otherwise : Search) : Search :=
  let checked := hwModuleExists env name subname
  if checked.2 = 0 then ⟨[subname], some checked.1⟩
  else ⟨subname :: otherwise.tried, otherwise.found⟩

def tryDefaults (env : Environment) (name : String) : Search :=
  tryModule env name "shashlik" (tryModule env name "default" ⟨[], none⟩)

def variantKeys : List String := ["ro.hardware", "ro.product.board", "ro.board.platform", "ro.arch"]

/-- The loop over the keys, with what the array `prop` holds. -/
def tryVariants (env : Environment) (name : String) : List String → String → Search
  | [], _ => tryDefaults env name
  | key :: keys, prop =>
    let got := propertyGet (env.property key) prop
    if got.1 = 0 then tryVariants env name keys got.2
    else tryModule env name got.2 (tryVariants env name keys got.2)

def moduleName (classId : String) (inst : Option String) : String :=
  match inst with
  | some inst => classId ++ "." ++ inst
  | none => classId

def propName (name : String) : String := snprintf PROPERTY_KEY_MAX ("ro.hardware." ++ name)

def search (env : Environment) (name prop : String) : Search :=
  let got := propertyGet (env.property (propName name)) prop
  if got.1 > 0 then tryModule env name got.2 (tryVariants env name variantKeys got.2)
  else tryVariants env name variantKeys got.2

structure Outcome where
  search : Search
  status : ℤ
  module : Option HwModule

/-- `prop` is what the array holds before anything is written to it. There is no outcome when
    the name runs over the end of its array. -/
def hwGetModuleByClass (env : Environment) (classId : String) (inst : Option String)
    (prop : String) : Option Outcome :=
  let name := moduleName classId inst
  if name.length ≥ PROPERTY_VALUE_MAX then none
  else
    let search := search env name prop
    match search.found with
    | none => some ⟨search, -ENOENT, none⟩
    | some path =>
      let loaded := load env classId path
      some ⟨search, loaded.1, loaded.2⟩

/-! ### The order of priority -/

def values (env : Environment) (keys : List String) : List String :=
  keys.filterMap (fun key => (env.property key).value)

def defaults : List String := ["shashlik", "default"]

/-- The values of the properties, then the two names that are always tried. -/
def listedValues (env : Environment) (name : String) : List String :=
  values env (("ro.hardware." ++ name) :: variantKeys) ++ defaults

def listedPaths (env : Environment) (name subname : String) : List String :=
  (env.HAL_LIBRARY_PATH2 :: env.libraryPath1.toList).map
    (fun directory => modulePath directory name subname)

def firstListed (env : Environment) (name : String) : Option String :=
  ((listedValues env name).flatMap (listedPaths env name)).find? env.readable

def returnedValues (env : Environment) (name : String) : List String :=
  values env (propName name :: variantKeys) ++ defaults

/-- The outcome is that of the first readable file, and no other value was tried. -/
structure Meets (env : Environment) (classId name : String) (o : Outcome) : Prop where
  tried : ∀ subname ∈ o.search.tried, subname ∈ returnedValues env name
  found : o.search.found = firstListed env name
  loaded : ∀ path, firstListed env name = some path →
    (o.status, o.module) = load env classId path
  absent : firstListed env name = none → o.status = -ENOENT

/-! ### The search -/

def fileOf (env : Environment) (name subname : String) : Option String :=
  if (hwModuleExists env name subname).2 = 0 then some (hwModuleExists env name subname).1 else none

/-- The last of the lookups, the latest one first, that did not fail returned a value. -/
def LastSet : List PropertyAnswer → Prop
  | [] => False
  | .set _ _ :: _ => True
  | .unset :: _ => False
  | .unreachable :: answers => LastSet answers

/-- A lookup of a variant that fails comes after a file has been found, or it leaves a value in
    the array. -/
def BufferAnswered (env : Environment) (name : String) : Prop :=
  ∀ before key after, variantKeys = before ++ key :: after →
    env.property key = .unreachable →
      (∃ value ∈ values env (propName name :: before), fileOf env name value ≠ none) ∨
        LastSet ((propName name :: before).reverse.map env.property)

/-- A path that the search may come to. -/
structure Candidate where
  path : String
  /-- It is of the list: neither the path nor the name of the property was cut, and the variable
      is set. -/
  listed : Bool

def candidate (whole : Bool) (path : String) : Candidate where
  path := snprintf PATH_MAX path
  listed := whole && decide (path.length < PATH_MAX)

def candidatesOf (env : Environment) (name : String) (whole : Bool) (subname : String) :
    List Candidate :=
  [candidate whole (modulePath env.HAL_LIBRARY_PATH2 name subname),
    candidate (whole && env.libraryPath1.isSome)
      (modulePath (env.libraryPath1.getD "(null)") name subname)]

def candidates (env : Environment) (name : String) : List Candidate :=
  (values env [propName name]).flatMap (candidatesOf env name (decide (name.length ≤ 19))) ++
    (values env variantKeys ++ defaults).flatMap (candidatesOf env name true)

/-- A path that is not of the list is not readable, or it comes behind a readable one, or it is
    the path that the list begins with. -/
def StraysHarmless (env : Environment) (name : String) : Prop :=
  ∀ before c after, candidates env name = before ++ c :: after →
    c.listed = false → env.readable c.path = true →
      (∃ c' ∈ before, env.readable c'.path = true) ∨ firstListed env name = some c.path

/-- The readable files that the value of the property itself names. -/
def ownFile (env : Environment) (name : String) : Option String :=
  ((values env ["ro.hardware." ++ name]).flatMap (listedPaths env name)).find? env.readable

/-- If the name of the property is cut, a file that its value names is, all the same, the first
    readable path that the search comes to. -/
def KeyHarmless (env : Environment) (name : String) : Prop :=
  19 < name.length → ∀ path, ownFile env name = some path →
    ∃ before c after, candidates env name = before ++ c :: after ∧ c.path = path ∧
      ∀ c' ∈ before, env.readable c'.path = false

theorem propertyGet_set_pos (value prop : String) (nonempty : value ≠ "") :
    0 < (propertyGet (.set value nonempty) prop).1 := by
  have hne : value.length ≠ 0 := fun hzero => nonempty (String.length_eq_zero_iff.mp hzero)
  change (0 : ℤ) < value.length
  omega

theorem tryVariants_set {env : Environment} {key value : String} {nonempty : value ≠ ""}
    (h : env.property key = .set value nonempty) (name : String) (keys : List String)
    (prop : String) : tryVariants env name (key :: keys) prop =
      tryModule env name value (tryVariants env name keys value) := by
  rw [tryVariants, h]
  exact if_neg (Int.ne_of_gt (propertyGet_set_pos value prop nonempty))

theorem tryVariants_unset {env : Environment} {key : String} (h : env.property key = .unset)
    (name : String) (keys : List String) (prop : String) :
    tryVariants env name (key :: keys) prop = tryVariants env name keys "" := by
  rw [tryVariants, h]
  exact if_pos rfl

theorem tryVariants_unreachable {env : Environment} {key : String}
    (h : env.property key = .unreachable) (name : String) (keys : List String) (prop : String) :
    tryVariants env name (key :: keys) prop =
      tryModule env name prop (tryVariants env name keys prop) := by
  rw [tryVariants, h]
  exact if_neg (show (-1 : ℤ) ≠ 0 by decide)

theorem tryModule_found {env : Environment} {name subname : String}
    (h : fileOf env name subname ≠ none) (otherwise : Search) :
    tryModule env name subname otherwise = ⟨[subname], fileOf env name subname⟩ := by
  unfold fileOf at h ⊢
  unfold tryModule
  split at h
  · rename_i hzero
    rw [if_pos hzero, if_pos hzero]
  · exact absurd rfl h

theorem tryModule_missed {env : Environment} {name subname : String}
    (h : fileOf env name subname = none) (otherwise : Search) :
    tryModule env name subname otherwise = ⟨subname :: otherwise.tried, otherwise.found⟩ := by
  unfold fileOf at h
  unfold tryModule
  split at h
  · exact absurd h (by simp)
  · rename_i hzero
    rw [if_neg hzero]

/-- A search that tries only returned values, and ends with the first file of some of them. -/
structure Finds (env : Environment) (name : String) (subnames : List String) (s : Search) :
    Prop where
  tried : ∀ subname ∈ s.tried, subname ∈ returnedValues env name
  found : s.found = subnames.findSome? (fileOf env name)

theorem Finds.tryModule {env : Environment} {name subname : String} {subnames : List String}
    {otherwise : Search} (hmem : subname ∈ returnedValues env name)
    (h : fileOf env name subname = none → Finds env name subnames otherwise) :
    Finds env name (subname :: subnames) (tryModule env name subname otherwise) := by
  cases hfile : fileOf env name subname with
  | none =>
    obtain ⟨htried, hfound⟩ := h hfile
    rw [tryModule_missed hfile]
    refine ⟨List.forall_mem_cons.mpr ⟨hmem, htried⟩, ?_⟩
    rw [List.findSome?_cons, hfile]
    exact hfound
  | some path =>
    rw [tryModule_found (by simp [hfile])]
    exact ⟨by simpa using hmem, by simp [hfile]⟩

theorem Finds.again {env : Environment} {name subname : String} {subnames : List String}
    {otherwise : Search} (hmem : subname ∈ returnedValues env name)
    (hfile : fileOf env name subname = none) (h : Finds env name subnames otherwise) :
    Finds env name subnames (HardwareModules.tryModule env name subname otherwise) := by
  rw [tryModule_missed hfile]
  exact ⟨List.forall_mem_cons.mpr ⟨hmem, h.tried⟩, h.found⟩

theorem finds_defaults (env : Environment) (name : String) :
    Finds env name defaults (tryDefaults env name) := by
  have hmem : ∀ subname ∈ defaults, subname ∈ returnedValues env name :=
    fun _ h => List.mem_append_right _ h
  refine Finds.tryModule (hmem _ (by simp [defaults])) fun _ => ?_
  exact Finds.tryModule (hmem _ (by simp [defaults])) fun _ => ⟨by simp, rfl⟩

def bufferAfter (prop : String) : List PropertyAnswer → String
  | [] => prop
  | answer :: answers => (propertyGet answer (bufferAfter prop answers)).2

theorem bufferAfter_mem {env : Environment} {asked : List String} (prop : String)
    (h : LastSet (asked.map env.property)) :
    bufferAfter prop (asked.map env.property) ∈ values env asked := by
  induction asked with
  | nil => exact absurd h (by simp [LastSet])
  | cons key asked ih =>
    rw [List.map_cons] at h ⊢
    rw [values, List.filterMap_cons]
    cases hanswer : env.property key with
    | set value nonempty => exact List.mem_cons_self
    | unset =>
      rw [hanswer] at h
      exact absurd h (by simp [LastSet])
    | unreachable =>
      rw [hanswer] at h
      exact ih h

theorem bufferAfter_empty {answers : List PropertyAnswer} (h : ¬ LastSet answers) :
    bufferAfter "" answers = "" := by
  induction answers with
  | nil => rfl
  | cons answer answers ih =>
    cases answer with
    | set value nonempty => exact absurd trivial h
    | unset => rfl
    | unreachable => exact ih h

theorem empty_not_returned (env : Environment) (name : String) :
    "" ∉ returnedValues env name := by
  intro h
  rcases List.mem_append.mp h with hvalue | hdefault
  · obtain ⟨key, -, hkey⟩ := List.mem_filterMap.mp hvalue
    cases hanswer : env.property key with
    | set value nonempty =>
      rw [hanswer] at hkey
      exact nonempty (Option.some.inj hkey)
    | unset => simp [hanswer, PropertyAnswer.value] at hkey
    | unreachable => simp [hanswer, PropertyAnswer.value] at hkey
  · exact absurd hdefault (by decide)

def Answered (env : Environment) (name : String) (asked keys : List String) : Prop :=
  ∀ before key after, keys = before ++ key :: after → env.property key = .unreachable →
    (∃ value ∈ values env before, fileOf env name value ≠ none) ∨
      LastSet ((before.reverse ++ asked).map env.property)

theorem values_cons (env : Environment) (key : String) (keys : List String) :
    values env (key :: keys) = (env.property key).value.toList ++ values env keys := by
  rw [values, List.filterMap_cons]
  cases (env.property key).value with
  | none => rfl
  | some value => rfl

theorem forall_values_cons {env : Environment} {key : String} {keys : List String}
    {P : String → Prop} : (∀ value ∈ values env (key :: keys), P value) ↔
      (∀ value ∈ (env.property key).value, P value) ∧ ∀ value ∈ values env keys, P value := by
  simp only [values_cons, List.mem_append, Option.mem_toList, or_imp, forall_and]
  rfl

def HasFile (env : Environment) (name : String) (keys : List String) : Prop :=
  ∃ value ∈ values env keys, fileOf env name value ≠ none

theorem hasFile_cons (env : Environment) (name key : String) (keys : List String) :
    HasFile env name (key :: keys) ↔
      ¬ (∀ value ∈ (env.property key).value, fileOf env name value = none) ∨
        HasFile env name keys := by
  rw [HasFile, values_cons]
  simp only [List.mem_append, Option.mem_toList, or_and_right, exists_or, HasFile, not_forall,
    exists_prop]
  rfl

theorem answered_behind (env : Environment) (name : String) (asked keys : List String)
    (key : String) :
    (∀ before key' after, keys = before ++ key' :: after → env.property key' = .unreachable →
      HasFile env name (key :: before) ∨
        LastSet ((before.reverse ++ key :: asked).map env.property)) ↔
      ((∀ value ∈ (env.property key).value, fileOf env name value = none) →
        Answered env name (key :: asked) keys) := by
  constructor
  · intro h hmissed before key' after hsplit hunreachable
    refine (h before key' after hsplit hunreachable).imp_left fun hfile => ?_
    exact ((hasFile_cons env name key before).mp hfile).resolve_left (not_not.mpr hmissed)
  · intro h before key' after hsplit hunreachable
    by_cases hmissed : ∀ value ∈ (env.property key).value, fileOf env name value = none
    · refine (h hmissed before key' after hsplit hunreachable).imp_left fun hfile => ?_
      exact (hasFile_cons env name key before).mpr (Or.inr hfile)
    · exact Or.inl ((hasFile_cons env name key before).mpr (Or.inl hmissed))

theorem answered_cons (env : Environment) (name : String) (asked keys : List String)
    (key : String) : Answered env name asked (key :: keys) ↔
      (env.property key = .unreachable → LastSet (asked.map env.property)) ∧
      ((∀ value ∈ (env.property key).value, fileOf env name value = none) →
        Answered env name (key :: asked) keys) := by
  rw [← answered_behind]
  constructor
  · intro h
    constructor
    · intro hunreachable
      exact (h [] key keys rfl hunreachable).resolve_left (by simp [values])
    · intro before key' after hsplit hunreachable
      have hkey := h (key :: before) key' after (by rw [hsplit]; rfl) hunreachable
      rw [List.reverse_cons, List.append_assoc] at hkey
      exact hkey
  · rintro ⟨hfirst, hrest⟩ before key' after hsplit hunreachable
    cases before with
    | nil =>
      obtain ⟨rfl, -⟩ := List.cons.inj hsplit
      exact Or.inr (hfirst hunreachable)
    | cons first before =>
      obtain ⟨rfl, hsplit'⟩ := List.cons.inj hsplit
      rw [List.reverse_cons, List.append_assoc]
      exact hrest before key' after hsplit' hunreachable

theorem bufferAnswered_iff (env : Environment) (name : String) : BufferAnswered env name ↔
    ((∀ value ∈ (env.property (propName name)).value, fileOf env name value = none) →
      Answered env name [propName name] variantKeys) := by
  rw [← answered_behind]
  simp only [BufferAnswered, List.reverse_cons]
  rfl

theorem mem_tryModule (env : Environment) (name subname : String) (otherwise : Search) :
    subname ∈ (tryModule env name subname otherwise).tried := by
  unfold tryModule
  simp only
  split
  · exact List.mem_cons_self
  · exact List.mem_cons_self

theorem mem_returnedValues {env : Environment} {name value : String} (asked : List String)
    (hasked : ∀ key ∈ asked, key ∈ propName name :: variantKeys)
    (h : value ∈ values env asked) : value ∈ returnedValues env name := by
  obtain ⟨key, hkey, hvalue⟩ := List.mem_filterMap.mp h
  exact List.mem_append_left _ (List.mem_filterMap.mpr ⟨key, hasked key hkey, hvalue⟩)

theorem finds_variants (env : Environment) (name prop : String) (asked keys : List String)
    (hkeys : ∀ key ∈ asked ++ keys, key ∈ propName name :: variantKeys)
    (hmissed : ∀ value ∈ values env asked, fileOf env name value = none)
    (h : Answered env name asked keys) :
    Finds env name (values env keys ++ defaults)
      (tryVariants env name keys (bufferAfter prop (asked.map env.property))) := by
  induction keys generalizing asked with
  | nil => exact finds_defaults env name
  | cons key keys ih =>
    obtain ⟨hfirst, hrest⟩ := (answered_cons env name asked keys key).mp h
    have hkeys' : ∀ key' ∈ (key :: asked) ++ keys, key' ∈ propName name :: variantKeys := by
      intro key' hkey'
      refine hkeys key' ?_
      simp only [List.cons_append, List.mem_cons, List.mem_append] at hkey' ⊢
      tauto
    have hnext : (∀ value ∈ (env.property key).value, fileOf env name value = none) →
        Finds env name (values env keys ++ defaults) (tryVariants env name keys
          (bufferAfter prop ((key :: asked).map env.property))) := by
      intro hvalue
      exact ih (key :: asked) hkeys' (forall_values_cons.mpr ⟨hvalue, hmissed⟩) (hrest hvalue)
    rw [values_cons]
    rw [List.map_cons, bufferAfter] at hnext
    cases hanswer : env.property key with
    | set value nonempty =>
      rw [hanswer] at hnext
      have hmem : value ∈ returnedValues env name := by
        refine mem_returnedValues [key] (by simpa using hkeys key (by simp)) ?_
        simp [values, hanswer, PropertyAnswer.value]
      rw [tryVariants_set hanswer]
      exact Finds.tryModule hmem fun hfile => hnext (by
        simpa [PropertyAnswer.value] using hfile)
    | unset =>
      rw [hanswer] at hnext
      rw [tryVariants_unset hanswer]
      exact hnext (by simp [PropertyAnswer.value])
    | unreachable =>
      rw [hanswer] at hnext
      have hbuffer := bufferAfter_mem prop (hfirst hanswer)
      rw [tryVariants_unreachable hanswer]
      refine Finds.again (mem_returnedValues asked ?_ hbuffer) (hmissed _ hbuffer)
        (hnext (by simp [PropertyAnswer.value]))
      exact fun key' hkey' => hkeys key' (List.mem_append_left _ hkey')

theorem answered_of_tried (env : Environment) (name : String) (asked keys : List String)
    (hmissed : ∀ value ∈ values env asked, fileOf env name value = none)
    (h : ∀ subname ∈ (tryVariants env name keys
      (bufferAfter "" (asked.map env.property))).tried, subname ∈ returnedValues env name) :
    Answered env name asked keys := by
  induction keys generalizing asked with
  | nil => exact fun before key after hsplit => by simp at hsplit
  | cons key keys ih =>
    rw [answered_cons]
    have hnext : (∀ value ∈ (env.property key).value, fileOf env name value = none) →
        (∀ subname ∈ (tryVariants env name keys
          (bufferAfter "" ((key :: asked).map env.property))).tried,
            subname ∈ returnedValues env name) → Answered env name (key :: asked) keys := by
      intro hvalue
      exact ih (key :: asked) (forall_values_cons.mpr ⟨hvalue, hmissed⟩)
    rw [List.map_cons, bufferAfter] at hnext
    cases hanswer : env.property key with
    | set value nonempty =>
      rw [hanswer] at hnext
      refine ⟨fun hunreachable => by simp at hunreachable, fun hvalue => hnext hvalue ?_⟩
      rw [tryVariants_set hanswer, tryModule_missed (hvalue value rfl)] at h
      exact fun subname hsubname => h subname (List.mem_cons_of_mem _ hsubname)
    | unset =>
      rw [hanswer] at hnext
      rw [tryVariants_unset hanswer] at h
      exact ⟨fun hunreachable => by simp at hunreachable, fun hvalue => hnext hvalue h⟩
    | unreachable =>
      rw [hanswer] at hnext
      rw [tryVariants_unreachable hanswer] at h
      have hlast : LastSet (asked.map env.property) := by
        by_contra hnot
        have htried := h _ (mem_tryModule env name _ _)
        rw [bufferAfter_empty hnot] at htried
        exact empty_not_returned env name htried
      refine ⟨fun _ => hlast, fun hvalue => hnext hvalue ?_⟩
      rw [tryModule_missed (hmissed _ (bufferAfter_mem _ hlast))] at h
      exact fun subname hsubname => h subname (List.mem_cons_of_mem _ hsubname)

/-! ### The whole lookup -/

theorem search_set {env : Environment} {name value : String} {nonempty : value ≠ ""}
    (h : env.property (propName name) = .set value nonempty) (prop : String) :
    search env name prop =
      tryModule env name value (tryVariants env name variantKeys value) := by
  rw [search, h]
  exact if_pos (propertyGet_set_pos value prop nonempty)

theorem search_not_set {env : Environment} {name : String}
    (h : (env.property (propName name)).value = none) (prop : String) :
    search env name prop = tryVariants env name variantKeys
      (propertyGet (env.property (propName name)) prop).2 := by
  rw [search]
  refine if_neg ?_
  cases hanswer : env.property (propName name) with
  | set value nonempty =>
    rw [hanswer] at h
    exact absurd h (by simp [PropertyAnswer.value])
  | unset => exact (by decide : ¬ (0 : ℤ) > 0)
  | unreachable => exact (by decide : ¬ (-1 : ℤ) > 0)

theorem finds_search {env : Environment} {name : String} (h : BufferAnswered env name)
    (prop : String) : Finds env name (returnedValues env name) (search env name prop) := by
  rw [bufferAnswered_iff] at h
  have hrest : (∀ value ∈ (env.property (propName name)).value,
      fileOf env name value = none) → Finds env name (values env variantKeys ++ defaults)
        (tryVariants env name variantKeys
          (propertyGet (env.property (propName name)) prop).2) := by
    intro hmissed
    exact finds_variants env name prop [propName name] variantKeys (fun _ hkey => hkey)
      (forall_values_cons.mpr ⟨hmissed, by simp [values]⟩) (h hmissed)
  rw [returnedValues, values_cons]
  cases hanswer : env.property (propName name) with
  | set value nonempty =>
    rw [hanswer] at hrest
    rw [search_set hanswer]
    refine Finds.tryModule ?_ fun hfile => hrest (by simpa [PropertyAnswer.value] using hfile)
    exact mem_returnedValues [propName name] (by simp)
      (by simp [values, hanswer, PropertyAnswer.value])
  | unset =>
    rw [search_not_set (by rw [hanswer]; rfl)]
    exact hrest (by simp [hanswer, PropertyAnswer.value])
  | unreachable =>
    rw [search_not_set (by rw [hanswer]; rfl)]
    exact hrest (by simp [hanswer, PropertyAnswer.value])

theorem bufferAnswered_of_tried {env : Environment} {name : String}
    (h : ∀ subname ∈ (search env name "").tried, subname ∈ returnedValues env name) :
    BufferAnswered env name := by
  rw [bufferAnswered_iff]
  intro hmissed
  refine answered_of_tried env name [propName name] variantKeys ?_ fun subname hsubname => ?_
  · exact forall_values_cons.mpr ⟨hmissed, by simp [values]⟩
  · refine h subname ?_
    cases hanswer : env.property (propName name) with
    | set value nonempty =>
      rw [hanswer] at hmissed
      rw [search_set hanswer, tryModule_missed (hmissed value rfl)]
      rw [List.map_cons, hanswer] at hsubname
      exact List.mem_cons_of_mem _ hsubname
    | unset =>
      rw [search_not_set (by rw [hanswer]; rfl)]
      exact hsubname
    | unreachable =>
      rw [search_not_set (by rw [hanswer]; rfl)]
      exact hsubname

theorem snprintf_of_short {size : ℕ} {text : String} (h : text.length < size) :
    snprintf size text = text := by
  have hle : text.toList.length ≤ size - 1 := by
    rw [String.length_toList]
    omega
  rw [snprintf, List.take_of_length_le hle, String.ofList_toList]

theorem propName_of_short {name : String} (h : name.length ≤ 19) :
    propName name = "ro.hardware." ++ name := by
  refine snprintf_of_short ?_
  have hprefix : "ro.hardware.".length = 12 := by decide
  rw [String.length_append, hprefix, PROPERTY_KEY_MAX]
  omega

theorem find_candidatesOf (env : Environment) (name : String) (whole : Bool)
    (subname : String) :
    ((candidatesOf env name whole subname).find? (fun c => env.readable c.path)).map
      Candidate.path = fileOf env name subname := by
  simp only [candidatesOf, candidate, fileOf, hwModuleExists]
  cases hvendor : env.readable
    (snprintf PATH_MAX (modulePath env.HAL_LIBRARY_PATH2 name subname)) with
  | true => simp [hvendor]
  | false =>
    cases hpath1 : env.readable
      (snprintf PATH_MAX (modulePath (env.libraryPath1.getD "(null)") name subname)) with
    | true => simp [hvendor, hpath1]
    | false => simp [hvendor, hpath1, ENOENT]

theorem first_candidate (env : Environment) (name : String) :
    (returnedValues env name).findSome? (fileOf env name) =
      ((candidates env name).find? (fun c => env.readable c.path)).map Candidate.path := by
  have hblock : ∀ (whole : Bool) (subnames : List String),
      ((subnames.flatMap (candidatesOf env name whole)).find?
        (fun c => env.readable c.path)).map Candidate.path =
        subnames.findSome? (fileOf env name) := by
    intro whole subnames
    induction subnames with
    | nil => rfl
    | cons subname subnames ih =>
      rw [List.flatMap_cons, List.find?_append, Option.map_or, find_candidatesOf, ih,
        List.findSome?_cons]
      cases fileOf env name subname <;> rfl
  have hvalues : returnedValues env name =
      values env [propName name] ++ (values env variantKeys ++ defaults) := by
    rw [returnedValues, ← List.append_assoc, values, values, values, ← List.filterMap_append]
    rfl
  rw [candidates, List.find?_append, Option.map_or, hblock, hblock, hvalues,
    List.findSome?_append]

theorem find_listed_candidate (env : Environment) (whole : Bool) (path : String) :
    (([candidate whole path].filter Candidate.listed).find?
      (fun c => env.readable c.path)).map Candidate.path =
      (if whole then [path] else []).find? env.readable := by
  cases whole with
  | false => rfl
  | true =>
    by_cases hshort : path.length < PATH_MAX
    · cases hreadable : env.readable path <;>
        simp [candidate, hshort, hreadable, snprintf_of_short hshort]
    · have hcut : env.readable path = false := by
        rw [← Bool.not_eq_true]
        exact fun hreadable => hshort (env.short path hreadable)
      simp [candidate, hshort, hcut]

theorem find_listed_candidatesOf (env : Environment) (name subname : String) :
    (((candidatesOf env name true subname).filter Candidate.listed).find?
      (fun c => env.readable c.path)).map Candidate.path =
      (listedPaths env name subname).find? env.readable := by
  have hlisted : listedPaths env name subname =
      (if true then [modulePath env.HAL_LIBRARY_PATH2 name subname] else []) ++
        (if env.libraryPath1.isSome then
          [modulePath (env.libraryPath1.getD "(null)") name subname] else []) := by
    unfold listedPaths
    cases env.libraryPath1 <;> rfl
  rw [hlisted, List.find?_append, ← find_listed_candidate, ← find_listed_candidate,
    ← Option.map_or, ← List.find?_append, ← List.filter_append]
  rfl

theorem find_listed (env : Environment) (name : String) (subnames : List String) :
    (((subnames.flatMap (candidatesOf env name true)).filter Candidate.listed).find?
      (fun c => env.readable c.path)).map Candidate.path =
      (subnames.flatMap (listedPaths env name)).find? env.readable := by
  induction subnames with
  | nil => rfl
  | cons subname subnames ih =>
    rw [List.flatMap_cons, List.filter_append, List.find?_append, Option.map_or,
      find_listed_candidatesOf, ih, List.flatMap_cons, List.find?_append]

theorem firstListed_eq {env : Environment} {name : String}
    (h : 19 < name.length → ownFile env name = none) :
    firstListed env name = (((candidates env name).filter Candidate.listed).find?
      (fun c => env.readable c.path)).map Candidate.path := by
  have hsplit : firstListed env name = (ownFile env name).or
      (((values env variantKeys ++ defaults).flatMap (listedPaths env name)).find?
        env.readable) := by
    rw [firstListed, listedValues, ownFile, ← List.find?_append, ← List.flatMap_append,
      ← List.append_assoc, values, values, values, ← List.filterMap_append]
    rfl
  rw [hsplit, candidates, List.filter_append, List.find?_append, Option.map_or, find_listed]
  refine congrArg (Option.or · _) ?_
  by_cases hname : name.length ≤ 19
  · rw [decide_eq_true hname, find_listed, propName_of_short hname]
    rfl
  · rw [h (Nat.not_le.mp hname), decide_eq_false hname]
    induction values env [propName name] with
    | nil => rfl
    | cons value values ih =>
      rw [List.flatMap_cons, List.filter_append, List.find?_append, Option.map_or, ← ih]
      rfl

theorem firstListed_of_ownFile {env : Environment} {name path : String}
    (h : ownFile env name = some path) : firstListed env name = some path := by
  rw [firstListed, listedValues, ← List.singleton_append, values, List.filterMap_append,
    List.append_assoc, List.flatMap_append, List.find?_append]
  exact congrArg (Option.or · _) h

theorem first_of_straysHarmless {env : Environment} {name : String}
    (hown : 19 < name.length → ownFile env name = none) (h : StraysHarmless env name) :
    ((candidates env name).find? (fun c => env.readable c.path)).map Candidate.path =
      firstListed env name := by
  have hlist := firstListed_eq hown
  cases hfind : (candidates env name).find? (fun c => env.readable c.path) with
  | none =>
    have hnone : ((candidates env name).filter Candidate.listed).find?
        (fun c => env.readable c.path) = none := by
      rw [List.find?_eq_none] at hfind ⊢
      exact fun c hc => hfind c (List.mem_filter.mp hc).1
    rw [hlist, hnone]
  | some c =>
    obtain ⟨hreadable, before, after, hsplit, hbefore⟩ :=
      List.find?_eq_some_iff_append.mp hfind
    cases hlisted : c.listed with
    | true =>
      have hfirst : ((candidates env name).filter Candidate.listed).find?
          (fun c => env.readable c.path) = some c := by
        refine List.find?_eq_some_iff_append.mpr ⟨hreadable,
          before.filter Candidate.listed, after.filter Candidate.listed, ?_, ?_⟩
        · rw [hsplit, List.filter_append, List.filter_cons_of_pos hlisted]
        · exact fun c' hc' => hbefore c' (List.mem_filter.mp hc').1
      rw [hlist, hfirst]
    | false =>
      rcases h before c after hsplit hlisted hreadable with ⟨c', hc', hread⟩ | hdue
      · have hnot := hbefore c' hc'
        rw [hread] at hnot
        exact absurd hnot (by simp)
      · rw [hdue]
        rfl

theorem find_candidate {env : Environment} {name : String} {before after : List Candidate}
    {c : Candidate} (hsplit : candidates env name = before ++ c :: after)
    (hreadable : env.readable c.path = true)
    (hbefore : ∀ c' ∈ before, env.readable c'.path = false) :
    (candidates env name).find? (fun c => env.readable c.path) = some c :=
  List.find?_eq_some_iff_append.mpr ⟨hreadable, before, after, hsplit,
    fun c' hc' => by simpa using hbefore c' hc'⟩

theorem first_iff (env : Environment) (name : String) :
    (returnedValues env name).findSome? (fileOf env name) = firstListed env name ↔
      StraysHarmless env name ∧ KeyHarmless env name := by
  rw [first_candidate]
  constructor
  · intro hfirst
    constructor
    · intro before c after hsplit _ hreadable
      rw [or_iff_not_imp_left]
      intro hnot
      simp only [not_exists, not_and, Bool.not_eq_true] at hnot
      rw [← hfirst, find_candidate hsplit hreadable hnot]
      rfl
    · intro _ path hpath
      rw [firstListed_of_ownFile hpath] at hfirst
      obtain ⟨c, hc, hcpath⟩ := Option.map_eq_some_iff.mp hfirst
      obtain ⟨_, before, after, hsplit, hbefore⟩ := List.find?_eq_some_iff_append.mp hc
      exact ⟨before, c, after, hsplit, hcpath, fun c' hc' => by simpa using hbefore c' hc'⟩
  · rintro ⟨hstrays, hkey⟩
    by_cases hcut : 19 < name.length → ownFile env name = none
    · exact first_of_straysHarmless hcut hstrays
    · rw [Classical.not_imp] at hcut
      obtain ⟨path, hpath⟩ := Option.ne_none_iff_exists'.mp hcut.2
      obtain ⟨before, c, after, hsplit, rfl, hbefore⟩ := hkey hcut.1 path hpath
      rw [firstListed_of_ownFile hpath, find_candidate hsplit (List.find?_some hpath) hbefore]
      rfl

theorem hwGetModuleByClass_of_fits (env : Environment) {classId : String} {inst : Option String}
    (h : (moduleName classId inst).length < PROPERTY_VALUE_MAX) (prop : String) :
    ∃ o, hwGetModuleByClass env classId inst prop = some o ∧
      o.search = search env (moduleName classId inst) prop ∧
      (∀ path, o.search.found = some path → (o.status, o.module) = load env classId path) ∧
        (o.search.found = none → o.status = -ENOENT) := by
  rw [hwGetModuleByClass]
  simp only
  rw [if_neg (Nat.not_le.mpr h)]
  cases hfound : (search env (moduleName classId inst) prop).found with
  | none => exact ⟨_, rfl, rfl, fun path hpath => by simp [hfound] at hpath, fun _ => rfl⟩
  | some path =>
    refine ⟨_, rfl, rfl, fun path' hpath' => ?_, fun hnone => by simp [hfound] at hnone⟩
    obtain rfl := Option.some.inj (hfound.symm.trans hpath')
    rfl

/-- Whatever the array held at first, the lookup loads the first readable file of the list and
    tries no other value, exactly if the name fits its array, every variant that cannot be
    looked up comes after a file or a value, and no path that is not of the list, and no cut in
    the name of the property, comes between. -/
theorem first_readable_iff (env : Environment) (classId : String) (inst : Option String) :
    (∀ prop, ∃ o, hwGetModuleByClass env classId inst prop = some o ∧
      Meets env classId (moduleName classId inst) o) ↔
    (moduleName classId inst).length < PROPERTY_VALUE_MAX ∧
      BufferAnswered env (moduleName classId inst) ∧
        StraysHarmless env (moduleName classId inst) ∧
          KeyHarmless env (moduleName classId inst) := by
  constructor
  · intro h
    have hfits : (moduleName classId inst).length < PROPERTY_VALUE_MAX := by
      obtain ⟨o, ho, -⟩ := h ""
      by_contra hlong
      rw [hwGetModuleByClass] at ho
      simp only at ho
      rw [if_pos (Nat.not_lt.mp hlong)] at ho
      exact absurd ho (by simp)
    obtain ⟨o, ho, hmeets⟩ := h ""
    obtain ⟨o', ho', hsearch, -, -⟩ := hwGetModuleByClass_of_fits env hfits ""
    obtain rfl := Option.some.inj (ho.symm.trans ho')
    have htried := hmeets.tried
    have hfound := hmeets.found
    rw [hsearch] at htried hfound
    have hbuffer := bufferAnswered_of_tried htried
    exact ⟨hfits, hbuffer, (first_iff _ _).mp ((finds_search hbuffer "").found.symm.trans hfound)⟩
  · rintro ⟨hfits, hbuffer, hcuts⟩ prop
    obtain ⟨o, ho, hsearch, hloaded, habsent⟩ :=
      hwGetModuleByClass_of_fits env hfits prop
    obtain ⟨htried, hfound⟩ := finds_search hbuffer prop
    rw [(first_iff _ _).mpr hcuts, ← hsearch] at hfound
    rw [← hsearch] at htried
    refine ⟨o, ho, htried, hfound, fun path hpath => ?_, fun hnone => ?_⟩
    · exact hloaded path (hfound.trans hpath)
    · exact habsent (hfound.trans hnone)

def noServer : Environment where
  lp64 := false
  readable path :=
    path = "/vendor/lib/hw/gralloc.default.so" ∨ path = "/vendor/lib/hw/gralloc.msm7k.so"
  short path h := by
    rw [decide_eq_true_eq] at h
    rcases h with rfl | rfl <;> decide
  libraryPath1 := some "/system/lib/hw"
  property _ := .unreachable
  dlopen _ := some ⟨some ⟨"gralloc"⟩⟩

theorem stale_value_loaded :
    (search noServer "gralloc" "msm7k").found = some "/vendor/lib/hw/gralloc.msm7k.so" ∧
      firstListed noServer "gralloc" = some "/vendor/lib/hw/gralloc.default.so" ∧
        ¬ ∀ prop, ∃ o, hwGetModuleByClass noServer "gralloc" none prop = some o ∧
          Meets noServer "gralloc" (moduleName "gralloc" none) o := by
  have hstale : (search noServer "gralloc" "msm7k").found =
      some "/vendor/lib/hw/gralloc.msm7k.so" := by decide +kernel
  have hlisted : firstListed noServer "gralloc" = some "/vendor/lib/hw/gralloc.default.so" := by
    decide +kernel
  refine ⟨hstale, hlisted, fun h => ?_⟩
  obtain ⟨o, ho, hmeets⟩ := h "msm7k"
  have hfits : (moduleName "gralloc" none).length < PROPERTY_VALUE_MAX := by decide
  obtain ⟨o', ho', hsearch, -, -⟩ := hwGetModuleByClass_of_fits noServer hfits "msm7k"
  obtain rfl := Option.some.inj (ho.symm.trans ho')
  have hfound := hmeets.found
  rw [hsearch] at hfound
  exact absurd (hstale.symm.trans (hfound.trans hlisted)) (by decide)

end Shashlik.HardwareModules
