import Shashlik.LauncherVmOptions

set_option autoImplicit false

/-!
# Parts with arrays of their own

The parts of `startVm` write to arrays of their own and to one that all of them use, in which no
option lies. The options that a part has added are therefore read in the end as it left them.
-/
namespace Shashlik.LauncherVmOptions
open LauncherArguments NamedArrays NamedArrays.Arrays

def valueOr (properties : Properties) (key defaultValue : String) : List Char :=
  match properties key with
  | some value => if value.text.chars = [] then defaultValue.toList else value.text.chars
  | none => defaultValue.toList

def Short (text : String) : Prop := nul ∉ text.toList ∧ text.toList.length < PROPERTY_VALUE_MAX

instance (text : String) : Decidable (Short text) := inferInstanceAs (Decidable (_ ∧ _))

theorem short_empty : Short "" := by decide

theorem valueOr_short (properties : Properties) (key : String) {defaultValue : String}
    (h : Short defaultValue) : nul ∉ valueOr properties key defaultValue ∧
      (valueOr properties key defaultValue).length < PROPERTY_VALUE_MAX := by
  unfold valueOr
  cases properties key with
  | none => exact h
  | some value =>
    dsimp only
    split
    · exact h
    · exact ⟨value.text.ended, value.short⟩

/-! ### Functions of the C library -/

section
variable {l : Locals} {a : CharArray} {size : ℕ} {t v : List Char}

theorem strcpy_sized (h : Sized l.arrays a size) (ht : nul ∉ t) (hfits : t.length + 1 ≤ size) :
    ∃ s, strcpy a 0 t l = some { l with arrays := s } ∧ Holds nul s a size t ∧
      AgreeOff [a] l.arrays s := by
  obtain ⟨s, hwrite, hholds, hagree⟩ := h.write ht hfits
  refine ⟨s, ?_, hholds, hagree⟩
  rw [strcpy, hwrite]
  rfl

theorem strcpy_holds (h : Holds nul l.arrays a size t) {i : ℕ} (hi : i ≤ t.length)
    (hv : nul ∉ v) (hfits : i + (v.length + 1) ≤ size) :
    ∃ s, strcpy a i v l = some { l with arrays := s } ∧ Holds nul s a size (t.take i ++ v) ∧
      AgreeOff [a] l.arrays s := by
  obtain ⟨s, hwrite, hholds, hagree⟩ := h.write hi hv hfits
  refine ⟨s, ?_, hholds, hagree⟩
  rw [strcpy, hwrite]
  rfl

theorem strcat_holds (h : Holds nul l.arrays a size t) (hv : nul ∉ v)
    (hfits : t.length + (v.length + 1) ≤ size) :
    ∃ s, strcat a v l = some { l with arrays := s } ∧ Holds nul s a size (t ++ v) ∧
      AgreeOff [a] l.arrays s := by
  obtain ⟨s, hstrcpy, hholds, hagree⟩ := strcpy_holds h (Nat.le_refl _) hv hfits
  refine ⟨s, ?_, by rwa [List.take_length] at hholds, hagree⟩
  rw [strcat, Locals.text, h.text (Nat.zero_le _)]
  exact hstrcpy

theorem propertyGet_some (properties : Properties) (key : String) (h : Sized l.arrays a size)
    {i : ℕ} (hroom : i + PROPERTY_VALUE_MAX ≤ size) (defaultValue : String) :
    propertyGet properties key a i (some defaultValue) l =
      strcpy a i (valueOr properties key defaultValue) l := by
  obtain ⟨cells, hcells, rfl⟩ := h
  unfold propertyGet valueOr
  rw [hcells]
  cases properties key with
  | none => exact if_neg (by omega)
  | some value =>
    refine (if_neg (by omega)).trans ?_
    dsimp only
    split
    · rfl
    · rfl

theorem propertyGet_sized (properties : Properties) (key : String) (h : Sized l.arrays a size)
    (hroom : PROPERTY_VALUE_MAX ≤ size) {defaultValue : String} (hshort : Short defaultValue) :
    ∃ s, propertyGet properties key a 0 (some defaultValue) l = some { l with arrays := s } ∧
      Holds nul s a size (valueOr properties key defaultValue) ∧ AgreeOff [a] l.arrays s := by
  obtain ⟨hnul, hlength⟩ := valueOr_short properties key hshort
  rw [propertyGet_some properties key h (by omega)]
  exact strcpy_sized h hnul (by omega)

theorem namedValue_sized (properties : Properties) (key : String) (h : Sized l.arrays a size)
    {name : String} (hname : nul ∉ name.toList)
    (hroom : name.toList.length + PROPERTY_VALUE_MAX ≤ size) {defaultValue : Option String}
    (hshort : Short (defaultValue.getD "")) :
    ∃ s, namedValue properties a name key name.toList.length defaultValue l =
        some { l with arrays := s } ∧
      Holds nul s a size (name.toList ++ valueOr properties key (defaultValue.getD "")) ∧
      AgreeOff [a] l.arrays s := by
  obtain ⟨hnul, hlength⟩ := valueOr_short properties key hshort
  have hmax : 0 < PROPERTY_VALUE_MAX := by decide
  obtain ⟨s, hstrcpy, hholds, hagree⟩ := strcpy_sized h hname (by omega)
  obtain ⟨s', hvalue, hholds', hagree'⟩ := strcpy_holds (l := { l with arrays := s }) hholds
    (Nat.le_refl _) hnul (by omega)
  rw [List.take_length] at hholds'
  cases defaultValue with
  | some defaultValue =>
    refine ⟨s', ?_, hholds', hagree.trans hagree'⟩
    rw [namedValue, hstrcpy]
    exact (propertyGet_some properties key hholds.sized (by omega) _).trans hvalue
  | none =>
    obtain ⟨cells, hcells, hsize⟩ := hholds.sized
    cases hanswer : properties key with
    | none =>
      -- a null default leaves the end of the name
      refine ⟨s, ?_, ?_, hagree⟩
      · rw [namedValue, hstrcpy]
        simp only [Option.bind_eq_bind, Option.bind_some, propertyGet, hcells, hanswer]
        exact if_neg (by omega)
      · rw [valueOr, hanswer]
        change Holds nul s a size (name.toList ++ [])
        rwa [List.append_nil]
    | some value =>
      refine ⟨s', ?_, hholds', hagree.trans hagree'⟩
      rw [← hvalue, namedValue, hstrcpy, valueOr, hanswer]
      simp only [Option.bind_eq_bind, Option.bind_some, propertyGet, hcells, hanswer]
      rw [if_neg (by omega)]
      split
      · rfl
      · rfl

end

/-! ### Stages -/

/-- A part of `startVm`, the arrays in which its options lie, and the options. -/
structure Stage where
  part : Locals → Option Locals
  own : List CharArray
  new : List VmOption

/-- How the part goes on from some variables, with the vector's new pointers. -/
structure Adds (st : Stage) (l : Locals) (s : Arrays CharArray Char) (added : List JavaVMOption) :
    Prop where
  part : st.part l = some { l with arrays := s, mOptions := l.mOptions ++ added }
  agree : AgreeOff (.propBuf :: st.own) l.arrays s
  scratch : Sized s .propBuf PROPERTY_VALUE_MAX
  lies : ∀ opt ∈ added, ∀ a i, opt.optionString = .array a i → a ∈ st.own
  read : added.map (JavaVMOption.read s) = st.new

def Locals.flags (l : Locals) : Bool × Bool × Bool × ExecutionMode :=
  (l.checkJni, l.checkDexSum, l.logStdio, l.executionMode)

def Stage.Meets (l₀ : Locals) (st : Stage) : Prop :=
  ∀ l : Locals, l.flags = l₀.flags → Sized l.arrays .propBuf PROPERTY_VALUE_MAX →
    (∀ a ∈ st.own, l.arrays a = l₀.arrays a) → ∃ s added, Adds st l s added

theorem JavaVMOption.read_congr {own : List CharArray} {s s' : Arrays CharArray Char}
    (h : AgreeOff own s s') (opt : JavaVMOption)
    (hlies : ∀ a i, opt.optionString = .array a i → a ∉ own) : opt.read s' = opt.read s := by
  unfold JavaVMOption.read string
  cases hstring : opt.optionString with
  | argument arg => rfl
  | literal text => rfl
  | array a i =>
    dsimp only
    rw [Arrays.text, h a (hlies a i hstring)]
    rfl

theorem runParts_stages {l₀ : Locals} (stages : List Stage) (hmeets : ∀ st ∈ stages, st.Meets l₀)
    (hnodup : (CharArray.propBuf :: stages.flatMap Stage.own).Nodup) (l : Locals)
    (hflags : l.flags = l₀.flags) (hsized : Sized l.arrays .propBuf PROPERTY_VALUE_MAX)
    (harrays : ∀ a ∈ stages.flatMap Stage.own, l.arrays a = l₀.arrays a)
    (hlies : ∀ opt ∈ l.mOptions, ∀ a i, opt.optionString = .array a i →
      a ∉ CharArray.propBuf :: stages.flatMap Stage.own) :
    ∃ l', runParts (stages.map Stage.part) l = some l' ∧
      l'.read = l.read ++ stages.flatMap Stage.new := by
  induction stages generalizing l with
  | nil => exact ⟨l, rfl, (List.append_nil _).symm⟩
  | cons st stages ih =>
    rw [List.flatMap_cons] at hnodup harrays hlies
    obtain ⟨hscratch, hown⟩ := List.nodup_cons.mp hnodup
    obtain ⟨-, hrest, hdisjoint⟩ := List.nodup_append.mp hown
    rw [List.mem_append, not_or] at hscratch
    obtain ⟨s, added, hadds⟩ := hmeets st List.mem_cons_self l hflags hsized
      fun a ha => harrays a (List.mem_append_left _ ha)
    have hkept (a : CharArray) (ha : a ∈ stages.flatMap Stage.own) : s a = l.arrays a := by
      refine hadds.agree a fun hmem => ?_
      obtain rfl | hmem := List.mem_cons.mp hmem
      · exact hscratch.2 ha
      · exact hdisjoint a hmem a ha rfl
    obtain ⟨l', hrun, hread⟩ := ih (fun st' hst' => hmeets st' (List.mem_cons_of_mem _ hst'))
      (List.nodup_cons.mpr ⟨hscratch.2, hrest⟩)
      { l with arrays := s, mOptions := l.mOptions ++ added } hflags hadds.scratch
      (fun a ha => (hkept a ha).trans (harrays a (List.mem_append_right _ ha))) (by
        intro opt hopt a i hstring hmem
        obtain hopt | hopt := List.mem_append.mp hopt
        · refine hlies opt hopt a i hstring ?_
          rw [List.mem_cons] at hmem ⊢
          exact hmem.imp_right (List.mem_append_right _)
        · have ha := hadds.lies opt hopt a i hstring
          obtain rfl | hmem := List.mem_cons.mp hmem
          · exact hscratch.1 ha
          · exact hdisjoint a ha a hmem rfl)
    refine ⟨l', ?_, ?_⟩
    · rw [List.map_cons, runParts, List.foldlM_cons, hadds.part]
      exact hrun
    · rw [hread, List.flatMap_cons, ← List.append_assoc]
      congr 1
      rw [Locals.read, List.map_append, hadds.read]
      congr 1
      refine List.map_congr_left fun opt hopt => ?_
      refine opt.read_congr hadds.agree fun a i hstring hmem => hlies opt hopt a i hstring ?_
      rw [List.mem_cons] at hmem ⊢
      exact hmem.imp_right (List.mem_append_left _)

/-! ### Options of one kind -/

def plain (text : List Char) : VmOption := { text := some text }

def literalPointers (texts : List String) : List JavaVMOption :=
  texts.map fun text => ⟨.literal text, none⟩

def literals (texts : List String) : List VmOption := texts.map fun text => plain text.toList

def optional (name : String) (value : List Char) : List VmOption :=
  if value = [] then [] else [plain (name.toList ++ value)]

section
variable {st : Stage} {l : Locals} {s : Arrays CharArray Char}

theorem adds_nothing (hpart : st.part l = some { l with arrays := s })
    (hagree : AgreeOff (.propBuf :: st.own) l.arrays s)
    (hscratch : Sized s .propBuf PROPERTY_VALUE_MAX) (hnew : st.new = []) : Adds st l s [] where
  part := by rwa [List.append_nil]
  agree := hagree
  scratch := hscratch
  lies := by simp
  read := hnew.symm

theorem adds_literals (texts : List String)
    (hpart : st.part l = some { l with
      arrays := s, mOptions := l.mOptions ++ literalPointers texts })
    (hagree : AgreeOff (.propBuf :: st.own) l.arrays s)
    (hscratch : Sized s .propBuf PROPERTY_VALUE_MAX) (hnew : st.new = literals texts) :
    Adds st l s (literalPointers texts) where
  part := hpart
  agree := hagree
  scratch := hscratch
  lies := by
    intro opt hopt a i hstring
    obtain ⟨text, -, rfl⟩ := List.mem_map.mp hopt
    cases hstring
  read := by
    rw [hnew, literalPointers, List.map_map]
    rfl

theorem adds_array {a : CharArray} {size : ℕ} {t : List Char}
    (hpart : st.part l = some (Locals.add { l with arrays := s } (.array a 0)))
    (hagree : AgreeOff (.propBuf :: st.own) l.arrays s)
    (hscratch : Sized s .propBuf PROPERTY_VALUE_MAX) (ha : a ∈ st.own)
    (hholds : Holds nul s a size t) (hnew : st.new = [plain t]) :
    Adds st l s [⟨.array a 0, none⟩] where
  part := hpart
  agree := hagree
  scratch := hscratch
  lies := by
    intro opt hopt a' i hstring
    rw [List.mem_singleton.mp hopt] at hstring
    cases hstring
    exact ha
  read := by
    rw [hnew, List.map_singleton, JavaVMOption.read, string, hholds.text (Nat.zero_le _)]
    rfl

end

theorem meets_literals {l₀ : Locals} {part : Locals → Option Locals} (texts : List String)
    (hpart : ∀ l : Locals, l.flags = l₀.flags → part l = some { l with
      mOptions := l.mOptions ++ literalPointers texts }) :
    Stage.Meets l₀ ⟨part, [], literals texts⟩ := by
  intro l hflags hsized _
  exact ⟨l.arrays, _, adds_literals texts (hpart l hflags) (AgreeOff.refl _ _) hsized rfl⟩

theorem getD_nul_iff (front : List Char) {value : List Char} (h : nul ∉ value) :
    (front ++ value).getD front.length nul = nul ↔ value = [] := by
  rw [List.getD_append_right _ _ _ _ (Nat.le_refl _), Nat.sub_self]
  cases value with
  | nil => exact iff_of_true rfl rfl
  | cons c value =>
    refine iff_of_false (fun hc => h ?_) (List.cons_ne_nil _ _)
    rw [← hc]
    exact List.mem_cons_self

theorem unlessEmpty_eq {l : Locals} {a : CharArray} {size : ℕ} {front value : List Char}
    (h : Holds nul l.arrays a size (front ++ value)) (hvalue : nul ∉ value) :
    unlessEmpty a front.length l = some (if value = [] then l else l.add (.array a 0)) := by
  rw [unlessEmpty, h.read (by simp)]
  simp only [Option.bind_eq_bind, Option.bind_some, ne_eq, getD_nul_iff front hvalue, ite_not]

theorem meets_namedValue {l₀ : Locals} (properties : Properties) {a : CharArray} {name key : String}
    {defaultValue : Option String}
    (hsized : Sized l₀.arrays a (name.toList.length + PROPERTY_VALUE_MAX))
    (ha : CharArray.propBuf ∉ [a]) (hname : nul ∉ name.toList)
    (hshort : Short (defaultValue.getD "")) {part : Locals → Option Locals}
    (hpart : ∀ l, part l = (namedValue properties a name key name.toList.length defaultValue l).bind
      fun l => some (l.add (.array a 0))) :
    Stage.Meets l₀ ⟨part, [a],
      [plain (name.toList ++ valueOr properties key (defaultValue.getD ""))]⟩ := by
  intro l _ hscratch harrays
  obtain ⟨s, hvalue, hholds, hagree⟩ := namedValue_sized properties key
    (hsized.congr (harrays a List.mem_cons_self)) hname (Nat.le_refl _) hshort
  have hadd : part l = some (Locals.add { l with arrays := s } (.array a 0)) := by
    rw [hpart, hvalue]
    rfl
  exact ⟨s, _, adds_array hadd (hagree.mono (List.subset_cons_self _ _))
    (hscratch.agree hagree ha) List.mem_cons_self hholds rfl⟩

theorem meets_optionalValue {l₀ : Locals} (properties : Properties) {a : CharArray}
    {name key : String} {defaultValue : Option String}
    (hsized : Sized l₀.arrays a (name.toList.length + PROPERTY_VALUE_MAX))
    (ha : CharArray.propBuf ∉ [a]) (hname : nul ∉ name.toList)
    (hshort : Short (defaultValue.getD "")) :
    Stage.Meets l₀ ⟨optionalValue properties a name key name.toList.length defaultValue, [a],
      optional name (valueOr properties key (defaultValue.getD ""))⟩ := by
  intro l _ hscratch harrays
  obtain ⟨s, hvalue, hholds, hagree⟩ := namedValue_sized properties key
    (hsized.congr (harrays a List.mem_cons_self)) hname (Nat.le_refl _) hshort
  have hpart : optionalValue properties a name key name.toList.length defaultValue l =
      some (if valueOr properties key (defaultValue.getD "") = [] then { l with arrays := s }
        else Locals.add { l with arrays := s } (.array a 0)) := by
    rw [optionalValue, hvalue]
    exact unlessEmpty_eq hholds (valueOr_short properties key hshort).1
  have hagree' := hagree.mono (List.subset_cons_self CharArray.propBuf [a])
  by_cases hempty : valueOr properties key (defaultValue.getD "") = []
  · rw [if_pos hempty] at hpart
    exact ⟨s, [], adds_nothing hpart hagree' (hscratch.agree hagree ha) (if_pos hempty)⟩
  · rw [if_neg hempty] at hpart
    exact ⟨s, _, adds_array hpart hagree' (hscratch.agree hagree ha) List.mem_cons_self hholds
      (if_neg hempty)⟩

theorem meets_joinedOption (l₀ : Locals) (properties : Properties) {a : CharArray} {size : ℕ}
    {name : String} (key : String) (hsize : size = name.toList.length + 1 + PROPERTY_VALUE_MAX)
    (ha : CharArray.propBuf ∉ [a]) (hname : nul ∉ name.toList) :
    Stage.Meets l₀ ⟨joinedOption properties a size name key, [a],
      optional name (valueOr properties key "")⟩ := by
  intro l _ hscratch _
  have hdeclare : AgreeOff [a] l.arrays (l.arrays.declare a size) :=
    agreeOff_update _ List.mem_cons_self _
  obtain ⟨s, hget, hvalue, hagree⟩ := propertyGet_sized (l := l.declare a size) properties key
    (hscratch.agree hdeclare ha) (Nat.le_refl _) short_empty
  obtain ⟨hnul, hlength⟩ := valueOr_short properties key short_empty
  have hagree₁ : AgreeOff [.propBuf, a] l.arrays s :=
    (hdeclare.mono (by simp)).trans (hagree.mono (by simp))
  have hsized : Sized s a size :=
    (declare_sized l.arrays a size).agree hagree (by simpa [eq_comm] using ha)
  by_cases hempty : valueOr properties key "" = []
  · refine ⟨s, [], adds_nothing ?_ hagree₁ hvalue.sized (if_pos hempty)⟩
    dsimp only
    rw [joinedOption, hget]
    simp only [Option.bind_eq_bind, Option.bind_some, Locals.text, hvalue.text (Nat.zero_le _),
      List.drop_zero, hempty]
    rfl
  · obtain ⟨s', hcpy, hholds, hagree'⟩ := strcpy_sized (l := { l.declare a size with arrays := s })
      hsized hname (by omega)
    obtain ⟨s'', hcat, hholds', hagree''⟩ := strcat_holds
      (l := { l.declare a size with arrays := s' }) hholds hnul (by omega)
    have hagree₂ : AgreeOff [a] s s'' := hagree'.trans hagree''
    refine ⟨s'', _, adds_array ?_ (hagree₁.trans (hagree₂.mono (by simp)))
      (hvalue.sized.agree hagree₂ ha) List.mem_cons_self hholds' (if_neg hempty)⟩
    dsimp only
    rw [joinedOption, hget]
    simp only [Option.bind_eq_bind, Option.bind_some, Locals.text, hvalue.text (Nat.zero_le _),
      List.drop_zero, if_pos (List.length_pos_iff.mpr hempty)]
    simp only [hcpy, Option.bind_some]
    simp only [hcat, Option.bind_some]
    rfl

end Shashlik.LauncherVmOptions
