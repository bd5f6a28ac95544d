import Shashlik.PropertiesdReplies

set_option autoImplicit false

/-!
# What the answers of the daemon say

A Set is acknowledged whatever `writeProperty` did with it, and a Get sends the whole of an
array it filled in part. The first result says when an acknowledged Set can be read back, the
second one when a Get shows nothing but the store.
-/
namespace Shashlik.PropertiesdAnswers
open Settings CStrings LatestWrites Propertiesd PropertiesdPaths PropertiesdFrames
  PropertiesdReadYourWrites PropertiesdNames PropertiesdReplies

/-- The Set is answered with byte 1 and leaves the store `q'`. -/
def Acknowledged (q : QSettings) (s : RawSet) (q' : QSettings) : Prop :=
  ∃ o rest, readRequest s.stack q s.data = some (o, rest) ∧ o.settings = q' ∧
    o.reply.head? = some 1

def carriedValue (s : RawSet) : QByteArray := cString (s.data.drop (PROPERTY_KEY_MAX + 1))

/-- Every Get of the name that the Set carries shows the value that the Set carries. -/
def TookEffect (s : RawSet) (q' : QSettings) : Prop :=
  ∀ get : GetRequest, get.key = s.key →
    (handleGet q' get).map replyView = some (expectedView (carriedValue s))

theorem toLatin1_carried (s : RawSet) : toLatin1 s.value = carriedValue s :=
  toLatin1_fromLatin1 _

theorem zero_not_mem_cString (bytes : List UInt8) : 0 ∉ cString bytes := by
  intro h
  have hne := List.mem_takeWhile_imp h
  simp at hne

theorem carriedValue_length (s : RawSet) :
    (carriedValue s).length ≤ PROP_VALUE_MAX := by
  have hfits := s.fits
  have hstring := length_cString_le (s.data.drop (PROPERTY_KEY_MAX + 1))
  rw [List.length_drop] at hstring
  simp only [carriedValue, requestSize, PROPERTY_KEY_MAX, PROP_NAME_MAX] at *
  omega

theorem setReply_head (stack : Stack) : (setReply stack).head? = some 1 := by
  obtain ⟨n, hn⟩ : ∃ n, stack.bound = n + 1 := ⟨stack.bound - 1, by have := stack.bound_pos; omega⟩
  have hfirst : writeAll stack.byte [(0, 1)] 0 = 1 := by simp [writeAll]
  rw [setReply, hn, dump, List.range_succ_eq_map, List.map_cons, hfirst, cString,
    List.takeWhile_cons_of_pos (by decide)]
  rfl

theorem drop_getReply_of_full (stack : Stack) (rv : QByteArray) (hz : 0 ∉ rv)
    (hlen : rv.length = PROP_VALUE_MAX) : (getReply stack rv).drop 1 = rv := by
  have hlen' : rv.length = 92 := hlen
  apply List.ext_getElem
  · simp [getReply, dump, hlen]
  · intro i hi hi'
    simp only [getReply, dump, List.getElem_drop, List.getElem_map, List.getElem_range]
    rw [respMemory_apply, if_neg (by omega), if_pos (by omega), cString_of_not_mem rv hz,
      show 1 + i - 1 = i by omega, List.getD_eq_getElem?_getD, List.getElem?_append_left hi',
      List.getElem?_eq_getElem hi', Option.getD_some]

theorem replyView_getReply_of_le (stack : Stack) (rv : QByteArray) (hz : 0 ∉ rv)
    (hlen : rv.length ≤ PROP_VALUE_MAX) : replyView (getReply stack rv) = expectedView rv := by
  rcases Nat.lt_or_eq_of_le hlen with hlt | heq
  · exact replyView_getReply stack rv ⟨hz, hlt⟩
  · have hne : rv ≠ [] := by
      rintro rfl
      simp [PROP_VALUE_MAX] at heq
    rw [replyView, headD_getReply, drop_getReply_of_full stack rv hz heq, cString_of_not_mem rv hz,
      expectedView, if_neg hne, if_neg (by rw [heq]; decide)]

theorem handleGet_of_nil (q : QSettings) (get : GetRequest) (h : get.key = []) :
    handleGet q get = some (getReply get.stack []) := by
  have hget := answer_command_get get.stack q get.data (Nat.not_lt.mpr get.not_short) get.is_get
  rw [← GetRequest.key, h] at hget
  rw [handleGet, readRequest, List.take_of_length_le get.fits, hget]
  rfl

theorem acknowledged_iff (q : QSettings) (s : RawSet) (q' : QSettings) (hq : q.groups = []) :
    Acknowledged q s q' ↔ 2 ≤ s.data.length ∧
      (s.key = [] ∧ q' = q ∨
        Named s.key ∧ q' = cells.set q (propertyPath s.key) s.value) := by
  rw [Acknowledged, readRequest, List.take_of_length_le s.fits]
  by_cases hlen : s.data.length < 2
  · rw [answer_short _ _ _ hlen]
    simp only [Option.map_some, Option.some.injEq, Prod.mk.injEq]
    refine iff_of_false ?_ (fun h => absurd h.1 (by omega))
    rintro ⟨o, rest, ⟨rfl, -⟩, -, hreply⟩
    exact absurd hreply (by simp)
  · have hset := answer_command_set s.stack q s.data hlen s.is_set
    rw [← RawSet.key, ← RawSet.value] at hset
    rw [hset]
    simp only [Option.map_map, Option.map_eq_some_iff, Function.comp_apply, Prod.mk.injEq]
    constructor
    · rintro ⟨o, rest, ⟨q₁, hwrite, rfl, rfl⟩, rfl, -⟩
      refine ⟨by omega, ?_⟩
      by_cases hkey : s.key = []
      · simp only [writeProperty, hkey, ↓reduceIte, Option.some.injEq] at hwrite
        exact Or.inl ⟨hkey, hwrite.symm⟩
      · have hnamed : Named s.key := fun hdots => by
          rw [(writeProperty_eq_none_iff q s.key s.value).mpr ⟨hkey, hdots⟩] at hwrite
          exact absurd hwrite (by simp)
        rw [writeProperty_eq q _ _ hq hnamed] at hwrite
        exact Or.inr ⟨hnamed, (Option.some.inj hwrite).symm⟩
    · rintro ⟨-, ⟨hkey, rfl⟩ | ⟨hnamed, rfl⟩⟩
      · refine ⟨_, _, ⟨q', ?_, rfl, rfl⟩, rfl, setReply_head s.stack⟩
        simp [writeProperty, hkey]
      · exact ⟨_, _, ⟨_, writeProperty_eq q _ _ hq hnamed, rfl, rfl⟩, rfl, setReply_head s.stack⟩

theorem tookEffect_set (q : QSettings) (s : RawSet) (hq : q.groups = []) (h : Named s.key) :
    TookEffect s (cells.set q (propertyPath s.key) s.value) := by
  intro get hkey
  rw [handleGet_eq (cells.set q _ _) get hq (hkey ▸ h), hkey, cells.get_set, if_pos rfl,
    Option.getD_some, toLatin1_carried, Option.map_some,
    replyView_getReply_of_le _ (carriedValue s) (zero_not_mem_cString _) (carriedValue_length s)]

def getNothing : GetRequest where
  data := [kSystemPropertyGet, 0]
  stack := plainStack
  is_get := rfl
  not_short := by decide
  fits := by decide

theorem tookEffect_of_nil_iff (q : QSettings) (s : RawSet) (h : s.key = []) :
    TookEffect s q ↔ carriedValue s = [] := by
  have hnothing : ∀ stack, replyView (getReply stack []) = expectedView [] :=
    fun stack => replyView_getReply_of_le stack [] (by simp) (by simp)
  constructor
  · intro heffect
    have hview := heffect getNothing (h ▸ rfl)
    rw [handleGet_of_nil q getNothing rfl, Option.map_some, hnothing] at hview
    exact (congrArg Prod.snd (Option.some.inj hview)).symm
  · intro hvalue get hkey
    rw [handleGet_of_nil q get (hkey.trans h), Option.map_some, hnothing, hvalue]

/-- Over any store, a Set that is acknowledged can be read back unless it carries a value but
    no name. -/
theorem acknowledged_set_took_effect_iff (entries : AList (fun _ : QString => QString))
    (s : RawSet) :
    (∀ q', Acknowledged ⟨entries, []⟩ s q' → TookEffect s q') ↔
      (cString ((s.data.drop 1).take PROPERTY_KEY_MAX) = [] →
        cString (s.data.drop (PROPERTY_KEY_MAX + 1)) = []) := by
  have hkey : cString ((s.data.drop 1).take PROPERTY_KEY_MAX) = [] ↔ s.key = [] := by
    rw [RawSet.key, fromLatin1, List.map_eq_nil_iff]
  rw [hkey]
  constructor
  · intro heffect hnil
    by_cases hlen : 2 ≤ s.data.length
    · have hack := (acknowledged_iff ⟨entries, []⟩ s _ rfl).mpr ⟨hlen, Or.inl ⟨hnil, rfl⟩⟩
      exact (tookEffect_of_nil_iff _ s hnil).mp (heffect _ hack)
    · rw [List.drop_of_length_le (by simp only [PROPERTY_KEY_MAX]; omega)]
      rfl
  · intro hvalue q' hack
    rcases ((acknowledged_iff ⟨entries, []⟩ s q' rfl).mp hack).2 with ⟨hnil, rfl⟩ | ⟨hnamed, rfl⟩
    · exact (tookEffect_of_nil_iff _ s hnil).mpr (hvalue hnil)
    · exact tookEffect_set ⟨entries, []⟩ s rfl hnamed

def setNothing : RawSet where
  data := kSystemPropertySet :: (List.replicate PROPERTY_KEY_MAX 0 ++ [120])
  stack := plainStack
  is_set := rfl
  fits := by decide

theorem acknowledged_set_ignored :
    Acknowledged QSettings.empty setNothing QSettings.empty ∧
      ¬ TookEffect setNothing QSettings.empty := by
  refine ⟨(acknowledged_iff _ _ _ rfl).mpr ⟨by decide, Or.inl ⟨by decide, rfl⟩⟩, ?_⟩
  rw [tookEffect_of_nil_iff _ _ (by decide)]
  decide

/-- Two contents of the memory that differ in the local array only. -/
def SameOutside (stack stack' : Stack) : Prop :=
  ∀ i, PROP_VALUE_MAX < i → stack.byte i = stack'.byte i

/-- The reply to the Get does not depend on what the array held before. -/
def Determined (q : QSettings) (get : GetRequest) : Prop :=
  ∀ stack stack' : Stack, SameOutside stack stack' →
    handleGet q { get with stack := stack } = handleGet q { get with stack := stack' }

/-- The value and the two terminators leave no byte of the array as it was. -/
def FillsReply (rv : QByteArray) : Prop :=
  91 ≤ (cString rv).length ∨ rv.length = 90 ∧ (cString rv).length = 90

instance (rv : QByteArray) : Decidable (FillsReply rv) :=
  inferInstanceAs (Decidable (_ ∨ _ ∧ _))

def filledStack (b : UInt8) : Stack where
  byte i := if i ≤ PROP_VALUE_MAX then b else 0
  bound := PROP_VALUE_MAX + 1
  bound_pos := Nat.succ_pos _
  bound_zero := if_neg (Nat.not_succ_le_self _)

theorem sameOutside_filledStack (b b' : UInt8) : SameOutside (filledStack b) (filledStack b') := by
  intro i hi
  simp [filledStack, Nat.not_le.mpr hi]

theorem getElem_getReply (stack : Stack) (rv : QByteArray) (i : ℕ) (hi : i ≤ PROP_VALUE_MAX) :
    (getReply stack rv)[i]? = some (writeAll stack.byte (respWrites rv) i) := by
  rw [getReply, dump, List.getElem?_map, List.getElem?_range (Nat.lt_succ_of_le hi),
    Option.map_some]

theorem respMemory_untouched (m : Memory) (rv : QByteArray) (i : ℕ)
    (hi : (cString rv).length + 1 < i) (hlast : i ≠ rv.length + 2) :
    writeAll m (respWrites rv) i = m i := by
  rw [respMemory_apply, if_neg hlast, if_pos (by omega), List.getD_eq_getElem?_getD,
    List.getElem?_eq_none, Option.getD_none]
  rw [List.length_append, List.length_singleton]
  omega

theorem respMemory_touched (m m' : Memory) (rv : QByteArray) (i : ℕ)
    (hi : i ≤ (cString rv).length + 1 ∨ i = rv.length + 2) :
    writeAll m (respWrites rv) i = writeAll m' (respWrites rv) i := by
  rw [respMemory_apply, respMemory_apply]
  by_cases hlast : i = rv.length + 2
  · rw [if_pos hlast, if_pos hlast]
  · by_cases hfirst : 1 ≤ i
    · have hin : i - 1 < (cString rv ++ [0]).length := by
        rw [List.length_append, List.length_singleton]
        omega
      rw [if_neg hlast, if_neg hlast, if_pos hfirst, if_pos hfirst,
        List.getD_eq_getElem?_getD, List.getD_eq_getElem?_getD, List.getElem?_eq_getElem hin,
        Option.getD_some, Option.getD_some]
    · rw [if_neg hlast, if_neg hlast, if_neg hfirst, if_neg hfirst]

theorem getReply_determined_iff (rv : QByteArray) :
    (∀ stack stack' : Stack, SameOutside stack stack' → getReply stack rv = getReply stack' rv) ↔
      FillsReply rv := by
  have hstring := length_cString_le rv
  constructor
  · intro hsame
    by_contra hfills
    rw [FillsReply, not_or, not_and, Nat.not_le] at hfills
    -- the last byte of the array, or the one before it when the terminator lies there
    obtain ⟨i, hi, hbehind, hlast⟩ : ∃ i, i ≤ PROP_VALUE_MAX ∧ (cString rv).length + 1 < i ∧
        i ≠ rv.length + 2 := by
      simp only [PROP_VALUE_MAX]
      by_cases hlen : rv.length = 90
      · exact ⟨91, by omega, by have := hfills.2 hlen; omega, by omega⟩
      · exact ⟨92, by omega, by omega, by omega⟩
    have hreply := congrArg (fun r => r[i]?) (hsame _ _ (sameOutside_filledStack 0 1))
    simp only [getElem_getReply _ _ _ hi, respMemory_untouched _ _ _ hbehind hlast,
      Option.some.injEq, filledStack, if_pos hi] at hreply
    exact absurd hreply (by decide)
  · intro hfills stack stack' _
    apply List.map_congr_left
    intro i hi
    have hi' : i < 93 := List.mem_range.mp hi
    apply respMemory_touched
    rcases hfills with hlong | ⟨hlen, hfull⟩
    · omega
    · omega

/-- A Get sends nothing but what the store and the request determine exactly when its name has
    dots only, so that nothing is sent, or leads to a value that fills the array. -/
theorem get_determined_iff (entries : AList (fun _ : QString => QString)) (get : GetRequest) :
    Determined ⟨entries, []⟩ get ↔
      OnlyDots (cString (get.data.drop 1)) ∨
        get.key ≠ [] ∧ FillsReply (storedValue ⟨entries, []⟩ get.key) := by
  have hdots := onlyDots_iff (get.data.drop 1)
  rw [← GetRequest.key] at hdots
  rw [← hdots, Determined]
  by_cases hkey : get.key = []
  · have hreply : ∀ stack, handleGet ⟨entries, []⟩ { get with stack := stack } =
        some (getReply stack []) := fun stack => handleGet_of_nil _ _ hkey
    simp only [hreply, Option.some.injEq, getReply_determined_iff]
    refine iff_of_false (by decide) ?_
    rintro (⟨hne, -⟩ | ⟨hne, -⟩)
    · exact hne hkey
    · exact hne hkey
  · by_cases hnamed : Named get.key
    · have hreply : ∀ stack, handleGet ⟨entries, []⟩ { get with stack := stack } =
          some (getReply stack (storedValue ⟨entries, []⟩ get.key)) :=
        fun stack => handleGet_eq _ _ rfl hnamed
      simp only [hreply, Option.some.injEq, getReply_determined_iff]
      constructor
      · exact fun hfills => Or.inr ⟨hkey, hfills⟩
      · rintro (⟨-, hempty⟩ | ⟨-, hfills⟩)
        · exact absurd hempty hnamed
        · exact hfills
    · have hempty : splitGroups get.key = [] := not_not.mp hnamed
      refine iff_of_true (fun stack stack' _ => ?_) (Or.inl ⟨hkey, hempty⟩)
      have hnone : ∀ stack, handleGet ⟨entries, []⟩ { get with stack := stack } = none := by
        intro stack
        have hget := answer_command_get stack ⟨entries, []⟩ get.data
          (Nat.not_lt.mpr get.not_short) get.is_get
        rw [handleGet, readRequest, List.take_of_length_le get.fits, hget, ← GetRequest.key,
          (readProperty_eq_none_iff _ get.key).mpr ⟨hkey, hempty⟩]
        rfl
      rw [hnone, hnone]

theorem get_discloses_stack : ¬ Determined QSettings.empty getA := by
  intro hsame
  have hreply := hsame (filledStack 0) (filledStack 1) (sameOutside_filledStack 0 1)
  exact absurd hreply (by decide +kernel)

end Shashlik.PropertiesdAnswers
